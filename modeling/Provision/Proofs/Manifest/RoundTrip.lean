import Provision.Proofs.Manifest.Fields
import Provision.Template.Dell

namespace Provision

open Steps Entries

theorem Provider.ofValue_toValue {p : Provider} (hid : p.id ≠ "") (hkind : p.kind ≠ "")
    (api : Value) : Provider.ofValue api p.toValue = .ok p := by
  refine ofValue_eq_ok_iff.2 ⟨none, ofFields p.fields, toValue_eq p, get_ofFields, get_ofFields,
    hid, hkind, ?_⟩
  rw [get_ofFields, fields]
  cases hc : p.config <;> rfl

def Store.reloaded (s : Store) : Store := { s with extra := s.extra.merged }

theorem Store.ofValue_toValue {s : Store} (h : s.extra.Apart schema) :
    Store.ofValue s.toValue = .ok (some s.reloaded) := by
  have hkind : getD (withExtra s.fields s.extra) "type" (.text "sqlite") = s.kind := by
    rw [getD, get?_withExtra_of_apart h (by decide)]
    rfl
  have hpath : get (withExtra s.fields s.extra) "db_path" = s.path := by
    rw [get_withExtra h (by decide), lookup_path]
    cases s.path <;> rfl
  rw [toValue_eq, Value.ofEntries, Store.ofValue, hkind, hpath, ← schema,
    without_withExtra s.fields_mem_schema h, reloaded]

def Server.reloaded (s : Server) : Server := { s with extra := s.extra.merged }

theorem Server.ofValue_toValue {s : Server} (h : s.extra.Apart schema) :
    Server.ofValue s.toValue = .ok s.reloaded := by
  have hport : getD (withExtra [("port", s.port)] s.extra) "port" (.int 8321) = s.port := by
    rw [getD, get?_withExtra_of_apart h (by decide)]
    rfl
  rw [toValue_eq, Server.ofValue, Value.orElse_ofEntries]
  simp only [Value.ofEntries]
  rw [hport, ← schema, without_withExtra s.fields_mem_schema h, reloaded]

namespace Resource

variable {s : Section} {r : Resource}

theorem lookup_idField (s : Section) : s.schema.lookup s.idField = some .null := by
  cases s <;> rfl

theorem get_toEntries (h : r.extra.Apart s.fields) {field : String} (hf : field ∈ s.fields) :
    Entries.get (r.toEntries s) field = r.get field := by
  rw [toEntries, get_withExtra h hf, writtenFields, lookup_written]
  simp only [(written_eq s field).2 hf, true_and]
  cases r.get field <;> rfl

def reloaded (s : Section) (r : Resource) : Resource := ofEntries s (r.toEntries s)

theorem get_reloaded (h : r.extra.Apart s.fields) {field : String} {d : Value}
    (hd : s.schema.lookup field = some d) :
    (r.reloaded s).get field = if (r.get field).isNull then d else r.get field := by
  have hf : field ∈ s.fields := lookup_fields hd
  rw [reloaded, get_ofEntries, hd, Option.map_some, Option.getD_some, getD, toEntries,
    get?_withExtra_of_apart h hf, writtenFields, lookup_written]
  simp only [(written_eq s field).2 hf, true_and]
  cases (r.get field).isNull <;> rfl

theorem get_reloaded_of_null (h : r.extra.Apart s.fields) {field : String}
    (hd : s.schema.lookup field = some .null) : (r.reloaded s).get field = r.get field := by
  rw [get_reloaded h hd]
  cases r.get field <;> rfl

theorem identifier_reloaded (h : r.extra.Apart s.fields) :
    (r.reloaded s).identifier s = r.identifier s :=
  get_reloaded_of_null h (lookup_idField s)

theorem extra_reloaded (h : r.extra.Apart s.fields) : (r.reloaded s).extra = r.extra.merged :=
  without_withExtra (r.writtenFields_mem_fields s) h

theorem ofValue_toValue (h : r.extra.Apart s.fields) (hid : (r.identifier s).truthy = true)
    (hsingle : (r.identifier s).isNested = false) :
    Resource.ofValue s (r.toValue s) = .ok (r.reloaded s) := by
  have hget := get_toEntries h (lookup_fields (lookup_idField s))
  exact ofValue_eq_ok_iff.2
    ⟨none, r.toEntries s, rfl, by rwa [hget], by rwa [hget], rfl⟩

/-- A field that has been left out is null when absent, so that it is null again. -/
theorem get_reloaded_of_given (hgiven : r.Given s) (h : r.extra.Apart s.fields) {field : String}
    (hf : field ∈ s.fields) : (r.reloaded s).get field = r.get field := by
  obtain ⟨d, hd⟩ := Section.exists_lookup hf
  rw [get_reloaded h hd]
  cases hnull : r.get field with
  | null =>
      by_contra hne
      exact hgiven field ((Section.mem_defaulted_iff hd).2 hne) hnull
  | _ => rfl

structure Matches (s : Section) (r q : Resource) : Prop where
  fields : ∀ field ∈ s.fields, q.get field = r.get field
  extra : q.extra = r.extra

end Resource

namespace Manifest

variable {m : Manifest}

def reloaded (m : Manifest) : Manifest :=
  { m with
    imageName := m.imageName.orElse (.text "")
    metadataStore := m.metadataStore.map Store.reloaded
    inferenceStore := m.inferenceStore.map Store.reloaded
    resources := fun s => (m.resources s).map (Resource.reloaded s)
    server := m.server.reloaded
    extra := m.extra.merged }

/-- What reading asks for: providers have an identifier and a type, resources are identified by one
present value. No extra entry has a key of its record. -/
structure Readable (m : Manifest) : Prop where
  providers : ∀ e ∈ m.providers, ∀ p ∈ e.2, p.id ≠ "" ∧ p.kind ≠ ""
  resources : ∀ s, ∀ r ∈ m.resources s,
    (r.identifier s).truthy = true ∧ (r.identifier s).isNested = false
  extras : m.Extras Apart

theorem providersOf?_toValue (h : m.Readable) :
    providersOf? (.ofEntries
      (m.providers.map fun e => (e.1, .ofList (e.2.map Provider.toValue)))) = .ok m.providers := by
  rw [providersOf?, Value.orElse_ofEntries]
  refine mapM_eq_ok_iff.2 ?_
  rw [List.forall₂_map_left_iff, List.forall₂_same]
  intro e he
  refine bind_eq_ok_iff.2 ⟨e.2, mapM_eq_ok_iff.2 ?_, rfl⟩
  rw [List.forall₂_map_left_iff, List.forall₂_same]
  intro p hp
  obtain ⟨hid, hkind⟩ := h.providers e he p hp
  exact Provider.ofValue_toValue hid hkind _

theorem sectionOf?_toValue (h : m.Readable) (s : Section) :
    sectionOf? s (.ofList ((m.resources s).map (Resource.toValue s))) =
      .ok (m.reloaded.resources s) := by
  rw [sectionOf?, Value.orElse_ofList]
  refine mapM_eq_ok_iff.2 ?_
  rw [List.forall₂_map_left_iff, reloaded, List.forall₂_map_right_iff, List.forall₂_same]
  intro r hr
  obtain ⟨hid, hsingle⟩ := h.resources s r hr
  exact Resource.ofValue_toValue (h.extras.resources s r hr) hid hsingle

theorem storeOf?_toValue {s : Option Store} (h : ∀ t ∈ s, t.extra.Apart Store.schema) :
    Store.ofValue ((s.map Store.toValue).getD .null) = .ok (s.map Store.reloaded) := by
  cases s with
  | none => rfl
  | some t => exact Store.ofValue_toValue (h t rfl)

theorem apisOf?_ofTexts (apis : List String) : apisOf? (.ofTexts apis) = .ok apis := by
  rw [apisOf?, Value.ofTexts, Value.orElse_ofList]
  refine mapM_eq_ok_iff.2 ?_
  rw [List.forall₂_map_left_iff, List.forall₂_same]
  exact fun _ _ => rfl

theorem readFrom_toEntries (h : m.Readable) : ReadFrom m.toEntries m.reloaded := by
  have hget {k : String} (hk : k ∈ schema) {v : Value} (hv : m.fields.lookup k = some v) :
      Entries.get m.toEntries k = v := by
    rw [toEntries, get_withExtra h.extras.top hk, hv, Option.getD_some]
  have hstore {k : String} (hk : k ∈ schema) {s : Option Store}
      (hs : m.fields.lookup k = s.map Store.toValue) :
      Entries.get m.toEntries k = (s.map Store.toValue).getD .null := by
    rw [toEntries, get_withExtra h.extras.top hk, hs]
  exact
    { imageName := by rw [hget (k := "image_name") (by decide) rfl, reloaded]
      version := by
        rw [getD, toEntries, get?_withExtra_of_apart h.extras.top (by decide)]
        rfl
      apis := by
        rw [hget (k := "apis") (by decide) rfl]
        exact apisOf?_ofTexts m.apis
      providers := by
        rw [hget (k := "providers") (by decide) rfl]
        exact providersOf?_toValue h
      metadataStore := by
        rw [hstore (k := "metadata_store") (by decide) m.lookup_metadataStore]
        exact storeOf?_toValue h.extras.metadataStore
      inferenceStore := by
        rw [hstore (k := "inference_store") (by decide) m.lookup_inferenceStore]
        exact storeOf?_toValue h.extras.inferenceStore
      resources := fun s => by
        rw [hget (by cases s <;> decide) (lookup_section m s)]
        exact sectionOf?_toValue h s
      server := by
        rw [hget (by decide) m.lookup_server]
        exact Server.ofValue_toValue h.extras.server
      extra := (without_withExtra m.fields_mem_schema h.extras.top).symm }

/-- What is written is always read again. -/
theorem ofValue_toValue (h : m.Readable) : ofValue m.toValue = .ok m.reloaded :=
  ofValue_of_readFrom (readFrom_toEntries h) none

structure Matches (m n : Manifest) : Prop where
  imageName : n.imageName = m.imageName
  version : n.version = m.version
  apis : n.apis = m.apis
  providers : n.providers = m.providers
  metadataStore : n.metadataStore = m.metadataStore
  inferenceStore : n.inferenceStore = m.inferenceStore
  resources : ∀ s, List.Forall₂ (Resource.Matches s) (m.resources s) (n.resources s)
  server : n.server = m.server
  extra : n.extra = m.extra

/-- What a manifest has to be like to be the same when it is read again: a name that is absent is the
empty text, no field is null that has another value when absent, and extra entries have each key
once, as those of a mapping do. -/
structure Faithful (m : Manifest) : Prop extends Readable m where
  imageName : m.imageName = .text "" ∨ m.imageName.truthy = true
  given : ∀ s, ∀ r ∈ m.resources s, r.Given s
  mappings : m.Extras fun _ es => es.Distinct

theorem Faithful.matches (h : m.Faithful) : m.Matches m.reloaded := by
  have hstore {s : Option Store} (hs : ∀ t ∈ s, t.extra.Distinct) : s.map Store.reloaded = s := by
    cases s with
    | none => rfl
    | some t => rw [Option.map_some, Store.reloaded, merged_of_distinct (hs t rfl)]
  exact
    { imageName := by
        rcases h.imageName with he | ht
        · rw [reloaded, he]
          rfl
        · rw [reloaded, Value.orElse, if_pos ht]
      version := rfl
      apis := rfl
      providers := rfl
      metadataStore := hstore h.mappings.metadataStore
      inferenceStore := hstore h.mappings.inferenceStore
      resources := fun s => by
        rw [reloaded, List.forall₂_map_right_iff, List.forall₂_same]
        intro r hr
        have hapart := h.extras.resources s r hr
        refine ⟨fun field hf => Resource.get_reloaded_of_given (h.given s r hr) hapart hf, ?_⟩
        rw [Resource.extra_reloaded hapart, merged_of_distinct (h.mappings.resources s r hr)]
      server := by rw [reloaded, Server.reloaded, merged_of_distinct h.mappings.server]
      extra := merged_of_distinct h.mappings.top }

/-- A faithful manifest is read again from what it is written as, the same field by field. -/
theorem read_of_written {m : Manifest} (h : m.Faithful) :
    ∃ n, ofValue m.toValue = .ok n ∧ m.Matches n :=
  ⟨m.reloaded, ofValue_toValue h.toReadable, h.matches⟩

theorem read_of_written_for_template :
    ∃ m, Registry.builtin.runConfig "dell" "run-with-safety.yaml" = .ok m ∧ m.Faithful ∧
      ∃ n, ofValue m.toValue = .ok n ∧ m.Matches n := by
  let m := Template.Dell.template.manifest Template.Dell.withSafety
  have hplain : m.Extras fun _ es => es = [] :=
    { top := rfl
      metadataStore := by
        rintro _ ⟨⟩
        rfl
      inferenceStore := by
        rintro _ ⟨⟩
        rfl
      server := rfl
      resources := fun s => by cases s <;> decide }
  have hfaithful : m.Faithful :=
    { providers := by decide
      resources := fun s => by cases s <;> decide
      extras := hplain.mono (by rintro _ _ rfl; exact nofun)
      imageName := .inr rfl
      given := fun s => by cases s <;> decide
      mappings := hplain.mono (by rintro _ _ rfl; exact .nil) }
  exact ⟨m, rfl, hfaithful, read_of_written hfaithful⟩

end Manifest
end Provision
