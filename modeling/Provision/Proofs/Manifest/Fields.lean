import Provision.Proofs.Manifest.Reading
import Provision.Proofs.Value.Record

namespace Provision

open Entries

def Provider.fields (p : Provider) : List (String × Value) :=
  [("provider_id", .text p.id), ("provider_type", .text p.kind)]
    ++ if p.config.isEmpty then [] else [("config", .ofEntries p.config)]

theorem Provider.toValue_eq (p : Provider) : p.toValue = .ofEntries (ofFields p.fields) := rfl

theorem Provider.lookup_config (p : Provider) : p.fields.lookup "config" =
    if p.config.isEmpty then none else some (.ofEntries p.config) := by
  rw [fields]
  split <;> rfl

namespace Store

def schema : List String := ["type", "db_path"]

def fields (s : Store) : List (String × Value) :=
  [("type", s.kind)] ++ if s.path.isNull then [] else [("db_path", s.path)]

theorem toValue_eq (s : Store) : s.toValue = .ofEntries (withExtra s.fields s.extra) := rfl

theorem lookup_path (s : Store) :
    s.fields.lookup "db_path" = if s.path.isNull then none else some s.path := by
  rw [fields]
  split <;> rfl

theorem fields_mem_schema (s : Store) : ∀ f ∈ s.fields, f.1 ∈ schema := by
  rw [fields]
  split <;> simp [schema]

end Store

namespace Server

def schema : List String := ["port"]

theorem toValue_eq (s : Server) : s.toValue = .ofEntries (withExtra [("port", s.port)] s.extra) :=
  rfl

theorem fields_mem_schema (s : Server) : ∀ f ∈ [("port", s.port)], f.1 ∈ schema := by
  simp [schema]

end Server

namespace Section

/-- The fields that have a value other than null when absent. -/
def defaulted : Section → List String
  | models => ["model_type", "metadata"]
  | benchmarks => ["scoring_functions"]
  | _ => []

theorem mem_defaulted_iff {s : Section} {field : String} {d : Value}
    (h : s.schema.lookup field = some d) : field ∈ s.defaulted ↔ d ≠ .null := by
  have hall : ∀ f ∈ s.schema, f.1 ∈ s.defaulted ↔ f.2 ≠ .null := by
    cases s <;> simp [schema, defaulted, Value.ofEntries, Value.ofList]
  obtain ⟨as, bs, hs, -⟩ := List.lookup_eq_some_iff.1 h
  exact hall (field, d) (by simp [hs])

theorem defaulted_subset (s : Section) : s.defaulted ⊆ s.fields := by
  cases s <;> simp [defaulted, fields, schema]

theorem exists_lookup {s : Section} {field : String} (h : field ∈ s.fields) :
    ∃ d, s.schema.lookup field = some d := by
  obtain ⟨f, hf, rfl⟩ := List.mem_map.1 h
  exact Option.isSome_iff_exists.1 (List.lookup_isSome_iff.2 ⟨f, hf, beq_self_eq_true _⟩)

end Section

namespace Resource

theorem written_eq (s : Section) (field : String) : field ∈ s.written ↔ field ∈ s.fields := by
  cases s with
  | models => simp [Section.written, Section.fields, Section.schema]; tauto
  | _ => rfl

theorem lookup_fields {s : Section} {field : String} {d : Value}
    (h : s.schema.lookup field = some d) : field ∈ s.fields := by
  obtain ⟨as, bs, hs, -⟩ := List.lookup_eq_some_iff.1 h
  rw [Section.fields, hs]
  simp

theorem lookup_written (names : List String) (g : String → Value) (field : String) :
    ((names.map fun f => (f, g f)).filter fun f => !f.2.isNull).lookup field =
      if field ∈ names ∧ (g field).isNull = false then some (g field) else none := by
  induction names with
  | nil => simp
  | cons n names ih =>
      by_cases hn : field = n
      · subst hn
        cases hg : (g field).isNull <;> simp [hg, ih]
      · have hbeq : (field == n) = false := by simpa using hn
        cases hg : (g n).isNull <;> simp [hg, ih, hn, List.lookup_cons, hbeq]

theorem lookup_map_schema (schema : List (String × Value)) (g : String → Value → Value)
    (field : String) : (schema.map fun f => (f.1, g f.1 f.2)).lookup field =
      (schema.lookup field).map (g field) := by
  induction schema with
  | nil => rfl
  | cons f schema ih =>
      rw [List.map_cons, List.lookup_cons, List.lookup_cons, ih]
      cases hf : field == f.1 with
      | true => rw [eq_of_beq hf]; rfl
      | false => rfl

theorem get_ofEntries (s : Section) (es : Entries) (field : String) :
    (ofEntries s es).get field =
      ((s.schema.lookup field).map (Entries.getD es field)).getD .null := by
  rw [get, ofEntries, lookup_map_schema]

theorem mem_writtenFields {s : Section} {r : Resource} {field : String} {v : Value} :
    (field, v) ∈ r.writtenFields s ↔ field ∈ s.fields ∧ r.get field = v ∧ v.isNull = false := by
  rw [writtenFields, List.mem_filter, List.mem_map, ← written_eq]
  constructor
  · rintro ⟨⟨n, hn, he⟩, hne⟩
    cases he
    exact ⟨hn, rfl, by simpa using hne⟩
  · rintro ⟨hn, rfl, hne⟩
    exact ⟨⟨field, hn, rfl⟩, by simp [hne]⟩

theorem writtenFields_mem_fields (s : Section) (r : Resource) :
    ∀ f ∈ r.writtenFields s, f.1 ∈ s.fields :=
  fun _ hf => (mem_writtenFields.1 hf).1

def Given (s : Section) (r : Resource) : Prop := ∀ field ∈ s.defaulted, r.get field ≠ .null

instance (s : Section) (r : Resource) : Decidable (r.Given s) :=
  decidable_of_iff (∀ field ∈ s.defaulted, (r.get field).isNull = false) <| by
    simp only [Given, ne_eq, ← Value.isNull_iff, Bool.not_eq_true]

end Resource

namespace Manifest

theorem lookup_storeField (name k : String) (s : Option Store) :
    (storeField name s).lookup k = if k = name then s.map Store.toValue else none := by
  cases s with
  | none => simp [storeField]
  | some s =>
      by_cases hk : k = name
      · simp [storeField, hk]
      · have hbeq : (k == name) = false := by simpa using hk
        simp [storeField, List.lookup_cons, hk, hbeq]

theorem lookup_section (m : Manifest) (s : Section) :
    m.fields.lookup s.name = some (.ofList ((m.resources s).map (Resource.toValue s))) := by
  cases s <;> simp [fields, List.lookup_append, List.lookup_cons, lookup_storeField, Section.all,
    sectionField, Section.name]

theorem lookup_server (m : Manifest) : m.fields.lookup "server" = some m.server.toValue := by
  simp [fields, List.lookup_append, List.lookup_cons, lookup_storeField, Section.all,
    sectionField, Section.name]

theorem lookup_metadataStore (m : Manifest) :
    m.fields.lookup "metadata_store" = m.metadataStore.map Store.toValue := by
  simp [fields, List.lookup_append, List.lookup_cons, lookup_storeField, Section.all, sectionField,
    Section.name]

theorem lookup_inferenceStore (m : Manifest) :
    m.fields.lookup "inference_store" = m.inferenceStore.map Store.toValue := by
  simp [fields, List.lookup_append, List.lookup_cons, lookup_storeField, Section.all, sectionField,
    Section.name]

theorem fields_mem_schema (m : Manifest) : ∀ f ∈ m.fields, f.1 ∈ schema := by
  have hstores : ∀ f ∈ storeField "metadata_store" m.metadataStore
      ++ storeField "inference_store" m.inferenceStore, f.1 ∈ schema := by
    cases m.metadataStore <;> cases m.inferenceStore <;> simp [storeField, schema]
  simp only [List.forall_mem_append] at hstores
  simp only [fields, List.forall_mem_append]
  exact ⟨⟨⟨⟨by simp [schema], hstores.1⟩, hstores.2⟩, by simp [Section.all, sectionField,
    Section.name, schema]⟩, by simp [schema]⟩

structure Extras (P : List String → Entries → Prop) (m : Manifest) : Prop where
  top : P schema m.extra
  metadataStore : ∀ s ∈ m.metadataStore, P Store.schema s.extra
  inferenceStore : ∀ s ∈ m.inferenceStore, P Store.schema s.extra
  server : P Server.schema m.server.extra
  resources : ∀ s, ∀ r ∈ m.resources s, P s.fields r.extra

theorem Extras.mono {P Q : List String → Entries → Prop} {m : Manifest} (h : m.Extras P)
    (hPQ : ∀ names es, P names es → Q names es) : m.Extras Q where
  top := hPQ _ _ h.top
  metadataStore := fun s hs => hPQ _ _ (h.metadataStore s hs)
  inferenceStore := fun s hs => hPQ _ _ (h.inferenceStore s hs)
  server := hPQ _ _ h.server
  resources := fun s r hr => hPQ _ _ (h.resources s r hr)

end Manifest
end Provision
