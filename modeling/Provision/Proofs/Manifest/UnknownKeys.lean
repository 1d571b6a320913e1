import Provision.Proofs.Manifest.Reloading
import Provision.Proofs.Value.Everywhere

namespace Provision

open Steps Entries

namespace Entries

variable {es : Entries} {names others : List String}

instance (es : Entries) : Decidable es.Distinct :=
  inferInstanceAs (Decidable (List.Pairwise _ _))

theorem distinct_without (h : es.Distinct) (names : List String) :
    (without es names).Distinct :=
  List.Pairwise.sublist (List.filter_sublist.map _) h

theorem without_congr (h : ∀ n, n ∈ names ↔ n ∈ others) :
    without es names = without es others := by
  refine List.filter_congr fun e _ => ?_
  rw [Bool.not_inj_iff, Bool.eq_iff_iff, List.any_eq_true, List.any_eq_true]
  simp only [h]

end Entries

namespace Value

def entries (v : Value) : Entries := v.entries?.getD []

def items (v : Value) : List Value := v.items?.getD []

def field (v : Value) (k : String) : Value := Entries.get v.entries k

def isKeyed : Value → Bool
  | map _ es => decide (Entries.Distinct es)
  | _ => true

theorem distinct_entries {v : Value} (h : v.everywhere isKeyed = true) : v.entries.Distinct := by
  cases v with
  | map anchor es => exact of_decide_eq_true (everywhere_self h)
  | _ => exact .nil

theorem everywhere_items {p : Value → Bool} {v : Value} (h : v.everywhere p = true) :
    ∀ x ∈ v.items, x.everywhere p = true := by
  cases v with
  | list anchor xs => exact everywhere_item h
  | _ => exact nofun

theorem everywhere_field {v : Value} (h : v.everywhere isKeyed = true) (k : String) :
    (v.field k).everywhere isKeyed = true := by
  cases v with
  | map anchor es => exact everywhere_getD h (.text k) rfl
  | _ => rfl

theorem entries_of_orElse_eq {v : Value} {anchor : Option Nat} {es : Entries}
    (h : v.orElse (ofEntries []) = map anchor es) : v.entries = es := by
  cases v with
  | map b fs => exact (entries_of_orElse h).symm
  | _ =>
      rw [orElse] at h
      split at h
      next => cases h
      next => exact (Value.map.inj h).2

theorem items_of_orElse_eq {v : Value} {anchor : Option Nat} {xs : List Value}
    (h : v.orElse (ofList []) = list anchor xs) : v.items = xs := by
  cases v with
  | list b ys => exact (items_of_orElse h).symm
  | _ =>
      rw [orElse] at h
      split at h
      next => cases h
      next => exact (Value.list.inj h).2

end Value

/-- A record is written with its fields, in the order of its schema, and then with what was read under
keys that the schema does not name. -/
structure WrittenBack (names : List String) (fields : List (String × Value)) (read : Entries)
    (written : Value) : Prop where
  entries : written = .ofEntries (ofFields fields ++ read.without names)
  order : (fields.map (·.1)).Sublist names

theorem writtenBack_of_withExtra {names : List String} {fields : List (String × Value)}
    {es : Entries} (hd : es.Distinct) (horder : (fields.map (·.1)).Sublist names) :
    WrittenBack names fields es (.ofEntries (withExtra fields (es.without names))) := by
  have hfields : ∀ f ∈ fields, f.1 ∈ names :=
    fun f hf => horder.subset (List.mem_map_of_mem hf)
  refine ⟨?_, horder⟩
  rw [withExtra_eq_append hfields (apart_without es names),
    merged_of_distinct (distinct_without hd names)]

theorem WrittenBack.without_eq {names : List String} {fields : List (String × Value)}
    {es fs : Entries} {w : Value} (h : WrittenBack names fields es w)
    (h' : WrittenBack names fields fs w) : es.without names = fs.without names :=
  List.append_cancel_left (Value.map.inj (h.entries.symm.trans h'.entries)).2

namespace Provider

def schema : List String := ["provider_id", "provider_type", "config"]

/-- A provider is written as if no other keys had been read. -/
theorem writtenBack (p : Provider) : WrittenBack schema p.fields [] p.toValue := by
  refine ⟨by simp [toValue_eq, without], ?_⟩
  rw [fields]
  split
  next => exact List.Sublist.cons_cons _ (.cons_cons _ (.cons _ .slnil))
  next => exact .refl _

theorem writtenBack_iff (p : Provider) (es : Entries) :
    WrittenBack schema p.fields es p.toValue ↔ without es schema = [] := by
  constructor
  · exact fun h => h.without_eq p.writtenBack
  · intro h
    refine ⟨?_, p.writtenBack.order⟩
    rw [h, p.writtenBack.entries]
    rfl

end Provider

theorem Store.writtenBack {v : Value} {s : Option Store} (hv : v.everywhere Value.isKeyed = true)
    (hnull : v ≠ .null) (h : Store.ofValue v = .ok s) :
    ∃ t, s = some t ∧ WrittenBack schema t.fields v.entries t.toValue := by
  cases v with
  | null => exact absurd rfl hnull
  | map anchor es =>
      obtain ⟨t, rfl, -, -, hextra⟩ := Store.ofValue_map_eq_ok h
      have horder : (t.fields.map (·.1)).Sublist schema := by
        rw [fields]
        split
        next => exact List.Sublist.cons_cons _ (.cons _ .slnil)
        next => exact .refl _
      refine ⟨t, rfl, ?_⟩
      rw [toValue_eq, hextra]
      exact writtenBack_of_withExtra (Value.distinct_entries hv) horder
  | _ => cases h

theorem Server.writtenBack {v : Value} {s : Server} (hv : v.everywhere Value.isKeyed = true)
    (h : Server.ofValue v = .ok s) :
    WrittenBack schema [("port", s.port)] v.entries s.toValue := by
  obtain ⟨anchor, es, hes, rfl⟩ := Server.ofValue_eq_ok h
  rw [← Value.entries_of_orElse_eq hes]
  exact writtenBack_of_withExtra (Value.distinct_entries hv) (.refl _)

theorem Resource.writtenFields_order (s : Section) (r : Resource) :
    ((r.writtenFields s).map (·.1)).Sublist s.written := by
  have hall : (r.writtenFields s).Sublist (s.written.map fun f => (f, r.get f)) :=
    List.filter_sublist
  simpa [List.map_map, Function.comp_def] using hall.map (·.1)

theorem Resource.writtenBack {s : Section} {v : Value} {r : Resource}
    (hv : v.everywhere Value.isKeyed = true) (h : Resource.ofValue s v = .ok r) :
    WrittenBack s.written (r.writtenFields s) v.entries (r.toValue s) := by
  obtain ⟨anchor, es, rfl, -, -, rfl⟩ := Resource.ofValue_eq_ok_iff.1 h
  have hextra : (ofEntries s es).extra = without es s.written :=
    without_congr fun n => (written_eq s n).symm
  rw [toValue, toEntries, hextra]
  exact writtenBack_of_withExtra (Value.distinct_entries hv) (writtenFields_order s _)

namespace Manifest

variable {d : Value} {m : Manifest}

theorem fields_order (m : Manifest) : (m.fields.map (·.1)).Sublist schema := by
  cases hm : m.metadataStore <;> cases hi : m.inferenceStore <;>
    simp [fields, storeField, hm, hi, Section.all, sectionField, Section.name, schema]

def ProvidersRead (R : Value → Provider → Prop) (d : Value) (m : Manifest) : Prop :=
  List.Forall₂ (fun e p => p.1 = e.1 ∧ List.Forall₂ R e.2.items p.2)
    (d.field "providers").entries m.providers

theorem providersRead_and_iff {P : Value → Prop} {R : Value → Provider → Prop} :
    ProvidersRead (fun x q => P x ∧ R x q) d m ↔
      (∀ e ∈ (d.field "providers").entries, ∀ x ∈ e.2.items, P x) ∧ ProvidersRead R d m := by
  simp only [ProvidersRead, List.forall₂_and_left, @and_left_comm (_ = _)]

/-- The keys that the schema does not name are written back: those of the document after all of the
schema, those of a store, the server and each resource in the record's place. -/
structure UnknownKept (d : Value) (m : Manifest) : Prop where
  top : WrittenBack schema m.fields d.entries m.toValue
  metadataStore : d.field "metadata_store" ≠ .null → ∃ s, m.metadataStore = some s ∧
    WrittenBack Store.schema s.fields (d.field "metadata_store").entries
      (m.toValue.field "metadata_store")
  inferenceStore : d.field "inference_store" ≠ .null → ∃ s, m.inferenceStore = some s ∧
    WrittenBack Store.schema s.fields (d.field "inference_store").entries
      (m.toValue.field "inference_store")
  server : WrittenBack Server.schema [("port", m.server.port)] (d.field "server").entries
    (m.toValue.field "server")
  resources : ∀ s : Section,
    m.toValue.field s.name = .ofList ((m.resources s).map (Resource.toValue s)) ∧
    List.Forall₂ (fun x r => WrittenBack s.written (r.writtenFields s) x.entries (r.toValue s))
      (d.field s.name).items (m.resources s)

theorem field_toValue (h : m.extra.Apart schema) {k : String} (hk : k ∈ schema) :
    m.toValue.field k = (m.fields.lookup k).getD .null :=
  get_withExtra h hk

theorem unknownKept_of_read (hd : d.everywhere Value.isKeyed = true) (h : ofValue d = .ok m) :
    UnknownKept d m := by
  obtain ⟨anchor, es, rfl, hread⟩ := ofValue_eq_ok h
  have hapart : m.extra.Apart schema := hread.readable.extras.top
  have hfield (k : String) : (Value.field (.map anchor es) k).everywhere Value.isKeyed = true :=
    Value.everywhere_field hd k
  refine
    { top := ?_
      metadataStore := fun hnull => ?_
      inferenceStore := fun hnull => ?_
      server := ?_
      resources := fun s => ⟨?_, ?_⟩ }
  · rw [toValue, toEntries, hread.extra]
    exact writtenBack_of_withExtra (Value.distinct_entries hd) m.fields_order
  · obtain ⟨s, hs, hback⟩ := Store.writtenBack (hfield _) hnull hread.metadataStore
    rw [field_toValue hapart (by decide), lookup_metadataStore, hs]
    exact ⟨s, rfl, hback⟩
  · obtain ⟨s, hs, hback⟩ := Store.writtenBack (hfield _) hnull hread.inferenceStore
    rw [field_toValue hapart (by decide), lookup_inferenceStore, hs]
    exact ⟨s, rfl, hback⟩
  · rw [field_toValue hapart (by decide), lookup_server]
    exact Server.writtenBack (hfield _) hread.server
  · rw [field_toValue hapart (by cases s <;> decide), lookup_section]
    rfl
  · obtain ⟨b, xs, hlist, hall⟩ := sectionOf?_eq_ok (hread.resources s)
    have hitems : (Value.field (.map anchor es) s.name).items = xs := Value.items_of_orElse_eq hlist
    have hkeyed := Value.everywhere_items (hfield s.name)
    rw [hitems] at hkeyed ⊢
    refine List.Forall₂.imp (fun x r hread => ?_) ((List.forall₂_and_left xs _).2 ⟨hkeyed, hall⟩)
    exact Resource.writtenBack hread.1 hread.2

theorem providersRead_of_read (h : ofValue d = .ok m) :
    m.toValue.field "providers" =
      .ofEntries (m.providers.map fun e => (e.1, .ofList (e.2.map Provider.toValue))) ∧
    ProvidersRead (fun _ q => WrittenBack Provider.schema q.fields [] q.toValue) d m := by
  obtain ⟨anchor, es, rfl, hread⟩ := ofValue_eq_ok h
  refine ⟨?_, ?_⟩
  · rw [field_toValue hread.readable.extras.top (by decide)]
    rfl
  · obtain ⟨b, ps, hmap, hall⟩ := providersOf?_eq_ok hread.providers
    rw [ProvidersRead, show (Value.field (.map anchor es) "providers").entries = ps from
      Value.entries_of_orElse_eq hmap]
    refine hall.imp fun e p => ?_
    rintro ⟨hkey, a, xs, hlist, hxs⟩
    rw [hlist]
    exact ⟨hkey, hxs.imp fun x q _ => q.writtenBack⟩

/-- What is written back of an accepted document has the unknown keys of every record but the
providers. Those of a provider are lost, so that nothing is lost where no provider has any. -/
theorem unknown_kept_of_read (hd : d.everywhere Value.isKeyed = true) (h : ofValue d = .ok m) :
    UnknownKept d m ∧
    m.toValue.field "providers" =
      .ofEntries (m.providers.map fun e => (e.1, .ofList (e.2.map Provider.toValue))) ∧
    ProvidersRead (fun _ q => WrittenBack Provider.schema q.fields [] q.toValue) d m ∧
    (ProvidersRead (fun x q => WrittenBack Provider.schema q.fields x.entries q.toValue) d m ↔
      ∀ e ∈ (d.field "providers").entries, ∀ x ∈ e.2.items,
        x.entries.without Provider.schema = []) := by
  obtain ⟨hfield, hproviders⟩ := providersRead_of_read h
  refine ⟨unknownKept_of_read hd h, hfield, hproviders, ?_⟩
  -- A provider is written without unknown keys whatever was read, so the two sides say the same.
  have hiff (x : Value) (q : Provider) :
      WrittenBack Provider.schema q.fields x.entries q.toValue ↔
        x.entries.without Provider.schema = [] ∧
          WrittenBack Provider.schema q.fields [] q.toValue := by
    rw [q.writtenBack_iff, and_iff_left q.writtenBack]
  simp only [hiff]
  rw [providersRead_and_iff, and_iff_left hproviders]

theorem unknown_kept_of_read_at_each_level :
    let provider := Value.record [("provider_id", .text "tgi"), ("provider_type", .text "remote::tgi")]
    let model := Value.record [("owner", .text "ops"), ("model_id", .text "llama")]
    let d := Value.record [("team", .text "ml"), ("image_name", .text "dell"),
      ("providers", .record [("inference", .ofList [provider])]),
      ("metadata_store", .record [("db_path", .text "/data/meta.db"), ("pool", .int 4)]),
      ("models", .ofList [model]), ("server", .record [("tls", .bool true)])]
    ∃ m, ofValue d = .ok m ∧ d.everywhere Value.isKeyed = true ∧ UnknownKept d m ∧
      ProvidersRead (fun x q => WrittenBack Provider.schema q.fields x.entries q.toValue) d m := by
  intro provider model d
  obtain ⟨m, hm⟩ : ∃ m, ofValue d = .ok m := ⟨_, rfl⟩
  have hd : d.everywhere Value.isKeyed = true := by decide
  obtain ⟨hkept, -, -, hiff⟩ := unknown_kept_of_read hd hm
  exact ⟨m, hm, hd, hkept, hiff.2 (by decide)⟩

/-- A description of a provider is read and not written back. -/
theorem description_lost_of_provider :
    ¬ ∀ (d : Value) (m : Manifest), d.everywhere Value.isKeyed = true → ofValue d = .ok m →
      ProvidersRead (fun x q => WrittenBack Provider.schema q.fields x.entries q.toValue) d m := by
  intro hevery
  let provider := Value.record [("provider_id", .text "tgi"),
    ("provider_type", .text "remote::tgi"), ("description", .text "local")]
  let d := Value.record [("image_name", .text "dell"), ("apis", .ofList [.text "inference"]),
    ("providers", .record [("inference", .ofList [provider])])]
  obtain ⟨m, hm, hproviders⟩ : ∃ m, ofValue d = .ok m ∧
      m.providers = [(.text "inference", [⟨"tgi", "remote::tgi", []⟩])] := ⟨_, rfl, rfl⟩
  have hback := hevery d m (by decide) hm
  rw [ProvidersRead, hproviders] at hback
  obtain ⟨⟨-, hall⟩, -⟩ := List.forall₂_cons.1 hback
  obtain ⟨hlost, -⟩ := List.forall₂_cons.1 hall
  exact absurd ((Provider.writtenBack_iff _ _).1 hlost) (by decide)

end Manifest
end Provision
