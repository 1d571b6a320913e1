import Provision.Proofs.Manifest.Consistency
import Provision.Proofs.Manifest.Fields
import Provision.Proofs.Manifest.Problems
import Provision.Proofs.Value.Everywhere

namespace Provision

theorem Resource.everywhere_get {p : Value → Bool} {s : Section} {v : Value} {r : Resource}
    (hnull : p .null = true) (hschema : ∀ f ∈ s.schema, f.2.everywhere p = true)
    (hv : v.everywhere p = true) (h : Resource.ofValue s v = .ok r) (field : String) :
    (r.get field).everywhere p = true := by
  obtain ⟨a, es, rfl, -, -, rfl⟩ := Resource.ofValue_eq_ok_iff.1 h
  rw [get_ofEntries]
  cases hd : s.schema.lookup field with
  | none => exact hnull
  | some d =>
      obtain ⟨as, bs, he, -⟩ := List.lookup_eq_some_iff.1 hd
      exact Value.everywhere_getD hv (.text field) (hschema (field, d) (by simp [he]))

namespace Manifest

open Steps

/-- What holds everywhere in a document holds everywhere in the resources that are read from it. -/
theorem everywhere_of_read {p : Value → Bool} {d : Value} {m : Manifest} {s : Section} {r : Resource}
    (hnull : p .null = true) (hnil : p (.ofList []) = true)
    (hschema : ∀ f ∈ s.schema, f.2.everywhere p = true) (hd : d.everywhere p = true)
    (h : ofValue d = .ok m) (hr : r ∈ m.resources s) (field : String) :
    (r.get field).everywhere p = true := by
  obtain ⟨a, es, rfl, hread⟩ := ofValue_eq_ok h
  obtain ⟨b, xs, x, hlist, hx, hresource⟩ := hread.items hr
  have hnil : (Value.ofList []).everywhere p = true := by
    simpa [Value.everywhere, Value.ofList, Value.everywhereIn] using hnil
  have hsection : ((Entries.get es s.name).orElse (.ofList [])).everywhere p = true :=
    Value.everywhere_orElse (Value.everywhere_getD hd _ hnull) hnil
  rw [hlist] at hsection
  exact Resource.everywhere_get hnull hschema (Value.everywhere_item hsection x hx) hresource field

variable {m : Manifest} {r : Resource}

/-- What is found of a manifest can be told. -/
def Tellable (m : Manifest) : Prop := ∀ x ∈ m.findings, x.Tellable

/-- Checking goes on beyond what is found. -/
def Unstuck (xs : List Finding) : Prop := ∀ x ∈ xs, x.isStuck = false

theorem unstuck_append_iff {xs ys : List Finding} : Unstuck (xs ++ ys) ↔ Unstuck xs ∧ Unstuck ys :=
  List.forall_mem_append

theorem unstuck_flatMap_iff {α : Type} {f : α → List Finding} {as : List α} :
    Unstuck (as.flatMap f) ↔ ∀ a ∈ as, Unstuck (f a) :=
  List.forall_mem_flatMap

theorem checkHashable_unstuck_iff {v : Value} : Unstuck (checkHashable v) ↔ v.hashable = true := by
  rw [checkHashable, Unstuck]
  split <;> simp [*, Finding.isStuck]

theorem checkMember_unstuck_iff {seen : List Value} {v : Value} {absent present : List Finding}
    (habsent : Unstuck absent) (hpresent : Unstuck present) :
    Unstuck (checkMember seen v absent present) ↔ v.searchable = true := by
  rw [checkMember]
  cases v.searchable with
  | false => simp [Unstuck, Finding.isStuck]
  | true =>
      cases v.elem seen with
      | false => simpa using habsent
      | true => simpa using hpresent

theorem checkSection_unstuck_iff {s : Section} {ids : List String} {seen : List Value}
    {rs : List Resource} :
    Unstuck (checkSection s ids seen rs) ↔ ∀ r ∈ rs, (r.identifier s).hashable = true := by
  induction rs generalizing seen with
  | nil => simp [checkSection, Unstuck]
  | cons r rs ih =>
      have hpresent : Unstuck (if Placeholder.inValue (r.identifier s) then [] else [.repeated s r]) := by
        split <;> simp [Unstuck, Finding.isStuck]
      have hbinding : Unstuck (checkBinding s ids r) := by
        intro x hx
        obtain ⟨n, rfl⟩ | rfl := mem_checkBinding hx
        · rfl
        · rfl
      simp only [checkSection, unstuck_append_iff, checkHashable_unstuck_iff, ih, hbinding, and_true,
        checkMember_unstuck_iff (List.forall_mem_nil _) hpresent, List.forall_mem_cons]
      refine and_congr_left fun _ => and_iff_right_of_imp Value.searchable_of_hashable

theorem lookup_unstuck_iff {exempt : Bool} {vs : List Value} {v : Value} {x : Finding}
    (hx : x.isStuck = false) :
    Unstuck (if exempt then [] else checkMember vs v [x] []) ↔ (exempt = false → v.searchable = true) := by
  have habsent : Unstuck [x] := List.forall_mem_singleton.2 hx
  cases exempt with
  | true => simp [Unstuck]
  | false => simpa using checkMember_unstuck_iff habsent (List.forall_mem_nil _)

theorem checkVectorDb_unstuck_iff {embeddings : List Value} :
    Unstuck (checkVectorDb embeddings r) ↔
      ((r.get "embedding_model").truthy = true →
        Placeholder.inValue (r.get "embedding_model") = false →
          (r.get "embedding_model").searchable = true) := by
  rw [checkVectorDb, lookup_unstuck_iff rfl, Bool.or_eq_false_iff, Bool.not_eq_false', and_imp]

theorem checkBenchmark_unstuck_iff {datasets : List Value} :
    Unstuck (checkBenchmark datasets r) ↔
      (datasets ≠ [] → (r.get "dataset_id").truthy = true →
        (r.get "dataset_id").searchable = true) := by
  rw [checkBenchmark, lookup_unstuck_iff rfl, Bool.or_eq_false_iff, Bool.not_eq_false', and_imp,
    List.isEmpty_eq_false_iff]

theorem findings_unstuck_iff : Unstuck m.findings ↔ m.Comparable := by
  have hname : Unstuck m.checkName := fun x hx => x.isStuck_of_isGeneral (isGeneral_of_checkName hx)
  have hlisted (api : String) : Unstuck (m.checkListed api) :=
    fun x hx => x.isStuck_of_isGeneral (isGeneral_of_checkListed hx)
  have hconfigured (api : Value) : Unstuck (m.checkConfigured api) :=
    fun x hx => x.isStuck_of_isGeneral (isGeneral_of_checkConfigured hx)
  have hport : Unstuck m.checkPort := fun x hx => x.isStuck_of_isGeneral (isGeneral_of_checkPort hx)
  have hproviders (api : Value) (ps : List Provider) : Unstuck (checkProviders api [] ps) := by
    intro x hx
    obtain ⟨p, -, rfl | rfl⟩ := mem_checkProviders hx
    · rfl
    · rfl
  have hmodel (r : Resource) : Unstuck (checkModel r) := by
    intro x hx
    obtain rfl | rfl := mem_checkModel hx
    · rfl
    · rfl
  simp only [findings, unstuck_append_iff, unstuck_flatMap_iff, hname, hlisted, hconfigured, hproviders,
    hmodel, hport, checkSection_unstuck_iff, checkHashable_unstuck_iff, checkVectorDb_unstuck_iff,
    checkBenchmark_unstuck_iff, implies_true, true_and, and_true, mem_all_sections, forall_const]
  constructor
  · rintro ⟨⟨⟨⟨hids, -⟩, hvectorDbs⟩, -⟩, hbenchmarks⟩
    refine ⟨fun s v hv => ?_, hvectorDbs, fun r hr hne => hbenchmarks r hr (datasets_ne_nil_iff.2 hne)⟩
    obtain ⟨r, hr, rfl⟩ := List.mem_map.1 hv
    exact hids s r hr
  · intro h
    exact ⟨⟨⟨⟨fun s r hr => h.identifiers s _ (List.mem_map_of_mem hr), h.embeddings⟩, h.vectorDbs⟩,
      h.identifiers .datasets⟩, fun r hr hne => h.benchmarks r hr (datasets_ne_nil_iff.1 hne)⟩

/-- Checking gives a result where what is compared can be hashed and what is found can be told. -/
theorem validate_isOk_iff : (∃ ps, m.validate = .ok ps) ↔ m.Comparable ∧ m.Tellable := by
  rw [validate, Finding.texts_isOk_iff, ← findings_unstuck_iff]
  exact forall₂_and

/-- What is found in a document without overlong integers can be told. -/
theorem tellable_of_isShort {d : Value} (hd : d.isShort = true) (h : ofValue d = .ok m) : m.Tellable := by
  have hd := Value.everywhere_isShort hd
  have hget {s : Section} {r : Resource} (hr : r ∈ m.resources s) (field : String) :
      (r.get field).isShort = true := by
    have hschema : ∀ f ∈ s.schema, f.2.everywhere Value.isShort = true := by
      cases s <;> decide
    exact Value.everywhere_self (everywhere_of_read rfl rfl hschema hd h hr field)
  obtain ⟨a, es, rfl, hread⟩ := ofValue_eq_ok h
  -- The keys of the providers and the port are read off the document as they are.
  have hkey : ∀ e ∈ m.providers, e.1.isShort = true := by
    intro e he
    obtain ⟨b, fs, hmap, hall⟩ := providersOf?_eq_ok hread.providers
    obtain ⟨f, hf, hkey, -⟩ := exists_of_forall₂ hall.flip he
    have hproviders : ((Entries.get es "providers").orElse (.ofEntries [])).everywhere Value.isShort = true :=
      Value.everywhere_orElse (Value.everywhere_getD hd _ rfl) rfl
    rw [hmap] at hproviders
    rw [hkey]
    exact (Value.allShortEntries_iff.1 (Value.everywhere_self hproviders) f hf).1
  have hport : m.server.port.isShort = true := by
    obtain ⟨b, fs, hmap, hserver⟩ := Server.ofValue_eq_ok hread.server
    have heverywhere : ((Entries.get es "server").orElse (.ofEntries [])).everywhere Value.isShort = true :=
      Value.everywhere_orElse (Value.everywhere_getD hd _ rfl) rfl
    rw [hmap] at heverywhere
    rw [hserver]
    exact Value.everywhere_self (Value.everywhere_getD heverywhere _ (by decide +kernel))
  intro x hx
  have hreports := reports_of_mem hx
  cases x with
  | unlisted api =>
      obtain ⟨⟨e, he, rfl⟩, -⟩ := hreports
      exact List.forall_mem_singleton.2 (hkey e he)
  | repeatedProvider api p | unprefixed api p =>
      obtain ⟨e, he, rfl, -⟩ := hreports
      exact List.forall_mem_singleton.2 (hkey e he)
  | badPort port =>
      obtain rfl := hreports
      exact List.forall_mem_singleton.2 hport
  | nameless | unknownApi | unserved | stuck => exact List.forall_mem_nil _
  | repeated s r | unbound s r n => exact List.forall_mem_singleton.2 (hget hreports _)
  | dimensionless r => exact List.forall_mem_singleton.2 (hget hreports _)
  | misbound s r =>
      exact List.forall_mem_cons.2 ⟨hget hreports _, List.forall_mem_singleton.2 (hget hreports _)⟩
  | untyped r | withoutEmbedding r | withoutDataset r =>
      exact List.forall_mem_cons.2 ⟨hget hreports _, List.forall_mem_singleton.2 (hget hreports _)⟩

end Manifest
end Provision
