import Provision.Proofs.Manifest.Reloading
import Provision.Proofs.Value.Everywhere

namespace Provision

open Steps

namespace Value

def isRegular : Value → Bool
  | tuple _ | set .. => false
  | _ => true

theorem hashable_of_regular {v : Value} (h : v.isRegular = true) :
    v.hashable = !v.isNested := by
  cases v with
  | tuple xs => cases h
  | set a xs => cases h
  | _ => rfl

theorem searchable_of_regular {v : Value} (h : v.isRegular = true) :
    v.searchable = !v.isNested := by
  cases v with
  | tuple xs => cases h
  | set a xs => cases h
  | _ => rfl

end Value

namespace Manifest

variable {m : Manifest} {f : Failure}

/-- What is looked up is no list and no mapping: the embedding model of a vector database and,
where datasets are registered, the dataset of a benchmark. An absent one is not looked up. -/
structure Judgeable (m : Manifest) : Prop where
  vectorDbs : ∀ r ∈ m.resources .vectorDbs, (r.get "embedding_model").truthy = true →
    (r.get "embedding_model").isNested = false
  benchmarks : m.resources .datasets ≠ [] → ∀ r ∈ m.resources .benchmarks,
    (r.get "dataset_id").truthy = true → (r.get "dataset_id").isNested = false

/-- In a document of scalars, lists and mappings each field of a resource is one of them, and its
identifier is a scalar. -/
theorem regular_of_read {d : Value} (hd : d.everywhere Value.isRegular = true)
    (h : ofValue d = .ok m) {s : Section} {r : Resource} (hr : r ∈ m.resources s) :
    (∀ field, (r.get field).isRegular = true) ∧ (r.identifier s).isNested = false := by
  have hschema : ∀ f ∈ s.schema, f.2.everywhere Value.isRegular = true := by
    cases s <;> decide
  obtain ⟨a, es, rfl, hread⟩ := ofValue_eq_ok h
  refine ⟨fun field => ?_, (hread.readable.resources s r hr).2⟩
  exact Value.everywhere_self (everywhere_of_read rfl rfl hschema hd h hr field)

theorem comparable_iff_judgeable
    (hregular : ∀ s, ∀ r ∈ m.resources s, ∀ field, (r.get field).isRegular = true)
    (hids : ∀ s, ∀ r ∈ m.resources s, (r.identifier s).isNested = false) :
    m.Comparable ↔ m.Judgeable := by
  constructor
  · intro h
    refine ⟨fun r hr htruthy => ?_, fun hne r hr htruthy => ?_⟩
    · cases hopen : Placeholder.inValue (r.get "embedding_model") with
      | true =>
          obtain ⟨t, ht, -⟩ := Value.inValue_eq_true_iff.1 hopen
          rw [ht]
          rfl
      | false =>
          have hfound := h.vectorDbs r hr htruthy hopen
          rw [Value.searchable_of_regular (hregular _ r hr _)] at hfound
          simpa using hfound
    · have hfound := h.benchmarks r hr hne htruthy
      rw [Value.searchable_of_regular (hregular _ r hr _)] at hfound
      simpa using hfound
  · intro h
    refine ⟨fun s v hv => ?_, fun r hr htruthy _ => ?_, fun r hr hne htruthy => ?_⟩
    · obtain ⟨r, hr, rfl⟩ := List.mem_map.1 hv
      have hid : (r.identifier s).isRegular = true := hregular s r hr s.idField
      rw [Value.hashable_of_regular hid, hids s r hr]
      rfl
    · rw [Value.searchable_of_regular (hregular _ r hr _), h.vectorDbs r hr htruthy]
      rfl
    · rw [Value.searchable_of_regular (hregular _ r hr _), h.benchmarks hne r hr htruthy]
      rfl

/-- A manifest that was read from scalars, lists and mappings, none with an overlong integer, is given a
verdict exactly where it is judgeable. One that was read from anything is given a verdict where what is
compared can be hashed and what is found can be told, and else fails for a value that cannot. -/
theorem verdict_of_read {d : Value} {m : Manifest} (h : ofValue d = .ok m) :
    (d.everywhere Value.isRegular = true → d.isShort = true →
      ((∃ ps, m.validate = .ok ps) ↔ m.Judgeable)) ∧
    ((∃ ps, m.validate = .ok ps) ↔ m.Comparable ∧ m.Tellable) ∧
    ∀ f, m.validate = .error f → (∃ v : Value, v.hashable = false ∧ f = unhashable v) ∨
      f = .tooLong ∧ d.isShort = false := by
  refine ⟨fun hd hshort => ?_, validate_isOk_iff, fun f hf => ?_⟩
  · have hparts := @regular_of_read m d hd h
    rw [validate_isOk_iff, and_iff_left (tellable_of_isShort hshort h)]
    exact comparable_iff_judgeable (fun s r hr => (hparts hr).1) fun s r hr => (hparts hr).2
  · rcases Finding.texts_eq_error hf with ⟨v, hv, rfl⟩ | ⟨⟨x, hx, hlong⟩, rfl⟩
    · exact .inl ⟨v, reports_of_mem hv, rfl⟩
    · refine .inr ⟨rfl, Bool.eq_false_iff.2 fun hshort => ?_⟩
      exact hlong (tellable_of_isShort hshort h x hx)

theorem verdict_of_read_beside_lists :
    let vectorDb := Value.record [("vector_db_id", .text "docs"), ("embedding_model", .ofList [])]
    let benchmark := Value.record [("benchmark_id", .int 1), ("dataset_id", .ofList [.text "mmlu"])]
    let d := Value.record [("vector_dbs", .ofList [vectorDb]), ("benchmarks", .ofList [benchmark]),
      ("server", .record [("port", .ofList [.int 8321])])]
    ∃ m ps, ofValue d = .ok m ∧ d.everywhere Value.isRegular = true ∧ d.isShort = true ∧ m.Judgeable ∧
      m.validate = .ok ps := by
  intro vectorDb benchmark d
  obtain ⟨m, hm, hjudgeable⟩ : ∃ m, ofValue d = .ok m ∧ m.Judgeable :=
    ⟨_, rfl, by decide, by decide⟩
  have hd : d.everywhere Value.isRegular = true := by decide
  have hshort : d.isShort = true := by decide +kernel
  obtain ⟨ps, hps⟩ := ((verdict_of_read hm).1 hd hshort).2 hjudgeable
  exact ⟨m, ps, hm, hd, hshort, hjudgeable, hps⟩

/-- A list as the embedding model of a vector database is accepted by reading and ends checking. -/
theorem no_verdict_on_list :
    ¬ ∀ (d : Value) (m : Manifest), d.everywhere Value.isRegular = true → ofValue d = .ok m →
      ∃ ps, m.validate = .ok ps := by
  intro hevery
  let vectorDb := Value.record [("vector_db_id", .text "docs"),
    ("embedding_model", .ofList [.text "minilm"])]
  let d := Value.record [("image_name", .text "dell"), ("vector_dbs", .ofList [vectorDb])]
  obtain ⟨m, hm, hnone⟩ : ∃ m, ofValue d = .ok m ∧ m.validate.toOption = none :=
    ⟨_, rfl, by decide +kernel⟩
  obtain ⟨ps, hps⟩ := hevery d m (by decide) hm
  rw [hps] at hnone
  cases hnone

end Manifest
end Provision
