import Provision.Proofs.Manifest.Findings
import Provision.Proofs.Manifest.Reading
import Provision.Proofs.Manifest.Rules

namespace Provision.Manifest

open Steps

variable {m : Manifest} {r : Resource}

def HasEmbedding (m : Manifest) (v : Value) : Prop :=
  ∃ e ∈ m.resources .models, e.get "model_type" = .text "embedding" ∧
    v.same (e.identifier .models) = true

def HasDataset (m : Manifest) (v : Value) : Prop :=
  ∃ d ∈ m.resources .datasets, v.same (d.identifier .datasets) = true

/-- What the rules ask of a manifest. -/
structure Consistent (m : Manifest) : Prop where
  imageName : m.imageName ≠ .text ""
  listed : ∀ api ∈ m.apis, api ∈ knownApis ∧ m.providersOf api ≠ []
  configured : ∀ e ∈ m.providers, ∃ api ∈ m.apis, e.1 = .text api
  providerIds : ∀ e ∈ m.providers, (e.2.map (·.id)).Nodup
  providerKinds : ∀ e ∈ m.providers, ∀ p ∈ e.2, p.isRemote ∨ p.isInline
  identifiers : ∀ s, ((m.identifiers s).filter (!Placeholder.inValue ·)).Pairwise
    fun v w => w.same v = false
  bindings : ∀ s, ∀ r ∈ m.resources s, Bound (m.providersOf s.api) r
  models : ∀ r ∈ m.resources .models, Typed r
  vectorDbs : ∀ r ∈ m.resources .vectorDbs, (r.get "embedding_model").truthy = false ∨
    Placeholder.inValue (r.get "embedding_model") = true ∨ m.HasEmbedding (r.get "embedding_model")
  benchmarks : ∀ r ∈ m.resources .benchmarks, m.resources .datasets = [] ∨
    (r.get "dataset_id").truthy = false ∨ m.HasDataset (r.get "dataset_id")
  port : Placeholder.inValue m.server.port = true ∨
    ∃ n : Int, m.server.port = .int n ∧ 1 ≤ n ∧ n ≤ 65535

/-- What the rules compare can be counted, and what they look up can be looked for. -/
structure Comparable (m : Manifest) : Prop where
  identifiers : ∀ s, ∀ v ∈ m.identifiers s, v.hashable = true
  vectorDbs : ∀ r ∈ m.resources .vectorDbs, (r.get "embedding_model").truthy = true →
    Placeholder.inValue (r.get "embedding_model") = false →
      (r.get "embedding_model").searchable = true
  benchmarks : ∀ r ∈ m.resources .benchmarks, m.resources .datasets ≠ [] →
    (r.get "dataset_id").truthy = true → (r.get "dataset_id").searchable = true

/-- Identifiers are distinct where none of them, placeholders apart, equals an earlier one. -/
theorem pairwise_distinct_iff {vs : List Value} :
    (vs.filter (!Placeholder.inValue ·)).Pairwise (fun v w => w.same v = false) ↔
      vs.Pairwise fun v w => Placeholder.inValue w = false → w.same v = false := by
  rw [List.pairwise_filter]
  refine List.Pairwise.iff fun v w => ?_
  simp only [Bool.not_eq_true']
  constructor
  · intro h hw
    by_contra hsame
    rw [Bool.not_eq_false] at hsame
    have hv : Placeholder.inValue v = false := by
      by_contra hv
      rw [Bool.not_eq_false] at hv
      rw [Value.inValue_of_same hsame hv] at hw
      cases hw
    rw [h hv hw] at hsame
    cases hsame
  · exact fun h _ hw => h hw

theorem checkSection_eq_nil_iff {s : Section} {ps : List Provider} {seen : List Value}
    {rs : List Resource} :
    checkSection s (ps.map (·.id)) seen rs = [] ↔
      (∀ r ∈ rs, (r.identifier s).hashable = true) ∧ (∀ r ∈ rs, Bound ps r) ∧
      (∀ r ∈ rs, Placeholder.inValue (r.identifier s) = false →
        (r.identifier s).elem seen = false) ∧
      (rs.map (Resource.identifier s)).Pairwise
        fun v w => Placeholder.inValue w = false → w.same v = false := by
  induction rs generalizing seen with
  | nil => simp [checkSection]
  | cons r rs ih =>
      have hdup : (if (r.identifier s).elem seen
          then if Placeholder.inValue (r.identifier s) then [] else [Finding.repeated s r]
          else []) = [] ↔
            (Placeholder.inValue (r.identifier s) = false → (r.identifier s).elem seen = false) := by
        cases (r.identifier s).elem seen <;> cases Placeholder.inValue (r.identifier s) <;> simp
      simp only [checkSection, List.append_eq_nil_iff, checkMember_eq_nil_iff, checkHashable_eq_nil_iff,
        hdup, checkBinding_eq_nil_iff, ih, List.forall_mem_cons, List.map_cons, List.pairwise_cons]
      constructor
      · rintro ⟨⟨⟨⟨-, hnew⟩, hr⟩, hbound⟩, hrs, hbounds, hfresh, hpair⟩
        refine ⟨⟨hr, hrs⟩, ⟨hbound, hbounds⟩, ⟨hnew, fun q hq hopen => ?_⟩, ?_, hpair⟩
        · exact (Bool.or_eq_false_iff.1 (hfresh q hq hopen)).2
        · intro w hw hopen
          obtain ⟨q, hq, rfl⟩ := List.mem_map.1 hw
          exact (Bool.or_eq_false_iff.1 (hfresh q hq hopen)).1
      · rintro ⟨⟨hr, hrs⟩, ⟨hbound, hbounds⟩, ⟨hnew, hfresh⟩, hfirst, hpair⟩
        refine ⟨⟨⟨⟨Value.searchable_of_hashable hr, hnew⟩, hr⟩, hbound⟩, hrs, hbounds,
          fun q hq hopen => ?_, hpair⟩
        exact Bool.or_eq_false_iff.2 ⟨hfirst _ (List.mem_map_of_mem hq) hopen, hfresh q hq hopen⟩

/-- A value that is looked for among others, unless it is exempt. -/
theorem lookup_eq_nil_iff {exempt : Bool} {vs : List Value} {v : Value} {x : Finding} :
    (if exempt then [] else checkMember vs v [x] []) = [] ↔
      (exempt = false → v.searchable = true) ∧ (exempt = true ∨ v.elem vs = true) := by
  cases exempt with
  | true => simp
  | false => cases hv : v.elem vs <;> simp [checkMember_eq_nil_iff, hv]

theorem checkVectorDb_eq_nil_iff {embeddings : List Value} :
    checkVectorDb embeddings r = [] ↔
      ((r.get "embedding_model").truthy = true →
        Placeholder.inValue (r.get "embedding_model") = false →
          (r.get "embedding_model").searchable = true) ∧
      ((r.get "embedding_model").truthy = false ∨
        Placeholder.inValue (r.get "embedding_model") = true ∨
          (r.get "embedding_model").elem embeddings = true) := by
  rw [checkVectorDb, lookup_eq_nil_iff, Bool.or_eq_false_iff, Bool.not_eq_false', and_imp,
    Bool.or_eq_true, Bool.not_eq_true', or_assoc]

theorem checkBenchmark_eq_nil_iff {datasets : List Value} :
    checkBenchmark datasets r = [] ↔
      (datasets ≠ [] → (r.get "dataset_id").truthy = true →
        (r.get "dataset_id").searchable = true) ∧
      (datasets = [] ∨ (r.get "dataset_id").truthy = false ∨
        (r.get "dataset_id").elem datasets = true) := by
  rw [checkBenchmark, lookup_eq_nil_iff, Bool.or_eq_false_iff, Bool.not_eq_false', and_imp,
    List.isEmpty_eq_false_iff, Bool.or_eq_true, Bool.not_eq_true', List.isEmpty_iff, or_assoc]

theorem elem_embeddings_iff {v : Value} :
    v.elem m.embeddings = true ↔
      m.HasEmbedding v := by
  simp only [Value.elem_iff, embeddings, modelsOfType, List.mem_map, List.mem_filter, HasEmbedding,
    Value.same_text_right_iff]
  constructor
  · rintro ⟨_, ⟨e, ⟨he, ht⟩, rfl⟩, hv⟩
    exact ⟨e, he, ht, hv⟩
  · rintro ⟨e, he, ht, hv⟩
    exact ⟨_, ⟨e, ⟨he, ht⟩, rfl⟩, hv⟩

theorem elem_datasets_iff {v : Value} :
    v.elem (m.identifiers .datasets) = true ↔ m.HasDataset v := by
  simp only [Value.elem_iff, identifiers, List.mem_map, HasDataset]
  constructor
  · rintro ⟨_, ⟨d, hd, rfl⟩, hv⟩
    exact ⟨d, hd, hv⟩
  · rintro ⟨d, hd, hv⟩
    exact ⟨_, ⟨d, hd, rfl⟩, hv⟩

theorem datasets_ne_nil_iff : m.identifiers .datasets ≠ [] ↔ m.resources .datasets ≠ [] := by
  simp [identifiers]

theorem Comparable.embeddings (h : m.Comparable) : ∀ v ∈ m.embeddings, v.hashable = true := by
  intro v hv
  obtain ⟨e, he, rfl⟩ := List.mem_map.1 hv
  exact h.identifiers .models _ (List.mem_map_of_mem (List.mem_filter.1 he).1)

theorem imageName_truthy_iff {d : Value} (h : ofValue d = .ok m) :
    m.imageName.truthy = true ↔ m.imageName ≠ .text "" := by
  obtain ⟨_, es, -, hread⟩ := ofValue_eq_ok h
  rw [hread.imageName, Value.orElse]
  split
  next ht =>
    refine ⟨fun _ he => ?_, fun _ => ht⟩
    rw [he] at ht
    cases ht
  next => simp [Value.truthy]

/-- Nothing is found exactly where no single rule finds anything. -/
theorem findings_eq_nil_iff_rules : m.findings = [] ↔ m.checkName = [] ∧
    (∀ api ∈ m.apis, m.checkListed api = []) ∧
    (∀ e ∈ m.providers, m.checkConfigured e.1 = []) ∧
    (∀ e ∈ m.providers, checkProviders e.1 [] e.2 = []) ∧
    (∀ s, checkSection s (m.providerIds s.api) [] (m.resources s) = []) ∧
    (∀ r ∈ m.resources .models, checkModel r = []) ∧
    (∀ v ∈ m.embeddings, v.hashable = true) ∧
    (∀ r ∈ m.resources .vectorDbs, checkVectorDb m.embeddings r = []) ∧
    (∀ v ∈ m.identifiers .datasets, v.hashable = true) ∧
    (∀ r ∈ m.resources .benchmarks, checkBenchmark (m.identifiers .datasets) r = []) ∧
    m.checkPort = [] := by
  simp only [findings, List.append_eq_nil_iff, List.flatMap_eq_nil_iff, checkHashable_eq_nil_iff,
    mem_all_sections, forall_const, and_assoc]

theorem findings_eq_nil_iff {d : Value} (h : ofValue d = .ok m) :
    m.findings = [] ↔ m.Comparable ∧ m.Consistent := by
  have hname : m.checkName = [] ↔ m.imageName ≠ .text "" := by
    rw [← imageName_truthy_iff h, checkName]
    split <;> simp [*]
  simp only [findings_eq_nil_iff_rules, hname, checkListed_eq_nil_iff, checkConfigured_eq_nil_iff,
    checkProviders_eq_nil_iff, providerIds, checkSection_eq_nil_iff, checkModel_eq_nil_iff,
    checkVectorDb_eq_nil_iff, elem_embeddings_iff, checkBenchmark_eq_nil_iff, elem_datasets_iff,
    checkPort_eq_nil_iff]
  constructor
  · rintro ⟨hn, hl, hc, hp, hs, hm, -, hv, -, hb, hport⟩
    constructor
    · refine ⟨fun s v hmem => ?_, fun r hr => (hv r hr).1, fun r hr hne => ?_⟩
      · obtain ⟨r, hr, rfl⟩ := List.mem_map.1 hmem
        exact (hs s).1 r hr
      · exact (hb r hr).1 (datasets_ne_nil_iff.2 hne)
    · exact
        { imageName := hn
          listed := hl
          configured := hc
          providerIds := fun e he => (hp e he).2.1
          providerKinds := fun e he => (hp e he).2.2
          identifiers := fun s => pairwise_distinct_iff.2 (hs s).2.2.2
          bindings := fun s => (hs s).2.1
          models := hm
          vectorDbs := fun r hr => (hv r hr).2
          benchmarks := fun r hr => (hb r hr).2.imp_left fun h => by simpa [identifiers] using h
          port := hport }
  · rintro ⟨hcmp, hk⟩
    refine ⟨hk.imageName, hk.listed, hk.configured, fun e he => ?_, fun s => ?_, hk.models,
      hcmp.embeddings, fun r hr => ⟨hcmp.vectorDbs r hr, hk.vectorDbs r hr⟩,
      hcmp.identifiers .datasets, fun r hr => ?_, hk.port⟩
    · exact ⟨by simp, hk.providerIds e he, hk.providerKinds e he⟩
    · exact ⟨fun r hr => hcmp.identifiers s _ (List.mem_map_of_mem hr), hk.bindings s,
        fun r hr _ => rfl, pairwise_distinct_iff.1 (hk.identifiers s)⟩
    · exact ⟨fun hne => hcmp.benchmarks r hr (datasets_ne_nil_iff.1 hne),
        (hk.benchmarks r hr).imp_left fun h => by simpa [identifiers] using h⟩

theorem validate_eq_ok_iff {ps : List String} :
    m.validate = .ok ps ↔ List.Forall₂ (fun x p => x.text = .ok p) m.findings ps :=
  mapM_eq_ok_iff

/-- Checking finds nothing exactly where the manifest is consistent. -/
theorem validate_eq_nil_iff {d : Value} (h : ofValue d = .ok m) :
    m.validate = .ok [] ↔ m.Comparable ∧ m.Consistent := by
  rw [validate_eq_ok_iff, List.forall₂_nil_right_iff, findings_eq_nil_iff h]

theorem check_eq_ok_iff : m.check = .ok () ↔ m.validate = .ok [] := by
  simp only [check, bind_eq_ok_iff]
  constructor
  · rintro ⟨ps, hps, h⟩
    split at h
    next hnil => rw [hps, List.isEmpty_iff.1 hnil]
    next => cases h
  · intro h
    exact ⟨[], h, rfl⟩

/-- A manifest that was read, and whose identifiers and references can be hashed, has no problems
exactly where it is consistent, and is refused exactly where it is not. -/
theorem accepted_iff_consistent {d : Value} {m : Manifest} (h : ofValue d = .ok m)
    (hids : ∀ s, ∀ v ∈ m.identifiers s, v.hashable = true)
    (hmodels : ∀ r ∈ m.resources .vectorDbs, (r.get "embedding_model").hashable = true)
    (hdatasets : ∀ r ∈ m.resources .benchmarks, (r.get "dataset_id").hashable = true) :
    (m.validate = .ok [] ↔ m.Consistent) ∧ (m.check = .ok () ↔ m.Consistent) := by
  have hcmp : m.Comparable :=
    ⟨hids, fun r hr _ _ => Value.searchable_of_hashable (hmodels r hr),
      fun r hr _ _ => Value.searchable_of_hashable (hdatasets r hr)⟩
  have hvalidate : m.validate = .ok [] ↔ m.Consistent := by
    rw [validate_eq_nil_iff h, and_iff_right hcmp]
  exact ⟨hvalidate, check_eq_ok_iff.trans hvalidate⟩

theorem accepted_iff_consistent_of_embedding :
    let provider (id kind : String) :=
      Value.record [("provider_id", .text id), ("provider_type", .text kind)]
    let d := Value.record [("image_name", .text "dell"),
      ("apis", .ofList [.text "inference", .text "vector_io"]),
      ("providers", .record [
        ("inference", .ofList [provider "tgi0" "remote::tgi", provider "local" "inline::minilm"]),
        ("vector_io", .ofList [provider "chroma" "remote::chromadb"])]),
      ("models", .ofList [.record [("model_id", .text "minilm"), ("provider_id", .text "local"),
        ("model_type", .text "embedding"),
        ("metadata", .record [("embedding_dimension", .int 384)])]]),
      ("vector_dbs", .ofList [
        .record [("vector_db_id", .text "docs"), ("embedding_model", .text "minilm")]]),
      ("server", .record [("port", .text "$\x7benv.PORT\x7d")])]
    ∃ m, ofValue d = .ok m ∧ (∀ s, ∀ v ∈ m.identifiers s, v.hashable = true) ∧
      (∀ r ∈ m.resources .vectorDbs, (r.get "embedding_model").hashable = true) ∧
      (∀ r ∈ m.resources .benchmarks, (r.get "dataset_id").hashable = true) ∧
      m.validate = .ok [] ∧ m.check = .ok () ∧ m.Consistent := by
  intro provider d
  obtain ⟨m, hread, hnone, hids, hmodels, hdatasets⟩ : ∃ m, ofValue d = .ok m ∧
      m.validate.toOption = some [] ∧ (∀ s, ∀ v ∈ m.identifiers s, v.hashable = true) ∧
      (∀ r ∈ m.resources .vectorDbs, (r.get "embedding_model").hashable = true) ∧
      ∀ r ∈ m.resources .benchmarks, (r.get "dataset_id").hashable = true := by
    simp only [d, provider]
    exact ⟨_, rfl, by decide +kernel, fun s => by cases s <;> decide, by decide, by decide⟩
  have hnone : m.validate = .ok [] := eq_ok_of_toOption hnone
  obtain ⟨hvalidate, hcheck⟩ := accepted_iff_consistent hread hids hmodels hdatasets
  have hconsistent : m.Consistent := hvalidate.1 hnone
  exact ⟨m, hread, hids, hmodels, hdatasets, hnone, hcheck.2 hconsistent, hconsistent⟩

end Provision.Manifest
