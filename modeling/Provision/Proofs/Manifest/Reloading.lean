import Provision.Proofs.Manifest.Telling
import Provision.Proofs.Manifest.RoundTrip

namespace Provision

open Steps Entries

theorem Store.toValue_reloaded {s : Store} (h : s.extra.Apart schema) :
    s.reloaded.toValue = s.toValue := by
  rw [toValue_eq, toValue_eq]
  exact congrArg _ (withExtra_merged s.fields_mem_schema h)

theorem Server.toValue_reloaded {s : Server} (h : s.extra.Apart schema) :
    s.reloaded.toValue = s.toValue := by
  rw [toValue_eq, toValue_eq]
  exact congrArg _ (withExtra_merged s.fields_mem_schema h)

namespace Resource

variable {s : Section} {r : Resource}

theorem toValue_reloaded (hgiven : r.Given s) (h : r.extra.Apart s.fields) :
    (r.reloaded s).toValue s = r.toValue s := by
  have hfields : (r.reloaded s).writtenFields s = r.writtenFields s := by
    rw [writtenFields, writtenFields]
    congr 1
    refine List.map_congr_left fun field hf => ?_
    rw [get_reloaded_of_given hgiven h ((written_eq s field).1 hf)]
  rw [toValue, toValue, toEntries, toEntries, hfields, extra_reloaded h,
    withExtra_merged (r.writtenFields_mem_fields s) h]

end Resource

namespace Manifest

variable {m : Manifest}

theorem toValue_reloaded (h : m.Readable) (himage : m.imageName.orElse (.text "") = m.imageName)
    (hgiven : ∀ s, ∀ r ∈ m.resources s, r.Given s) : m.reloaded.toValue = m.toValue := by
  have hsection (s : Section) : m.reloaded.sectionField s = m.sectionField s := by
    rw [sectionField, sectionField, reloaded, List.map_map]
    have hall : (m.resources s).map (Resource.toValue s ∘ Resource.reloaded s) =
        (m.resources s).map (Resource.toValue s) :=
      List.map_congr_left fun r hr =>
        Resource.toValue_reloaded (hgiven s r hr) (h.extras.resources s r hr)
    rw [hall]
  have hstore {name : String} {s : Option Store} (hs : ∀ t ∈ s, t.extra.Apart Store.schema) :
      storeField name (s.map Store.reloaded) = storeField name s := by
    cases s with
    | none => rfl
    | some t => simp [storeField, Store.toValue_reloaded (hs t rfl)]
  have hfields : m.reloaded.fields = m.fields := by
    rw [fields, fields, List.map_congr_left fun s _ => hsection s]
    simp only [reloaded]
    rw [himage, hstore h.extras.metadataStore, hstore h.extras.inferenceStore,
      Server.toValue_reloaded h.extras.server]
  rw [toValue, toValue, toEntries, toEntries, hfields, reloaded,
    withExtra_merged m.fields_mem_schema h.extras.top]

end Manifest

theorem Store.apart_of_ofValue {v : Value} {s : Store} (h : Store.ofValue v = .ok (some s)) :
    s.extra.Apart schema := by
  cases v with
  | map anchor es =>
      simp only [Store.ofValue, Except.ok.injEq, Option.some.injEq] at h
      rw [← h]
      exact apart_without es _
  | _ => simp [Store.ofValue] at h

theorem Server.apart_of_ofValue {v : Value} {s : Server} (h : Server.ofValue v = .ok s) :
    s.extra.Apart schema := by
  obtain ⟨_, es, -, rfl⟩ := Server.ofValue_eq_ok h
  exact apart_without es _

theorem Resource.of_ofValue {s : Section} {v : Value} {r : Resource}
    (h : Resource.ofValue s v = .ok r) : (r.identifier s).truthy = true ∧
      (r.identifier s).isNested = false ∧ r.extra.Apart s.fields := by
  obtain ⟨_, es, -, hid, hsingle, rfl⟩ := Resource.ofValue_eq_ok_iff.1 h
  have hget : (ofEntries s es).identifier s = Entries.get es s.idField := by
    rw [identifier, get_ofEntries, lookup_idField]
    rfl
  exact ⟨by rwa [hget], by rwa [hget], apart_without es _⟩

namespace Manifest

variable {m : Manifest} {es : Entries}

theorem ReadFrom.readable (h : ReadFrom es m) : m.Readable where
  providers := by
    intro e he p hp
    obtain ⟨_, _, -, hall⟩ := providersOf?_eq_ok h.providers
    obtain ⟨_, -, -, _, _, -, hps⟩ := exists_of_forall₂ hall.flip he
    obtain ⟨_, -, hread⟩ := exists_of_forall₂ hps.flip hp
    obtain ⟨_, _, -, -, -, hid, hkind, -⟩ := Provider.ofValue_eq_ok_iff.1 hread
    exact ⟨hid, hkind⟩
  resources := by
    intro s r hr
    obtain ⟨_, _, _, -, -, hread⟩ := h.items hr
    obtain ⟨hid, hsingle, -⟩ := Resource.of_ofValue hread
    exact ⟨hid, hsingle⟩
  extras :=
    { top := by
        rw [h.extra]
        exact apart_without es _
      metadataStore := fun s hs => Store.apart_of_ofValue (h.metadataStore.trans (congrArg _ hs))
      inferenceStore := fun s hs => Store.apart_of_ofValue (h.inferenceStore.trans (congrArg _ hs))
      server := Server.apart_of_ofValue h.server
      resources := by
        intro s r hr
        obtain ⟨_, _, _, -, -, hread⟩ := h.items hr
        exact (Resource.of_ofValue hread).2.2 }

theorem ReadFrom.imageName_orElse (h : ReadFrom es m) :
    m.imageName.orElse (.text "") = m.imageName := by
  rw [h.imageName, Value.orElse_orElse]

end Manifest

theorem Resource.given_of_alike {s : Section} {r : Resource} (h : r.extra.Apart s.fields)
    (halike : ((r.reloaded s).toValue s).Alike (r.toValue s)) : r.Given s := by
  intro field hdef hnull
  have hf := s.defaulted_subset hdef
  obtain ⟨d, hd⟩ := Section.exists_lookup hf
  have hapart : (r.reloaded s).extra.Apart s.fields := by
    rw [extra_reloaded h]
    exact apart_merged h
  have hget : (r.reloaded s).get field = d := by
    rw [get_reloaded h hd, hnull]
    rfl
  have hmem : (.text field, d) ∈ (r.reloaded s).toEntries s := by
    refine (mem_withExtra_iff (writtenFields_mem_fields s _) hapart hf).2
      (mem_writtenFields.2 ⟨hf, hget, ?_⟩)
    have hne := (Section.mem_defaulted_iff hd).1 hdef
    cases d with
    | null => exact absurd rfl hne
    | _ => rfl
  obtain ⟨w, hw, -⟩ := Value.exists_of_alike halike hmem
  obtain ⟨-, rfl, hne⟩ :=
    mem_writtenFields.1 ((mem_withExtra_iff (writtenFields_mem_fields s r) h hf).1 hw)
  rw [hnull] at hne
  cases hne

namespace Manifest

variable {m : Manifest}

theorem eq_of_mem_fields {s : Section} {v : Value}
    (h : (s.name, v) ∈ m.fields) : v = .ofList ((m.resources s).map (Resource.toValue s)) := by
  cases s <;> simpa [fields, storeField, Section.all, sectionField, Section.name] using h

theorem given_of_alike (h : m.Readable) (halike : m.reloaded.toValue.Alike m.toValue) :
    ∀ s, ∀ r ∈ m.resources s, r.Given s := by
  intro s r hr
  have hname : s.name ∈ schema := by cases s <;> decide
  have hmem : (.text s.name, .ofList ((m.reloaded.resources s).map (Resource.toValue s))) ∈
      m.reloaded.toEntries := by
    refine (mem_withExtra_iff m.reloaded.fields_mem_schema (apart_merged h.extras.top) hname).2 ?_
    have hfield : m.reloaded.sectionField s ∈ m.reloaded.fields := by
      simp [fields, mem_all_sections]
    exact hfield
  obtain ⟨w, hw, hlist⟩ := Value.exists_of_alike halike hmem
  rw [eq_of_mem_fields ((mem_withExtra_iff m.fields_mem_schema h.extras.top hname).1 hw)] at hlist
  have hall := Value.forall₂_of_alike hlist
  rw [reloaded, List.map_map, List.forall₂_map_left_iff, List.forall₂_map_right_iff,
    List.forall₂_same] at hall
  exact Resource.given_of_alike (h.extras.resources s r hr) (hall r hr)

variable {r : Resource}

def reloadedFinding : Finding → Finding
  | .repeated s r => .repeated s (r.reloaded s)
  | .unbound s r n => .unbound s (r.reloaded s) n
  | .misbound s r => .misbound s (r.reloaded s)
  | .untyped r => .untyped (r.reloaded .models)
  | .dimensionless r => .dimensionless (r.reloaded .models)
  | .withoutEmbedding r => .withoutEmbedding (r.reloaded .vectorDbs)
  | .withoutDataset r => .withoutDataset (r.reloaded .benchmarks)
  | x => x

theorem get_reloaded_providerId {s : Section} (h : r.extra.Apart s.fields) :
    (r.reloaded s).get "provider_id" = r.get "provider_id" :=
  Resource.get_reloaded_of_null h (by cases s <;> rfl)

theorem get_reloaded_embeddingModel (h : r.extra.Apart Section.vectorDbs.fields) :
    (r.reloaded .vectorDbs).get "embedding_model" = r.get "embedding_model" :=
  Resource.get_reloaded_of_null h rfl

theorem get_reloaded_datasetId (h : r.extra.Apart Section.benchmarks.fields) :
    (r.reloaded .benchmarks).get "dataset_id" = r.get "dataset_id" :=
  Resource.get_reloaded_of_null h rfl

/-- The type of a model that has none becomes the one of models without a type. -/
theorem modelType_reloaded (h : r.extra.Apart Section.models.fields) :
    (r.reloaded .models).get "model_type" =
      if (r.get "model_type").isNull then .text "llm" else r.get "model_type" :=
  Resource.get_reloaded h rfl

/-- A resource keeps what the texts of findings show of it, but for the type of a model that has none. -/
theorem text_reloadedFinding {x : Finding} (hx : m.Reports x) (h : m.Readable)
    (htype : ∀ r, x = .untyped r → (r.get "model_type").isNull = false) :
    (reloadedFinding x).text = x.text := by
  have hapart {s : Section} {r : Resource} (hr : r ∈ m.resources s) : r.extra.Apart s.fields :=
    h.extras.resources s r hr
  cases x with
  | repeated s r | unbound s r n =>
      simp only [reloadedFinding, Finding.text, Resource.identifier_reloaded (hapart hx)]
  | misbound s r =>
      simp only [reloadedFinding, Finding.text, Resource.identifier_reloaded (hapart hx),
        get_reloaded_providerId (hapart hx)]
  | untyped r =>
      have hkept := modelType_reloaded (hapart hx)
      rw [htype r rfl, if_neg (by decide)] at hkept
      simp only [reloadedFinding, Finding.text, Resource.identifier_reloaded (hapart hx), hkept]
  | dimensionless r =>
      simp only [reloadedFinding, Finding.text, Resource.identifier_reloaded (hapart hx)]
  | withoutEmbedding r =>
      simp only [reloadedFinding, Finding.text, Resource.identifier_reloaded (hapart hx),
        get_reloaded_embeddingModel (hapart hx)]
  | withoutDataset r =>
      simp only [reloadedFinding, Finding.text, Resource.identifier_reloaded (hapart hx),
        get_reloaded_datasetId (hapart hx)]
  | _ => rfl

theorem checkBinding_reloaded {s : Section} {ids : List String} (h : r.extra.Apart s.fields) :
    checkBinding s ids (r.reloaded s) = (checkBinding s ids r).map reloadedFinding := by
  simp only [checkBinding, get_reloaded_providerId h]
  split
  · split <;> rfl
  · split <;> rfl

theorem checkMember_map (seen : List Value) (v : Value) (absent present : List Finding) :
    checkMember seen v (absent.map reloadedFinding) (present.map reloadedFinding) =
      (checkMember seen v absent present).map reloadedFinding := by
  rw [checkMember, checkMember]
  split
  · rfl
  · split <;> rfl

theorem checkHashable_map {v : Value} : (checkHashable v).map reloadedFinding = checkHashable v := by
  rw [checkHashable]
  split <;> rfl

theorem checkSection_reloaded {s : Section} {ids : List String} {seen : List Value}
    {rs : List Resource} (h : ∀ r ∈ rs, r.extra.Apart s.fields) :
    checkSection s ids seen (rs.map (Resource.reloaded s)) =
      (checkSection s ids seen rs).map reloadedFinding := by
  induction rs generalizing seen with
  | nil => rfl
  | cons r rs ih =>
      rw [List.forall_mem_cons] at h
      have hrepeated : (if Placeholder.inValue (r.identifier s) then []
          else [Finding.repeated s (r.reloaded s)]) =
            (if Placeholder.inValue (r.identifier s) then [] else [Finding.repeated s r]).map
              reloadedFinding := by
        split <;> rfl
      have hmember := checkMember_map seen (r.identifier s) []
        (if Placeholder.inValue (r.identifier s) then [] else [.repeated s r])
      rw [List.map_nil] at hmember
      simp only [List.map_cons, checkSection, Resource.identifier_reloaded h.1, hrepeated, hmember,
        checkBinding_reloaded h.1, ih h.2, List.map_append, checkHashable_map]

theorem checkVectorDb_reloaded (embeddings : List Value)
    (h : r.extra.Apart Section.vectorDbs.fields) :
    checkVectorDb embeddings (r.reloaded .vectorDbs) =
      (checkVectorDb embeddings r).map reloadedFinding := by
  simp only [checkVectorDb, get_reloaded_embeddingModel h]
  split
  · rfl
  · exact checkMember_map _ _ [.withoutEmbedding r] []

theorem checkBenchmark_reloaded (datasets : List Value)
    (h : r.extra.Apart Section.benchmarks.fields) :
    checkBenchmark datasets (r.reloaded .benchmarks) =
      (checkBenchmark datasets r).map reloadedFinding := by
  simp only [checkBenchmark, get_reloaded_datasetId h]
  split
  · rfl
  · exact checkMember_map _ _ [.withoutDataset r] []

/-- Whether a finding is still there when the manifest has been read again. -/
def isKept : Finding → Bool
  | .untyped r => !(r.get "model_type").isNull
  | _ => true

/-- What is found where the records have been read again, of what was found before. -/
def carried (xs : List Finding) : List Finding := (xs.filter isKept).map reloadedFinding

theorem carried_append (xs ys : List Finding) : carried (xs ++ ys) = carried xs ++ carried ys := by
  rw [carried, List.filter_append, List.map_append, carried, carried]

theorem carried_flatMap {α : Type} (xs : List α) (f : α → List Finding) :
    carried (xs.flatMap f) = xs.flatMap fun x => carried (f x) := by
  rw [carried, List.filter_flatMap, List.map_flatMap]
  rfl

theorem carried_of_kept {xs : List Finding} (h : ∀ x ∈ xs, isKept x = true) :
    carried xs = xs.map reloadedFinding := by
  rw [carried, List.filter_eq_self.2 h]

theorem carried_of_fixed {xs : List Finding} (h : ∀ x ∈ xs, isKept x = true ∧ reloadedFinding x = x) :
    carried xs = xs := by
  rw [carried_of_kept fun x hx => (h x hx).1]
  exact (List.map_congr_left fun x hx => (h x hx).2).trans (List.map_id xs)

theorem carried_of_isGeneral {xs : List Finding} (h : ∀ x ∈ xs, x.isGeneral = true) :
    carried xs = xs := by
  refine carried_of_fixed fun x hx => ?_
  have hgeneral := h x hx
  cases x <;> first | exact ⟨rfl, rfl⟩ | cases hgeneral

theorem carried_checkProviders (api : Value) (ps : List Provider) :
    carried (checkProviders api [] ps) = checkProviders api [] ps := by
  refine carried_of_fixed fun x hx => ?_
  obtain ⟨p, -, rfl | rfl⟩ := mem_checkProviders hx
  · exact ⟨rfl, rfl⟩
  · exact ⟨rfl, rfl⟩

theorem carried_checkHashable (v : Value) : carried (checkHashable v) = checkHashable v := by
  refine carried_of_fixed fun x hx => ?_
  obtain ⟨rfl, -⟩ := mem_checkHashable hx
  exact ⟨rfl, rfl⟩

theorem checkSection_carried {s : Section} {ids : List String} {rs : List Resource}
    (h : ∀ r ∈ rs, r.extra.Apart s.fields) :
    checkSection s ids [] (rs.map (Resource.reloaded s)) = carried (checkSection s ids [] rs) := by
  rw [checkSection_reloaded h, carried_of_kept]
  intro x hx
  obtain ⟨v, rfl, -⟩ | ⟨r, -, rfl | ⟨n, rfl⟩ | rfl⟩ := mem_checkSection hx
  · rfl
  · rfl
  · rfl
  · rfl

theorem checkVectorDb_carried (embeddings : List Value) (h : r.extra.Apart Section.vectorDbs.fields) :
    checkVectorDb embeddings (r.reloaded .vectorDbs) = carried (checkVectorDb embeddings r) := by
  rw [checkVectorDb_reloaded embeddings h, carried_of_kept]
  intro x hx
  obtain ⟨v, rfl, -⟩ | rfl := mem_checkVectorDb hx
  · rfl
  · rfl

theorem checkBenchmark_carried (datasets : List Value) (h : r.extra.Apart Section.benchmarks.fields) :
    checkBenchmark datasets (r.reloaded .benchmarks) = carried (checkBenchmark datasets r) := by
  rw [checkBenchmark_reloaded datasets h, carried_of_kept]
  intro x hx
  obtain ⟨v, rfl, -⟩ | rfl := mem_checkBenchmark hx
  · rfl
  · rfl

/-- A model that has no type is found fault with, and no more when it is read again. -/
theorem checkModel_reloaded (h : r.extra.Apart Section.models.fields) :
    checkModel (r.reloaded .models) = carried (checkModel r) := by
  rw [carried]
  have hkept := modelType_reloaded h
  cases htype : (r.get "model_type").isNull with
  | true =>
      have hnull := Value.isNull_iff.1 htype
      rw [htype, if_pos rfl] at hkept
      have hunknown : Value.null.elem (modelTypes.map .text) = false := rfl
      have hknown : (Value.text "llm").elem (modelTypes.map .text) = true := rfl
      have hother : (Value.text "llm").same (.text "embedding") = false := rfl
      have hfound : (checkModel r).filter isKept = [] := by
        simp only [checkModel, hnull, hunknown, Bool.not_false, if_true, List.filter_singleton, isKept]
        rfl
      rw [hfound]
      simp only [checkModel, hkept, hknown, hother]
      rfl
  | false =>
      have hmetadata : (r.reloaded .models).get "metadata" = _ := Resource.get_reloaded h rfl
      have hall : (checkModel r).filter isKept = checkModel r := by
        refine List.filter_eq_self.2 fun x hx => ?_
        obtain rfl | rfl := mem_checkModel hx
        · rw [isKept, htype]
          rfl
        · rfl
      rw [htype, if_neg (by decide)] at hkept
      rw [hall]
      -- What is found of a model depends on three conditions, none of which reading it again changes.
      have hconditions (known embedding dimension : Bool) :
          (if !known then [Finding.untyped (r.reloaded .models)]
            else if embedding then if dimension then [] else [.dimensionless (r.reloaded .models)] else []) =
              (if !known then [Finding.untyped r]
                else if embedding then if dimension then [] else [.dimensionless r] else []).map
                  reloadedFinding := by
        cases known <;> cases embedding <;> cases dimension <;> rfl
      simp only [checkModel, hkept, hmetadata]
      cases r.get "metadata" <;> exact hconditions _ _ _

theorem embeddings_reloaded (h : ∀ r ∈ m.resources .models, r.extra.Apart Section.models.fields) :
    m.reloaded.embeddings = m.embeddings := by
  have hsame : ∀ r ∈ m.resources .models,
      (((r.reloaded .models).get "model_type").same (.text "embedding")) =
        ((r.get "model_type").same (.text "embedding")) := by
    intro r hr
    rw [modelType_reloaded (h r hr)]
    cases r.get "model_type" <;> rfl
  rw [embeddings, modelsOfType, reloaded, List.filter_map, List.map_map, embeddings, modelsOfType]
  have hkept : (m.resources .models).filter ((fun r => (r.get "model_type").same (.text "embedding"))
      ∘ Resource.reloaded .models) =
        (m.resources .models).filter fun r => (r.get "model_type").same (.text "embedding") :=
    List.filter_congr hsame
  rw [hkept]
  exact List.map_congr_left fun r hr =>
    Resource.identifier_reloaded (h r (List.mem_filter.1 hr).1)

theorem identifiers_reloaded {s : Section} (h : ∀ r ∈ m.resources s, r.extra.Apart s.fields) :
    m.reloaded.identifiers s = m.identifiers s := by
  rw [identifiers, identifiers, reloaded, List.map_map]
  exact List.map_congr_left fun r hr => Resource.identifier_reloaded (h r hr)

theorem checkName_reloaded (m : Manifest) : m.reloaded.checkName = m.checkName := by
  rw [checkName, checkName, reloaded, Value.orElse]
  cases ht : m.imageName.truthy with
  | true => rw [if_pos rfl, ht]
  | false => rfl

/-- What is found of a manifest that has been read again is what was found before, and is kept. -/
theorem findings_reloaded (h : m.Readable) : m.reloaded.findings = carried m.findings := by
  have hname : m.reloaded.checkName = carried m.checkName := by
    rw [checkName_reloaded, carried_of_isGeneral fun x => isGeneral_of_checkName]
  have hlisted (api : String) : carried (m.checkListed api) = m.checkListed api :=
    carried_of_isGeneral fun x => isGeneral_of_checkListed
  have hconfigured (api : Value) : carried (m.checkConfigured api) = m.checkConfigured api :=
    carried_of_isGeneral fun x => isGeneral_of_checkConfigured
  have hport : m.reloaded.checkPort = carried m.checkPort :=
    (carried_of_isGeneral fun x => isGeneral_of_checkPort).symm
  have hresources {s : Section} {f g : Resource → List Finding}
      (hfg : ∀ r ∈ m.resources s, f (r.reloaded s) = carried (g r)) :
      (m.reloaded.resources s).flatMap f = (m.resources s).flatMap fun r => carried (g r) := by
    rw [reloaded, List.flatMap_map]
    exact List.flatMap_congr hfg
  have hsection (s : Section) : checkSection s (m.reloaded.providerIds s.api) [] (m.reloaded.resources s) =
      carried (checkSection s (m.providerIds s.api) [] (m.resources s)) :=
    checkSection_carried (h.extras.resources s)
  have hmodels := hresources fun r hr => checkModel_reloaded (h.extras.resources .models r hr)
  have hvectorDbs := hresources fun r hr =>
    checkVectorDb_carried m.embeddings (h.extras.resources .vectorDbs r hr)
  have hbenchmarks := hresources fun r hr =>
    checkBenchmark_carried (m.identifiers .datasets) (h.extras.resources .benchmarks r hr)
  rw [findings, hname, hport, hmodels, embeddings_reloaded (h.extras.resources _), hvectorDbs,
    identifiers_reloaded (h.extras.resources _), hbenchmarks]
  simp only [findings, carried_append, carried_flatMap, hlisted, hconfigured, carried_checkProviders,
    carried_checkHashable, hsection]
  rfl

/-- What is kept is told in the same way. -/
theorem validate_reloaded (h : m.Readable) :
    m.reloaded.validate = (m.findings.filter isKept).mapM Finding.text := by
  rw [validate, findings_reloaded h]
  refine mapM_map_congr fun x hx => ?_
  obtain ⟨hmem, hkept⟩ := List.mem_filter.1 hx
  refine text_reloadedFinding (reports_of_mem hmem) h ?_
  rintro r rfl
  simpa [isKept] using hkept

theorem isKept_eq_false_iff {x : Finding} :
    isKept x = false ↔ ∃ r, x = .untyped r ∧ r.get "model_type" = .null := by
  cases x <;> simp [isKept, Value.isNull_iff]

theorem untyped_mem_findings (hr : r ∈ m.resources .models) (hnull : r.get "model_type" = .null) :
    .untyped r ∈ m.findings := by
  have hfound : .untyped r ∈ (m.resources .models).flatMap checkModel := by
    refine List.mem_flatMap.2 ⟨r, hr, ?_⟩
    rw [checkModel, hnull]
    exact List.mem_singleton_self _
  simp only [findings, List.mem_append]
  tauto

/-- The verdict stays unless a model without a type is among what is judged. -/
theorem validate_reloaded_eq_iff (h : m.Readable) {ps : List String} (hok : m.validate = .ok ps) :
    m.reloaded.validate = m.validate ↔ ∀ r ∈ m.resources .models, r.get "model_type" ≠ .null := by
  rw [validate_reloaded h]
  constructor
  · intro hsame r hr hnull
    have hlength := (mapM_eq_ok_iff.1 hok).length_eq
    rw [hok] at hsame
    rw [← (mapM_eq_ok_iff.1 hsame).length_eq, eq_comm, List.length_filter_eq_length_iff] at hlength
    have hgone := isKept_eq_false_iff.2 ⟨r, rfl, hnull⟩
    rw [hlength _ (untyped_mem_findings hr hnull)] at hgone
    cases hgone
  · intro hall
    have hkept : m.findings.filter isKept = m.findings := by
      refine List.filter_eq_self.2 fun x hx => ?_
      by_contra hgone
      obtain ⟨r, rfl, hnull⟩ := isKept_eq_false_iff.1 (Bool.eq_false_iff.2 hgone)
      exact hall r (reports_of_mem hx) hnull
    rw [hkept, validate]

theorem validate_reloaded_eq_error (h : m.Readable) {f : Failure} (hf : m.validate = .error f) :
    m.reloaded.validate = .error f ∨ ∃ r ∈ m.resources .models,
      r.get "model_type" = .null ∧ (r.identifier .models).isShort = false := by
  rw [validate_reloaded h, mapM_eq_error_iff]
  refine (first_filter (mapM_eq_error_iff.1 hf)).imp_right ?_
  rintro ⟨x, hx, hgone, htext⟩
  obtain ⟨r, rfl, hnull⟩ := isKept_eq_false_iff.1 hgone
  refine ⟨r, reports_of_mem hx, hnull, ?_⟩
  rcases Finding.text_eq_error htext with ⟨v, hv, -⟩ | ⟨hlong, -⟩
  · cases hv
  · simpa [Finding.Tellable, Finding.values, hnull, Value.isShort] using hlong

/-- A manifest that was read is always read again from what it is written as. It is the same document
exactly when no field that has another value when absent was null, and judged the same exactly when
no model was without a type. Where it is not judged, nor is it afterwards, unless a model without a type
has an identifier that is too long to be shown. -/
theorem reload_of_read {d : Value} {m : Manifest} (hm : ofValue d = .ok m) :
    ∃ n, ofValue m.toValue = .ok n ∧
      ((∀ s, ∀ r ∈ m.resources s, r.Given s) → n.toValue = m.toValue) ∧
      (n.toValue.Alike m.toValue → ∀ s, ∀ r ∈ m.resources s, r.Given s) ∧
      (∀ ps, m.validate = .ok ps →
        (n.validate = m.validate ↔ ∀ r ∈ m.resources .models, r.get "model_type" ≠ .null)) ∧
      ∀ f, m.validate = .error f → n.validate = .error f ∨ ∃ r ∈ m.resources .models,
        r.get "model_type" = .null ∧ (r.identifier .models).isShort = false := by
  obtain ⟨_, es, -, hread⟩ := ofValue_eq_ok hm
  have hreadable := hread.readable
  exact ⟨m.reloaded, ofValue_toValue hreadable,
    toValue_reloaded hreadable hread.imageName_orElse, given_of_alike hreadable,
    fun _ => validate_reloaded_eq_iff hreadable, fun _ => validate_reloaded_eq_error hreadable⟩

theorem reload_of_read_with_nulls :
    let model := Value.record [("model_id", .text "llama"), ("provider_id", .null)]
    let d := Value.record [("image_name", .null), ("models", .ofList [model]), ("server", .null)]
    ∃ m n, ofValue d = .ok m ∧ (∀ s, ∀ r ∈ m.resources s, r.Given s) ∧
      ofValue m.toValue = .ok n ∧ n.toValue = m.toValue ∧ n.validate = m.validate := by
  intro model d
  obtain ⟨m, hm, hgiven, hverdict⟩ : ∃ m, ofValue d = .ok m ∧
      (∀ s, ∀ r ∈ m.resources s, r.Given s) ∧ m.validate.toOption.isSome = true :=
    ⟨_, rfl, fun s => by cases s <;> decide, by decide +kernel⟩
  obtain ⟨ps, hps⟩ := exists_eq_ok_of_isSome hverdict
  obtain ⟨n, hn, hsame, -, hjudged, -⟩ := reload_of_read hm
  exact ⟨m, n, hm, hgiven, hn, hsame hgiven,
    (hjudged ps hps).2 fun r hr => hgiven .models r hr "model_type" (by decide)⟩

/-- A model whose type is null is found fault with, and no more once it has been saved and loaded. -/
theorem fault_gone_after_reload :
    let provider := Value.record [("provider_id", .text "tgi"),
      ("provider_type", .text "remote::tgi")]
    let model := Value.record [("model_id", .text "llama"), ("model_type", .null)]
    let d := Value.record [("image_name", .text "dell"), ("apis", .ofList [.text "inference"]),
      ("providers", .record [("inference", .ofList [provider])]), ("models", .ofList [model])]
    ∃ m n, ofValue d = .ok m ∧ ofValue m.toValue = .ok n ∧ n.toValue.same m.toValue = false ∧
      m.validate = .ok ["model 'llama' has unknown model_type 'None'"] ∧ n.validate = .ok [] := by
  intro provider model d
  exact ⟨_, _, rfl, rfl, by decide +kernel, eq_ok_of_toOption (by decide +kernel),
    eq_ok_of_toOption (by decide +kernel)⟩

end Manifest
end Provision
