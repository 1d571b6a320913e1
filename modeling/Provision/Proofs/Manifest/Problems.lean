import Mathlib.Data.List.Infix
import Provision.Proofs.Manifest.Findings
import Provision.Proofs.Manifest.Rules

namespace Provision

namespace Manifest

open Steps

section InTurn

variable {α β : Type}

def inTurn (f : List α → α → List β) (xs : List α) : List β :=
  (xs.mapIdx fun i x => f (xs.take i) x).flatten

theorem inTurn_cons (f : List α → α → List β) (x : α) (xs : List α) :
    inTurn f (x :: xs) = f [] x ++ inTurn (fun before => f (x :: before)) xs := by
  rw [inTurn, List.mapIdx_cons, List.flatten_cons]
  rfl

theorem inTurn_concat (f : List α → α → List β) (xs : List α) (x : α) :
    inTurn f (xs ++ [x]) = inTurn f xs ++ f xs x := by
  induction xs generalizing f with
  | nil => simp [inTurn]
  | cons y xs ih => rw [List.cons_append, inTurn_cons, inTurn_cons, ih, List.append_assoc]

theorem filter_inTurn (p : β → Bool) (f : List α → α → List β) (xs : List α) :
    (inTurn f xs).filter p = inTurn (fun before x => (f before x).filter p) xs := by
  induction xs generalizing f with
  | nil => rfl
  | cons x xs ih => rw [inTurn_cons, inTurn_cons, List.filter_append, ih]

def repeats (again : α → α → Bool) (found : α → β) (before : List α) (x : α) : List β :=
  if before.any (again x) then [found x] else []

end InTurn

variable {m : Manifest} {r : Resource} {x : Finding}

def repeatedUnder (api : Value) : List Provider → Provider → List Finding :=
  repeats (fun p q => p.id == q.id) (.repeatedProvider api)

def misnamed (api : Value) (p : Provider) : List Finding :=
  if p.isRemote || p.isInline then [] else [.unprefixed api p]

def repeatedIn (s : Section) : List Resource → Resource → List Finding :=
  repeats (fun r q => !Placeholder.inValue (r.identifier s) && (r.identifier s).same (q.identifier s))
    (.repeated s)

theorem checkProviders_of_done (api : Value) (done ps : List Provider) :
    checkProviders api (done.map (·.id)).reverse ps =
      inTurn (fun before p => repeatedUnder api (done ++ before) p ++ misnamed api p) ps := by
  induction ps generalizing done with
  | nil => rfl
  | cons p ps ih =>
      have hseen : p.id :: (done.map (·.id)).reverse = ((done ++ [p]).map (·.id)).reverse := by simp
      have hagain : p.id ∈ (done.map (·.id)).reverse ↔ done.any (fun q => p.id == q.id) = true := by
        simp only [List.mem_reverse, List.mem_map, List.any_eq_true, beq_iff_eq, eq_comm (a := p.id)]
      have hrest := ih (done ++ [p])
      simp only [List.append_assoc, List.singleton_append] at hrest
      rw [checkProviders, hseen, hrest, inTurn_cons, List.append_nil, repeatedUnder, repeats]
      simp only [hagain, misnamed]

theorem checkProviders_eq (api : Value) (ps : List Provider) : checkProviders api [] ps =
    inTurn (fun before p => repeatedUnder api before p ++ misnamed api p) ps :=
  checkProviders_of_done api [] ps

theorem checkSection_of_done {s : Section} {ids : List String} (done : List Resource) {rs : List Resource}
    (h : ∀ r ∈ rs, (r.identifier s).hashable = true) :
    checkSection s ids (done.map (Resource.identifier s)).reverse rs =
      inTurn (fun before r => repeatedIn s (done ++ before) r ++ checkBinding s ids r) rs := by
  induction rs generalizing done with
  | nil => rfl
  | cons r rs ih =>
      obtain ⟨hr, hrs⟩ := List.forall_mem_cons.1 h
      -- What has been seen are the identifiers of the resources that are done, the last of them first.
      have hseen : r.identifier s :: (done.map (Resource.identifier s)).reverse =
          ((done ++ [r]).map (Resource.identifier s)).reverse := by simp
      have hagain : (done.any fun q =>
          !Placeholder.inValue (r.identifier s) && (r.identifier s).same (q.identifier s)) =
            ((r.identifier s).elem (done.map (Resource.identifier s)).reverse &&
              !Placeholder.inValue (r.identifier s)) := by
        rw [Value.elem, List.any_reverse, List.any_map]
        cases Placeholder.inValue (r.identifier s) <;> simp [Function.comp_def]
      have hmember : checkMember (done.map (Resource.identifier s)).reverse (r.identifier s) []
          (if Placeholder.inValue (r.identifier s) then [] else [.repeated s r]) =
            repeatedIn s done r := by
        rw [checkMember, Value.searchable_of_hashable hr, repeatedIn, repeats, hagain]
        cases (r.identifier s).elem (done.map (Resource.identifier s)).reverse <;>
          cases Placeholder.inValue (r.identifier s) <;> rfl
      have hrest := ih (done ++ [r]) hrs
      simp only [List.append_assoc, List.singleton_append] at hrest
      simp only [checkSection, hmember, checkHashable_eq_nil_iff.2 hr, hseen, hrest, inTurn_cons,
        List.append_nil]

theorem checkSection_eq {s : Section} {ids : List String} {rs : List Resource}
    (h : ∀ r ∈ rs, (r.identifier s).hashable = true) : checkSection s ids [] rs =
      inTurn (fun before r => repeatedIn s before r ++ checkBinding s ids r) rs :=
  checkSection_of_done [] h

def Reports (m : Manifest) : Finding → Prop
  | .nameless => m.imageName.truthy = false
  | .unknownApi api => api ∈ m.apis ∧ api ∉ knownApis
  | .unserved api => api ∈ m.apis ∧ api ∈ knownApis ∧ m.providersOf api = []
  | .unlisted api => (∃ e ∈ m.providers, e.1 = api) ∧ ¬ ∃ a ∈ m.apis, api = .text a
  | .repeatedProvider api p | .unprefixed api p => ∃ e ∈ m.providers, e.1 = api ∧ p ∈ e.2
  | .repeated s r | .unbound s r _ | .misbound s r => r ∈ m.resources s
  | .untyped r | .dimensionless r => r ∈ m.resources .models
  | .withoutEmbedding r => r ∈ m.resources .vectorDbs
  | .withoutDataset r => r ∈ m.resources .benchmarks
  | .badPort port => port = m.server.port
  | .stuck v => v.hashable = false

theorem mem_checkListed_iff {api : String} : x ∈ m.checkListed api ↔
    x = .unknownApi api ∧ api ∉ knownApis ∨
      x = .unserved api ∧ api ∈ knownApis ∧ m.providersOf api = [] := by
  rw [checkListed]
  split
  next hknown => simp [hknown]
  next hknown =>
    rw [not_not] at hknown
    split
    next hp => simp [hknown, List.isEmpty_iff.1 hp]
    next hp => simp [hknown, mt List.isEmpty_iff.2 hp]

theorem mem_checkConfigured_iff {api : Value} : x ∈ m.checkConfigured api ↔
    x = .unlisted api ∧ ¬ ∃ a ∈ m.apis, api = .text a := by
  rw [← Value.elem_map_text_iff, checkConfigured]
  split
  next h => simp [h]
  next h => simp [h]

theorem isGeneral_of_checkName (h : x ∈ m.checkName) : x.isGeneral = true := by
  rw [checkName] at h
  split at h
  · cases h
  · rw [List.mem_singleton.1 h]
    rfl

theorem isGeneral_of_checkListed {api : String} (h : x ∈ m.checkListed api) : x.isGeneral = true := by
  obtain ⟨rfl, -⟩ | ⟨rfl, -⟩ := mem_checkListed_iff.1 h
  · rfl
  · rfl

theorem isGeneral_of_checkConfigured {api : Value} (h : x ∈ m.checkConfigured api) :
    x.isGeneral = true := by
  obtain ⟨rfl, -⟩ := mem_checkConfigured_iff.1 h
  rfl

theorem isGeneral_of_checkPort (h : x ∈ m.checkPort) : x.isGeneral = true := by
  simp only [checkPort] at h
  split at h
  · cases h
  · rw [List.mem_singleton.1 h]
    rfl

theorem mem_checkProviders {api : Value} {seen : List String} {ps : List Provider}
    (h : x ∈ checkProviders api seen ps) :
    ∃ p ∈ ps, x = .repeatedProvider api p ∨ x = .unprefixed api p := by
  induction ps generalizing seen with
  | nil => cases h
  | cons p ps ih =>
      simp only [checkProviders, List.mem_append, or_assoc] at h
      rcases h with h | h | h
      · exact ⟨p, List.mem_cons_self, .inl (by simpa using (List.mem_ite_nil_right.1 h).2)⟩
      · exact ⟨p, List.mem_cons_self, .inr (by simpa using (List.mem_ite_nil_left.1 h).2)⟩
      · obtain ⟨q, hq, hx⟩ := ih h
        exact ⟨q, List.mem_cons_of_mem _ hq, hx⟩

theorem mem_checkHashable {v : Value} (h : x ∈ checkHashable v) : x = .stuck v ∧ v.hashable = false := by
  rw [checkHashable, List.mem_ite_nil_left, List.mem_singleton, Bool.not_eq_true] at h
  exact ⟨h.2, h.1⟩

theorem mem_checkMember {seen : List Value} {v : Value} {absent present : List Finding}
    (h : x ∈ checkMember seen v absent present) :
    x = .stuck v ∧ v.hashable = false ∨ x ∈ absent ∨ x ∈ present := by
  rw [checkMember] at h
  split at h
  next hv =>
    have hnot : ¬ v.searchable = true := by simpa using hv
    exact .inl ⟨List.mem_singleton.1 h, Bool.eq_false_iff.2 (mt Value.searchable_of_hashable hnot)⟩
  next =>
    split at h
    next => exact .inr (.inr h)
    next => exact .inr (.inl h)

theorem mem_checkBinding {s : Section} {ids : List String} (h : x ∈ checkBinding s ids r) :
    (∃ n, x = .unbound s r n) ∨ x = .misbound s r := by
  simp only [checkBinding] at h
  split at h
  next => exact .inl ⟨_, by simpa using (List.mem_ite_nil_left.1 h).2⟩
  next => exact .inr (by simpa using (List.mem_ite_nil_left.1 h).2)

theorem mem_checkSection {s : Section} {ids : List String} {seen : List Value} {rs : List Resource}
    (h : x ∈ checkSection s ids seen rs) :
    (∃ v, x = .stuck v ∧ v.hashable = false) ∨
      ∃ r ∈ rs, x = .repeated s r ∨ (∃ n, x = .unbound s r n) ∨ x = .misbound s r := by
  induction rs generalizing seen with
  | nil => cases h
  | cons r rs ih =>
      simp only [checkSection, List.mem_append, or_assoc] at h
      rcases h with h | h | h | h
      · rcases mem_checkMember h with hstuck | hnone | h
        · exact .inl ⟨_, hstuck⟩
        · cases hnone
        · exact .inr ⟨r, List.mem_cons_self, .inl (by simpa using (List.mem_ite_nil_left.1 h).2)⟩
      · exact .inl ⟨_, mem_checkHashable h⟩
      · exact .inr ⟨r, List.mem_cons_self, .inr (mem_checkBinding h)⟩
      · refine (ih h).imp_right ?_
        rintro ⟨q, hq, hx⟩
        exact ⟨q, List.mem_cons_of_mem _ hq, hx⟩

theorem mem_checkModel (h : x ∈ checkModel r) : x = .untyped r ∨ x = .dimensionless r := by
  simp only [checkModel] at h
  split at h
  next => exact .inl (List.mem_singleton.1 h)
  next =>
    split at h
    next => exact .inr (by simpa using (List.mem_ite_nil_left.1 h).2)
    next => cases h

theorem mem_checkVectorDb {vs : List Value} (h : x ∈ checkVectorDb vs r) :
    (∃ v, x = .stuck v ∧ v.hashable = false) ∨ x = .withoutEmbedding r := by
  rw [checkVectorDb, List.mem_ite_nil_left] at h
  rcases mem_checkMember h.2 with hstuck | hx | hnone
  · exact .inl ⟨_, hstuck⟩
  · exact .inr (List.mem_singleton.1 hx)
  · cases hnone

theorem mem_checkBenchmark {vs : List Value} (h : x ∈ checkBenchmark vs r) :
    (∃ v, x = .stuck v ∧ v.hashable = false) ∨ x = .withoutDataset r := by
  rw [checkBenchmark, List.mem_ite_nil_left] at h
  rcases mem_checkMember h.2 with hstuck | hx | hnone
  · exact .inl ⟨_, hstuck⟩
  · exact .inr (List.mem_singleton.1 hx)
  · cases hnone

/-- What is found is so. -/
theorem reports_of_mem (h : x ∈ m.findings) : m.Reports x := by
  simp only [findings, List.mem_append, List.mem_flatMap, or_assoc] at h
  rcases h with h | ⟨api, hapi, h⟩ | ⟨e, he, h⟩ | ⟨e, he, h⟩ | ⟨s, -, h⟩ | ⟨r, hr, h⟩ | ⟨v, -, h⟩ |
    ⟨r, hr, h⟩ | ⟨v, -, h⟩ | ⟨r, hr, h⟩ | h
  · simp only [checkName, List.mem_ite_nil_left, List.mem_singleton, Bool.not_eq_true] at h
    obtain ⟨hname, rfl⟩ := h
    exact hname
  · rcases mem_checkListed_iff.1 h with ⟨rfl, hknown⟩ | ⟨rfl, hknown⟩
    · exact ⟨hapi, hknown⟩
    · exact ⟨hapi, hknown⟩
  · obtain ⟨rfl, hlisted⟩ := mem_checkConfigured_iff.1 h
    exact ⟨⟨e, he, rfl⟩, hlisted⟩
  · obtain ⟨p, hp, rfl | rfl⟩ := mem_checkProviders h
    · exact ⟨e, he, rfl, hp⟩
    · exact ⟨e, he, rfl, hp⟩
  · obtain ⟨v, rfl, hv⟩ | ⟨r, hr, rfl | ⟨n, rfl⟩ | rfl⟩ := mem_checkSection h
    · exact hv
    · exact hr
    · exact hr
    · exact hr
  · obtain rfl | rfl := mem_checkModel h
    · exact hr
    · exact hr
  · obtain ⟨rfl, hv⟩ := mem_checkHashable h
    exact hv
  · obtain ⟨v, rfl, hv⟩ | rfl := mem_checkVectorDb h
    · exact hv
    · exact hr
  · obtain ⟨rfl, hv⟩ := mem_checkHashable h
    exact hv
  · obtain ⟨v, rfl, hv⟩ | rfl := mem_checkBenchmark h
    · exact hv
    · exact hr
  · simp only [checkPort, List.mem_ite_nil_left, List.mem_singleton] at h
    obtain ⟨-, rfl⟩ := h
    rfl

end Manifest
end Provision
