import Mathlib.Data.List.Nodup
import Provision.Manifest.Check
import Provision.Proofs.Value.Equality

namespace Provision.Manifest

variable {m : Manifest} {r : Resource}

/-- A resource may leave its provider out where its API has exactly one. Else it names one of them,
unless the name is still a placeholder. -/
inductive Bound (providers : List Provider) (r : Resource) : Prop
  | only (h : r.get "provider_id" = .null) (one : providers.length = 1)
  | open (h : Placeholder.inValue (r.get "provider_id") = true)
  | named (p : Provider) (hp : p ∈ providers) (h : r.get "provider_id" = .text p.id)

inductive Typed (r : Resource) : Prop
  | llm (h : r.get "model_type" = .text "llm")
  | embedding (h : r.get "model_type" = .text "embedding") (anchor : Option Nat) (es : Entries)
      (hes : r.get "metadata" = .map anchor es) (n : Int)
      (hn : Entries.get es "embedding_dimension" = .int n)

theorem checkMember_eq_nil_iff {seen : List Value} {v : Value} {absent present : List Finding} :
    checkMember seen v absent present = [] ↔
      v.searchable = true ∧ (if v.elem seen then present else absent) = [] := by
  rw [checkMember]
  cases hv : v.searchable <;> simp

theorem checkHashable_eq_nil_iff {v : Value} : checkHashable v = [] ↔ v.hashable = true := by
  rw [checkHashable]
  split <;> simp [*]

theorem checkListed_eq_nil_iff {api : String} :
    m.checkListed api = [] ↔ api ∈ knownApis ∧ m.providersOf api ≠ [] := by
  rw [checkListed]
  split
  next h => simp [h]
  next h =>
    rw [not_not] at h
    split
    next hp => simp [h, List.isEmpty_iff.1 hp]
    next hp => simpa [h] using hp

theorem checkConfigured_eq_nil_iff {api : Value} :
    m.checkConfigured api = [] ↔ ∃ a ∈ m.apis, api = .text a := by
  rw [← Value.elem_map_text_iff, checkConfigured]
  split <;> simp [*]

theorem checkProviders_eq_nil_iff {api : Value} {seen : List String} {ps : List Provider} :
    checkProviders api seen ps = [] ↔
      (∀ p ∈ ps, p.id ∉ seen) ∧ (ps.map (·.id)).Nodup ∧ ∀ p ∈ ps, p.isRemote ∨ p.isInline := by
  induction ps generalizing seen with
  | nil => simp [checkProviders]
  | cons p ps ih =>
      have hid : (if p.id ∈ seen then [Finding.repeatedProvider api p] else []) = [] ↔
          p.id ∉ seen := by
        split <;> simp [*]
      have hkind : (if p.isRemote || p.isInline then [] else [Finding.unprefixed api p]) = [] ↔
          p.isRemote ∨ p.isInline := by
        rw [← Bool.or_eq_true]
        split <;> simp [*]
      simp only [checkProviders, List.append_eq_nil_iff, hid, hkind, ih, List.forall_mem_cons,
        List.map_cons, List.nodup_cons]
      constructor
      · rintro ⟨⟨hseen, hpre⟩, hnew, hnodup, hpres⟩
        refine ⟨⟨hseen, fun q hq hs => hnew q hq (List.mem_cons_of_mem _ hs)⟩, ⟨?_, hnodup⟩,
          hpre, hpres⟩
        intro hmem
        obtain ⟨q, hq, he⟩ := List.mem_map.1 hmem
        exact hnew q hq (he ▸ List.mem_cons_self)
      · rintro ⟨⟨hseen, hall⟩, ⟨hne, hnodup⟩, hpre, hpres⟩
        refine ⟨⟨hseen, hpre⟩, fun q hq hs => ?_, hnodup, hpres⟩
        rcases List.mem_cons.1 hs with he | hs
        · exact hne (he ▸ List.mem_map_of_mem hq)
        · exact hall q hq hs

theorem checkBinding_eq_nil_iff {s : Section} {ps : List Provider} :
    checkBinding s (ps.map (·.id)) r = [] ↔ Bound ps r := by
  simp only [checkBinding, List.length_map]
  constructor
  · intro h
    split at h
    next hnull =>
      split at h
      next hone =>
        refine .only ?_ hone
        cases hr : r.get "provider_id" with
        | null => rfl
        | _ => simp [hr, Value.isNull] at hnull
      next => cases h
    next =>
      split at h
      next hn =>
        rw [Bool.or_eq_true, Value.elem_map_text_iff] at hn
        rcases hn with hopen | ⟨i, hi, he⟩
        · exact .open hopen
        · obtain ⟨p, hp, rfl⟩ := List.mem_map.1 hi
          exact .named p hp he
      next => cases h
  · intro h
    cases h with
    | only h one => simp [h, Value.isNull, one]
    | «open» h =>
        obtain ⟨s, hs, -⟩ := Value.inValue_eq_true_iff.1 h
        rw [if_neg (by simp [hs, Value.isNull]), h, Bool.true_or, if_pos rfl]
    | named p hp h =>
        have hmem : (r.get "provider_id").elem ((ps.map (·.id)).map .text) = true :=
          Value.elem_map_text_iff.2 ⟨p.id, List.mem_map_of_mem hp, h⟩
        rw [if_neg (by simp [h, Value.isNull]), hmem, Bool.or_true, if_pos rfl]

theorem checkModel_eq_nil_iff : checkModel r = [] ↔ Typed r := by
  constructor
  · intro h
    simp only [checkModel] at h
    split at h
    next => cases h
    next ht =>
      rw [Bool.not_eq_true, Bool.not_eq_false', Value.elem_map_text_iff] at ht
      obtain ⟨t, hmem, ht⟩ := ht
      split at h
      next he =>
        rw [Value.same_text_right_iff] at he
        split at h
        next a es hes =>
          split at h
          next hd =>
            cases hn : Entries.get es "embedding_dimension" with
            | int n => exact .embedding he a es hes n hn
            | _ => simp [hn, Value.isInt] at hd
          next => cases h
        next => simp [Value.isInt] at h
      next he =>
        rw [Value.same_text_right_iff, ht] at he
        simp only [modelTypes, List.mem_cons, List.not_mem_nil, or_false] at hmem
        rcases hmem with rfl | rfl
        · exact .llm ht
        · exact absurd rfl he
  · intro h
    have hknown {t : String} (ht : t ∈ modelTypes) :
        (Value.text t).elem (modelTypes.map .text) = true :=
      Value.elem_map_text_iff.2 ⟨t, ht, rfl⟩
    cases h with
    | llm h => simp [checkModel, hknown (t := "llm") (by decide), h, Value.same]
    | embedding h a es hes n hn =>
        simp [checkModel, hknown (t := "embedding") (by decide), h, Value.same, hes, hn, Value.isInt]

theorem isPort_eq_true_iff {v : Value} :
    isPort v = true ↔ ∃ n : Int, v = .int n ∧ 1 ≤ n ∧ n ≤ 65535 := by
  cases v <;> simp [isPort]

theorem checkPort_eq_nil_iff :
    m.checkPort = [] ↔ Placeholder.inValue m.server.port = true ∨
      ∃ n : Int, m.server.port = .int n ∧ 1 ≤ n ∧ n ≤ 65535 := by
  rw [← isPort_eq_true_iff, ← Bool.or_eq_true]
  simp only [checkPort]
  split <;> simp [*]

end Provision.Manifest
