import Mathlib.Data.List.Forall2
import Provision.Placeholder.Basic
import Provision.Value.Equality

namespace Provision.Value

theorem same_text_iff {s : String} {v : Value} : (text s).same v = true ↔ v = .text s := by
  cases v with
  | text t => simpa [same] using eq_comm
  | _ => simp [same]

theorem same_text_right_iff {v : Value} {s : String} : v.same (.text s) = true ↔ v = .text s := by
  cases v <;> simp [same]

theorem elem_map_text_iff {v : Value} {ss : List String} :
    v.elem (ss.map .text) = true ↔ ∃ s ∈ ss, v = .text s := by
  simp [elem, same_text_right_iff]

theorem elem_iff {v : Value} {vs : List Value} : v.elem vs = true ↔ ∃ w ∈ vs, v.same w = true := by
  rw [elem, List.any_eq_true]

theorem isNull_iff {v : Value} : v.isNull = true ↔ v = null := by
  cases v <;> simp [isNull]

theorem text?_eq_some_iff {v : Value} {s : String} : v.text? = some s ↔ v = .text s := by
  cases v <;> simp [text?]

theorem searchable_of_hashable {v : Value} (h : v.hashable = true) : v.searchable = true := by
  cases v with
  | set a xs => rfl
  | _ => exact h

theorem inValue_eq_true_iff {v : Value} :
    Placeholder.inValue v = true ↔ ∃ s, v = .text s ∧ Placeholder.inText s = true := by
  cases v <;> simp [Placeholder.inValue]

theorem inValue_of_same {v w : Value} (h : w.same v = true)
    (hv : Placeholder.inValue v = true) : Placeholder.inValue w = true := by
  obtain ⟨s, rfl, hs⟩ := inValue_eq_true_iff.1 hv
  rw [same_text_right_iff] at h
  rw [h]
  exact hs

def Alike (v w : Value) : Prop := v = w ∨ v.same w = true

theorem forall₂_of_alike {xs ys : List Value} (h : (ofList xs).Alike (ofList ys)) :
    List.Forall₂ Alike xs ys := by
  rcases h with he | hsame
  · rw [(Value.list.inj he).2, List.forall₂_same]
    exact fun _ _ => .inl rfl
  · rw [ofList, ofList, same] at hsame
    induction xs generalizing ys with
    | nil =>
        cases ys with
        | nil => exact .nil
        | cons y ys => simp [sameList] at hsame
    | cons x xs ih =>
        cases ys with
        | nil => simp [sameList] at hsame
        | cons y ys =>
            rw [sameList, Bool.and_eq_true] at hsame
            exact .cons (.inr hsame.1) (ih hsame.2)

theorem exists_of_subentries {es fs : Entries} (h : subentries es fs = true) :
    ∀ e ∈ es, ∃ f ∈ fs, e.1.same f.1 = true ∧ e.2.same f.2 = true := by
  induction es with
  | nil => simp
  | cons e es ih =>
      obtain ⟨k, v⟩ := e
      rw [subentries, Bool.and_eq_true, List.any_eq_true] at h
      rw [List.forall_mem_cons]
      refine ⟨?_, ih h.2⟩
      obtain ⟨f, hf, hsame⟩ := h.1
      exact ⟨f, hf, Bool.and_eq_true_iff.1 hsame⟩

theorem exists_of_alike {es fs : Entries} (h : (ofEntries es).Alike (ofEntries fs)) {k : String}
    {v : Value} (he : (.text k, v) ∈ es) : ∃ w, (.text k, w) ∈ fs ∧ v.Alike w := by
  rcases h with heq | hsame
  · rw [(Value.map.inj heq).2] at he
    exact ⟨v, he, .inl rfl⟩
  · rw [ofEntries, ofEntries, same, Bool.and_eq_true] at hsame
    obtain ⟨⟨l, w⟩, hf, hkey, hvalue⟩ := exists_of_subentries hsame.2 _ he
    cases same_text_iff.1 hkey
    exact ⟨w, hf, .inr hvalue⟩

end Provision.Value
