import Provision.Manifest.Write
import Provision.Proofs.Value.Equality

namespace Provision.Entries

variable {es fs : Entries} {k : String}

theorem get?_cons {l v : Value} :
    get? ((l, v) :: es) (.text k) =
      if (Value.text k).same l then some v else get? es (.text k) := by
  rw [get?, List.find?_cons]
  cases (Value.text k).same l <;> rfl

theorem get?_cons_of_ne {l v : Value} (hl : l ≠ .text k) :
    get? ((l, v) :: es) (.text k) = get? es (.text k) := by
  rw [get?_cons, if_neg (mt Value.same_text_iff.1 hl)]

theorem get?_map_text (fields : List (String × Value)) :
    get? (fields.map fun f => (.text f.1, f.2)) (.text k) = fields.lookup k := by
  induction fields with
  | nil => rfl
  | cons f fields ih =>
      rw [List.map_cons, get?_cons, List.lookup_cons, ih]
      cases hk : k == f.1 <;> simp [Value.same, hk]

theorem get?_put_of_ne {l v : Value} (hl : l ≠ .text k) :
    get? (put es l v) (.text k) = get? es (.text k) := by
  induction es with
  | nil => rw [put, get?_cons_of_ne hl]
  | cons e es ih =>
      obtain ⟨l', w⟩ := e
      rw [put]
      split
      next hsame =>
        have hl' : l' ≠ .text k := by
          rintro rfl
          exact hl (Value.same_text_right_iff.1 hsame)
        rw [get?_cons_of_ne hl', get?_cons_of_ne hl']
      next => rw [get?_cons, get?_cons, ih]

theorem get?_update (h : ∀ f ∈ fs, f.1 ≠ .text k) :
    get? (update es fs) (.text k) = get? es (.text k) := by
  rw [update]
  induction fs generalizing es with
  | nil => rfl
  | cons f fs ih =>
      rw [List.foldl_cons, ih fun g hg => h g (List.mem_cons_of_mem _ hg),
        get?_put_of_ne (h f List.mem_cons_self)]

theorem ne_of_mem_without {names : List String} (hk : k ∈ names) :
    ∀ e ∈ without es names, e.1 ≠ .text k := by
  intro e he hkey
  obtain ⟨-, hno⟩ := List.mem_filter.1 he
  have hyes : (names.any fun n => (Value.text n).same e.1) = true :=
    List.any_eq_true.2 ⟨k, hk, Value.same_text_iff.2 hkey⟩
  rw [hyes] at hno
  cases hno

end Provision.Entries
