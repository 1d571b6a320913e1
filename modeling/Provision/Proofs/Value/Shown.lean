import Provision.Proofs.Steps
import Provision.Value.Shown

namespace Provision

theorem isLong_iff {n : Int} : isLong n = true ↔ Nat.pow 10 Numeral.digitLimit ≤ n.natAbs := by
  unfold isLong
  generalize Nat.pow 10 Numeral.digitLimit = bound
  exact decide_eq_true_iff

def longInteger : Int := Nat.pow 10 Numeral.digitLimit

theorem isLong_longInteger : isLong longInteger = true :=
  isLong_iff.2 (Nat.le_of_eq (Int.natAbs_natCast _).symm)

namespace Value

variable {v : Value} {text s : String} {f : Failure}

theorem shown_eq_ok_iff : v.shown text = .ok s ↔ v.isShort = true ∧ text = s := by
  cases h : v.isShort <;> simp [shown, h]

theorem shown_eq_error_iff : v.shown text = .error f ↔ v.isShort = false ∧ f = .tooLong := by
  cases h : v.isShort with
  | false => simp only [shown, h, Bool.false_eq_true, if_false, Except.error.injEq, true_and, eq_comm]
  | true => simp [shown, h]

theorem shown_of_isShort (h : v.isShort = true) : v.shown text = .ok text := shown_eq_ok_iff.2 ⟨h, rfl⟩

theorem plain_eq_ok_iff : v.plain = .ok s ↔ v.isShort = true ∧ v.wording = s := shown_eq_ok_iff

theorem plain_eq_error_iff : v.plain = .error f ↔ v.isShort = false ∧ f = .tooLong := shown_eq_error_iff

theorem quoted_eq_ok_iff : v.quoted = .ok s ↔ v.isShort = true ∧ v.quotation = s := shown_eq_ok_iff

theorem quoted_eq_error_iff : v.quoted = .error f ↔ v.isShort = false ∧ f = .tooLong := shown_eq_error_iff

theorem plain_of_isShort (h : v.isShort = true) : v.plain = .ok v.wording := shown_of_isShort h

theorem mapM_plain_eq_ok_iff {xs : List Value} {ss : List String} :
    xs.mapM plain = .ok ss ↔ (∀ x ∈ xs, x.isShort = true) ∧ xs.map wording = ss := by
  induction xs generalizing ss with
  | nil => simp [Steps.pure_eq_ok_iff]
  | cons x xs ih =>
      simp only [List.mapM_cons, Steps.bind_eq_ok_iff, Steps.pure_eq_ok_iff, plain_eq_ok_iff, ih,
        List.forall_mem_cons, List.map_cons]
      constructor
      · rintro ⟨s, ⟨hx, rfl⟩, ss, ⟨hxs, rfl⟩, rfl⟩
        exact ⟨⟨hx, hxs⟩, rfl⟩
      · rintro ⟨⟨hx, hxs⟩, rfl⟩
        exact ⟨_, ⟨hx, rfl⟩, _, ⟨hxs, rfl⟩, rfl⟩

theorem allShortEntries_iff {es : Entries} :
    allShortEntries es = true ↔ ∀ e ∈ es, e.1.isShort = true ∧ e.2.isShort = true := by
  induction es with
  | nil => simp [allShortEntries]
  | cons e es ih => rw [allShortEntries, Bool.and_eq_true, Bool.and_eq_true, ih, List.forall_mem_cons]

end Value
end Provision
