import Mathlib.Data.Finset.Card
import Provision.Value.Equality

namespace Provision

namespace Binary64

theorem one_pos : 0 < one := by
  rw [one, twoPow]
  generalize 1074 = n
  exact Nat.two_pow_pos n

theorem signed_mul (negative : Bool) (m n : Nat) : signed negative (m * n) = signed negative m * n := by
  cases negative with
  | false => exact Int.natCast_mul m n
  | true => exact (congrArg Neg.neg (Int.natCast_mul m n)).trans (Int.neg_mul _ _).symm

theorem natAbs_signed (negative : Bool) (units : Nat) : (signed negative units).natAbs = units := by
  cases negative <;> simp [signed]

theorem eqInt_infinite {negative : Bool} {n : Int} : (infinite negative).eqInt n = false := rfl

theorem eqInt_finite {negative : Bool} {units : Nat} {n : Int} :
    (finite negative units).eqInt n = true ↔ signed negative units = n * one := by
  rw [eqInt, toInt?, beq_iff_eq]
  have hone := one_pos
  generalize one = k at *
  split
  next h =>
    obtain ⟨q, rfl⟩ := Nat.dvd_of_mod_eq_zero h
    have hk : (k : Int) ≠ 0 := by omega
    rw [Nat.mul_div_cancel_left q hone, Option.some.injEq, Nat.mul_comm, signed_mul,
      Int.mul_eq_mul_right_iff hk]
  next h =>
    constructor
    · rintro ⟨⟩
    · intro he
      refine absurd ?_ h
      rw [← natAbs_signed negative units, he, Int.natAbs_mul, Int.natAbs_natCast, Nat.mul_mod_left]

end Binary64

namespace Value

variable {v w : Value} {vs reps : List Value}

def isScalar : Value → Bool
  | list .. | tuple _ | set .. | map .. => false
  | _ => true

theorem hashable_of_isScalar (h : v.isScalar = true) : v.hashable = true := by
  cases v with
  | list | tuple | set | map => cases h
  | _ => rfl

/-- What a scalar stands for. Numbers are counted in the units of reals. -/
inductive Scalar
  | null
  | number (units : Int)
  | infinite (negative : Bool)
  | text (s : String)
  | bytes (bs : List UInt8)
  | date (d : Date)
  | moment (universal : Bool) (clock : Int)
  deriving DecidableEq, Inhabited

/-- What scalars stand for where so many units make one. -/
inductive Means (one : Nat) : Value → Scalar → Prop
  | null : Means one null .null
  | bool (b : Bool) : Means one (bool b) (.number (ofBool b * one))
  | int (n : Int) : Means one (int n) (.number (n * one))
  | infinite (negative : Bool) : Means one (real (.infinite negative)) (.infinite negative)
  | finite (negative : Bool) (units : Nat) :
      Means one (real (.finite negative units)) (.number (Binary64.signed negative units))
  | text (s : String) : Means one (text s) (.text s)
  | bytes (bs : List UInt8) : Means one (bytes bs) (.bytes bs)
  | date (anchor : Option Nat) (d : Date) : Means one (date anchor d) (.date d)
  | moment (anchor : Option Nat) {m : Moment} (h : m.offset = none) :
      Means one (moment anchor m) (.moment false m.clock)
  | universal (anchor : Option Nat) {m : Moment} {offset : Int} (h : m.offset = some offset) :
      Means one (moment anchor m) (.moment true (m.clock - offset * 60000000))

theorem exists_means (one : Nat) (h : v.isScalar = true) (hnan : v ≠ .real .nan) : ∃ a, Means one v a := by
  cases v with
  | null => exact ⟨_, .null⟩
  | bool b => exact ⟨_, .bool b⟩
  | int n => exact ⟨_, .int n⟩
  | real x =>
      cases x with
      | nan => exact absurd rfl hnan
      | infinite negative => exact ⟨_, .infinite negative⟩
      | finite negative units => exact ⟨_, .finite negative units⟩
  | text s => exact ⟨_, .text s⟩
  | bytes bs => exact ⟨_, .bytes bs⟩
  | date anchor d => exact ⟨_, .date anchor d⟩
  | moment anchor m =>
      cases hm : m.offset with
      | none => exact ⟨_, .moment anchor hm⟩
      | some offset => exact ⟨_, .universal anchor hm⟩
  | list | tuple | set | map => cases h

theorem ofBool_inj {b c : Bool} : ofBool b = ofBool c ↔ b = c := by
  cases b <;> cases c <;> decide

/-- Scalars are equal that stand for the same. The units of one are a variable here, for their number is too
large to be looked into. -/
theorem same_iff_of_means {one : Nat} (hone : Binary64.one = one) {a b : Scalar} (hv : Means one v a)
    (hw : Means one w b) : v.same w = true ↔ a = b := by
  have hpos : (one : Int) ≠ 0 := by
    have := Binary64.one_pos
    omega
  have hnumber {m n : Int} : m * (one : Int) = n * one ↔ m = n := Int.mul_eq_mul_right_iff hpos
  have hfinite {negative : Bool} {units : Nat} {n : Int} :
      (Binary64.finite negative units).eqInt n = true ↔ Binary64.signed negative units = n * one := by
    rw [Binary64.eqInt_finite, hone]
  clear hone hpos
  cases hv with
  | null => cases hw <;> simp [same]
  | bool b =>
      cases hw with
      | finite => simpa only [same, hfinite, Scalar.number.injEq] using eq_comm
      | bool | int => simp only [same, beq_iff_eq, Scalar.number.injEq, hnumber, ofBool_inj]
      | _ => simp [same, Binary64.eqInt_infinite]
  | int n =>
      cases hw with
      | bool => simpa only [same, beq_iff_eq, Scalar.number.injEq, hnumber] using eq_comm
      | finite => simpa only [same, hfinite, Scalar.number.injEq] using eq_comm
      | int => simp only [same, beq_iff_eq, Scalar.number.injEq, hnumber]
      | _ => simp [same, Binary64.eqInt_infinite]
  | infinite negative => cases hw <;> simp [same, Binary64.eq, Binary64.eqInt_infinite]
  | finite negative units =>
      cases hw with
      | bool | int => simp only [same, hfinite, Scalar.number.injEq]
      | _ => simp [same, Binary64.eq]
  | text s => cases hw <;> simp [same]
  | bytes bs => cases hw <;> simp [same]
  | date anchor d => cases hw <;> simp [same]
  | moment anchor h => cases hw <;> simp [same, Moment.same, *]
  | universal anchor h => cases hw <;> simp [same, Moment.same, *]

def Scalars (vs : List Value) : Prop := ∀ v ∈ vs, v.isScalar = true ∧ v ≠ .real .nan

/-- Members of a list, no two of them equal, with one equal to each member. -/
structure Representatives (vs reps : List Value) : Prop where
  among : ∀ v ∈ reps, v ∈ vs
  apart : reps.Pairwise fun v w => v.same w = false
  cover : ∀ v ∈ vs, ∃ w ∈ reps, v.same w = true

theorem exists_meaning (h : Scalars vs) :
    ∃ meaning : Value → Scalar, ∀ v ∈ vs, ∀ w ∈ vs, v.same w = true ↔ meaning v = meaning w := by
  have hall : ∀ v ∈ vs, ∃ a, Means Binary64.one v a := fun v hv => exists_means _ (h v hv).1 (h v hv).2
  choose! meaning hmeaning using hall
  exact ⟨meaning, fun v hv w hw => same_iff_of_means rfl (hmeaning v hv) (hmeaning w hw)⟩

/-- However a list is represented, it is by as many values as it has distinct ones. -/
theorem Representatives.length_eq {κ : Type} [DecidableEq κ] {key : Value → κ} (h : Representatives vs reps)
    (hkey : ∀ v ∈ vs, ∀ w ∈ vs, v.same w = true ↔ key v = key w) :
    reps.length = (vs.map key).toFinset.card := by
  have hsame : (vs.map key).toFinset = (reps.map key).toFinset := by
    ext a
    simp only [List.mem_toFinset, List.mem_map]
    constructor
    · rintro ⟨v, hv, rfl⟩
      obtain ⟨w, hw, he⟩ := h.cover v hv
      exact ⟨w, hw, ((hkey v hv w (h.among w hw)).1 he).symm⟩
    · rintro ⟨w, hw, rfl⟩
      exact ⟨w, h.among w hw, rfl⟩
  have hnodup : (reps.map key).Nodup := by
    rw [List.Nodup, List.pairwise_map]
    refine h.apart.imp_of_mem fun hv hw hne he => ?_
    rw [(hkey _ (h.among _ hv) _ (h.among _ hw)).2 he] at hne
    cases hne
  rw [hsame, List.toFinset_card_of_nodup hnodup, List.length_map]

theorem exists_representatives (h : Scalars vs) : ∃ reps, Representatives vs reps := by
  induction vs with
  | nil => exact ⟨[], List.forall_mem_nil _, .nil, List.forall_mem_nil _⟩
  | cons v vs ih =>
      obtain ⟨hv, hvs⟩ := List.forall_mem_cons.1 h
      obtain ⟨reps, hreps⟩ := ih hvs
      by_cases hfound : ∃ w ∈ reps, v.same w = true
      · exact ⟨reps, fun w hw => List.mem_cons_of_mem v (hreps.among w hw), hreps.apart,
          List.forall_mem_cons.2 ⟨hfound, hreps.cover⟩⟩
      · obtain ⟨a, ha⟩ := exists_means Binary64.one hv.1 hv.2
        refine ⟨v :: reps, ?_, List.pairwise_cons.2 ⟨fun w hw => ?_, hreps.apart⟩, ?_⟩
        · rw [List.forall_mem_cons]
          exact ⟨List.mem_cons_self, fun w hw => List.mem_cons_of_mem v (hreps.among w hw)⟩
        · exact Bool.eq_false_iff.2 fun hsame => hfound ⟨w, hw, hsame⟩
        · rw [List.forall_mem_cons]
          refine ⟨⟨v, List.mem_cons_self, (same_iff_of_means rfl ha ha).2 rfl⟩, fun w hw => ?_⟩
          obtain ⟨u, hu, hsame⟩ := hreps.cover w hw
          exact ⟨u, List.mem_cons_of_mem v hu, hsame⟩

end Value
end Provision
