import Provision.Proofs.Placeholder.FractionValue
import Provision.Proofs.Value.Shown

namespace Provision.Coerce

open Text Numeral

variable {cs : List Char} {v : String}

def AnyCase (word v : String) : Prop :=
  List.Forall₂ (fun d c => c = d ∨ c = d.toUpper) word.toList v.toList

theorem anyCase_iff {word : String} (hword : word.toList.all Char.isLower = true) :
    String.ofList (v.toList.map Char.toLower) = word ↔ AnyCase word v := by
  rw [List.all_eq_true] at hword
  rw [← String.toList_inj, String.toList_ofList, AnyCase]
  generalize word.toList = ds at *
  generalize v.toList = cs
  induction ds generalizing cs with
  | nil => simp
  | cons d ds ih =>
      obtain ⟨hd, hds⟩ := List.forall_mem_cons.1 hword
      cases cs with
      | nil => simp
      | cons c cs => rw [List.map_cons, List.cons_eq_cons, List.forall₂_cons, toLower_eq_iff hd, ih hds]

theorem isNumeralChar_of_form {l : Language Char} (hl : Plain l) (h : cs ∈ mark * l * ending) :
    ∀ c ∈ cs, isNumeralChar c = true ∨ c = '\n' := by
  obtain ⟨_, hmx, t, ht, rfl⟩ := Language.mem_mul.1 h
  obtain ⟨m, hm, x, hx, rfl⟩ := Language.mem_mul.1 hmx
  simp only [List.forall_mem_append]
  refine ⟨⟨fun c hc => .inl (isNumeralChar_of_mark hm c hc), fun c hc => .inl ((hl x hx).2.2 c hc)⟩, ?_⟩
  rcases mem_ending_iff.1 ht with rfl | rfl <;> simp

theorem not_anyCase {word : String} {d : Char} (hd : d ∈ word.toList)
    (hplain : ∀ c, c = d ∨ c = d.toUpper → ¬ (isNumeralChar c = true ∨ c = '\n'))
    (h : ∀ c ∈ v.toList, isNumeralChar c = true ∨ c = '\n') : ¬ AnyCase word v := by
  intro hword
  obtain ⟨c, hc, hcase⟩ := Steps.exists_of_forall₂ hword hd
  exact hplain c hcase (h c hc)

theorem lowered_ne (h : ∀ c ∈ v.toList, isNumeralChar c = true ∨ c = '\n') :
    String.ofList (v.toList.map Char.toLower) ≠ "true" ∧
      String.ofList (v.toList.map Char.toLower) ≠ "false" := by
  -- No numeral is written with the letters r and l.
  constructor
  · rw [Ne, anyCase_iff (by decide)]
    refine not_anyCase (d := 'r') (by decide) ?_ h
    rintro c (rfl | rfl) <;> decide
  · rw [Ne, anyCase_iff (by decide)]
    refine not_anyCase (d := 'l') (by decide) ?_ h
    rintro c (rfl | rfl) <;> decide

theorem coerce_of_true (h : AnyCase "true" v) : coerce v = .ok (.bool true) := by
  rw [coerce, if_pos ((anyCase_iff (by decide)).2 h)]

theorem coerce_of_false (h : AnyCase "false" v) : coerce v = .ok (.bool false) := by
  have hlower := (anyCase_iff (by decide)).2 h
  rw [coerce, if_neg (by rw [hlower]; decide), if_pos hlower]

theorem coerce_of_integer (h : v.toList ∈ integerForm) : coerce v =
    if digitLimit < (digitsOf v.toList).length then
      .error (.trouble .value (Failure.tooManyDigits (digitsOf v.toList).length))
    else .ok (.int (denoted v.toList)) := by
  obtain ⟨htrue, hfalse⟩ := lowered_ne (isNumeralChar_of_form plain_digits h)
  rw [coerce, if_neg htrue, if_neg hfalse, if_pos (isInteger_iff_mem.2 h),
    integer?_of_mem (mem_integers_of_form h)]
  by_cases hlong : digitLimit < (digitsOf v.toList).length
  · rw [if_pos hlong, if_pos hlong]
    rfl
  · rw [if_neg hlong, if_neg hlong]

theorem coerce_of_real (h : v.toList ∈ realForm) : coerce v = .ok (.real (nearest v.toList)) := by
  have hreal := isReal_iff_mem.2 h
  have hint : ¬ isInteger v.toList = true := by
    intro hint
    rw [not_isReal_of_isInteger hint] at hreal
    cases hreal
  obtain ⟨htrue, hfalse⟩ := lowered_ne (isNumeralChar_of_form plain_fraction h)
  rw [coerce, if_neg htrue, if_neg hfalse, if_neg hint, if_pos hreal, real?_of_mem h]

/-- A truth value, a number, or the text itself; an integer of too many digits is refused. -/
inductive Reads (v : String) : Except Failure Value → Prop
  | true (h : AnyCase "true" v) : Reads v (.ok (.bool .true))
  | false (h : AnyCase "false" v) : Reads v (.ok (.bool .false))
  | integer (h : v.toList ∈ integerForm) (short : (digitsOf v.toList).length ≤ digitLimit) :
      Reads v (.ok (.int (denoted v.toList)))
  | long (h : v.toList ∈ integerForm) (long : digitLimit < (digitsOf v.toList).length) :
      Reads v (.error (.trouble .value (Failure.tooManyDigits (digitsOf v.toList).length)))
  | real (h : v.toList ∈ realForm) : Reads v (.ok (.real (nearest v.toList)))
  | text (htrue : ¬ AnyCase "true" v) (hfalse : ¬ AnyCase "false" v) (hint : v.toList ∉ integerForm)
      (hreal : v.toList ∉ realForm) : Reads v (.ok (.text v))

theorem coerce_of_reads {r : Except Failure Value} (h : Reads v r) : coerce v = r := by
  cases h with
  | true h => exact coerce_of_true h
  | false h => exact coerce_of_false h
  | integer h short => rw [coerce_of_integer h, if_neg (Nat.not_lt.2 short)]
  | long h long => rw [coerce_of_integer h, if_pos long]
  | real h => exact coerce_of_real h
  | text htrue hfalse hint hreal =>
      have htrue' := mt (anyCase_iff (by decide)).1 htrue
      have hfalse' := mt (anyCase_iff (by decide)).1 hfalse
      rw [coerce, if_neg htrue', if_neg hfalse', if_neg (mt isInteger_iff_mem.1 hint),
        if_neg (mt isReal_iff_mem.1 hreal)]

theorem exists_reads (v : String) : ∃ r, Reads v r := by
  by_cases htrue : AnyCase "true" v
  · exact ⟨_, .true htrue⟩
  by_cases hfalse : AnyCase "false" v
  · exact ⟨_, .false hfalse⟩
  by_cases hint : v.toList ∈ integerForm
  · by_cases hlong : digitLimit < (digitsOf v.toList).length
    · exact ⟨_, .long hint hlong⟩
    · exact ⟨_, .integer hint (Nat.not_lt.1 hlong)⟩
  by_cases hreal : v.toList ∈ realForm
  · exact ⟨_, .real hreal⟩
  · exact ⟨_, .text htrue hfalse hint hreal⟩

theorem coerce_eq_iff {r : Except Failure Value} : coerce v = r ↔ Reads v r := by
  constructor
  · rintro rfl
    obtain ⟨r, h⟩ := exists_reads v
    rwa [coerce_of_reads h]
  · exact coerce_of_reads

theorem coerce_eq_ok {u : Value} (h : coerce v = .ok u) :
    (∃ b, u = .bool b) ∨ (∃ n, u = .int n) ∨ (∃ x, u = .real x) ∨ u = .text v := by
  cases coerce_eq_iff.1 h with
  | true => exact .inl ⟨_, rfl⟩
  | false => exact .inl ⟨_, rfl⟩
  | integer => exact .inr (.inl ⟨_, rfl⟩)
  | real => exact .inr (.inr (.inl ⟨_, rfl⟩))
  | text => exact .inr (.inr (.inr rfl))

theorem length_digitsOf_form (h : cs ∈ integerForm) : (digitsOf cs).length = (unsigned cs).length := by
  have hds := (mem_form_iff plain_digits).1 h
  obtain ⟨_, hmx, t, ht, rfl⟩ := Language.mem_mul.1 h
  obtain ⟨m, hm, ds, hds', rfl⟩ := Language.mem_mul.1 hmx
  obtain ⟨hmark, hne, hchars⟩ := plain_digits ds hds'
  rw [unsigned, body_append ht hne hchars, sign_append hm hmark, digitsOf_append, digitsOf_append,
    digitsOf_mark hm, (digitsOf_ending ht).1, List.append_nil, List.nil_append, length_digitsOf hds'.2]

theorem coerce_spec (s : String) :
    (∃ v, coerce s = .ok v) ∨
      isInteger s.toList ∧ digitLimit < (unsigned s.toList).length ∧
        coerce s =
          .error (.trouble .value (Failure.tooManyDigits (unsigned s.toList).length)) := by
  obtain ⟨r, h⟩ := exists_reads s
  rw [coerce_of_reads h]
  cases h with
  | long h long =>
      rw [length_digitsOf_form h] at long ⊢
      exact .inr ⟨isInteger_iff_mem.2 h, long, rfl⟩
  | _ => exact .inl ⟨_, rfl⟩

theorem mem_integerForm_toString (n : Int) : (toString n).toList ∈ integerForm := by
  obtain ⟨m, hm, htext, -⟩ := toList_toString n
  have hnone : [] ∈ ending := .inl rfl
  have hform := Language.append_mem_mul (Language.append_mem_mul hm (digits_toDigits n.natAbs).1) hnone
  rwa [List.append_nil, ← htext] at hform

theorem not_isLong_of_digits {n : Int} (h : (Nat.toDigits 10 n.natAbs).length ≤ digitLimit) :
    isLong n = false := by
  obtain ⟨⟨-, hdigits⟩, hvalue⟩ := digits_toDigits n.natAbs
  rw [← length_digitsOf hdigits] at h
  have hbelow : n.natAbs < 10 ^ (digitsOf (Nat.toDigits 10 n.natAbs)).length := by
    have hdigit (d : Nat) (hd : d ∈ (digitsOf (Nat.toDigits 10 n.natAbs)).reverse) : d < 10 := by
      obtain ⟨c, -, hc⟩ := List.mem_filterMap.1 (List.mem_reverse.1 hd)
      exact digit?_lt hc
    have hlt := Nat.ofDigits_lt_base_pow_length (by decide : 1 < 10) hdigit
    rwa [hvalue, List.length_reverse] at hlt
  rw [Bool.eq_false_iff, Ne, isLong_iff, Nat.not_le]
  generalize digitLimit = limit at h ⊢
  exact Nat.lt_of_lt_of_le hbelow (Nat.pow_le_pow_right (by decide) h)

/-- Coercion classifies every text by its form. What has the form of a number is read as one, so that the only
texts without a value are integers of too many digits; truth values and integers are read back from how they
are written. -/
theorem coerce_exact :
    (∀ v r, coerce v = r ↔ Reads v r) ∧
    (∀ cs ∈ integerForm, (∃ n, integer? cs = .ok n) ∨
      digitLimit < (digitsOf cs).length ∧ integer? cs = .error (.tooLong (digitsOf cs).length)) ∧
    (∀ cs ∈ realForm, ∃ x, real? cs = some x) ∧
    (∀ b, ∃ s, (Value.bool b).plain = .ok s ∧ coerce s = .ok (.bool b)) ∧
    ∀ n : Int, (Nat.toDigits 10 n.natAbs).length ≤ digitLimit →
      ∃ s, (Value.int n).plain = .ok s ∧ coerce s = .ok (.int n) := by
  refine ⟨fun v r => coerce_eq_iff, fun cs h => ?_, fun cs h => ⟨_, real?_of_mem h⟩, ?_, fun n hn => ?_⟩
  · rw [integer?_of_mem (mem_integers_of_form h)]
    by_cases hlong : digitLimit < (digitsOf cs).length
    · exact .inr ⟨hlong, if_pos hlong⟩
    · exact .inl ⟨_, if_neg hlong⟩
  · rintro (_ | _)
    · exact ⟨"False", rfl, rfl⟩
    · exact ⟨"True", rfl, rfl⟩
  · have hshort : (Value.int n).isShort = true := by rw [Value.isShort, not_isLong_of_digits hn, Bool.not_false]
    refine ⟨toString n, Value.plain_eq_ok_iff.2 ⟨hshort, rfl⟩, ?_⟩
    have hlength : (digitsOf (toString n).toList).length ≤ digitLimit := by
      rw [digitsOf_toString, length_digitsOf (digits_toDigits n.natAbs).1.2]
      exact hn
    rw [coerce_of_integer (mem_integerForm_toString n), if_neg (Nat.not_lt.2 hlength),
      denoted_toString]

end Provision.Coerce
