import Provision.Proofs.Placeholder.NumeralForm

namespace Provision.Coerce

open Text Numeral

variable {cs x w d p e t m ds : List Char}

def isExponentMark (c : Char) : Bool := c == 'e' || c == 'E'

def mantissa (cs : List Char) : List Char := cs.takeWhile fun c => !isExponentMark c

def scale (cs : List Char) : List Char := cs.dropWhile fun c => !isExponentMark c

def places (cs : List Char) : Nat := (digitsOf ((mantissa cs).dropWhile (· != '.'))).length

/-- The number nearest to the one that a decimal fraction denotes. -/
def nearest (cs : List Char) : Binary64 :=
  .ofDecimal ('-' ∈ mantissa cs) (Nat.ofDigits 10 (digitsOf (mantissa cs)).reverse)
    (denoted (scale cs) - places cs)

theorem digitsOf_map_toAscii (cs : List Char) : (cs.map toAscii).filterMap digit? = digitsOf cs := by
  rw [List.filterMap_map, digitsOf]
  congr 1
  exact funext digit?_toAscii

theorem takeWhile_map_toAscii (cs : List Char) :
    (cs.map toAscii).takeWhile isAsciiDigit = (cs.takeWhile isDigit).map toAscii := by
  rw [List.takeWhile_map, show isAsciiDigit ∘ toAscii = isDigit from funext isAsciiDigit_toAscii]

theorem dropWhile_map_toAscii (cs : List Char) :
    (cs.map toAscii).dropWhile isAsciiDigit = (cs.dropWhile isDigit).map toAscii := by
  rw [List.dropWhile_map, show isAsciiDigit ∘ toAscii = isDigit from funext isAsciiDigit_toAscii]

theorem all_map_toAscii (h : AllDigits ds) : (ds.map toAscii).all isAsciiDigit = true := by
  rw [List.all_map, List.all_eq_true]
  intro c hc
  rw [Function.comp_apply, isAsciiDigit_toAscii]
  exact h c hc

theorem denoted_cons_append {c : Char} (hc : digit? c = none) (hc' : c ≠ '-') (hm : m ∈ mark)
    (hds : AllDigits ds) : denoted (c :: (m ++ ds)) = signed ('-' ∈ m) (ofDigits 10 (digitsOf ds)) := by
  have hdigits : digitsOf (c :: (m ++ ds)) = digitsOf ds := by
    have hcons : digitsOf (c :: (m ++ ds)) = digitsOf (m ++ ds) := List.filterMap_cons_none hc
    rw [hcons, digitsOf_append, digitsOf_mark hm, List.nil_append]
  have hminus : '-' ∈ c :: (m ++ ds) ↔ '-' ∈ m := by
    simp [minus_not_mem hds, hc'.symm]
  simp only [denoted, hdigits, hminus, ofDigits_eq]

theorem exponent?_of_mem (h : e ∈ exponent) : exponent? (e.map toAscii) = some (denoted e) := by
  obtain ⟨c, m, ds, rfl, hc, hm, hds⟩ := mem_exponent_iff.1 h
  have hsign : sign ((m ++ ds).map toAscii) = (decide ('-' ∈ m), ds.map toAscii) := by
    rw [sign_map_toAscii, sign_append hm (plain_digits ds hds).1]
  have hsome : ¬ ((ds.map toAscii).isEmpty || !(ds.map toAscii).all isAsciiDigit) = true := by
    simp [all_map_toAscii hds.2, hds.1]
  have hletter : toAscii c = c ∧ (c = 'e' || c = 'E') = true ∧ digit? c = none ∧ c ≠ '-' := by
    rcases hc with rfl | rfl <;> decide
  obtain ⟨hascii, hc, hdigit, hminus⟩ := hletter
  rw [denoted_cons_append hdigit hminus hm hds.2, List.map_cons, hascii, exponent?, if_pos hc, hsign]
  dsimp only
  rw [if_neg hsome, digitsOf_map_toAscii]

theorem exponent?_map_toAscii (he : e = [] ∨ e ∈ exponent) :
    exponent? (e.map toAscii) = some (denoted e) := by
  rcases he with rfl | he
  · rfl
  · exact exponent?_of_mem he

theorem fraction?_of_parts (hw : AllDigits w) (hd : Pointed d p) (he : e = [] ∨ e ∈ exponent)
    (hne : w ≠ [] ∨ p ≠ []) : fraction? ((w ++ (d ++ e)).map toAscii) =
      some (ofDigits 10 (digitsOf (w ++ p)), denoted e - p.length) := by
  have hhead := head_exponent he
  have hexponent := exponent?_map_toAscii he
  have hdigits : ((w.map toAscii) ++ (p.map toAscii)).filterMap digit? = digitsOf (w ++ p) := by
    rw [← List.map_append, digitsOf_map_toAscii]
  have hsome : ¬ ((w.map toAscii).isEmpty && (p.map toAscii).isEmpty) = true := by
    simpa [← not_and_or] using hne
  cases hd with
  | without =>
      obtain ⟨htake, hdrop⟩ := span_digits hw hhead
      rw [List.nil_append, fraction?]
      simp only [takeWhile_map_toAscii, dropWhile_map_toAscii, htake, hdrop]
      split
      -- What follows the digits begins with no point, neither as it stands nor with its digits replaced.
      next r hr =>
        have hpoint : e.head? = some '.' := by
          cases e with
          | nil => cases hr
          | cons c e => rw [List.head?_cons, (toAscii_eq_iff (by decide)).1 (List.cons.inj hr).1]
        rcases he with rfl | he
        · cases hpoint
        · obtain ⟨c, m, ds, rfl, hc, -⟩ := mem_exponent_iff.1 he
          cases hpoint
          rcases hc with hc | hc <;> cases hc
      next =>
        rw [List.map_nil] at hdigits hsome
        simp only [hexponent]
        rw [if_neg hsome, hdigits]
        rfl
  | point hp =>
      obtain ⟨htake, hdrop⟩ := span_digits (t := '.' :: (p ++ e)) hw head_point
      obtain ⟨htake', hdrop'⟩ := span_digits hp hhead
      have hpoint : toAscii '.' = '.' := by decide
      rw [List.cons_append, fraction?]
      simp only [takeWhile_map_toAscii, dropWhile_map_toAscii, htake, hdrop, List.map_cons, hpoint, htake',
        hdrop', hexponent]
      rw [if_neg hsome, hdigits, List.length_map]
      rfl

theorem not_mark_of_isDigit {c : Char} (h : isDigit c = true) :
    (!isExponentMark c) = true ∧ (c != '.') = true := by
  constructor
  · rw [Bool.not_eq_true', isExponentMark, Bool.or_eq_false_iff, beq_eq_false_iff_ne, beq_eq_false_iff_ne]
    constructor
    · rintro rfl
      exact absurd h (by decide)
    · rintro rfl
      exact absurd h (by decide)
  · rw [bne_iff_ne]
    rintro rfl
    exact absurd h (by decide)

theorem not_mark_of_lead (hm : m ∈ mark) (hw : AllDigits w) :
    ∀ c ∈ m ++ w, (!isExponentMark c) = true ∧ (c != '.') = true := by
  rw [List.forall_mem_append]
  refine ⟨?_, fun c hc => not_mark_of_isDigit (hw c hc)⟩
  rcases mem_mark_iff.1 hm with rfl | rfl | rfl
  · exact List.forall_mem_nil _
  · exact List.forall_mem_singleton.2 (by decide)
  · exact List.forall_mem_singleton.2 (by decide)

theorem not_mark_of_pointed (hd : Pointed d p) : ∀ c ∈ d, (!isExponentMark c) = true := by
  cases hd with
  | without => exact List.forall_mem_nil _
  | point hp =>
      rw [List.forall_mem_cons]
      exact ⟨by decide, fun c hc => (not_mark_of_isDigit (hp c hc)).1⟩

theorem denoted_append_ending (ht : t ∈ ending) : denoted (cs ++ t) = denoted cs := by
  obtain ⟨hdigits, hminus⟩ := digitsOf_ending ht
  have hmem : '-' ∈ cs ++ t ↔ '-' ∈ cs := by simp [hminus]
  simp only [denoted, digitsOf_append, hdigits, List.append_nil, hmem]

theorem mantissa_scale_of_parts (hm : m ∈ mark) (hw : AllDigits w) (hd : Pointed d p)
    (he : e = [] ∨ e ∈ exponent) (ht : t ∈ ending) : ∃ rest ∈ ending,
      mantissa (m ++ (w ++ (d ++ e)) ++ t) = m ++ w ++ (d ++ rest) ∧
      denoted (scale (m ++ (w ++ (d ++ e)) ++ t)) = denoted e := by
  have hfront : ∀ c ∈ m ++ w ++ d, (!isExponentMark c) = true := by
    rw [List.forall_mem_append]
    exact ⟨fun c hc => (not_mark_of_lead hm hw c hc).1, not_mark_of_pointed hd⟩
  have htext : m ++ (w ++ (d ++ e)) ++ t = m ++ w ++ d ++ (e ++ t) := by simp
  rw [htext, mantissa, scale, List.takeWhile_append_of_pos hfront, List.dropWhile_append_of_pos hfront]
  rcases he with rfl | he
  · have hall : ∀ c ∈ t, (!isExponentMark c) = true := by
      rcases mem_ending_iff.1 ht with rfl | rfl
      · exact List.forall_mem_nil _
      · exact List.forall_mem_singleton.2 (by decide)
    refine ⟨t, ht, ?_, ?_⟩
    · rw [List.nil_append, List.takeWhile_eq_self_iff.2 hall, List.append_assoc (m ++ w)]
    · rw [List.nil_append, List.dropWhile_eq_nil_iff.2 hall]
  · have hsplit : (e ++ t).takeWhile (fun c => !isExponentMark c) = [] ∧
        (e ++ t).dropWhile (fun c => !isExponentMark c) = e ++ t := by
      obtain ⟨c, m, ds, rfl, hc, -⟩ := mem_exponent_iff.1 he
      rcases hc with rfl | rfl
      · exact ⟨rfl, rfl⟩
      · exact ⟨rfl, rfl⟩
    refine ⟨[], .inl rfl, ?_, ?_⟩
    · rw [hsplit.1, List.append_nil, List.append_nil]
    · rw [hsplit.2, denoted_append_ending ht]

theorem digitsOf_pointed (hd : Pointed d p) : digitsOf d = digitsOf p ∧ '-' ∉ d := by
  cases hd with
  | without => exact ⟨rfl, List.not_mem_nil⟩
  | point hp =>
      refine ⟨List.filterMap_cons_none (by decide), ?_⟩
      rw [List.mem_cons, not_or]
      exact ⟨by decide, minus_not_mem hp⟩

theorem length_after_point (hd : Pointed d p) (ht : t ∈ ending) :
    (digitsOf ((d ++ t).dropWhile (· != '.'))).length = p.length := by
  cases hd with
  | without =>
      have hdrop : t.dropWhile (· != '.') = [] := by
        rcases mem_ending_iff.1 ht with rfl | rfl <;> rfl
      rw [List.nil_append, hdrop]
      rfl
  | point hp =>
      have hdrop : ('.' :: p ++ t).dropWhile (· != '.') = '.' :: (p ++ t) := rfl
      have hcons : digitsOf ('.' :: (p ++ t)) = digitsOf (p ++ t) := List.filterMap_cons_none (by decide)
      rw [hdrop, hcons, digitsOf_append, (digitsOf_ending ht).1, List.append_nil, length_digitsOf hp]

theorem nearest_of_parts (hm : m ∈ mark) (hw : AllDigits w) (hd : Pointed d p)
    (he : e = [] ∨ e ∈ exponent) (ht : t ∈ ending) : nearest (m ++ (w ++ (d ++ e)) ++ t) =
      .ofDecimal ('-' ∈ m) (ofDigits 10 (digitsOf (w ++ p))) (denoted e - p.length) := by
  obtain ⟨rest, hrest, hmantissa, hscale⟩ := mantissa_scale_of_parts hm hw hd he ht
  obtain ⟨hnone, hminus⟩ := digitsOf_ending hrest
  obtain ⟨hdigits, hminus'⟩ := digitsOf_pointed hd
  have hmem : '-' ∈ m ++ w ++ (d ++ rest) ↔ '-' ∈ m := by
    simp [minus_not_mem hw, hminus, hminus']
  have hpass : ∀ c ∈ m ++ w, (c != '.') = true := fun c hc => (not_mark_of_lead hm hw c hc).2
  rw [nearest, places, hmantissa, hscale, List.dropWhile_append_of_pos hpass, length_after_point hd hrest]
  simp only [hmem, digitsOf_append, digitsOf_mark hm, hdigits, hnone, List.append_nil, List.nil_append,
    ofDigits_eq]

theorem toNat_toLower (c : Char) : c.toLower.val.toNat =
    if 65 ≤ c.val.toNat ∧ c.val.toNat ≤ 90 then c.val.toNat + 32 else c.val.toNat := by
  delta Char.toLower
  simp only [ge_iff_le, UInt32.le_iff_toNat_le]
  split
  next h =>
    have hrange : 65 ≤ c.val.toNat ∧ c.val.toNat ≤ 90 := h
    have hshift : ('a'.val - 'A'.val).toNat = 32 := rfl
    rw [if_pos hrange, UInt32.toNat_add, hshift]
    omega
  next h => exact (if_neg h).symm

theorem toNat_toUpper {d : Char} (hd : d.isLower = true) :
    d.toUpper.val.toNat + 32 = d.val.toNat ∧ 97 ≤ d.val.toNat ∧ d.val.toNat ≤ 122 := by
  have hrange : 97 ≤ d.val.toNat ∧ d.val.toNat ≤ 122 := by
    delta Char.isLower at hd
    simpa [UInt32.le_iff_toNat_le] using hd
  refine ⟨?_, hrange⟩
  delta Char.toUpper
  simp only [UInt32.le_iff_toNat_le]
  have hshift : ('A'.val - 'a'.val).toNat = 4294967264 := rfl
  split
  next =>
    rw [UInt32.toNat_add, hshift]
    omega
  next h => exact absurd hrange h

theorem toLower_eq_iff {c d : Char} (hd : d.isLower = true) : c.toLower = d ↔ c = d ∨ c = d.toUpper := by
  have hupper := toNat_toUpper hd
  simp only [Char.ext_iff, ← UInt32.toNat_inj, toNat_toLower]
  split
  next => omega
  next => omega

theorem ne_name_of_isNumeralChar {c : Char} (name : List Char) (hc : c = 'i' ∨ c = 'n')
    (hchars : ∀ c ∈ x, isNumeralChar c = true) :
    String.ofList ((x.map toAscii).map Char.toLower) ≠ String.ofList (c :: name) := by
  intro he
  rw [String.ofList_inj] at he
  have hletter : isDigit c = false ∧ isDigit c.toUpper = false ∧ c.isLower = true ∧
      isNumeralChar c = false ∧ isNumeralChar c.toUpper = false := by
    rcases hc with rfl | rfl <;> decide
  obtain ⟨hsmall, hcapital, hcase, hplain, hplain'⟩ := hletter
  cases x with
  | nil => cases he
  | cons d x =>
      have hd := hchars d List.mem_cons_self
      rcases (toLower_eq_iff hcase).1 (List.cons.inj he).1 with h | h
      · rw [(toAscii_eq_iff hsmall).1 h, hplain] at hd
        cases hd
      · rw [(toAscii_eq_iff hcapital).1 h, hplain'] at hd
        cases hd

theorem trim_of_form (hm : m ∈ mark) (hne : x ≠ []) (hx : ∀ c ∈ x, isNumeralChar c = true)
    (ht : t ∈ ending) : trim (m ++ x ++ t) = m ++ x := by
  refine trim_append (fun hnil => hne (List.append_eq_nil_iff.1 hnil).2) ?_ (blanks_of_ending ht)
  rw [List.forall_mem_append]
  exact ⟨fun c hc => isBlank_of_isNumeralChar (isNumeralChar_of_mark hm c hc),
    fun c hc => isBlank_of_isNumeralChar (hx c hc)⟩

theorem underscore_not_mem (hm : m ∈ mark) (hx : ∀ c ∈ x, isNumeralChar c = true) :
    '_' ∉ (m ++ x).map toAscii := by
  intro hmem
  obtain ⟨c, hc, he⟩ := List.mem_map.1 hmem
  rw [(toAscii_eq_iff (by decide)).1 he, List.mem_append] at hc
  rcases hc with hc | hc
  · exact absurd (isNumeralChar_of_mark hm _ hc) (by decide)
  · exact absurd (hx _ hc) (by decide)

/-- Every decimal fraction is read, as the number nearest to it. -/
theorem real?_of_mem (h : cs ∈ realForm) : real? cs = some (nearest cs) := by
  obtain ⟨_, hmx, t, ht, rfl⟩ := Language.mem_mul.1 h
  obtain ⟨m, hm, x, hx, rfl⟩ := Language.mem_mul.1 hmx
  obtain ⟨hmark, hne, hchars⟩ := plain_fraction x hx
  have hname : ∀ name ∈ ["inf", "infinity", "nan"],
      String.ofList ((x.map toAscii).map Char.toLower) ≠ name := by
    simp only [List.forall_mem_cons]
    exact ⟨ne_name_of_isNumeralChar ['n', 'f'] (.inl rfl) hchars,
      ne_name_of_isNumeralChar ['n', 'f', 'i', 'n', 'i', 't', 'y'] (.inl rfl) hchars,
      ne_name_of_isNumeralChar ['a', 'n'] (.inr rfl) hchars, List.forall_mem_nil _⟩
  obtain ⟨w, d, p, e, rfl, hw, hd, he, hdigit⟩ := exists_parts hx
  rw [nearest_of_parts hm hw hd he ht, real?, trim_of_form hm hne hchars ht,
    dropUnderscores_of_not_mem (underscore_not_mem hm hchars)]
  simp only [Option.bind_eq_bind, Option.bind_some, sign_map_toAscii, sign_append hm hmark,
    fraction?_of_parts hw hd he hdigit, pure]
  rw [if_neg, if_neg (hname "nan" (by simp))]
  rw [Bool.or_eq_true, decide_eq_true_eq, decide_eq_true_eq, not_or]
  exact ⟨hname "inf" (by simp), hname "infinity" (by simp)⟩

end Provision.Coerce
