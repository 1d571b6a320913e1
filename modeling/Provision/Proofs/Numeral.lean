import Mathlib.Data.List.TakeWhile
import Provision.Numeral

namespace Provision.Text

theorem isBlank_of_isDigit {c : Char} (h : isDigit c) : isBlank c = false := by
  have table : ∀ z ∈ zeros, ∀ d < 10, isBlank (Char.ofNat (z + d)) = false := by decide +kernel
  obtain ⟨d, hd⟩ := Option.isSome_iff_exists.1 h
  obtain ⟨z, hz, rfl⟩ := Option.map_eq_some_iff.1 hd
  have hmem := List.mem_of_find?_eq_some hz
  have hrun := List.find?_some hz
  simp only [Bool.and_eq_true, decide_eq_true_eq] at hrun
  have hc := table z hmem (c.toNat - z) (by omega)
  rwa [Nat.add_sub_cancel' hrun.1, Char.ofNat_toNat] at hc

theorem isDigit_of_isAsciiDigit {c : Char} (h : isAsciiDigit c) : isDigit c := by
  simp only [isAsciiDigit, Bool.and_eq_true, decide_eq_true_eq, Char.le_def,
    UInt32.le_iff_toNat_le] at h
  have hz : zeros.find? (fun z => z ≤ c.toNat && c.toNat < z + 10) = some 0x30 := by
    have hlow : 48 ≤ c.toNat := h.1
    have hhigh : c.toNat ≤ 57 := h.2
    rw [zeros, List.find?_cons_of_pos]
    simp
    omega
  simp [isDigit, digit?, hz]

theorem trim_append {cs bs : List Char} (hne : cs ≠ []) (hcs : ∀ c ∈ cs, isBlank c = false)
    (hbs : ∀ b ∈ bs, isBlank b = true) : trim (cs ++ bs) = cs := by
  have front : (cs ++ bs).dropWhile isBlank = cs ++ bs := by
    cases cs with
    | nil => exact absurd rfl hne
    | cons c cs => simp [hcs c (by simp)]
  have back : (cs ++ bs).reverse.dropWhile isBlank = cs.reverse := by
    rw [List.reverse_append, List.dropWhile_append_of_pos (by simpa using hbs)]
    cases hr : cs.reverse with
    | nil => rfl
    | cons c rest =>
        have hc : c ∈ cs := by
          rw [← List.mem_reverse, hr]
          exact List.mem_cons_self
        simp [hcs c hc]
  rw [trim, front, back, List.reverse_reverse]

theorem trim_blank_append {before cs : List Char} (h : ∀ c ∈ before, isBlank c = true) :
    trim (before ++ cs) = trim cs := by
  rw [trim, trim, List.dropWhile_append_of_pos h]

theorem exists_blank_append (cs : List Char) : ∃ before after, cs = before ++ trim cs ++ after ∧
    (∀ c ∈ before, isBlank c = true) ∧ ∀ c ∈ after, isBlank c = true := by
  refine ⟨cs.takeWhile isBlank, ((cs.dropWhile isBlank).reverse.takeWhile isBlank).reverse, ?_, ?_, ?_⟩
  · rw [trim, List.append_assoc, ← List.reverse_append, List.takeWhile_append_dropWhile,
      List.reverse_reverse, List.takeWhile_append_dropWhile]
  · exact fun c hc => List.mem_takeWhile_imp hc
  · exact fun c hc => List.mem_takeWhile_imp (List.mem_reverse.1 hc)

end Provision.Text

namespace Provision.Numeral

open Text

theorem dropUnderscores_of_not_mem {cs : List Char} (h : '_' ∉ cs) :
    dropUnderscores cs = some cs := by
  fun_induction dropUnderscores cs <;> simp_all

theorem isAsciiDigit_toAscii (c : Char) : isAsciiDigit (toAscii c) = isDigit c := by
  have table : ∀ d < 10, isAsciiDigit (Char.ofNat ('0'.toNat + d)) = true := by decide
  rw [toAscii, isDigit]
  cases hd : digit? c with
  | some d => simpa using table d (digit?_lt hd)
  | none =>
      cases ha : isAsciiDigit c with
      | false => simp
      | true => simpa [isDigit, hd] using isDigit_of_isAsciiDigit ha

theorem digit?_toAscii (c : Char) : digit? (toAscii c) = digit? c := by
  have table : ∀ d < 10, digit? (Char.ofNat ('0'.toNat + d)) = some d := by decide +kernel
  rw [toAscii]
  cases hd : digit? c with
  | none => exact hd
  | some d => exact table d (digit?_lt hd)

theorem toAscii_of_not_isDigit {c : Char} (h : isDigit c = false) : toAscii c = c := by
  rw [isDigit, Option.isSome_eq_false_iff, Option.isNone_iff_eq_none] at h
  simp [toAscii, h]

/-- Digits become digits, so that no other character of a numeral comes from one. -/
theorem toAscii_eq_iff {c d : Char} (hd : isDigit d = false) : toAscii c = d ↔ c = d := by
  constructor
  · intro h
    cases hc : isDigit c with
    | false => rwa [toAscii_of_not_isDigit hc] at h
    | true =>
        have ha : isAsciiDigit d = true := by rw [← h, isAsciiDigit_toAscii, hc]
        rw [isDigit_of_isAsciiDigit ha] at hd
        exact absurd hd (by simp)
  · rintro rfl
    exact toAscii_of_not_isDigit hd

theorem sign_map_toAscii (cs : List Char) :
    sign (cs.map toAscii) = ((sign cs).1, (sign cs).2.map toAscii) := by
  cases cs with
  | nil => rfl
  | cons c cs =>
      by_cases hm : c = '-'
      · subst hm
        rfl
      · by_cases hp : c = '+'
        · subst hp
          rfl
        · have hm' : toAscii c ≠ '-' := fun h => hm ((toAscii_eq_iff (by decide)).1 h)
          have hp' : toAscii c ≠ '+' := fun h => hp ((toAscii_eq_iff (by decide)).1 h)
          simp [sign, hm, hp, hm', hp']

theorem sign_spec (cs : List Char) :
    ∃ mark, cs = mark ++ (sign cs).2 ∧ (mark = [] ∨ mark = ['-'] ∨ mark = ['+']) := by
  rw [sign.eq_def]
  split
  · exact ⟨['-'], rfl, by simp⟩
  · exact ⟨['+'], rfl, by simp⟩
  · exact ⟨[], rfl, by simp⟩

end Provision.Numeral
