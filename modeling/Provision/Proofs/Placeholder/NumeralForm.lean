import Provision.Placeholder.Coerce
import Provision.Proofs.Numeral.Integer

namespace Provision.Coerce

open Text Numeral

variable {cs x w d p e t m : List Char}

def ending : Language Char := {[], ['\n']}

def integerForm : Language Char := mark * digits * ending

def exponent : Language Char := {['e'], ['E']} * mark * digits

def fraction : Language Char :=
  digits * {['.']} * (1 + digits) + {['.']} * digits + digits * (1 + {['.']} * (1 + digits)) * exponent

def realForm : Language Char := mark * fraction * ending

theorem mem_ending_iff : cs ∈ ending ↔ cs = [] ∨ cs = ['\n'] := Iff.rfl

theorem mem_exponent_iff : e ∈ exponent ↔
    ∃ c m ds, e = c :: (m ++ ds) ∧ (c = 'e' ∨ c = 'E') ∧ m ∈ mark ∧ ds ∈ digits := by
  simp only [exponent, Language.mem_mul]
  constructor
  · rintro ⟨_, ⟨_, rfl | rfl, m, hm, rfl⟩, ds, hds, rfl⟩
    · exact ⟨'e', m, ds, rfl, .inl rfl, hm, hds⟩
    · exact ⟨'E', m, ds, rfl, .inr rfl, hm, hds⟩
  · rintro ⟨c, m, ds, rfl, hc, hm, hds⟩
    refine ⟨c :: m, ⟨[c], ?_, m, hm, rfl⟩, ds, hds, rfl⟩
    rcases hc with rfl | rfl
    · exact .inl rfl
    · exact .inr rfl

theorem mem_one_add_digits_iff : cs ∈ 1 + digits ↔ AllDigits cs := by
  rw [Language.mem_add, Language.mem_one]
  constructor
  · rintro (rfl | h)
    · exact List.forall_mem_nil _
    · exact h.2
  · intro h
    by_cases hnil : cs = []
    · exact .inl hnil
    · exact .inr ⟨hnil, h⟩

inductive Pointed : List Char → List Char → Prop
  | without : Pointed [] []
  | point {p : List Char} (hp : AllDigits p) : Pointed ('.' :: p) p

theorem mem_pointed_iff : d ∈ 1 + {['.']} * (1 + digits) ↔ ∃ p, Pointed d p := by
  rw [Language.mem_add, Language.mem_one]
  constructor
  · rintro (rfl | h)
    · exact ⟨[], .without⟩
    · obtain ⟨_, rfl, p, hp, rfl⟩ := Language.mem_mul.1 h
      exact ⟨p, .point (mem_one_add_digits_iff.1 hp)⟩
  · rintro ⟨_, _ | hp⟩
    · exact .inl rfl
    · exact .inr (singleton_mul_mem_iff.2 ⟨rfl, mem_one_add_digits_iff.2 hp⟩)

theorem mem_fraction_iff : x ∈ fraction ↔
    (∃ w p, x = w ++ '.' :: p ∧ AllDigits w ∧ AllDigits p ∧ (w ≠ [] ∨ p ≠ [])) ∨
      ∃ w d p e, x = w ++ (d ++ e) ∧ w ∈ digits ∧ Pointed d p ∧ e ∈ exponent := by
  rw [fraction, Language.mem_add, Language.mem_add]
  constructor
  · rintro ((h | h) | h)
    · obtain ⟨_, ⟨w, hw, _, rfl, rfl⟩, p, hp, rfl⟩ := h
      exact .inl ⟨w, p, by simp, hw.2, mem_one_add_digits_iff.1 hp, .inl hw.1⟩
    · obtain ⟨_, rfl, p, hp, rfl⟩ := h
      exact .inl ⟨[], p, rfl, List.forall_mem_nil _, hp.2, .inr hp.1⟩
    · obtain ⟨_, ⟨w, hw, d, hd, rfl⟩, e, he, rfl⟩ := h
      obtain ⟨p, hd⟩ := mem_pointed_iff.1 hd
      exact .inr ⟨w, d, p, e, by simp, hw, hd, he⟩
  · rintro (⟨w, p, rfl, hw, hp, hne⟩ | ⟨w, d, p, e, rfl, hw, hd, he⟩)
    · by_cases hnil : w = []
      · subst hnil
        have hdigits : p ∈ digits := ⟨by simpa using hne, hp⟩
        exact .inl (.inr (singleton_mul_mem_iff.2 ⟨rfl, hdigits⟩))
      · have hwhole : w ++ ['.'] ∈ digits * {['.']} := Language.append_mem_mul ⟨hnil, hw⟩ rfl
        refine .inl (.inl ?_)
        rw [List.append_cons]
        exact Language.append_mem_mul hwhole (mem_one_add_digits_iff.2 hp)
    · rw [← List.append_assoc]
      exact .inr (Language.append_mem_mul (Language.append_mem_mul hw (mem_pointed_iff.2 ⟨p, hd⟩)) he)

theorem exists_parts (h : x ∈ fraction) : ∃ w d p e, x = w ++ (d ++ e) ∧ AllDigits w ∧ Pointed d p ∧
    (e = [] ∨ e ∈ exponent) ∧ (w ≠ [] ∨ p ≠ []) := by
  rcases mem_fraction_iff.1 h with ⟨w, p, rfl, hw, hp, hne⟩ | ⟨w, d, p, e, rfl, hw, hd, he⟩
  · exact ⟨w, '.' :: p, p, [], by simp, hw, .point hp, .inl rfl, hne⟩
  · exact ⟨w, d, p, e, rfl, hw.2, hd, .inr he, .inl hw.1⟩

def isNumeralChar (c : Char) : Bool := isDigit c || ['+', '-', '.', 'e', 'E'].contains c

theorem isNumeralChar_of_digits (h : AllDigits cs) : ∀ c ∈ cs, isNumeralChar c = true := by
  intro c hc
  rw [isNumeralChar, h c hc, Bool.true_or]

theorem isNumeralChar_of_mark (hm : m ∈ mark) : ∀ c ∈ m, isNumeralChar c = true := by
  rcases mem_mark_iff.1 hm with rfl | rfl | rfl
  · exact List.forall_mem_nil _
  · exact List.forall_mem_singleton.2 (by decide)
  · exact List.forall_mem_singleton.2 (by decide)

theorem isNumeralChar_of_exponent (he : e ∈ exponent) : ∀ c ∈ e, isNumeralChar c = true := by
  obtain ⟨c, m, ds, rfl, hc, hm, hds⟩ := mem_exponent_iff.1 he
  simp only [List.forall_mem_cons, List.forall_mem_append]
  refine ⟨?_, isNumeralChar_of_mark hm, isNumeralChar_of_digits hds.2⟩
  rcases hc with rfl | rfl <;> decide

theorem isNumeralChar_of_fraction (hx : x ∈ fraction) : ∀ c ∈ x, isNumeralChar c = true := by
  obtain ⟨w, d, p, e, rfl, hw, hd, he, -⟩ := exists_parts hx
  simp only [List.forall_mem_append]
  refine ⟨isNumeralChar_of_digits hw, ?_, ?_⟩
  · cases hd with
    | without => exact List.forall_mem_nil _
    | point hp => exact List.forall_mem_cons.2 ⟨by decide, isNumeralChar_of_digits hp⟩
  · rcases he with rfl | he
    · exact List.forall_mem_nil _
    · exact isNumeralChar_of_exponent he

theorem isBlank_of_isNumeralChar {c : Char} (h : isNumeralChar c = true) : isBlank c = false := by
  simp only [isNumeralChar, Bool.or_eq_true, List.contains_eq_mem, decide_eq_true_eq] at h
  rcases h with h | h
  · exact isBlank_of_isDigit h
  · have table : ∀ d ∈ ['+', '-', '.', 'e', 'E'], isBlank d = false := by
      simp [isBlank, isAsciiBlank]
    exact table c h

def unsigned (cs : List Char) : List Char := (sign (body cs)).2

theorem exists_ending (cs : List Char) : ∃ t ∈ ending, cs = body cs ++ t := by
  rw [body]
  split
  next h =>
    have hne : cs ≠ [] := by
      rintro rfl
      cases h
    refine ⟨['\n'], .inr rfl, ?_⟩
    rw [List.getLast?_eq_some_getLast hne, Option.some.injEq] at h
    rw [← h, List.dropLast_concat_getLast]
  next => exact ⟨[], .inl rfl, by simp⟩

theorem body_append (ht : t ∈ ending) (hne : x ≠ []) (hx : ∀ c ∈ x, isNumeralChar c = true) :
    body (m ++ x ++ t) = m ++ x := by
  rw [body]
  rcases mem_ending_iff.1 ht with rfl | rfl
  · rw [List.append_nil, if_neg]
    intro hlast
    rw [List.getLast?_append_of_ne_nil _ hne] at hlast
    exact absurd (hx _ (List.mem_of_getLast? hlast)) (by decide)
  · rw [if_pos (by simp), List.dropLast_concat]

/-- A language of unsigned numerals: a form is a sign, such a numeral and an ending. -/
def Plain (l : Language Char) : Prop :=
  ∀ x ∈ l, Unmarked x ∧ x ≠ [] ∧ ∀ c ∈ x, isNumeralChar c = true

theorem mem_form_iff {l : Language Char} (hl : Plain l) : cs ∈ mark * l * ending ↔ unsigned cs ∈ l := by
  constructor
  · intro h
    obtain ⟨_, hmx, t, ht, rfl⟩ := Language.mem_mul.1 h
    obtain ⟨m, hm, x, hx, rfl⟩ := Language.mem_mul.1 hmx
    obtain ⟨hmark, hne, hchars⟩ := hl x hx
    rw [unsigned, body_append ht hne hchars, sign_append hm hmark]
    exact hx
  · intro h
    obtain ⟨t, ht, hcs⟩ := exists_ending cs
    obtain ⟨m, hm, hbody⟩ := exists_mark (body cs)
    rw [hcs, hbody]
    exact Language.append_mem_mul (Language.append_mem_mul hm h) ht

theorem plain_digits : Plain digits := by
  intro x h
  have hmark := unmarked_append h []
  rw [List.append_nil] at hmark
  exact ⟨hmark, h.1, isNumeralChar_of_digits h.2⟩

theorem plain_fraction : Plain fraction := by
  intro x h
  refine ⟨?_, ?_, isNumeralChar_of_fraction h⟩
  · rcases mem_fraction_iff.1 h with ⟨w, p, rfl, hw, -, -⟩ | ⟨w, d, p, e, rfl, hw, -, -⟩
    · by_cases hnil : w = []
      · subst hnil
        exact ⟨by simp, by simp⟩
      · exact unmarked_append ⟨hnil, hw⟩ _
    · exact unmarked_append hw _
  · rintro rfl
    obtain ⟨w, d, p, e, he, -, hd, -, hne⟩ := exists_parts h
    obtain ⟨rfl, hde⟩ := List.append_eq_nil_iff.1 he.symm
    obtain ⟨rfl, -⟩ := List.append_eq_nil_iff.1 hde
    cases hd
    simp at hne

theorem isInteger_iff_mem : isInteger cs = true ↔ cs ∈ integerForm := by
  rw [integerForm, mem_form_iff plain_digits, mem_digits_iff]
  simp [isInteger, unsigned, AllDigits]

theorem isExponent_iff_mem : isExponent e = true ↔ e ∈ exponent := by
  rw [mem_exponent_iff]
  constructor
  · intro h
    cases e with
    | nil => cases h
    | cons c cs =>
        simp only [isExponent, Bool.and_eq_true, Bool.or_eq_true, beq_iff_eq, Bool.not_eq_true',
          List.isEmpty_eq_false_iff, List.all_eq_true] at h
        obtain ⟨hc, hne, hds⟩ := h
        obtain ⟨m, hm, hcs⟩ := exists_mark cs
        exact ⟨c, m, (sign cs).2, by rw [← hcs], hc, hm, hne, hds⟩
  · rintro ⟨c, m, ds, rfl, hc, hm, hds⟩
    have hsign := sign_append hm (unmarked_append hds [])
    rw [List.append_nil] at hsign
    have hall : ds.all isDigit = true := List.all_eq_true.2 hds.2
    rcases hc with rfl | rfl <;> simp [isExponent, hsign, hds.1, hall]

theorem span_digits (hw : AllDigits w) (ht : ∀ c ∈ t.head?, isDigit c = false) :
    (w ++ t).takeWhile isDigit = w ∧ (w ++ t).dropWhile isDigit = t := by
  rw [List.takeWhile_append_of_pos hw, List.dropWhile_append_of_pos hw]
  cases t with
  | nil => simp
  | cons c t =>
      have hc := ht c rfl
      simp [hc]

theorem head_point : ∀ c ∈ ('.' :: t).head?, isDigit c = false := by
  rintro _ ⟨⟩
  decide

theorem head_exponent (he : e = [] ∨ e ∈ exponent) : ∀ c ∈ e.head?, isDigit c = false := by
  rcases he with rfl | he
  · simp
  · obtain ⟨c, m, ds, rfl, hc, -⟩ := mem_exponent_iff.1 he
    rintro _ ⟨⟩
    rcases hc with rfl | rfl <;> decide

theorem isReal_eq (hx : unsigned cs = x) : isReal cs =
    match x.dropWhile isDigit with
    | '.' :: rest =>
      match rest.dropWhile isDigit with
      | [] => !(x.takeWhile isDigit).isEmpty || !(rest.takeWhile isDigit).isEmpty
      | e => !(x.takeWhile isDigit).isEmpty && isExponent e
    | e => !(x.takeWhile isDigit).isEmpty && isExponent e := by
  subst hx
  rfl

theorem allDigits_takeWhile (cs : List Char) : AllDigits (cs.takeWhile isDigit) :=
  fun _ hc => List.mem_takeWhile_imp hc

theorem mem_fraction_of_isReal (h : isReal cs = true) : unsigned cs ∈ fraction := by
  generalize hx : unsigned cs = x
  rw [isReal_eq hx] at h
  rw [mem_fraction_iff]
  -- The test cuts twice, where the first digits end and where those after a point end: the pieces are the parts.
  have hsplit := List.takeWhile_append_dropWhile (p := isDigit) (l := x)
  have hwhole := allDigits_takeWhile x
  generalize x.takeWhile isDigit = w at *
  generalize x.dropWhile isDigit = rest at *
  rw [← hsplit]
  split at h
  next r =>
    have hrest := List.takeWhile_append_dropWhile (p := isDigit) (l := r)
    have hpart := allDigits_takeWhile r
    generalize r.takeWhile isDigit = p at *
    generalize r.dropWhile isDigit = e at *
    rw [← hrest]
    split at h
    next =>
      rw [List.append_nil]
      refine .inl ⟨w, p, rfl, hwhole, hpart, ?_⟩
      simpa using h
    next =>
      simp only [Bool.and_eq_true, Bool.not_eq_true', List.isEmpty_eq_false_iff] at h
      exact .inr ⟨w, '.' :: p, p, e, rfl, ⟨h.1, hwhole⟩, .point hpart, isExponent_iff_mem.1 h.2⟩
  next =>
    simp only [Bool.and_eq_true, Bool.not_eq_true', List.isEmpty_eq_false_iff] at h
    exact .inr ⟨w, [], [], rest, rfl, ⟨h.1, hwhole⟩, .without, isExponent_iff_mem.1 h.2⟩

theorem isReal_of_mem_fraction (h : unsigned cs ∈ fraction) : isReal cs = true := by
  rcases mem_fraction_iff.1 h with ⟨w, p, hx, hw, hp, hne⟩ | ⟨w, d, p, e, hx, hw, hd, he⟩
  · obtain ⟨htake, hdrop⟩ := span_digits (t := '.' :: p) hw head_point
    obtain ⟨htake', hdrop'⟩ := span_digits (t := []) hp (by simp)
    rw [List.append_nil] at htake' hdrop'
    rw [isReal_eq hx, htake, hdrop]
    simp only [htake', hdrop']
    simpa using hne
  · have hread : (!w.isEmpty && isExponent e) = true := by
      rw [Bool.and_eq_true, Bool.not_eq_true', List.isEmpty_eq_false_iff]
      exact ⟨hw.1, isExponent_iff_mem.2 he⟩
    have hhead := head_exponent (.inr he)
    obtain ⟨c, m, ds, rfl, hc, -⟩ := mem_exponent_iff.1 he
    rw [isReal_eq hx]
    cases hd with
    | without =>
        obtain ⟨htake, hdrop⟩ := span_digits hw.2 hhead
        rw [List.nil_append, htake, hdrop]
        rcases hc with rfl | rfl
        · exact hread
        · exact hread
    | point hp =>
        obtain ⟨htake, hdrop⟩ := span_digits (t := '.' :: (p ++ c :: (m ++ ds))) hw.2 head_point
        obtain ⟨-, hdrop'⟩ := span_digits hp hhead
        rw [List.cons_append, htake, hdrop]
        simp only [hdrop']
        exact hread

theorem isReal_iff_mem : isReal cs = true ↔ cs ∈ realForm := by
  rw [realForm, mem_form_iff plain_fraction]
  exact ⟨mem_fraction_of_isReal, isReal_of_mem_fraction⟩

theorem not_isReal_of_isInteger (h : isInteger cs = true) : isReal cs = false := by
  have hds := (mem_form_iff plain_digits).1 (isInteger_iff_mem.1 h)
  rw [isReal_eq rfl, List.dropWhile_eq_nil_iff.2 hds.2]
  simp [isExponent]

theorem digitsOf_ending (ht : t ∈ ending) : digitsOf t = [] ∧ '-' ∉ t := by
  rcases mem_ending_iff.1 ht with rfl | rfl <;> decide

theorem blanks_of_ending (ht : t ∈ ending) : t ∈ blanks := by
  rcases mem_ending_iff.1 ht with rfl | rfl
  · exact List.forall_mem_nil _
  · simp [mem_blanks_iff, isBlank, isAsciiBlank]

theorem mem_integers_of_form (h : cs ∈ integerForm) : cs ∈ integers := by
  obtain ⟨_, hmx, t, ht, rfl⟩ := Language.mem_mul.1 h
  obtain ⟨m, hm, ds, hds, rfl⟩ := Language.mem_mul.1 hmx
  exact mem_integers_iff.2
    ⟨[], m, ds, t, rfl, List.forall_mem_nil _, hm, mem_groups_of_digits hds, blanks_of_ending ht⟩

end Provision.Coerce
