import Mathlib.Computability.Language
import Mathlib.Data.Nat.Digits.Defs
import Provision.Proofs.Numeral

namespace Provision.Numeral

open Text Computability

variable {cs ds m run before after : List Char}

def AllDigits (cs : List Char) : Prop := ∀ c ∈ cs, isDigit c = true

def blanks : Language Char := {cs | ∀ c ∈ cs, isBlank c = true}

def mark : Language Char := {[], ['+'], ['-']}

def digits : Language Char := {cs | cs ≠ [] ∧ AllDigits cs}

def groups : Language Char := digits * ({['_']} * digits)∗

/-- The texts that are integers, however many digits they have. -/
def integers : Language Char := blanks * mark * groups * blanks

def digitsOf (cs : List Char) : List Nat := cs.filterMap digit?

/-- The number that the digits and the sign of a text denote. -/
def denoted (cs : List Char) : Int := signed ('-' ∈ cs) (Nat.ofDigits 10 (digitsOf cs).reverse)

/-- An integer that is not too long to be read. -/
def Readable (cs : List Char) : Prop := cs ∈ integers ∧ (digitsOf cs).length ≤ digitLimit

theorem mem_blanks_iff : cs ∈ blanks ↔ ∀ c ∈ cs, isBlank c = true := Iff.rfl

theorem mem_mark_iff : cs ∈ mark ↔ cs = [] ∨ cs = ['+'] ∨ cs = ['-'] := Iff.rfl

theorem mem_digits_iff : cs ∈ digits ↔ cs ≠ [] ∧ AllDigits cs := Iff.rfl

theorem singleton_mul_mem_iff {c d : Char} {l : Language Char} :
    d :: cs ∈ ({[c]} : Language Char) * l ↔ d = c ∧ cs ∈ l := by
  rw [Language.mem_mul]
  constructor
  · rintro ⟨_, rfl, bs, hbs, he⟩
    obtain ⟨rfl, rfl⟩ := List.cons.inj he
    exact ⟨rfl, hbs⟩
  · rintro ⟨rfl, hcs⟩
    exact ⟨[d], rfl, cs, hcs, rfl⟩

theorem ofDigits_eq (base : Nat) (ns : List Nat) : ofDigits base ns = Nat.ofDigits base ns.reverse := by
  rw [ofDigits, Nat.ofDigits_eq_foldr, List.foldr_reverse]
  congr 1
  funext n d
  rw [Nat.mul_comm, Nat.add_comm]
  rfl

theorem digitsOf_append (cs ds : List Char) : digitsOf (cs ++ ds) = digitsOf cs ++ digitsOf ds :=
  List.filterMap_append

theorem digitsOf_eq_nil (h : ∀ c ∈ cs, isDigit c = false) : digitsOf cs = [] := by
  rw [digitsOf, List.filterMap_eq_nil_iff]
  intro c hc
  simpa [isDigit] using h c hc

theorem digitsOf_blanks (h : cs ∈ blanks) : digitsOf cs = [] := by
  apply digitsOf_eq_nil
  intro c hc
  cases hdigit : isDigit c with
  | false => rfl
  | true =>
      have hblank := h c hc
      rw [isBlank_of_isDigit hdigit] at hblank
      cases hblank

theorem digitsOf_mark (hm : m ∈ mark) : digitsOf m = [] := by
  rcases mem_mark_iff.1 hm with rfl | rfl | rfl <;> decide

theorem length_digitsOf (h : AllDigits ds) : (digitsOf ds).length = ds.length := by
  rw [digitsOf, List.length_filterMap_eq_countP, List.countP_eq_length]
  exact fun c hc => h c hc

theorem minus_not_mem (h : AllDigits ds) : '-' ∉ ds :=
  fun hmem => absurd (h _ hmem) (by decide)

def Unmarked (cs : List Char) : Prop := cs.head? ≠ some '+' ∧ cs.head? ≠ some '-'

theorem unmarked_cons {c : Char} (hc : isDigit c = true) (cs : List Char) : Unmarked (c :: cs) := by
  constructor
  · rintro ⟨⟩
    exact absurd hc (by decide)
  · rintro ⟨⟩
    exact absurd hc (by decide)

theorem unmarked_append (h : ds ∈ digits) (rest : List Char) : Unmarked (ds ++ rest) := by
  obtain ⟨hne, hds⟩ := h
  cases ds with
  | nil => exact absurd rfl hne
  | cons d ds => exact unmarked_cons (hds d List.mem_cons_self) _

theorem sign_append (hm : m ∈ mark) (h : Unmarked cs) : sign (m ++ cs) = (decide ('-' ∈ m), cs) := by
  rcases mem_mark_iff.1 hm with rfl | rfl | rfl
  · rw [List.nil_append, sign.eq_def]
    split
    next => exact absurd rfl h.2
    next => exact absurd rfl h.1
    next => rfl
  · rfl
  · rfl

theorem exists_mark (cs : List Char) : ∃ m ∈ mark, cs = m ++ (sign cs).2 := by
  obtain ⟨m, hcs, rfl | rfl | rfl⟩ := sign_spec cs
  · exact ⟨[], .inl rfl, hcs⟩
  · exact ⟨['-'], .inr (.inr rfl), hcs⟩
  · exact ⟨['+'], .inr (.inl rfl), hcs⟩

theorem nil_not_mem_groups : [] ∉ groups := by
  intro h
  obtain ⟨ds, hds, rest, -, he⟩ := Language.mem_mul.1 h
  exact hds.1 (List.append_eq_nil_iff.1 he).1

theorem mem_groups_of_digits (h : ds ∈ digits) : ds ∈ groups := by
  have hgroups := Language.append_mem_mul h (Language.nil_mem_kstar (({['_']} : Language Char) * digits))
  rwa [List.append_nil] at hgroups

theorem cons_mem_groups_iff {c : Char} : c :: cs ∈ groups ↔ isDigit c = true ∧
    (cs = [] ∨ cs ∈ groups ∨ ∃ rest, cs = '_' :: rest ∧ rest ∈ groups) := by
  constructor
  · intro h
    obtain ⟨_ | ⟨d, ds⟩, ⟨hne, hds⟩, rest, hrest, he⟩ := Language.mem_mul.1 h
    · exact absurd rfl hne
    obtain ⟨rfl, rfl⟩ := List.cons.inj he
    obtain ⟨hd, hds⟩ := List.forall_mem_cons.1 hds
    refine ⟨hd, ?_⟩
    by_cases hnil : ds = []
    · subst hnil
      obtain ⟨_ | ⟨g, gs⟩, rfl, hgs⟩ := Language.mem_kstar.1 hrest
      · exact .inl rfl
      · obtain ⟨hg, hothers⟩ := List.forall_mem_cons.1 hgs
        obtain ⟨_, rfl, es, hes, rfl⟩ := Language.mem_mul.1 hg
        exact .inr (.inr ⟨es ++ gs.flatten, rfl,
          Language.append_mem_mul hes (Language.join_mem_kstar hothers)⟩)
    · exact .inr (.inl (Language.append_mem_mul ⟨hnil, hds⟩ hrest))
  · rintro ⟨hc, rfl | h | ⟨rest, rfl, h⟩⟩
    · exact mem_groups_of_digits ⟨by simp, by simpa [AllDigits] using hc⟩
    · obtain ⟨ds, ⟨-, hds⟩, rest, hrest, rfl⟩ := Language.mem_mul.1 h
      have hdigits : c :: ds ∈ digits := ⟨by simp, List.forall_mem_cons.2 ⟨hc, hds⟩⟩
      exact Language.append_mem_mul hdigits hrest
    · obtain ⟨ds, hds, more, hmore, rfl⟩ := Language.mem_mul.1 h
      obtain ⟨gs, rfl, hgs⟩ := Language.mem_kstar.1 hmore
      have hdigits : [c] ∈ digits := ⟨by simp, by simpa [AllDigits] using hc⟩
      have hgroup : '_' :: ds ∈ ({['_']} : Language Char) * digits := singleton_mul_mem_iff.2 ⟨rfl, hds⟩
      have hmore : '_' :: ds ++ gs.flatten ∈ (({['_']} : Language Char) * digits)∗ :=
        Language.join_mem_kstar (L := ('_' :: ds) :: gs) (List.forall_mem_cons.2 ⟨hgroup, hgs⟩)
      exact Language.append_mem_mul hdigits hmore

theorem unmarked_of_groups (h : cs ∈ groups) : Unmarked cs := by
  cases cs with
  | nil => exact absurd h nil_not_mem_groups
  | cons c cs => exact unmarked_cons (cons_mem_groups_iff.1 h).1 cs

theorem of_mem_groups (h : cs ∈ groups) : ∀ c ∈ cs, isDigit c = true ∨ c = '_' := by
  obtain ⟨ds, ⟨-, hds⟩, rest, hrest, rfl⟩ := Language.mem_mul.1 h
  obtain ⟨gs, rfl, hgs⟩ := Language.mem_kstar.1 hrest
  intro c hc
  rcases List.mem_append.1 hc with hc | hc
  · exact .inl (hds c hc)
  · obtain ⟨g, hg, hc⟩ := List.mem_flatten.1 hc
    obtain ⟨_, rfl, es, ⟨-, hes⟩, rfl⟩ := Language.mem_mul.1 (hgs g hg)
    rcases List.mem_cons.1 hc with rfl | hc
    · exact .inr rfl
    · exact .inl (hes c hc)

/-- Exactly the groups of digits are read. -/
theorem digitRun?_eq_some_iff {ns : List Nat} :
    digitRun? digit? cs = some ns ↔ cs ∈ groups ∧ digitsOf cs = ns := by
  -- Along the reader: a digit that ends the text, one before an underscore, one before anything else.
  fun_induction digitRun? digit? cs generalizing ns with
  | case1 => simp [nil_not_mem_groups]
  | case2 c =>
      rw [cons_mem_groups_iff]
      cases hd : digit? c <;> simp [isDigit, digitsOf, hd]
  | case3 c rest ih =>
      have hnot : '_' :: rest ∉ groups := by
        rw [cons_mem_groups_iff]
        exact fun h => absurd h.1 (by decide)
      have hdigits : digitsOf ('_' :: rest) = digitsOf rest := List.filterMap_cons_none (by decide)
      rw [cons_mem_groups_iff]
      cases hd : digit? c with
      | none => simp [isDigit, hd]
      | some d =>
          have hcons : digitsOf (c :: '_' :: rest) = d :: digitsOf rest := by
            rw [digitsOf, List.filterMap_cons_some hd, ← digitsOf, hdigits]
          rw [hcons]
          simp [isDigit, hd, hnot, Option.bind_eq_some_iff, ih]
  | case4 c d rest hne ih =>
      rw [cons_mem_groups_iff]
      cases hd : digit? c with
      | none => simp [isDigit, hd]
      | some e =>
          have hcons : digitsOf (c :: d :: rest) = e :: digitsOf (d :: rest) := by
            rw [digitsOf, List.filterMap_cons_some hd, ← digitsOf]
          rw [hcons]
          simpa [isDigit, hd, Option.bind_eq_some_iff, ih] using fun _ he => absurd he hne

theorem mem_integers_iff : cs ∈ integers ↔ ∃ before m run after,
    cs = before ++ (m ++ run) ++ after ∧ before ∈ blanks ∧ m ∈ mark ∧ run ∈ groups ∧ after ∈ blanks := by
  simp only [integers, Language.mem_mul]
  constructor
  · rintro ⟨_, ⟨_, ⟨before, hbefore, m, hm, rfl⟩, run, hrun, rfl⟩, after, hafter, rfl⟩
    exact ⟨before, m, run, after, by rw [← List.append_assoc], hbefore, hm, hrun, hafter⟩
  · rintro ⟨before, m, run, after, rfl, hbefore, hm, hrun, hafter⟩
    exact ⟨before ++ m ++ run, ⟨before ++ m, ⟨before, hbefore, m, hm, rfl⟩, run, hrun, rfl⟩, after,
      hafter, by rw [← List.append_assoc]⟩

theorem digitsOf_parts (hbefore : before ∈ blanks) (hm : m ∈ mark) (hafter : after ∈ blanks) :
    digitsOf (before ++ (m ++ run) ++ after) = digitsOf run := by
  rw [digitsOf_append, digitsOf_append, digitsOf_append, digitsOf_blanks hbefore, digitsOf_mark hm,
    digitsOf_blanks hafter, List.append_nil, List.nil_append, List.nil_append]

theorem minus_mem_parts (hbefore : before ∈ blanks) (hrun : run ∈ groups) (hafter : after ∈ blanks) :
    '-' ∈ before ++ (m ++ run) ++ after ↔ '-' ∈ m := by
  have hblank {bs : List Char} (h : bs ∈ blanks) : '-' ∉ bs := fun hmem => absurd (h _ hmem) (by decide)
  have hgroup : '-' ∉ run := by
    intro hmem
    rcases of_mem_groups hrun _ hmem with h | h
    · exact absurd h (by decide)
    · exact absurd h (by decide)
  simp [hblank hbefore, hblank hafter, hgroup]

theorem trim_parts (hbefore : before ∈ blanks) (hm : m ∈ mark) (hrun : run ∈ groups)
    (hafter : after ∈ blanks) : trim (before ++ (m ++ run) ++ after) = m ++ run := by
  have hsolid : ∀ c ∈ m ++ run, isBlank c = false := by
    intro c hc
    rcases List.mem_append.1 hc with hc | hc
    · rcases mem_mark_iff.1 hm with rfl | rfl | rfl
      · cases hc
      · rw [List.mem_singleton.1 hc]
        decide
      · rw [List.mem_singleton.1 hc]
        decide
    · rcases of_mem_groups hrun c hc with hc | rfl
      · exact isBlank_of_isDigit hc
      · decide
  have hne : m ++ run ≠ [] := by
    intro hnil
    rw [(List.append_eq_nil_iff.1 hnil).2] at hrun
    exact nil_not_mem_groups hrun
  rw [List.append_assoc, trim_blank_append hbefore, trim_append hne hsolid hafter]

theorem integer?_of_mem (h : cs ∈ integers) : integer? cs =
    if digitLimit < (digitsOf cs).length then .error (.tooLong (digitsOf cs).length)
    else .ok (denoted cs) := by
  obtain ⟨before, m, run, after, rfl, hbefore, hm, hrun, hafter⟩ := mem_integers_iff.1 h
  have hread : digitRun? digit? run = some (digitsOf run) := digitRun?_eq_some_iff.2 ⟨hrun, rfl⟩
  rw [integer?, trim_parts hbefore hm hrun hafter, sign_append hm (unmarked_of_groups hrun)]
  simp only [hread, denoted, digitsOf_parts hbefore hm hafter, minus_mem_parts hbefore hrun hafter,
    ofDigits_eq]

theorem integer?_of_not_mem (h : cs ∉ integers) : integer? cs = .error .malformed := by
  obtain ⟨before, after, hcs, hbefore, hafter⟩ := exists_blank_append cs
  obtain ⟨m, hm, htrim⟩ := exists_mark (trim cs)
  have hread : digitRun? digit? (sign (trim cs)).2 = none := by
    rw [Option.eq_none_iff_forall_ne_some]
    intro ns hns
    refine h (mem_integers_iff.2 ⟨before, m, (sign (trim cs)).2, after, ?_, hbefore, hm, ?_, hafter⟩)
    · rw [← htrim, ← hcs]
    · exact (digitRun?_eq_some_iff.1 hns).1
  rw [integer?]
  simp only [hread]

theorem integer?_eq_ok_iff {n : Int} : integer? cs = .ok n ↔ Readable cs ∧ denoted cs = n := by
  by_cases h : cs ∈ integers
  · rw [integer?_of_mem h, Readable, and_iff_right h]
    by_cases hlong : digitLimit < (digitsOf cs).length
    · simp [hlong]
    · simp [hlong, Nat.not_lt.1 hlong]
  · simp [integer?_of_not_mem h, Readable, h]

theorem digits_toDigits (n : Nat) : Nat.toDigits 10 n ∈ digits ∧
    Nat.ofDigits 10 (digitsOf (Nat.toDigits 10 n)).reverse = n := by
  have table : ∀ d < 10, digit? (Nat.digitChar d) = some d := by decide
  induction n using Nat.strongRecOn with
  | ind n ih =>
      rw [Nat.toDigits_eq_if (by decide)]
      split
      next hlt =>
        have hdigit := table n hlt
        constructor
        · refine ⟨by simp, ?_⟩
          simp [AllDigits, isDigit, hdigit]
        · simp [digitsOf, hdigit]
      next hge =>
        obtain ⟨⟨-, hds⟩, hvalue⟩ := ih (n / 10) (by omega)
        have hdigit := table (n % 10) (by omega)
        have hlast : digitsOf [Nat.digitChar (n % 10)] = [n % 10] := by simp [digitsOf, hdigit]
        constructor
        · refine ⟨by simp, ?_⟩
          rw [AllDigits, List.forall_mem_append, List.forall_mem_singleton]
          exact ⟨hds, by simp [isDigit, hdigit]⟩
        · rw [digitsOf_append, hlast, List.reverse_append, List.reverse_singleton, List.singleton_append,
            Nat.ofDigits_cons, hvalue]
          omega

theorem toList_toString (n : Int) : ∃ m ∈ mark, (toString n).toList = m ++ Nat.toDigits 10 n.natAbs ∧
    ('-' ∈ m ↔ n < 0) := by
  cases n with
  | ofNat k => exact ⟨[], .inl rfl, by simp [Int.repr], by simp⟩
  | negSucc k => exact ⟨['-'], .inr (.inr rfl), by simp [Int.repr], by simp⟩

theorem digitsOf_toString (n : Int) : digitsOf (toString n).toList = digitsOf (Nat.toDigits 10 n.natAbs) := by
  obtain ⟨m, hm, htext, -⟩ := toList_toString n
  rw [htext, digitsOf_append, digitsOf_mark hm, List.nil_append]

theorem denoted_toString (n : Int) : denoted (toString n).toList = n := by
  obtain ⟨hdigits, hvalue⟩ := digits_toDigits n.natAbs
  obtain ⟨m, hm, htext, hminus⟩ := toList_toString n
  have hnegative : '-' ∈ (toString n).toList ↔ n < 0 := by
    rw [htext, List.mem_append, hminus, or_iff_left (minus_not_mem hdigits.2)]
  simp only [denoted, digitsOf_toString, hvalue, hnegative, signed, decide_eq_true_eq]
  split
  next => omega
  next => omega

end Provision.Numeral
