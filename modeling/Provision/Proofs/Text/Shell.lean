import Provision.Text.Shell

namespace Provision.Text.Shell

def isGap (c : Char) : Bool := c = ' ' || c = '\t' || c = '\r' || c = '\n'

def isBare (c : Char) : Bool := !(isGap c || c = '\'' || c = '"' || c = '\\')

/-- Where a reader of a line is, with what it has of the word that it is in. -/
inductive Place where
  | between
  | bare (word : List Char)
  | single (word : List Char)
  | double (word : List Char)
  | escaped (word : List Char)
  | escapedQuoted (word : List Char)

def Place.after (word : List Char) (c : Char) : Place :=
  if c = '\'' then single word
  else if c = '"' then double word
  else if c = '\\' then escaped word
  else bare (word ++ [c])

/-- The words that are read from a place on; none if the line ends in quotes or after a backslash. -/
def wordsFrom : Place → List Char → Option (List String)
  | .between, [] => some []
  | .between, c :: cs => if isGap c then wordsFrom .between cs else wordsFrom (.after [] c) cs
  | .bare word, [] => some [String.ofList word]
  | .bare word, c :: cs =>
    if isGap c then (wordsFrom .between cs).map (String.ofList word :: ·)
    else wordsFrom (.after word c) cs
  | .single word, c :: cs => wordsFrom (if c = '\'' then .bare word else .single (word ++ [c])) cs
  | .double word, c :: cs =>
    wordsFrom (if c = '"' then .bare word else if c = '\\' then .escapedQuoted word
      else .double (word ++ [c])) cs
  | .escaped word, c :: cs => wordsFrom (.bare (word ++ [c])) cs
  | .escapedQuoted word, c :: cs =>
    wordsFrom (.double (if c = '"' || c = '\\' then word ++ [c] else word ++ ['\\', c])) cs
  | .single _, [] | .double _, [] | .escaped _, [] | .escapedQuoted _, [] => none

def words (line : String) : Option (List String) := wordsFrom .between line.toList

variable {c : Char} {cs : List Char} {word : List Char}

theorem isGap_of_isBare (h : isBare c = true) : isGap c = false := by
  simp only [isBare, Bool.not_eq_true', Bool.or_eq_false_iff] at h
  exact h.1.1.1

theorem after_of_isBare (h : isBare c = true) : Place.after word c = .bare (word ++ [c]) := by
  simp only [isBare, Bool.not_eq_true', Bool.or_eq_false_iff, decide_eq_false_iff_not] at h
  rw [Place.after, if_neg h.1.1.2, if_neg h.1.2, if_neg h.2]

theorem isBare_of_isSafe (h : isSafe c = true) : isBare c = true := by
  rw [isBare, Bool.not_eq_true', Bool.eq_false_iff]
  intro hmark
  simp only [isGap, Bool.or_eq_true, decide_eq_true_eq] at hmark
  rcases hmark with (((((rfl | rfl) | rfl) | rfl) | rfl) | rfl) | rfl <;> exact absurd h (by decide)

theorem wordsFrom_between_cons (h : isGap c = false) :
    wordsFrom .between (c :: cs) = wordsFrom (.bare []) (c :: cs) := by
  simp [wordsFrom, h]

theorem wordsFrom_gap (h : isGap c = true) :
    wordsFrom (.bare word) (c :: cs) = (wordsFrom .between cs).map (String.ofList word :: ·) := by
  rw [wordsFrom, if_pos h]

theorem wordsFrom_bare (h : ∀ c ∈ cs, isBare c = true) (word rest : List Char) :
    wordsFrom (.bare word) (cs ++ rest) = wordsFrom (.bare (word ++ cs)) rest := by
  induction cs generalizing word with
  | nil => simp
  | cons c cs ih =>
      obtain ⟨hc, hcs⟩ := List.forall_mem_cons.1 h
      rw [List.cons_append, wordsFrom, if_neg (by simp [isGap_of_isBare hc]), after_of_isBare hc, ih hcs]
      simp

theorem wordsFrom_between_bare (hne : cs ≠ []) (h : ∀ c ∈ cs, isBare c = true) (rest : List Char) :
    wordsFrom .between (cs ++ rest) = wordsFrom (.bare cs) rest := by
  obtain ⟨c, cs, rfl⟩ := List.exists_cons_of_ne_nil hne
  have hbare := wordsFrom_bare h [] rest
  rw [List.cons_append] at hbare ⊢
  rw [wordsFrom_between_cons (isGap_of_isBare (h c List.mem_cons_self)), hbare, List.nil_append]

/-- A quote between single quotes is led out of them, put in double ones, and led in again. -/
theorem wordsFrom_escapeQuote (word : List Char) (c : Char) (rest : List Char) :
    wordsFrom (.single word) (escapeQuote c ++ rest) = wordsFrom (.single (word ++ [c])) rest := by
  rw [escapeQuote]
  split
  next hquote =>
    subst hquote
    rfl
  next hne => rw [List.cons_append, List.nil_append, wordsFrom, if_neg hne]

theorem wordsFrom_single (cs word rest : List Char) :
    wordsFrom (.single word) (cs.flatMap escapeQuote ++ '\'' :: rest) =
      wordsFrom (.bare (word ++ cs)) rest := by
  induction cs generalizing word with
  | nil => simp [wordsFrom]
  | cons c cs ih =>
      rw [List.flatMap_cons, List.append_assoc, wordsFrom_escapeQuote, ih, List.append_assoc]
      rfl

/-- A quoted text goes on a word by that text. -/
theorem wordsFrom_quote (word : List Char) (s : String) (rest : List Char) :
    wordsFrom (.bare word) ((quote s).toList ++ rest) = wordsFrom (.bare (word ++ s.toList)) rest := by
  rw [quote]
  split
  next hempty =>
    have hnil : s.toList = [] := by simpa using hempty
    rw [hnil, List.append_nil]
    rfl
  next =>
    split
    next hsafe =>
      exact wordsFrom_bare (fun c hc => isBare_of_isSafe (List.all_eq_true.1 hsafe c hc)) word rest
    next =>
      rw [String.toList_ofList, List.cons_append, List.cons_append, List.append_assoc]
      exact wordsFrom_single s.toList word rest

theorem exists_toList_quote (s : String) : ∃ c cs, (quote s).toList = c :: cs ∧ isGap c = false := by
  rw [quote]
  split
  next => exact ⟨'\'', ['\''], rfl, by decide⟩
  next hempty =>
    split
    next hsafe =>
      obtain ⟨c, cs, hs⟩ := List.exists_cons_of_ne_nil (l := s.toList) (by simpa using hempty)
      rw [hs, List.all_cons, Bool.and_eq_true] at hsafe
      exact ⟨c, cs, hs, isGap_of_isBare (isBare_of_isSafe hsafe.1)⟩
    next => exact ⟨'\'', _, String.toList_ofList, by decide⟩

theorem wordsFrom_between_quote (s : String) (rest : List Char) :
    wordsFrom .between ((quote s).toList ++ rest) = wordsFrom (.bare s.toList) rest := by
  obtain ⟨c, cs, hs, hc⟩ := exists_toList_quote s
  have hbare := wordsFrom_quote [] s rest
  rw [hs, List.cons_append] at hbare ⊢
  rw [wordsFrom_between_cons hc, hbare, List.nil_append]

theorem wordsFrom_join_append (ss : List String) (rest : List Char) :
    wordsFrom .between ((join ss).toList ++ ' ' :: rest) = (wordsFrom .between rest).map (ss ++ ·) := by
  induction ss with
  | nil =>
      rw [join, List.map_nil, String.intercalate_nil]
      simp [wordsFrom, isGap]
  | cons s ss ih =>
      cases ss with
      | nil =>
          rw [join, List.map_singleton, String.intercalate_singleton, wordsFrom_between_quote,
            wordsFrom_gap (by decide), String.ofList_toList]
          rfl
      | cons t ts =>
          have hjoin : (join (s :: t :: ts)).toList = (quote s).toList ++ ' ' :: (join (t :: ts)).toList := by
            simp [join]
          rw [hjoin, List.append_assoc, wordsFrom_between_quote, List.cons_append,
            wordsFrom_gap (by decide), ih, String.ofList_toList, Option.map_map]
          rfl

def Place.size : Place → Nat
  | between => 0
  | bare word | single word | double word | escaped word => word.length
  | escapedQuoted word => word.length + 1

def total : List String → Nat
  | [] => 0
  | s :: ss => s.length + total ss

theorem total_cons (word : List Char) (ss : List String) :
    total (String.ofList word :: ss) = word.length + total ss := by
  simp [total]

@[simp] theorem size_between : Place.between.size = 0 := rfl

@[simp] theorem size_bare (word : List Char) : (Place.bare word).size = word.length := rfl

theorem size_after (word : List Char) (c : Char) : (Place.after word c).size ≤ word.length + 1 := by
  grind [Place.after, Place.size]

theorem size_after_of_mark (hgap : isGap c = false) (hmark : isBare c = false) :
    (Place.after word c).size = word.length := by
  grind [Place.after, Place.size, isBare]

/-- The words have no more characters than the line. -/
theorem total_le {p : Place} {ss : List String} (h : wordsFrom p cs = some ss) :
    total ss ≤ p.size + cs.length := by
  induction cs generalizing p ss with
  | nil =>
      cases p with
      | between =>
          cases h
          simp [total]
      | bare word =>
          cases h
          simp [total, Place.size]
      | _ => cases h
  | cons c cs ih =>
      rw [List.length_cons]
      cases p with
      | between =>
          rw [wordsFrom] at h
          rw [size_between]
          split at h
          next =>
            have hrest := ih h
            rw [size_between] at hrest
            omega
          next =>
            have hrest := ih h
            have hsize := size_after [] c
            rw [List.length_nil] at hsize
            omega
      | bare word =>
          rw [wordsFrom] at h
          rw [size_bare]
          split at h
          next =>
            obtain ⟨rest, hrest, rfl⟩ := Option.map_eq_some_iff.1 h
            have hle := ih hrest
            rw [size_between] at hle
            rw [total_cons]
            omega
          next =>
            have hrest := ih h
            have hsize := size_after word c
            omega
      | single word | double word | escaped word | escapedQuoted word =>
          have hrest := ih h
          grind [Place.size]

theorem total_lt_of_bare {ss : List String} (h : wordsFrom (.bare word) cs = some ss)
    (hmark : ∃ c ∈ cs, isBare c = false) : total ss < word.length + cs.length := by
  induction cs generalizing word with
  | nil => simp at hmark
  | cons c cs ih =>
      rw [List.length_cons]
      rw [wordsFrom] at h
      split at h
      next =>
        obtain ⟨rest, hrest, rfl⟩ := Option.map_eq_some_iff.1 h
        have hle := total_le hrest
        rw [size_between] at hle
        rw [total_cons]
        omega
      next hgap =>
        rw [Bool.not_eq_true] at hgap
        cases hc : isBare c with
        | false =>
            have hle := total_le h
            rw [size_after_of_mark hgap hc] at hle
            omega
        | true =>
            rw [after_of_isBare hc] at h
            have hlt := ih h (by simpa [hc] using hmark)
            rw [List.length_append, List.length_singleton] at hlt
            omega

/-- A character that does not stand for itself is missing from the words of a line. -/
theorem total_lt_of_mark {line : String} {ss : List String} (h : words line = some ss)
    (hmark : ∃ c ∈ line.toList, isBare c = false) : total ss < line.length := by
  rw [words] at h
  rw [← String.length_toList]
  cases hline : line.toList with
  | nil => simp [hline] at hmark
  | cons c cs =>
      rw [hline] at h hmark
      cases hgap : isGap c with
      | true =>
          rw [wordsFrom, if_pos hgap] at h
          have hle := total_le h
          rw [size_between] at hle
          rw [List.length_cons]
          omega
      | false =>
          rw [wordsFrom_between_cons hgap] at h
          have hlt := total_lt_of_bare h hmark
          rw [List.length_nil] at hlt
          omega

/-- A text is read as the one word that it is just where all its characters stand for themselves. -/
theorem words_eq_singleton_iff {s : String} (hs : s ≠ "") :
    words s = some [s] ↔ ∀ c ∈ s.toList, isBare c = true := by
  constructor
  · intro h c hc
    cases hbare : isBare c with
    | true => rfl
    | false =>
        have hlt := total_lt_of_mark h ⟨c, hc, hbare⟩
        simp [total] at hlt
  · intro h
    have hbare := wordsFrom_between_bare (by simpa using hs) h []
    rwa [List.append_nil, wordsFrom, String.ofList_toList] at hbare

end Provision.Text.Shell
