import Provision.Text.Newline

namespace Provision.Text

/-- Whether a character ends lines for some readers: a line feed, a carriage return, a tab or feed that goes
down the page, a separator, or one of the marks beyond ASCII. -/
def isLineEnd (c : Char) : Bool :=
  ['\n', '\r', '\x0b', '\x0c', '\x1c', '\x1d', '\x1e', '\x85', '\u2028', '\u2029'].contains c

def linesFrom (ends : Char → Bool) (line : List Char) : List Char → List (List Char)
  | [] => if line.isEmpty then [] else [line]
  | c :: cs => if ends c then line :: linesFrom ends [] cs else linesFrom ends (line ++ [c]) cs

def lines (ends : Char → Bool) (cs : List Char) : List (List Char) := linesFrom ends [] cs

variable {ends : Char → Bool} {cs ds : List Char} {ls : List (List Char)} {e : Char}

theorem linesFrom_append (h : ∀ c ∈ cs, ends c = false) (line : List Char) :
    linesFrom ends line (cs ++ ds) = linesFrom ends (line ++ cs) ds := by
  induction cs generalizing line with
  | nil => simp
  | cons c cs ih =>
      obtain ⟨hc, hcs⟩ := List.forall_mem_cons.1 h
      rw [List.cons_append, linesFrom, hc, if_neg (by decide), ih hcs, List.append_assoc]
      rfl

theorem linesFrom_end (he : ends e = true) (line cs ds : List Char) :
    linesFrom ends line (cs ++ e :: ds) = linesFrom ends line (cs ++ [e]) ++ lines ends ds := by
  induction cs generalizing line with
  | nil => simp [linesFrom, lines, he]
  | cons c cs ih =>
      rw [List.cons_append, List.cons_append, linesFrom, linesFrom]
      split
      next => rw [ih, List.cons_append]
      next => exact ih _

theorem lines_flatMap (hend : ends '\n' = true) (h : ∀ l ∈ ls, ∀ c ∈ l, ends c = false) :
    lines ends (ls.flatMap (· ++ ['\n'])) = ls := by
  induction ls with
  | nil => rfl
  | cons l ls ih =>
      obtain ⟨hl, hls⟩ := List.forall_mem_cons.1 h
      rw [List.flatMap_cons, List.append_assoc, lines, linesFrom_append hl, List.nil_append,
        List.singleton_append, linesFrom, if_pos hend]
      exact congrArg (l :: ·) (ih hls)

theorem unifyLines_of_not_mem (h : '\r' ∉ cs) : unifyLines cs = cs := by
  fun_induction unifyLines cs with
  | case1 => rfl
  | case2 cs ih => simp at h
  | case3 c cs _ ih =>
      rw [List.mem_cons, not_or] at h
      rw [if_neg (Ne.symm h.1), ih h.2]

theorem exists_unifyLines_feed (cs : List Char) :
    ∃ us, ∀ ds, unifyLines (cs ++ '\n' :: ds) = us ++ '\n' :: unifyLines ds := by
  fun_induction unifyLines cs with
  | case1 => exact ⟨[], fun ds => rfl⟩
  | case2 cs ih =>
      obtain ⟨us, hus⟩ := ih
      exact ⟨'\n' :: us, fun ds => congrArg ('\n' :: ·) (hus ds)⟩
  | case3 c cs hc ih =>
      obtain ⟨us, hus⟩ := ih
      by_cases hlast : c = '\r' ∧ cs = []
      · -- The line feed goes with the carriage return before it.
        obtain ⟨rfl, rfl⟩ := hlast
        exact ⟨[], fun ds => rfl⟩
      · refine ⟨(if c = '\r' then '\n' else c) :: us, fun ds => ?_⟩
        have hnext : ∀ rest, c = '\r' → cs ++ '\n' :: ds = '\n' :: rest → False := by
          intro rest hreturn hfeed
          cases cs with
          | nil => exact hlast ⟨hreturn, rfl⟩
          | cons d cs => exact hc cs hreturn (by rw [(List.cons.inj hfeed).1])
        rw [List.cons_append, unifyLines.eq_3 _ _ hnext, hus, List.cons_append]

/-- Lines that are written after ended ones are read after these. -/
theorem lines_unifyLines_append (hend : ends '\n' = true) {old : List Char}
    (hold : old = [] ∨ ∃ cs, old = cs ++ ['\n']) (h : ∀ l ∈ ls, ∀ c ∈ l, ends c = false ∧ c ≠ '\r') :
    lines ends (unifyLines (old ++ ls.flatMap (· ++ ['\n']))) = lines ends (unifyLines old) ++ ls := by
  have hends : ∀ l ∈ ls, ∀ c ∈ l, ends c = false := fun l hl c hc => (h l hl c hc).1
  have hreturn : '\r' ∉ ls.flatMap (· ++ ['\n']) := by
    intro hmem
    obtain ⟨l, hl, hc⟩ := List.mem_flatMap.1 hmem
    rcases List.mem_append.1 hc with hc | hc
    · exact (h l hl _ hc).2 rfl
    · exact absurd hc (by decide)
  rcases hold with rfl | ⟨cs, rfl⟩
  · rw [List.nil_append, unifyLines_of_not_mem hreturn, lines_flatMap hend hends]
    rfl
  · obtain ⟨us, hus⟩ := exists_unifyLines_feed cs
    rw [List.append_assoc, List.singleton_append, hus, hus, unifyLines_of_not_mem hreturn, lines, lines,
      linesFrom_end hend, lines_flatMap hend hends]
    rfl

end Provision.Text
