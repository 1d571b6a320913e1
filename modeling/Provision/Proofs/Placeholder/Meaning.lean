import Provision.Proofs.Placeholder.Filling
import Provision.Proofs.Placeholder.Merging
import Provision.Proofs.Placeholder.Splitting

namespace Provision.Placeholder

open Steps

variable {env : Environment} {path : String} {p : Placeholder} {l tail : List Char}
  {ps before after : List (List Char × Placeholder)} {vs : List String}

/-- The text that stands in for a placeholder. A variable that is set to the empty text counts as
unset, except where it is required. -/
inductive Yields (env : Environment) : Placeholder → String → Prop
  | required {name v : String} (h : env.get? name = some v) : Yields env ⟨name, .required⟩ v
  | given {name operand v : String} (h : env.get? name = some v) (hv : v ≠ "") :
      Yields env ⟨name, .fallback operand⟩ v
  | fallback {name operand : String} (h : ∀ v, env.get? name = some v → v = "") :
      Yields env ⟨name, .fallback operand⟩ operand
  | alternate {name operand v : String} (h : env.get? name = some v) (hv : v ≠ "") :
      Yields env ⟨name, .alternate operand⟩ operand
  | absent {name operand : String} (h : ∀ v, env.get? name = some v → v = "") :
      Yields env ⟨name, .alternate operand⟩ ""

def Unset (env : Environment) (p : Placeholder) : Prop :=
  p.form = .required ∧ env.get? p.name = none

theorem nonempty?_eq_some_iff {name v : String} :
    env.nonempty? name = some v ↔ env.get? name = some v ∧ v ≠ "" := by
  simp [Environment.nonempty?, Option.filter_eq_some_iff]

theorem nonempty?_eq_none_iff {name : String} :
    env.nonempty? name = none ↔ ∀ v, env.get? name = some v → v = "" := by
  simp [Environment.nonempty?, Option.filter_eq_none_iff]

theorem value?_eq_some_iff {v : String} : p.value? env = some v ↔ Yields env p v := by
  obtain ⟨name, form⟩ := p
  constructor
  · intro h
    cases form with
    | required => exact .required h
    | fallback operand =>
        simp only [value?, Option.some.injEq] at h
        subst h
        cases hn : env.nonempty? name with
        | none => exact .fallback (nonempty?_eq_none_iff.1 hn)
        | some u =>
            obtain ⟨hu, hne⟩ := nonempty?_eq_some_iff.1 hn
            exact .given hu hne
    | alternate operand =>
        simp only [value?, Option.some.injEq] at h
        subst h
        cases hn : env.nonempty? name with
        | none => exact .absent (nonempty?_eq_none_iff.1 hn)
        | some u =>
            obtain ⟨hu, hne⟩ := nonempty?_eq_some_iff.1 hn
            exact .alternate hu hne
  · intro h
    cases h with
    | required h => exact h
    | given h hv => simp [value?, nonempty?_eq_some_iff.2 ⟨h, hv⟩]
    | fallback h => simp [value?, nonempty?_eq_none_iff.2 h]
    | alternate h hv => simp [value?, nonempty?_eq_some_iff.2 ⟨h, hv⟩]
    | absent h => simp [value?, nonempty?_eq_none_iff.2 h]

theorem exists_yields (h : ¬ Unset env p) : ∃ v, Yields env p v := by
  cases hv : p.value? env with
  | none => exact absurd (value?_eq_none_iff.1 hv) h
  | some v => exact ⟨v, value?_eq_some_iff.1 hv⟩

def rejoin : List (List Char × Placeholder) → List String → List Char → List Char
  | (l, _) :: ps, v :: vs, tail => l ++ (v.toList ++ rejoin ps vs tail)
  | _, _, tail => tail

theorem fill_literal (l : List Char) (segs : List Segment) :
    fill env path (l.map .char ++ segs) = (fill env path segs).map (l ++ ·) := by
  induction l with
  | nil => cases h : fill env path segs <;> simp [h, Except.map]
  | cons c l ih =>
      rw [List.map_cons, List.cons_append, fill_char_cons, ih]
      cases fill env path segs <;> rfl

theorem fill_parts (h : List.Forall₂ (fun e v => Yields env e.2 v) ps vs) (tail : List Char) :
    fill env path (parts ps tail) = .ok (rejoin ps vs tail) := by
  induction h with
  | nil => exact fill_map_char tail
  | @cons e v ps vs hv _ ih =>
      obtain ⟨l, p⟩ := e
      rw [parts, fill_literal, fill_hole_cons (value?_eq_some_iff.2 hv), ih]
      rfl

/-- Filling stops at the leftmost placeholder that requires a variable that is not set. -/
theorem fill_parts_of_unset (hbefore : ∀ e ∈ before, ¬ Unset env e.2) (hp : Unset env p) :
    fill env path (parts (before ++ (l, p) :: after) tail) = .error (.unset p.name path) := by
  induction before with
  | nil =>
      rw [List.nil_append, parts, fill_literal, fill_hole_cons_of_none (value?_eq_none_iff.2 hp)]
      rfl
  | cons e before ih =>
      obtain ⟨l', q⟩ := e
      obtain ⟨hfirst, hlater⟩ := List.forall_mem_cons.1 hbefore
      obtain ⟨v, hv⟩ := exists_yields hfirst
      rw [List.cons_append, parts, fill_literal, fill_hole_cons (value?_eq_some_iff.2 hv),
        ih hlater]
      rfl

theorem parts_eq_hole_iff : parts ps tail = [.hole p] ↔ ps = [([], p)] ∧ tail = [] := by
  constructor
  · intro h
    exact parts_inj (h.trans (rfl : _ = parts [([], p)] []))
  · rintro ⟨rfl, rfl⟩
    rfl

/-- What a text that splits in a certain way becomes. -/
structure Meaning (env : Environment) (path : String) (ps : List (List Char × Placeholder))
    (tail : List Char) (r : Except Failure Value) : Prop where
  /-- The leftmost placeholder that requires a variable that is not set is reported. -/
  unset : ∀ before l p after, ps = before ++ (l, p) :: after → (∀ e ∈ before, ¬ Unset env e.2) →
    Unset env p → r = .error (.unset p.name path)
  valued : (∀ e ∈ ps, ¬ Unset env e.2) → ∃ vs, List.Forall₂ (fun e v => Yields env e.2 v) ps vs
  whole : ∀ p v, ps = [([], p)] → tail = [] → Yields env p v → r = Coerce.coerce v
  rejoined : ∀ vs, List.Forall₂ (fun e v => Yields env e.2 v) ps vs →
    ¬ (tail = [] ∧ ∃ p, ps = [([], p)]) → r = .ok (.text (String.ofList (rejoin ps vs tail)))

theorem exists_values (h : ∀ e ∈ ps, ¬ Unset env e.2) :
    ∃ vs, List.Forall₂ (fun e v => Yields env e.2 v) ps vs := by
  induction ps with
  | nil => exact ⟨[], .nil⟩
  | cons e ps ih =>
      obtain ⟨hfirst, hrest⟩ := List.forall_mem_cons.1 h
      obtain ⟨v, hv⟩ := exists_yields hfirst
      obtain ⟨vs, hvs⟩ := ih hrest
      exact ⟨v :: vs, .cons hv hvs⟩

variable {s : String}

theorem segments_of_splits (h : Splits s.toList ps tail) : segments s = parts ps tail :=
  h.segments_eq

theorem meaning_of_splits (h : Splits s.toList ps tail) (env : Environment) (path : String) :
    Meaning env path ps tail (substitute env path s) := by
  have hsegs := segments_of_splits h
  refine ⟨?_, exists_values, ?_, ?_⟩
  · rintro before l p after rfl hbefore hp
    rw [substitute, hsegs, fill_parts_of_unset hbefore hp]
    rfl
  · rintro p v rfl rfl hv
    have hfill : fill env path (parts [([], p)] []) = .ok (rejoin [([], p)] [v] []) :=
      fill_parts (.cons hv .nil) []
    rw [substitute, hsegs, hfill]
    simp [parts, rejoin, bind, Except.bind]
  · intro vs hvs hwhole
    rw [substitute, hsegs, fill_parts hvs]
    simp only [bind, Except.bind]
    split
    next p hp =>
      obtain ⟨hps, htail⟩ := parts_eq_hole_iff.1 hp
      exact absurd ⟨htail, p, hps⟩ hwhole
    next => rfl

theorem filterMap_map_char (l : List Char) : (l.map Segment.char).filterMap ofSegment? = [] := by
  simp [List.filterMap_eq_nil_iff, ofSegment?]

theorem filterMap_parts (ps : List (List Char × Placeholder)) (tail : List Char) :
    (parts ps tail).filterMap ofSegment? = ps.map (·.2) := by
  induction ps with
  | nil => exact filterMap_map_char tail
  | cons e ps ih =>
      obtain ⟨l, p⟩ := e
      rw [parts, List.filterMap_append, filterMap_map_char, List.nil_append, List.filterMap_cons, ih]
      rfl

theorem all_of_splits (h : Splits s.toList ps tail) : all s = ps.map (·.2) := by
  rw [all, segments_of_splits h, filterMap_parts]

theorem find_text (s path : String) :
    ∃ rs, Reference.find (.text s) path = .ok rs ∧ (rs = [] ↔ all s = []) := by
  refine ⟨Reference.summary ((all s).map (⟨·, path⟩)),
    congrArg Except.ok (Reference.foldl_insert_eq_summary _), ?_⟩
  simp only [List.eq_nil_iff_forall_not_mem, Reference.mem_summary, List.mem_map]
  constructor
  · intro h p hp
    exact h _ ⟨⟨p, path⟩, ⟨p, hp, rfl⟩, rfl⟩
  · rintro h _ ⟨_, ⟨p, hp, rfl⟩, -⟩
    exact h p hp

/-- A text splits in exactly one way into pieces and placeholders, the leftmost first, and means what
they say in every environment. Whether there are placeholders is seen alike by the test for them, by
the search for references and by substitution, which leaves a text without them as it is. -/
theorem meaning_of_text (s : String) :
    ∃ ps tail, Splits s.toList ps tail ∧
      (∀ ps' tail', Splits s.toList ps' tail' → ps' = ps ∧ tail' = tail) ∧
      (∀ env path, Meaning env path ps tail (substitute env path s)) ∧
      (inValue (.text s) = true ↔ 0 < ps.length) ∧
      (∀ path, ∃ rs, Reference.find (.text s) path = .ok rs ∧ (rs ≠ [] ↔ 0 < ps.length)) ∧
      (ps.length = 0 → ∀ env path, substitute env path s = .ok (.text s)) := by
  obtain ⟨ps, tail, h⟩ := exists_splits s.toList
  have hall := all_of_splits h
  refine ⟨ps, tail, h, fun _ _ h' => h'.unique h, meaning_of_splits h, ?_, ?_, ?_⟩
  · rw [inValue, inText, hall]
    cases ps <;> simp
  · intro path
    obtain ⟨rs, hfind, hnil⟩ := find_text s path
    exact ⟨rs, hfind, by rw [ne_eq, hnil, hall, List.map_eq_nil_iff, List.length_pos_iff]⟩
  · intro hnone env path
    have hfree : inText s = false := by
      rw [inText_eq_false_iff, hall, List.length_eq_zero_iff.1 hnone]
      rfl
    exact substitute_of_not_inText hfree

-- The placeholder begins at the second dollar sign, its operand ends at the first brace, and what
-- is left over opens nothing.
example :
    let s := "$$\x7benv.A:=$\x7benv.B\x7d\x7d$\x7benv.\x7d"
    segments s = parts [(['$'], ⟨"A", .fallback "$\x7benv.B"⟩)] "\x7d$\x7benv.\x7d".toList ∧
      substitute [("A", "$\x7benv.C\x7d")] "" s = .ok (.text "$$\x7benv.C\x7d\x7d$\x7benv.\x7d") := by
  refine ⟨by decide, ?_⟩
  rfl

end Provision.Placeholder
