import Mathlib.Data.List.Infix
import Provision.Proofs.Placeholder.Segments

namespace Provision.Placeholder

variable {cs l rest tail tail' : List Char} {p : Placeholder} {ps ps' : List (List Char × Placeholder)}

/-- What the syntax allows: a name of letters, digits and underscores, and an operand without a
closing brace. -/
structure WellFormed (p : Placeholder) : Prop where
  named : p.name ≠ ""
  name : ∀ c ∈ p.name.toList, isNameChar c = true
  operand : '}' ∉ p.form.text.toList

/-- A placeholder is written at the beginning of a text. -/
def Begins (cs : List Char) : Prop := ∃ p rest, WellFormed p ∧ cs = p.text.toList ++ rest

theorem toList_text (p : Placeholder) :
    p.text.toList = opening ++ (p.name.toList ++ (p.form.text.toList ++ ['}'])) := by
  simp [text, opening]

theorem strip?_append (ps cs : List Char) : strip? ps (ps ++ cs) = some cs := by
  induction ps with
  | nil => simp [strip?]
  | cons p ps ih => rw [List.cons_append, strip?, if_pos rfl, ih]

theorem operand?_append {s : String} (h : '}' ∉ s.toList) (rest : List Char) :
    operand? (s.toList ++ '}' :: rest) = some (s, rest) := by
  have hs : ∀ c ∈ s.toList, (c != '}') = true := by
    intro c hc
    rw [bne_iff_ne]
    rintro rfl
    exact h hc
  rw [operand?, List.dropWhile_append_of_pos hs, List.dropWhile_cons_of_neg (by simp),
    List.takeWhile_append_of_pos hs, List.takeWhile_cons_of_neg (by simp)]
  simp

theorem form?_append {f : Form} (h : '}' ∉ f.text.toList) (rest : List Char) :
    form? (f.text.toList ++ '}' :: rest) = some (f, rest) := by
  cases f with
  | required => rfl
  | fallback s =>
      have hs : '}' ∉ s.toList := fun hc => h (by simp [Form.text, hc])
      simp [Form.text, form?, operand?_append hs]
  | alternate s =>
      have hs : '}' ∉ s.toList := fun hc => h (by simp [Form.text, hc])
      simp [Form.text, form?, operand?_append hs]

theorem exists_cons_of_form (f : Form) (rest : List Char) :
    ∃ c cs, f.text.toList ++ '}' :: rest = c :: cs ∧ isNameChar c = false := by
  cases f with
  | required => exact ⟨'}', rest, rfl, by decide⟩
  | fallback s => exact ⟨':', _, by simp [Form.text]; rfl, by decide⟩
  | alternate s => exact ⟨':', _, by simp [Form.text]; rfl, by decide⟩

theorem read?_append (hp : WellFormed p) (rest : List Char) :
    read? (p.text.toList ++ rest) = some (p, rest) := by
  obtain ⟨c, cs, hform, hc⟩ := exists_cons_of_form p.form rest
  have htext : p.text.toList ++ rest = opening ++ (p.name.toList ++ c :: cs) := by
    rw [← hform, toList_text]
    simp
  have hname : (p.name.toList ++ c :: cs).takeWhile isNameChar = p.name.toList := by
    rw [List.takeWhile_append_of_pos hp.name, List.takeWhile_cons_of_neg (by simp [hc]),
      List.append_nil]
  have hrest : (p.name.toList ++ c :: cs).dropWhile isNameChar = c :: cs := by
    rw [List.dropWhile_append_of_pos hp.name, List.dropWhile_cons_of_neg (by simp [hc])]
  rw [htext, read?, strip?_append, Option.bind_eq_bind, Option.bind_some, hname, hrest, ← hform,
    form?_append hp.operand]
  simp [hp.named]

/-- A placeholder is read exactly where a well-formed one is written. -/
theorem read?_eq_some_iff :
    read? cs = some (p, rest) ↔ WellFormed p ∧ cs = p.text.toList ++ rest := by
  constructor
  · intro h
    obtain ⟨hcs, hnamed, hname, hoperand⟩ := read?_eq_some h
    refine ⟨⟨by simpa using hnamed, hname, hoperand⟩, ?_⟩
    rw [hcs, toList_text]
    simp
  · rintro ⟨hp, rfl⟩
    exact read?_append hp rest

theorem read?_eq_none_iff : read? cs = none ↔ ¬ Begins cs := by
  rw [Option.eq_none_iff_forall_not_mem]
  constructor
  · rintro h ⟨p, rest, hp⟩
    exact h (p, rest) (read?_eq_some_iff.2 hp)
  · rintro h ⟨p, rest⟩ hr
    exact h ⟨p, rest, read?_eq_some_iff.1 hr⟩

theorem segmentsAfter_eq_drop (cs : List Char) (skip : Nat) :
    segmentsAfter cs skip = segmentsAfter (cs.drop skip) 0 := by
  induction cs generalizing skip with
  | nil => simp [segmentsAfter]
  | cons c cs ih =>
      cases skip with
      | zero => rfl
      | succ skip => rw [segmentsAfter, ih, List.drop_succ_cons]

theorem segmentsAfter_of_read (hp : WellFormed p) (rest : List Char) :
    segmentsAfter (p.text.toList ++ rest) 0 = .hole p :: segmentsAfter rest 0 := by
  have hread := read?_append hp rest
  obtain ⟨c, cs, hcs⟩ : ∃ c cs, p.text.toList = c :: cs := by
    rw [toList_text]
    exact ⟨_, _, rfl⟩
  rw [hcs, List.cons_append] at hread ⊢
  rw [segmentsAfter, hread]
  dsimp only
  rw [segmentsAfter_eq_drop]
  simp

theorem segmentsAfter_of_not_begins {c : Char} (h : ¬ Begins (c :: cs)) :
    segmentsAfter (c :: cs) 0 = .char c :: segmentsAfter cs 0 := by
  rw [segmentsAfter, read?_eq_none_iff.2 h]

/-- No placeholder begins within a piece of text that others follow. -/
def Literal (l rest : List Char) : Prop := ∀ t, t <:+ l → t ≠ [] → ¬ Begins (t ++ rest)

theorem literal_nil (rest : List Char) : Literal [] rest :=
  fun _ ht hne => absurd (List.suffix_nil.1 ht) hne

theorem literal_cons {c : Char} :
    Literal (c :: l) rest ↔ ¬ Begins (c :: (l ++ rest)) ∧ Literal l rest := by
  constructor
  · intro h
    refine ⟨h (c :: l) List.suffix_rfl (List.cons_ne_nil c l), fun t ht => h t ?_⟩
    exact ht.trans (List.suffix_cons c l)
  · rintro ⟨hc, hl⟩ t ht hne
    rcases List.suffix_cons_iff.1 ht with rfl | ht
    · exact hc
    · exact hl t ht hne

theorem segmentsAfter_of_literal (h : Literal l rest) :
    segmentsAfter (l ++ rest) 0 = l.map .char ++ segmentsAfter rest 0 := by
  induction l with
  | nil => rfl
  | cons c l ih =>
      obtain ⟨hc, hl⟩ := literal_cons.1 h
      rw [List.cons_append, segmentsAfter_of_not_begins hc, ih hl, List.map_cons, List.cons_append]

/-- A text splits into placeholders, each with the literal piece before it, and a last literal piece.
No placeholder begins earlier than the first, and the text after it is split in the same way. -/
inductive Splits : List Char → List (List Char × Placeholder) → List Char → Prop
  | last {l : List Char} (hl : Literal l []) : Splits l [] l
  | next {l rest tail : List Char} {p : Placeholder} {ps : List (List Char × Placeholder)}
      (hp : WellFormed p) (hl : Literal l (p.text.toList ++ rest)) (h : Splits rest ps tail) :
      Splits (l ++ (p.text.toList ++ rest)) ((l, p) :: ps) tail

def parts : List (List Char × Placeholder) → List Char → List Segment
  | [], tail => tail.map .char
  | (l, p) :: ps, tail => l.map .char ++ .hole p :: parts ps tail

theorem Splits.segments_eq (h : Splits cs ps tail) : segmentsAfter cs 0 = parts ps tail := by
  induction h with
  | last hl =>
      have hsegs := segmentsAfter_of_literal hl
      rwa [List.append_nil, segmentsAfter, List.append_nil] at hsegs
  | next hp hl _ ih => rw [segmentsAfter_of_literal hl, segmentsAfter_of_read hp, ih, parts]

theorem splits_cons {c : Char} (hc : ¬ Begins (c :: cs)) (h : Splits cs ps tail) :
    ∃ ps' tail', Splits (c :: cs) ps' tail' := by
  cases h with
  | last hl =>
      refine ⟨[], c :: cs, .last (literal_cons.2 ⟨?_, hl⟩)⟩
      rwa [List.append_nil]
  | @next l rest tail p ps hp hl h =>
      exact ⟨(c :: l, p) :: ps, tail, .next hp (literal_cons.2 ⟨hc, hl⟩) h⟩

theorem exists_splits (cs : List Char) : ∃ ps tail, Splits cs ps tail := by
  induction hn : cs.length using Nat.strong_induction_on generalizing cs with
  | _ n ih =>
      subst hn
      by_cases hbegins : Begins cs
      · obtain ⟨p, rest, hp, rfl⟩ := hbegins
        have hshorter : rest.length < (p.text.toList ++ rest).length := by
          rw [toList_text]
          simp [opening]
          omega
        obtain ⟨ps, tail, h⟩ := ih rest.length hshorter rest rfl
        exact ⟨([], p) :: ps, tail, .next hp (literal_nil _) h⟩
      · cases cs with
        | nil => exact ⟨[], [], .last (literal_nil [])⟩
        | cons c cs =>
            obtain ⟨ps, tail, h⟩ := ih cs.length (by simp) cs rfl
            exact splits_cons hbegins h

theorem map_char_append_inj {l l' : List Char} {segs segs' : List Segment}
    (h : l.map .char ++ .hole p :: segs = l'.map .char ++ segs')
    (hsegs' : segs' = [] ∨ ∃ p' rest, segs' = .hole p' :: rest) :
    l = l' ∧ .hole p :: segs = segs' := by
  induction l generalizing l' with
  | nil =>
      cases l' with
      | nil => exact ⟨rfl, h⟩
      | cons c l' => simp at h
  | cons c l ih =>
      cases l' with
      | nil =>
          rcases hsegs' with rfl | ⟨p', rest, rfl⟩
          · simp at h
          · simp at h
      | cons c' l' =>
          simp only [List.map_cons, List.cons_append, List.cons.injEq, Segment.char.injEq] at h
          obtain ⟨rfl, hrest⟩ := h
          obtain ⟨rfl, hsegs⟩ := ih hrest
          exact ⟨rfl, hsegs⟩

/-- The pieces and placeholders can be told from their segments. -/
theorem parts_inj (h : parts ps tail = parts ps' tail') : ps = ps' ∧ tail = tail' := by
  induction ps generalizing ps' with
  | nil =>
      cases ps' with
      | nil =>
          refine ⟨rfl, List.map_injective_iff.2 (fun _ _ hc => Segment.char.inj hc) h⟩
      | cons e ps' =>
          have hparts : e.1.map .char ++ .hole e.2 :: parts ps' tail' = tail.map .char ++ [] := by
            rw [List.append_nil]
            exact h.symm
          exact absurd (map_char_append_inj hparts (.inl rfl)).2 (by simp)
  | cons e ps ih =>
      obtain ⟨l, p⟩ := e
      cases ps' with
      | nil =>
          have hparts : l.map .char ++ .hole p :: parts ps tail = tail'.map .char ++ [] := by
            rw [List.append_nil]
            exact h
          exact absurd (map_char_append_inj hparts (.inl rfl)).2 (by simp)
      | cons e' ps' =>
          obtain ⟨l', p'⟩ := e'
          obtain ⟨rfl, hrest⟩ := map_char_append_inj h (.inr ⟨p', _, rfl⟩)
          simp only [List.cons.injEq, Segment.hole.injEq] at hrest
          obtain ⟨rfl, hrest⟩ := hrest
          obtain ⟨rfl, rfl⟩ := ih hrest
          exact ⟨rfl, rfl⟩

theorem Splits.unique (h : Splits cs ps tail) (h' : Splits cs ps' tail') : ps = ps' ∧ tail = tail' :=
  parts_inj (h.segments_eq.symm.trans h'.segments_eq)

end Provision.Placeholder
