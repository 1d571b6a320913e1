import Provision.Proofs.Placeholder.Reopening

namespace Provision.Placeholder

namespace Stage

/-- Each stage that texts without marks lead to is reached by one. -/
theorem exists_of_mem_reach {q r : Stage} (h : r ∈ q.reach) :
    ∃ cs, MarkFree cs ∧ q.run cs = some r := by
  have hnil (q : Stage) : ∃ cs, MarkFree cs ∧ q.run cs = some q := ⟨[], by simp [MarkFree], rfl⟩
  cases q with
  | opening ps =>
      rw [reach] at h
      induction ps with
      | nil =>
          simp only [opened, List.mem_cons, List.not_mem_nil, or_false] at h
          rcases h with rfl | rfl | rfl | rfl
          · exact hnil _
          · exact ⟨['a'], by simp [MarkFree, isMark], by decide⟩
          · exact ⟨['a', ':'], by simp [MarkFree, isMark], by decide⟩
          · exact ⟨['a', ':', '='], by simp [MarkFree, isMark], by decide⟩
      | cons p ps ih =>
          rw [opened, List.mem_cons] at h
          rcases h with rfl | h
          · exact hnil _
          · split at h
            next => cases h
            next hp =>
              obtain ⟨cs, hcs, hr⟩ := ih h
              refine ⟨p :: cs, List.forall_mem_cons.2 ⟨by simpa using hp, hcs⟩, ?_⟩
              rw [run, next, if_pos rfl]
              exact hr
  | name =>
      simp only [reach, List.mem_cons, List.not_mem_nil, or_false] at h
      rcases h with rfl | rfl | rfl
      · exact hnil _
      · exact ⟨[':'], by simp [MarkFree, isMark], by decide⟩
      · exact ⟨[':', '='], by simp [MarkFree, isMark], by decide⟩
  | sign =>
      simp only [reach, List.mem_cons, List.not_mem_nil, or_false] at h
      rcases h with rfl | rfl
      · exact hnil _
      · exact ⟨['='], by simp [MarkFree, isMark], by decide⟩
  | operand =>
      rw [List.mem_singleton.1 h]
      exact hnil _
  | closed =>
      rw [List.mem_singleton.1 h]
      exact hnil _

theorem brace_mem_of_run_operand {cs : List Char} (h : operand.run cs = some closed) :
    '}' ∈ cs := by
  by_contra hcs
  rw [run_operand hcs] at h
  cases h

theorem operand?_of_run {cs : List Char} (h : operand.run cs = some closed) :
    ∃ r, operand? cs = some r := by
  rw [operand?]
  split
  next => exact ⟨_, rfl⟩
  next hd =>
    have hall := List.dropWhile_eq_nil_iff.1 hd _ (brace_mem_of_run_operand h)
    exact absurd hall (by decide)

theorem form?_of_run {cs : List Char} (h : name.run cs = some closed) :
    ∃ r, form? (cs.dropWhile isNameChar) = some r := by
  induction cs with
  | nil => cases h
  | cons c cs ih =>
      obtain ⟨q, hn, hrun⟩ := Option.bind_eq_some_iff.1 h
      rw [next] at hn
      by_cases hc : isNameChar c
      · rw [if_pos hc] at hn
        cases hn
        rw [List.dropWhile_cons_of_pos hc]
        exact ih hrun
      · rw [List.dropWhile_cons_of_neg hc]
        rw [if_neg hc] at hn
        split at hn
        next hbrace =>
          subst hbrace
          exact ⟨_, rfl⟩
        next =>
          simp only [Option.ite_none_right_eq_some, Option.some.injEq] at hn
          obtain ⟨rfl, rfl⟩ := hn
          cases cs with
          | nil => cases hrun
          | cons d ds =>
              obtain ⟨q, hn, hrun⟩ := Option.bind_eq_some_iff.1 hrun
              simp only [next, Option.ite_none_right_eq_some, Option.some.injEq] at hn
              obtain ⟨hd, rfl⟩ := hn
              obtain ⟨r, hr⟩ := operand?_of_run hrun
              rcases (by simpa using hd : d = '=' ∨ d = '+') with rfl | rfl
              · exact ⟨_, by rw [form?, hr]; rfl⟩
              · exact ⟨_, by rw [form?, hr]; rfl⟩

theorem strip?_of_run {ps cs : List Char} (h : (opening ps).run cs = some closed) :
    ∃ body, strip? ps cs = some body ∧ (opening []).run body = some closed := by
  induction ps generalizing cs with
  | nil => exact ⟨cs, by rw [strip?], h⟩
  | cons p ps ih =>
      cases cs with
      | nil => cases h
      | cons c cs =>
          obtain ⟨q, hn, hrun⟩ := Option.bind_eq_some_iff.1 h
          simp only [next, Option.ite_none_right_eq_some, Option.some.injEq] at hn
          obtain ⟨rfl, rfl⟩ := hn
          rw [strip?, if_pos rfl]
          exact ih hrun

/-- A text that is read through all stages begins with a placeholder. -/
theorem read?_of_run {cs : List Char} (h : start.run cs = some closed) :
    ∃ p rest, read? cs = some (p, rest) := by
  obtain ⟨body, hbody, hrun⟩ := strip?_of_run h
  cases body with
  | nil => cases hrun
  | cons c cs =>
      obtain ⟨q, hn, hrun⟩ := Option.bind_eq_some_iff.1 hrun
      simp only [next, Option.ite_none_right_eq_some, Option.some.injEq] at hn
      obtain ⟨hc, rfl⟩ := hn
      obtain ⟨⟨form, rest⟩, hform⟩ := form?_of_run hrun
      refine ⟨⟨String.ofList (c :: cs.takeWhile isNameChar), form⟩, rest, ?_⟩
      rw [read?, hbody, Option.bind_eq_bind, Option.bind_some, List.takeWhile_cons_of_pos hc,
        List.dropWhile_cons_of_pos hc, hform]
      rfl

end Stage

/-- Where the segments of a text are characters no placeholder can be read. -/
theorem read?_eq_none_of_suffix {cs u : List Char} (h : ∀ p, .hole p ∉ segmentsAfter cs 0)
    (hu : u <:+ cs) : read? u = none := by
  induction cs with
  | nil =>
      rw [List.suffix_nil.1 hu]
      rfl
  | cons c cs ih =>
      rw [segmentsAfter] at h
      cases hr : read? (c :: cs) with
      | some r =>
          rw [hr] at h
          exact absurd List.mem_cons_self (h r.1)
      | none =>
          rw [hr] at h
          rcases List.suffix_cons_iff.1 hu with rfl | hu
          · exact hr
          · exact ih (fun p hp => h p (List.mem_cons_of_mem _ hp)) hu

theorem inText_of_read? {cs u rest : List Char} {p : Placeholder} (hu : u <:+ cs)
    (hr : read? u = some (p, rest)) : inText (String.ofList cs) = true := by
  rw [inText_eq_true_iff]
  by_contra hnone
  have hsegs : ∀ q, .hole q ∉ segmentsAfter cs 0 := by
    intro q hq
    exact hnone ⟨q, mem_all.2 (by simpa [segments] using hq)⟩
  rw [read?_eq_none_of_suffix hsegs hu] at hr
  cases hr

theorem exists_filler_of_mem_after {q r : Stage} {p : Placeholder} (h : r ∈ q.after p.form) :
    ∃ t, Filler (.hole p) t ∧ q.run t = some r := by
  obtain ⟨name, form⟩ := p
  cases form with
  | required =>
      obtain ⟨t, ht, hr⟩ := Stage.exists_of_mem_reach h
      exact ⟨t, .value ht, hr⟩
  | fallback s =>
      rcases List.mem_append.1 h with h | h
      · exact ⟨_, .fallback, by simpa using h⟩
      · obtain ⟨t, ht, hr⟩ := Stage.exists_of_mem_reach h
        exact ⟨t, .given ht, hr⟩
  | alternate s =>
      rcases List.mem_append.1 h with h | h
      · exact ⟨_, .alternate, by simpa using h⟩
      · rw [List.mem_singleton.1 h]
        exact ⟨_, .absent, rfl⟩

theorem filler_operand (p : Placeholder) :
    Filler (.hole p) (Form.operand p.form).toList := by
  obtain ⟨name, form⟩ := p
  cases form with
  | required => exact .value (by simp [Form.operand, MarkFree])
  | fallback s => exact .fallback
  | alternate s => exact .alternate

/-- Segments that are seen to complete a placeholder do so with some fillers. -/
theorem exists_fillers_of_closes {segs : List Segment} {q : Stage} (h : closes segs q = true) :
    ∃ ts, List.Forall₂ Filler segs ts ∧ q.run ts.flatten = some .closed := by
  induction segs generalizing q with
  | nil =>
      rw [closes, decide_eq_true_eq] at h
      exact ⟨[], .nil, by rw [h]; rfl⟩
  | cons g segs ih =>
      have extend {t : List Char} {r : Stage} (ht : Filler g t) (hr : q.run t = some r)
          (h : closes segs r = true) :
          ∃ ts, List.Forall₂ Filler (g :: segs) ts ∧ q.run ts.flatten = some .closed := by
        obtain ⟨ts, hts, hrun⟩ := ih h
        refine ⟨t :: ts, .cons ht hts, ?_⟩
        rw [List.flatten_cons, Stage.run_append, hr]
        exact hrun
      cases g with
      | char c =>
          rw [closes, Option.any_eq_true] at h
          obtain ⟨r, hn, h⟩ := h
          exact extend (.char c) (by simpa [Stage.run] using hn) h
      | hole p =>
          rw [closes, List.any_eq_true] at h
          obtain ⟨r, hr, h⟩ := h
          obtain ⟨t, ht, hr⟩ := exists_filler_of_mem_after hr
          exact extend ht hr h

theorem exists_fillers_of_reopens {segs : List Segment} (h : reopens segs = true) :
    ∃ ts, List.Forall₂ Filler segs ts ∧ ∃ u, u <:+ ts.flatten ∧
      Stage.start.run u = some .closed := by
  induction segs with
  | nil => cases h
  | cons g segs ih =>
      have later {t : List Char} (ht : Filler g t) (h : reopens segs = true) :
          ∃ ts, List.Forall₂ Filler (g :: segs) ts ∧ ∃ u, u <:+ ts.flatten ∧
            Stage.start.run u = some .closed := by
        obtain ⟨ts, hts, u, hu, hrun⟩ := ih h
        exact ⟨t :: ts, .cons ht hts, u, hu.trans (List.suffix_append t _), hrun⟩
      have here {t w : List Char} (ht : Filler g t) (hw : w <:+ t)
          (h : (Stage.start.run w).any (closes segs) = true) :
          ∃ ts, List.Forall₂ Filler (g :: segs) ts ∧ ∃ u, u <:+ ts.flatten ∧
            Stage.start.run u = some .closed := by
        rw [Option.any_eq_true] at h
        obtain ⟨r, hr, h⟩ := h
        obtain ⟨ts, hts, hrun⟩ := exists_fillers_of_closes h
        obtain ⟨as, rfl⟩ := hw
        refine ⟨(as ++ w) :: ts, .cons ht hts, w ++ ts.flatten, ⟨as, by simp⟩, ?_⟩
        rw [Stage.run_append, hr]
        exact hrun
      cases g with
      | char c =>
          rw [reopens, Bool.or_eq_true] at h
          rcases h with h | h
          · exact here (.char c) List.suffix_rfl (by simpa [Stage.run] using h)
          · exact later (.char c) h
      | hole p =>
          rw [reopens, Bool.or_eq_true, List.any_eq_true] at h
          rcases h with ⟨w, hw, h⟩ | h
          · exact here (filler_operand p) ((List.mem_tails _ _).1 hw) h
          · exact later (filler_operand p) h

/-- Segments are seen to reopen exactly where some fillers of them spell a placeholder. -/
theorem reopens_iff {segs : List Segment} :
    reopens segs = true ↔
      ∃ ts, List.Forall₂ Filler segs ts ∧ inText (String.ofList ts.flatten) = true := by
  constructor
  · intro h
    obtain ⟨ts, hts, u, hu, hrun⟩ := exists_fillers_of_reopens h
    obtain ⟨p, rest, hr⟩ := Stage.read?_of_run hrun
    exact ⟨ts, hts, inText_of_read? hu hr⟩
  · rintro ⟨ts, hts, hin⟩
    obtain ⟨u, hu, p, rest, hr⟩ := exists_suffix_of_inText hin
    exact reopens_of_run hts hu (Stage.run_of_read hr)

end Provision.Placeholder
