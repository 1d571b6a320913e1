import Provision.Placeholder.Substitute
import Provision.Proofs.Placeholder.Coercion
import Provision.Proofs.Placeholder.Segments
import Provision.Proofs.Steps

namespace Provision.Placeholder

open Steps

variable {env : Environment} {path : String}

theorem value?_eq_none_iff {p : Placeholder} :
    p.value? env = none ↔ p.form = .required ∧ env.get? p.name = none := by
  cases hf : p.form <;> simp [value?, hf]

theorem fill_char_cons (c : Char) (segs : List Segment) :
    fill env path (.char c :: segs) = (fill env path segs).map (c :: ·) := by
  rw [fill]
  cases fill env path segs <;> rfl

theorem fill_hole_cons {p : Placeholder} {s : String} (h : p.value? env = some s)
    (segs : List Segment) :
    fill env path (.hole p :: segs) = (fill env path segs).map (s.toList ++ ·) := by
  rw [fill, h]
  cases fill env path segs <;> rfl

theorem fill_hole_cons_of_none {p : Placeholder} (h : p.value? env = none)
    (segs : List Segment) : fill env path (.hole p :: segs) = .error (.unset p.name path) := by
  rw [fill, h]

theorem fill_eq_error {segs : List Segment} {f : Failure} (h : fill env path segs = .error f) :
    ∃ p, .hole p ∈ segs ∧ p.value? env = none ∧ f = .unset p.name path := by
  induction segs with
  | nil => simp [fill] at h
  | cons g segs ih =>
      have later (h : fill env path segs = .error f) :
          ∃ p, .hole p ∈ g :: segs ∧ p.value? env = none ∧ f = .unset p.name path := by
        obtain ⟨p, hp, hv, hf⟩ := ih h
        exact ⟨p, List.mem_cons_of_mem _ hp, hv, hf⟩
      cases g with
      | char c =>
          rw [fill_char_cons] at h
          cases hr : fill env path segs with
          | ok cs => simp [hr, Except.map] at h
          | error e => exact later (by simpa [hr, Except.map] using h)
      | hole p =>
          cases hv : p.value? env with
          | none =>
              rw [fill_hole_cons_of_none hv, Except.error.injEq] at h
              exact ⟨p, List.mem_cons_self, hv, h.symm⟩
          | some s =>
              rw [fill_hole_cons hv] at h
              cases hr : fill env path segs with
              | ok cs => simp [hr, Except.map] at h
              | error e => exact later (by simpa [hr, Except.map] using h)

/-- What a segment becomes: a character stays, a placeholder is replaced by its value. -/
inductive Piece (env : Environment) : Segment → List Char → Prop
  | char (c : Char) : Piece env (.char c) [c]
  | hole {p : Placeholder} {s : String} (h : p.value? env = some s) :
      Piece env (.hole p) s.toList

theorem fill_eq_ok_iff {segs : List Segment} {cs : List Char} :
    fill env path segs = .ok cs ↔ ∃ ts, List.Forall₂ (Piece env) segs ts ∧ cs = ts.flatten := by
  constructor
  · intro h
    induction segs generalizing cs with
    | nil => exact ⟨[], .nil, by simpa [fill] using h.symm⟩
    | cons g segs ih =>
        have glue {t : List Char} (hg : Piece env g t)
            (h : (fill env path segs).map (t ++ ·) = .ok cs) :
            ∃ ts, List.Forall₂ (Piece env) (g :: segs) ts ∧ cs = ts.flatten := by
          cases hr : fill env path segs with
          | error e => simp [hr, Except.map] at h
          | ok rest =>
              obtain ⟨ts, hts, rfl⟩ := ih hr
              simp only [hr, Except.map, Except.ok.injEq] at h
              exact ⟨t :: ts, .cons hg hts, by rw [List.flatten_cons, h]⟩
        cases g with
        | char c => exact glue (.char c) (by simpa [fill_char_cons] using h)
        | hole p =>
            cases hv : p.value? env with
            | none => simp [fill_hole_cons_of_none hv] at h
            | some s => exact glue (.hole hv) (by rwa [fill_hole_cons hv] at h)
  · rintro ⟨ts, hts, rfl⟩
    induction hts with
    | nil => rfl
    | cons hg _ ih =>
        cases hg with
        | char c => simp [fill_char_cons, ih, Except.map]
        | hole hv => simp [fill_hole_cons hv, ih, Except.map]

theorem value?_of_fill {segs : List Segment} {cs : List Char} (h : fill env path segs = .ok cs)
    {p : Placeholder} (hp : .hole p ∈ segs) : ∃ s, p.value? env = some s := by
  obtain ⟨ts, hts, -⟩ := fill_eq_ok_iff.1 h
  obtain ⟨t, -, ht⟩ := exists_of_forall₂ hts hp
  cases ht with
  | hole hv => exact ⟨_, hv⟩

theorem fill_map_char (cs : List Char) : fill env path (cs.map .char) = .ok cs := by
  refine fill_eq_ok_iff.2 ⟨cs.map ([·]), ?_, by simp [List.flatten_eq_flatMap, List.flatMap_map]⟩
  induction cs with
  | nil => exact .nil
  | cons c cs ih => exact .cons (.char c) ih

/-- A whole text that is one placeholder, whose value is an integer of `n` digits, more than are
read. -/
def Overlong (env : Environment) (s : String) (n : Nat) : Prop :=
  ∃ p t, segments s = [.hole p] ∧ p.value? env = some t ∧ Coerce.isInteger t.toList ∧
    (Coerce.unsigned t.toList).length = n ∧ Numeral.digitLimit < n

theorem substitute_eq_ok {s : String} {u : Value} (h : substitute env path s = .ok u) :
    ∃ cs, fill env path (segments s) = .ok cs ∧
      ((∃ p, segments s = [.hole p]) ∧ Coerce.coerce (String.ofList cs) = .ok u ∨
        u = .text (String.ofList cs)) := by
  simp only [substitute, bind_eq_ok_iff] at h
  obtain ⟨cs, hcs, h⟩ := h
  refine ⟨cs, hcs, ?_⟩
  split at h
  next p hp => exact .inl ⟨⟨p, hp⟩, h⟩
  next => exact .inr (pure_eq_ok_iff.1 h).symm

/-- A text becomes a truth value, a number or the filled text. -/
theorem substitute_result {s : String} {u : Value} (h : substitute env path s = .ok u) :
    (∃ b, u = .bool b) ∨ (∃ n, u = .int n) ∨ (∃ x, u = .real x) ∨
      ∃ cs, fill env path (segments s) = .ok cs ∧ u = .text (String.ofList cs) := by
  obtain ⟨cs, hcs, ⟨-, hc⟩ | hu⟩ := substitute_eq_ok h
  · rcases Coerce.coerce_eq_ok hc with hb | hn | hx | hu
    · exact .inl hb
    · exact .inr (.inl hn)
    · exact .inr (.inr (.inl hx))
    · exact .inr (.inr (.inr ⟨cs, hcs, hu⟩))
  · exact .inr (.inr (.inr ⟨cs, hcs, hu⟩))

/-- Substitution in a text fails at a placeholder without a value or at an overlong integer. -/
theorem substitute_eq_error {s : String} {f : Failure} (h : substitute env path s = .error f) :
    (∃ p, .hole p ∈ segments s ∧ p.value? env = none ∧ f = .unset p.name path) ∨
      ∃ n, Overlong env s n ∧ f = .trouble .value (Failure.tooManyDigits n) := by
  simp only [substitute, bind_eq_error_iff] at h
  rcases h with h | ⟨cs, hcs, h⟩
  · exact .inl (fill_eq_error h)
  · refine .inr ?_
    split at h
    next p hp =>
      obtain ⟨t, ht⟩ := value?_of_fill hcs (p := p) (by simp [hp])
      have hfill : cs = t.toList := by
        simpa [hp, fill_hole_cons ht, fill, Except.map, eq_comm] using hcs
      subst hfill
      rw [String.ofList_toList] at h
      rcases Coerce.coerce_spec t with ⟨v, hv⟩ | ⟨hint, hlong, he⟩
      · simp [hv] at h
      · rw [he, Except.error.injEq] at h
        exact ⟨_, ⟨p, t, hp, ht, hint, rfl, hlong⟩, h.symm⟩
    next => exact absurd h pure_ne_error

theorem substitute_of_not_inText {s : String} (h : inText s = false) :
    substitute env path s = .ok (.text s) := by
  have hsegs := segments_of_not_inText h
  simp only [substitute, hsegs, fill_map_char]
  cases hs : s.toList with
  | nil => simp [bind, Except.bind, pure, Except.pure, ← hs]
  | cons c cs => simp [bind, Except.bind, pure, Except.pure, ← hs]

theorem substitute_path {s : String} {u : Value} (h : substitute env path s = .ok u)
    (path' : String) : substitute env path' s = .ok u := by
  simp only [substitute, bind_eq_ok_iff] at h ⊢
  obtain ⟨cs, hcs, h⟩ := h
  exact ⟨cs, fill_eq_ok_iff.2 (fill_eq_ok_iff.1 hcs), h⟩

end Provision.Placeholder
