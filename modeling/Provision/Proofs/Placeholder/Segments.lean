import Mathlib.Data.List.TakeWhile
import Provision.Placeholder.Basic

namespace Provision.Placeholder

theorem strip?_eq_some {ps cs rest : List Char} (h : strip? ps cs = some rest) :
    cs = ps ++ rest := by
  induction ps generalizing cs with
  | nil => simpa [strip?] using h
  | cons p ps ih =>
      cases cs with
      | nil => simp [strip?] at h
      | cons c cs =>
          simp only [strip?] at h
          split at h
          next hpc => rw [ih h, hpc, List.cons_append]
          next => simp at h

theorem operand?_eq_some {cs rest : List Char} {s : String} (h : operand? cs = some (s, rest)) :
    cs = s.toList ++ '}' :: rest ∧ '}' ∉ s.toList := by
  rw [operand?] at h
  split at h
  next c tail hd =>
    simp only [Option.some.injEq, Prod.mk.injEq] at h
    obtain ⟨rfl, rfl⟩ := h
    have hc : c = '}' := by
      have := List.head?_dropWhile_not (· != '}') cs
      simpa [hd] using this
    have hcs := List.takeWhile_append_dropWhile (p := (· != '}')) (l := cs)
    rw [hd, hc] at hcs
    refine ⟨by simpa using hcs.symm, fun hmem => ?_⟩
    rw [String.toList_ofList] at hmem
    have hne := List.mem_takeWhile_imp hmem
    simp at hne
  next => simp at h

theorem form?_eq_some {cs rest : List Char} {f : Form} (h : form? cs = some (f, rest)) :
    cs = f.text.toList ++ '}' :: rest ∧ '}' ∉ f.text.toList := by
  rw [form?.eq_def] at h
  split at h
  · simp only [Option.some.injEq, Prod.mk.injEq] at h
    obtain ⟨rfl, rfl⟩ := h
    simp [Form.text]
  · obtain ⟨⟨s, tail⟩, ho, he⟩ := Option.map_eq_some_iff.1 h
    obtain ⟨rfl, rfl⟩ := he
    obtain ⟨rfl, hs⟩ := operand?_eq_some ho
    simp [Form.text, hs]
  · obtain ⟨⟨s, tail⟩, ho, he⟩ := Option.map_eq_some_iff.1 h
    obtain ⟨rfl, rfl⟩ := he
    obtain ⟨rfl, hs⟩ := operand?_eq_some ho
    simp [Form.text, hs]
  · simp at h

theorem read?_eq_some {cs rest : List Char} {p : Placeholder} (h : read? cs = some (p, rest)) :
    cs = opening ++ (p.name.toList ++ (p.form.text.toList ++ '}' :: rest)) ∧
      p.name.toList ≠ [] ∧ (∀ c ∈ p.name.toList, isNameChar c) ∧ '}' ∉ p.form.text.toList := by
  rw [read?] at h
  cases hs : strip? opening cs with
  | none => simp [hs] at h
  | some body =>
      simp only [hs, Option.bind_eq_bind, Option.bind_some] at h
      split at h
      next => simp at h
      next hn =>
        cases hf : form? (body.dropWhile isNameChar) with
        | none => simp [hf] at h
        | some r =>
            obtain ⟨form, tail⟩ := r
            simp only [hf, Option.bind_some, pure, Option.some.injEq, Prod.mk.injEq] at h
            obtain ⟨rfl, rfl⟩ := h
            obtain ⟨hd, hbrace⟩ := form?_eq_some hf
            refine ⟨?_, ?_, ?_, hbrace⟩
            · rw [strip?_eq_some hs, ← hd]
              simp
            · simpa using hn
            · intro c hc
              exact List.mem_takeWhile_imp (by simpa using hc)

theorem exists_suffix_of_hole_mem {cs : List Char} {skip : Nat} {p : Placeholder}
    (h : .hole p ∈ segmentsAfter cs skip) : ∃ t, t <:+ cs ∧ ∃ rest, read? t = some (p, rest) := by
  induction cs generalizing skip with
  | nil => simp [segmentsAfter] at h
  | cons c cs ih =>
      have later {skip : Nat} (h : .hole p ∈ segmentsAfter cs skip) :
          ∃ t, t <:+ c :: cs ∧ ∃ rest, read? t = some (p, rest) := by
        obtain ⟨t, ht, hr⟩ := ih h
        exact ⟨t, ht.trans (List.suffix_cons c cs), hr⟩
      cases skip with
      | succ skip => exact later h
      | zero =>
          rw [segmentsAfter] at h
          split at h
          next q rest hq =>
            rcases List.mem_cons.1 h with he | h
            · cases he
              exact ⟨_, List.suffix_rfl, rest, hq⟩
            · exact later h
          next => exact later (by simpa using h)

theorem segmentsAfter_eq_map {cs : List Char} (h : ∀ p, .hole p ∉ segmentsAfter cs 0) :
    segmentsAfter cs 0 = cs.map .char := by
  induction cs with
  | nil => rfl
  | cons c cs ih =>
      rw [segmentsAfter] at h ⊢
      split
      next p rest hr =>
        simp only [hr] at h
        exact absurd (List.mem_cons_self ..) (h p)
      next hr =>
        simp only [hr] at h
        rw [ih fun p hp => h p (List.mem_cons_of_mem _ hp), List.map_cons]

@[simp] theorem mem_all {s : String} {p : Placeholder} : p ∈ all s ↔ .hole p ∈ segments s := by
  constructor
  · intro h
    obtain ⟨g, hg, he⟩ := List.mem_filterMap.1 h
    cases g with
    | char c => simp [ofSegment?] at he
    | hole q => cases he; exact hg
  · exact fun h => List.mem_filterMap.2 ⟨_, h, rfl⟩

theorem inText_eq_true_iff {s : String} : inText s = true ↔ ∃ p, p ∈ all s := by
  simp [inText, List.eq_nil_iff_forall_not_mem]

theorem inText_eq_false_iff {s : String} : inText s = false ↔ all s = [] := by
  simp [inText]

theorem segments_of_not_inText {s : String} (h : inText s = false) :
    segments s = s.toList.map .char := by
  refine segmentsAfter_eq_map fun p hp => ?_
  have hall : p ∈ all s := mem_all.2 hp
  rw [inText_eq_false_iff.1 h] at hall
  simp at hall

theorem exists_suffix_of_inText {cs : List Char} (h : inText (String.ofList cs)) :
    ∃ t, t <:+ cs ∧ ∃ p rest, read? t = some (p, rest) := by
  obtain ⟨p, hp⟩ := inText_eq_true_iff.1 h
  obtain ⟨t, ht, rest, hr⟩ := exists_suffix_of_hole_mem (mem_all.1 hp)
  exact ⟨t, by simpa using ht, p, rest, hr⟩

end Provision.Placeholder
