import Mathlib.Data.List.Induction
import Mathlib.Data.List.Nodup
import Provision.Placeholder.Reference

namespace Provision.Reference

def names (os : List Occurrence) : List String := (os.map (·.placeholder.name)).eraseDups

/-- All occurrences of a variable in one reference. -/
def merge (os : List Occurrence) (name : String) : Reference :=
  (os.filter (·.placeholder.name = name)).foldl note { name }

def fallback? (name : String) (o : Occurrence) : Option String :=
  match o.placeholder with
  | ⟨n, .fallback operand⟩ => if n = name then some operand else none
  | _ => none

theorem eraseDups_concat (as : List String) (a : String) :
    (as ++ [a]).eraseDups = if a ∈ as then as.eraseDups else as.eraseDups ++ [a] := by
  rw [List.eraseDups_append, List.removeAll, List.filter_singleton]
  by_cases h : a ∈ as
  · have he : as.elem a = true := by simpa using h
    rw [he, if_pos h]
    simp
  · have he : as.elem a = false := by simpa using h
    rw [he, if_neg h]
    simp [List.eraseDups_cons]

theorem eraseDups_append_eraseDups (as bs : List String) :
    (as ++ bs.eraseDups).eraseDups = (as ++ bs).eraseDups := by
  induction bs using List.reverseRecOn with
  | nil => rfl
  | append_singleton bs b ih =>
      rw [eraseDups_concat, ← List.append_assoc as, eraseDups_concat]
      split
      next hb => rw [ih, if_pos (List.mem_append_right _ hb)]
      next =>
        rw [← List.append_assoc, eraseDups_concat, ih]
        simp only [List.mem_append, List.mem_eraseDups]

theorem eraseDups_eraseDups_append (as bs : List String) :
    (as.eraseDups ++ bs).eraseDups = (as ++ bs).eraseDups := by
  induction bs using List.reverseRecOn with
  | nil => simpa using eraseDups_append_eraseDups [] as
  | append_singleton bs b ih =>
      rw [← List.append_assoc, ← List.append_assoc, eraseDups_concat, eraseDups_concat, ih]
      simp only [List.mem_append, List.mem_eraseDups]

/-- What occurs first in parts that are already without repetition occurs first in the whole. -/
theorem eraseDups_flatMap {α : Type} (f : α → List String) (xs : List α) :
    (xs.flatMap fun x => (f x).eraseDups).eraseDups = (xs.flatMap f).eraseDups := by
  induction xs using List.reverseRecOn with
  | nil => rfl
  | append_singleton xs x ih =>
      simp only [List.flatMap_append, List.flatMap_singleton]
      rw [eraseDups_append_eraseDups, ← eraseDups_eraseDups_append, ih, eraseDups_eraseDups_append]

theorem pairwise_eraseDups {α : Type} {R : α → α → Prop} (f : α → String) {os : List α}
    (h : os.Pairwise R) : (os.map f).eraseDups.Pairwise fun n n' =>
      ∃ o ∈ os, f o = n ∧ ∀ o' ∈ os, f o' = n' → R o o' := by
  induction os using List.reverseRecOn with
  | nil => exact .nil
  | append_singleton os a ih =>
      obtain ⟨hos, -, hlast⟩ := List.pairwise_append.1 h
      have hwiden : (os.map f).eraseDups.Pairwise fun n n' =>
          ∃ o ∈ os ++ [a], f o = n ∧ ∀ o' ∈ os ++ [a], f o' = n' → R o o' := by
        refine (ih hos).imp ?_
        rintro n n' ⟨o, ho, hn, hfirst⟩
        refine ⟨o, List.mem_append_left _ ho, hn, fun o' ho' hn' => ?_⟩
        rcases List.mem_append.1 ho' with ho' | ho'
        · exact hfirst o' ho' hn'
        · exact hlast o ho o' ho'
      rw [List.map_append, List.map_singleton, eraseDups_concat]
      split
      next => exact hwiden
      next hnew =>
        refine List.pairwise_append.2 ⟨hwiden, List.pairwise_singleton _ _, ?_⟩
        intro n hn n' hn'
        obtain ⟨o, ho, rfl⟩ := List.mem_map.1 (List.mem_eraseDups.1 hn)
        rw [List.mem_singleton.1 hn']
        refine ⟨o, List.mem_append_left _ ho, rfl, fun o' ho' hname => ?_⟩
        rcases List.mem_append.1 ho' with ho' | ho'
        · exact absurd (hname ▸ List.mem_map_of_mem ho') hnew
        · exact hlast o ho o' ho'

theorem note_name (r : Reference) (o : Occurrence) : (r.note o).name = r.name := by
  obtain ⟨⟨n, f⟩, path⟩ := o
  cases f <;> simp only [note] <;> split <;> rfl

theorem note_required (r : Reference) (o : Occurrence) :
    (r.note o).required = (r.required || o.placeholder.form = .required) := by
  obtain ⟨⟨n, f⟩, path⟩ := o
  cases f <;> simp only [note] <;> split <;> simp

theorem note_conditional (r : Reference) (o : Occurrence) :
    (r.note o).conditional = (r.conditional || o.placeholder.form matches .alternate _) := by
  obtain ⟨⟨n, f⟩, path⟩ := o
  cases f <;> simp only [note] <;> split <;> simp

theorem note_fallback (r : Reference) (o : Occurrence) :
    (r.note o).fallback = r.fallback.or (fallback? o.placeholder.name o) := by
  obtain ⟨⟨n, f⟩, path⟩ := o
  cases f <;> simp only [note] <;> split <;> simp [fallback?]

theorem note_paths (r : Reference) (o : Occurrence) :
    (r.note o).paths = if o.path ∈ r.paths then r.paths else r.paths ++ [o.path] := by
  obtain ⟨⟨n, f⟩, path⟩ := o
  cases f <;> simp only [note] <;> split <;> rfl

theorem foldl_note_name (os : List Occurrence) (r : Reference) :
    (os.foldl note r).name = r.name := by
  induction os generalizing r with
  | nil => rfl
  | cons o os ih => rw [List.foldl_cons, ih, note_name]

/-- A flag that each occurrence raises or leaves as it is. -/
theorem foldl_note_flag {flag : Reference → Bool} {raises : Form → Bool}
    (hflag : ∀ r o, flag (note r o) = (flag r || raises o.placeholder.form)) (os : List Occurrence)
    (r : Reference) :
    flag (os.foldl note r) = (flag r || os.any (raises ·.placeholder.form)) := by
  induction os generalizing r with
  | nil => simp
  | cons o os ih => rw [List.foldl_cons, ih, hflag, List.any_cons, Bool.or_assoc]

@[simp] theorem merge_name (os : List Occurrence) (name : String) :
    (merge os name).name = name :=
  foldl_note_name _ _

theorem merge_flag {flag : Reference → Bool} (raises : Form → Bool)
    (hflag : ∀ r o, flag (note r o) = (flag r || raises o.placeholder.form)) {name : String}
    (hfresh : flag { name } = false) {os : List Occurrence} :
    flag (merge os name) = true ↔
      ∃ o ∈ os, o.placeholder.name = name ∧ raises o.placeholder.form = true := by
  rw [merge, foldl_note_flag hflag, hfresh]
  simp only [Bool.false_or, List.any_eq_true, List.mem_filter, decide_eq_true_eq, and_assoc]

theorem merge_required {os : List Occurrence} {name : String} :
    (merge os name).required = true ↔ ∃ o ∈ os, o.placeholder = ⟨name, .required⟩ := by
  rw [merge_flag (· = .required) note_required rfl]
  constructor
  · rintro ⟨o, ho, hn, hf⟩
    exact ⟨o, ho, by rw [← hn, ← of_decide_eq_true hf]⟩
  · rintro ⟨o, ho, he⟩
    exact ⟨o, ho, by rw [he], by rw [he]; rfl⟩

theorem merge_conditional {os : List Occurrence} {name : String} :
    (merge os name).conditional = true ↔
      ∃ o ∈ os, ∃ operand, o.placeholder = ⟨name, .alternate operand⟩ := by
  rw [merge_flag (· matches .alternate _) note_conditional rfl]
  constructor
  · rintro ⟨⟨⟨n, f⟩, path⟩, ho, rfl, hf⟩
    cases f with
    | alternate operand => exact ⟨_, ho, operand, rfl⟩
    | required => cases hf
    | fallback => cases hf
  · rintro ⟨o, ho, operand, he⟩
    exact ⟨o, ho, by rw [he], by rw [he]⟩

theorem merge_concat (os : List Occurrence) (o : Occurrence) (name : String) :
    merge (os ++ [o]) name =
      if o.placeholder.name = name then (merge os name).note o else merge os name := by
  rw [merge, List.filter_append, List.foldl_append]
  split
  next h => simp [merge, h]
  next h => simp [merge, h]

theorem merge_fallback (os : List Occurrence) (name : String) :
    (merge os name).fallback = os.findSome? (fallback? name) := by
  induction os using List.reverseRecOn with
  | nil => rfl
  | append_singleton os o ih =>
      rw [merge_concat, List.findSome?_append, ← ih, List.findSome?_singleton]
      split
      next h => rw [note_fallback, h]
      next h =>
        have hnone : fallback? name o = none := by
          obtain ⟨⟨n, f⟩, path⟩ := o
          cases f <;> simp_all [fallback?]
        rw [hnone, Option.or_none]

theorem merge_paths (os : List Occurrence) (name : String) :
    (merge os name).paths = ((os.filter (·.placeholder.name = name)).map (·.path)).eraseDups := by
  induction os using List.reverseRecOn with
  | nil => rfl
  | append_singleton os o ih =>
      rw [merge_concat, List.filter_append, List.map_append]
      by_cases h : o.placeholder.name = name
      · rw [if_pos h, note_paths, ih, List.filter_singleton, decide_eq_true h]
        simp only [cond_true, List.map_singleton, List.mem_eraseDups]
        rw [eraseDups_concat]
      · rw [if_neg h, ih, List.filter_singleton, decide_eq_false h]
        simp

theorem mem_merge_paths {os : List Occurrence} {name path : String} :
    path ∈ (merge os name).paths ↔ ∃ o ∈ os, o.placeholder.name = name ∧ o.path = path := by
  simp [merge_paths, and_assoc]

theorem mem_names {os : List Occurrence} {name : String} :
    name ∈ names os ↔ ∃ o ∈ os, o.placeholder.name = name := by
  simp [names]

theorem names_concat (os : List Occurrence) (o : Occurrence) :
    names (os ++ [o]) =
      if o.placeholder.name ∈ names os then names os else names os ++ [o.placeholder.name] := by
  rw [names, List.map_append, List.map_singleton, eraseDups_concat]
  simp only [names, List.mem_eraseDups]

theorem names_nodup (os : List Occurrence) : (names os).Nodup := by
  induction os using List.reverseRecOn with
  | nil => simp [names]
  | append_singleton os o ih =>
      rw [names_concat]
      split
      next => exact ih
      next h =>
        refine List.nodup_append.2 ⟨ih, List.nodup_singleton _, ?_⟩
        intro n hn k hk he
        rw [List.mem_singleton] at hk
        exact h (hk ▸ he ▸ hn)

/-- An occurrence is added to the one reference of its variable, or begins a new one. -/
theorem insert_map {ns : List String} (hn : ns.Nodup) (g : String → Reference)
    (hg : ∀ n, (g n).name = n) (o : Occurrence) :
    insert (ns.map g) o =
      if o.placeholder.name ∈ ns then
        ns.map fun n => if o.placeholder.name = n then (g n).note o else g n
      else ns.map g ++ [note { name := o.placeholder.name } o] := by
  induction ns with
  | nil => simp [insert]
  | cons n ns ih =>
      obtain ⟨hnot, hn⟩ := List.nodup_cons.1 hn
      by_cases he : o.placeholder.name = n
      · subst he
        have hrest : ns.map (fun k => if o.placeholder.name = k then (g k).note o else g k)
            = ns.map g := by
          apply List.map_congr_left
          intro k hk
          rw [if_neg]
          rintro rfl
          exact hnot hk
        rw [List.map_cons, insert, if_pos (hg _), if_pos List.mem_cons_self, List.map_cons, hrest,
          if_pos rfl]
      · have he' : (g n).name ≠ o.placeholder.name := fun h => he (by rw [← h, hg])
        rw [List.map_cons, insert, if_neg he', ih hn]
        simp only [List.mem_cons, he, false_or, List.map_cons, if_false]
        split <;> rfl

/-- The merged occurrences of each variable, in the order of first occurrence. -/
def summary (os : List Occurrence) : List Reference := (names os).map (merge os)

theorem mem_summary {os : List Occurrence} {r : Reference} :
    r ∈ summary os ↔ ∃ o ∈ os, r = merge os o.placeholder.name := by
  rw [summary, List.mem_map]
  constructor
  · rintro ⟨n, hn, rfl⟩
    obtain ⟨o, ho, rfl⟩ := mem_names.1 hn
    exact ⟨o, ho, rfl⟩
  · rintro ⟨o, ho, rfl⟩
    exact ⟨_, mem_names.2 ⟨o, ho, rfl⟩, rfl⟩

theorem foldl_insert_eq_summary (os : List Occurrence) : os.foldl insert [] = summary os := by
  induction os using List.reverseRecOn with
  | nil => rfl
  | append_singleton os o ih =>
      have hins := insert_map (names_nodup os) _ (merge_name os) o
      rw [List.foldl_append, ih, List.foldl_cons, List.foldl_nil, summary, hins, summary, names_concat]
      split
      next => exact List.map_congr_left fun n _ => (merge_concat os o n).symm
      next h =>
        have hkeep : ∀ n ∈ names os, merge (os ++ [o]) n = merge os n := by
          intro n hn
          rw [merge_concat, if_neg]
          rintro rfl
          exact h hn
        have hnew : merge os o.placeholder.name = { name := o.placeholder.name } := by
          have hnil : os.filter (·.placeholder.name = o.placeholder.name) = [] := by
            apply List.filter_eq_nil_iff.2
            intro k hk he
            exact h (mem_names.2 ⟨k, hk, of_decide_eq_true he⟩)
          rw [merge, hnil]
          rfl
        rw [List.map_append, List.map_congr_left hkeep, List.map_singleton, merge_concat, if_pos rfl,
          hnew]

end Provision.Reference
