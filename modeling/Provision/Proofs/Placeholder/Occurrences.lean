import Provision.Proofs.Placeholder.Meaning
import Provision.Proofs.Placeholder.Precheck
import Provision.Proofs.Steps

namespace Provision

namespace Placeholder

variable {path : String} {v : Value} {o : Occurrence} {pos : List Nat}

def members (path : String) : Value → List (String × Value)
  | .list _ xs => xs.zipIdx.map fun e => (joinIndex path e.2, e.1)
  | .map _ es => es.map fun e => (place path e.1, e.2)
  | _ => []

/-- A placeholder stands at a position of a value: its number in the split of a text, after the numbers
of the members that lead to the text. -/
inductive Occurs : String → Value → List Nat → Occurrence → Prop
  | here {path s : String} {ps : List (List Char × Placeholder)} {tail l : List Char} {j : Nat}
      {p : Placeholder} (hs : Splits s.toList ps tail) (hp : ps[j]? = some (l, p)) :
      Occurs path (.text s) [j] ⟨p, path⟩
  | within {path : String} {v : Value} {i : Nat} {e : String × Value} {pos : List Nat} {o : Occurrence}
      (he : (members path v)[i]? = some e) (h : Occurs e.1 e.2 pos o) : Occurs path v (i :: pos) o

/-- The placeholders of a value with their positions, in the order of the positions. -/
structure Walk (path : String) (v : Value) (os : List (List Nat × Occurrence)) : Prop where
  ordered : os.Pairwise fun a b => a.1 < b.1
  mem_iff : ∀ pos o, (pos, o) ∈ os ↔ Occurs path v pos o

structure Walks (es : List (String × Value)) (os : List (List Nat × Occurrence)) : Prop where
  ordered : os.Pairwise fun a b => a.1 < b.1
  mem_iff : ∀ pos o, (pos, o) ∈ os ↔
    ∃ i e rest, pos = i :: rest ∧ es[i]? = some e ∧ Occurs e.1 e.2 rest o

theorem walks_concat {es : List (String × Value)} {e : String × Value}
    {os os' : List (List Nat × Occurrence)} (h : Walks es os) (h' : Walk e.1 e.2 os') :
    Walks (es ++ [e]) (os ++ os'.map fun a => (es.length :: a.1, a.2)) where
  ordered := by
    refine List.pairwise_append.2 ⟨h.ordered, ?_, ?_⟩
    · rw [List.pairwise_map]
      exact h'.ordered.imp fun hab => List.cons_lt_cons_iff.2 (.inr ⟨rfl, hab⟩)
    · rintro ⟨pos, o⟩ ha b hb
      obtain ⟨i, f, rest, rfl, hf, -⟩ := (h.mem_iff _ _).1 ha
      obtain ⟨c, -, rfl⟩ := List.mem_map.1 hb
      have hi : i < es.length := (List.getElem?_eq_some_iff.1 hf).1
      exact List.cons_lt_cons_iff.2 (.inl hi)
  mem_iff := by
    intro pos o
    rw [List.mem_append, h.mem_iff, List.mem_map]
    constructor
    · rintro (⟨i, f, rest, rfl, hf, ho⟩ | ⟨⟨rest, o'⟩, ho, he⟩)
      · refine ⟨i, f, rest, rfl, ?_, ho⟩
        rw [List.getElem?_append_left (List.getElem?_eq_some_iff.1 hf).1, hf]
      · obtain ⟨rfl, rfl⟩ := Prod.mk.inj he
        exact ⟨es.length, e, rest, rfl, by simp, (h'.mem_iff _ _).1 ho⟩
    · rintro ⟨i, f, rest, rfl, hf, ho⟩
      rcases Nat.lt_trichotomy i es.length with hi | rfl | hi
      · rw [List.getElem?_append_left hi] at hf
        exact .inl ⟨i, f, rest, rfl, hf, ho⟩
      · rw [List.getElem?_concat_length] at hf
        obtain rfl := Option.some.inj hf
        exact .inr ⟨(rest, o), (h'.mem_iff _ _).2 ho, rfl⟩
      · rw [List.getElem?_eq_none (by simp; omega)] at hf
        cases hf

theorem exists_walks {es : List (String × Value)}
    (h : ∀ e ∈ es, ∃ os, Walk e.1 e.2 os ∧ os.map (·.2) = occurrences e.1 e.2) :
    ∃ os, Walks es os ∧ os.map (·.2) = es.flatMap fun e => occurrences e.1 e.2 := by
  induction es using List.reverseRecOn with
  | nil => exact ⟨[], ⟨.nil, by simp⟩, rfl⟩
  | append_singleton es e ih =>
      obtain ⟨os, hos, hcollect⟩ := ih fun f hf => h f (List.mem_append_left _ hf)
      obtain ⟨os', hos', hcollect'⟩ := h e (by simp)
      refine ⟨_, walks_concat hos hos', ?_⟩
      simp [hcollect, ← hcollect', List.map_map, Function.comp_def]

theorem leavesItems_eq (path : String) (i : Nat) (xs : List Value) :
    leavesItems path i xs = (xs.zipIdx i).flatMap fun e => leaves (joinIndex path e.2) e.1 := by
  induction xs generalizing i with
  | nil => rfl
  | cons x xs ih => rw [leavesItems, ih, List.zipIdx_cons, List.flatMap_cons]

theorem leavesEntries_eq (path : String) (es : Entries) :
    leavesEntries path es = es.flatMap fun e => leaves (place path e.1) e.2 := by
  induction es with
  | nil => rfl
  | cons e es ih => rw [leavesEntries, ih, List.flatMap_cons]

theorem occurrences_members (path : String) (hv : ∀ s, v ≠ .text s) :
    occurrences path v = (members path v).flatMap fun e => occurrences e.1 e.2 := by
  cases v with
  | text s => exact absurd rfl (hv s)
  | list a xs => simp only [occurrences, leaves, members, leavesItems_eq, List.flatMap_assoc, List.flatMap_map]
  | map a es => simp only [occurrences, leaves, members, leavesEntries_eq, List.flatMap_assoc, List.flatMap_map]
  | _ => rfl

/-- The placeholders of a value without texts of its own are those of its members. -/
theorem Walks.walk {os : List (List Nat × Occurrence)} (h : Walks (members path v) os)
    (hv : ∀ s, v ≠ .text s) : Walk path v os where
  ordered := h.ordered
  mem_iff := by
    intro pos o
    rw [h.mem_iff]
    constructor
    · rintro ⟨i, e, rest, rfl, he, ho⟩
      exact .within he ho
    · intro ho
      cases ho with
      | here => exact absurd rfl (hv _)
      | within he ho => exact ⟨_, _, _, rfl, he, ho⟩

theorem walk_text (path s : String) :
    Walk path (.text s) ((all s).zipIdx.map fun e => ([e.2], ⟨e.1, path⟩)) where
  ordered := by
    rw [List.pairwise_map]
    have hlt := List.pairwise_lt_range' (s := 0) (n := (all s).length) 1
    rw [← List.zipIdx_map_snd, List.pairwise_map] at hlt
    exact hlt.imp fun h => List.cons_lt_cons_iff.2 (.inl h)
  mem_iff := by
    intro pos o
    rw [List.mem_map]
    constructor
    · rintro ⟨⟨p, j⟩, hp, he⟩
      obtain ⟨rfl, rfl⟩ := Prod.mk.inj he
      obtain ⟨ps, tail, hs⟩ := exists_splits s.toList
      rw [List.mem_zipIdx_iff_getElem?, all_of_splits hs, List.getElem?_map] at hp
      obtain ⟨⟨l, q⟩, hq, rfl⟩ := Option.map_eq_some_iff.1 hp
      exact .here hs hq
    · intro ho
      cases ho with
      | here hs hp =>
          refine ⟨(_, _), List.mem_zipIdx_iff_getElem?.2 ?_, rfl⟩
          rw [all_of_splits hs, List.getElem?_map, hp]
          rfl
      | within he => cases he

mutual
/-- The occurrences of a value are visited in the order of their positions. -/
theorem exists_walk : ∀ (v : Value) (path : String),
    ∃ os, Walk path v os ∧ os.map (·.2) = occurrences path v
  | .text s, path => by
      refine ⟨_, walk_text path s, ?_⟩
      have hhere : occurrences path (.text s) = (all s).map (⟨·, path⟩) := by
        simp [occurrences, leaves, Leaf.occurrences]
      rw [hhere, List.map_map, ← List.zipIdx_map_fst 0 (all s), List.map_map, List.zipIdx_map_fst]
      rfl
  | .list a xs, path => by
      have hmembers : ∀ e ∈ members path (.list a xs),
          ∃ os, Walk e.1 e.2 os ∧ os.map (·.2) = occurrences e.1 e.2 := by
        intro e he
        obtain ⟨⟨x, i⟩, hx, rfl⟩ := List.mem_map.1 he
        exact exists_walk_items xs x (List.fst_mem_of_mem_zipIdx hx) _
      obtain ⟨os, hos, hcollect⟩ := exists_walks hmembers
      exact ⟨os, hos.walk (by simp), by rw [hcollect, occurrences_members path (by simp)]⟩
  | .map a es, path => by
      have hmembers : ∀ e ∈ members path (.map a es),
          ∃ os, Walk e.1 e.2 os ∧ os.map (·.2) = occurrences e.1 e.2 := by
        intro e he
        obtain ⟨f, hf, rfl⟩ := List.mem_map.1 he
        exact exists_walk_entries es f hf _
      obtain ⟨os, hos, hcollect⟩ := exists_walks hmembers
      exact ⟨os, hos.walk (by simp), by rw [hcollect, occurrences_members path (by simp)]⟩
  | .null, path | .bool _, path | .int _, path | .real _, path | .bytes _, path | .date .., path
  | .moment .., path | .tuple _, path | .set .., path =>
      ⟨[], (Walks.mk .nil (by simp [members])).walk (by simp), rfl⟩

theorem exists_walk_items : ∀ (xs : List Value), ∀ x ∈ xs, ∀ path : String,
    ∃ os, Walk path x os ∧ os.map (·.2) = occurrences path x
  | x :: xs, y, hy, path => by
      rcases List.mem_cons.1 hy with he | hy
      · rw [he]
        exact exists_walk x path
      · exact exists_walk_items xs y hy path

theorem exists_walk_entries : ∀ (es : List (Value × Value)), ∀ e ∈ es, ∀ path : String,
    ∃ os, Walk path e.2 os ∧ os.map (·.2) = occurrences path e.2
  | (k, v) :: es, f, hf, path => by
      rcases List.mem_cons.1 hf with he | hf
      · rw [he]
        exact exists_walk v path
      · exact exists_walk_entries es f hf path
end

end Placeholder

namespace Reference

open Steps (First)

variable {os : List Occurrence} {o : Occurrence} {name operand : String}

/-- What the references say of some placeholders. -/
structure Merged (os : List Occurrence) (rs : List Reference) : Prop where
  names : rs.map (·.name) = (os.map (·.placeholder.name)).eraseDups
  required : ∀ r ∈ rs, r.required = true ↔ ∃ o ∈ os, o.placeholder = ⟨r.name, .required⟩
  conditional : ∀ r ∈ rs,
    r.conditional = true ↔ ∃ o ∈ os, ∃ operand, o.placeholder = ⟨r.name, .alternate operand⟩
  fallback : ∀ r ∈ rs, ∀ operand, r.fallback = some operand ↔
    First (fun o => ∀ s, o.placeholder ≠ ⟨r.name, .fallback s⟩)
      (fun o => o.placeholder = ⟨r.name, .fallback operand⟩) os
  no_fallback : ∀ r ∈ rs,
    r.fallback = none ↔ ∀ o ∈ os, ∀ operand, o.placeholder ≠ ⟨r.name, .fallback operand⟩
  paths : ∀ r ∈ rs,
    r.paths = ((os.filter (·.placeholder.name = r.name)).map (·.path)).eraseDups

theorem fallback?_eq_some_iff :
    fallback? name o = some operand ↔ o.placeholder = ⟨name, .fallback operand⟩ := by
  obtain ⟨⟨n, f⟩, path⟩ := o
  cases f <;> simp [fallback?]

theorem fallback?_eq_none_iff :
    fallback? name o = none ↔ ∀ operand, o.placeholder ≠ ⟨name, .fallback operand⟩ := by
  simp only [Option.eq_none_iff_forall_ne_some, ne_eq, fallback?_eq_some_iff]

theorem merge_fallback_eq_some_iff :
    (merge os name).fallback = some operand ↔
      First (fun o => ∀ s, o.placeholder ≠ ⟨name, .fallback s⟩)
        (fun o => o.placeholder = ⟨name, .fallback operand⟩) os := by
  rw [merge_fallback, List.findSome?_eq_some_iff]
  simp only [fallback?_eq_some_iff, fallback?_eq_none_iff, First]
  constructor
  · rintro ⟨as, o, bs, hos, ho, has⟩
    exact ⟨as, o, bs, hos, has, ho⟩
  · rintro ⟨as, o, bs, hos, has, ho⟩
    exact ⟨as, o, bs, hos, ho, has⟩

theorem merge_fallback_eq_none_iff :
    (merge os name).fallback = none ↔
      ∀ o ∈ os, ∀ operand, o.placeholder ≠ ⟨name, .fallback operand⟩ := by
  simp only [merge_fallback, List.findSome?_eq_none_iff, fallback?_eq_none_iff]

theorem forall_mem_merge {p : Reference → Prop} (h : ∀ name, p (merge os name)) :
    ∀ r ∈ (names os).map (merge os), p r := by
  intro r hr
  obtain ⟨name, -, rfl⟩ := List.mem_map.1 hr
  exact h name

theorem merged_summary (os : List Occurrence) : Merged os (summary os) where
  names := by
    rw [summary, List.map_map]
    exact (List.map_congr_left fun name _ => merge_name os name).trans (List.map_id _)
  required := forall_mem_merge fun name => by rw [merge_required, merge_name]
  conditional := forall_mem_merge fun name => by rw [merge_conditional, merge_name]
  fallback := forall_mem_merge fun name operand => by rw [merge_fallback_eq_some_iff, merge_name]
  no_fallback := forall_mem_merge fun name => by rw [merge_fallback_eq_none_iff, merge_name]
  paths := forall_mem_merge fun name => by rw [merge_paths, merge_name]

/-- The references of a value are its placeholders merged variable by variable, as a walk that goes
deep first meets them: each variable once, with what any of its placeholders requires, the fallback of
the first that has one, and the paths of the texts in which it stands. There are none to be had if some
key on the way is an integer that is too long to be told. -/
theorem find_merges_walk (path : String) (v : Value) :
    (Placeholder.isPlaced v = true → ∃ os rs, Placeholder.Walk path v os ∧ find v path = .ok rs ∧
      Merged (os.map (·.2)) rs) ∧
    (Placeholder.isPlaced v = false → find v path = .error .tooLong) := by
  refine ⟨fun hplaced => ?_, fun hlong => (Placeholder.walked_find v path).eq_error_iff.2 ⟨hlong, rfl⟩⟩
  obtain ⟨os, hwalk, hcollect⟩ := Placeholder.exists_walk v path
  refine ⟨os, _, hwalk, Placeholder.find_eq_ok_iff.2 ⟨hplaced, rfl⟩, ?_⟩
  rw [hcollect]
  exact merged_summary _

-- The flags do not depend on the order of the forms; the first fallback counts, an empty one as well.
example :
    let v := Value.record [
      ("a", .ofList [.text "$\x7benv.X:+on\x7d$\x7benv.Y\x7d", .text "<$\x7benv.X:=\x7d>"]),
      ("b", .text "$\x7benv.X:=1\x7d$\x7benv.X\x7d$\x7benv.X\x7d")]
    (find v "top").toOption = some [
      { name := "X", fallback := some "", required := true, conditional := true,
        paths := ["top.a[0]", "top.a[1]", "top.b"] },
      { name := "Y", required := true, paths := ["top.a[0]"] }] := by
  decide

/-- Beside a key that is too long to be told no variable is found. -/
theorem nothing_found_beside_long_key :
    ¬ ∀ (path : String) (v : Value), ∃ os rs, Placeholder.Walk path v os ∧ find v path = .ok rs ∧
      Merged (os.map (·.2)) rs := by
  intro h
  let v : Value := .ofEntries [(.text "a", .text "$\x7benv.X\x7d"), (.int longInteger, .int 1)]
  have hlong : Placeholder.isPlaced v = false := by
    simp [v, Value.ofEntries, Placeholder.isPlaced, Placeholder.allPlacedEntries, Value.isShort,
      isLong_longInteger]
  obtain ⟨-, rs, -, hfind, -⟩ := h "" v
  rw [(Placeholder.find_eq_ok_iff.1 hfind).1] at hlong
  cases hlong

end Reference
end Provision
