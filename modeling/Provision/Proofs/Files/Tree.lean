import Provision.Files.Tree
import Provision.Proofs.Steps

namespace Provision

theorem lookup_replace {α β : Type} [DecidableEq α] [BEq α] [LawfulBEq α] (es : List (α × β)) (key : α)
    (n : β) (p : α) :
    (es.map fun e => if e.1 = key then (e.1, n) else e).lookup p =
      if p = key then (es.lookup p).map fun _ => n else es.lookup p := by
  induction es with
  | nil => simp
  | cons e es ih =>
      obtain ⟨q, m⟩ := e
      rw [List.map_cons, List.lookup_cons, List.lookup_cons]
      by_cases hq : q = key
      · subst hq
        by_cases hp : p = q
        · simp [hp]
        · have hbeq : (p == q) = false := by simpa using hp
          simp [hbeq, hp, ih]
      · by_cases hp : p = q
        · subst hp
          simp [hq]
        · have hbeq : (p == q) = false := by simpa using hp
          simp [hq, hbeq, ih]

namespace Tree

open Steps

variable {t t' t'' : Tree} {place here : List String} {path : String} {P Q : List String → Prop}

@[simp]
theorem cwd_put (t : Tree) (place : List String) (n : Node) : (t.put place n).cwd = t.cwd := rfl

theorem node?_of_isPrefixOf (h : place.isPrefixOf t.cwd = true) : t.node? place = some .directory := by
  rw [node?, if_pos h]

theorem node?_cwd (t : Tree) : t.node? t.cwd = some .directory :=
  node?_of_isPrefixOf (List.isPrefixOf_iff_prefix.2 (List.prefix_refl t.cwd))

/-- A path names the same place wherever the working directory is the same. -/
theorem place?_eq_of_cwd (h : t'.cwd = t.cwd) : t'.place? = t.place? := by
  funext path
  rw [place?, place?, start, start, h]

/-- What is put at a place counts until something else is put there. -/
theorem put_put (t : Tree) (place : List String) (n n' : Node) :
    (t.put place n).put place n' = t.put place n' := by
  cases hthere : t.nodes.lookup place with
  | some m =>
      simp only [put, hthere, Option.isSome_some, if_true, lookup_replace, Option.map_some, List.map_map]
      congr 2
      funext e
      rw [Function.comp_apply]
      split <;> simp [*]
  | none =>
      have hother : t.nodes.map (fun e => if e.1 = place then (e.1, n') else e) = t.nodes := by
        refine (List.map_congr_left fun e he => if_neg ?_).trans (List.map_id' _)
        rintro rfl
        have hne := List.lookup_eq_none_iff.1 hthere e he
        simp at hne
      simp [put, hthere, List.lookup_append, hother]

theorem node?_put (h : t.node? place ≠ some .directory) (n : Node) (p : List String) :
    (t.put place n).node? p = if p = place then some n else t.node? p := by
  have hplace : place.isPrefixOf t.cwd = false := Bool.eq_false_iff.2 (mt node?_of_isPrefixOf h)
  rw [node?, node?, cwd_put]
  by_cases hp : p.isPrefixOf t.cwd = true
  · have hne : p ≠ place := by
      rintro rfl
      rw [hp] at hplace
      cases hplace
    rw [if_pos hp, if_neg hne, if_pos hp]
  rw [if_neg hp, if_neg hp, put]
  dsimp only
  cases hthere : t.nodes.lookup place with
  | some m =>
      rw [Option.isSome_some, if_pos rfl, lookup_replace]
      split
      next he => rw [he, hthere, Option.map_some]
      next => rfl
  | none =>
      rw [Option.isSome_none, if_neg (by decide), List.lookup_append]
      split
      next he => simp [he, hthere]
      next he =>
        have hbeq : (p == place) = false := by simpa using he
        simp [List.lookup_cons, hbeq]

/-- Directories stay, and so do files but for those at some places. -/
structure Keeps (P : List String → Prop) (t t' : Tree) : Prop where
  cwd : t'.cwd = t.cwd
  directories : ∀ p, t.node? p = some .directory → t'.node? p = some .directory
  files : ∀ p c, ¬ P p → t.node? p = some (.file c) → t'.node? p = some (.file c)

theorem Keeps.refl (t : Tree) : Keeps P t t := ⟨rfl, fun _ h => h, fun _ _ _ h => h⟩

theorem Keeps.trans (h : Keeps P t t') (h' : Keeps P t' t'') : Keeps P t t'' where
  cwd := h'.cwd.trans h.cwd
  directories := fun p hp => h'.directories p (h.directories p hp)
  files := fun p c hP hp => h'.files p c hP (h.files p c hP hp)

theorem Keeps.mono (h : Keeps P t t') (hPQ : ∀ p, P p → Q p) : Keeps Q t t' where
  cwd := h.cwd
  directories := h.directories
  files := fun p c hQ => h.files p c (mt (hPQ p) hQ)

theorem keeps_put (h : t.node? place ≠ some .directory) (n : Node) :
    Keeps (· = place) t (t.put place n) where
  cwd := rfl
  directories := by
    intro p hp
    have hne : p ≠ place := by
      rintro rfl
      exact h hp
    rw [node?_put h, if_neg hne, hp]
  files := by
    intro p c hne hp
    rw [node?_put h, if_neg hne, hp]

theorem keeps_put_of_absent (h : t.node? place = none) (n : Node) :
    Keeps P t (t.put place n) := by
  have hput := keeps_put (by rw [h]; nofun) n
  refine ⟨rfl, hput.directories, fun p c _ hp => hput.files p c ?_ hp⟩
  rintro rfl
  rw [h] at hp
  cases hp

structure Widens (t t' : Tree) : Prop where
  cwd : t'.cwd = t.cwd
  directories : ∀ p, t.node? p = some .directory → t'.node? p = some .directory
  files : ∀ p c, t'.node? p = some (.file c) ↔ t.node? p = some (.file c)

theorem Widens.refl (t : Tree) : Widens t t := ⟨rfl, fun _ h => h, fun _ _ => Iff.rfl⟩

theorem Widens.trans (h : Widens t t') (h' : Widens t' t'') : Widens t t'' where
  cwd := h'.cwd.trans h.cwd
  directories := fun p hp => h'.directories p (h.directories p hp)
  files := fun p c => (h'.files p c).trans (h.files p c)

theorem Widens.keeps (h : Widens t t') : Keeps P t t' :=
  ⟨h.cwd, h.directories, fun p c _ => (h.files p c).2⟩

theorem widens_put_of_absent (h : t.node? place = none) : Widens t (t.put place .directory) where
  cwd := rfl
  directories := (keeps_put_of_absent (P := fun _ => False) h .directory).directories
  files := by
    intro p c
    rw [node?_put (by rw [h]; nofun)]
    split
    next hp =>
      subst hp
      rw [h]
      exact ⟨nofun, nofun⟩
    next => exact Iff.rfl

theorem follow_eq_ok {parts : List String} (h : t.follow here parts = .ok place) :
    place = parts.foldl Path.step here := by
  induction parts generalizing here with
  | nil => exact (Except.ok.inj h).symm
  | cons part parts ih =>
      rw [follow] at h
      split at h
      next => cases h
      next => cases h
      next => exact ih h

theorem follow_of_directories
    (hd : ∀ p, t.node? p = some .directory → t'.node? p = some .directory) {parts : List String}
    (h : t.follow here parts = .ok place) : t'.follow here parts = .ok place := by
  induction parts generalizing here with
  | nil => exact h
  | cons part parts ih =>
      rw [follow] at h ⊢
      split at h
      next => cases h
      next => cases h
      next hhere =>
        rw [hd here hhere]
        exact ih h

theorem locate_eq_ok (h : t.locate path = .ok place) :
    path ≠ "" ∧ t.follow (t.start path) (Path.partsOf path) = .ok place ∧
      ∀ c, t.node? place = some (.file c) → namesDirectory path = false := by
  rw [locate] at h
  split at h
  next => cases h
  next hne =>
    split at h
    next => cases h
    next q hfollow =>
      split at h
      next c hq =>
        split at h
        next => cases h
        next hdir =>
          cases h
          exact ⟨hne, hfollow, fun _ _ => by simpa using hdir⟩
      next hnone =>
        cases h
        exact ⟨hne, hfollow, fun c hc => absurd hc (hnone c)⟩

theorem place?_of_locate (h : t.locate path = .ok place) : t.place? path = some place := by
  obtain ⟨hne, hfollow, -⟩ := locate_eq_ok h
  rw [place?, if_neg hne, follow_eq_ok hfollow]

theorem locate_of_directories (hcwd : t'.cwd = t.cwd)
    (hd : ∀ p, t.node? p = some .directory → t'.node? p = some .directory)
    (hfile : namesDirectory path = false) (h : t.locate path = .ok place) :
    t'.locate path = .ok place := by
  obtain ⟨hne, hfollow, -⟩ := locate_eq_ok h
  have hstart : t'.start path = t.start path := by rw [start, start, hcwd]
  rw [locate, if_neg hne, hstart, follow_of_directories hd hfollow, hfile]
  split
  next => contradiction
  next q hq =>
    cases hq
    split <;> rfl

theorem Keeps.locate (h : Keeps P t t') (hfile : namesDirectory path = false)
    (hlocate : t.locate path = .ok place) : t'.locate path = .ok place :=
  locate_of_directories h.cwd h.directories hfile hlocate

theorem content?_eq_ok_iff {c : Content} : t.content? path = .ok c ↔
    ∃ place, t.locate path = .ok place ∧ t.node? place = some (.file c) := by
  rw [content?]
  cases hlocate : t.locate path with
  | error f => simp
  | ok q =>
      cases hq : t.node? q with
      | none => simp [hq]
      | some n => cases n <;> simp [hq]

theorem contains_of_content? {c : Content} (h : t.content? path = .ok c) : t.contains path = true := by
  obtain ⟨place, hlocate, hfile⟩ := content?_eq_ok_iff.1 h
  rw [contains, find?, hlocate]
  simp [hfile]

theorem node?_eq_none_of_contains (h : t.contains path = false) (hlocate : t.locate path = .ok place) :
    t.node? place = none := by
  rw [contains, find?, hlocate] at h
  simpa using h

/-- A file is to be written where there is none, or one already, under a path that names no directory. -/
theorem target_eq_ok {old : Option Content} (h : t.target path = .ok (place, old)) :
    t.locate path = .ok place ∧ namesDirectory path = false ∧ t.node? place ≠ some .directory := by
  rw [target] at h
  split at h
  next => cases h
  next q hlocate =>
    split at h
    next d hq =>
      cases h
      exact ⟨hlocate, (locate_eq_ok hlocate).2.2 d hq, by rw [hq]; nofun⟩
    next => cases h
    next hq =>
      split at h
      next => cases h
      next =>
        split at h
        next => cases h
        next hdir =>
          cases h
          exact ⟨hlocate, by simpa using hdir, by rw [hq]; nofun⟩

theorem write_of_target {old : Option Content} (h : t.target path = .ok (place, old)) (c : Content) :
    t.write path c = .ok (t.put place (.file c)) := by
  rw [write, h]
  rfl

theorem exists_target_of_write {c : Content} (h : t.write path c = .ok t') :
    ∃ place old, t.target path = .ok (place, old) ∧ t' = t.put place (.file c) := by
  obtain ⟨⟨place, old⟩, htarget, hput⟩ := bind_eq_ok_iff.1 h
  exact ⟨place, old, htarget, (pure_eq_ok_iff.1 hput).symm⟩

theorem write_eq_ok {c : Content} (h : t.write path c = .ok t') :
    ∃ place, t.locate path = .ok place ∧ namesDirectory path = false ∧
      t.node? place ≠ some .directory ∧ t' = t.put place (.file c) := by
  obtain ⟨place, old, htarget, rfl⟩ := exists_target_of_write h
  obtain ⟨hlocate, hfile, hnode⟩ := target_eq_ok htarget
  exact ⟨place, hlocate, hfile, hnode, rfl⟩

/-- Where a file has been written it can be written again, as if for the first time. -/
theorem write_write {c : Content} (h : t.write path c = .ok t') (c' : Content) :
    ∃ t'', t.write path c' = .ok t'' ∧ t'.write path c' = .ok t'' := by
  obtain ⟨place, old, htarget, rfl⟩ := exists_target_of_write h
  obtain ⟨hlocate, hfile, hnode⟩ := target_eq_ok htarget
  have hagain : (t.put place (.file c)).target path = .ok (place, some c) := by
    rw [target, (keeps_put hnode (.file c)).locate hfile hlocate]
    dsimp only
    rw [node?_put hnode, if_pos rfl]
  exact ⟨_, write_of_target htarget c', (write_of_target hagain c').trans (by rw [put_put])⟩

theorem keeps_write {c : Content} (h : t.write path c = .ok t') :
    Keeps (fun p => t.place? path = some p) t t' := by
  obtain ⟨place, hlocate, -, hnode, rfl⟩ := write_eq_ok h
  refine (keeps_put hnode _).mono ?_
  rintro p rfl
  exact place?_of_locate hlocate

theorem content?_of_write {c : Content} (h : t.write path c = .ok t') : t'.content? path = .ok c := by
  obtain ⟨place, hlocate, hfile, hnode, rfl⟩ := write_eq_ok h
  exact content?_eq_ok_iff.2 ⟨place, (keeps_put hnode (.file c)).locate hfile hlocate,
    by rw [node?_put hnode, if_pos rfl]⟩

def Writable (t : Tree) (path : String) : Prop :=
  '\x00' ∉ path.toList ∧ ∃ place old, t.target path = .ok (place, old)

theorem write_of_writable (h : t.Writable path) (c : Content) : ∃ t', t.write path c = .ok t' := by
  obtain ⟨-, place, old, htarget⟩ := h
  exact ⟨_, write_of_target htarget c⟩

theorem writable_of_write {c : Content} (hpath : t.Writable path) (h : t.write path c = .ok t') :
    t'.Writable path := by
  obtain ⟨place, hlocate, hfile⟩ := content?_eq_ok_iff.1 (content?_of_write h)
  refine ⟨hpath.1, place, some c, ?_⟩
  rw [target, hlocate]
  dsimp only
  rw [hfile]

def held (t : Tree) (path : String) : Content := (t.content? path).toOption.getD (.text "")

theorem held_of_write {c : Content} (h : t.write path c = .ok t') : t'.held path = c := by
  rw [held, content?_of_write h]
  rfl

/-- Writing at the end of a file is writing all that it then holds. -/
theorem append_eq_write (t : Tree) (path s : String) :
    t.append path s = t.write path ((t.held path).append s) := by
  rw [append, write, held, content?, target]
  cases t.locate path with
  | error f => rfl
  | ok place =>
      dsimp only
      cases t.node? place with
      | none =>
          dsimp only
          split
          next => rfl
          next => split <;> rfl
      | some n => cases n <;> rfl

theorem ne_empty_of_writable (h : t.Writable path) : path ≠ "" := by
  rintro rfl
  obtain ⟨-, place, old, htarget⟩ := h
  cases htarget

theorem widens_makeDirectory (h : t.makeDirectory path = .ok t') : Widens t t' := by
  rw [makeDirectory] at h
  split at h
  next => cases h
  next place _ =>
    split at h
    next => cases h
    next habsent =>
      split at h
      next => cases h
      next =>
        rw [← Except.ok.inj h]
        exact widens_put_of_absent (by simpa using habsent)

theorem widens_makeDirectories (fuel : Nat) (withParents : Bool) (p : Path) (t : Tree) :
    Widens t (makeDirectories fuel withParents p t).1 := by
  induction fuel generalizing withParents p t with
  | zero => exact .refl t
  | succ fuel ih =>
      rw [makeDirectories]
      split
      next t' hmade => exact widens_makeDirectory hmade
      next =>
        split
        next => exact .refl t
        next =>
          have hparents := ih true p.parent t
          split
          next t' hmade =>
            rw [hmade] at hparents
            exact hparents.trans (ih false p t')
          next => exact hparents
      next => exact .refl t

end Tree
end Provision
