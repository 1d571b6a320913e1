import Provision.Placeholder.Reference
import Provision.Proofs.Placeholder.Filling
import Provision.Proofs.Value.Shown

namespace Provision.Placeholder

open Steps

def place (path : String) (k : Value) : String :=
  match k with
  | .int _ | .bool _ => path ++ "[" ++ k.wording ++ "]"
  | _ => if path = "" then k.wording else path ++ "." ++ k.wording

theorem joinPath_of_isShort {path : String} {k : Value} (h : k.isShort = true) :
    joinPath path k = .ok (place path k) := by
  rw [joinPath, Value.plain_of_isShort h]
  cases k <;> rfl

theorem joinPath_of_long {path : String} {k : Value} (h : k.isShort = false) :
    joinPath path k = .error .tooLong := by
  rw [joinPath, Value.plain_eq_error_iff.2 ⟨h, rfl⟩]
  rfl

theorem joinPath_eq_ok_iff {path p : String} {k : Value} :
    joinPath path k = .ok p ↔ k.isShort = true ∧ place path k = p := by
  cases h : k.isShort with
  | false => simp [joinPath_of_long h]
  | true => simp [joinPath_of_isShort h]

theorem joinPath_eq_error_iff {path : String} {k : Value} {f : Failure} :
    joinPath path k = .error f ↔ k.isShort = false ∧ f = .tooLong := by
  cases h : k.isShort with
  | false => rw [joinPath_of_long h, Except.error.injEq, eq_comm, and_iff_right rfl]
  | true => simp [joinPath_of_isShort h]

mutual
/-- Whether every key of the mappings in a value can be told. -/
def isPlaced : Value → Bool
  | .list _ xs => allPlaced xs
  | .map _ es => allPlacedEntries es
  | _ => true

def allPlaced : List Value → Bool
  | [] => true
  | x :: xs => isPlaced x && allPlaced xs

def allPlacedEntries : List (Value × Value) → Bool
  | [] => true
  | (k, v) :: es => k.isShort && isPlaced v && allPlacedEntries es
end

structure Leaf where
  path : String
  text : String

mutual
def leaves (path : String) : Value → List Leaf
  | .text s => [⟨path, s⟩]
  | .list _ xs => leavesItems path 0 xs
  | .map _ es => leavesEntries path es
  | _ => []

def leavesItems (path : String) : Nat → List Value → List Leaf
  | _, [] => []
  | i, x :: xs => leaves (joinIndex path i) x ++ leavesItems path (i + 1) xs

def leavesEntries (path : String) : List (Value × Value) → List Leaf
  | [] => []
  | (k, v) :: es => leaves (place path k) v ++ leavesEntries path es
end

def Leaf.occurrences (l : Leaf) : List Occurrence := (all l.text).map (⟨·, l.path⟩)

def occurrences (path : String) (v : Value) : List Occurrence :=
  (leaves path v).flatMap Leaf.occurrences

/-- What a walk through a value finds, if it can tell all places on its way. -/
def Walked {α : Type} (placed : Bool) (r : Except Failure α) (a : α) : Prop :=
  r = if placed then .ok a else .error .tooLong

theorem Walked.eq_ok_iff {α : Type} {placed : Bool} {r : Except Failure α} {a b : α}
    (h : Walked placed r a) : r = .ok b ↔ placed = true ∧ a = b := by
  rw [h]
  cases placed <;> simp

theorem Walked.eq_error_iff {α : Type} {placed : Bool} {r : Except Failure α} {a : α} {f : Failure}
    (h : Walked placed r a) : r = .error f ↔ placed = false ∧ f = .tooLong := by
  rw [h]
  cases placed with
  | false => rw [if_neg (by decide), Except.error.injEq, eq_comm, and_iff_right rfl]
  | true => simp

theorem Walked.append {b c : Bool} {r s : Except Failure (List Occurrence)} {xs ys : List Occurrence}
    (h : Walked b r xs) (h' : Walked c s ys) :
    Walked (b && c) (do let here ← r; return here ++ (← s)) (xs ++ ys) := by
  rw [Walked] at h h'
  rw [h, h']
  cases b <;> cases c <;> rfl

mutual
theorem walked_collect (path : String) : ∀ v : Value,
    Walked (isPlaced v) (Occurrence.collect path v) (occurrences path v)
  | .text s => by simp [Walked, Occurrence.collect, occurrences, leaves, Leaf.occurrences, isPlaced]
  | .list _ xs => by
      rw [Occurrence.collect, occurrences, leaves, isPlaced]
      exact walked_collectItems path 0 xs
  | .map _ es => by
      rw [Occurrence.collect, occurrences, leaves, isPlaced]
      exact walked_collectEntries path es
  | .null | .bool _ | .int _ | .real _ | .bytes _ | .date .. | .moment .. | .tuple _ | .set .. => rfl

theorem walked_collectItems (path : String) : ∀ (i : Nat) (xs : List Value),
    Walked (allPlaced xs) (Occurrence.collectItems path i xs)
      ((leavesItems path i xs).flatMap Leaf.occurrences)
  | _, [] => rfl
  | i, x :: xs => by
      rw [Occurrence.collectItems, leavesItems, List.flatMap_append, allPlaced]
      exact (walked_collect _ x).append (walked_collectItems path (i + 1) xs)

theorem walked_collectEntries (path : String) : ∀ es : List (Value × Value),
    Walked (allPlacedEntries es) (Occurrence.collectEntries path es)
      ((leavesEntries path es).flatMap Leaf.occurrences)
  | [] => rfl
  | (k, v) :: es => by
      rw [Occurrence.collectEntries, leavesEntries, List.flatMap_append, allPlacedEntries]
      cases hk : k.isShort with
      | false =>
          rw [joinPath_of_long hk]
          rfl
      | true =>
          rw [joinPath_of_isShort hk, Bool.true_and]
          exact (walked_collect _ v).append (walked_collectEntries path es)
end

variable {env : Environment}

mutual
/-- Substitution fails only where it fails on some text, or at a key that cannot be told. -/
theorem replace_eq_error {path : String} {f : Failure} : ∀ {v : Value},
    replace env path v = .error f →
      (∃ l ∈ leaves path v, substitute env l.path l.text = .error f) ∨
        isPlaced v = false ∧ f = .tooLong
  | .text s, h => .inl ⟨⟨path, s⟩, by simp [leaves], h⟩
  | .list _ xs, h => by
      simp only [replace, bind_eq_error_iff, pure_ne_error, and_false, exists_false, or_false] at h
      exact replaceItems_eq_error h
  | .map _ es, h => by
      simp only [replace, bind_eq_error_iff, pure_ne_error, and_false, exists_false, or_false] at h
      exact replaceEntries_eq_error h

theorem replaceItems_eq_error {path : String} {f : Failure} : ∀ {i : Nat} {xs : List Value},
    replaceItems env path i xs = .error f →
      (∃ l ∈ leavesItems path i xs, substitute env l.path l.text = .error f) ∨
        allPlaced xs = false ∧ f = .tooLong
  | i, x :: xs, h => by
      simp only [replaceItems, bind_eq_error_iff, pure_ne_error, and_false, exists_false,
        or_false] at h
      rcases h with h | ⟨_, _, h⟩
      · rcases replace_eq_error h with ⟨l, hl, he⟩ | ⟨hx, he⟩
        · exact .inl ⟨l, List.mem_append_left _ hl, he⟩
        · exact .inr ⟨by simp [allPlaced, hx], he⟩
      · rcases replaceItems_eq_error h with ⟨l, hl, he⟩ | ⟨hxs, he⟩
        · exact .inl ⟨l, List.mem_append_right _ hl, he⟩
        · exact .inr ⟨by simp [allPlaced, hxs], he⟩

theorem replaceEntries_eq_error {path : String} {f : Failure} : ∀ {es : List (Value × Value)},
    replaceEntries env path es = .error f →
      (∃ l ∈ leavesEntries path es, substitute env l.path l.text = .error f) ∨
        allPlacedEntries es = false ∧ f = .tooLong
  | (k, v) :: es, h => by
      simp only [replaceEntries, bind_eq_error_iff, pure_ne_error, and_false, exists_false,
        or_false, joinPath_eq_ok_iff, joinPath_eq_error_iff] at h
      rcases h with ⟨hk, he⟩ | ⟨_, ⟨-, rfl⟩, h | ⟨_, _, h⟩⟩
      · exact .inr ⟨by simp [allPlacedEntries, hk], he⟩
      · rcases replace_eq_error h with ⟨l, hl, he⟩ | ⟨hv, he⟩
        · exact .inl ⟨l, List.mem_append_left _ hl, he⟩
        · exact .inr ⟨by simp [allPlacedEntries, hv], he⟩
      · rcases replaceEntries_eq_error h with ⟨l, hl, he⟩ | ⟨hes, he⟩
        · exact .inl ⟨l, List.mem_append_right _ hl, he⟩
        · exact .inr ⟨by simp [allPlacedEntries, hes], he⟩
end

theorem replaceEntries_cons_eq_ok_iff {path : String} {k v : Value} {es fs : List (Value × Value)} :
    replaceEntries env path ((k, v) :: es) = .ok fs ↔ k.isShort = true ∧
      ∃ w, replace env (place path k) v = .ok w ∧
        ∃ gs, replaceEntries env path es = .ok gs ∧ (k, w) :: gs = fs := by
  simp only [replaceEntries, bind_eq_ok_iff, pure_eq_ok_iff, joinPath_eq_ok_iff]
  constructor
  · rintro ⟨_, ⟨hk, rfl⟩, h⟩
    exact ⟨hk, h⟩
  · rintro ⟨hk, h⟩
    exact ⟨_, ⟨hk, rfl⟩, h⟩

theorem eq_text_of_leaf {path path' s : String} {u : Value} (h : substitute env path s = .ok u)
    {l : Leaf} (hl : l ∈ leaves path' u) : l.path = path' ∧ u = .text l.text := by
  rcases substitute_result h with ⟨b, rfl⟩ | ⟨n, rfl⟩ | ⟨x, rfl⟩ | ⟨cs, -, rfl⟩
  · simp [leaves] at hl
  · simp [leaves] at hl
  · simp [leaves] at hl
  · rw [leaves, List.mem_singleton] at hl
    simp [hl]

theorem glue {as bs cs ds : List Leaf}
    (h : ∀ l ∈ as, ∃ k ∈ cs, substitute env k.path k.text = .ok (.text l.text))
    (h' : ∀ l ∈ bs, ∃ k ∈ ds, substitute env k.path k.text = .ok (.text l.text)) :
    ∀ l ∈ as ++ bs, ∃ k ∈ cs ++ ds, substitute env k.path k.text = .ok (.text l.text) := by
  intro l hl
  rcases List.mem_append.1 hl with hl | hl
  · obtain ⟨k, hk, he⟩ := h l hl
    exact ⟨k, List.mem_append_left _ hk, he⟩
  · obtain ⟨k, hk, he⟩ := h' l hl
    exact ⟨k, List.mem_append_right _ hk, he⟩

mutual
/-- Where substitution succeeds it does so on every text, and the texts of the result are what has
become of some of them. -/
theorem replace_eq_ok {path : String} : ∀ {v w : Value}, replace env path v = .ok w →
    (∀ l ∈ leaves path v, ∃ u, substitute env l.path l.text = .ok u) ∧
      ∀ l ∈ leaves path w, ∃ k ∈ leaves path v, substitute env k.path k.text = .ok (.text l.text)
  | .text s, w, h => by
      refine ⟨fun l hl => ?_, fun l hl => ⟨⟨path, s⟩, by simp [leaves], ?_⟩⟩
      · rw [leaves, List.mem_singleton] at hl
        subst hl
        exact ⟨w, h⟩
      · rw [← (eq_text_of_leaf h hl).2]
        exact h
  | .list _ xs, w, h => by
      simp only [replace, bind_eq_ok_iff, pure_eq_ok_iff] at h
      obtain ⟨ys, hys, rfl⟩ := h
      exact replaceItems_eq_ok hys
  | .map _ es, w, h => by
      simp only [replace, bind_eq_ok_iff, pure_eq_ok_iff] at h
      obtain ⟨fs, hfs, rfl⟩ := h
      exact replaceEntries_eq_ok hfs
  | .null, w, h | .bool _, w, h | .int _, w, h | .real _, w, h | .bytes _, w, h
  | .date .., w, h | .moment .., w, h | .tuple _, w, h | .set .., w, h => by
      cases h
      simp [leaves]

theorem replaceItems_eq_ok {path : String} : ∀ {i : Nat} {xs ys : List Value},
    replaceItems env path i xs = .ok ys →
      (∀ l ∈ leavesItems path i xs, ∃ u, substitute env l.path l.text = .ok u) ∧
        ∀ l ∈ leavesItems path i ys, ∃ k ∈ leavesItems path i xs,
          substitute env k.path k.text = .ok (.text l.text)
  | _, [], ys, h => by
      cases h
      simp [leavesItems]
  | i, x :: xs, ys, h => by
      simp only [replaceItems, bind_eq_ok_iff, pure_eq_ok_iff] at h
      obtain ⟨y, hy, ys, hys, rfl⟩ := h
      obtain ⟨hx, hy⟩ := replace_eq_ok hy
      obtain ⟨hxs, hys⟩ := replaceItems_eq_ok hys
      exact ⟨List.forall_mem_append.2 ⟨hx, hxs⟩, glue hy hys⟩

theorem replaceEntries_eq_ok {path : String} : ∀ {es fs : List (Value × Value)},
    replaceEntries env path es = .ok fs →
      (∀ l ∈ leavesEntries path es, ∃ u, substitute env l.path l.text = .ok u) ∧
        ∀ l ∈ leavesEntries path fs, ∃ k ∈ leavesEntries path es,
          substitute env k.path k.text = .ok (.text l.text)
  | [], fs, h => by
      cases h
      simp [leavesEntries]
  | (k, v) :: es, fs, h => by
      obtain ⟨-, w, hw, fs, hfs, rfl⟩ := replaceEntries_cons_eq_ok_iff.1 h
      obtain ⟨hv, hw⟩ := replace_eq_ok hw
      obtain ⟨hes, hfs⟩ := replaceEntries_eq_ok hfs
      exact ⟨List.forall_mem_append.2 ⟨hv, hes⟩, glue hw hfs⟩
end

mutual
/-- Where substitution succeeds all keys can be told, and the result has the same ones. -/
theorem isPlaced_of_replace {path : String} : ∀ {v w : Value}, replace env path v = .ok w →
    isPlaced v = true ∧ isPlaced w = true
  | .text s, w, h => by
      rcases substitute_result h with ⟨b, rfl⟩ | ⟨n, rfl⟩ | ⟨x, rfl⟩ | ⟨cs, -, rfl⟩ <;> exact ⟨rfl, rfl⟩
  | .list _ xs, w, h => by
      simp only [replace, bind_eq_ok_iff, pure_eq_ok_iff] at h
      obtain ⟨ys, hys, rfl⟩ := h
      exact allPlaced_of_replaceItems hys
  | .map _ es, w, h => by
      simp only [replace, bind_eq_ok_iff, pure_eq_ok_iff] at h
      obtain ⟨fs, hfs, rfl⟩ := h
      exact allPlacedEntries_of_replaceEntries hfs
  | .null, w, h | .bool _, w, h | .int _, w, h | .real _, w, h | .bytes _, w, h
  | .date .., w, h | .moment .., w, h | .tuple _, w, h | .set .., w, h => by
      cases h
      exact ⟨rfl, rfl⟩

theorem allPlaced_of_replaceItems {path : String} : ∀ {i : Nat} {xs ys : List Value},
    replaceItems env path i xs = .ok ys → allPlaced xs = true ∧ allPlaced ys = true
  | _, [], ys, h => by
      cases h
      exact ⟨rfl, rfl⟩
  | i, x :: xs, ys, h => by
      simp only [replaceItems, bind_eq_ok_iff, pure_eq_ok_iff] at h
      obtain ⟨y, hy, ys, hys, rfl⟩ := h
      obtain ⟨hx, hy⟩ := isPlaced_of_replace hy
      obtain ⟨hxs, hys⟩ := allPlaced_of_replaceItems hys
      simp [allPlaced, hx, hy, hxs, hys]

theorem allPlacedEntries_of_replaceEntries {path : String} : ∀ {es fs : List (Value × Value)},
    replaceEntries env path es = .ok fs → allPlacedEntries es = true ∧ allPlacedEntries fs = true
  | [], fs, h => by
      cases h
      exact ⟨rfl, rfl⟩
  | (k, v) :: es, fs, h => by
      obtain ⟨hk, w, hw, fs, hfs, rfl⟩ := replaceEntries_cons_eq_ok_iff.1 h
      obtain ⟨hv, hw⟩ := isPlaced_of_replace hw
      obtain ⟨hes, hfs⟩ := allPlacedEntries_of_replaceEntries hfs
      simp [allPlacedEntries, hk, hv, hw, hes, hfs]
end

mutual
/-- A result without placeholders is left alone by any further substitution. -/
theorem replace_again {path : String} : ∀ {v w : Value}, replace env path v = .ok w →
    (∀ l ∈ leaves path w, inText l.text = false) →
      ∀ env' : Environment, replace env' path w = .ok w
  | .text s, w, h, hw, env' => by
      rcases substitute_result h with ⟨b, rfl⟩ | ⟨n, rfl⟩ | ⟨x, rfl⟩ | ⟨cs, -, rfl⟩
      · rfl
      · rfl
      · rfl
      · exact substitute_of_not_inText (hw ⟨path, String.ofList cs⟩ (by simp [leaves]))
  | .list _ xs, w, h, hw, env' => by
      simp only [replace, bind_eq_ok_iff, pure_eq_ok_iff] at h
      obtain ⟨ys, hys, rfl⟩ := h
      rw [replace, replaceItems_again hys hw env']
      rfl
  | .map _ es, w, h, hw, env' => by
      simp only [replace, bind_eq_ok_iff, pure_eq_ok_iff] at h
      obtain ⟨fs, hfs, rfl⟩ := h
      rw [replace, replaceEntries_again hfs hw env']
      rfl
  | .null, w, h, _, _ | .bool _, w, h, _, _ | .int _, w, h, _, _ | .real _, w, h, _, _
  | .bytes _, w, h, _, _ | .date .., w, h, _, _ | .moment .., w, h, _, _ | .tuple _, w, h, _, _
  | .set .., w, h, _, _ => by
      cases h
      rfl

theorem replaceItems_again {path : String} : ∀ {i : Nat} {xs ys : List Value},
    replaceItems env path i xs = .ok ys →
      (∀ l ∈ leavesItems path i ys, inText l.text = false) →
        ∀ env' : Environment, replaceItems env' path i ys = .ok ys
  | _, [], ys, h, _, _ => by
      cases h
      rfl
  | i, x :: xs, ys, h, hl, env' => by
      simp only [replaceItems, bind_eq_ok_iff, pure_eq_ok_iff] at h
      obtain ⟨y, hy, ys, hys, rfl⟩ := h
      rw [leavesItems, List.forall_mem_append] at hl
      rw [replaceItems, replace_again hy hl.1 env', replaceItems_again hys hl.2 env']
      rfl

theorem replaceEntries_again {path : String} : ∀ {es fs : List (Value × Value)},
    replaceEntries env path es = .ok fs →
      (∀ l ∈ leavesEntries path fs, inText l.text = false) →
        ∀ env' : Environment, replaceEntries env' path fs = .ok fs
  | [], fs, h, _, _ => by
      cases h
      rfl
  | (k, v) :: es, fs, h, hl, env' => by
      obtain ⟨hk, w, hw, fs, hfs, rfl⟩ := replaceEntries_cons_eq_ok_iff.1 h
      rw [leavesEntries, List.forall_mem_append] at hl
      rw [replaceEntries_cons_eq_ok_iff]
      exact ⟨hk, w, replace_again hw hl.1 env', fs, replaceEntries_again hfs hl.2 env', rfl⟩
end

end Provision.Placeholder
