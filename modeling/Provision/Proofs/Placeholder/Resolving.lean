import Provision.Proofs.Placeholder.Leaves
import Provision.Proofs.Value.Equality

namespace Provision.Placeholder

open Steps

variable {env : Environment}

mutual
theorem replace_path {path : String} : ∀ {v w : Value}, replace env path v = .ok w →
    ∀ path', replace env path' v = .ok w
  | .text _, _, h, path' => substitute_path h path'
  | .list _ xs, w, h, path' => by
      simp only [replace, bind_eq_ok_iff, pure_eq_ok_iff] at h ⊢
      obtain ⟨ys, hys, hw⟩ := h
      exact ⟨ys, replaceItems_path hys path' 0, hw⟩
  | .map _ es, w, h, path' => by
      simp only [replace, bind_eq_ok_iff, pure_eq_ok_iff] at h ⊢
      obtain ⟨fs, hfs, hw⟩ := h
      exact ⟨fs, replaceEntries_path hfs path', hw⟩
  | .null, _, h, _ | .bool _, _, h, _ | .int _, _, h, _ | .real _, _, h, _ | .bytes _, _, h, _
  | .date .., _, h, _ | .moment .., _, h, _ | .tuple _, _, h, _ | .set .., _, h, _ => h

theorem replaceItems_path {path : String} : ∀ {i : Nat} {xs ys : List Value},
    replaceItems env path i xs = .ok ys → ∀ path' j, replaceItems env path' j xs = .ok ys
  | _, [], _, h, _, _ => h
  | i, x :: xs, ys, h, path', j => by
      simp only [replaceItems, bind_eq_ok_iff, pure_eq_ok_iff] at h ⊢
      obtain ⟨y, hy, zs, hzs, hys⟩ := h
      exact ⟨y, replace_path hy _, zs, replaceItems_path hzs path' (j + 1), hys⟩

theorem replaceEntries_path {path : String} : ∀ {es fs : List (Value × Value)},
    replaceEntries env path es = .ok fs → ∀ path', replaceEntries env path' es = .ok fs
  | [], _, h, _ => h
  | (k, v) :: es, fs, h, path' => by
      rw [replaceEntries_cons_eq_ok_iff] at h ⊢
      obtain ⟨hk, w, hw, gs, hgs, hfs⟩ := h
      exact ⟨hk, w, replace_path hw _, gs, replaceEntries_path hgs path', hfs⟩
end

/-- What a value becomes under an environment. -/
def Resolves (env : Environment) (v w : Value) : Prop := replace env "" v = .ok w

def ResolvesEntries (env : Environment) : Entries → Entries → Prop :=
  List.Forall₂ fun e f => f.1 = e.1 ∧ Resolves env e.2 f.2

theorem forall₂_of_replaceItems {path : String} {i : Nat} {xs ys : List Value}
    (h : replaceItems env path i xs = .ok ys) : List.Forall₂ (Resolves env) xs ys := by
  induction xs generalizing i ys with
  | nil =>
      cases h
      exact .nil
  | cons x xs ih =>
      simp only [replaceItems, bind_eq_ok_iff, pure_eq_ok_iff] at h
      obtain ⟨y, hy, zs, hzs, rfl⟩ := h
      exact .cons (replace_path hy "") (ih hzs)

theorem forall₂_of_replaceEntries {path : String} {es fs : Entries}
    (h : replaceEntries env path es = .ok fs) : ResolvesEntries env es fs := by
  induction es generalizing fs with
  | nil =>
      cases h
      exact .nil
  | cons e es ih =>
      obtain ⟨k, v⟩ := e
      obtain ⟨-, w, hw, gs, hgs, rfl⟩ := replaceEntries_cons_eq_ok_iff.1 h
      exact .cons ⟨rfl, replace_path hw ""⟩ (ih hgs)

theorem Resolves.list {anchor : Option Nat} {xs : List Value} {w : Value}
    (h : Resolves env (.list anchor xs) w) :
    ∃ ys, w = .list none ys ∧ List.Forall₂ (Resolves env) xs ys := by
  simp only [Resolves, replace, bind_eq_ok_iff, pure_eq_ok_iff] at h
  obtain ⟨ys, hys, rfl⟩ := h
  exact ⟨ys, rfl, forall₂_of_replaceItems hys⟩

theorem Resolves.map {anchor : Option Nat} {es : Entries} {w : Value}
    (h : Resolves env (.map anchor es) w) :
    ∃ fs, w = .map none fs ∧ ResolvesEntries env es fs := by
  simp only [Resolves, replace, bind_eq_ok_iff, pure_eq_ok_iff] at h
  obtain ⟨fs, hfs, rfl⟩ := h
  exact ⟨fs, rfl, forall₂_of_replaceEntries hfs⟩

theorem ResolvesEntries.get?_none {es fs : Entries} (h : ResolvesEntries env es fs) {k : Value}
    (hk : Entries.get? es k = none) : Entries.get? fs k = none := by
  induction h with
  | nil => rfl
  | @cons e f es fs hef _ ih =>
      simp only [Entries.get?, List.find?_cons, hef.1] at hk ⊢
      split at hk
      next => cases hk
      next => exact ih hk

/-- The value at a key becomes the value at that key. -/
theorem ResolvesEntries.get?_some {es fs : Entries} (h : ResolvesEntries env es fs) {k v : Value}
    (hk : Entries.get? es k = some v) : ∃ w, Entries.get? fs k = some w ∧ Resolves env v w := by
  induction h with
  | nil => cases hk
  | @cons e f es fs hef _ ih =>
      simp only [Entries.get?, List.find?_cons, hef.1] at hk ⊢
      split at hk
      next =>
        cases hk
        exact ⟨f.2, rfl, hef.2⟩
      next => exact ih hk

theorem Resolves.unique {v w w' : Value} (h : Resolves env v w) (h' : Resolves env v w') : w = w' :=
  Except.ok.inj (h.symm.trans h')

theorem ResolvesEntries.unique {es fs gs : Entries} (h : ResolvesEntries env es fs)
    (h' : ResolvesEntries env es gs) : fs = gs := by
  refine List.right_unique_forall₂' ?_ h h'
  rintro e f g ⟨hkey, hf⟩ ⟨hkey', hg⟩
  exact Prod.ext (hkey.trans hkey'.symm) (hf.unique hg)

theorem ResolvesEntries.keys_eq {es fs : Entries} (h : ResolvesEntries env es fs) :
    fs.keys = es.keys := by
  induction h with
  | nil => rfl
  | cons hef _ ih => exact congrArg₂ List.cons hef.1 ih

theorem ResolvesEntries.without {es fs : Entries} (h : ResolvesEntries env es fs)
    (names : List String) : ResolvesEntries env (es.without names) (fs.without names) :=
  List.rel_filter (fun e f hef => by simp only [hef.1]) h

theorem resolves_of_not_inText {s : String} {w : Value} (h : Resolves env (.text s) w)
    (hs : inText s = false) : w = .text s := by
  have hself : Resolves env (.text s) (.text s) := substitute_of_not_inText hs
  rw [Resolves, h, Except.ok.injEq] at hself
  exact hself

/-- Around a placeholder there is text, so that the result is a text. -/
theorem text_of_resolves {s : String} {w : Value} (h : Resolves env (.text s) w)
    (hs : ∀ p, segments s ≠ [.hole p]) : ∃ t, w = .text t := by
  obtain ⟨cs, -, ⟨⟨p, hp⟩, -⟩ | hw⟩ := substitute_eq_ok h
  · exact absurd hp (hs p)
  · exact ⟨_, hw⟩

theorem Resolves.isNull_eq {v w : Value} (h : Resolves env v w) : w.isNull = v.isNull := by
  cases v with
  | text s => rcases substitute_result h with ⟨_, rfl⟩ | ⟨_, rfl⟩ | ⟨_, rfl⟩ | ⟨_, -, rfl⟩ <;> rfl
  | list a xs =>
      obtain ⟨ys, rfl, -⟩ := h.list
      rfl
  | map a es =>
      obtain ⟨fs, rfl, -⟩ := h.map
      rfl
  | _ =>
      cases h
      rfl

/-- Only a mapping becomes a mapping. -/
theorem Resolves.of_map {v : Value} {anchor : Option Nat} {fs : Entries}
    (h : Resolves env v (.map anchor fs)) :
    ∃ a es, v = .map a es ∧ ResolvesEntries env es fs := by
  cases v with
  | text s =>
      rcases substitute_result h with ⟨_, he⟩ | ⟨_, he⟩ | ⟨_, he⟩ | ⟨_, -, he⟩
      · cases he
      · cases he
      · cases he
      · cases he
  | list a xs =>
      obtain ⟨ys, he, -⟩ := h.list
      cases he
  | map a es =>
      obtain ⟨gs, he, hes⟩ := h.map
      cases he
      exact ⟨a, es, rfl, hes⟩
  | _ => cases h

/-- What is no placeholder counts as present or absent as before and becomes no placeholder; if it
can be looked for it stays as it is. -/
theorem Resolves.concrete {v w : Value} (h : Resolves env v w) (hv : inValue v = false) :
    w.truthy = v.truthy ∧ inValue w = false ∧ (w.searchable = true → w = v) := by
  cases v with
  | text s =>
      have hw := resolves_of_not_inText h hv
      rw [hw]
      exact ⟨rfl, hv, fun _ => rfl⟩
  | list a xs =>
      obtain ⟨ys, rfl, hxs⟩ := h.list
      refine ⟨?_, rfl, nofun⟩
      cases hxs <;> rfl
  | map a es =>
      obtain ⟨fs, rfl, hes⟩ := h.map
      refine ⟨?_, rfl, nofun⟩
      cases hes <;> rfl
  | _ =>
      cases h
      exact ⟨rfl, rfl, fun _ => rfl⟩

end Provision.Placeholder
