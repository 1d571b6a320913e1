import Mathlib.Data.List.Forall2

namespace Provision.Steps

variable {ε α β : Type}

theorem ok_bind (a : α) (f : α → Except ε β) : (Except.ok a >>= f) = f a := rfl

theorem error_bind (e : ε) (f : α → Except ε β) : (Except.error e >>= f) = .error e := rfl

theorem bind_eq_ok_iff {x : Except ε α} {f : α → Except ε β} {b : β} :
    (x >>= f) = .ok b ↔ ∃ a, x = .ok a ∧ f a = .ok b := by
  cases x <;> simp [bind, Except.bind]

theorem bind_eq_error_iff {x : Except ε α} {f : α → Except ε β} {e : ε} :
    (x >>= f) = .error e ↔ x = .error e ∨ ∃ a, x = .ok a ∧ f a = .error e := by
  cases x <;> simp [bind, Except.bind]

theorem pure_eq_ok_iff {a b : α} : (pure a : Except ε α) = .ok b ↔ a = b := by
  simp [pure, Except.pure]

theorem pure_ne_error {a : α} {e : ε} : (pure a : Except ε α) ≠ .error e := by
  simp [pure, Except.pure]

theorem eq_ok_of_toOption {x : Except ε α} {a : α} (h : x.toOption = some a) : x = .ok a := by
  cases x with
  | ok b => rw [Option.some.inj h]
  | error e => cases h

theorem exists_eq_ok_of_isSome {x : Except ε α} (h : x.toOption.isSome = true) : ∃ a, x = .ok a := by
  cases x with
  | ok a => exact ⟨a, rfl⟩
  | error e => cases h

theorem mapM_eq_ok_iff {f : α → Except ε β} {xs : List α} {ys : List β} :
    xs.mapM f = .ok ys ↔ List.Forall₂ (fun x y => f x = .ok y) xs ys := by
  induction xs generalizing ys with
  | nil => simp [pure, Except.pure, eq_comm]
  | cons x xs ih =>
      simp only [List.mapM_cons, bind_eq_ok_iff, pure_eq_ok_iff, ih, List.forall₂_cons_left_iff]
      constructor
      · rintro ⟨y, hy, ys, hys, rfl⟩
        exact ⟨y, ys, hy, hys, rfl⟩
      · rintro ⟨y, ys, hy, hys, rfl⟩
        exact ⟨y, hy, ys, hys, rfl⟩

theorem exists_of_forall₂ {R : α → β → Prop} {xs : List α} {ys : List β}
    (h : List.Forall₂ R xs ys) {x : α} (hx : x ∈ xs) : ∃ y ∈ ys, R x y := by
  induction h with
  | nil => simp at hx
  | cons hab _ ih =>
      rcases List.mem_cons.1 hx with rfl | hx
      · exact ⟨_, by simp, hab⟩
      · obtain ⟨y, hy, hr⟩ := ih hx
        exact ⟨y, by simp [hy], hr⟩

theorem forall₂_comp {γ : Type} {R : α → β → Prop} {S : β → γ → Prop} {xs : List α} {ys : List β}
    {zs : List γ} (h : List.Forall₂ R xs ys) (h' : List.Forall₂ S ys zs) :
    List.Forall₂ (fun x z => ∃ y, R x y ∧ S y z) xs zs := by
  induction h generalizing zs with
  | nil =>
      cases h'
      exact .nil
  | cons hxy _ ih =>
      cases h' with
      | cons hyz h' => exact .cons ⟨_, hxy, hyz⟩ (ih h')

theorem map_eq_of_forall₂ {γ : Type} {R : α → β → Prop} {S : β → γ → Prop} {f : γ → β}
    (hf : ∀ {x y z}, R x y → S y z → f z = y) {xs : List α} {ys : List β} {zs : List γ}
    (h : List.Forall₂ R xs ys) (h' : List.Forall₂ S ys zs) : zs.map f = ys := by
  induction h generalizing zs with
  | nil =>
      cases h'
      rfl
  | cons hxy _ ih =>
      cases h' with
      | cons hyz h' => rw [List.map_cons, hf hxy hyz, ih h']

theorem exists_mapM_eq_ok_iff {f : α → Except ε β} {xs : List α} :
    (∃ ys, xs.mapM f = .ok ys) ↔ ∀ x ∈ xs, ∃ y, f x = .ok y := by
  constructor
  · rintro ⟨ys, hys⟩ x hx
    obtain ⟨y, -, hy⟩ := exists_of_forall₂ (mapM_eq_ok_iff.1 hys) hx
    exact ⟨y, hy⟩
  · intro h
    induction xs with
    | nil => exact ⟨[], rfl⟩
    | cons x xs ih =>
        obtain ⟨y, hy⟩ := h x List.mem_cons_self
        obtain ⟨ys, hys⟩ := ih fun z hz => h z (List.mem_cons_of_mem _ hz)
        exact ⟨y :: ys, mapM_eq_ok_iff.2 (.cons hy (mapM_eq_ok_iff.1 hys))⟩

def First (before here : α → Prop) (xs : List α) : Prop :=
  ∃ as x bs, xs = as ++ x :: bs ∧ (∀ a ∈ as, before a) ∧ here x

theorem first_cons_iff {before here : α → Prop} {x : α} {xs : List α} :
    First before here (x :: xs) ↔ here x ∨ before x ∧ First before here xs := by
  constructor
  · rintro ⟨as, y, bs, he, has, hy⟩
    cases as with
    | nil =>
        cases he
        exact .inl hy
    | cons a as =>
        cases he
        obtain ⟨ha, has⟩ := List.forall_mem_cons.1 has
        exact .inr ⟨ha, as, y, bs, rfl, has, hy⟩
  · rintro (hx | ⟨hx, as, y, bs, rfl, has, hy⟩)
    · exact ⟨[], x, xs, rfl, by simp, hx⟩
    · exact ⟨x :: as, y, bs, rfl, List.forall_mem_cons.2 ⟨hx, has⟩, hy⟩

/-- What comes first does so among the members that are kept, if it is kept itself. -/
theorem first_filter {before here : α → Prop} {keep : α → Bool} {xs : List α}
    (h : First before here xs) :
    First before here (xs.filter keep) ∨ ∃ x ∈ xs, keep x = false ∧ here x := by
  obtain ⟨as, x, bs, rfl, has, hx⟩ := h
  cases hkeep : keep x with
  | false => exact .inr ⟨x, by simp, hkeep, hx⟩
  | true =>
      refine .inl ⟨as.filter keep, x, bs.filter keep, ?_, fun a ha => has a (List.mem_filter.1 ha).1, hx⟩
      rw [List.filter_append, List.filter_cons_of_pos hkeep]

theorem first_map_iff {before here : β → Prop} {g : α → β} {xs : List α} :
    First before here (xs.map g) ↔ First (fun x => before (g x)) (fun x => here (g x)) xs := by
  induction xs with
  | nil => simp [First]
  | cons x xs ih => rw [List.map_cons, first_cons_iff, first_cons_iff, ih]

theorem first_congr {before before' here here' : α → Prop} {xs : List α}
    (h : ∀ x ∈ xs, (before x ↔ before' x) ∧ (here x ↔ here' x)) :
    First before here xs ↔ First before' here' xs := by
  induction xs with
  | nil => simp [First]
  | cons x xs ih =>
      obtain ⟨⟨hbefore, hhere⟩, hxs⟩ := List.forall_mem_cons.1 h
      rw [first_cons_iff, first_cons_iff, hbefore, hhere, ih hxs]

theorem exists_first {p : α → Prop} {xs : List α} (h : ∃ x ∈ xs, p x) : First (¬ p ·) p xs := by
  induction xs with
  | nil => simp at h
  | cons x xs ih =>
      rw [first_cons_iff]
      by_cases hx : p x
      · exact .inl hx
      · exact .inr ⟨hx, ih (by simpa [hx] using h)⟩

/-- The first member that is not as those before it is the one that counts. -/
theorem first_iff_here {before here : α → Prop} {as bs : List α} {x : α} (has : ∀ a ∈ as, before a)
    (hx : ¬ before x) (hhere : ∀ y, here y → ¬ before y) :
    First before here (as ++ x :: bs) ↔ here x := by
  induction as with
  | nil =>
      rw [List.nil_append, first_cons_iff]
      tauto
  | cons a as ih =>
      obtain ⟨ha, has⟩ := List.forall_mem_cons.1 has
      rw [List.cons_append, first_cons_iff, ih has]
      have hnot : ¬ here a := fun h => hhere a h ha
      tauto

/-- A chain over a list fails at the first member at which it cannot go on. -/
theorem mapM_eq_error_iff {f : α → Except ε β} {xs : List α} {e : ε} :
    xs.mapM f = .error e ↔ First (fun x => ∃ y, f x = .ok y) (fun x => f x = .error e) xs := by
  induction xs with
  | nil => simp [First, pure, Except.pure]
  | cons x xs ih =>
      have hrest (y : β) : (xs.mapM f >>= fun ys => pure (y :: ys)) = .error e ↔ xs.mapM f = .error e := by
        simp only [bind_eq_error_iff, pure_ne_error, and_false, exists_false, or_false]
      rw [List.mapM_cons, bind_eq_error_iff, first_cons_iff, ← ih]
      simp only [hrest, exists_and_right]

/-- A loop whose steps fail whatever they are given fails at the first member at which its step does. -/
theorem foldlM_eq_error_iff {f : β → α → Except ε β} {fails : α → ε → Prop}
    (hf : ∀ b x e, f b x = .error e ↔ fails x e) {xs : List α} {b : β} {e : ε} :
    xs.foldlM f b = .error e ↔ First (fun x => ¬ ∃ e, fails x e) (fails · e) xs := by
  induction xs generalizing b with
  | nil => simp [First, pure, Except.pure]
  | cons x xs ih =>
      rw [List.foldlM_cons, bind_eq_error_iff, first_cons_iff, hf]
      simp only [ih, exists_and_right]
      have hgoes : (∃ b', f b x = .ok b') ↔ ¬ ∃ e, fails x e := by
        simp only [← hf b]
        cases f b x <;> simp
      rw [hgoes]

theorem foldlM_eq_ok_iff {f : β → α → Except ε β} {g : β → α → β} {p : α → Prop}
    (hf : ∀ b x b', f b x = .ok b' ↔ p x ∧ g b x = b') {xs : List α} {b b' : β} :
    xs.foldlM f b = .ok b' ↔ (∀ x ∈ xs, p x) ∧ xs.foldl g b = b' := by
  induction xs generalizing b with
  | nil => simp [pure, Except.pure]
  | cons x xs ih =>
      rw [List.foldlM_cons, bind_eq_ok_iff, List.forall_mem_cons, List.foldl_cons, and_assoc]
      constructor
      · rintro ⟨c, hc, hrest⟩
        obtain ⟨hx, rfl⟩ := (hf b x c).1 hc
        exact ⟨hx, ih.1 hrest⟩
      · rintro ⟨hx, hrest⟩
        exact ⟨g b x, (hf b x _).2 ⟨hx, rfl⟩, ih.2 hrest⟩

theorem mapM_map_congr {g : α → α} {f : α → Except ε β} {xs : List α}
    (h : ∀ x ∈ xs, f (g x) = f x) : (xs.map g).mapM f = xs.mapM f := by
  induction xs with
  | nil => rfl
  | cons x xs ih =>
      rw [List.forall_mem_cons] at h
      rw [List.map_cons, List.mapM_cons, List.mapM_cons, h.1, ih h.2]

theorem pairwise_of_forall₂ {R : α → β → Prop} {P : β → β → Prop} {Q : α → α → Prop}
    (hPQ : ∀ {x x' y y'}, R x y → R x' y' → P y y' → Q x x') {xs : List α} {ys : List β}
    (h : List.Forall₂ R xs ys) (hys : ys.Pairwise P) : xs.Pairwise Q := by
  induction h with
  | nil => exact .nil
  | cons hxy hrest ih =>
      obtain ⟨hfirst, hys⟩ := List.pairwise_cons.1 hys
      refine List.pairwise_cons.2 ⟨fun x' hx' => ?_, ih hys⟩
      obtain ⟨y', hy', hr⟩ := exists_of_forall₂ hrest hx'
      exact hPQ hxy hr (hfirst y' hy')

end Provision.Steps
