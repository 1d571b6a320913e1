import Mathlib.Algebra.Order.Floor.Ring
import Mathlib.Data.Rat.Floor
import Provision.Client.Poll

namespace Provision.Polling

structure Course where
  outcome : ℕ → Bool
  duration : ℕ → ℚ

structure Watch where
  clock : ℚ
  checks : ℕ := 0
  wakings : List ℚ := []

def Watch.rested (w : Watch) (t : ℚ) : Watch :=
  { w with clock := w.clock + t, wakings := (w.clock + t) :: w.wakings }

namespace Course

def checked (c : Course) (w : Watch) : Watch :=
  { w with clock := w.clock + c.duration w.checks, checks := w.checks + 1 }

def check (c : Course) : StateM Watch Bool := fun w => (c.outcome w.checks, c.checked w)

def now : StateM Watch ℚ := fun w => (w.clock, w)

def pause (t : ℚ) : StateM Watch Unit := fun w => ((), w.rested t)

def polling (c : Course) (timeout interval : ℚ) (fuel : ℕ) : StateM Watch (Polling ℚ) := do
  let start ← now
  poll c.check now pause timeout interval start fuel 0

variable {c : Course} {timeout interval start : ℚ} {w : Watch} {n : ℕ}

def rounds (c : Course) (timeout interval start : ℚ) (fuel n : ℕ) (w : Watch) : Polling ℚ × Watch :=
  (poll c.check now pause timeout interval start fuel n).run w

theorem run_polling (fuel : ℕ) (w : Watch) :
    (c.polling timeout interval fuel).run w = c.rounds timeout interval w.clock fuel 0 w := rfl

theorem run_bind {α β : Type} (x : StateM Watch α) (f : α → StateM Watch β) (w : Watch) :
    (x >>= f).run w = (f (x.run w).1).run (x.run w).2 := rfl

theorem rounds_succ (fuel : ℕ) : c.rounds timeout interval start (fuel + 1) n w =
    if c.outcome w.checks then (.succeeded ((c.checked w).clock - start) (n + 1), c.checked w)
    else if timeout < (c.checked w).clock - start + interval then (.gaveUp (n + 1), c.checked w)
    else c.rounds timeout interval start fuel (n + 1) ((c.checked w).rested interval) := by
  have hcheck : c.check.run w = (c.outcome w.checks, c.checked w) := rfl
  rw [rounds, poll, run_bind, hcheck]
  dsimp only
  split
  next => rfl
  next =>
    rw [run_bind]
    have hnow : now.run (c.checked w) = ((c.checked w).clock, c.checked w) := rfl
    rw [hnow]
    dsimp only
    split
    next => rfl
    next => rfl

structure Underway (c : Course) (timeout interval start : ℚ) (n : ℕ) (w : Watch) : Prop where
  checks : w.checks = n
  failed : ∀ k < n, c.outcome k = false
  rests : w.wakings.length = n
  elapsed : n * interval ≤ w.clock - start
  inTime : 0 < n → w.clock ≤ start + timeout
  punctual : ∀ t ∈ w.wakings, t ≤ start + timeout
  idle : (∀ k, c.duration k = 0) → w.clock - start = n * interval

structure Ended (c : Course) (timeout interval start : ℚ) (e : Polling ℚ) (w : Watch) : Prop where
  checked : 1 ≤ w.checks
  bounded : (w.checks : ℤ) ≤ max 1 (⌊timeout / interval⌋ + 1)
  earlier : ∀ k, k + 1 < w.checks → c.outcome k = false
  /-- The last check succeeds, or it fails and the next one would come too late. -/
  last : c.outcome (w.checks - 1) = true ∧ e = .succeeded (w.clock - start) w.checks ∨
    c.outcome (w.checks - 1) = false ∧ timeout < w.clock - start + interval ∧ e = .gaveUp w.checks
  rests : w.wakings.length = w.checks - 1
  punctual : ∀ t ∈ w.wakings, t ≤ start + timeout
  /-- Where checks take no time, all those there is time for are made until one succeeds. -/
  idle : (∀ k, c.duration k = 0) →
    ((∃ waited attempts, e = .succeeded waited attempts) ↔
      ∃ k : ℕ, (k : ℤ) < max 1 (⌊timeout / interval⌋ + 1) ∧ c.outcome k = true)

theorem underway_zero (start : ℚ) : c.Underway timeout interval start 0 { clock := start } where
  checks := rfl
  failed := by simp
  rests := rfl
  elapsed := by simp
  inTime := by simp
  punctual := by simp
  idle := by simp

namespace Underway

/-- There is time for one more check. -/
theorem lt_bound (h : c.Underway timeout interval start n w) (hi : 0 < interval) :
    (n : ℤ) < max 1 (⌊timeout / interval⌋ + 1) := by
  rcases Nat.eq_zero_or_pos n with rfl | hn
  · simp
  · have htime : n * interval ≤ timeout := by
      have hlast := h.inTime hn
      linarith [h.elapsed]
    have hfloor : (n : ℤ) ≤ ⌊timeout / interval⌋ := by
      rw [Int.le_floor, le_div_iff₀ hi]
      exact_mod_cast htime
    exact lt_max_of_lt_right (Int.lt_add_one_of_le hfloor)

theorem next (h : c.Underway timeout interval start n w) (hd : ∀ k, 0 ≤ c.duration k)
    (hfalse : c.outcome n = false)
    (htime : ¬ timeout < (c.checked w).clock - start + interval) :
    c.Underway timeout interval start (n + 1) ((c.checked w).rested interval) where
  checks := by
    change w.checks + 1 = n + 1
    rw [h.checks]
  failed := by
    intro k hk
    rcases Nat.lt_succ_iff_lt_or_eq.1 hk with hk | rfl
    · exact h.failed k hk
    · exact hfalse
  rests := by
    change w.wakings.length + 1 = n + 1
    rw [h.rests]
  elapsed := by
    have hduration := hd w.checks
    have helapsed := h.elapsed
    change ((n + 1 : ℕ) : ℚ) * interval ≤ w.clock + c.duration w.checks + interval - start
    push_cast
    linarith
  inTime := by
    intro _
    change w.clock + c.duration w.checks + interval ≤ start + timeout
    change ¬ timeout < w.clock + c.duration w.checks - start + interval at htime
    linarith
  punctual := by
    intro t ht
    rcases List.mem_cons.1 ht with rfl | ht
    · change ¬ timeout < w.clock + c.duration w.checks - start + interval at htime
      change w.clock + c.duration w.checks + interval ≤ start + timeout
      linarith
    · exact h.punctual t ht
  idle := by
    intro hnone
    have hidle := h.idle hnone
    have hduration := hnone w.checks
    change w.clock + c.duration w.checks + interval - start = ((n + 1 : ℕ) : ℚ) * interval
    push_cast
    linarith

/-- Where checks take no time, there was time for no more than those that have failed. -/
theorem failed_of_late (h : c.Underway timeout interval start n w) (hi : 0 < interval)
    (hfalse : c.outcome n = false) (hlate : timeout < (c.checked w).clock - start + interval)
    (hnone : ∀ k, c.duration k = 0) {k : ℕ} (hk : (k : ℤ) < max 1 (⌊timeout / interval⌋ + 1)) :
    c.outcome k = false := by
  have hfloor : ⌊timeout / interval⌋ < ((n + 1 : ℕ) : ℤ) := by
    rw [Int.floor_lt, div_lt_iff₀ hi]
    have hidle := h.idle hnone
    have hduration := hnone w.checks
    change timeout < w.clock + c.duration w.checks - start + interval at hlate
    push_cast
    linarith
  have hkn : k ≤ n := by
    have hbound : max 1 (⌊timeout / interval⌋ + 1) ≤ ((n + 1 : ℕ) : ℤ) := max_le (by omega) hfloor
    omega
  rcases Nat.lt_or_eq_of_le hkn with hlt | rfl
  · exact h.failed k hlt
  · exact hfalse

theorem ended (h : c.Underway timeout interval start n w) (hi : 0 < interval) {e : Polling ℚ}
    (hlast : c.outcome n = true ∧ e = .succeeded ((c.checked w).clock - start) (n + 1) ∨
      c.outcome n = false ∧ timeout < (c.checked w).clock - start + interval ∧ e = .gaveUp (n + 1)) :
    c.Ended timeout interval start e (c.checked w) := by
  have hchecks : (c.checked w).checks = n + 1 := by
    change w.checks + 1 = n + 1
    rw [h.checks]
  refine ⟨?_, ?_, ?_, ?_, ?_, h.punctual, ?_⟩
  · omega
  · rw [hchecks]
    exact_mod_cast Int.add_one_le_of_lt (h.lt_bound hi)
  · intro k hk
    exact h.failed k (by omega)
  · rw [hchecks]
    exact hlast
  · rw [hchecks]
    exact h.rests
  · intro hnone
    rcases hlast with ⟨htrue, rfl⟩ | ⟨hfalse, hlate, rfl⟩
    · exact ⟨fun _ => ⟨n, h.lt_bound hi, htrue⟩, fun _ => ⟨_, _, rfl⟩⟩
    · refine ⟨nofun, ?_⟩
      rintro ⟨k, hk, htrue⟩
      rw [h.failed_of_late hi hfalse hlate hnone hk] at htrue
      cases htrue

/-- With enough rounds left polling ends, and ends alike with more of them. -/
theorem exists_end (h : c.Underway timeout interval start n w) (hi : 0 < interval)
    (hd : ∀ k, 0 ≤ c.duration k) {left : ℕ}
    (hleft : max 1 (⌊timeout / interval⌋ + 1) ≤ ((n + left : ℕ) : ℤ)) :
    ∃ e v, (∀ fuel, left ≤ fuel → c.rounds timeout interval start fuel n w = (e, v)) ∧
      c.Ended timeout interval start e v := by
  induction left generalizing n w with
  | zero =>
      have hlt := h.lt_bound hi
      omega
  | succ left ih =>
      cases houtcome : c.outcome n with
      | true =>
          refine ⟨_, _, ?_, h.ended hi (.inl ⟨houtcome, rfl⟩)⟩
          intro fuel hfuel
          obtain ⟨fuel, rfl⟩ := Nat.exists_eq_succ_of_ne_zero (show fuel ≠ 0 by omega)
          rw [rounds_succ, h.checks, if_pos houtcome]
      | false =>
          have hfalse : ¬ c.outcome w.checks = true := by simp [h.checks, houtcome]
          by_cases hlate : timeout < (c.checked w).clock - start + interval
          · refine ⟨_, _, ?_, h.ended hi (.inr ⟨houtcome, hlate, rfl⟩)⟩
            intro fuel hfuel
            obtain ⟨fuel, rfl⟩ := Nat.exists_eq_succ_of_ne_zero (show fuel ≠ 0 by omega)
            rw [rounds_succ, if_neg hfalse, if_pos hlate]
          · obtain ⟨e, v, hrun, hended⟩ := ih (h.next hd houtcome hlate) (by omega)
            refine ⟨e, v, ?_, hended⟩
            intro fuel hfuel
            obtain ⟨fuel, rfl⟩ := Nat.exists_eq_succ_of_ne_zero (show fuel ≠ 0 by omega)
            rw [rounds_succ, if_neg hfalse, if_neg hlate]
            exact hrun fuel (by omega)

end Underway

/-- Polling makes at least one check and no more than there is time for, and ends with the first that
succeeds or with one after which the next would come too late. -/
theorem polling_ends (c : Course) (start timeout interval : ℚ) (hi : 0 < interval)
    (hd : ∀ k, 0 ≤ c.duration k) :
    ∃ e w, (∀ fuel : ℕ, max 1 (⌊timeout / interval⌋ + 1) ≤ (fuel : ℤ) →
        (c.polling timeout interval fuel).run { clock := start } = (e, w)) ∧
      c.Ended timeout interval start e w := by
  have hleft : max 1 (⌊timeout / interval⌋ + 1) ≤
      ((0 + (max 1 (⌊timeout / interval⌋ + 1)).toNat : ℕ) : ℤ) := by
    rw [Nat.zero_add]
    exact Int.self_le_toNat _
  obtain ⟨e, w, hrun, hended⟩ := (underway_zero start).exists_end hi hd hleft
  refine ⟨e, w, ?_, hended⟩
  intro fuel hfuel
  rw [run_polling]
  exact hrun fuel (Int.toNat_le.2 hfuel)

theorem polling_ends_at_limit :
    let c : Course := { outcome := fun k => k = 2, duration := fun _ => 0 }
    (0 : ℚ) < 2 ∧ (∀ k, 0 ≤ c.duration k) ∧
      ∃ waited w, (c.polling 4 2 3).run { clock := 10 } = (.succeeded waited 3, w) ∧
        w.wakings.length = 2 ∧ ∀ t ∈ w.wakings, t ≤ 10 + 4 := by
  intro c
  have hd : ∀ k, 0 ≤ c.duration k := fun _ => le_rfl
  obtain ⟨e, w, hrun, hended⟩ := polling_ends c 10 4 2 (by norm_num) hd
  have hbound : max 1 (⌊(4 : ℚ) / 2⌋ + 1) = 3 := by norm_num
  obtain ⟨waited, attempts, rfl⟩ : ∃ waited attempts, e = .succeeded waited attempts :=
    (hended.idle fun _ => rfl).2 ⟨2, by rw [hbound]; norm_num, rfl⟩
  have hchecks : w.checks = 3 ∧ attempts = w.checks := by
    rcases hended.last with ⟨htrue, he⟩ | ⟨-, -, he⟩
    · have htwo : w.checks - 1 = 2 := of_decide_eq_true htrue
      cases he
      exact ⟨by omega, rfl⟩
    · cases he
  refine ⟨by norm_num, hd, waited, w, ?_, ?_, hended.punctual⟩
  · rw [hrun 3 (by rw [hbound]; norm_num), hchecks.2, hchecks.1]
  · rw [hended.rests, hchecks.1]

end Course

end Provision.Polling
