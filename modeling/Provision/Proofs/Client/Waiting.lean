import Mathlib.Tactic.Linarith
import Mathlib.Tactic.Ring
import Provision.Proofs.Client.Health
import Provision.Proofs.Value.Scalar

namespace Provision.Client

open Provision.Action Service

variable {c : Client} {replies : ℕ → Outcome} {u w : Session} {n : ℕ}

theorem run_poll_of_ended {check : Action Bool} {timeout interval began : Seconds} {fuel : ℕ}
    {e : Except Failure (Polling Seconds)}
    (h : run (poll check now sleep timeout interval began fuel n) w = (e, u))
    (hended : e ≠ .ok .unfinished) (more : ℕ) :
    run (poll check now sleep timeout interval began (fuel + more) n) w = (e, u) := by
  induction fuel generalizing n w with
  | zero =>
    cases h
    exact absurd rfl hended
  | succ fuel ih =>
    rw [Nat.add_right_comm, poll, run_bind]
    rw [poll, run_bind] at h
    rcases hcheck : run check w with ⟨f | b, v⟩
    · rw [hcheck] at h
      exact h
    · rw [hcheck] at h
      dsimp only at h ⊢
      cases b with
      | true => exact h
      | false =>
        rw [if_neg (by decide), run_bind, run_now] at h ⊢
        dsimp only at h ⊢
        by_cases hlate : timeout < v.service.clock - began + interval
        · rw [if_pos hlate] at h ⊢
          exact h
        · rw [if_neg hlate, run_bind, sleep, run_onService] at h ⊢
          exact ih h

theorem run_waitWithin_of_settled {c : Client} {timeout interval : Seconds} {limit : ℕ}
    {r : Except Failure (Option Seconds)} (h : run (c.waitWithin timeout interval limit) w = (r, u))
    (hsettled : r ≠ .ok none) (more : ℕ) :
    run (c.waitWithin timeout interval (limit + more)) w = (r, u) := by
  rw [waitWithin, run_bind, run_now] at h ⊢
  dsimp only at h ⊢
  rw [run_bind] at h ⊢
  rcases hpoll : run (poll c.isHealthy now sleep timeout interval w.service.clock limit 0) w
    with ⟨e, v⟩
  rw [hpoll] at h
  have hended : e ≠ .ok .unfinished := by
    rintro rfl
    cases h
    exact hsettled rfl
  rw [run_poll_of_ended hpoll hended more]
  exact h

/-- So many rounds have been made, each with a look and a pause, and none of them was the last. -/
structure Paced (timeout round latency began : ℤ) (n : ℕ) (w : Session) : Prop where
  clock : w.service.clock = .whole (began + n * round)
  latency : w.service.latency = .whole latency
  inTime : 0 < n → n * round ≤ timeout

variable {timeout interval latency began : ℤ}

theorem Paced.next (h : Paced timeout (interval + latency) latency began n w)
    (hpassed : Passed w.service u.service) (hearly : (n + 1) * (interval + latency) ≤ timeout) :
    Paced timeout (interval + latency) latency began (n + 1)
      { u with service := u.service.sleep (.whole interval) } where
  clock := by
    change u.service.clock + .whole interval = _
    rw [hpassed.clock, h.clock, h.latency]
    change Seconds.whole (began + n * (interval + latency) + latency + interval) = _
    congr 1
    push_cast
    ring
  latency := hpassed.latency.trans h.latency
  inTime := by
    intro _
    exact_mod_cast hearly

/-- With rounds left that take longer than is allowed, polling comes to an end. -/
theorem Paced.ended (h : Paced timeout (interval + latency) latency began n w)
    (hunderway : Underway replies n w) (hlook : ∀ k, (replies k).IsLook) (c : Client) (fuel : ℕ)
    (hpos : 0 < n + fuel) (hfuel : timeout < (n + fuel : ℕ) * (interval + latency)) :
    (run (poll c.isHealthy now sleep (.whole timeout) (.whole interval) (.whole began) fuel n) w).1 ≠
      .ok .unfinished := by
  -- On the rounds left: each pause moves the clock by a whole round, and none may end too late.
  induction fuel generalizing n w with
  | zero => exact absurd (h.inTime hpos) (not_le.2 hfuel)
  | succ fuel ih =>
    have hfirst : w.service.reply .health 0 = replies n := hunderway.ahead 0
    obtain ⟨r, u, hrun, hjudged, hcalled, hpassed⟩ :=
      run_isHealthy c (w := w) (by rw [hfirst]; exact hlook n)
    rw [hfirst] at hjudged
    rw [poll, run_bind, hrun]
    cases hjudged with
    | well =>
      intro h
      cases h
    | shapeless =>
      intro h
      cases h
    | unwell hunwell =>
      have hnext := hunderway.next hunwell hcalled
      have hclock : u.service.clock - .whole began + .whole interval =
          .whole ((n + 1) * (interval + latency)) := by
        rw [hpassed.clock, h.clock, h.latency]
        change Seconds.whole (began + n * (interval + latency) + latency - began + interval) = _
        congr 1
        ring
      dsimp only
      rw [if_neg (by decide), run_bind, run_now]
      dsimp only
      rw [hclock]
      by_cases hlate : Seconds.whole timeout < .whole ((n + 1) * (interval + latency))
      · rw [if_pos hlate]
        intro h
        cases h
      · rw [if_neg hlate, run_bind, sleep, run_onService]
        have hearly : (n + 1) * (interval + latency) ≤ timeout := by
          change ¬ decide _ = true at hlate
          rwa [decide_eq_true_eq, not_lt] at hlate
        refine ih (h.next hpassed hearly) ⟨hnext.unwell, hnext.ahead⟩ (by omega) ?_
        rwa [Nat.add_right_comm, Nat.add_assoc]

theorem lt_steps_succ_mul {span step : ℤ} (hstep : 0 < step) :
    span < ((Seconds.whole span).steps (.whole step) + 1 : ℕ) * step := by
  have hone : (0 : ℤ) < Binary64.one := by exact_mod_cast Binary64.one_pos
  have hunits : 0 < (step * Binary64.one).toNat := by
    have := mul_pos hstep hone
    omega
  have hcounted : (span * Binary64.one).toNat < (step * Binary64.one).toNat *
      ((Seconds.whole span).steps (.whole step) + 1) := Nat.lt_mul_div_succ _ hunits
  have hscaled : span * Binary64.one <
      ((Seconds.whole span).steps (.whole step) + 1 : ℕ) * step * Binary64.one := by
    calc span * Binary64.one ≤ (span * Binary64.one).toNat := Int.self_le_toNat _
      _ < ((step * Binary64.one).toNat * ((Seconds.whole span).steps (.whole step) + 1) : ℕ) := by
        exact_mod_cast hcounted
      _ = ((Seconds.whole span).steps (.whole step) + 1 : ℕ) * step * Binary64.one := by
        rw [Nat.cast_mul, Int.toNat_of_nonneg (mul_pos hstep hone).le]
        ring
  exact lt_of_mul_lt_mul_right hscaled hone.le

/-- Where times are whole numbers of seconds and rounds take some time, the limit on looks is never
reached. -/
theorem settled_at_attemptLimit (hclock : w.service.clock = .whole began)
    (hlatency : w.service.latency = .whole latency) (hround : 0 < interval + latency)
    (hlook : ∀ k, (w.service.reply .health k).IsLook) (c : Client) :
    (run (c.waitWithin (.whole timeout) (.whole interval)
      (attemptLimit w.service (.whole timeout) (.whole interval))) w).1 ≠ .ok none := by
  -- The limit is above the number of rounds that fit into the time allowed.
  have hlimit : (Seconds.whole timeout).steps (.whole (interval + latency)) + 1 ≤
      0 + attemptLimit w.service (.whole timeout) (.whole interval) := by
    rw [attemptLimit, hlatency]
    change _ ≤ 0 + (_ + 2 * (Seconds.whole timeout).steps (.whole (interval + latency)) + 16)
    omega
  generalize attemptLimit w.service (.whole timeout) (.whole interval) = limit at hlimit ⊢
  have hpaced : Paced timeout (interval + latency) latency began 0 w :=
    ⟨by simpa using hclock, hlatency, fun h => absurd h (lt_irrefl 0)⟩
  have hfuel : timeout < (0 + limit : ℕ) * (interval + latency) :=
    (lt_steps_succ_mul hround).trans_le
      (mul_le_mul_of_nonneg_right (by exact_mod_cast hlimit) hround.le)
  have hended := hpaced.ended (underway_zero w) hlook c limit (by omega) hfuel
  rw [waitWithin, run_bind, run_now]
  dsimp only
  rw [run_bind, hclock]
  rcases hpoll : run (poll c.isHealthy now sleep (.whole timeout) (.whole interval) (.whole began) limit 0) w
    with ⟨f | p, v⟩
  · intro h
    cases h
  · rw [hpoll] at hended
    cases p with
    | succeeded waited attempts =>
      obtain ⟨u, hu⟩ := run_reportWell c attempts v
      change (run (c.reportWell attempts >>= fun _ => pure _) v).1 ≠ _
      rw [run_bind, hu]
      intro h
      cases h
    | gaveUp attempts =>
      intro h
      cases h
    | unfinished => exact absurd rfl hended

/-- More looks than the limit change nothing. -/
theorem run_waitWithin_above_attemptLimit (hclock : w.service.clock = .whole began)
    (hlatency : w.service.latency = .whole latency) (hround : 0 < interval + latency)
    (hlook : ∀ k, (w.service.reply .health k).IsLook) (c : Client) (more : ℕ) :
    run (c.waitWithin (.whole timeout) (.whole interval)
        (attemptLimit w.service (.whole timeout) (.whole interval) + more)) w =
      run (c.waitWithin (.whole timeout) (.whole interval)
        (attemptLimit w.service (.whole timeout) (.whole interval))) w :=
  run_waitWithin_of_settled (Prod.eta _).symm (settled_at_attemptLimit hclock hlatency hround hlook c) more

end Provision.Client
