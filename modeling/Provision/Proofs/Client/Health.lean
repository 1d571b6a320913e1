import Provision.Client.Basic
import Provision.Proofs.Action
import Provision.Proofs.Value.Equality

namespace Provision

namespace Outcome

def Holds (o : Outcome) (v : Value) : Prop :=
  ∃ p, o = .page p ∧ 200 ≤ p.status ∧ p.status < 300 ∧ p.bodyFault = none ∧ p.body = v

def IsLook (o : Outcome) : Prop :=
  (∃ p, o = .page p) ∨ ∃ cause, o = .fails cause ∧ Client.isTransport cause.kind = true

def SaysWell (o : Outcome) : Prop :=
  ∃ anchor es, o.Holds (.map anchor es) ∧ Entries.get es "status" = .text "OK"

/-- The page holds a value that is no mapping. -/
def Shapeless (o : Outcome) : Prop := ∃ v, o.Holds v ∧ v.entries? = none

def SaysUnwell (o : Outcome) : Prop := ¬ o.SaysWell ∧ ¬ o.Shapeless

variable {o : Outcome} {v v' : Value}

theorem Holds.unique (h : o.Holds v) (h' : o.Holds v') : v = v' := by
  obtain ⟨p, rfl, -, -, -, rfl⟩ := h
  obtain ⟨q, hq, -, -, -, rfl⟩ := h'
  cases hq
  rfl

theorem Shapeless.not_saysWell (h : o.Shapeless) : ¬ o.SaysWell := by
  rintro ⟨anchor, es, hmap, -⟩
  obtain ⟨v, hv, hnone⟩ := h
  cases hv.unique hmap
  cases hnone

end Outcome

namespace Service

def nth (os : List Outcome) : ℕ → Outcome
  | 0 => (next os).1
  | n + 1 => nth (next os).2 n

def reply (s : Service) (e : Endpoint) (n : ℕ) : Outcome := nth (s.outcomes e) n

def CalledOnce (e : Endpoint) (s t : Service) : Prop := ∀ n, t.reply e n = s.reply e (n + 1)

structure Passed (s t : Service) : Prop where
  clock : t.clock = s.clock + s.latency
  latency : t.latency = s.latency

theorem nth_singleton (o : Outcome) (n : ℕ) : nth [o] n = o := by
  induction n with
  | zero => rfl
  | succ n ih => exact ih

theorem call_fst (c : Call) (s : Service) : (s.call c).1 = s.reply c.endpoint 0 := rfl

theorem calledOnce_call (c : Call) (s : Service) : CalledOnce c.endpoint s (s.call c).2 := by
  have houtcomes : (s.call c).2.outcomes c.endpoint = (next (s.outcomes c.endpoint)).2 := by
    simp only [call, outcomes, lookup_replace, if_true]
    cases s.script.lookup c.endpoint with
    | none => rfl
    | some os => rfl
  intro n
  rw [reply, reply, houtcomes, nth]

end Service

namespace Client

open Provision.Action Service

variable {c : Client} {u w : Session}

theorem body_eq_ok_iff {p : Page} {v : Value} : body p = .ok v ↔ (Outcome.page p).Holds v := by
  have hstatus : (p.status < 200 || 300 ≤ p.status) = true ↔ ¬ (200 ≤ p.status ∧ p.status < 300) := by
    rw [Bool.or_eq_true, decide_eq_true_eq, decide_eq_true_eq]
    omega
  rw [body]
  constructor
  · intro h
    split at h
    next => cases h
    next hwell =>
      rw [hstatus, not_not] at hwell
      split at h
      next => cases h
      next hfault =>
        cases h
        exact ⟨p, rfl, hwell.1, hwell.2, hfault, rfl⟩
  · rintro ⟨q, hq, hlow, hhigh, hfault, rfl⟩
    cases hq
    rw [if_neg (by rw [hstatus, not_not]; exact ⟨hlow, hhigh⟩), hfault]

theorem isTransport_of_body {p : Page} {cause : Cause} (h : body p = .error cause) :
    isTransport cause.kind = true := by
  rw [body] at h
  split at h
  next =>
    cases h
    rfl
  next =>
    split at h
    next =>
      cases h
      rfl
    next => cases h

theorem run_connect (c : Client) (k : Connection) (w : Session) :
    ∃ u, run (c.connect k) w = (.ok (), u) ∧ u.service.script = w.service.script ∧
      u.service.clock = w.service.clock ∧ u.service.latency = w.service.latency := by
  rw [connect, run_bind, run_get]
  dsimp only
  split
  next => exact ⟨w, rfl, rfl, rfl, rfl⟩
  next =>
    cases k with
    | pages => exact ⟨_, rfl, rfl, rfl, rfl⟩
    | stack =>
      rw [if_pos rfl, run_bind]
      obtain ⟨u, hu, hservice⟩ := run_record_service source Level.debug.number
        ("Creating Llama Stack client for " ++ c.url) w
      rw [debug, hu, ← hservice]
      exact ⟨_, rfl, rfl, rfl, rfl⟩

/-- A call for the health page is made, and tells no more than its outcome. -/
theorem run_health (c : Client) (w : Session) :
    ∃ u, run c.health w = (c.look (w.service.reply .health 0), u) ∧
      CalledOnce .health w.service u.service ∧ Passed w.service u.service := by
  obtain ⟨v, hconnect, hscript, hclock, hlatency⟩ := run_connect c .pages w
  have hreply : ∀ n, v.service.pass.reply .health n = w.service.reply .health n := by
    intro n
    rw [reply, reply, outcomes, outcomes, ← hscript]
    rfl
  have hcalled := calledOnce_call { endpoint := .health, args := [.text healthPath] } v.service.pass
  rw [health, run_bind, hconnect]
  dsimp only
  rw [run_bind, run_onService]
  dsimp only
  rw [run_ofExcept, call_fst, hreply]
  refine ⟨_, rfl, ?_, ?_⟩
  · intro n
    rw [← hreply]
    exact hcalled n
  · refine ⟨?_, hlatency⟩
    rw [← hclock, ← hlatency]
    rfl

theorem look_of_holds {o : Outcome} {v : Value} (h : o.Holds v) : c.look o = .ok v := by
  obtain ⟨p, rfl, -⟩ := id h
  rw [look, body_eq_ok_iff.2 h]
  rfl

theorem lookFailure_of_isTransport {cause : Cause} (h : isTransport cause.kind = true) :
    c.lookFailure cause = .call (c.fault "health" "Health check failed" cause) := by
  rw [lookFailure, if_pos h]

theorem look_of_not_holds {o : Outcome} (hlook : o.IsLook) (h : ¬ ∃ v, o.Holds v) :
    ∃ f, c.look o = .error (.call f) := by
  rcases hlook with ⟨p, rfl⟩ | ⟨cause, rfl, hcause⟩
  · cases hbody : body p with
    | ok v => exact absurd ⟨v, body_eq_ok_iff.1 hbody⟩ h
    | error cause =>
      have hfailure := lookFailure_of_isTransport (c := c) (isTransport_of_body hbody)
      rw [look, hbody, Except.mapError, hfailure]
      exact ⟨_, rfl⟩
  · rw [look, lookFailure_of_isTransport hcause]
    exact ⟨_, rfl⟩

def noStatus : Failure := .trouble .attribute "no status"

inductive Judged (o : Outcome) : Except Failure Bool → Prop where
  | well (h : o.SaysWell) : Judged o (.ok true)
  | unwell (h : o.SaysUnwell) : Judged o (.ok false)
  | shapeless (h : o.Shapeless) : Judged o (.error noStatus)

theorem judged_of_map {o : Outcome} {anchor : Option ℕ} {es : Entries}
    (h : o.Holds (.map anchor es)) :
    Judged o (.ok ((Entries.get es "status").same (.text "OK"))) := by
  by_cases hstatus : Entries.get es "status" = .text "OK"
  · rw [Value.same_text_right_iff.2 hstatus]
    exact .well ⟨anchor, es, h, hstatus⟩
  · have hsame : (Entries.get es "status").same (.text "OK") = false := by
      rw [Bool.eq_false_iff, ne_eq, Value.same_text_right_iff]
      exact hstatus
    rw [hsame]
    refine .unwell ⟨?_, ?_⟩
    · rintro ⟨anchor', es', h', hwell⟩
      cases h.unique h'
      exact hstatus hwell
    · rintro ⟨v, hv, hnone⟩
      cases h.unique hv
      cases hnone

theorem run_isHealthy (c : Client) (hlook : (w.service.reply .health 0).IsLook) :
    ∃ r u, run c.isHealthy w = (r, u) ∧ Judged (w.service.reply .health 0) r ∧
      CalledOnce .health w.service u.service ∧ Passed w.service u.service := by
  obtain ⟨u, hrun, hcalled, hpassed⟩ := run_health c w
  rw [isHealthy, run_bind, run_attempt, hrun]
  dsimp only
  by_cases hholds : ∃ v, (w.service.reply .health 0).Holds v
  · obtain ⟨v, hv⟩ := hholds
    rw [look_of_holds hv]
    cases v with
    | map anchor es => exact ⟨_, u, rfl, judged_of_map hv, hcalled, hpassed⟩
    | _ => exact ⟨_, u, rfl, .shapeless ⟨_, hv, rfl⟩, hcalled, hpassed⟩
  · obtain ⟨f, hf⟩ := look_of_not_holds (c := c) hlook hholds
    have hunwell : (w.service.reply .health 0).SaysUnwell := by
      refine ⟨?_, ?_⟩
      · rintro ⟨anchor, es, hmap, -⟩
        exact hholds ⟨_, hmap⟩
      · rintro ⟨v, hv, -⟩
        exact hholds ⟨v, hv⟩
    obtain ⟨v, hv, hservice⟩ := run_record_service source Level.debug.number
      ("Server not healthy yet: " ++ f.message) u
    rw [hf]
    dsimp only
    rw [run_bind, debug, hv]
    refine ⟨_, v, rfl, .unwell hunwell, ?_⟩
    rw [hservice]
    exact ⟨hcalled, hpassed⟩

/-- How waiting for a stack ends that makes at most so many looks, of which these are the outcomes. -/
inductive Waited (c : Client) (timeout : Seconds) (replies : ℕ → Outcome) (limit : ℕ) :
    Except Failure (Option Seconds) → Prop where
  | well (n : ℕ) (waited : Seconds) (hlimit : n < limit) (h : (replies n).SaysWell)
      (hbefore : ∀ k < n, (replies k).SaysUnwell) : Waited c timeout replies limit (.ok (some waited))
  | gaveUp (n : ℕ) (hlimit : n < limit) (h : ∀ k ≤ n, (replies k).SaysUnwell) :
      Waited c timeout replies limit (.error (.call (c.unavailable timeout (n + 1))))
  | unsettled (h : ∀ k < limit, (replies k).SaysUnwell) : Waited c timeout replies limit (.ok none)
  | shapeless (n : ℕ) (hlimit : n < limit) (h : (replies n).Shapeless)
      (hbefore : ∀ k < n, (replies k).SaysUnwell) : Waited c timeout replies limit (.error noStatus)

theorem Waited.contained {c : Client} {timeout : Seconds} {replies : ℕ → Outcome} {limit : ℕ}
    {r : Except Failure (Option Seconds)} (h : Waited c timeout replies limit r)
    (hshaped : ∀ k, ¬ (replies k).Shapeless) :
    (∃ t, r = .ok t) ∨ ∃ n, r = .error (.call (c.unavailable timeout n)) := by
  cases h with
  | well n waited => exact .inl ⟨_, rfl⟩
  | gaveUp n => exact .inr ⟨_, rfl⟩
  | unsettled => exact .inl ⟨_, rfl⟩
  | shapeless n _ h => exact absurd h (hshaped n)

/-- The looks made so far have all found the stack unwell; the next ones come after them. -/
structure Underway (replies : ℕ → Outcome) (n : ℕ) (w : Session) : Prop where
  unwell : ∀ k < n, (replies k).SaysUnwell
  ahead : ∀ k, w.service.reply .health k = replies (n + k)

variable {replies : ℕ → Outcome} {n : ℕ}

theorem underway_zero (w : Session) : Underway (w.service.reply .health) 0 w where
  unwell := by simp
  ahead := by simp

theorem Underway.next (h : Underway replies n w) (hunwell : (replies n).SaysUnwell)
    (hcalled : CalledOnce .health w.service u.service) : Underway replies (n + 1) u where
  unwell := by
    intro k hk
    rcases Nat.lt_succ_iff_lt_or_eq.1 hk with hk | rfl
    · exact h.unwell k hk
    · exact hunwell
  ahead := by
    intro k
    rw [hcalled k, h.ahead, Nat.add_right_comm, Nat.add_assoc]

theorem run_now (w : Session) : run now w = (.ok w.service.clock, w) := rfl

theorem run_reportWell (c : Client) (attempts : ℕ) (w : Session) :
    ∃ u, run (c.reportWell attempts) w = (.ok (), u) := by
  obtain ⟨u, hu, -⟩ := run_record_service source Level.info.number
    ("Llama Stack at " ++ c.url ++ s!" healthy after {attempts} attempt(s)") w
  exact ⟨u, hu⟩

/-- From any point on, waiting ends in one of the four ways. -/
theorem Underway.waited (h : Underway replies n w) (hlook : ∀ k, (replies k).IsLook) (c : Client)
    (timeout interval start : Seconds) (fuel : ℕ) :
    Waited c timeout replies (n + fuel)
      (run (poll c.isHealthy now sleep timeout interval start fuel n >>= c.conclude timeout) w).1 := by
  induction fuel generalizing n w with
  | zero => exact .unsettled h.unwell
  | succ fuel ih =>
    have hfirst : w.service.reply .health 0 = replies n := h.ahead 0
    obtain ⟨r, u, hrun, hjudged, hcalled, -⟩ := run_isHealthy c (w := w) (by rw [hfirst]; exact hlook n)
    rw [hfirst] at hjudged
    rw [run_bind, poll, run_bind, hrun]
    cases hjudged with
    | well hwell =>
      dsimp only
      rw [if_pos rfl, run_bind, run_now]
      obtain ⟨v, hv⟩ := run_reportWell c (n + 1) u
      change Waited c timeout replies _ (run (c.reportWell (n + 1) >>= fun _ => pure _) u).1
      rw [run_bind, hv]
      exact .well n _ (by omega) hwell h.unwell
    | unwell hunwell =>
      have hnext := h.next hunwell hcalled
      dsimp only
      rw [if_neg (by decide), run_bind, run_now]
      dsimp only
      by_cases hlate : timeout < u.service.clock - start + interval
      · rw [if_pos hlate]
        refine .gaveUp n (by omega) ?_
        intro k hk
        exact hnext.unwell k (by omega)
      · rw [if_neg hlate, run_bind, sleep, run_onService]
        have hlater := ih (w := { u with service := u.service.sleep interval })
          ⟨hnext.unwell, hnext.ahead⟩
        rw [run_bind, Nat.add_right_comm, Nat.add_assoc] at hlater
        exact hlater
    | shapeless hshapeless => exact .shapeless n (by omega) hshapeless h.unwell

/-- Waiting is cut short by nothing but a page that holds a value without a shape. -/
theorem waited_waitWithin (c : Client) (hlook : ∀ k, (w.service.reply .health k).IsLook)
    (timeout interval : Seconds) (limit : ℕ) :
    Waited c timeout (w.service.reply .health) limit (run (c.waitWithin timeout interval limit) w).1 := by
  have hwaited := (underway_zero w).waited hlook c timeout interval w.service.clock limit
  rw [Nat.zero_add] at hwaited
  exact hwaited

theorem run_waitUntilHealthy (c : Client) {timeout interval : Value} {t i : Seconds}
    (ht : Seconds.ofValue? timeout = some t) (hi : Seconds.ofValue? interval = some i) (w : Session) :
    (run (c.waitUntilHealthy timeout interval) w).1 =
      (run (c.waitWithin t i (attemptLimit w.service t i)) w).1.bind settled := by
  rw [waitUntilHealthy, ht, hi]
  dsimp only
  rw [run_bind, run_get]
  dsimp only
  rw [run_bind]
  rcases run (c.waitWithin t i (attemptLimit w.service t i)) w with ⟨_ | waited, u⟩
  · rfl
  · rfl

/-- Whatever the health page replies, a look ends with a verdict, and waiting with a time or with its own
failure, unless the page holds well-formed JSON that is no mapping. -/
theorem contained_unless_shapeless (c : Client) (w : Session)
    (hlook : ∀ k, (w.service.reply .health k).IsLook) :
    ((∃ b, (run c.isHealthy w).1 = .ok b) ↔ ¬ (w.service.reply .health 0).Shapeless) ∧
    ((run c.isHealthy w).1 = .ok true ↔ (w.service.reply .health 0).SaysWell) ∧
    (∀ timeout interval limit, Waited c timeout (w.service.reply .health) limit
      (run (c.waitWithin timeout interval limit) w).1) ∧
    ((∀ k, ¬ (w.service.reply .health k).Shapeless) → ∀ timeout interval limit,
      (∃ t, (run (c.waitWithin timeout interval limit) w).1 = .ok t) ∨
        ∃ n, (run (c.waitWithin timeout interval limit) w).1 =
          .error (.call (c.unavailable timeout n))) ∧
    ∀ timeout interval t i, Seconds.ofValue? timeout = some t → Seconds.ofValue? interval = some i →
      ∃ r, Waited c t (w.service.reply .health) (attemptLimit w.service t i) r ∧
        (run (c.waitUntilHealthy timeout interval) w).1 = r.bind settled := by
  have hwaited := waited_waitWithin c hlook
  obtain ⟨r, u, hrun, hjudged, -⟩ := run_isHealthy c (hlook 0)
  rw [hrun]
  refine ⟨?_, ?_, hwaited, ?_, ?_⟩
  · cases hjudged with
    | well h => exact ⟨fun _ hshapeless => hshapeless.not_saysWell h, fun _ => ⟨_, rfl⟩⟩
    | unwell h => exact ⟨fun _ => h.2, fun _ => ⟨_, rfl⟩⟩
    | shapeless h => exact ⟨nofun, fun hnot => absurd h hnot⟩
  · cases hjudged with
    | well h => exact ⟨fun _ => h, fun _ => rfl⟩
    | unwell h => exact ⟨nofun, fun hwell => absurd hwell h.1⟩
    | shapeless h => exact ⟨nofun, fun hwell => absurd hwell h.not_saysWell⟩
  · intro hshaped timeout interval limit
    exact (hwaited timeout interval limit).contained hshaped
  · intro timeout interval t i ht hi
    exact ⟨_, hwaited t i _, run_waitUntilHealthy c ht hi w⟩

theorem contained_of_late_start :
    let c : Client := .ofUrl defaultUrl defaultTimeout
    let w : Session := { service := { script := [(.health,
      [.fails ⟨.connection, "refused"⟩, .page { status := 503 },
        .page { body := .record [("status", .text "OK")] }])] } }
    (∀ k, (w.service.reply .health k).IsLook) ∧ (∀ k, ¬ (w.service.reply .health k).Shapeless) ∧
      Seconds.ofValue? (.int 10) = some (.whole 10) ∧ Seconds.ofValue? (.int 2) = some (.whole 2) ∧
      (run c.isHealthy w).1 = .ok false ∧
      ((∃ t, (run (c.waitWithin (.whole 10) (.whole 2) 7) w).1 = .ok t) ∨
        ∃ n, (run (c.waitWithin (.whole 10) (.whole 2) 7) w).1 =
          .error (.call (c.unavailable (.whole 10) n))) ∧
      ∃ r, Waited c (.whole 10) (w.service.reply .health)
          (attemptLimit w.service (.whole 10) (.whole 2)) r ∧
        (run (c.waitUntilHealthy (.int 10) (.int 2)) w).1 = r.bind settled := by
  intro c w
  have hlast : ∀ k, w.service.reply .health (k + 2) =
      .page { body := .record [("status", .text "OK")] } := nth_singleton _
  have hlook : ∀ k, (w.service.reply .health k).IsLook := by
    rintro (_ | _ | k)
    · exact .inr ⟨_, rfl, rfl⟩
    · exact .inl ⟨_, rfl⟩
    · rw [hlast]
      exact .inl ⟨_, rfl⟩
  have hshaped : ∀ k, ¬ (w.service.reply .health k).Shapeless := by
    rintro (_ | _ | k) ⟨v, ⟨p, hp, hlow, hhigh, -, rfl⟩, hnone⟩
    · cases hp
    · cases hp
      exact absurd hhigh (by decide)
    · rw [hlast] at hp
      cases hp
      cases hnone
  obtain ⟨hverdict, hwell, -, hcontained, hvalues⟩ := contained_unless_shapeless c w hlook
  refine ⟨hlook, hshaped, rfl, rfl, ?_, hcontained hshaped _ _ _, hvalues _ _ _ _ rfl rfl⟩
  obtain ⟨b, hb⟩ := hverdict.2 (hshaped 0)
  cases b with
  | false => exact hb
  | true =>
    obtain ⟨anchor, es, ⟨p, hp, -⟩, -⟩ := hwell.1 hb
    cases hp

/-- A list on the page ends a look and waiting with a failure of neither. -/
theorem uncontained_list_page :
    let c : Client := .ofUrl defaultUrl defaultTimeout
    let w : Session := { service := { script := [(.health,
      [.page { body := .list none [.text "OK"] }])] } }
    (∀ k, (w.service.reply .health k).IsLook) ∧ (¬ ∃ b, (run c.isHealthy w).1 = .ok b) ∧
      ¬ ((∃ t, (run (c.waitUntilHealthy (.int 10) (.int 2)) w).1 = .ok t) ∨
        ∃ n, (run (c.waitUntilHealthy (.int 10) (.int 2)) w).1 =
          .error (.call (c.unavailable (.whole 10) n))) := by
  intro c w
  have hreply : ∀ k, w.service.reply .health k = .page { body := .list none [.text "OK"] } :=
    nth_singleton _
  have hlook : (run c.isHealthy w).1 = .error noStatus := rfl
  have hwait : (run (c.waitUntilHealthy (.int 10) (.int 2)) w).1 = .error noStatus := rfl
  rw [hlook, hwait]
  refine ⟨?_, nofun, ?_⟩
  · intro k
    rw [hreply]
    exact .inl ⟨_, rfl⟩
  · rintro (⟨t, ht⟩ | ⟨n, hn⟩)
    · cases ht
    · cases hn

end Client
end Provision
