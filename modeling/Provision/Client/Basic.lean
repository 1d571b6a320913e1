import Provision.Client.Poll
import Provision.Session

namespace Provision

structure Client where
  url : String
  timeout : Value
  deriving Repr

namespace Client

def source : String := "stack.client"

def defaultUrl : String := "http://localhost:8321"

def defaultTimeout : Value := .real (.ofInt 300)

def ofUrl (url : String) (timeout : Value) : Client := ⟨Path.withoutFinalSlashes url, timeout⟩

def start : Action Unit := Action.onService fun s => ((), { s with opened := [] })

def connect (c : Client) (k : Connection) : Action Unit := do
  if (← get).service.opened.contains k then return
  if k = .stack then Action.debug source ("Creating Llama Stack client for " ++ c.url)
  Action.onService fun s =>
    ((), s.connect k [("base_url", .text c.url), ("timeout", c.timeout)])

def close : Action Unit := do
  let opened := (← get).service.opened
  for k in [Connection.stack, .pages] do
    if opened.contains k then
      match ← Action.onService (·.call { endpoint := .closeConnection k }) with
      | .fails cause => throw (.trouble cause.kind cause.text)
      | .faults f => throw (.call f)
      | .returns _ | .page _ => pure ()

def fault (c : Client) (operation what : String) (cause : Cause) : CallFault :=
  { what := what ++ ": " ++ cause.message, url := c.url, operation, cause := some cause }

/-- Calls the stack. The failure of a call beneath it passes through; any other becomes the failure
of the operation. -/
def request (c : Client) (operation : String) (e : Endpoint) (named : List (String × Value)) :
    Action Reply := do
  c.connect .stack
  match ← Action.onService (·.call { endpoint := e, named }) with
  | .returns r => return r
  | .page _ => return .null
  | .faults f => throw (.call f)
  | .fails cause =>
    let f := c.fault operation (operation ++ " failed") cause
    Action.error source f.what
    throw (.call f)

def healthPath : String := "/v1/health"

def body (p : Page) : Except Cause Value :=
  if p.status < 200 || 300 ≤ p.status then .error ⟨.status, s!"HTTP {p.status}"⟩
  else
    match p.bodyFault with
    | some text => .error ⟨.value, text⟩
    | none => .ok p.body

/-- Whether a trouble is one of the transport or of what was transported. -/
def isTransport (t : Trouble) : Bool := t ∈ [.connection, .timeout, .status, .value]

/-- The failure of a look at the health page. A trouble of the transport is contained; any other passes
through. -/
def lookFailure (c : Client) (cause : Cause) : Failure :=
  if isTransport cause.kind then .call (c.fault "health" "Health check failed" cause)
  else .trouble cause.kind cause.text

def look (c : Client) : Outcome → Except Failure Value
  | .page p => (body p).mapError c.lookFailure
  | .returns _ => .ok .null
  | .fails cause => .error (c.lookFailure cause)
  | .faults f => .error (.call f)

def health (c : Client) : Action Value := do
  c.connect .pages
  let outcome ← Action.onService fun s =>
    (s.pass).call { endpoint := .health, args := [.text healthPath] }
  Action.ofExcept (c.look outcome)

def isHealthy (c : Client) : Action Bool := do
  match ← Action.attempt c.health with
  | .ok (.map _ es) => return (Entries.get es "status").same (.text "OK")
  | .ok _ => throw (.trouble .attribute "no status")
  | .error (.call f) =>
    Action.debug source ("Server not healthy yet: " ++ f.message)
    return false
  | .error f => throw f

def now : Action Seconds := return (← get).service.clock

def sleep (t : Seconds) : Action Unit := Action.onService fun s => ((), s.sleep t)

/-- More attempts than polling can need: one for each outcome that is to come, and twice as many as
intervals fit into the time allowed, since sums of real numbers are rounded. -/
def attemptLimit (s : Service) (timeout interval : Seconds) : Nat :=
  (s.outcomes .health).length + 2 * timeout.steps (interval + s.latency) + 16

def defaultWait : Value := .real (.ofInt 120)

def defaultInterval : Value := .real (.ofInt 2)

def unavailable (c : Client) (timeout : Seconds) (attempts : Nat) : CallFault :=
  { what := "Server not healthy after " ++ Decimal.fixed 0 timeout.toReal
      ++ s!"s ({attempts} attempts)"
    url := c.url, operation := "wait_until_healthy", unavailable := true }

def reportWell (c : Client) (attempts : Nat) : Action Unit :=
  Action.info source ("Llama Stack at " ++ c.url ++ s!" healthy after {attempts} attempt(s)")

def conclude (c : Client) (timeout : Seconds) : Polling Seconds → Action (Option Seconds)
  | .succeeded waited attempts => do
    c.reportWell attempts
    return some waited
  | .gaveUp attempts => throw (.call (c.unavailable timeout attempts))
  | .unfinished => return none

def waitWithin (c : Client) (timeout interval : Seconds) (limit : Nat) :
    Action (Option Seconds) := do
  let start ← now
  poll c.isHealthy now sleep timeout interval start limit 0 >>= c.conclude timeout

/-- The time waited; waiting goes on for more attempts than it can need if there is none. -/
def settled : Option Seconds → Except Failure Seconds
  | some waited => .ok waited
  | none => .error (.trouble .runtime "polling does not end")

def waitUntilHealthy (c : Client) (timeout interval : Value) : Action Seconds := do
  match Seconds.ofValue? timeout, Seconds.ofValue? interval with
  | some t, some i =>
    let waited ← c.waitWithin t i (attemptLimit (← get).service t i)
    Action.ofExcept (settled waited)
  | _, _ =>
    let start ← now
    if ← c.isHealthy then
      c.reportWell 1
      return (← now) - start
    else throw (.trouble .type "not a number of seconds")

end Client
end Provision
