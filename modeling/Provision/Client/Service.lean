import Provision.Client.Reply
import Provision.Client.Seconds
import Provision.Failure

namespace Provision

inductive Connection where
  | stack | pages
  deriving DecidableEq, Repr

inductive Endpoint where
  | providers | models | register | insert | query | chat | health
  | openConnection (k : Connection)
  | closeConnection (k : Connection)
  deriving DecidableEq, Repr

structure Page where
  status : Int := 200
  body : Value := .null
  bodyFault : Option String := none
  deriving Repr

inductive Outcome where
  | returns (r : Reply)
  | page (p : Page)
  | fails (cause : Cause)
  | faults (fault : CallFault)
  deriving Repr

structure Call where
  endpoint : Endpoint
  args : List Value := []
  named : List (String × Value) := []
  deriving Repr

structure Service where
  script : List (Endpoint × List Outcome) := []
  calls : List Call := []
  opened : List Connection := []
  clock : Seconds := .whole 0
  latency : Seconds := .whole 0
  sleeps : List Seconds := []
  deriving Repr

namespace Service

def next : List Outcome → Outcome × List Outcome
  | [] => (.returns .null, [])
  | [o] => (o, [o])
  | o :: rest => (o, rest)

/-- The outcomes that calls of an endpoint have from here on. -/
def outcomes (s : Service) (e : Endpoint) : List Outcome := (s.script.lookup e).getD []

def call (c : Call) (s : Service) : Outcome × Service :=
  let (o, rest) := next (s.outcomes c.endpoint)
  (o, { s with
    script := s.script.map fun e => if e.1 = c.endpoint then (e.1, rest) else e
    calls := c :: s.calls })

def connect (k : Connection) (named : List (String × Value)) (s : Service) : Service :=
  { s with
    opened := k :: s.opened
    calls := { endpoint := .openConnection k, named } :: s.calls }

/-- Lets the time of a request pass. -/
def pass (s : Service) : Service := { s with clock := s.clock + s.latency }

def sleep (t : Seconds) (s : Service) : Service :=
  { s with clock := s.clock + t, sleeps := t :: s.sleeps }

end Service
end Provision
