import Provision.CommandLine.Parse
import Provision.Session

namespace Provision

inductive Ending where
  | exit (code : Nat)
  | refused
  | helped
  deriving DecidableEq, Repr

namespace Ending

def code : Ending → Nat
  | exit n => n
  | refused => 2
  | helped => 0

end Ending

abbrev Program := List String → Action Ending

namespace CommandLine.Commands

def showHelp (c : Commands) : Action Ending := do
  Action.print c.help
  return .helped

def run (c : Commands) (args : List String) (body : Args → Action Ending) : Action Ending :=
  match c.read args with
  | .ok a => body a
  | .error .refused => return .refused
  | .error .help => c.showHelp

end CommandLine.Commands

namespace Failure

/-- Whether a failure is that of a value: what was given does not fit, whatever the system. -/
def isOfValue : Failure → Bool
  | manifest _ | inconsistent _ | unknownDistribution .. | noRunFile .. | unknownProfile ..
  | notInteger .. | encoding _ | json | trouble .value _ => true
  | _ => false

def isOfSystem : Failure → Bool
  | file .. | trouble .system _ => true
  | _ => false

end Failure

namespace Action

/-- Ends a program whose failures are said in the log as far as they can be told; others escape. -/
def contain (source : String) (tell : Failure → Option String) (body : Action Ending) :
    Action Ending := do
  match ← attempt body with
  | .ok e => return e
  | .error f =>
    match tell f with
    | some text =>
      error source text
      return .exit 1
    | none => throw f

end Action

def Failure.absentFile? : Failure → Option String
  | file .absent path => some path
  | _ => none

def tellAbsent (f : Failure) : Option String := f.absentFile?.map ("File not found: " ++ ·)

def tellUnwritten (f : Failure) : Option String :=
  if f.isOfSystem then some ("Error writing output file: " ++ f.message) else none

def tellValue (f : Failure) : Option String := if f.isOfValue then some f.message else none

end Provision
