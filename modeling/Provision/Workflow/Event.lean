import Provision.Json.Reader
import Provision.Session

namespace Provision.Workflow

structure Event where
  name : Value := .text "push"
  schedule : Value := .null
  inputs : Value := .ofEntries []
  ref : Value := .text "refs/heads/main"
  baseRef : Value := .null
  deriving Repr

/-- The failure to ask a value for a member that only values of another type have. -/
def lacks (v : Value) (name : String) : Failure :=
  .trouble .attribute (Value.showText v.typeName ++ " object has no attribute '" ++ name ++ "'")

def member (v : Value) (k : String) : Except Failure Value :=
  match v with
  | .map _ es => .ok (Entries.get es k)
  | v => .error (lacks v "get")

namespace Event

def input (e : Event) (name : String) (fallback : Value) : Except Failure Value := do
  let v ← member e.inputs name
  return if v.isNull || v.same (.text "") then fallback else v

def setInput (e : Event) (name : String) (v : Value) : Except Failure Event :=
  match e.inputs with
  | .map a es => .ok { e with inputs := .map a (Entries.put es (.text name) v) }
  | w =>
    .error (.trouble .type
      (Value.showText w.typeName ++ " object does not support item assignment"))

def payloadBaseRef (payload : Value) : Except Failure Value := do
  let request := (← member payload "pull_request").orElse (.ofEntries [])
  let base := (← member request "base").orElse (.ofEntries [])
  member base "ref"

def variableD (env : Environment) (name : String) (fallback : Value) : Value :=
  match env.get? name with
  | some s => .text s
  | none => fallback

def ofPayload (env : Environment) (payload : Value) : Except Failure Event := do
  let schedule ← member payload "schedule"
  let inputs := (← member payload "inputs").orElse (.ofEntries [])
  let baseRef ←
    match env.nonempty? "GITHUB_BASE_REF" with
    | some s => pure (.text s)
    | none => payloadBaseRef payload
  let default : Event := {}
  return { name := variableD env "GITHUB_EVENT_NAME" default.name
           schedule, inputs, baseRef
           ref := variableD env "GITHUB_REF" default.ref }

def readPayload (env : Environment) : Action Value := do
  match env.nonempty? "GITHUB_EVENT_PATH" with
  | none => return .ofEntries []
  | some path =>
    if ← Action.pathExists path then Action.ofExcept (Json.read (← Action.readText path))
    else return .ofEntries []

def ofEnvironment (env : Environment) : Action Event := do
  Action.ofExcept (ofPayload env (← readPayload env))

end Event
end Provision.Workflow
