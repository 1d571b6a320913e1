import Provision.Workflow.Event
import Provision.Workflow.Glob

namespace Provision.Workflow

def mainBranch : String := "main"

def watched : List String :=
  ["llama_stack/**", "tests/**", "uv.lock", "pyproject.toml", "requirements.txt",
    ".github/workflows/integration-tests.yml", ".github/actions/setup-ollama/action.yml"]

/-- Whether a path matches one pattern; a pattern that ends in `/**` covers a whole directory. -/
def pathMatches (path pattern : String) : Bool :=
  if pattern.endsWith "/**" then path.startsWith (pattern.dropEnd 2).toString
  else matchesPattern pattern path

def pathMatchesAny (patterns : List String) (path : String) : Bool :=
  patterns.any (pathMatches path)

def branchName (s : String) : String :=
  if s.startsWith "refs/heads/" then (s.drop "refs/heads/".length).toString else s

def branchOf (v : Value) : Except Failure Value :=
  match v with
  | .text s => .ok (.text (branchName s))
  | v => .error (lacks v "startswith")

def anyWatched : List Value → Except Failure Bool
  | [] => .ok false
  | .text p :: rest => if pathMatchesAny watched p then .ok true else anyWatched rest
  | v :: _ => .error (lacks v "startswith")

def targetBranch (e : Event) : Except Failure Value :=
  if e.name.same (.text "pull_request") && e.baseRef.truthy then branchOf e.baseRef
  else branchOf e.ref

/-- Whether the workflow runs for an event. A branch that is given stands in for the event's own. -/
def shouldRun (e : Event) (branch : Option Value) (changed : List Value) :
    Except Failure Bool := do
  if e.name.elem [.text "schedule", .text "workflow_dispatch"] then return true
  let branch ← match branch with
    | some b => pure b
    | none => targetBranch e
  if !branch.same (.text mainBranch) then return false
  if e.name.same (.text "push") then return true
  if e.name.same (.text "pull_request") then anyWatched changed else return false

/-- The name under which runs of a workflow exclude each other. -/
def concurrencyGroup (workflow ref : Value) : Except Failure String := do
  return (← workflow.plain) ++ "-" ++ (← ref.plain)

end Provision.Workflow
