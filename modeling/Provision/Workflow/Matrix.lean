import Provision.Template.Basic
import Provision.Workflow.Event

namespace Provision.Workflow

structure Entry where
  testType : Value
  clientType : Value
  provider : Value
  languageVersion : Value
  clientVersion : Value
  deriving Repr

namespace Entry

def fields (e : Entry) : List (String × Value) :=
  [("test_type", e.testType), ("client_type", e.clientType), ("provider", e.provider),
    ("python_version", e.languageVersion), ("client_version", e.clientVersion)]

def hyphens (s : String) : String := s.map fun c => if c = '_' then '-' else c

def toValue (e : Entry) : Value := .record (e.fields.map fun f => (hyphens f.1, f.2))

def get (e : Entry) (field : String) : Value := (e.fields.lookup field).getD .null

end Entry

/-- A rule names fields and values; an entry that has them all is excluded. -/
abbrev Rule := List (String × Value)

def defaultRules : List Rule :=
  ["safety", "post_training", "tool_runtime"].map fun t =>
    [("provider", .text "vllm"), ("test_type", .text t)]

def Rule.applies (r : Rule) (e : Entry) : Bool := r.all fun f => (e.get f.1).same f.2

def isExcluded (rules : List Rule) (e : Entry) : Bool := rules.any (Rule.applies · e)

def clientTypes : List Value := [.text "library", .text "server"]

def languageVersions : List Value := [.text "3.12", .text "3.13"]

def vllmSchedule : Value := .text "1 0 * * 0"

def allClientsSchedule : Value := .text "0 0 * * 0"

def providers (e : Event) : Except Failure (List Value) := do
  if e.schedule.same vllmSchedule then return [.text "vllm"]
  return [← e.input "test-provider" (.text "ollama")]

def readsTrue (v : Value) : Except Failure Bool := do
  return String.ofList ((← v.plain).toList.map Char.toLower) = "true"

def clientVersions (e : Event) : Except Failure (List Value) := do
  let all ← readsTrue (← e.input "test-all-client-versions" (.text "false"))
  return (if e.schedule.same allClientsSchedule || all then [.text "published"] else [])
    ++ [.text "latest"]

def combinations (testTypes providers clientVersions : List Value) : List Entry :=
  testTypes.flatMap fun t => clientTypes.flatMap fun c => providers.flatMap fun p =>
    languageVersions.flatMap fun l => clientVersions.map fun v => ⟨t, c, p, l, v⟩

def candidates (testTypes : List Value) (e : Event) : Except Failure (List Entry) := do
  let ps ← providers e
  let vs ← clientVersions e
  return combinations testTypes ps vs

def matrix (testTypes : List Value) (e : Event) : Except Failure (List Entry) := do
  return (← candidates testTypes e).filter fun j => !isExcluded defaultRules j

def expand (testTypes : List Value) (e : Event) : Action (List Entry) := do
  let all ← Action.ofExcept (candidates testTypes e)
  let kept := all.filter fun j => !isExcluded defaultRules j
  Action.info "testmatrix.matrix"
    s!"Matrix has {kept.length} job(s) ({all.length - kept.length} excluded)"
  return kept

def excludedDirectories : List String := ["__pycache__", "fixtures", "test_cases"]

def defaultRoot : String := "tests/integration"

def suites (t : Tree) (place : List String) (exclude : List String) : List String :=
  Template.sorted ((t.children place).filterMap fun c =>
    if c.2 = .directory && !exclude.contains c.1 then some c.1 else none)

def discover (root : String) (exclude : List String) : Action (List String) := do
  let t := (← get).tree
  let path := (Path.ofText root).text
  match t.locate path with
  | .ok place =>
    if t.node? place = some .directory then return suites t place exclude
    Action.warning "testmatrix.matrix" ("Test root " ++ root ++ " does not exist")
    return []
  | .error _ =>
    Action.warning "testmatrix.matrix" ("Test root " ++ root ++ " does not exist")
    return []

end Provision.Workflow
