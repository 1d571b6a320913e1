import Provision.Program.Basic
import Provision.Workflow.Job
import Provision.Workflow.Output
import Provision.Workflow.Trigger

namespace Provision.Program.Jobs

open CommandLine

def root : Switch :=
  { names := ["--root"], key := "root", fallback := .text Workflow.defaultRoot }

def eventSwitches : List Switch :=
  [{ names := ["--event"], key := "event" }, { names := ["--schedule"], key := "schedule" },
    { names := ["--provider"], key := "provider" },
    .flag ["--all-client-versions"] "all_client_versions"]

def commands : Commands where
  name := "testmatrix"
  grammar :=
    { switches :=
        [{ names := ["--log-level"], key := "log_level", fallback := .text "WARNING" }] }
  commands :=
    [("discover",
        { switches :=
            [root,
              { names := ["--output-name"], key := "output_name"
                fallback := .text "test-type" }] }),
      ("expand", { switches := root :: eventSwitches }),
      ("command",
        { switches :=
            [{ names := ["--test-type"], key := "test_type", required := true },
              { names := ["--client-type"], key := "client_type"
                kind := .choice ["library", "server"], fallback := .text "library" },
              { names := ["--provider"], key := "provider", fallback := .text "ollama" },
              { names := ["--python-version"], key := "python_version"
                fallback := .text "3.12" },
              { names := ["--client-version"], key := "client_version"
                fallback := .text "latest" }] }),
      ("should-run",
        { switches := eventSwitches ++
            [{ names := ["--branch"], key := "branch" },
              { names := ["--changed"], key := "changed", arity := .any
                fallback := .ofList [] }] })]

def applyTo (e : Workflow.Event) (a : Args) : Except Failure Workflow.Event := do
  let e := if a.flag "event" then { e with name := a.get "event" } else e
  let e := if a.flag "schedule" then { e with schedule := a.get "schedule" } else e
  let e ← if a.flag "provider" then e.setInput "test-provider" (a.get "provider") else pure e
  if a.flag "all_client_versions" then e.setInput "test-all-client-versions" (.text "true")
  else return e

def event (a : Args) : Action Workflow.Event := do
  let env ← Action.environment
  let e ← Workflow.Event.ofEnvironment env
  Action.ofExcept (applyTo e a)

def suites (a : Args) : Action Value := do
  return .ofTexts (← Workflow.discover (a.text "root") Workflow.excludedDirectories)

def discover (a : Args) : Action Ending := do
  let _ ← Workflow.writeOutput (a.text "output_name") (← suites a) ""
  return .exit 0

def expand (a : Args) : Action Ending := do
  let found ← suites a
  let entries ← Workflow.expand (found.items?.getD []) (← event a)
  let text ← Action.ofExcept
    (Json.write (Json.pretty true) (.ofList (entries.map Workflow.Entry.toValue)))
  Action.printLine text
  return .exit 0

def job (a : Args) : Workflow.Job :=
  Workflow.Job.ofEntry
    ⟨a.get "test_type", a.get "client_type", a.get "provider", a.get "python_version",
      a.get "client_version"⟩

def command (a : Args) : Action Ending := do
  let j := job a
  for v in j.env do Action.printLine (Workflow.Job.exportLine v)
  Action.printLine (← Action.ofExcept j.commandLine)
  return .exit 0

def shouldRun (a : Args) : Action Ending := do
  let e ← event a
  let branch := a.get "branch"
  let runs ← Action.ofExcept (Workflow.shouldRun e (if branch.isNull then none else some branch)
    (((a.get "changed").items?).getD []))
  return .exit (if runs then 0 else 1)

def run : Program := fun args =>
  commands.run args fun a => do
    Action.setUpLog (a.get "log_level") .null
    match a.text "command" with
    | "" => commands.showHelp
    | "discover" => discover a
    | "expand" => expand a
    | "command" => command a
    | _ => shouldRun a

end Provision.Program.Jobs
