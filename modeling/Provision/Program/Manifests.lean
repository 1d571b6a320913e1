import Provision.Manifest.Report
import Provision.Program.Basic
import Provision.Template.Dell
import Provision.Template.Generate

namespace Provision.Program.Manifests

open CommandLine

def source : String := "distro.__main__"

def distribution : Switch :=
  { names := ["--distribution", "-d"], key := "distribution", fallback := .text "dell" }

def file : Operand := ⟨"manifest", .one⟩

def logLevel (fallback : String) : Switch :=
  { names := ["--log-level"], key := "log_level", fallback := .text fallback }

def commands : Commands where
  name := "distro"
  grammar := { switches := [logLevel "INFO"] }
  commands :=
    [("generate",
        { switches :=
            [distribution,
              { names := ["--output", "-o"], key := "output", fallback := .text "run.yaml" },
              { names := ["--run-file"], key := "run_file", fallback := .text defaultRunFile },
              .flag ["--all"] "all",
              { names := ["--output-dir"], key := "output_dir", fallback := .text "." }] }),
      ("validate", { switches := [.flag ["--resolve"] "resolve"], operands := [file] }),
      ("resolve",
        { switches := [{ names := ["--output", "-o"], key := "output" }], operands := [file] }),
      ("env", { operands := [file] }),
      ("docs",
        { switches := [distribution, { names := ["--output", "-o"], key := "output" }] }),
      ("report", { operands := [file] }),
      ("list", {})]

variable (r : Registry) (a : Args)

def generate : Action Ending := do
  if a.flag "all" then
    let written ← r.generateAll (a.text "distribution") (a.text "output_dir")
    for (path, _) in written do Action.printLine ("Generated " ++ path)
  else
    let output := a.text "output"
    let _ ← r.generate
      { distribution := a.text "distribution", output, file := a.text "run_file" }
    Action.printLine ("Generated " ++ output)
  return .exit 0

def validate : Action Ending := do
  let path := a.text "manifest"
  let m ← Manifest.load path (a.flag "resolve") (← Action.environment)
  let problems ← Action.ofExcept m.validate
  if problems.isEmpty then
    Action.printLine ("✅ " ++ path ++ " is valid")
    return .exit 0
  else
    Action.printLine ("❌ " ++ path ++ s!": {problems.length} problem(s)")
    for problem in problems do Action.printLine ("  - " ++ problem)
    return .exit 1

def resolve : Action Ending := do
  let env ← Action.environment
  let m ← Manifest.load (a.text "manifest") false env
  let missing ← Action.ofExcept (Reference.missing env m.toValue)
  if !missing.isEmpty then
    Action.error source
      ("Missing required environment variables: " ++ ", ".intercalate missing)
    return .exit 1
  let resolved ← Action.ofExcept (m.resolve env)
  if a.flag "output" then resolved.save (a.text "output")
  else Action.print (← Action.ofExcept resolved.toYaml)
  return .exit 0

def detail (v : Reference) : String :=
  if v.required then "required"
  else if v.conditional then "conditional"
  else "default: " ++ Manifest.showDefault v.fallback

def listVariables : Action Ending := do
  let m ← Manifest.load (a.text "manifest") false (← Action.environment)
  for v in ← Action.ofExcept m.references do
    Action.printLine (v.name ++ "\t" ++ detail v ++ "\t" ++ ", ".intercalate v.paths)
  return .exit 0

def page : Action Ending := do
  let t ← Action.ofExcept (r.find (a.text "distribution"))
  let output := if a.flag "output" then a.text "output" else t.name ++ ".md"
  t.writePage output
  Action.printLine ("Documentation written to " ++ output)
  return .exit 0

def report : Action Ending := do
  let m ← Manifest.load (a.text "manifest") false (← Action.environment)
  let stamp := (← get).stamp
  Action.printLine (← Action.ofExcept (m.report stamp))
  return .exit 0

def tell (f : Failure) : Option String :=
  match f with
  | .unset .. => some f.message
  | f => tellAbsent f <|> tellValue f

def command (name : String) : Action Ending :=
  match name with
  | "generate" => generate r a
  | "validate" => validate a
  | "resolve" => resolve a
  | "env" => listVariables a
  | "docs" => page r a
  | _ => report a

def run : Program := fun args =>
  commands.run args fun a => do
    Action.setUpLog (a.get "log_level") .null
    match a.text "command" with
    | "" => commands.showHelp
    | "list" =>
      for name in Registry.builtin.names do Action.printLine name
      return .exit 0
    | name => Action.contain source tell (command Registry.builtin a name)

end Provision.Program.Manifests
