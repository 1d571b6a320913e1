import Provision.Compose.Document
import Provision.Program.Basic

namespace Provision.Program.Deployment

open CommandLine

def source : String := "deploy.__main__"

def textSwitches : List (Switch × String) :=
  [({ names := ["--tgi-image"], key := "tgi_image" }, "tgi_image"),
    ({ names := ["--stack-image"], key := "stack_image" }, "stack_image"),
    ({ names := ["--model-cache"], key := "model_cache" }, "model_cache"),
    ({ names := ["--run-yaml"], key := "run_yaml" }, "run_yaml")]

def integerSwitches : List (Switch × String) :=
  [({ names := ["--stack-port"], key := "stack_port", kind := .integer }, "stack_port"),
    ({ names := ["--startup-delay"], key := "startup_delay", kind := .integer },
      "startup_delay")]

def commands : Commands where
  name := "deploy"
  grammar :=
    { switches :=
        { names := ["--output", "-o"], key := "output", fallback := .text "compose.yaml" }
          :: textSwitches.map (·.1) ++ integerSwitches.map (·.1)
          ++ [.flag ["--no-healthcheck"] "no_healthcheck",
            { names := ["--log-level"], key := "log_level", fallback := .text "INFO" }] }

def apply (s : Compose.Settings) (a : Args) : Compose.Settings :=
  let given (isGiven : Value → Bool) (s : Compose.Settings) (e : Switch × String) :=
    let v := a.get e.1.key
    if isGiven v then (s.set? e.2 v).getD s else s
  let s := textSwitches.foldl (given Value.truthy) s
  let s := integerSwitches.foldl (given (!·.isNull)) s
  if a.flag "no_healthcheck" then { s with healthcheck := .bool false } else s

def run : Program := fun args =>
  commands.run args fun a => do
    Action.setUpLog (a.get "log_level") .null
    let env ← Action.environment
    let output := a.text "output"
    match Compose.Settings.ofEnvironment env with
    | .error f =>
      Action.error source f.message
      return .exit 1
    | .ok s =>
      Action.contain source tellUnwritten do
        Compose.save (apply s a) output
        Action.printLine ("Compose file written to " ++ output)
        return .exit 0

end Provision.Program.Deployment
