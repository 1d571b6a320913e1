import Provision.Json.Writer
import Provision.Session

namespace Provision.Workflow

def outputLine (name : String) (v : Value) : Except Failure String := do
  return name ++ "=" ++ (← Json.write Json.compact v)

/-- Writes an output to a file, to the file that the environment names, or else prints it. -/
def writeOutput (name : String) (v : Value) (path : String) : Action String := do
  let line ← Action.ofExcept (outputLine name v)
  let env ← Action.environment
  let path := if path = "" then env.getD "GITHUB_OUTPUT" "" else path
  if path = "" then Action.printLine line else Action.appendText path (line ++ "\n")
  return line

end Provision.Workflow
