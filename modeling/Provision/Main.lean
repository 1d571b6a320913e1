import Provision.Program.Catalog

namespace Provision.Main

def load (path : String) : IO (String × Node) := do
  try
    let bytes ← IO.FS.readBinFile path
    return (path, .file (.ofBytes bytes.toList))
  catch _ => return (path, .directory)

def listed (text : String) : List String :=
  (text.splitOn "\n").filter fun line => !(Path.partsOf line).isEmpty

def readVariables : List String :=
  ["HOME", "LLAMA_STACK_CLIENT_TIMEOUT", "GITHUB_BASE_REF", "GITHUB_EVENT_NAME",
    "GITHUB_EVENT_PATH", "GITHUB_OUTPUT", "GITHUB_REF"]
    ++ (Profile.textVariables ++ Compose.Settings.textVariables
      ++ Compose.Settings.integerVariables).map (·.1)

def placeholderVariables : Node → List String
  | .file (.text s) => (Placeholder.all s).map (·.name)
  | _ => []

def environment (names : List String) : IO Environment :=
  names.eraseDups.filterMapM fun name => return (← IO.getEnv name).map ((name, ·))

/-- Writes what is in a tree and was not in the tree before. -/
def store (before after : Tree) : IO Unit := do
  for (place, node) in after.nodes do
    if before.node? place != some node then
      let path := "/" ++ "/".intercalate place
      match node with
      | .directory => IO.FS.createDirAll path
      | .file c => IO.FS.writeBinFile path ⟨c.bytes.toArray⟩

def unreachable : Service :=
  { script := [Endpoint.providers, .models, .register, .insert, .query, .chat, .health].map
      fun e => (e, [.fails ⟨.connection, "no connection"⟩]) }

def run (p : Program) (args : List String) : IO UInt32 := do
  let paths := listed (← (← IO.getStdin).readToEnd)
  let nodes ← paths.mapM load
  let env ← environment (readVariables ++ nodes.flatMap fun n => placeholderVariables n.2)
  let stamp := ((← IO.getEnv "REPORT_TIME").getD "now")
  let before := Tree.ofList nodes (Path.partsOf (← IO.currentDir).toString)
  let (ended, after) := p args { env, tree := before, service := unreachable, stamp }
  store before after.tree
  IO.print after.output
  IO.eprint after.console
  match ended with
  | .ok e => return e.code.toUInt32
  | .error f =>
    IO.eprintln f.message
    return 1

end Provision.Main

open Provision in
def main : List String → IO UInt32
  | name :: args =>
    match Program.catalog.lookup name with
    | some p => Main.run p args
    | none => do
      IO.eprintln ("no such program: " ++ name)
      return 2
  | [] => do
    IO.eprintln ("usage: provision PROGRAM [WORD]...\nprograms: "
      ++ ", ".intercalate (Program.catalog.map (·.1)))
    return 2
