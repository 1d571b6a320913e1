import Provision.Profile.Basic
import Provision.Session
import Provision.Yaml.Writer

namespace Provision

namespace Profile

def layout : Yaml.Layout :=
  { unicode := false, sorted := true, tupleTag := "!!python/tuple" }

/-- The text of a profile file. What settings share is written out for each of them. -/
def toYaml (p : Profile) : Except Failure String :=
  Yaml.write layout
    (.record (p.fields.map fun f => (f.1, Yaml.reanchor (fun _ => none) f.2)))

def save (p : Profile) (path : String) : Action Unit := do
  Action.writeText path ""
  Action.writeText path (← Action.ofExcept p.toYaml)

def read (path : String) : Action Profile := do
  let text ← Action.readText path
  Action.ofExcept (do ofValue (← Yaml.read 0 text))

def isYamlPath (path : String) : Bool := path.endsWith ".yaml" || path.endsWith ".yml"

def load (path : String) : Action Profile := do
  if isYamlPath path then read path
  else Action.ofExcept (ofEnvironment (← Action.environment))

def outputPath (p : Profile) (file : String) : Action String := do
  match p.outputDirectory with
  | .text directory =>
    Action.ensureDirectory (Path.ofText directory)
    return Path.join directory file
  | v =>
    throw (.trouble .type ("expected str, bytes or os.PathLike object, not " ++ v.typeName))

def sample : String :=
  "# Llama Stack distribution toolkit configuration\n" ++
  "\n" ++
  "# Llama Stack connection settings\n" ++
  "stack_url: \"http://localhost:8321\"\n" ++
  "distribution: \"dell\"\n" ++
  "inference_model: null\n" ++
  "\n" ++
  "# Output settings\n" ++
  "output_directory: \"distributions\"\n" ++
  "\n" ++
  "# Client behaviour (seconds)\n" ++
  "client_timeout: 300.0\n" ++
  "health_timeout: 120.0\n" ++
  "health_interval: 2.0\n" ++
  "\n" ++
  "# Logging\n" ++
  "log_level: \"INFO\"\n" ++
  "log_file: null  # Set to filename to log to file\n"

end Profile

namespace Workspace

def directories : List String := ["distributions", "configs", "logs"]

def source : String := "stack_utils"

def setUp (base : String) : Action String := do
  let base := Path.ofText base
  for d in directories do
    let p := base.append (Path.ofText d)
    Action.ensureDirectory p
    Action.info source ("Created directory: " ++ p.text)
  let p := base.append (Path.ofText "configs/sample_toolkit_config.yaml")
  if !(← Action.pathExists p.text) then
    Action.writeText p.text Profile.sample
    Action.info source ("Created sample configuration: " ++ p.text)
  return p.text

end Workspace
end Provision
