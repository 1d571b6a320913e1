import Provision.Manifest.Write

namespace Provision

/-- How one run file differs from what its template has. -/
structure Variant where
  overrides : List (String × List Provider) := []
  models : Option (List Resource) := none
  shields : List Resource := []
  toolGroups : Option (List Resource) := none
  deriving Repr

def defaultRunFile : String := "run.yaml"

structure Template where
  name : String
  description : Value
  image : Value
  providers : List (String × List Provider)
  models : List Resource := []
  toolGroups : List Resource := []
  variants : List (String × Variant) := [(defaultRunFile, {})]
  documented : List (String × Value × Value) := []
  port : Value := .int 8321
  deriving Repr

namespace Template

def storeDirectory (name : String) : String :=
  Placeholder.text ⟨"SQLITE_STORE_DIR", .fallback ("~/.llama/distributions/" ++ name)⟩

def database (name file : String) : Value :=
  .record [("type", .text "sqlite"), ("db_path", .text (storeDirectory name ++ "/" ++ file))]

def sorted (names : List String) : List String := names.mergeSort fun a b => !(b < a)

def apis (t : Template) : List String := sorted (t.providers.map (·.1))

def runFiles (t : Template) : List String := t.variants.map (·.1)

/-- Puts providers under their API, in the place of those that are there. -/
def override : List (String × List Provider) → String × List Provider →
    List (String × List Provider)
  | [], e => [e]
  | f :: rest, e => if f.1 = e.1 then e :: rest else f :: override rest e

def providersOf (t : Template) (v : Variant) : List (String × List Provider) :=
  v.overrides.foldl override t.providers

def store (t : Template) (file : String) : Store :=
  { path := .text (storeDirectory t.name ++ "/" ++ file) }

def manifest (t : Template) (v : Variant) : Manifest :=
  let providers := t.providersOf v
  { imageName := .text t.name
    apis := sorted (providers.map (·.1))
    providers := providers.map fun e => (.text e.1, e.2)
    metadataStore := some (t.store "registry.db")
    inferenceStore := some (t.store "inference_store.db")
    resources := fun
      | .models => v.models.getD t.models
      | .shields => v.shields
      | .toolGroups => v.toolGroups.getD t.toolGroups
      | _ => []
    server := { port := t.port } }

def runConfig (t : Template) (file : String) : Except Failure Manifest :=
  match t.variants.lookup file with
  | some v => .ok (t.manifest v)
  | none => .error (.noRunFile t.name file t.runFiles)

end Template

/-- The templates that can be asked for by name; a template may turn out to be impossible. -/
abbrev Registry := List (String × Except Failure Template)

namespace Registry

def names (r : Registry) : List String := Template.sorted (r.map (·.1))

def find (r : Registry) (name : String) : Except Failure Template :=
  match r.lookup name with
  | some t => t
  | none => .error (.unknownDistribution name (names r))

def add (r : Registry) (name : String) (t : Except Failure Template) : Registry :=
  if (r.lookup name).isSome then r.map fun e => if e.1 = name then (name, t) else e
  else r ++ [(name, t)]

def runConfig (r : Registry) (distribution file : String) : Except Failure Manifest := do
  (← r.find distribution).runConfig file

end Registry
end Provision
