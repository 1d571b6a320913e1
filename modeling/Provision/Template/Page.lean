import Provision.Template.Basic

namespace Provision.Template

structure Variable where
  name : String
  description : Value
  fallback : Value
  required : Bool
  deriving Repr

def referencesByFile (t : Template) : Except Failure (List (List Reference)) :=
  t.variants.mapM fun v => (t.manifest v.2).references

def firstReferences (rs : List Reference) : List Reference :=
  rs.foldl (fun seen r => if seen.any fun s => s.name = r.name then seen else seen ++ [r]) []

def optionText (s : Option String) : Value := (s.map .text).getD .null

/-- A documented variable; a reference with a fallback counts more than the example. -/
def documentedVariable (references : List Reference) (d : String × Value × Value) : Variable :=
  { name := d.1
    description := d.2.2
    fallback :=
      match (references.find? fun r => r.name = d.1).bind (·.fallback) with
      | some s => .text s
      | none => d.2.1
    required := false }

def mentionedVariable (r : Reference) : Variable :=
  { name := r.name
    description := .text ("Used by " ++ ", ".intercalate r.paths)
    fallback := optionText r.fallback
    required := r.required }

/-- The documented variables, then those that only run files mention. -/
def variableList (t : Template) : Except Failure (List Variable) := do
  let references := firstReferences (← t.referencesByFile).flatten
  return t.documented.map (documentedVariable references)
    ++ (references.filter fun r => (t.documented.lookup r.name).isNone).map mentionedVariable

def code (s : String) : String := "`" ++ s ++ "`"

def row (cells : List String) : String := "| " ++ " | ".intercalate cells ++ " |"

def providerRow (m : Manifest) (api : String) : String :=
  row [api, ", ".intercalate ((m.providersOf api).map fun p => code p.kind)]

def variableLine (v : Variable) : Except Failure String := do
  let usage ← if v.required then pure "required" else do
    pure ("default: " ++ code (← v.fallback.plain))
  return "- " ++ code v.name ++ ": " ++ (← v.description.plain) ++ " (" ++ usage ++ ")"

def modelRow (r : Resource) : Except Failure String := do
  return row [code (← (r.identifier .models).plain), ← (r.get "provider_id").plain,
    ← (r.get "model_type").plain]

def modelTable (v : String × List Resource) : Except Failure (List String) := do
  return ["### Models (" ++ code v.1 ++ ")", "", "| Model ID | Provider | Type |",
    "|----------|----------|------|"] ++ (← v.2.mapM modelRow)

def listed (head : List String) (lines : List String) : List String :=
  if lines.isEmpty then [] else head ++ lines

def groupLine (r : Resource) : Except Failure String := do
  return "- " ++ code (← (r.identifier .toolGroups).plain) ++ " via "
    ++ (← (r.get "provider_id").plain)

def runningLines (image port : String) (required : List String) : List String :=
  ["## Running Llama Stack", "", "### Via Docker Compose", "",
    "Generate `compose.yaml` with `python -m deploy` and start the TGI server and the",
    "stack server together:", "", "```bash", "docker compose up", "```", "", "### Via Docker", "",
    "```bash", "export LLAMA_STACK_PORT=" ++ port, "docker run -it \\", "  --pull always \\",
    "  --network host \\", "  -p $LLAMA_STACK_PORT:$LLAMA_STACK_PORT \\",
    "  -v ~/.llama:/root/.llama \\", "  -v ./run.yaml:/root/my-run.yaml \\", "  " ++ image ++ " \\",
    "  --config /root/my-run.yaml \\",
    "  --port $LLAMA_STACK_PORT"
      ++ String.join (required.map fun n => " \\\n  --env " ++ n ++ "=$" ++ n),
    "```"]

def pageLines (t : Template) (m : Manifest) : Except Failure (List String) := do
  let references ← m.references
  let documented ← (← t.variableList).mapM variableLine
  let description ← t.description.plain
  let image ← t.image.plain
  let port ← t.port.plain
  let models ← t.variants.mapM fun v => modelTable (v.1, v.2.models.getD t.models)
  let groups ← (m.resources .toolGroups).mapM groupLine
  return ["# " ++ t.name ++ " Distribution", "", description, "",
    "The " ++ code image ++ " distribution consists of the following provider configurations.",
    "", "| API | Provider(s) |", "|-----|-------------|"]
    ++ m.apis.map (providerRow m) ++ [""]
    ++ listed ["### Environment Variables", "",
        "The following environment variables can be configured:", ""]
      documented
    ++ [""] ++ models.flatten ++ [""]
    ++ listed ["### Tool Groups", ""] groups
    ++ [""] ++ runningLines image port ((references.filter (·.required)).map (·.name))

def page (t : Template) : Except Failure String := do
  let m ← t.runConfig defaultRunFile
  return "\n".intercalate (← t.pageLines m) ++ "\n"

end Provision.Template
