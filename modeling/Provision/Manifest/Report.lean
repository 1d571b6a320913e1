import Provision.Json.Writer
import Provision.Manifest.Check
import Provision.Manifest.Write

namespace Provision.Manifest

def rule : String := String.ofList (List.replicate 60 '=')

def stamp (t : Moment) : String :=
  toString t.date.year ++ (t.date.iso.drop 4).toString ++ " " ++ t.time

def describeProviders (ps : List Provider) : String :=
  if ps.isEmpty then "none" else ", ".intercalate (ps.map fun p => p.id ++ " (" ++ p.kind ++ ")")

def providerLine (m : Manifest) (api : String) : String :=
  "  " ++ api ++ ": " ++ describeProviders (m.providersOf api)

def modelLine (r : Resource) : Except Failure String := do
  return "  " ++ (← (r.identifier .models).plain) ++ " [" ++ (← (r.get "model_type").plain)
    ++ "] via " ++ (← (r.get "provider_id").plain)

def toolGroupLine (r : Resource) : Except Failure String := do
  return "  " ++ (← (r.identifier .toolGroups).plain) ++ " via " ++ (← (r.get "provider_id").plain)

def showDefault (s : Option String) : String := (s.map Value.showText).getD "None"

def referenceLine (r : Reference) : String :=
  "  " ++ r.name ++ " ("
    ++ (if r.required then "required" else "default " ++ showDefault r.fallback) ++ ")"

def part (title : String) (lines : List String) : List String :=
  if lines.isEmpty then [] else [title, ""] ++ lines ++ [""]

def reportLines (m : Manifest) (at' : String) (problems : List String) :
    Except Failure (List String) := do
  let name ← m.imageName.plain
  let version ← m.version.plain
  let port ← m.server.port.plain
  let models ← (m.resources .models).mapM modelLine
  let toolGroups ← (m.resources .toolGroups).mapM toolGroupLine
  let references ← m.references
  return [rule, "LLAMA STACK DISTRIBUTION: " ++ name, rule, "Generated: " ++ at', "",
    "SUMMARY:",
    "  Manifest version: " ++ version,
    s!"  APIs: {m.apis.length}",
    s!"  Providers: {m.providers.foldl (fun n e => n + e.2.length) 0}",
    s!"  Models: {(m.resources .models).length}",
    s!"  Tool groups: {(m.resources .toolGroups).length}",
    "  Server port: " ++ port, "",
    "PROVIDERS:", ""]
    ++ m.apis.map m.providerLine ++ [""]
    ++ part "MODELS:" models
    ++ part "TOOL GROUPS:" toolGroups
    ++ part "ENVIRONMENT:" (references.map referenceLine)
    ++ ["VALIDATION:"]
    ++ (if problems.isEmpty then ["  OK"] else problems.map ("  - " ++ ·))
    ++ [rule]

def report (m : Manifest) (at' : String) : Except Failure String := do
  return "\n".intercalate (← m.reportLines at' (← m.validate))

def jsonReport (m : Manifest) (t : Moment) : Except Failure String := do
  let references ← m.references
  let problems ← m.validate
  Json.write (Json.pretty false) (.record
    [("image_name", m.imageName), ("generated", .text (t.iso "T")), ("apis", .ofTexts m.apis),
      ("providers",
        .ofEntries (m.providers.map fun e => (e.1, .ofList (e.2.map Provider.toValue)))),
      ("models", .ofList ((m.resources .models).map (Resource.toValue .models))),
      ("env", .ofTexts (references.map (·.name))), ("problems", .ofTexts problems)])

end Provision.Manifest
