import Provision.Manifest.Read
import Provision.Yaml.Writer

namespace Provision

def Value.ofTexts (ss : List String) : Value := .ofList (ss.map .text)

def Provider.toValue (p : Provider) : Value :=
  .record ([("provider_id", .text p.id), ("provider_type", .text p.kind)]
    ++ if p.config.isEmpty then [] else [("config", .ofEntries p.config)])

/-- Fields and extra entries as one mapping; an extra entry counts more than a field of its name. -/
def withExtra (fields : List (String × Value)) (extra : Entries) : Entries :=
  Entries.update (fields.map fun f => (.text f.1, f.2)) extra

def Store.toValue (s : Store) : Value :=
  .ofEntries (withExtra
    ([("type", s.kind)] ++ if s.path.isNull then [] else [("db_path", s.path)]) s.extra)

namespace Resource

def writtenFields (s : Section) (r : Resource) : List (String × Value) :=
  (s.written.map fun f => (f, r.get f)).filter fun f => !f.2.isNull

def toEntries (s : Section) (r : Resource) : Entries := withExtra (r.writtenFields s) r.extra

def toValue (s : Section) (r : Resource) : Value := .ofEntries (r.toEntries s)

end Resource

def Server.toValue (s : Server) : Value := .ofEntries (withExtra [("port", s.port)] s.extra)

namespace Manifest

def storeField (name : String) (s : Option Store) : List (String × Value) :=
  s.toList.map fun s => (name, s.toValue)

def sectionField (m : Manifest) (s : Section) : String × Value :=
  (s.name, .ofList ((m.resources s).map (Resource.toValue s)))

def fields (m : Manifest) : List (String × Value) :=
  [("version", m.version), ("image_name", m.imageName), ("apis", .ofTexts m.apis),
    ("providers", .ofEntries (m.providers.map fun e => (e.1, .ofList (e.2.map Provider.toValue))))]
    ++ storeField "metadata_store" m.metadataStore
    ++ storeField "inference_store" m.inferenceStore
    ++ Section.all.map m.sectionField
    ++ [("server", m.server.toValue)]

def toEntries (m : Manifest) : Entries := withExtra m.fields m.extra

def toValue (m : Manifest) : Value := .ofEntries m.toEntries

def layout : Yaml.Layout := {}

def toYaml (m : Manifest) : Except Failure String := Yaml.write layout m.toValue

def references (m : Manifest) : Except Failure (List Reference) := Reference.find m.toValue ""

def resolve (env : Environment) (m : Manifest) : Except Failure Manifest := do
  ofValue (← Placeholder.replace env "" m.toValue)

end Manifest
end Provision
