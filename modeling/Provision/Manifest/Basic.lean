import Provision.Files.Path
import Provision.Placeholder.Reference
import Provision.Value.Equality

namespace Provision

structure Provider where
  id : String
  kind : String
  config : Entries := []
  deriving Repr

namespace Provider

def isRemote (p : Provider) : Bool := p.kind.startsWith "remote::"

def isInline (p : Provider) : Bool := p.kind.startsWith "inline::"

end Provider

structure Store where
  kind : Value := .text "sqlite"
  path : Value := .null
  extra : Entries := []
  deriving Repr

/-- The path of a store's file with the home directory in it; none if there is no path yet. -/
def Store.expandedPath (env : Environment) (s : Store) : Except Failure (Option Path) :=
  if !s.path.truthy || Placeholder.inValue s.path then .ok none
  else
    match s.path with
    | .text p => (Path.ofText p).expandHome env |>.map some
    | v =>
      .error (.trouble .type
        ("expected str, bytes or os.PathLike object, not " ++ v.typeName))

inductive Section where
  | models | shields | vectorDbs | datasets | scoringFns | benchmarks | toolGroups
  deriving DecidableEq, Repr

namespace Section

def all : List Section :=
  [models, shields, vectorDbs, datasets, scoringFns, benchmarks, toolGroups]

def name : Section → String
  | models => "models"
  | shields => "shields"
  | vectorDbs => "vector_dbs"
  | datasets => "datasets"
  | scoringFns => "scoring_fns"
  | benchmarks => "benchmarks"
  | toolGroups => "tool_groups"

def ofName? (s : String) : Option Section := all.find? fun t => t.name = s

def api : Section → String
  | models => "inference"
  | shields => "safety"
  | vectorDbs => "vector_io"
  | datasets => "datasetio"
  | scoringFns => "scoring"
  | benchmarks => "eval"
  | toolGroups => "tool_runtime"

def kind : Section → String
  | models => "model"
  | shields => "shield"
  | vectorDbs => "vector_db"
  | datasets => "dataset"
  | scoringFns => "scoring_fn"
  | benchmarks => "benchmark"
  | toolGroups => "tool_group"

def idField : Section → String
  | toolGroups => "toolgroup_id"
  | s => s.kind ++ "_id"

def schema : Section → List (String × Value)
  | models =>
    [("model_id", .null), ("provider_id", .null), ("model_type", .text "llm"),
      ("provider_model_id", .null), ("metadata", .ofEntries [])]
  | shields =>
    [("shield_id", .null), ("provider_id", .null), ("provider_shield_id", .null),
      ("params", .null)]
  | vectorDbs =>
    [("vector_db_id", .null), ("embedding_model", .null), ("embedding_dimension", .null),
      ("provider_id", .null), ("provider_vector_db_id", .null)]
  | datasets =>
    [("dataset_id", .null), ("provider_id", .null), ("purpose", .null), ("source", .null),
      ("metadata", .null)]
  | scoringFns =>
    [("scoring_fn_id", .null), ("provider_id", .null), ("description", .null),
      ("return_type", .null), ("params", .null)]
  | benchmarks =>
    [("benchmark_id", .null), ("dataset_id", .null), ("scoring_functions", .ofList []),
      ("provider_id", .null), ("metadata", .null)]
  | toolGroups =>
    [("toolgroup_id", .null), ("provider_id", .null), ("args", .null), ("mcp_endpoint", .null)]

def fields (s : Section) : List String := s.schema.map (·.1)

/-- The fields in the order in which they are written. -/
def written : Section → List String
  | models => ["metadata", "model_id", "provider_id", "provider_model_id", "model_type"]
  | s => s.fields

end Section

/-- A resource of a section, with a value for each field of the section's schema. -/
structure Resource where
  slots : List (String × Value)
  extra : Entries := []
  deriving Repr

namespace Resource

def get (r : Resource) (field : String) : Value := (r.slots.lookup field).getD .null

def set (r : Resource) (field : String) (v : Value) : Resource :=
  { r with slots := r.slots.map fun f => if f.1 = field then (f.1, v) else f }

def identifier (s : Section) (r : Resource) : Value := r.get s.idField

end Resource

structure Server where
  port : Value := .int 8321
  extra : Entries := []
  deriving Repr

structure Manifest where
  imageName : Value := .text ""
  version : Value := .int 2
  apis : List String := []
  providers : List (Value × List Provider) := []
  metadataStore : Option Store := none
  inferenceStore : Option Store := none
  resources : Section → List Resource := fun _ => []
  server : Server := {}
  extra : Entries := []

namespace Manifest

def knownApis : List String :=
  ["agents", "batches", "datasetio", "eval", "files", "inference", "post_training", "safety",
    "scoring", "telemetry", "tool_runtime", "vector_io"]

def modelTypes : List String := ["llm", "embedding"]

def schema : List String :=
  ["version", "image_name", "apis", "providers", "metadata_store", "inference_store", "models",
    "shields", "vector_dbs", "datasets", "scoring_fns", "benchmarks", "tool_groups", "server"]

def providersOf (m : Manifest) (api : String) : List Provider :=
  ((m.providers.find? fun e => (Value.text api).same e.1).map (·.2)).getD []

def providerIds (m : Manifest) (api : String) : List String := (m.providersOf api).map (·.id)

def findProvider? (m : Manifest) (api id : String) : Option Provider :=
  (m.providersOf api).find? fun p => p.id = id

def modelsOfType (m : Manifest) (t : Value) : List Resource :=
  (m.resources .models).filter fun r => (r.get "model_type").same t

def identifiers (m : Manifest) (s : Section) : List Value :=
  (m.resources s).map (Resource.identifier s)

end Manifest
end Provision
