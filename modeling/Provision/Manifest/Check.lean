import Provision.Manifest.Basic

namespace Provision

/-- What is found in checking a manifest: a problem, or a value that cannot be looked for among
others, at which checking ends. -/
inductive Finding where
  | nameless
  | unknownApi (api : String)
  | unserved (api : String)
  | unlisted (api : Value)
  | repeatedProvider (api : Value) (p : Provider)
  | unprefixed (api : Value) (p : Provider)
  | repeated (s : Section) (r : Resource)
  | unbound (s : Section) (r : Resource) (providers : Nat)
  | misbound (s : Section) (r : Resource)
  | untyped (r : Resource)
  | dimensionless (r : Resource)
  | withoutEmbedding (r : Resource)
  | withoutDataset (r : Resource)
  | badPort (port : Value)
  | stuck (v : Value)
  deriving Repr

namespace Manifest

def unhashable (v : Value) : Failure := .trouble .type ("unhashable type: '" ++ v.typeName ++ "'")

def quote (v : Value) : Except Failure String := do
  return "'" ++ (← v.plain) ++ "'"

end Manifest

open Manifest in
def Finding.text : Finding → Except Failure String
  | nameless => .ok "image_name is required"
  | unknownApi api => .ok ("Unknown API '" ++ api ++ "' in apis")
  | unserved api => .ok ("API '" ++ api ++ "' is listed in apis but has no providers")
  | unlisted api => do
    return "Providers are configured for " ++ (← quote api) ++ " which is not listed in apis"
  | repeatedProvider api p => do
    return "Duplicate provider_id '" ++ p.id ++ "' under " ++ (← quote api)
  | unprefixed api p => do
    return "Provider '" ++ p.id ++ "' under " ++ (← quote api) ++ " has provider_type '" ++ p.kind
      ++ "' without a remote:: or inline:: prefix"
  | repeated s r => do
    return "Duplicate " ++ s.idField ++ " " ++ (← quote (r.identifier s)) ++ " in " ++ s.name
  | unbound s r providers => do
    return s.kind ++ " " ++ (← quote (r.identifier s))
      ++ s!" has no provider_id and '{s.api}' has {providers} providers"
  | misbound s r => do
    return s.kind ++ " " ++ (← quote (r.identifier s)) ++ " refers to provider "
      ++ (← quote (r.get "provider_id")) ++ " which is not configured under '" ++ s.api ++ "'"
  | untyped r => do
    return "model " ++ (← quote (r.identifier .models)) ++ " has unknown model_type "
      ++ (← quote (r.get "model_type"))
  | dimensionless r => do
    return "embedding model " ++ (← quote (r.identifier .models))
      ++ " needs an integer metadata.embedding_dimension"
  | withoutEmbedding r => do
    return "vector_db " ++ (← quote (r.identifier .vectorDbs)) ++ " uses embedding_model "
      ++ (← quote (r.get "embedding_model")) ++ " which is not a registered embedding model"
  | withoutDataset r => do
    return "benchmark " ++ (← quote (r.identifier .benchmarks)) ++ " refers to unknown dataset "
      ++ (← quote (r.get "dataset_id"))
  | badPort port => do
    return "server.port must be an integer between 1 and 65535, got " ++ (← port.quoted)
  | stuck v => .error (unhashable v)

namespace Manifest

def checkName (m : Manifest) : List Finding := if m.imageName.truthy then [] else [.nameless]

def checkListed (m : Manifest) (api : String) : List Finding :=
  if api ∉ knownApis then [.unknownApi api]
  else if (m.providersOf api).isEmpty then [.unserved api]
  else []

def checkConfigured (m : Manifest) (api : Value) : List Finding :=
  if api.elem (m.apis.map .text) then [] else [.unlisted api]

def checkProviders (api : Value) : List String → List Provider → List Finding
  | _, [] => []
  | seen, p :: ps =>
    (if p.id ∈ seen then [.repeatedProvider api p] else [])
    ++ (if p.isRemote || p.isInline then [] else [.unprefixed api p])
    ++ checkProviders api (p.id :: seen) ps

/-- A value that is looked for in a set has to be one that can be: a member, or a set. -/
def checkMember (seen : List Value) (v : Value) (absent present : List Finding) : List Finding :=
  if !v.searchable then [.stuck v] else if v.elem seen then present else absent

def checkHashable (v : Value) : List Finding := if v.hashable then [] else [.stuck v]

/-- A resource names a provider of its API; without a name the API has to have exactly one. -/
def checkBinding (s : Section) (ids : List String) (r : Resource) : List Finding :=
  let provider := r.get "provider_id"
  if provider.isNull then if ids.length = 1 then [] else [.unbound s r ids.length]
  else if Placeholder.inValue provider || provider.elem (ids.map .text) then []
  else [.misbound s r]

def checkSection (s : Section) (ids : List String) (seen : List Value) :
    List Resource → List Finding
  | [] => []
  | r :: rs =>
    let id := r.identifier s
    checkMember seen id [] (if Placeholder.inValue id then [] else [.repeated s r])
      ++ checkHashable id ++ checkBinding s ids r ++ checkSection s ids (id :: seen) rs

def checkModel (r : Resource) : List Finding :=
  let type := r.get "model_type"
  if !type.elem (modelTypes.map .text) then [.untyped r]
  else if type.same (.text "embedding") then
    let dimension := match r.get "metadata" with
      | .map _ es => Entries.get es "embedding_dimension"
      | _ => .null
    if dimension.isInt then [] else [.dimensionless r]
  else []

/-- A vector database names a registered embedding model. -/
def checkVectorDb (embeddings : List Value) (r : Resource) : List Finding :=
  let model := r.get "embedding_model"
  if !model.truthy || Placeholder.inValue model then []
  else checkMember embeddings model [.withoutEmbedding r] []

/-- A benchmark names a registered dataset, if any is registered. -/
def checkBenchmark (datasets : List Value) (r : Resource) : List Finding :=
  let dataset := r.get "dataset_id"
  if datasets.isEmpty || !dataset.truthy then []
  else checkMember datasets dataset [.withoutDataset r] []

def isPort : Value → Bool
  | .int n => 1 ≤ n && n ≤ 65535
  | _ => false

def checkPort (m : Manifest) : List Finding :=
  let port := m.server.port
  if Placeholder.inValue port || isPort port then [] else [.badPort port]

def embeddings (m : Manifest) : List Value :=
  (m.modelsOfType (.text "embedding")).map (Resource.identifier .models)

/-- What is found in a manifest, in the order in which it is checked. -/
def findings (m : Manifest) : List Finding :=
  m.checkName ++ m.apis.flatMap m.checkListed
    ++ m.providers.flatMap (fun e => m.checkConfigured e.1)
    ++ m.providers.flatMap (fun e => checkProviders e.1 [] e.2)
    ++ Section.all.flatMap (fun s => checkSection s (m.providerIds s.api) [] (m.resources s))
    ++ (m.resources .models).flatMap checkModel
    ++ m.embeddings.flatMap checkHashable
    ++ (m.resources .vectorDbs).flatMap (checkVectorDb m.embeddings)
    ++ (m.identifiers .datasets).flatMap checkHashable
    ++ (m.resources .benchmarks).flatMap (checkBenchmark (m.identifiers .datasets))
    ++ m.checkPort

def validate (m : Manifest) : Except Failure (List String) := m.findings.mapM Finding.text

def check (m : Manifest) : Except Failure Unit := do
  let problems ← m.validate
  if problems.isEmpty then return () else throw (.inconsistent problems)

end Manifest
end Provision
