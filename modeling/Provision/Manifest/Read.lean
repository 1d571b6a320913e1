import Provision.Manifest.Basic
import Provision.Yaml.Document

namespace Provision

def pairOf? (i : Nat) : Value → Except Failure (Value × Value)
  | .list _ xs | .tuple xs | .set _ xs => two xs
  | .text s => two (s.toList.map fun c => .text c.toString)
  | .bytes bs => two (bs.map fun b => .int b.toNat)
  | .map _ es => two (es.map (·.1))
  | _ =>
    .error (.trouble .type s!"cannot convert dictionary update sequence element #{i} to a sequence")
where
  two : List Value → Except Failure (Value × Value)
    | [k, v] =>
      if k.hashable then .ok (k, v)
      else .error (.trouble .type ("unhashable type: " ++ Value.showText k.typeName))
    | xs =>
      .error (.trouble .value (s!"dictionary update sequence element #{i} has length {xs.length}; "
        ++ "2 is required"))

def putPairs (es : Entries) (i : Nat) : List Value → Except Failure Entries
  | [] => .ok es
  | x :: xs => do
    let (k, v) ← pairOf? i x
    putPairs (Entries.put es k v) (i + 1) xs

/-- The entries that a value stands for: those of a mapping, or those a list of pairs names. -/
def entriesOf? : Value → Except Failure Entries
  | .map _ es => .ok es
  | .list _ xs | .tuple xs | .set _ xs => putPairs [] 0 xs
  | .text s => putPairs [] 0 (s.toList.map fun c => .text c.toString)
  | .bytes bs => putPairs [] 0 (bs.map fun b => .int b.toNat)
  | v => .error (.trouble .type (Value.showText v.typeName ++ " object is not iterable"))

namespace Provider

def textField? (api : Value) (es : Entries) (field : String) : Except Failure String :=
  match Entries.get es field with
  | .text s => .ok s
  | v => do throw (.manifest (.providerNotText (← api.plain) field (← v.quoted)))

def ofValue (api : Value) : Value → Except Failure Provider
  | .map _ es => do
    let lacking := ["provider_id", "provider_type"].filter fun f => !(Entries.get es f).truthy
    if !lacking.isEmpty then throw (.manifest (.providerLacks (← api.plain) lacking))
    let id ← textField? api es "provider_id"
    let kind ← textField? api es "provider_type"
    let config ← entriesOf? ((Entries.get es "config").orElse (.ofEntries []))
    return ⟨id, kind, config⟩
  | v => do throw (.manifest (.providerNotMapping (← api.plain) v))

end Provider

def Entries.getD (es : Entries) (k : String) (d : Value) : Value := (get? es (.text k)).getD d

def Store.ofValue : Value → Except Failure (Option Store)
  | .null => .ok none
  | .map _ es =>
    .ok (some
      { kind := Entries.getD es "type" (.text "sqlite")
        path := Entries.get es "db_path"
        extra := Entries.without es ["type", "db_path"] })
  | v => .error (.manifest (.storeNotMapping v))

def Resource.ofValue (s : Section) : Value → Except Failure Resource
  | .map _ es => do
    let id := Entries.get es s.idField
    if !id.truthy then throw (.manifest (.resourceLacks s.kind s.idField))
    match id with
    | .list .. | .map .. => throw (.manifest (.resourceNotScalar s.kind s.idField (← id.quoted)))
    | _ =>
      return { slots := s.schema.map fun f => (f.1, Entries.getD es f.1 f.2)
               extra := Entries.without es s.fields }
  | v => .error (.manifest (.resourceNotMapping s.kind v))

def Server.ofValue (v : Value) : Except Failure Server :=
  match v.orElse (.ofEntries []) with
  | .map _ es =>
    .ok { port := Entries.getD es "port" (.int 8321), extra := Entries.without es ["port"] }
  | v => .error (.manifest (.serverNotMapping v))

namespace Manifest

def apisOf? (v : Value) : Except Failure (List String) :=
  match v.orElse (.ofList []) with
  | .list _ xs =>
    xs.mapM fun x =>
      match x with
      | .text s => .ok s
      | x => do throw (.manifest (.apiNotName (← x.quoted)))
  | v => .error (.manifest (.apisNotList v))

def providerList? (api : Value) : Value → Except Failure (List Provider)
  | .list _ xs => xs.mapM (Provider.ofValue api)
  | _ => do throw (.manifest (.providersNotList (← api.plain)))

def providersOf? (v : Value) : Except Failure (List (Value × List Provider)) :=
  match v.orElse (.ofEntries []) with
  | .map _ es => es.mapM fun e => do return (e.1, ← providerList? e.1 e.2)
  | _ => .error (.manifest .providersNotMapping)

def sectionOf? (s : Section) (v : Value) : Except Failure (List Resource) :=
  match v.orElse (.ofList []) with
  | .list _ xs => xs.mapM (Resource.ofValue s)
  | _ => .error (.manifest (.sectionNotList s.name))

def sectionsOf? (es : Entries) : List Section → Except Failure (Section → List Resource)
  | [] => .ok fun _ => []
  | s :: rest => do
    let rs ← sectionOf? s (Entries.get es s.name)
    let others ← sectionsOf? es rest
    return fun t => if t = s then rs else others t

def ofValue : Value → Except Failure Manifest
  | .map _ es => do
    let apis ← apisOf? (Entries.get es "apis")
    let providers ← providersOf? (Entries.get es "providers")
    let resources ← sectionsOf? es Section.all
    let metadataStore ← Store.ofValue (Entries.get es "metadata_store")
    let inferenceStore ← Store.ofValue (Entries.get es "inference_store")
    let server ← Server.ofValue (Entries.get es "server")
    return { imageName := (Entries.get es "image_name").orElse (.text "")
             version := Entries.getD es "version" (.int 2)
             apis, providers, metadataStore, inferenceStore, resources, server
             extra := Entries.without es schema }
  | v => .error (.manifest (.notMapping v))

def ofYaml (base : Nat) (s : String) : Except Failure Manifest :=
  match Yaml.read base s with
  | .error .yaml => .error (.manifest .unreadable)
  | .error f => .error f
  | .ok v => ofValue v

end Manifest
end Provision
