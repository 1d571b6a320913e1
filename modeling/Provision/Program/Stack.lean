import Provision.Client.Operations
import Provision.Json.Writer
import Provision.Profile.Basic
import Provision.Program.Basic

namespace Provision.Program.Stack

open CommandLine

def source : String := "stack.__main__"

def database : Operand := ⟨"vector_db_id", .one⟩

def commands : Commands where
  name := "stack"
  grammar :=
    { switches :=
        [{ names := ["--stack-url", "-u"], key := "stack_url" },
          { names := ["--log-level"], key := "log_level" }] }
  commands :=
    [("health",
        { switches :=
            [.flag ["--wait"] "wait",
              { names := ["--timeout"], key := "timeout", kind := .number }] }),
      ("providers",
        { switches := [{ names := ["--api"], key := "api" }, .flag ["--json"] "json"] }),
      ("models", {}),
      ("ingest",
        { switches :=
            [{ names := ["--embedding-model"], key := "embedding_model"
               fallback := .text Client.defaultEmbeddingModel },
              { names := ["--embedding-dimension"], key := "embedding_dimension", kind := .integer
                fallback := .int Client.defaultDimension },
              { names := ["--provider-id"], key := "provider_id" },
              { names := ["--chunk-size"], key := "chunk_size", kind := .integer
                fallback := .int Client.defaultChunkSize }]
          operands := [database, ⟨"files", .some⟩] }),
      ("query",
        { switches :=
            [{ names := ["--max-chunks"], key := "max_chunks", kind := .integer
               fallback := .int Client.defaultMaxChunks }]
          operands := [database, ⟨"query", .one⟩] }),
      ("chat",
        { switches := [{ names := ["--model", "-m"], key := "model" }]
          operands := [⟨"prompt", .one⟩] })]

variable (c : Client) (p : Profile) (a : Args)

def wait : Action Ending := do
  let timeout := a.get "timeout"
  let waited ← c.waitUntilHealthy (if timeout.isNull then p.healthTimeout else timeout)
    p.healthInterval
  Action.printLine
    ("✅ " ++ c.url ++ " healthy after " ++ Decimal.fixed 1 waited.toReal ++ "s")
  return .exit 0

def health : Action Ending := do
  if a.flag "wait" then wait c p a
  else
    let status ← c.health
    Action.printLine (← Action.ofExcept (Json.write Json.oneLine status))
    match status with
    | .map _ es =>
      return .exit (if (Entries.get es "status").same (.text "OK") then 0 else 1)
    | _ => throw (.trouble .attribute "no status")

def data (r : Reply) : Except Failure Value :=
  match r with
  | .data v => .ok v
  | _ => .error (.trouble .type "Object is not JSON serializable")

def listingValue (l : Listing) : Except Failure Value := do
  return .record
    [("api", ← data l.api), ("provider_id", ← data l.id), ("provider_type", ← data l.kind)]

def listingLine (l : Listing) : Except Failure String := do
  return (← l.api.plain) ++ "\t" ++ (← l.id.plain) ++ "\t" ++ (← l.kind.plain)

def providers : Action Ending := do
  let listings ← c.listProviders (a.get "api")
  if a.flag "json" then
    let entries ← Action.ofExcept (listings.mapM listingValue)
    let document : Value :=
      .record [("providers", .ofList entries), ("count", .int listings.length)]
    Action.printLine (← Action.ofExcept (Json.write (Json.pretty true) document))
  else
    for l in listings do Action.printLine (← Action.ofExcept (listingLine l))
  return .exit 0

def models : Action Ending := do
  for m in ← c.listModels do Action.printLine (← Action.ofExcept m.plain)
  return .exit 0

def ingest : Action Ending := do
  let id := a.get "vector_db_id"
  let _ ← c.registerVectorDb id (a.get "embedding_model") (a.get "embedding_dimension")
    (a.get "provider_id")
  let documents ← (a.texts "files").mapM Document.ofFile
  let count ← c.insertDocuments id documents (a.get "chunk_size")
  let database ← Action.ofExcept id.plain
  Action.printLine (s!"Inserted {count} document(s) into " ++ database)
  return .exit 0

def scoreText : Reply → Except Failure String
  | .data .null => .ok "-"
  | .data (.text _) => .error (.trouble .value "a text has no places")
  | .data v =>
    match Seconds.ofValue? v with
    | some x => .ok (Decimal.fixed 3 x.toReal)
    | none => .error (.trouble .type ("unsupported format of " ++ v.typeName))
  | _ => .error (.trouble .type "unsupported format of an object")

def shownLength : Nat := 200

def chunkLine (k : Chunk) : Except Failure String := do
  let score ← scoreText k.score
  let id ← if k.documentId.truthy then k.documentId.plain else pure "?"
  return "[" ++ score ++ "] " ++ id ++ ": "
    ++ String.ofList (k.content.toList.take shownLength)

def query : Action Ending := do
  for k in ← c.query (a.get "vector_db_id") (a.get "query") (a.get "max_chunks") do
    Action.printLine (← Action.ofExcept (chunkLine k))
  return .exit 0

def chat : Action Ending := do
  let model := (a.get "model").orElse p.inferenceModel
  if !model.truthy then
    Action.error source "No model given; pass --model or set INFERENCE_MODEL"
    return .exit 1
  let message := Value.record [("role", .text "user"), ("content", a.get "prompt")]
  Action.printLine (← c.chat model (.ofList [message]))
  return .exit 0

def command (name : String) : Action Ending :=
  match name with
  | "health" => health c p a
  | "providers" => providers c a
  | "models" => models c
  | "ingest" => ingest c a
  | "query" => query c a
  | _ => chat c p a

def tell (f : Failure) : Option String :=
  match f with
  | .call fault => some fault.message
  | f => tellAbsent f

def run : Program := fun args =>
  commands.run args fun a => do
    let env ← Action.environment
    let p ← Action.ofExcept (Profile.ofEnvironment env)
    Action.setUpLog ((a.get "log_level").orElse p.logLevel) p.logFile
    match a.text "command" with
    | "" => commands.showHelp
    | name =>
      let url ← Action.ofExcept ((a.get "stack_url").orElse p.stackUrl).plain
      Client.start
      let c := Client.ofUrl url p.clientTimeout
      let ended ← Action.attempt (Action.contain source tell (command c p a name))
      Client.close
      Action.ofExcept ended

end Provision.Program.Stack
