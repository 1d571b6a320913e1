import Provision.Client.Basic
import Provision.Client.Document

namespace Provision

structure Listing where
  api : Reply
  id : Reply
  kind : Reply
  deriving Repr

structure Chunk where
  content : String
  score : Reply := .null
  documentId : Reply := .null
  deriving Repr

def Reply.itemsOrFail (r : Reply) : Except Failure (List Reply) :=
  match r.items? with
  | some rs => .ok rs
  | none => .error (.trouble .type "not iterable")

def Reply.fieldItems (r : Reply) (name : String) : Except Failure (List Reply) :=
  let f := r.field name
  if f.truthy then f.itemsOrFail else .ok []

def Reply.fieldOrFail (r : Reply) (name : String) : Except Failure Reply :=
  match r.field? name with
  | some f => .ok f
  | none => .error (.trouble .attribute ("no attribute '" ++ name ++ "'"))

namespace Listing

def ofReply (r : Reply) : Listing := ⟨r.field "api", r.field "provider_id", r.field "provider_type"⟩

end Listing

namespace Chunk

def documentOf (r : Reply) : Except Failure Reply :=
  let metadata := r.field "metadata"
  if !metadata.truthy then .ok .null
  else
    match metadata.entry? "document_id" with
    | some d => .ok d
    | none => .error (.trouble .attribute "no attribute 'get'")

def ofReplies : List Reply → List Reply → Except Failure (List Chunk)
  | [], _ => .ok []
  | r :: rs, scores => do
    let content ← ((r.field? "content").getD (.data (.text ""))).plain
    let documentId ← documentOf r
    return ⟨content, scores.head?.getD .null, documentId⟩ :: (← ofReplies rs (scores.drop 1))

def ofReply (r : Reply) : Except Failure (List Chunk) := do
  let chunks ← r.fieldItems "chunks"
  let scores ← r.fieldItems "scores"
  ofReplies chunks scores

end Chunk

namespace Reply

def first : Reply → Except Failure Reply
  | data (.map _ es) =>
    match Entries.get? es (.int 0) with
    | some v => .ok (data v)
    | none => .error (.trouble .key "0")
  | map es =>
    match es.find? fun e => (Value.int 0).same e.1 with
    | some e => .ok e.2
    | none => .error (.trouble .key "0")
  | data (.set ..) => .error (.trouble .type "not subscriptable")
  | r => do
    match ← r.itemsOrFail with
    | s :: _ => return s
    | [] => throw (.trouble .index "out of range")

def content? (r : Reply) : Except Failure (Option String) :=
  let c := r.field "content"
  if c.truthy then do return some (← c.plain) else return none

def said (r : Reply) : Except Failure String := do
  let choices := r.field "choices"
  let message ← if choices.truthy then do (← choices.first).fieldOrFail "message" else pure null
  match ← message.content? with
  | some s => return s
  | none => return (← (r.field "completion_message").content?).getD ""

end Reply

namespace Client

def listProviders (c : Client) (api : Value) : Action (List Listing) := do
  let rs ← Action.ofExcept (← c.request "list_providers" .providers []).itemsOrFail
  return (rs.filter fun r => api.isNull || (r.field "api").is api).map Listing.ofReply

def listModels (c : Client) : Action (List Reply) := do
  let rs ← Action.ofExcept (← c.request "list_models" .models []).itemsOrFail
  rs.mapM fun r => Action.ofExcept (r.fieldOrFail "identifier")

def defaultEmbeddingModel : String := "all-MiniLM-L6-v2"

def defaultDimension : Int := 384

def registerVectorDb (c : Client) (id model dimension provider : Value) : Action Reply := do
  let database ← Action.ofExcept id.plain
  let embedding ← Action.ofExcept model.plain
  Action.info source ("Registering vector DB " ++ database ++ " with " ++ embedding)
  c.request "register_vector_db" .register
    ([("vector_db_id", id), ("embedding_model", model), ("embedding_dimension", dimension)]
      ++ if provider.truthy then [("provider_id", provider)] else [])

def defaultChunkSize : Int := 512

def insertDocuments (c : Client) (id : Value) (documents : List Document) (chunkSize : Value) :
    Action Nat := do
  if documents.isEmpty then return 0
  let _ ← c.request "insert_documents" .insert
    [("documents", .ofList (documents.map Document.toValue)), ("vector_db_id", id),
      ("chunk_size_in_tokens", chunkSize)]
  let database ← Action.ofExcept id.plain
  Action.info source (s!"Inserted {documents.length} document(s) into " ++ database)
  return documents.length

def defaultMaxChunks : Int := 5

def query (c : Client) (id text maxChunks : Value) : Action (List Chunk) := do
  let r ← c.request "query" .query
    [("vector_db_id", id), ("query", text), ("params", .record [("max_chunks", maxChunks)])]
  Action.ofExcept (Chunk.ofReply r)

def chat (c : Client) (model messages : Value) : Action String := do
  let r ← c.request "chat_completion" .chat
    [("model", model), ("messages", messages), ("stream", .bool false)]
  Action.ofExcept r.said

end Client
end Provision
