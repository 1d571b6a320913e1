import Provision.Client.Operations
import Provision.Proofs.Client.Health
import Provision.Proofs.Value.Shown

namespace Provision

theorem Action.run_mapM_ofExcept {α β : Type} (f : α → Except Failure β) (xs : List α) (w : Session) :
    run (xs.mapM fun x => ofExcept (f x)) w = (xs.mapM f, w) := by
  induction xs with
  | nil => rfl
  | cons x xs ih =>
      rw [List.mapM_cons, List.mapM_cons, run_bind, run_ofExcept]
      cases f x with
      | error e => rfl
      | ok y =>
          dsimp only
          rw [run_bind, ih]
          cases xs.mapM f <;> rfl

def Outcome.reply? : Outcome → Option Reply
  | .returns r => some r
  | .page _ => some .null
  | .fails _ | .faults _ => none

def Listing.ofReplies (api : Value) (r : Reply) : Except Failure (List Listing) := do
  return ((← r.itemsOrFail).filter fun r => api.isNull || (r.field "api").is api).map Listing.ofReply

def Reply.identifiers (r : Reply) : Except Failure (List Reply) := do
  (← r.itemsOrFail).mapM fun m => m.fieldOrFail "identifier"

/-- A read succeeds where a condition holds, and elsewhere fails with a trouble that is not of the stack. -/
inductive Read {α : Type} (P : Prop) : Except Failure α → Prop where
  | ok (a : α) (h : P) : Read P (.ok a)
  | trouble (kind : Trouble) (text : String) (h : ¬ P) : Read P (.error (.trouble kind text))

namespace Read

variable {α β : Type} {P Q : Prop} {x : Except Failure α}

theorem of_iff (h : Read P x) (hPQ : P ↔ Q) : Read Q x := by
  cases h with
  | ok a h => exact .ok a (hPQ.1 h)
  | trouble kind text h => exact .trouble kind text (mt hPQ.2 h)

theorem isOk_iff (h : Read P x) : (∃ a, x = .ok a) ↔ P := by
  cases h with
  | ok a h => exact ⟨fun _ => h, fun _ => ⟨a, rfl⟩⟩
  | trouble kind text h => exact ⟨nofun, fun hP => absurd hP h⟩

theorem contained_iff (h : Read P x) : ((∃ a, x = .ok a) ∨ ∃ f, x = .error (.call f)) ↔ P := by
  cases h with
  | ok a h => exact ⟨fun _ => h, fun _ => .inl ⟨a, rfl⟩⟩
  | trouble kind text h =>
      refine ⟨?_, fun hP => absurd hP h⟩
      rintro (⟨a, ha⟩ | ⟨f, hf⟩)
      · cases ha
      · cases hf

theorem bind {f : α → Except Failure β} {R : α → Prop} (h : Read P x) (hf : ∀ a, Read (R a) (f a)) :
    Read (∃ a, x = .ok a ∧ R a) (x >>= f) := by
  cases h with
  | ok a h =>
      refine (hf a).of_iff ⟨fun hR => ⟨a, rfl, hR⟩, ?_⟩
      rintro ⟨b, hb, hR⟩
      cases hb
      exact hR
  | trouble kind text h => exact .trouble kind text (by simp)

theorem map {f : α → β} (h : Read P x) : Read P (x >>= fun a => pure (f a)) := by
  cases h with
  | ok a h => exact .ok (f a) h
  | trouble kind text h => exact .trouble kind text h

theorem and {f : α → Except Failure β} (h : Read P x) (hf : ∀ a, Read Q (f a)) : Read (P ∧ Q) (x >>= f) :=
  (h.bind hf).of_iff (by rw [exists_and_right, h.isOk_iff])

theorem mapM {f : β → Except Failure α} {R : β → Prop} (hf : ∀ b, Read (R b) (f b)) (bs : List β) :
    Read (∀ b ∈ bs, R b) (bs.mapM f) := by
  induction bs with
  | nil => exact .ok [] nofun
  | cons b bs ih =>
      rw [List.mapM_cons, List.forall_mem_cons]
      exact (hf b).and fun a => ih.map

end Read

theorem Value.read_shown (v : Value) (text : String) : Read (v.isShort = true) (v.shown text) := by
  cases hshort : v.isShort with
  | false =>
      rw [shown_eq_error_iff.2 ⟨hshort, rfl⟩]
      exact .trouble _ _ (by decide)
  | true =>
      rw [shown_of_isShort hshort]
      exact .ok text rfl

namespace Reply

mutual
def isShort : Reply → Bool
  | data v => v.isShort
  | object fields => allShortFields fields
  | list rs => allShort rs
  | map es => allShortEntries es

def allShort : List Reply → Bool
  | [] => true
  | r :: rs => r.isShort && allShort rs

def allShortFields : List (String × Reply) → Bool
  | [] => true
  | (_, r) :: fields => r.isShort && allShortFields fields

def allShortEntries : List (Value × Reply) → Bool
  | [] => true
  | (k, r) :: es => k.isShort && r.isShort && allShortEntries es
end

mutual
theorem read_quoted : ∀ r : Reply, Read (r.isShort = true) r.quoted
  | data v => by
      rw [quoted, isShort]
      exact v.read_shown _
  | object fields => by
      rw [quoted, isShort]
      exact (read_quotedFields fields).map
  | list rs => by
      rw [quoted, isShort]
      exact (read_quotedAll rs).map
  | map es => by
      rw [quoted, isShort]
      exact (read_quotedEntries es).map

theorem read_quotedAll : ∀ rs : List Reply, Read (allShort rs = true) (quotedAll rs)
  | [] => .ok [] rfl
  | r :: rs => by
      rw [quotedAll, allShort, Bool.and_eq_true]
      exact (read_quoted r).and fun _ => (read_quotedAll rs).map

theorem read_quotedFields : ∀ fields : List (String × Reply),
    Read (allShortFields fields = true) (quotedFields fields)
  | [] => .ok [] rfl
  | (_, r) :: fields => by
      rw [quotedFields, allShortFields, Bool.and_eq_true]
      exact (read_quoted r).and fun _ => (read_quotedFields fields).map

theorem read_quotedEntries : ∀ es : List (Value × Reply), Read (allShortEntries es = true) (quotedEntries es)
  | [] => .ok [] rfl
  | (k, r) :: es => by
      rw [quotedEntries, allShortEntries, Bool.and_eq_true, Bool.and_eq_true, and_assoc]
      exact (k.read_shown _).and fun _ => (read_quoted r).and fun _ => (read_quotedEntries es).map
end

theorem read_plain (r : Reply) : Read (r.isShort = true) r.plain := by
  cases r with
  | data v => exact v.read_shown _
  | _ => exact read_quoted _

variable {r : Reply} {name : String}

def Listed (r : Reply) : Prop := r.truthy = true → r.items?.isSome = true

def listing (r : Reply) : List Reply := if r.truthy then r.items?.getD [] else []

def isMapping : Reply → Bool
  | data (.map ..) | map _ => true
  | _ => false

theorem read_itemsOrFail (r : Reply) : Read (r.items?.isSome = true) r.itemsOrFail := by
  rw [itemsOrFail]
  cases r.items? with
  | none => exact .trouble _ _ (by decide)
  | some rs => exact .ok rs rfl

theorem itemsOrFail_eq_ok_iff {rs : List Reply} : r.itemsOrFail = .ok rs ↔ r.items? = some rs := by
  rw [itemsOrFail]
  cases r.items? <;> simp

theorem read_fieldOrFail (r : Reply) (name : String) :
    Read ((r.field? name).isSome = true) (r.fieldOrFail name) := by
  rw [fieldOrFail]
  cases r.field? name with
  | none => exact .trouble _ _ (by decide)
  | some f => exact .ok f rfl

theorem read_fieldItems (r : Reply) (name : String) : Read (r.field name).Listed (r.fieldItems name) := by
  simp only [fieldItems]
  split
  next h => exact (read_itemsOrFail _).of_iff ⟨fun hitems _ => hitems, fun hitems => hitems h⟩
  next h => exact .ok [] fun h' => absurd h' h

theorem listing_of_fieldItems {rs : List Reply} (h : r.fieldItems name = .ok rs) :
    (r.field name).listing = rs := by
  simp only [fieldItems] at h
  rw [listing]
  split at h
  next htruthy => rw [if_pos htruthy, itemsOrFail_eq_ok_iff.1 h, Option.getD_some]
  next habsent =>
    rw [if_neg habsent]
    exact Except.ok.inj h

theorem isSome_entry (r : Reply) (key : String) : (Reply.entry? key r).isSome = r.isMapping := by
  cases r with
  | data v => cases v <;> rfl
  | _ => rfl

theorem read_first (r : Reply) : Read (∃ s, r.first = .ok s) r.first := by
  have hself {x : Except Failure Reply} {P : Prop} (h : Read P x) : Read (∃ s, x = .ok s) x :=
    h.of_iff h.isOk_iff.symm
  have hhead {f : List Reply → Except Failure Reply} (hcons : ∀ s rs, f (s :: rs) = .ok s)
      (hnil : f [] = .error (.trouble .index "out of range")) (rs : List Reply) : Read (rs ≠ []) (f rs) := by
    cases rs with
    | nil =>
        rw [hnil]
        exact .trouble _ _ (by simp)
    | cons s rs =>
        rw [hcons]
        exact .ok s (by simp)
  cases r with
  | object fields => exact hself ((read_itemsOrFail _).bind (hhead (fun _ _ => rfl) rfl))
  | list rs => exact hself ((read_itemsOrFail _).bind (hhead (fun _ _ => rfl) rfl))
  | map es =>
      rw [first]
      cases es.find? fun e => (Value.int 0).same e.1 with
      | none => exact hself (.trouble _ _ not_false)
      | some e => exact hself (.ok e.2 trivial)
  | data v =>
      cases v with
      | map a es =>
          rw [first]
          cases Entries.get? es (.int 0) with
          | none => exact hself (.trouble _ _ not_false)
          | some v => exact hself (.ok (data v) trivial)
      | set a vs => exact hself (.trouble _ _ not_false)
      | _ => exact hself ((read_itemsOrFail _).bind (hhead (fun _ _ => rfl) rfl))

def Tells (m : Reply) : Prop := (m.field "content").truthy = true → (m.field "content").isShort = true

theorem read_content (m : Reply) : Read m.Tells m.content? := by
  simp only [content?]
  split
  next h => exact (read_plain _).map.of_iff ⟨fun hshort _ => hshort, fun htells => htells h⟩
  next h => exact .ok none fun h' => absurd h' h

theorem content_eq_none_iff {m : Reply} : m.content? = .ok none ↔ (m.field "content").truthy = false := by
  simp only [content?]
  cases (m.field "content").truthy with
  | false => exact ⟨fun _ => rfl, fun _ => rfl⟩
  | true => cases (m.field "content").plain <;> simp [bind, Except.bind, pure, Except.pure]

def Answers (r m : Reply) : Prop :=
  if (r.field "choices").truthy then
    ∃ s, (r.field "choices").first = .ok s ∧ s.field? "message" = some m
  else m = null

def message (r : Reply) : Except Failure Reply :=
  if (r.field "choices").truthy then do (← (r.field "choices").first).fieldOrFail "message" else .ok null

theorem fieldOrFail_eq_ok_iff {f : Reply} : r.fieldOrFail name = .ok f ↔ r.field? name = some f := by
  rw [fieldOrFail]
  cases r.field? name <;> simp

theorem message_eq_ok_iff {m : Reply} : r.message = .ok m ↔ r.Answers m := by
  rw [message, Answers]
  split
  next => simp only [Steps.bind_eq_ok_iff, fieldOrFail_eq_ok_iff]
  next => exact ⟨fun h => (Except.ok.inj h).symm, fun h => h ▸ rfl⟩

theorem read_message (r : Reply) : Read (∃ m, r.Answers m) r.message := by
  have hread : ∃ P, Read P r.message := by
    rw [message]
    split
    next => exact ⟨_, (read_first _).bind fun s => read_fieldOrFail s "message"⟩
    next => exact ⟨True, .ok null trivial⟩
  obtain ⟨P, hread⟩ := hread
  exact hread.of_iff (by simp only [← hread.isOk_iff, message_eq_ok_iff])

theorem said_eq (r : Reply) : r.said = do
    let m ← r.message
    match ← m.content? with
    | some s => return s
    | none => return (← (r.field "completion_message").content?).getD "" := by
  rw [said, message]
  cases (r.field "choices").truthy with
  | false => rfl
  | true =>
      rw [if_pos rfl, if_pos rfl]
      exact (bind_assoc _ _ _).symm

/-- What a reply answers with can be told, and what it is completed with where that says nothing. -/
theorem read_said (r : Reply) : Read (∃ m, r.Answers m ∧ m.Tells ∧
    ((m.field "content").truthy = false → (r.field "completion_message").Tells)) r.said := by
  have hcompleted (c : Option String) : Read (c = none → (r.field "completion_message").Tells) (match c with
      | some s => pure s
      | none => do return (← (r.field "completion_message").content?).getD "") := by
    cases c with
    | none => exact (read_content _).map.of_iff ⟨fun h _ => h, fun h => h rfl⟩
    | some s => exact .ok s nofun
  rw [said_eq]
  refine ((read_message r).bind fun m => (read_content m).bind hcompleted).of_iff ?_
  simp only [message_eq_ok_iff]
  refine exists_congr fun m => and_congr_right fun _ => ?_
  rw [← content_eq_none_iff, ← (read_content m).isOk_iff]
  cases m.content? with
  | error f => simp
  | ok c => simp

theorem read_identifiers (r : Reply) :
    Read (∃ rs, r.items? = some rs ∧ ∀ m ∈ rs, (m.field? "identifier").isSome = true) r.identifiers := by
  refine ((read_itemsOrFail r).bind fun rs => Read.mapM (fun m => read_fieldOrFail m "identifier") rs).of_iff ?_
  simp only [itemsOrFail_eq_ok_iff]

end Reply

theorem Listing.read_ofReplies (api : Value) (r : Reply) : Read (r.items?.isSome = true) (ofReplies api r) :=
  (r.read_itemsOrFail).map

namespace Chunk

open Reply

theorem read_documentOf (r : Reply) :
    Read ((r.field "metadata").truthy = true → (r.field "metadata").isMapping = true) (documentOf r) := by
  simp only [documentOf]
  cases htruthy : (r.field "metadata").truthy with
  | false => exact .ok Reply.null nofun
  | true =>
      rw [← isSome_entry _ "document_id", if_neg (by decide)]
      cases Reply.entry? "document_id" (r.field "metadata") with
      | none => exact .trouble _ _ (by decide)
      | some d => exact .ok d fun _ => rfl

def Tells (r : Reply) : Prop := (∀ d, r.field? "content" = some d → d.isShort = true) ∧
  ((r.field "metadata").truthy = true → (r.field "metadata").isMapping = true)

theorem read_ofReplies (rs scores : List Reply) : Read (∀ r ∈ rs, Tells r) (ofReplies rs scores) := by
  induction rs generalizing scores with
  | nil => exact .ok [] nofun
  | cons r rs ih =>
      have hcontent : Read (∀ d, r.field? "content" = some d → d.isShort = true)
          ((r.field? "content").getD (.data (.text ""))).plain := by
        refine (read_plain _).of_iff ?_
        cases r.field? "content" with
        | none => exact ⟨fun _ => nofun, fun _ => rfl⟩
        | some d => simp
      rw [ofReplies, List.forall_mem_cons, Tells, and_assoc]
      exact hcontent.and fun _ => (read_documentOf r).and fun _ => (ih (scores.drop 1)).map

theorem read_ofReply (r : Reply) : Read ((r.field "chunks").Listed ∧ (r.field "scores").Listed ∧
    ∀ c ∈ (r.field "chunks").listing, Tells c) (ofReply r) := by
  have hread := (read_fieldItems r "chunks").bind fun chunks =>
    (read_fieldItems r "scores").bind fun scores => read_ofReplies chunks scores
  refine Read.of_iff hread ?_
  constructor
  · rintro ⟨chunks, hchunks, scores, hscores, h⟩
    rw [listing_of_fieldItems hchunks]
    exact ⟨(read_fieldItems r "chunks").isOk_iff.1 ⟨chunks, hchunks⟩,
      (read_fieldItems r "scores").isOk_iff.1 ⟨scores, hscores⟩, h⟩
  · rintro ⟨hchunks, hscores, h⟩
    obtain ⟨chunks, hchunks⟩ := (read_fieldItems r "chunks").isOk_iff.2 hchunks
    obtain ⟨scores, hscores⟩ := (read_fieldItems r "scores").isOk_iff.2 hscores
    rw [listing_of_fieldItems hchunks] at h
    exact ⟨chunks, hchunks, scores, hscores, h⟩

end Chunk

inductive Operation where
  | listProviders (api : Value)
  | listModels
  | registerVectorDb (id model dimension provider : Value)
  | insertDocuments (id : Value) (documents : List Document) (chunkSize : Value)
  | query (id text maxChunks : Value)
  | chat (model messages : Value)

namespace Operation

def name : Operation → String
  | listProviders _ => "list_providers"
  | listModels => "list_models"
  | registerVectorDb .. => "register_vector_db"
  | insertDocuments .. => "insert_documents"
  | query .. => "query"
  | chat .. => "chat_completion"

def endpoint : Operation → Endpoint
  | listProviders _ => .providers
  | listModels => .models
  | registerVectorDb .. => .register
  | insertDocuments .. => .insert
  | query .. => .query
  | chat .. => .chat

def Result : Operation → Type
  | listProviders _ => List Listing
  | listModels => List Reply
  | registerVectorDb .. => Reply
  | insertDocuments .. => Nat
  | query .. => List Chunk
  | chat .. => String

def perform (c : Client) : (op : Operation) → Action op.Result
  | listProviders api => c.listProviders api
  | listModels => c.listModels
  | registerVectorDb id model dimension provider => c.registerVectorDb id model dimension provider
  | insertDocuments id documents chunkSize => c.insertDocuments id documents chunkSize
  | query id text maxChunks => c.query id text maxChunks
  | chat model messages => c.chat model messages

def reads : (op : Operation) → Reply → Except Failure op.Result
  | listProviders api, r => Listing.ofReplies api r
  | listModels, r => r.identifiers
  | registerVectorDb .., r => .ok r
  | insertDocuments id documents _, _ => do
    let _ ← id.plain
    return documents.length
  | query .., r => Chunk.ofReply r
  | chat .., r => r.said

/-- Whether a reply has the shape of which something is read. What is registered or inserted is read off
nothing, but where it has been inserted is told; a list of providers can be gone through, and one of models
has their identifiers; the chunks and scores that are found, if any, can be gone through, a chunk can be told,
and what it says of itself, if anything, is a mapping; the first choice of an answer, if there are choices,
has a message, and what is said can be told. -/
def Readable : Operation → Reply → Prop
  | listProviders _, r => r.items?.isSome = true
  | listModels, r => ∃ rs, r.items? = some rs ∧ ∀ m ∈ rs, (m.field? "identifier").isSome = true
  | registerVectorDb .., _ => True
  | insertDocuments id .., _ => id.isShort = true
  | query .., r => (r.field "chunks").Listed ∧ (r.field "scores").Listed ∧
      ∀ c ∈ (r.field "chunks").listing, Chunk.Tells c
  | chat .., r => ∃ m, r.Answers m ∧ m.Tells ∧
      ((m.field "content").truthy = false → (r.field "completion_message").Tells)

theorem read_reads (op : Operation) (r : Reply) : Read (op.Readable r) (op.reads r) := by
  cases op with
  | listProviders api => exact Listing.read_ofReplies api r
  | listModels => exact r.read_identifiers
  | registerVectorDb => exact .ok r trivial
  | insertDocuments id documents => exact (id.read_shown _).map
  | query => exact Chunk.read_ofReply r
  | chat => exact r.read_said

def isIdle : Operation → Bool
  | insertDocuments _ documents _ => documents.isEmpty
  | _ => false

def isTold : Operation → Bool
  | registerVectorDb id model _ _ => id.isShort && model.isShort
  | _ => true

end Operation

namespace Client

open Provision.Action Service

variable {α : Type} {c : Client} {w : Session}

def concluded (c : Client) (operation : String) (reads : Reply → Except Failure α) : Outcome → Except Failure α
  | .returns r => reads r
  | .page _ => reads .null
  | .fails cause => .error (.call (c.fault operation (operation ++ " failed") cause))
  | .faults f => .error (.call f)

theorem reply_of_script {s t : Service} (h : t.script = s.script) (e : Endpoint) (n : ℕ) :
    t.reply e n = s.reply e n := by
  rw [reply, reply, outcomes, outcomes, h]

theorem run_request (c : Client) (operation : String) (e : Endpoint) (named : List (String × Value))
    (w : Session) : ∃ u, run (c.request operation e named) w =
      (c.concluded operation .ok (w.service.reply e 0), u) := by
  obtain ⟨v, hconnect, hscript, -⟩ := run_connect c .stack w
  rw [request, run_bind, hconnect]
  dsimp only
  rw [run_bind, run_onService]
  dsimp only
  rw [call_fst, reply_of_script hscript]
  cases w.service.reply e 0 with
  | returns r => exact ⟨_, rfl⟩
  | page p => exact ⟨_, rfl⟩
  | faults f => exact ⟨_, rfl⟩
  | fails cause =>
      obtain ⟨u, hu, -⟩ := run_record source Level.error.number
        (c.fault operation (operation ++ " failed") cause).what _
      dsimp only
      rw [run_bind, Action.error, hu]
      exact ⟨u, rfl⟩

/-- An operation that reads something off the reply and then does no more than to say so. -/
theorem run_request_bind {operation : String} {e : Endpoint} {named : List (String × Value)}
    {f : Reply → Action α} {reads : Reply → Except Failure α}
    (hf : ∀ r u, ∃ v, run (f r) u = (reads r, v)) (w : Session) :
    ∃ u, run (c.request operation e named >>= f) w =
      (c.concluded operation reads (w.service.reply e 0), u) := by
  obtain ⟨u, hu⟩ := run_request c operation e named w
  rw [run_bind, hu]
  cases w.service.reply e 0 with
  | returns r => exact hf r u
  | page p => exact hf .null u
  | fails cause => exact ⟨u, rfl⟩
  | faults f => exact ⟨u, rfl⟩

theorem run_listProviders (c : Client) (api : Value) (w : Session) : ∃ u, run (c.listProviders api) w =
    (c.concluded "list_providers" (Listing.ofReplies api) (w.service.reply .providers 0), u) := by
  refine run_request_bind (fun r u => ⟨u, ?_⟩) w
  rw [run_bind, run_ofExcept, Listing.ofReplies]
  cases r.itemsOrFail <;> rfl

theorem run_listModels (c : Client) (w : Session) : ∃ u, run c.listModels w =
    (c.concluded "list_models" Reply.identifiers (w.service.reply .models 0), u) := by
  refine run_request_bind (fun r u => ⟨u, ?_⟩) w
  rw [run_bind, run_ofExcept, Reply.identifiers]
  cases r.itemsOrFail with
  | error f => rfl
  | ok rs => exact run_mapM_ofExcept _ rs u

theorem run_registerVectorDb (c : Client) {id model : Value} (hid : id.isShort = true)
    (hmodel : model.isShort = true) (dimension provider : Value) (w : Session) :
    ∃ u, run (c.registerVectorDb id model dimension provider) w =
      (c.concluded "register_vector_db" .ok (w.service.reply .register 0), u) := by
  obtain ⟨v, hv, hservice⟩ := run_record_service source Level.info.number
    ("Registering vector DB " ++ id.wording ++ " with " ++ model.wording) w
  rw [registerVectorDb, run_bind, run_ofExcept, Value.plain_of_isShort hid]
  dsimp only
  rw [run_bind, run_ofExcept, Value.plain_of_isShort hmodel]
  dsimp only
  rw [run_bind, info, hv, ← hservice]
  exact run_request ..

theorem run_registerVectorDb_of_long (c : Client) {id model : Value}
    (h : (id.isShort && model.isShort) = false) (dimension provider : Value) (w : Session) :
    run (c.registerVectorDb id model dimension provider) w = (.error .tooLong, w) := by
  rw [registerVectorDb, run_bind, run_ofExcept]
  cases hid : id.isShort with
  | false => rw [Value.plain_eq_error_iff.2 ⟨hid, rfl⟩]
  | true =>
      rw [hid, Bool.true_and] at h
      rw [Value.plain_of_isShort hid]
      dsimp only
      rw [run_bind, run_ofExcept, Value.plain_eq_error_iff.2 ⟨h, rfl⟩]

theorem run_insertDocuments (c : Client) (id : Value) {documents : List Document}
    (h : documents.isEmpty = false) (chunkSize : Value) (w : Session) :
    ∃ u, run (c.insertDocuments id documents chunkSize) w =
      (c.concluded "insert_documents" (fun _ => do let _ ← id.plain; return documents.length)
        (w.service.reply .insert 0), u) := by
  rw [insertDocuments, h, if_neg (by decide)]
  refine run_request_bind (fun r u => ?_) w
  rw [run_bind, run_ofExcept]
  cases id.plain with
  | error f => exact ⟨u, rfl⟩
  | ok database =>
      obtain ⟨v, hv, -⟩ := run_record source Level.info.number
        (s!"Inserted {documents.length} document(s) into " ++ database) u
      dsimp only
      rw [run_bind, info, hv]
      exact ⟨v, rfl⟩

theorem run_perform (c : Client) {op : Operation} (h : op.isIdle = false) (htold : op.isTold = true)
    (w : Session) :
    ∃ u, run (op.perform c) w = (c.concluded op.name op.reads (w.service.reply op.endpoint 0), u) := by
  cases op with
  | listProviders api => exact run_listProviders c api w
  | listModels => exact run_listModels c w
  | registerVectorDb id model dimension provider =>
      obtain ⟨hid, hmodel⟩ := Bool.and_eq_true_iff.1 htold
      exact run_registerVectorDb c hid hmodel dimension provider w
  | insertDocuments id documents chunkSize => exact run_insertDocuments c id h chunkSize w
  | query id text maxChunks => exact run_request_bind (fun r u => ⟨u, run_ofExcept _ u⟩) w
  | chat model messages => exact run_request_bind (fun r u => ⟨u, run_ofExcept _ u⟩) w

theorem run_perform_of_untold (c : Client) {op : Operation} (h : op.isTold = false) (w : Session) :
    run (op.perform c) w = (.error .tooLong, w) := by
  cases op with
  | registerVectorDb id model dimension provider => exact run_registerVectorDb_of_long c h dimension provider w
  | _ => cases h

theorem run_perform_of_idle (c : Client) {op : Operation} (h : op.isIdle = true) (w : Session) :
    ∃ a, run (op.perform c) w = (.ok a, w) := by
  cases op with
  | insertDocuments id documents chunkSize =>
      have hempty : documents.isEmpty = true := h
      have hrun : run (c.insertDocuments id documents chunkSize) w = (.ok 0, w) := by
        rw [insertDocuments, hempty]
        rfl
      exact ⟨_, hrun⟩
  | _ => cases h

theorem url_ofUrl (url : String) (timeout : Value) :
    ∃ n, url.toList = (ofUrl url timeout).url.toList ++ List.replicate n '/' ∧
      (ofUrl url timeout).url.toList.getLast? ≠ some '/' := by
  have hslashes : ∀ c ∈ url.toList.reverse.takeWhile (· = '/'), c = '/' := by
    intro c hc
    have hall := List.all_takeWhile (p := (· = '/')) (l := url.toList.reverse)
    simpa using List.all_eq_true.1 hall c hc
  have hsplit := List.takeWhile_append_dropWhile (p := (· = '/')) (l := url.toList.reverse)
  rw [List.eq_replicate_of_mem hslashes] at hsplit
  have hurl : (ofUrl url timeout).url.toList = (url.toList.reverse.dropWhile (· = '/')).reverse := by
    rw [ofUrl, Path.withoutFinalSlashes, String.toList_ofList]
  refine ⟨(url.toList.reverse.takeWhile (· = '/')).length, ?_, ?_⟩
  · rw [hurl]
    have hback := congrArg List.reverse hsplit
    rw [List.reverse_append, List.reverse_replicate, List.reverse_reverse] at hback
    exact hback.symm
  · rw [hurl, List.getLast?_reverse]
    intro hlast
    have hhead := List.head?_dropWhile_not (fun c => decide (c = '/')) url.toList.reverse
    rw [hlast] at hhead
    exact absurd hhead (by decide)

theorem concluded_contained (c : Client) (op : Operation) (o : Outcome) :
    let ended := c.concluded op.name op.reads o
    (((∃ a, ended = .ok a) ∨ ∃ f, ended = .error (.call f)) ↔ ∀ r, o.reply? = some r → op.Readable r) ∧
      (∀ r, o.reply? = some r → ((∃ a, ended = .ok a) ↔ op.Readable r)) ∧
      (∀ cause, o = .fails cause → ended = .error (.call
        { what := op.name ++ " failed" ++ ": " ++ cause.message, url := c.url, operation := op.name,
          cause := some cause })) ∧
      ∀ f, o = .faults f → ended = .error (.call f) := by
  cases o with
  | returns r =>
      have hread := op.read_reads r
      exact ⟨by simpa [concluded, Outcome.reply?] using hread.contained_iff,
        by simpa [concluded, Outcome.reply?] using hread.isOk_iff, nofun, nofun⟩
  | page p =>
      have hread := op.read_reads .null
      exact ⟨by simpa [concluded, Outcome.reply?] using hread.contained_iff,
        by simpa [concluded, Outcome.reply?] using hread.isOk_iff, nofun, nofun⟩
  | fails cause =>
      refine ⟨⟨fun _ => nofun, fun _ => .inr ⟨_, rfl⟩⟩, nofun, ?_, nofun⟩
      rintro cause ⟨⟩
      rfl
  | faults f =>
      refine ⟨⟨fun _ => nofun, fun _ => .inr ⟨_, rfl⟩⟩, nofun, nofun, ?_⟩
      rintro f ⟨⟩
      rfl

/-- What an operation comes to. Where the call fails, so does the operation, with that cause or by that
failure of a call; where it returns, the operation has a result just where the reply is readable, and else
fails with something that is no failure of a call. There is no call where what is told before cannot be. -/
theorem contained_iff_readable (url : String) (timeout : Value) (op : Operation) (w : Session) :
    let c := Client.ofUrl url timeout
    let ended := (run (op.perform c) w).1
    let o := w.service.reply op.endpoint 0
    (op.isIdle = true → ∃ a, ended = .ok a) ∧
    (op.isTold = false → ended = .error .tooLong) ∧
    (op.isIdle = false → op.isTold = true →
      (((∃ a, ended = .ok a) ∨ ∃ f, ended = .error (.call f)) ↔ ∀ r, o.reply? = some r → op.Readable r) ∧
      (∀ r, o.reply? = some r → ((∃ a, ended = .ok a) ↔ op.Readable r)) ∧
      (∀ cause, o = .fails cause → ended = .error (.call
        { what := op.name ++ " failed" ++ ": " ++ cause.message, url := c.url, operation := op.name,
          cause := some cause })) ∧
      (∀ f, o = .faults f → ended = .error (.call f))) ∧
    ∃ n, url.toList = c.url.toList ++ List.replicate n '/' ∧ c.url.toList.getLast? ≠ some '/' := by
  intro c ended o
  refine ⟨fun h => ?_, fun h => ?_, fun h htold => ?_, url_ofUrl url timeout⟩
  · obtain ⟨a, ha⟩ := run_perform_of_idle c h w
    exact ⟨a, congrArg Prod.fst ha⟩
  · exact congrArg Prod.fst (run_perform_of_untold c h w)
  · obtain ⟨u, hu⟩ := run_perform c h htold w
    have hended : ended = c.concluded op.name op.reads o := congrArg Prod.fst hu
    rw [hended]
    exact concluded_contained c op o

/-- A list of models that is null escapes as a trouble. -/
theorem uncontained_null_models :
    let c : Client := .ofUrl "http://stack.test:8321/" defaultTimeout
    let w : Session := { service := { script := [(.models, [.returns .null])] } }
    (run c.listModels w).1 = .error (.trouble .type "not iterable") ∧
      ¬ ((∃ ms, (run c.listModels w).1 = .ok ms) ∨ ∃ f, (run c.listModels w).1 = .error (.call f)) := by
  intro c w
  have hended : (run c.listModels w).1 = .error (.trouble .type "not iterable") := rfl
  rw [hended]
  refine ⟨rfl, ?_⟩
  rintro (⟨ms, hms⟩ | ⟨f, hf⟩)
  · cases hms
  · cases hf

end Client

end Provision
