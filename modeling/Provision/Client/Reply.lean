import Provision.Value.Equality
import Provision.Value.Shown

namespace Provision

inductive Reply where
  | data (v : Value)
  | object (fields : List (String × Reply))
  | list (items : List Reply)
  | map (entries : List (Value × Reply))
  deriving Repr, Inhabited

namespace Reply

def null : Reply := data .null

def isNull : Reply → Bool
  | data v => v.isNull
  | _ => false

def truthy : Reply → Bool
  | data v => v.truthy
  | object _ => true
  | list rs => !rs.isEmpty
  | map es => !es.isEmpty

def field? (name : String) : Reply → Option Reply
  | object fields => fields.lookup name
  | _ => none

def field (r : Reply) (name : String) : Reply := (r.field? name).getD null

/-- What there is to go through in a reply: the items of a list, the characters of a text, the keys
of a mapping; none if there is nothing to go through. -/
def items? : Reply → Option (List Reply)
  | data (.text s) => some (s.toList.map fun c => data (.text c.toString))
  | data (.bytes bs) => some (bs.map fun b => data (.int b.toNat))
  | data (.list _ vs) | data (.tuple vs) | data (.set _ vs) => some (vs.map data)
  | data (.map _ es) => some (es.map fun e => data e.1)
  | list rs => some rs
  | map es => some (es.map fun e => data e.1)
  | data _ | object _ => none

def entry? (key : String) : Reply → Option Reply
  | data (.map _ es) => some (data (Entries.get es key))
  | map es => some ((es.find? fun e => (Value.text key).same e.1).elim null (·.2))
  | _ => none

def is (r : Reply) (v : Value) : Bool :=
  match r with
  | data w => w.same v
  | _ => false

mutual
def quoted : Reply → Except Failure String
  | data v => v.quoted
  | object fields => do return "namespace(" ++ ", ".intercalate (← quotedFields fields) ++ ")"
  | list rs => do return "[" ++ ", ".intercalate (← quotedAll rs) ++ "]"
  | map es => do return "\x7b" ++ ", ".intercalate (← quotedEntries es) ++ "\x7d"

def quotedAll : List Reply → Except Failure (List String)
  | [] => .ok []
  | r :: rs => do return (← r.quoted) :: (← quotedAll rs)

def quotedFields : List (String × Reply) → Except Failure (List String)
  | [] => .ok []
  | (name, r) :: fields => do return (name ++ "=" ++ (← r.quoted)) :: (← quotedFields fields)

def quotedEntries : List (Value × Reply) → Except Failure (List String)
  | [] => .ok []
  | (k, r) :: es => do return ((← k.quoted) ++ ": " ++ (← r.quoted)) :: (← quotedEntries es)
end

def plain : Reply → Except Failure String
  | data v => v.plain
  | r => r.quoted

end Reply
end Provision
