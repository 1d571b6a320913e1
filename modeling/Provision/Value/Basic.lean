import Provision.Binary64
import Provision.Calendar

namespace Provision

/-- A value of a document. A list, mapping, set, date or moment that one document refers to more
than once carries an anchor there, the same at each place; all others carry none. Anchors play no
part in what a value is equal to. -/
inductive Value where
  | null
  | bool (b : Bool)
  | int (n : Int)
  | real (x : Binary64)
  | text (s : String)
  | bytes (bs : List UInt8)
  | date (anchor : Option Nat) (d : Date)
  | moment (anchor : Option Nat) (m : Moment)
  | list (anchor : Option Nat) (items : List Value)
  | tuple (items : List Value)
  | set (anchor : Option Nat) (items : List Value)
  | map (anchor : Option Nat) (entries : List (Value × Value))
  deriving Repr, Inhabited

/-- The entries of a mapping, in the order in which their keys were first put. -/
abbrev Entries := List (Value × Value)

namespace Value

def ofList (items : List Value) : Value := .list none items

def ofEntries (es : Entries) : Value := .map none es

def record (fields : List (String × Value)) : Value :=
  .map none (fields.map fun f => (.text f.1, f.2))

def truthy : Value → Bool
  | null => false
  | bool b => b
  | int n => n != 0
  | real x => !x.isZero
  | text s => s != ""
  | bytes bs => !bs.isEmpty
  | list _ xs | tuple xs | set _ xs => !xs.isEmpty
  | map _ es => !es.isEmpty
  | date .. | moment .. => true

def orElse (v w : Value) : Value := if v.truthy then v else w

def isNull : Value → Bool
  | null => true
  | _ => false

def text? : Value → Option String
  | text s => some s
  | _ => none

def items? : Value → Option (List Value)
  | list _ xs => some xs
  | _ => none

def entries? : Value → Option Entries
  | map _ es => some es
  | _ => none

mutual
def hashable : Value → Bool
  | list .. | set .. | map .. => false
  | tuple xs => allHashable xs
  | _ => true

def allHashable : List Value → Bool
  | [] => true
  | x :: xs => x.hashable && allHashable xs
end

/-- Whether a value can be looked for among the members of a set: what can be a member, and a set. -/
def searchable : Value → Bool
  | set .. => true
  | v => v.hashable

def typeName : Value → String
  | null => "NoneType"
  | bool _ => "bool"
  | int _ => "int"
  | real _ => "float"
  | text _ => "str"
  | bytes _ => "bytes"
  | date .. => "date"
  | moment .. => "datetime"
  | list .. => "list"
  | tuple _ => "tuple"
  | set .. => "set"
  | map .. => "dict"

/-- Whether a value is an integer, which the truth values are not counted as. -/
def isInt : Value → Bool
  | int _ => true
  | _ => false

end Value
end Provision
