import Provision.Value.Shown

namespace Provision.Json

structure Style where
  indent : Option Nat := none
  itemMark : String := ", "
  keyMark : String := ": "
  ascii : Bool := true

def compact : Style := { itemMark := ",", keyMark := ":" }

def oneLine : Style := {}

def pretty (ascii : Bool) : Style := { indent := some 2, itemMark := ",", ascii := ascii }

def realNotation : Decimal.Notation := { nan := "NaN", infinity := "Infinity" }

def unit (n : Nat) : List Char := '\\' :: 'u' :: Text.Quoted.hex 4 n

/-- A character inside quotes. Beyond the basic plane an escape is a pair of surrogates. -/
def encodeChar (ascii : Bool) (c : Char) : List Char :=
  let n := c.toNat
  if c = '"' then ['\\', '"']
  else if c = '\\' then ['\\', '\\']
  else if c = '\n' then ['\\', 'n']
  else if c = '\r' then ['\\', 'r']
  else if c = '\t' then ['\\', 't']
  else if n = 0x0c then ['\\', 'f']
  else if n = 0x08 then ['\\', 'b']
  else if n < 0x20 then unit n
  else if ascii && 0x7f ≤ n then
    if n < 0x10000 then unit n
    else unit (0xd800 + (n - 0x10000) / 0x400) ++ unit (0xdc00 + (n - 0x10000) % 0x400)
  else [c]

def encode (ascii : Bool) (s : String) : List Char :=
  '"' :: s.toList.flatMap (encodeChar ascii) ++ ['"']

def refuse (v : Value) : Failure :=
  .trouble .type ("Object of type " ++ v.typeName ++ " is not JSON serializable")

def refuseKey (v : Value) : Failure :=
  .trouble .type ("keys must be str, int, float, bool or None, not " ++ v.typeName)

def encodeInt (n : Int) : Except Failure (List Char) :=
  if isLong n then .error .tooLong else .ok (toString n).toList

/-- The text of a value that is no list and no mapping; `refused` if JSON does not know it. -/
def scalar (style : Style) (refused : Failure) : Value → Except Failure (List Char)
  | .null => .ok "null".toList
  | .bool b => .ok (if b then "true".toList else "false".toList)
  | .int n => encodeInt n
  | .real x => .ok (Decimal.render realNotation x).toList
  | .text s => .ok (encode style.ascii s)
  | _ => .error refused

def key (style : Style) : Value → Except Failure (List Char)
  | .text s => .ok (encode style.ascii s)
  | v => do return '"' :: (← scalar style (refuseKey v) v) ++ ['"']

def lead (style : Style) (level : Nat) : List Char :=
  match style.indent with
  | some n => '\n' :: List.replicate (n * level) ' '
  | none => []

def bracket (style : Style) (level : Nat) (opening closing : Char) (items : List (List Char)) :
    List Char :=
  if items.isEmpty then [opening, closing]
  else
    opening :: lead style (level + 1)
      ++ (style.itemMark.toList ++ lead style (level + 1)).intercalate items
      ++ lead style level ++ [closing]

mutual
def encodeValue (style : Style) (level : Nat) : Value → Except Failure (List Char)
  | .list _ xs | .tuple xs => do
    return bracket style level '[' ']' (← encodeItems style (level + 1) xs)
  | .map _ es => do
    return bracket style level '{' '}' (← encodeEntries style (level + 1) es)
  | v => scalar style (refuse v) v

def encodeItems (style : Style) (level : Nat) : List Value → Except Failure (List (List Char))
  | [] => .ok []
  | x :: xs => do
    let cs ← encodeValue style level x
    return cs :: (← encodeItems style level xs)

def encodeEntries (style : Style) (level : Nat) : List (Value × Value) →
    Except Failure (List (List Char))
  | [] => .ok []
  | (k, v) :: es => do
    let name ← key style k
    let cs ← encodeValue style level v
    return (name ++ style.keyMark.toList ++ cs) :: (← encodeEntries style level es)
end

def write (style : Style) (v : Value) : Except Failure String := do
  return String.ofList (← encodeValue style 0 v)

end Provision.Json
