import Provision.Value.Basic

namespace Provision

inductive Form where
  | required
  /-- The operand stands in for a variable that is unset or empty. -/
  | fallback (operand : String)
  /-- The operand stands for a variable that is set and not empty. -/
  | alternate (operand : String)
  deriving DecidableEq, Repr

structure Placeholder where
  name : String
  form : Form
  deriving DecidableEq, Repr

def Form.text : Form → String
  | required => ""
  | fallback operand => ":=" ++ operand
  | alternate operand => ":+" ++ operand

def Placeholder.text (p : Placeholder) : String := "$\x7benv." ++ p.name ++ p.form.text ++ "\x7d"

inductive Segment where
  | char (c : Char)
  | hole (p : Placeholder)
  deriving DecidableEq, Repr

namespace Placeholder

def isNameChar (c : Char) : Bool := c.isAlphanum || c == '_'

def opening : List Char := ['$', '{', 'e', 'n', 'v', '.']

def strip? : List Char → List Char → Option (List Char)
  | [], cs => some cs
  | p :: ps, c :: cs => if p = c then strip? ps cs else none
  | _ :: _, [] => none

def operand? (cs : List Char) : Option (String × List Char) :=
  match cs.dropWhile (· != '}') with
  | _ :: rest => some (String.ofList (cs.takeWhile (· != '}')), rest)
  | [] => none

def form? : List Char → Option (Form × List Char)
  | '}' :: rest => some (.required, rest)
  | ':' :: '=' :: cs => (operand? cs).map fun (s, rest) => (.fallback s, rest)
  | ':' :: '+' :: cs => (operand? cs).map fun (s, rest) => (.alternate s, rest)
  | _ => none

def read? (cs : List Char) : Option (Placeholder × List Char) := do
  let body ← strip? opening cs
  let name := body.takeWhile isNameChar
  if name.isEmpty then none
  else
    let (form, rest) ← form? (body.dropWhile isNameChar)
    return (⟨String.ofList name, form⟩, rest)

def segmentsAfter : List Char → Nat → List Segment
  | [], _ => []
  | _ :: cs, skip + 1 => segmentsAfter cs skip
  | c :: cs, 0 =>
    match read? (c :: cs) with
    | some (p, rest) => .hole p :: segmentsAfter cs (cs.length - rest.length)
    | none => .char c :: segmentsAfter cs 0

/-- The segments of a text: the leftmost placeholders that do not overlap, and the characters
around them. -/
def segments (s : String) : List Segment := segmentsAfter s.toList 0

def ofSegment? : Segment → Option Placeholder
  | .hole p => some p
  | .char _ => none

def all (s : String) : List Placeholder := (segments s).filterMap ofSegment?

def inText (s : String) : Bool := !(all s).isEmpty

def inValue : Value → Bool
  | .text s => inText s
  | _ => false

end Placeholder
end Provision
