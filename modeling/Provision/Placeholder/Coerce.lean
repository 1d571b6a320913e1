import Provision.Failure

namespace Provision.Coerce

open Text

/-- A numeral may be followed by one final newline. -/
def body (cs : List Char) : List Char := if cs.getLast? = some '\n' then cs.dropLast else cs

def isInteger (cs : List Char) : Bool :=
  let ds := (Numeral.sign (body cs)).2
  !ds.isEmpty && ds.all isDigit

def isExponent : List Char → Bool
  | c :: cs => (c == 'e' || c == 'E') && (let ds := (Numeral.sign cs).2; !ds.isEmpty && ds.all isDigit)
  | [] => false

/-- A decimal fraction: digits with a point, digits after a point, or digits with an optional
fraction and an exponent. -/
def isReal (cs : List Char) : Bool :=
  let cs := (Numeral.sign (body cs)).2
  let whole := cs.takeWhile isDigit
  match cs.dropWhile isDigit with
  | '.' :: rest =>
    let part := rest.takeWhile isDigit
    match rest.dropWhile isDigit with
    | [] => !whole.isEmpty || !part.isEmpty
    | rest => !whole.isEmpty && isExponent rest
  | rest => !whole.isEmpty && isExponent rest

/-- The value that a text reads as; a text that reads as nothing else is itself. -/
def coerce (s : String) : Except Failure Value :=
  let cs := s.toList
  let lowered := String.ofList (cs.map Char.toLower)
  if lowered = "true" then .ok (.bool true)
  else if lowered = "false" then .ok (.bool false)
  else if isInteger cs then
    match Numeral.integer? cs with
    | .ok n => .ok (.int n)
    | .error f => .error (.ofNumeral s f)
  else if isReal cs then
    match Numeral.real? cs with
    | some x => .ok (.real x)
    | none => .error (.trouble .value ("could not convert string to float: " ++ Value.showText s))
  else .ok (.text s)

end Provision.Coerce
