import Provision.Calendar
import Provision.Numeral

namespace Provision.Yaml

inductive Tag where
  | null | bool | int | real | text | binary | timestamp | merge | value
  | sequence | mapping | set | orderedMapping | pairs
  | other (name : String)
  deriving DecidableEq, Repr, Inhabited

namespace Tag

def common : String := "tag:yaml.org,2002:"

def names : List (String × Tag) :=
  [("null", null), ("bool", bool), ("int", int), ("float", real), ("str", text),
    ("binary", binary), ("timestamp", timestamp), ("merge", merge), ("value", value),
    ("seq", sequence), ("map", mapping), ("set", set), ("omap", orderedMapping), ("pairs", pairs)]

def ofName (s : String) : Tag :=
  match names.find? fun n => common ++ n.1 = s with
  | some (_, t) => t
  | none => other s

def short (t : Tag) : String :=
  match names.find? fun n => n.2 = t with
  | some (s, _) => "!!" ++ s
  | none => "!"

open Text (isAsciiDigit)

def body (cs : List Char) : List Char := if cs.getLast? = some '\n' then cs.dropLast else cs

def isBool (s : String) : Bool :=
  ["yes", "Yes", "YES", "no", "No", "NO", "true", "True", "TRUE", "false", "False", "FALSE",
    "on", "On", "ON", "off", "Off", "OFF"].contains s

def isNull (s : String) : Bool := ["~", "null", "Null", "NULL", ""].contains s

def isDigitOrUnderscore (c : Char) : Bool := isAsciiDigit c || c == '_'

def isSixtieth : List Char → Bool
  | [c] => isAsciiDigit c
  | [c, d] => '0' ≤ c && c ≤ '5' && isAsciiDigit d
  | _ => false

def splitAt (mark : Char) (cs : List Char) : List (List Char) :=
  cs.foldr (fun c parts =>
    if c = mark then [] :: parts
    else match parts with
      | [] => [[c]]
      | p :: ps => (c :: p) :: ps) [[]]

def isWhole : List Char → Bool
  | c :: cs => '1' ≤ c && c ≤ '9' && cs.all isDigitOrUnderscore
  | [] => false

def isSexagesimal (first : List Char → Bool) (cs : List Char) : Bool :=
  match splitAt ':' cs with
  | p :: q :: rest => first p && (q :: rest).all isSixtieth
  | _ => false

def isInt (cs : List Char) : Bool :=
  let cs := (Numeral.sign cs).2
  match cs with
  | ['0'] => true
  | '0' :: 'b' :: d :: ds => (d :: ds).all fun c => c == '0' || c == '1' || c == '_'
  | '0' :: 'x' :: d :: ds =>
    (d :: ds).all fun c => c == '_' || (Numeral.digitBelow? 16 c).isSome && c.toNat < 128
  | '0' :: d :: ds => (d :: ds).all fun c => ('0' ≤ c && c ≤ '7') || c == '_'
  | _ => isWhole cs || isSexagesimal isWhole cs

def isExponent : List Char → Bool
  | [] => true
  | e :: s :: d :: ds =>
    (e == 'e' || e == 'E') && (s == '+' || s == '-') && (d :: ds).all isAsciiDigit
  | _ => false

def isRun : List Char → Bool
  | c :: cs => isAsciiDigit c && cs.all isDigitOrUnderscore
  | [] => false

def isReal (cs : List Char) : Bool :=
  let unsigned := (Numeral.sign cs).2
  let whole := unsigned.takeWhile isDigitOrUnderscore
  let plain := match unsigned.dropWhile isDigitOrUnderscore with
    | '.' :: rest => isRun whole && isExponent (rest.dropWhile isDigitOrUnderscore)
    | _ => false
  let pointFirst := match cs with
    | '.' :: rest =>
      isRun (rest.takeWhile isDigitOrUnderscore)
        && isExponent (rest.dropWhile isDigitOrUnderscore)
    | _ => false
  let sixtieths := match splitAt '.' unsigned with
    | [p, q] => isSexagesimal isRun p && q.all isDigitOrUnderscore
    | _ => false
  plain || pointFirst || sixtieths
    || [".inf", ".Inf", ".INF"].contains (String.ofList unsigned)
    || [".nan", ".NaN", ".NAN"].contains (String.ofList cs)

structure Stamp where
  year : Nat
  month : Nat
  day : Nat
  time : Option (Nat × Nat × Nat) := none
  fraction : List Char := []
  offset : Option Int := none
  padded : Bool := true

def digits? (least most : Nat) (cs : List Char) : Option (Nat × Nat × List Char) :=
  let ds := (cs.take most).takeWhile isAsciiDigit
  if ds.length < least then none
  else some (Numeral.ofDigits 10 (ds.filterMap Text.digit?), ds.length, cs.drop ds.length)

def mark? (c : Char) : List Char → Option (List Char)
  | d :: rest => if c = d then some rest else none
  | [] => none

def offset? (cs : List Char) : Option (Option Int) :=
  if cs.isEmpty then some none
  else
    match cs.dropWhile fun c => c == ' ' || c == '\t' with
    | ['Z'] => some (some 0)
    | s :: rest =>
      if s == '+' || s == '-' then do
        let (h, _, rest) ← digits? 1 2 rest
        let m ← match rest with
          | [] => some 0
          | _ => do
            let (m, _, rest) ← digits? 2 2 (← mark? ':' rest)
            if rest.isEmpty then some m else none
        return some (Numeral.signed (s == '-') (h * 60 + m))
      else none
    | [] => none

def time? (stamp : Stamp) (cs : List Char) : Option Stamp := do
  let (h, _, rest) ← digits? 1 2 cs
  let (m, _, rest) ← digits? 2 2 (← mark? ':' rest)
  let (s, _, rest) ← digits? 2 2 (← mark? ':' rest)
  let (fraction, rest) := match rest with
    | '.' :: r => (r.takeWhile isAsciiDigit, r.dropWhile isAsciiDigit)
    | r => ([], r)
  return { stamp with time := some (h, m, s), fraction := fraction, offset := ← offset? rest }

def stamp? (cs : List Char) : Option Stamp := do
  let (year, _, rest) ← digits? 4 4 cs
  let (month, m, rest) ← digits? 1 2 (← mark? '-' rest)
  let (day, d, rest) ← digits? 1 2 (← mark? '-' rest)
  let stamp : Stamp := { year, month, day, padded := m = 2 && d = 2 }
  match rest with
  | [] => return stamp
  | 'T' :: rest | 't' :: rest => time? stamp rest
  | c :: rest =>
    if c == ' ' || c == '\t' then time? stamp (rest.dropWhile fun c => c == ' ' || c == '\t')
    else none

/-- A date alone needs two digits for month and day. -/
def isTimestamp (cs : List Char) : Bool :=
  match stamp? cs with
  | some s => s.time.isSome || s.padded
  | none => false

def ofPlain (s : String) : Tag :=
  let cs := body s.toList
  let t := String.ofList cs
  if isBool t then bool
  else if isReal cs then real
  else if isInt cs then int
  else if t = "<<" then merge
  else if isNull t && (t ≠ "" || s = "") then null
  else if isTimestamp cs then timestamp
  else if t = "=" then value
  else text

end Tag
end Provision.Yaml
