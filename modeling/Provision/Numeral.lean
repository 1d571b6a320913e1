import Provision.Binary64
import Provision.Text.Blank
import Provision.Text.Digit

namespace Provision.Numeral

open Text

inductive Fault where
  | malformed
  | tooLong (digits : Nat)
  deriving DecidableEq, Repr

/-- The greatest number of decimal digits that is read. -/
def digitLimit : Nat := 4300

def ofDigits (base : Nat) (ds : List Nat) : Nat := ds.foldl (fun n d => n * base + d) 0

def digitRun? (value? : Char → Option Nat) : List Char → Option (List Nat)
  | [] => none
  | [c] => (value? c).map ([·])
  | c :: '_' :: rest => do return (← value? c) :: (← digitRun? value? rest)
  | c :: d :: rest => do return (← value? c) :: (← digitRun? value? (d :: rest))

def sign : List Char → Bool × List Char
  | '-' :: rest => (true, rest)
  | '+' :: rest => (false, rest)
  | cs => (false, cs)

def signed (negative : Bool) (n : Nat) : Int := if negative then -n else n

def integer? (s : List Char) : Except Fault Int :=
  let (negative, cs) := sign (trim s)
  match digitRun? digit? cs with
  | none => .error .malformed
  | some ds =>
    if digitLimit < ds.length then .error (.tooLong ds.length)
    else .ok (signed negative (ofDigits 10 ds))

def digitBelow? (base : Nat) (c : Char) : Option Nat :=
  let v? := match digit? c with
    | some d => some d
    | none =>
      if 'a' ≤ c && c ≤ 'z' then some (c.toNat - 'a'.toNat + 10)
      else if 'A' ≤ c && c ≤ 'Z' then some (c.toNat - 'A'.toNat + 10)
      else none
  v?.filter (· < base)

/-- Drops a radix mark such as `0x`, and an underscore after it. -/
def dropMark (mark : Char) : List Char → List Char
  | '0' :: c :: rest =>
    if c.toLower = mark then (match rest with | '_' :: r => r | r => r) else '0' :: c :: rest
  | cs => cs

def radix? (base : Nat) (mark : Char) (s : List Char) : Except Fault Int :=
  let (negative, cs) := sign (trim s)
  match digitRun? (digitBelow? base) (dropMark mark cs) with
  | none => .error .malformed
  | some ds => .ok (signed negative (ofDigits base ds))

def dropUnderscores : List Char → Option (List Char)
  | [] => some []
  | '_' :: _ => none
  | c :: '_' :: d :: rest =>
    if isAsciiDigit c && isAsciiDigit d then (dropUnderscores (d :: rest)).map (c :: ·) else none
  | [_, '_'] => none
  | c :: rest => (dropUnderscores rest).map (c :: ·)

def exponent? : List Char → Option Int
  | [] => some 0
  | c :: rest =>
    if c = 'e' || c = 'E' then
      let (negative, ds) := sign rest
      if ds.isEmpty || !ds.all isAsciiDigit then none
      else some (signed negative (ofDigits 10 (ds.filterMap digit?)))
    else none

/-- Reads an unsigned decimal fraction as digits and a decimal exponent. -/
def fraction? (cs : List Char) : Option (Nat × Int) := do
  let whole := cs.takeWhile isAsciiDigit
  let rest := cs.dropWhile isAsciiDigit
  let (part, rest) := match rest with
    | '.' :: r => (r.takeWhile isAsciiDigit, r.dropWhile isAsciiDigit)
    | r => ([], r)
  if whole.isEmpty && part.isEmpty then none
  else
    let e ← exponent? rest
    return (ofDigits 10 ((whole ++ part).filterMap digit?), e - part.length)

def toAscii (c : Char) : Char :=
  match digit? c with
  | some d => Char.ofNat ('0'.toNat + d)
  | none => c

def real? (s : List Char) : Option Binary64 := do
  let cs ← dropUnderscores ((trim s).map toAscii)
  let (negative, cs) := sign cs
  let name := String.ofList (cs.map Char.toLower)
  if name = "inf" || name = "infinity" then some (.infinite negative)
  else if name = "nan" then some .nan
  else
    let (n, e) ← fraction? cs
    return .ofDecimal negative n e

end Provision.Numeral
