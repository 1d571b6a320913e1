import Provision.Failure
import Provision.Value.Equality

namespace Provision.Json

open Text (isAsciiDigit)

def isSpace (c : Char) : Bool := c == ' ' || c == '\t' || c == '\n' || c == '\r'

def skipSpace (cs : List Char) : List Char := cs.dropWhile isSpace

def hex4? : List Char → Option (Nat × List Char)
  | a :: b :: c :: d :: rest => do
    let ds ← [a, b, c, d].mapM (Numeral.digitBelow? 16)
    return (Numeral.ofDigits 16 ds, rest)
  | _ => none

/-- Reads the code units after `\u`: a pair of surrogates is one character. -/
def unicode? (cs : List Char) : Option (Char × List Char) := do
  let (hi, rest) ← hex4? cs
  match rest with
  | '\\' :: 'u' :: more =>
    if 0xd800 ≤ hi && hi < 0xdc00 then
      match hex4? more with
      | some (lo, after) =>
        if 0xdc00 ≤ lo && lo < 0xe000 then
          return (Char.ofNat (0x10000 + (hi - 0xd800) * 0x400 + (lo - 0xdc00)), after)
        else return (Char.ofNat 0xfffd, rest)
      | none => return (Char.ofNat 0xfffd, rest)
    else return (Char.ofNat hi, rest)
  | _ => return (if 0xd800 ≤ hi && hi < 0xe000 then Char.ofNat 0xfffd else Char.ofNat hi, rest)

def escape? : Char → Option Char
  | '"' => some '"'
  | '\\' => some '\\'
  | '/' => some '/'
  | 'b' => some '\x08'
  | 'f' => some '\x0c'
  | 'n' => some '\n'
  | 'r' => some '\r'
  | 't' => some '\t'
  | _ => none

def string? : Nat → List Char → Option (List Char × List Char)
  | 0, _ => none
  | fuel + 1, cs =>
    match cs with
    | '"' :: rest => some ([], rest)
    | '\\' :: 'u' :: rest => do
      let (c, rest) ← unicode? rest
      let (s, rest) ← string? fuel rest
      return (c :: s, rest)
    | '\\' :: e :: rest => do
      let c ← escape? e
      let (s, rest) ← string? fuel rest
      return (c :: s, rest)
    | c :: rest =>
      if c < ' ' || c = '\\' then none
      else do
        let (s, rest) ← string? fuel rest
        return (c :: s, rest)
    | [] => none

def fractionPart : List Char → List Char × List Char
  | '.' :: d :: rest =>
    if isAsciiDigit d then ('.' :: d :: rest.takeWhile isAsciiDigit, rest.dropWhile isAsciiDigit)
    else ([], '.' :: d :: rest)
  | cs => ([], cs)

def exponentPart (cs : List Char) : List Char × List Char :=
  match cs with
  | e :: rest =>
    if e = 'e' || e = 'E' then
      let (mark, ds) := match rest with
        | '+' :: r => (['+'], r)
        | '-' :: r => (['-'], r)
        | r => ([], r)
      if (ds.takeWhile isAsciiDigit).isEmpty then ([], cs)
      else (e :: mark ++ ds.takeWhile isAsciiDigit, ds.dropWhile isAsciiDigit)
    else ([], cs)
  | [] => ([], cs)

def unsigned? (minus : List Char) (cs : List Char) : Except Failure (Value × List Char) := do
  let (whole, rest) := match cs with
    | '0' :: r => (['0'], r)
    | _ => (cs.takeWhile isAsciiDigit, cs.dropWhile isAsciiDigit)
  if whole.isEmpty then throw .json
  let (part, rest) := fractionPart rest
  let (e, rest) := exponentPart rest
  if part.isEmpty && e.isEmpty then
    match Numeral.integer? (minus ++ whole) with
    | .ok n => return (.int n, rest)
    | .error f => throw (.ofNumeral (String.ofList (minus ++ whole)) f)
  else
    match Numeral.real? (minus ++ whole ++ part ++ e) with
    | some x => return (.real x, rest)
    | none => throw .json

def names : List (List Char × Value) :=
  [("null".toList, .null), ("true".toList, .bool true), ("false".toList, .bool false),
    ("NaN".toList, .real .nan), ("Infinity".toList, .real (.infinite false)),
    ("-Infinity".toList, .real (.infinite true))]

def atom? (cs : List Char) : Except Failure (Value × List Char) :=
  match names.find? fun n => n.1.isPrefixOf cs with
  | some (n, v) => .ok (v, cs.drop n.length)
  | none =>
    match cs with
    | '-' :: rest => unsigned? ['-'] rest
    | _ => unsigned? [] cs

mutual
def value? : Nat → List Char → Except Failure (Value × List Char)
  | 0, _ => .error .json
  | fuel + 1, cs =>
    match cs with
    | '"' :: rest =>
      match string? fuel rest with
      | some (s, rest) => .ok (.text (String.ofList s), rest)
      | none => .error .json
    | '[' :: rest =>
      match skipSpace rest with
      | ']' :: rest => .ok (.list none [], rest)
      | rest => do
        let (xs, rest) ← items? fuel rest
        return (.list none xs, rest)
    | '{' :: rest =>
      match skipSpace rest with
      | '}' :: rest => .ok (.map none [], rest)
      | rest => do
        let (es, rest) ← fields? fuel [] rest
        return (.map none es, rest)
    | _ => atom? cs

def items? : Nat → List Char → Except Failure (List Value × List Char)
  | 0, _ => .error .json
  | fuel + 1, cs => do
    let (x, rest) ← value? fuel (skipSpace cs)
    match skipSpace rest with
    | ',' :: rest =>
      let (xs, rest) ← items? fuel rest
      return (x :: xs, rest)
    | ']' :: rest => return ([x], rest)
    | _ => throw .json

def fields? : Nat → Entries → List Char → Except Failure (Entries × List Char)
  | 0, _, _ => .error .json
  | fuel + 1, es, cs =>
    match skipSpace cs with
    | '"' :: rest =>
      match string? fuel rest with
      | none => .error .json
      | some (k, rest) =>
        match skipSpace rest with
        | ':' :: rest => do
          let (v, rest) ← value? fuel (skipSpace rest)
          let es := Entries.put es (.text (String.ofList k)) v
          match skipSpace rest with
          | ',' :: rest => fields? fuel es rest
          | '}' :: rest => return (es, rest)
          | _ => throw .json
        | _ => .error .json
    | _ => .error .json
end

def read (s : String) : Except Failure Value := do
  let cs := s.toList
  let (v, rest) ← value? (2 * cs.length + 2) (skipSpace cs)
  if (skipSpace rest).isEmpty then return v else throw .json

end Provision.Json
