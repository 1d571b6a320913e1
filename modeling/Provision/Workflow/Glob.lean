namespace Provision.Workflow

inductive Piece where
  | star
  | any
  | char (c : Char)
  | oneOf (negated : Bool) (ranges : List (Char × Char))
  deriving DecidableEq, Repr

namespace Piece

abbrev Item := Char × Bool

/-- Splits what is between brackets at the marks of ranges. A mark is no mark at the start, nor
right after the end of a range: `skip` characters are passed over before the next one is sought. -/
def chunks : Nat → List Char → List (List Char)
  | _, [] => [[]]
  | 0, '-' :: rest => [] :: chunks 2 rest
  | skip, c :: rest =>
    match chunks (skip - 1) rest with
    | first :: others => (c :: first) :: others
    | [] => [[c]]

/-- A mark that nothing follows stands for itself. -/
def closeLast : List (List Char) → List (List Char)
  | [c, []] => [c ++ ['-']]
  | c :: rest => c :: closeLast rest
  | [] => []

/-- Joins chunks whose range runs backwards, without its ends. -/
def joinBackward (c : List Char) : List (List Char) → List (List Char)
  | d :: rest =>
    if d.headD 'a' < c.getLastD 'a' then (c.dropLast ++ d.drop 1) :: rest else c :: d :: rest
  | [] => [c]

def items : List (List Char) → List Item
  | [] => []
  | [c] => c.map (·, false)
  | c :: rest => c.map (·, false) ++ ('-', true) :: items rest

def ranges : List Item → List (Char × Char)
  | (a, _) :: (_, true) :: (b, _) :: rest => (a, b) :: ranges rest
  | (a, _) :: rest => (a, a) :: ranges rest
  | [] => []

def ofBrackets (cs : List Char) : Piece :=
  let parts := closeLast (chunks (if cs.head? = some '!' then 2 else 1) cs)
  match items (parts.foldr joinBackward []) with
  | [('!', false)] => any
  | ('!', false) :: rest => oneOf true (ranges rest)
  | all => oneOf false (ranges all)

/-- The characters up to the closing bracket, and what follows it. A bracket right at the start
closes nothing. -/
def brackets? (cs : List Char) : Option (List Char × List Char) :=
  let (mark, body) := match cs with
    | '!' :: r => (['!'], r)
    | r => ([], r)
  let (first, body) := match body with
    | ']' :: r => ([']'], r)
    | r => ([], r)
  match body.dropWhile (· != ']') with
  | _ :: rest => some (mark ++ first ++ body.takeWhile (· != ']'), rest)
  | [] => none

def ofTextAfter : List Char → Nat → List Piece
  | [], _ => []
  | _ :: cs, skip + 1 => ofTextAfter cs skip
  | c :: cs, 0 =>
    if c = '*' then star :: ofTextAfter cs 0
    else if c = '?' then any :: ofTextAfter cs 0
    else if c = '[' then
      match brackets? cs with
      | some (body, rest) => ofBrackets body :: ofTextAfter cs (cs.length - rest.length)
      | none => char '[' :: ofTextAfter cs 0
    else char c :: ofTextAfter cs 0

def ofText (s : String) : List Piece := ofTextAfter s.toList 0

def accepts : Piece → Char → Bool
  | star, _ => false
  | any, _ => true
  | char c, d => c == d
  | oneOf negated rs, d => (rs.any fun r => r.1 ≤ d && d ≤ r.2) != negated

/-- Whether pieces stand for the whole of a text. -/
def covers : List Piece → List Char → Bool
  | [], cs => cs.isEmpty
  | star :: ps, cs =>
    covers ps cs || (match cs with | [] => false | _ :: rest => covers (star :: ps) rest)
  | p :: ps, c :: cs => p.accepts c && covers ps cs
  | _ :: _, [] => false
termination_by ps cs => (ps.length, cs.length)

end Piece

def matchesPattern (pattern text : String) : Bool := Piece.covers (Piece.ofText pattern) text.toList

end Provision.Workflow
