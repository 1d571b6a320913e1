import Provision.Yaml.Token

namespace Provision.Yaml

/-- A place where a key may have started. -/
structure KeyStart where
  position : Nat
  required : Bool
  index : Nat
  line : Nat
  column : Nat
  deriving Repr

structure Lexer where
  cursor : Cursor
  flow : Nat := 0
  indent : Int := -1
  outer : List Int := []
  keyAllowed : Bool := true
  starts : List (Nat × KeyStart) := []
  tokens : Array Token := #[]

namespace Lexer

abbrev Step := Except Failure Lexer

def emit (l : Lexer) (t : Token) : Lexer := { l with tokens := l.tokens.push t }

/-- A key starts at most this many characters in front of its `:`. -/
def reach : Nat := 1024

def start? (l : Lexer) : Option KeyStart := l.starts.lookup l.flow

def forgetStart (l : Lexer) : Lexer :=
  { l with starts := l.starts.filter (·.1 ≠ l.flow) }

def dropStart (l : Lexer) : Step :=
  match l.start? with
  | some k => if k.required then .error .yaml else .ok l.forgetStart
  | none => .ok l

def dropStale (l : Lexer) : Step :=
  let stale (k : KeyStart) : Bool := k.line ≠ l.cursor.line || reach < l.cursor.index - k.index
  if l.starts.any fun s => stale s.2 && s.2.required then .error .yaml
  else .ok { l with starts := l.starts.filter fun s => !stale s.2 }

def noteStart (l : Lexer) : Step :=
  if l.keyAllowed then do
    let required := l.flow = 0 && l.indent = l.cursor.column
    let l ← l.dropStart
    let k : KeyStart :=
      ⟨l.tokens.size, required, l.cursor.index, l.cursor.line, l.cursor.column⟩
    return { l with starts := (l.flow, k) :: l.starts }
  else .ok l

def closeTo (column : Int) : Nat → Lexer → Lexer
  | 0, l => l
  | fuel + 1, l =>
    if l.flow = 0 && column < l.indent then
      closeTo column fuel
        { l with
          indent := l.outer.headD (-1)
          outer := l.outer.tail
          tokens := l.tokens.push .blockEnd }
    else l

def close (l : Lexer) (column : Int) : Lexer := closeTo column l.outer.length l

def open? (l : Lexer) (column : Nat) : Option Lexer :=
  if l.indent < column then some { l with indent := column, outer := l.indent :: l.outer }
  else none

def openHere (l : Lexer) (t : Token) : Lexer :=
  match l.open? l.cursor.column with
  | some l => l.emit t
  | none => l

/-- Passes blanks, comments and line breaks. A new line of a block may start with a key. -/
def skipGap : Nat → Lexer → Lexer
  | 0, l => l
  | fuel + 1, l =>
    let c := l.cursor.skipWhile (· == ' ')
    let c := if c.peek == '#' then c.skipWhile (!isBreakOrEnd ·) else c
    let (b, d) := c.lineBreak
    if b.isEmpty then { l with cursor := c }
    else skipGap fuel { l with cursor := d, keyAllowed := l.keyAllowed || l.flow = 0 }

def mark (l : Lexer) (n : Nat) (t : Token) : Lexer :=
  { l.emit t with cursor := l.cursor.skip n }

def documentMark (l : Lexer) (t : Token) : Step := do
  let l ← (l.close (-1)).dropStart
  return { l with keyAllowed := false }.mark 3 t

def directive (l : Lexer) : Step := do
  let l ← (l.close (-1)).dropStart
  let (t, c) ← Token.directive? l.cursor
  return { l.emit t with cursor := c, keyAllowed := false }

def openBracket (l : Lexer) (t : Token) : Step := do
  let l ← l.noteStart
  return { l with flow := l.flow + 1, keyAllowed := true }.mark 1 t

def closeBracket (l : Lexer) (t : Token) : Step := do
  if l.flow = 0 then throw .yaml
  let l ← l.dropStart
  return { l with flow := l.flow - 1, keyAllowed := false }.mark 1 t

def comma (l : Lexer) : Step := do
  let l ← l.dropStart
  return { l with keyAllowed := true }.mark 1 .comma

def entry (l : Lexer) : Step := do
  if l.flow = 0 && !l.keyAllowed then throw .yaml
  let l := if l.flow = 0 then l.openHere .blockSequence else l
  let l ← l.dropStart
  return { l with keyAllowed := true }.mark 1 .entry

def key (l : Lexer) : Step := do
  if l.flow = 0 && !l.keyAllowed then throw .yaml
  let l := if l.flow = 0 then l.openHere .blockMapping else l
  let l ← l.dropStart
  return { l with keyAllowed := l.flow = 0 }.mark 1 .key

def splice (l : Lexer) (position : Nat) (ts : List Token) : Lexer :=
  { l with tokens :=
      l.tokens.extract 0 position ++ ts.toArray ++ l.tokens.extract position l.tokens.size }

def value (l : Lexer) : Step :=
  match l.start? with
  | some k =>
    let l := l.forgetStart
    let l := match (if l.flow = 0 then l.open? k.column else none) with
      | some l => l.splice k.position [.blockMapping, .key]
      | none => l.splice k.position [.key]
    .ok ({ l with keyAllowed := false }.mark 1 .value)
  | none =>
    if l.flow = 0 && !l.keyAllowed then .error .yaml
    else
      let l := if l.flow = 0 then l.openHere .blockMapping else l
      .ok ({ l with keyAllowed := l.flow = 0 }.mark 1 .value)

def content (l : Lexer) (read : Cursor → Token.Reads) : Step := do
  let l ← l.noteStart
  let (t, c) ← read l.cursor
  return { l.emit t with cursor := c, keyAllowed := false }

def blockScalar (l : Lexer) : Step := do
  let l ← l.dropStart
  let (t, c) ← Token.block? l.indent l.cursor
  return { l.emit t with cursor := c, keyAllowed := true }

def plain (l : Lexer) : Step := do
  let l ← l.noteStart
  let (t, broken, c) := Token.plain (l.flow ≠ 0) l.indent l.cursor
  return { l.emit t with cursor := c, keyAllowed := broken }

def atPlain (l : Lexer) : Bool :=
  let ch := l.cursor.peek
  !(isGap ch || "-?:,[]\x7b\x7d#&*!|>'\"%@`".toList.contains ch)
    || (!isGap (l.cursor.peekAt 1) && (ch == '-' || (l.flow = 0 && (ch == '?' || ch == ':'))))

def token (l : Lexer) : Step :=
  let ch := l.cursor.peek
  let apart := isGap (l.cursor.peekAt 1)
  let top := l.cursor.column = 0
  let block := l.flow = 0
  if top && ch == '%' then l.directive
  else if top && ch == '-' && l.cursor.atMark then l.documentMark .documentStart
  else if top && ch == '.' && l.cursor.atMark then l.documentMark .documentEnd
  else if ch == '[' then l.openBracket .openSequence
  else if ch == '{' then l.openBracket .openMapping
  else if ch == ']' then l.closeBracket .closeSequence
  else if ch == '}' then l.closeBracket .closeMapping
  else if ch == ',' then l.comma
  else if ch == '-' && apart then l.entry
  else if ch == '?' && (!block || apart) then l.key
  else if ch == ':' && (!block || apart) then l.value
  else if ch == '*' then l.content (Token.anchor? .alias)
  else if ch == '&' then l.content (Token.anchor? .anchor)
  else if ch == '!' then l.content Token.tag?
  else if block && (ch == '|' || ch == '>') then l.blockScalar
  else if ch == '\'' || ch == '"' then l.content Token.quoted?
  else if l.atPlain then l.plain
  else .error .yaml

def run : Nat → Lexer → Step
  | 0, _ => .error .yaml
  | fuel + 1, l => do
    let l := skipGap (l.cursor.rest.length + 1) l
    let l ← l.dropStale
    let l := l.close l.cursor.column
    if l.cursor.peek == final then (l.close (-1)).dropStart
    else run fuel (← l.token)

end Lexer

def Token.ofText? (s : String) : Except Failure (List Token) := do
  let cs := s.toList
  if !cs.all isAllowed then throw .yaml
  let cs := if cs.headD final == '\ufeff' then cs.drop 1 else cs
  let l ← Lexer.run (2 * cs.length + 2) { cursor := ⟨cs, 0, 0, 0⟩ }
  return l.tokens.toList

end Provision.Yaml
