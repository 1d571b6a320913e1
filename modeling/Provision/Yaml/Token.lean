import Provision.Numeral
import Provision.Text.Utf8
import Provision.Yaml.Cursor

namespace Provision.Yaml

inductive Token where
  | version (major minor : Nat)
  | handle (name expansion : String)
  | otherDirective
  | documentStart | documentEnd
  | blockSequence | blockMapping | blockEnd
  | openSequence | openMapping | closeSequence | closeMapping
  | key | value | entry | comma
  | alias (name : String)
  | anchor (name : String)
  | tag (handle : Option String) (suffix : String)
  | scalar (text : String) (isPlain : Bool)
  deriving DecidableEq, Repr, Inhabited

namespace Token

abbrev Reads := Except Failure (Token × Cursor)

def name? (c : Cursor) : Except Failure (String × Cursor) :=
  let (n, c) := c.span isWordChar
  if n.isEmpty then .error .yaml else .ok (String.ofList n, c)

def number? (c : Cursor) : Except Failure (Nat × Cursor) :=
  let (ds, c) := c.span Text.isAsciiDigit
  if ds.isEmpty then .error .yaml
  else .ok (Numeral.ofDigits 10 (ds.filterMap Text.digit?), c)

def anchor? (make : String → Token) (c : Cursor) : Reads := do
  let (n, c) ← name? c.next
  let ch := c.peek
  if isGap ch || "?:,]\x7d%@`".toList.contains ch then return (make n, c) else throw .yaml

def isHex (c : Char) : Bool :=
  Text.isAsciiDigit c || ('a' ≤ c && c ≤ 'f') || ('A' ≤ c && c ≤ 'F')

def hex? (n : Nat) (c : Cursor) : Except Failure (Nat × Cursor) :=
  let ds := c.rest.take n
  if ds.length = n && ds.all isHex then
    .ok (Numeral.ofDigits 16 (ds.filterMap (Numeral.digitBelow? 16)), c.skip n)
  else .error .yaml

def isUriChar (c : Char) : Bool :=
  c.isAlphanum || "-;/?:@&=+$,_.!~*'()[]".toList.contains c

def uriBytes : Nat → Cursor → Except Failure (List UInt8 × Cursor)
  | 0, c => .ok ([], c)
  | fuel + 1, c =>
    if c.peek == '%' then do
      let (n, c) ← hex? 2 c.next
      let (bs, c) ← uriBytes fuel c
      return (UInt8.ofNat n :: bs, c)
    else .ok ([], c)

def uriParts : Nat → Cursor → Except Failure (List Char × Cursor)
  | 0, c => .ok ([], c)
  | fuel + 1, c =>
    let (run, c) := c.span isUriChar
    if c.peek == '%' then do
      let (bs, c) ← uriBytes c.rest.length c
      match Text.Utf8.decode? bs with
      | none => throw .yaml
      | some s =>
        let (more, c) ← uriParts fuel c
        return (run ++ s ++ more, c)
    else .ok (run, c)

def uri? (c : Cursor) : Except Failure (String × Cursor) := do
  let (s, d) ← uriParts (c.rest.length + 1) c
  if d.index = c.index then throw .yaml else return (String.ofList s, d)

def handle? (c : Cursor) : Except Failure (String × Cursor) :=
  if c.peek != '!' then .error .yaml
  else
    let c := c.next
    if c.peek == ' ' then .ok ("!", c)
    else
      let (n, c) := c.span isWordChar
      if c.peek == '!' then .ok (String.ofList ('!' :: n ++ ['!']), c.next)
      else .error .yaml

def hasHandle (c : Cursor) : Bool :=
  (c.next.rest.takeWhile fun ch => !isSpaceOrEnd ch).contains '!'

def tag? (c : Cursor) : Reads := do
  let second := c.peekAt 1
  let (t, c) ←
    if second == '<' then do
      let (s, c) ← uri? (c.skip 2)
      if c.peek != '>' then throw .yaml
      pure (Token.tag none s, c.next)
    else if isGap second then pure (Token.tag none "!", c.next)
    else do
      let (h, c) ← if hasHandle c then handle? c else pure ("!", c.next)
      let (s, c) ← uri? c
      pure (Token.tag (some h) s, c)
  if isSpaceOrEnd c.peek then return (t, c) else throw .yaml

def directive? (c : Cursor) : Reads := do
  let (name, c) ← name? c.next
  if !isSpaceOrEnd c.peek then throw .yaml
  let (t, c) ←
    if name = "YAML" then do
      let (major, c) ← number? (c.skipWhile (· == ' '))
      if c.peek != '.' then throw .yaml
      let (minor, c) ← number? c.next
      if !isSpaceOrEnd c.peek then throw .yaml
      pure (Token.version major minor, c)
    else if name = "TAG" then do
      let (h, c) ← handle? (c.skipWhile (· == ' '))
      if c.peek != ' ' then throw .yaml
      let (s, c) ← uri? (c.skipWhile (· == ' '))
      if !isSpaceOrEnd c.peek then throw .yaml
      pure (Token.handle h s, c)
    else pure (Token.otherDirective, c.skipWhile (!isBreakOrEnd ·))
  return (t, ← c.restOfLine)

/-- The head of a block scalar: how its last line breaks are kept, and its own indentation. -/
structure BlockHead where
  keep : Option Bool := none
  increment : Option Nat := none

def blockHead? (c : Cursor) : Except Failure (BlockHead × Cursor) := do
  let chomp (ch : Char) : Option Bool :=
    if ch == '+' then some true else if ch == '-' then some false else none
  let digit (ch : Char) : Option Nat := if Text.isAsciiDigit ch then Text.digit? ch else none
  let first := c.peek
  let second := c.next.peek
  let (h, length) : BlockHead × Nat := match chomp first, digit first with
    | some k, _ => (⟨some k, digit second⟩, if (digit second).isSome then 2 else 1)
    | none, some n => (⟨chomp second, some n⟩, if (chomp second).isSome then 2 else 1)
    | none, none => ({}, 0)
  let c := c.skip length
  if h.increment = some 0 || !isSpaceOrEnd c.peek then throw .yaml
  return (h, ← c.restOfLine)

def blockLead : Nat → Nat → Cursor → List Char × Nat × Cursor
  | 0, widest, c => ([], widest, c)
  | fuel + 1, widest, c =>
    if c.peek == ' ' then
      let c := c.next
      blockLead fuel (max widest c.column) c
    else if isBreak c.peek then
      let (b, c) := c.lineBreak
      let (bs, widest, c) := blockLead fuel widest c
      (b ++ bs, widest, c)
    else ([], widest, c)

def indentTo (column : Nat) : Nat → Cursor → Cursor
  | 0, c => c
  | fuel + 1, c => if c.column < column && c.peek == ' ' then indentTo column fuel c.next else c

def blockBreaks (column : Nat) : Nat → Cursor → List Char × Cursor
  | 0, c => ([], c)
  | fuel + 1, c =>
    let c := indentTo column column c
    if isBreak c.peek then
      let (b, c) := c.lineBreak
      let (bs, c) := blockBreaks column fuel c
      (b ++ bs, c)
    else ([], c)

/-- What stands between two lines of a block scalar. A folded one joins lines by a blank, unless
one of them starts with a blank or blank lines lie between them. -/
def joint (folded leading : Bool) (lineBreak breaks : List Char) (ahead : Char) : List Char :=
  if folded && lineBreak == ['\n'] && leading && !(ahead == ' ' || ahead == '\t') then
    (if breaks.isEmpty then [' '] else [])
  else lineBreak

/-- Reads the lines of a block scalar at a column; `breaks` are the blank lines before. The result
is the text without its last line break, that break, and the blank lines after it. -/
def blockLines (folded : Bool) (column : Nat) : Nat → List Char → Cursor →
    List Char × List Char × List Char × Cursor
  | 0, breaks, c => ([], [], breaks, c)
  | fuel + 1, breaks, c =>
    if c.column = column && c.peek != final then
      let leading := !(c.peek == ' ' || c.peek == '\t')
      let (line, c) := c.span (!isBreakOrEnd ·)
      let (lineBreak, c) := c.lineBreak
      let (after, c) := blockBreaks column (c.rest.length + 1) c
      if c.column = column && c.peek != final then
        let (text, last, left, d) := blockLines folded column fuel after c
        (breaks ++ line ++ joint folded leading lineBreak after c.peek ++ text, last, left, d)
      else (breaks ++ line, lineBreak, after, c)
    else ([], [], breaks, c)

def block? (indent : Int) (c : Cursor) : Reads := do
  let folded := c.peek == '>'
  let (head, c) ← blockHead? c.next
  let least := (max 1 (indent + 1)).toNat
  let (column, breaks, c) := match head.increment with
    | some n =>
      let column := least + n - 1
      let (breaks, c) := blockBreaks column (c.rest.length + 1) c
      (column, breaks, c)
    | none =>
      let (breaks, widest, c) := blockLead (c.rest.length + 1) 0 c
      (max least widest, breaks, c)
  let (text, last, left, c) := blockLines folded column (c.rest.length + 1) breaks c
  let ending := match head.keep with
    | some true => last ++ left
    | some false => []
    | none => last
  return (.scalar (String.ofList (text ++ ending)) false, c)

def escapes : List (Char × Char) :=
  [('0', '\x00'), ('a', '\x07'), ('b', '\x08'), ('t', '\t'), ('\t', '\t'), ('n', '\n'),
    ('v', '\x0b'), ('f', '\x0c'), ('r', '\r'), ('e', '\x1b'), (' ', ' '), ('"', '"'),
    ('\\', '\\'), ('/', '/'), ('N', '\x85'), ('_', '\xa0'), ('L', '\u2028'), ('P', '\u2029')]

def escapeWidth? : Char → Option Nat
  | 'x' => some 2
  | 'u' => some 4
  | 'U' => some 8
  | _ => none

def quotedBreaks : Nat → Cursor → Except Failure (List Char × Cursor)
  | 0, c => .ok ([], c)
  | fuel + 1, c =>
    if c.atMark then .error .yaml
    else
      let c := c.skipWhile fun ch => ch == ' ' || ch == '\t'
      if isBreak c.peek then do
        let (b, c) := c.lineBreak
        let (bs, c) ← quotedBreaks fuel c
        return (b ++ bs, c)
      else .ok ([], c)

def quotedGap (c : Cursor) : Except Failure (List Char × Cursor) := do
  let (blanks, c) := c.span fun ch => ch == ' ' || ch == '\t'
  if c.peek == final then throw .yaml
  else if isBreak c.peek then
    let (b, c) := c.lineBreak
    let (bs, c) ← quotedBreaks (c.rest.length + 1) c
    return ((if b != ['\n'] then b else if bs.isEmpty then [' '] else []) ++ bs, c)
  else return (blanks, c)

/-- The character with a code point, if there is one. A lone surrogate has no character and is
replaced. -/
def charOf? (n : Nat) : Except Failure Char :=
  if 0x110000 ≤ n then .error (.trouble .value "chr() arg not in range(0x110000)")
  else if 0xd800 ≤ n && n < 0xe000 then .ok '\ufffd'
  else .ok (Char.ofNat n)

def escape? (c : Cursor) : Except Failure (List Char × Cursor) :=
  let ch := c.peek
  match escapes.lookup ch, escapeWidth? ch with
  | some r, _ => .ok ([r], c.next)
  | none, some n => do
    let (code, c) ← hex? n c.next
    return ([← charOf? code], c)
  | none, none =>
    if isBreak ch then
      let c := c.lineBreak.2
      quotedBreaks (c.rest.length + 1) c
    else .error .yaml

def quotedText (double : Bool) : Nat → Cursor → Except Failure (List Char × Cursor)
  | 0, _ => .error .yaml
  | fuel + 1, c =>
    let ch := c.peek
    let go (part : List Char) (c : Cursor) : Except Failure (List Char × Cursor) := do
      let (text, c) ← quotedText double fuel c
      return (part ++ text, c)
    if ch == final then .error .yaml
    else if !double && ch == '\'' && c.peekAt 1 == '\'' then go ['\''] (c.skip 2)
    else if ch == (if double then '"' else '\'') then .ok ([], c.next)
    else if double && ch == '\\' then do
      let (part, c) ← escape? c.next
      go part c
    else if isGap ch then do
      let (part, c) ← quotedGap c
      go part c
    else go [ch] c.next

def quoted? (c : Cursor) : Reads := do
  let (text, c) ← quotedText (c.peek == '"') (c.rest.length + 1) c.next
  return (.scalar (String.ofList text) false, c)

def isFlowMark (c : Char) : Bool := c == ',' || c == '[' || c == ']' || c == '{' || c == '}'

def plainRun (inFlow : Bool) : List Char → List Char
  | [] => []
  | c :: rest =>
    let after := rest.headD final
    if isGap c || (c == ':' && (isGap after || (inFlow && isFlowMark after)))
      || (inFlow && (c == '?' || isFlowMark c)) then []
    else c :: plainRun inFlow rest

def plainBreaks : Nat → Cursor → Option (List Char) × Cursor
  | 0, c => (some [], c)
  | fuel + 1, c =>
    if c.peek == ' ' then plainBreaks fuel c.next
    else if isBreak c.peek then
      let (b, c) := c.lineBreak
      if c.atMark then (none, c)
      else
        let (bs, c) := plainBreaks fuel c
        (bs.map (b ++ ·), c)
    else (some [], c)

/-- The gap after a part of a plain scalar: what it folds to, whether it held a line break, and the
place after it. An empty one ends the scalar. -/
def plainGap (c : Cursor) : List Char × Bool × Cursor :=
  let (blanks, c) := c.span (· == ' ')
  if isBreak c.peek then
    let (b, c) := c.lineBreak
    if c.atMark then ([], true, c)
    else
      let (bs?, c) := plainBreaks (c.rest.length + 1) c
      match bs? with
      | none => ([], true, c)
      | some bs =>
        ((if b != ['\n'] then b else if bs.isEmpty then [' '] else []) ++ bs, true, c)
  else (blanks, false, c)

def plainParts (inFlow : Bool) (column : Int) : Nat → List Char → Cursor →
    List Char × Bool × Cursor
  | 0, _, c => ([], false, c)
  | fuel + 1, gap, c =>
    let run := if c.peek == '#' then [] else plainRun inFlow c.rest
    if run.isEmpty then ([], gap.contains '\n', c)
    else
      let (after, broken, d) := plainGap (c.skip run.length)
      if after.isEmpty || d.peek == '#' || (!inFlow && (d.column : Int) < column) then
        (gap ++ run, broken, d)
      else
        let (text, ends, e) := plainParts inFlow column fuel after d
        (gap ++ run ++ text, if text.isEmpty then broken else ends, e)

/-- Reads a plain scalar within a block of the given indentation, or in brackets. The flag says
whether its end lies on a later line than its last character. -/
def plain (inFlow : Bool) (indent : Int) (c : Cursor) : Token × Bool × Cursor :=
  let (text, broken, c) := plainParts inFlow (indent + 1) (c.rest.length + 1) [] c
  (.scalar (String.ofList text) true, broken, c)

end Token
end Provision.Yaml
