import Provision.Text.Quoted
import Provision.Yaml.Style

namespace Provision.Yaml

structure Page where
  text : String := ""
  column : Nat := 0
  blank : Bool := true
  lead : Bool := true
  seen : List Nat := []

namespace Page

def width : Nat := 80

def put (cs : List Char) (p : Page) : Page :=
  { p with text := p.text ++ String.ofList cs, column := p.column + cs.length }

def mark (m : String) (apart : Bool) (blank lead : Bool) (p : Page) : Page :=
  let cs := if p.blank || !apart then m.toList else ' ' :: m.toList
  { p.put cs with blank := blank, lead := p.lead && lead }

def newline (c : Char) (p : Page) : Page :=
  { p with text := p.text.push c, column := 0, blank := true, lead := true }

def indent (n : Nat) (p : Page) : Page :=
  let p := if !p.lead || n < p.column || (p.column = n && !p.blank) then p.newline '\n' else p
  if p.column < n then { p.put (List.replicate (n - p.column) ' ') with blank := true } else p

def fold (n : Nat) (p : Page) : Page := { p.indent n with blank := false, lead := false }

end Page

inductive Run where
  | blanks (n : Nat)
  | lines (cs : List Char)
  | word (cs : List Char)
  deriving Repr

namespace Run

def cons (c : Char) (rs : List Run) : List Run :=
  if c == ' ' then
    match rs with
    | blanks n :: rest => blanks (n + 1) :: rest
    | _ => blanks 1 :: rs
  else if isLine c then
    match rs with
    | lines cs :: rest => lines (c :: cs) :: rest
    | _ => lines [c] :: rs
  else
    match rs with
    | word cs :: rest => word (c :: cs) :: rest
    | _ => word [c] :: rs

def ofText (cs : List Char) : List Run := cs.foldr cons []

end Run

namespace Page

/-- Writes line breaks of a scalar: a line feed counts as one only if another stands before it. -/
def lines (column : Nat) (cs : List Char) (p : Page) : Page :=
  let p := if cs.head? = some '\n' then p.newline '\n' else p
  (cs.foldl (fun p c => p.newline c) p).indent column

def plainRuns (column : Nat) (split : Bool) : List Run → Page → Page
  | [], p => p
  | .blanks n :: rest, p =>
    plainRuns column split rest
      (if n = 1 && width < p.column && split then p.fold column
        else p.put (List.replicate n ' '))
  | .lines cs :: rest, p =>
    plainRuns column split rest { p.lines column cs with blank := false, lead := false }
  | .word cs :: rest, p => plainRuns column split rest (p.put cs)

def plain (column : Nat) (split : Bool) (cs : List Char) (p : Page) : Page :=
  if cs.isEmpty then p
  else
    let p := if p.blank then p else p.put [' ']
    plainRuns column split (Run.ofText cs) { p with blank := false, lead := false }

def doubled (cs : List Char) : List Char := cs.flatMap fun c => if c == '\'' then ['\'', '\''] else [c]

def singleRuns (column : Nat) (split first : Bool) : List Run → Page → Page
  | [], p => p
  | .blanks n :: rest, p =>
    singleRuns column split false rest
      (if n = 1 && width < p.column && split && !first && !rest.isEmpty then p.indent column
        else p.put (List.replicate n ' '))
  | .lines cs :: rest, p => singleRuns column split false rest (p.lines column cs)
  | .word cs :: rest, p => singleRuns column split false rest (p.put (doubled cs))

def single (column : Nat) (split : Bool) (cs : List Char) (p : Page) : Page :=
  let p := p.mark "'" true false false
  (singleRuns column split true (Run.ofText cs) p).mark "'" false false false

def escapeLetters : List (Char × Char) :=
  [('\x00', '0'), ('\x07', 'a'), ('\x08', 'b'), ('\t', 't'), ('\n', 'n'), ('\x0b', 'v'),
    ('\x0c', 'f'), ('\r', 'r'), ('\x1b', 'e'), ('"', '"'), ('\\', '\\'), ('\x85', 'N'),
    ('\xa0', '_'), ('\u2028', 'L'), ('\u2029', 'P')]

def upper (cs : List Char) : List Char := cs.map Char.toUpper

def escape (c : Char) : List Char :=
  let n := c.toNat
  match escapeLetters.lookup c with
  | some l => ['\\', l]
  | none =>
    if n ≤ 0xff then '\\' :: 'x' :: upper (Text.Quoted.hex 2 n)
    else if n ≤ 0xffff then '\\' :: 'u' :: upper (Text.Quoted.hex 4 n)
    else '\\' :: 'U' :: upper (Text.Quoted.hex 8 n)

def isEscaped (unicode : Bool) (c : Char) : Bool :=
  let n := c.toNat
  c == '"' || c == '\\' || c == '\x85' || c == '\u2028' || c == '\u2029' || n == 0xfeff
    || !((0x20 ≤ n && n ≤ 0x7e) || (unicode && 0xa0 ≤ n && n ≤ 0xfffd))

/-- Ends a line within double quotes; a blank that the next line starts with is escaped. -/
def foldDouble (column : Nat) (ahead : Char) (p : Page) : Page :=
  let p := (p.put ['\\']).fold column
  if ahead == ' ' then p.put ['\\'] else p

/-- Writes characters in double quotes, `pending` ones before them; `i` counts the characters
passed and `size` all. A line is ended at a blank or after an escape. -/
def doubleChars (unicode : Bool) (column : Nat) (split : Bool) (size : Nat) :
    Nat → List Char → List Char → Page → Page
  | _, pending, [], p => p.put pending
  | i, pending, c :: rest, p =>
    let inner := split && 0 < i && i + 1 < size
    if isEscaped unicode c then
      let p := (p.put pending).put (escape c)
      let p := if inner && width < p.column then p.foldDouble column (rest.headD final) else p
      doubleChars unicode column split size (i + 1) [] rest p
    else if inner && (c == ' ' || pending.isEmpty) && width < p.column + pending.length then
      doubleChars unicode column split size (i + 1) [c] rest
        ((p.put pending).foldDouble column c)
    else doubleChars unicode column split size (i + 1) (pending ++ [c]) rest p

def double (unicode : Bool) (column : Nat) (split : Bool) (cs : List Char) (p : Page) : Page :=
  let p := p.mark "\"" true false false
  (doubleChars unicode column split cs.length 0 [] cs p).mark "\"" false false false

def literal (column : Nat) (ls : List (List Char)) (p : Page) : Page :=
  ls.foldl (fun p l => ((p.indent column).put l).newline '\n')
    ((p.mark "|" true false false).newline '\n')

end Page
end Provision.Yaml
