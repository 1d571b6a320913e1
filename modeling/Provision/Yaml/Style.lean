import Provision.Yaml.Cursor
import Provision.Yaml.Tag

namespace Provision.Yaml

def isLine (c : Char) : Bool := c == '\n' || c == '\x85' || c == '\u2028' || c == '\u2029'

/-- Whether a character can stand for itself in a text, given whether any beyond ASCII can. -/
def isPlainChar (unicode : Bool) (c : Char) : Bool :=
  let n := c.toNat
  c == '\n' || (0x20 ≤ n && n ≤ 0x7e)
    || (unicode && n != 0xfeff
      && (n == 0x85 || (0xa0 ≤ n && n ≤ 0xfffd) || (0x10000 ≤ n && n < 0x10ffff)))

structure Features where
  multiline : Bool
  plain : Bool
  single : Bool
  deriving Repr, DecidableEq

namespace Features

def badStart : List Char → Bool
  | [] => false
  | c :: rest =>
    let apart := isGap (rest.headD final)
    "#,[]\x7b\x7d&*!|>'\"%@`".toList.contains c || (apart && (c == '?' || c == ':' || c == '-'))
      || ['-', '-', '-'].isPrefixOf (c :: rest) || ['.', '.', '.'].isPrefixOf (c :: rest)

def badInside : Char → List Char → Bool
  | _, [] => false
  | before, c :: rest =>
    (c == ':' && isGap (rest.headD final)) || (c == '#' && isGap before) || badInside c rest

def adjacent (p : Char → Char → Bool) : List Char → Bool
  | a :: b :: rest => p a b || adjacent p (b :: rest)
  | _ => false

def ofText (unicode : Bool) (cs : List Char) : Features :=
  match cs with
  | [] => ⟨false, true, true⟩
  | c :: rest =>
    let edge := c :: [(c :: rest).getLastD c]
    let special := !cs.all (isPlainChar unicode)
    let spaceBreak := adjacent (fun a b => a == ' ' && isLine b) cs
    let breakSpace := adjacent (fun a b => isLine a && b == ' ') cs
    let lines := cs.any isLine
    { multiline := lines
      plain := !(edge.any (fun d => d == ' ' || isLine d) || breakSpace || spaceBreak || special
        || lines || badStart cs || badInside c rest)
      single := !(breakSpace || spaceBreak || special) }

end Features

inductive Style where
  | plain | single | double | literal
  deriving DecidableEq, Repr

/-- The style of a text; a key that is written on one line cannot break it. -/
def Style.ofText (unicode isKey : Bool) (s : String) : Style :=
  let f := Features.ofText unicode s.toList
  if Tag.ofPlain s = .text && f.plain && !(isKey && f.multiline) then .plain
  else if f.single && !(isKey && f.multiline) then .single
  else .double

end Provision.Yaml
