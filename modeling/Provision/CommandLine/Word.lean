import Provision.CommandLine.Grammar

namespace Provision.CommandLine

structure Spelling where
  switch : Switch
  name : String
  equals : Bool := false
  /-- What is attached to the name. -/
  attached : Option (List Char) := none
  deriving Repr

inductive Word where
  | plain (s : String)
  | separator
  /-- A word that looks like a switch, and the switch if there is one. -/
  | switch (s : String) (spelling : Option Spelling)
  deriving Repr

namespace Word

def text : Word → String
  | plain s | switch s _ => s
  | separator => "--"

def isPlain : Word → Bool
  | plain _ => true
  | _ => false

def isSeparator : Word → Bool
  | separator => true
  | _ => false

def isSwitch : Word → Bool
  | switch .. => true
  | _ => false

end Word

def splitEquals (cs : List Char) : List Char × Option (List Char) :=
  match cs.dropWhile (· != '=') with
  | _ :: rest => (cs.takeWhile (· != '='), some rest)
  | [] => (cs, none)

namespace Grammar

/-- The switches that a word can be short for, one with two hyphens for a longer name, and one with
a single hyphen for its letter with something attached. -/
def candidates (g : Grammar) (s : String) : List Spelling :=
  let cs := s.toList
  if s.startsWith "--" then
    let (name, attached) := splitEquals cs
    g.spellings.filterMap fun (full, switch) =>
      if name.isPrefixOf full.toList then
        some { switch, name := full, equals := attached.isSome, attached }
      else none
  else
    g.spellings.filterMap fun (full, switch) =>
      if full.toList = cs.take 2 then some { switch, name := full, attached := some (cs.drop 2) }
      else if s.toList.isPrefixOf full.toList then some { switch, name := full }
      else none

/-- Whether a word is a negative number. A line feed may end it. -/
def isNegativeNumber : List Char → Bool
  | '-' :: cs =>
    let cs := if cs.getLast? = some '\n' then cs.dropLast else cs
    let isDigit (c : Char) : Bool := (Text.digit? c).isSome
    let whole := cs.takeWhile isDigit
    match cs.dropWhile isDigit with
    | [] => !whole.isEmpty
    | '.' :: rest => !rest.isEmpty && rest.all isDigit
    | _ => false
  | _ => false

def isNoSwitch (cs : List Char) : Bool := isNegativeNumber cs || cs.contains ' '

def spelled? (g : Grammar) (s : String) : Option Spelling :=
  match g.switch? s with
  | some switch => some { switch, name := s }
  | none =>
    let (name, attached) := splitEquals s.toList
    let name := String.ofList name
    if attached.isNone then none
    else (g.switch? name).map fun switch => { switch, name, equals := true, attached }

def word (g : Grammar) (s : String) : Except Stop Word :=
  if !s.startsWith "-" then .ok (.plain s)
  else
    match g.spelled? s with
    | some spelling => .ok (.switch s spelling)
    | none =>
      if s = "-" then .ok (.plain s)
      else
        match g.candidates s with
        | [spelling] => .ok (.switch s spelling)
        | [] => .ok (if isNoSwitch s.toList then .plain s else .switch s none)
        | _ => .error .refused

def words (g : Grammar) : List String → Except Stop (List Word)
  | [] => .ok []
  | s :: rest =>
    if s = "--" then .ok (.separator :: rest.map .plain)
    else do return (← g.word s) :: (← words g rest)

end Grammar
end Provision.CommandLine
