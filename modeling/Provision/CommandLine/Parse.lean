import Provision.CommandLine.Word

namespace Provision.CommandLine

def Arity.ofSwitch (words : List Word) : Arity → Option Nat
  | none => .some 0
  | one => if (words.headD .separator).isPlain then .some 1 else .none
  | some =>
    let n := (words.takeWhile Word.isPlain).length
    if n = 0 then .none else .some n
  | any | rest => .some (words.takeWhile Word.isPlain).length

def Arity.ofOperand (words : List Word) (a : Arity) : Option Nat :=
  let lead := (words.takeWhile Word.isSeparator).length
  match a, words.drop lead with
  | none, _ => .some lead
  | any, _ => .some (words.takeWhile (!·.isSwitch)).length
  | one, .plain _ :: after => .some (lead + 1 + (after.takeWhile Word.isSeparator).length)
  | some, .plain _ :: after => .some (lead + 1 + (after.takeWhile (!·.isSwitch)).length)
  | rest, .plain _ :: after => .some (lead + 1 + after.length)
  | _, _ => .none

structure Reading where
  args : Args := []
  operands : List Operand
  extras : List String := []

namespace Reading

def takeOperands (args : Args) : List Operand → List Word → Args × List Operand × List Word
  | [], words => (args, [], words)
  | o :: os, words =>
    match o.arity.ofOperand words with
    | none => (args, o :: os, words)
    | some n =>
      takeOperands ((o.key, o.read ((words.take n).map Word.text)) :: args) os (words.drop n)

def give (r : Reading) (w : Switch) (words : List String) : Except Stop Reading :=
  if w.key = Switch.help.key then .error .help
  else
    match w.read? words with
    | some v => .ok { r with args := (w.key, v) :: r.args }
    | none => .error .refused

end Reading

/-- Switches and the words that each of them takes, in the order in which they are given. -/
abbrev Grants := List (Switch × List String)

namespace Grammar

/-- The switches that one word spells: a letter that takes no words may have further letters
attached. Answers with words for which there is no use, and with the words that are left; `fuel`
bounds the number of letters. -/
def grants (g : Grammar) (words : List Word) :
    Nat → Spelling → Except Stop (Grants × List String × List Word)
  | 0, _ => .error .refused
  | fuel + 1, p =>
    match p.attached with
    | none =>
      match p.switch.arity.ofSwitch words with
      | some n => .ok ([(p.switch, (words.take n).map Word.text)], [], words.drop n)
      | none => .error .refused
    | some cs =>
      if p.switch.arity != .none then .ok ([(p.switch, [String.ofList cs])], [], words)
      else
        match cs with
        | [] => .error .refused
        | c :: rest =>
          if p.name.startsWith "--" || p.equals || c = '-' then .error .refused
          else
            let name := String.ofList ['-', c]
            match g.switch? name with
            | none => .ok ([(p.switch, [])], [String.ofList ('-' :: cs)], words)
            | some switch => do
              let next : Spelling :=
                match rest with
                | [] => { switch, name }
                | '=' :: value => { switch, name, equals := true, attached := some value }
                | _ => { switch, name, attached := some rest }
              let (more, extras, left) ← g.grants words fuel next
              return ((p.switch, []) :: more, extras, left)

def readWords (g : Grammar) : Nat → Reading → List Word → Except Stop Reading
  | 0, r, _ => .ok r
  | fuel + 1, r, words =>
    match words with
    | .switch s none :: rest => readWords g fuel { r with extras := r.extras ++ [s] } rest
    | .switch s (some p) :: rest => do
      let (granted, extras, left) ← g.grants rest (s.length + 1) p
      let r ← granted.foldlM (fun r e => r.give e.1 e.2) { r with extras := r.extras ++ extras }
      readWords g fuel r left
    | words =>
      let (args, operands, left) := Reading.takeOperands r.args r.operands words
      let taken := left.length < words.length
      let unused := if taken then [] else left.takeWhile (!·.isSwitch)
      let r := { r with args, operands, extras := r.extras ++ unused.map Word.text }
      if left.any Word.isSwitch then readWords g fuel r (left.drop unused.length)
      else .ok { r with extras := r.extras ++ (left.drop unused.length).map Word.text }

def isComplete (g : Grammar) (r : Reading) : Bool :=
  g.switches.all fun w => !w.required || (r.args.lookup w.key).isSome

def fallbacks (g : Grammar) : Args := g.switches.map fun w => (w.key, w.fallback)

def read (g : Grammar) (args : List String) : Except Stop (Args × List String) := do
  let words ← g.words args
  let r ← g.readWords (words.length + 1) { operands := g.operands } words
  if g.isComplete r && r.operands.all (·.arity = .rest) then
    return (r.args ++ g.fallbacks, r.extras)
  else throw .refused

end Grammar

structure Commands where
  name : String
  grammar : Grammar
  commands : List (String × Grammar) := []
  deriving Repr

namespace Commands

def operand : Operand := ⟨"command", .rest⟩

def finish (args : Args) (extras : List String) : Except Stop Args :=
  if extras.isEmpty then .ok args else .error .refused

def read (c : Commands) (args : List String) : Except Stop Args := do
  let grammar := if c.commands.isEmpty then c.grammar
    else { c.grammar with operands := [operand] }
  let (top, extras) ← grammar.read args
  match Args.texts top operand.key with
  | [] => finish top extras
  | name :: rest =>
    match c.commands.lookup name with
    | none => throw .refused
    | some g =>
      let (own, more) ← g.read rest
      finish ((operand.key, .text name) :: own ++ top) (extras ++ more)

def switchHelp (w : Switch) : String :=
  "  " ++ ", ".intercalate w.names
    ++ (if w.arity = .none then "" else " " ++ String.ofList (w.key.toList.map Char.toUpper))

def help (c : Commands) : String :=
  let switches := c.grammar.allSwitches.map switchHelp
  let commands := c.commands.map fun e => "  " ++ " ".intercalate (e.1 :: e.2.operands.map (·.key))
  "\n".intercalate
    (["usage: " ++ c.name ++ " [SWITCH]..." ++ (if commands.isEmpty then "" else " [COMMAND]"), "",
      "switches:"] ++ switches ++ (if commands.isEmpty then [] else ["", "commands:"] ++ commands))
    ++ "\n"

end Commands
end Provision.CommandLine
