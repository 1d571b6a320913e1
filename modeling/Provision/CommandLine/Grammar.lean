import Provision.Numeral
import Provision.Value.Basic

namespace Provision.CommandLine

inductive Arity where
  | none
  | one
  | some
  | any
  /-- One, and with it all that follow, switches as well. -/
  | rest
  deriving DecidableEq, Repr

inductive Kind where
  | text
  | integer
  | number
  | choice (names : List String)
  deriving Repr

def Kind.read? (s : String) : Kind → Option Value
  | text => .some (.text s)
  | integer =>
    match Numeral.integer? s.toList with
    | .ok n => .some (.int n)
    | .error _ => .none
  | number => (Numeral.real? s.toList).map .real
  | choice names => if names.contains s then .some (.text s) else .none

structure Switch where
  names : List String
  key : String
  arity : Arity := .one
  kind : Kind := .text
  required : Bool := false
  fallback : Value := .null
  deriving Repr

namespace Switch

def flag (names : List String) (key : String) : Switch :=
  { names, key, arity := .none, fallback := .bool false }

def help : Switch := flag ["-h", "--help"] "help"

def read? (w : Switch) (words : List String) : Option Value :=
  match w.arity, words with
  | .none, _ => some (.bool true)
  | .one, [s] => w.kind.read? s
  | _, ss => (ss.mapM fun s => w.kind.read? s).map .ofList

end Switch

structure Operand where
  key : String
  arity : Arity := .one
  deriving Repr

def Operand.read (o : Operand) (words : List String) : Value :=
  match o.arity with
  | .rest => .ofList (words.map .text)
  | arity =>
    match arity, words.erase "--" with
    | .one, [s] => .text s
    | _, ss => .ofList (ss.map .text)

structure Grammar where
  switches : List Switch := []
  operands : List Operand := []
  deriving Repr

namespace Grammar

def allSwitches (g : Grammar) : List Switch := Switch.help :: g.switches

def spellings (g : Grammar) : List (String × Switch) :=
  g.allSwitches.flatMap fun w => w.names.map fun name => (name, w)

def switch? (g : Grammar) (name : String) : Option Switch := g.spellings.lookup name

end Grammar

abbrev Args := List (String × Value)

namespace Args

def get (a : Args) (key : String) : Value := (a.lookup key).getD .null

def flag (a : Args) (key : String) : Bool := (get a key).truthy

def text (a : Args) (key : String) : String := ((get a key).text?).getD ""

def texts (a : Args) (key : String) : List String :=
  (((get a key).items?).getD []).filterMap Value.text?

end Args

/-- Why a command line gives no values: it does not follow the grammar, or it asks for help. -/
inductive Stop where
  | refused | help
  deriving DecidableEq, Repr

end Provision.CommandLine
