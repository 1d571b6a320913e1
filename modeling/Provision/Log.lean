import Provision.Value.Shown

namespace Provision

inductive Level where
  | debug | info | warning | error | critical
  deriving DecidableEq, Repr

namespace Level

def number : Level → Nat
  | debug => 10
  | info => 20
  | warning => 30
  | error => 40
  | critical => 50

def name : Level → String
  | debug => "DEBUG"
  | info => "INFO"
  | warning => "WARNING"
  | error => "ERROR"
  | critical => "CRITICAL"

def all : List Level := [debug, info, warning, error, critical]

end Level

def levelName (n : Int) : String :=
  match Level.all.find? fun l => (l.number : Int) = n with
  | some l => l.name
  | none => if n = 0 then "NOTSET" else s!"Level {n}"

structure Log where
  /-- Records below this level are dropped. -/
  threshold : Int := Level.warning.number
  console : Bool := false
  file : Option (List String) := none
  deriving Repr

namespace Log

inductive Wish where
  | level (n : Int)
  | notLevel (isText : Bool)
  deriving DecidableEq, Repr

def capital (c : Char) : Char :=
  if c = 'ı' then 'I' else if c = 'ſ' then 'S' else c.toUpper

def names : List (String × Wish) :=
  Level.all.map (fun l => (l.name, .level l.number))
    ++ [("WARN", .level 30), ("FATAL", .level 50), ("NOTSET", .level 0),
      ("BASIC_FORMAT", .notLevel true), ("_STYLES", .notLevel false)]

/-- The level that a value names, in letters of any case; other values name the level of plain
information. -/
def wish (v : Value) : Except Failure Wish := do
  let name := String.ofList ((← v.plain).toList.map capital)
  return (names.lookup name).getD (.level Level.info.number)

def handlers (l : Log) : Nat := (if l.console then 1 else 0) + (if l.file.isSome then 1 else 0)

def keeps (l : Log) (level : Int) : Bool := 0 < level && l.threshold ≤ level

def line (source : String) (level : Int) (text : String) : String :=
  source ++ " - " ++ levelName level ++ " - " ++ text ++ "\n"

end Log
end Provision
