import Provision.Text.Base64
import Provision.Value.Order
import Provision.Value.Shown
import Provision.Yaml.Document
import Provision.Yaml.Page

namespace Provision.Yaml

structure Layout where
  unicode : Bool := true
  sorted : Bool := false
  tupleTag : String := ""

def realNotation : Decimal.Notation :=
  { nan := ".nan", infinity := ".inf", pointBeforeExponent := true }

def scalar : Value → Tag × String
  | .null => (.null, "null")
  | .bool b => (.bool, if b then "true" else "false")
  | .int n => (.int, toString n)
  | .real x => (.real, Decimal.render realNotation x)
  | .bytes bs => (.binary, Text.Base64.encode bs)
  | .date _ d => (.timestamp, d.iso)
  | .moment _ m => (.timestamp, m.iso " ")
  | .text s => (.text, s)
  | _ => (.text, "")

def anchorOf? : Value → Option Nat
  | .date a _ | .moment a _ | .list a _ | .set a _ | .map a _ => a
  | _ => none

/-- The anchors met so far, and the names of those met twice. -/
structure Naming where
  met : List Nat := []
  names : List (Nat × String) := []

namespace Naming

def name (n : Nat) : String := "id" ++ Calendar.padded 3 n

def meet (a : Nat) (m : Naming) : Bool × Naming :=
  if m.met.contains a then
    (true, if (m.names.lookup a).isSome then m
      else { m with names := m.names ++ [(a, name (m.names.length + 1))] })
  else (false, { m with met := a :: m.met })

def meet? (a : Option Nat) (m : Naming) : Bool × Naming :=
  match a with
  | some a => meet a m
  | none => (false, m)

mutual
def walk : Value → Naming → Naming
  | .date a _, m | .moment a _, m => (meet? a m).2
  | .list a xs, m | .set a xs, m =>
    match meet? a m with
    | (true, m) => m
    | (false, m) => walkAll xs m
  | .tuple xs, m => walkAll xs m
  | .map a es, m =>
    match meet? a m with
    | (true, m) => m
    | (false, m) => walkEntries es m
  | _, m => m

def walkAll : List Value → Naming → Naming
  | [], m => m
  | x :: xs, m => walkAll xs (walk x m)

def walkEntries : List (Value × Value) → Naming → Naming
  | [], m => m
  | (k, v) :: es, m => walkEntries es (walk v (walk k m))
end

end Naming

/-- A key that is shorter than this, its tag and anchor counted, can stand on one line. -/
def keyLimit : Nat := 128

inductive Place where
  | root | item | key | value
  deriving DecidableEq, Repr

def named (names : List (Nat × String)) (v : Value) : Option String :=
  (anchorOf? v).bind fun a => names.lookup a

def isSimpleKey (names : List (Nat × String)) (seen : List Nat) (v : Value) : Bool :=
  let anchor := (named names v).getD ""
  let again := (named names v).isSome && (anchorOf? v).any seen.contains
  match v with
  | .list _ xs | .tuple xs => again || xs.isEmpty
  | .set _ xs => again || xs.isEmpty
  | .map _ es => again || es.isEmpty
  | v =>
    let (tag, s) := scalar v
    again || (anchor.length + tag.short.length + s.length < keyLimit && s != ""
      && !s.toList.any isLine)

def writeScalar (layout : Layout) (column : Nat) (place : Place) (v : Value) (p : Page) : Page :=
  let (tag, s) := scalar v
  let split := place != .key
  match v with
  | .text s =>
    match Style.ofText layout.unicode (place = .key) s with
    | .plain => p.plain column split s.toList
    | .single => p.single column split s.toList
    | _ => p.double layout.unicode column split s.toList
  | .bytes _ =>
    let p := p.mark tag.short true false false
    if s = "" || place = .key then p.double layout.unicode column split s.toList
    else p.literal column ((Tag.splitAt '\n' s.toList).dropLast)
  | _ => p.plain column split s.toList

def deeper (column : Option Nat) : Nat :=
  match column with
  | some n => n + 2
  | none => 0

mutual
/-- Writes a value within a block at a column, or as the whole page. -/
def writeValue (layout : Layout) (names : List (Nat × String)) (column : Option Nat) (place : Place)
    (v : Value) (p : Page) : Page :=
  let again := (anchorOf? v).any p.seen.contains
  match named names v, again with
  | some name, true => p.mark ("*" ++ name) true false false
  | some name, false =>
    writeContent layout names column place v
      { p.mark ("&" ++ name) true false false with seen := (anchorOf? v).toList ++ p.seen }
  | none, _ => writeContent layout names column place v p
termination_by (sizeOf v, 3)

def writeContent (layout : Layout) (names : List (Nat × String)) (column : Option Nat) (place : Place)
    (v : Value) (p : Page) : Page :=
  let p := match v with
    | .tuple _ => if layout.tupleTag = "" then p else p.mark layout.tupleTag true false false
    | _ => p
  match v with
  | .list _ [] | .tuple [] => (p.mark "[" true true false).mark "]" false false false
  | .map _ [] => (p.mark "\x7b" true true false).mark "\x7d" false false false
  | .set _ [] =>
    ((p.mark Tag.set.short true false false).mark "\x7b" true true false).mark "\x7d" false false
      false
  | .list _ xs | .tuple xs =>
    let inner := if (place = .key || place = .value) && !p.lead then column.getD 0
      else deeper column
    writeItems layout names inner xs p
  | .set _ xs => writeMembers layout names (deeper column) xs (p.mark Tag.set.short true false false)
  | .map _ es => writeEntries layout names (deeper column) es p
  | v => writeScalar layout (column.getD 0 + 2) place v p
termination_by (sizeOf v, 2)

def writeItems (layout : Layout) (names : List (Nat × String)) (column : Nat) (xs : List Value)
    (p : Page) : Page :=
  match xs with
  | [] => p
  | x :: xs =>
    writeItems layout names column xs (writeValue layout names column .item x ((p.indent column).mark "-" true false true))
termination_by (sizeOf xs, 1)

def writeKey (layout : Layout) (names : List (Nat × String)) (column : Nat) (k : Value)
    (p : Page) : Page :=
  let p := p.indent column
  if isSimpleKey names p.seen k then
    (writeValue layout names column .key k p).mark ":" false false false
  else
    ((writeValue layout names column .value k (p.mark "?" true false true)).indent column).mark ":" true false
      true
termination_by (sizeOf k, 4)

def writeMembers (layout : Layout) (names : List (Nat × String)) (column : Nat) (xs : List Value)
    (p : Page) : Page :=
  match xs with
  | [] => p
  | x :: xs =>
    writeMembers layout names column xs (writeScalar layout (column + 2) .value .null (writeKey layout names column x p))
termination_by (sizeOf xs, 1)

def writeEntries (layout : Layout) (names : List (Nat × String)) (column : Nat)
    (es : List (Value × Value)) (p : Page) : Page :=
  match es with
  | [] => p
  | (k, v) :: es => writeEntries layout names column es (writeValue layout names column .value v (writeKey layout names column k p))
termination_by (sizeOf es, 1)
end

mutual
def sortAll : Value → Value
  | .list a xs => .list a (sortItems xs)
  | .tuple xs => .tuple (sortItems xs)
  | .set a xs => .set a ((Value.sortEntries (xs.map fun x => (x, .null))).map (·.1))
  | .map a es => .map a (Value.sortEntries (sortValues es))
  | v => v

def sortItems : List Value → List Value
  | [] => []
  | x :: xs => sortAll x :: sortItems xs

def sortValues : List (Value × Value) → List (Value × Value)
  | [] => []
  | (k, v) :: es => (k, sortAll v) :: sortValues es
end

def page (layout : Layout) (v : Value) : String :=
  let v := if layout.sorted then sortAll v else v
  let names := (Naming.walk v {}).names
  ((writeValue layout names none .root v {}).indent 0).text

/-- The YAML text of a value. All of it is made before any is written. -/
def write (layout : Layout) (v : Value) : Except Failure String := v.shown (page layout v)

end Provision.Yaml
