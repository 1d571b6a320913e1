import Provision.Text.Base64
import Provision.Value.Equality
import Provision.Yaml.Node

namespace Provision.Yaml

namespace Node

/-- A key that stands for the value of its mapping counts as a text. -/
def asKey : Node → Node
  | scalar n .value s => scalar n .text s
  | n => n

mutual
/-- The entries of a mapping after its merge keys are resolved: those merged in stand first. -/
def flatten : List (Node × Node) → Except Failure (List (Node × Node))
  | es => do
    let merged ← mergedEntries es
    return merged ++ (es.filter fun e => e.1.tag ≠ .merge).map fun e => (asKey e.1, e.2)

def mergedEntries : List (Node × Node) → Except Failure (List (Node × Node))
  | [] => .ok []
  | (k, v) :: es => do
    let first ← if k.tag = .merge then mergedFrom v else pure []
    return first ++ (← mergedEntries es)

/-- What a merge key brings in: the entries of a mapping, or of a list of mappings, of which the
first counts most. -/
def mergedFrom : Node → Except Failure (List (Node × Node))
  | mapping _ _ es => do
    let merged ← mergedEntries es
    return merged ++ (es.filter fun e => e.1.tag ≠ .merge).map fun e => (asKey e.1, e.2)
  | sequence _ _ ns => mergedFromAll ns
  | scalar .. => .error .yaml

def mergedFromAll : List Node → Except Failure (List (Node × Node))
  | [] => .ok []
  | n :: ns => do
    let first ← match n with
      | mapping _ _ es => do
        let merged ← mergedEntries es
        pure (merged ++ (es.filter fun e => e.1.tag ≠ .merge).map fun e => (asKey e.1, e.2))
      | _ => .error .yaml
    return (← mergedFromAll ns) ++ first
end

def text? : Nat → Node → Option String
  | 0, _ => none
  | _, scalar _ _ s => some s
  | _, sequence .. => none
  | fuel + 1, mapping _ _ es =>
    match es.find? fun e => e.1.tag = .value with
    | some (_, n) => text? fuel n
    | none => none

end Node

def boolOf? (s : String) : Except Failure Value :=
  let s := String.ofList (s.toList.map Char.toLower)
  if ["yes", "true", "on"].contains s then .ok (.bool true)
  else if ["no", "false", "off"].contains s then .ok (.bool false)
  else .error (.trouble .key s)

def unsigned (s : String) : Bool × List Char :=
  Numeral.sign (s.toList.filter (· ≠ '_'))

/-- The number whose digits to base 60 are given, the most significant first. -/
def sixtieths (ds : List Int) : Int := ds.foldl (fun n d => n * 60 + d) 0

def liftNumeral (cs : List Char) (r : Except Numeral.Fault Int) : Except Failure Int :=
  match r with
  | .ok n => .ok n
  | .error f => .error (.ofNumeral (String.ofList cs) f)

def decimal? (cs : List Char) : Except Failure Int := liftNumeral cs (Numeral.integer? cs)

def intOf? (s : String) : Except Failure Value := do
  let (negative, cs) := unsigned s
  if (s.toList.filter (· ≠ '_')).isEmpty then throw (.trouble .index "string index out of range")
  let n ←
    match cs with
    | ['0'] => pure 0
    | '0' :: 'b' :: ds => liftNumeral cs (Numeral.radix? 2 'b' ds)
    | '0' :: 'x' :: ds => liftNumeral cs (Numeral.radix? 16 'x' ds)
    | '0' :: _ => liftNumeral cs (Numeral.radix? 8 'o' cs)
    | [] => throw (.trouble .index "string index out of range")
    | _ =>
      if cs.contains ':' then
        pure (sixtieths (← (Tag.splitAt ':' cs).mapM decimal?))
      else decimal? cs
  return .int (if negative then -n else n)

def realOf? (cs : List Char) : Except Failure Binary64 :=
  match Numeral.real? cs with
  | some x => .ok x
  | none =>
    .error (.trouble .value
      ("could not convert string to float: " ++ Value.showText (String.ofList cs)))

def sixtiethsReal (parts : List Binary64) : Binary64 :=
  (parts.reverse.foldl (fun (sum, base) x => (sum.add (x.mul (.ofInt base)), base * 60))
    (Binary64.zero, (1 : Int))).1

def floatOf? (s : String) : Except Failure Value := do
  let (negative, cs) := unsigned (String.ofList (s.toList.map Char.toLower))
  if (s.toList.filter (· ≠ '_')).isEmpty then throw (.trouble .index "string index out of range")
  let name := String.ofList cs
  let x ←
    if name = ".inf" then pure (.infinite false)
    else if name = ".nan" then pure .nan
    else if cs.contains ':' then
      pure (sixtiethsReal (← (Tag.splitAt ':' cs).mapM realOf?))
    else realOf? cs
  return .real (if negative then x.neg else x)

def liftCalendar (r : Except CalendarFault α) : Except Failure α :=
  match r with
  | .ok x => .ok x
  | .error f => .error (.ofCalendar f)

def microseconds (ds : List Char) : Nat :=
  let ds := ds.take 6
  Numeral.ofDigits 10 (ds.filterMap Text.digit?) * tenPow (6 - ds.length)

def timestampOf? (id : Nat) (s : String) : Except Failure Value :=
  match Tag.stamp? (Tag.body s.toList) with
  | none => .error (.trouble .attribute "no timestamp")
  | some p => do
    let d ← liftCalendar (Date.make p.year p.month p.day)
    match p.time with
    | none => return .date (some id) d
    | some (h, m, s) =>
      let t ← liftCalendar (Moment.make d h m s (microseconds p.fraction) p.offset)
      return .moment (some id) t

def binaryOf? (s : String) : Except Failure Value :=
  if s.toList.all (·.toNat < 128) then
    match Text.Base64.decode? s.toList with
    | some bs => .ok (.bytes bs)
    | none => .error .yaml
  else .error .yaml

def scalarOf? (id : Nat) (tag : Tag) (s : String) : Except Failure Value :=
  match tag with
  | .null => .ok .null
  | .bool => boolOf? s
  | .int => intOf? s
  | .real => floatOf? s
  | .text => .ok (.text s)
  | .binary => binaryOf? s
  | .timestamp => timestampOf? id s
  | _ => .error .yaml

namespace Node

mutual
def value? : Nat → Node → Except Failure Value
  | 0, _ => .error .yaml
  | fuel + 1, n =>
    match n.tag, n with
    | .sequence, sequence id _ ns => do return .list (some id) (← items? fuel ns)
    | .mapping, mapping id _ es => do
      return .map (some id) (← entries? fuel [] (← flatten es))
    | .set, mapping id _ es => do
      return .set (some id) ((← entries? fuel [] (← flatten es)).map (·.1))
    | .orderedMapping, sequence id _ ns | .pairs, sequence id _ ns => do
      return .list (some id) (← pairs? fuel ns)
    | t, n =>
      match text? (fuel + 1) n with
      | some s => scalarOf? n.id t s
      | none => .error .yaml

def items? : Nat → List Node → Except Failure (List Value)
  | 0, _ => .error .yaml
  | _, [] => .ok []
  | fuel + 1, n :: ns => do
    let v ← value? fuel n
    return v :: (← items? fuel ns)

def entries? : Nat → Entries → List (Node × Node) → Except Failure Entries
  | 0, _, _ => .error .yaml
  | _, es, [] => .ok es
  | fuel + 1, es, (k, v) :: rest => do
    let key ← value? fuel k
    if !key.hashable then throw .yaml
    let w ← value? fuel v
    entries? fuel (Entries.put es key w) rest

def pairs? : Nat → List Node → Except Failure (List Value)
  | 0, _ => .error .yaml
  | _, [] => .ok []
  | fuel + 1, n :: ns =>
    match n with
    | mapping _ _ [(k, v)] => do
      let key ← value? fuel k
      let w ← value? fuel v
      return .tuple [key, w] :: (← pairs? fuel ns)
    | _ => .error .yaml
end

mutual
/-- The number of nodes, those of aliases counted each time. -/
def size : Node → Nat
  | scalar .. => 1
  | sequence _ _ ns => sizes ns + 1
  | mapping _ _ es => entrySizes es + 1

def sizes : List Node → Nat
  | [] => 0
  | n :: ns => n.size + sizes ns

def entrySizes : List (Node × Node) → Nat
  | [] => 0
  | (k, v) :: es => k.size + v.size + entrySizes es
end

end Node

mutual
def anchors : Value → List Nat
  | .date a _ | .moment a _ => a.toList
  | .list a xs | .set a xs => a.toList ++ anchorsIn xs
  | .tuple xs => anchorsIn xs
  | .map a es => a.toList ++ anchorsOf es
  | _ => []

def anchorsIn : List Value → List Nat
  | [] => []
  | x :: xs => anchors x ++ anchorsIn xs

def anchorsOf : List (Value × Value) → List Nat
  | [] => []
  | (k, v) :: es => anchors k ++ anchors v ++ anchorsOf es
end

mutual
def reanchor (f : Nat → Option Nat) : Value → Value
  | .date a d => .date (a.bind f) d
  | .moment a m => .moment (a.bind f) m
  | .list a xs => .list (a.bind f) (reanchorIn f xs)
  | .set a xs => .set (a.bind f) (reanchorIn f xs)
  | .tuple xs => .tuple (reanchorIn f xs)
  | .map a es => .map (a.bind f) (reanchorOf f es)
  | v => v

def reanchorIn (f : Nat → Option Nat) : List Value → List Value
  | [] => []
  | x :: xs => reanchor f x :: reanchorIn f xs

def reanchorOf (f : Nat → Option Nat) : List (Value × Value) → List (Value × Value)
  | [] => []
  | (k, v) :: es => (reanchor f k, reanchor f v) :: reanchorOf f es
end

def counts (n : Nat) (ids : List Nat) : Array Nat :=
  ids.foldl (fun c i => c.modify i (· + 1)) (Array.replicate n 0)

/-- Keeps the anchors that occur more than once, numbered from `base` on. -/
def keepShared (base : Nat) (v : Value) : Value :=
  let ids := anchors v
  let c := counts (ids.foldl max 0 + 1) ids
  reanchor (fun i => if 1 < c.getD i 0 then some (base + i) else none) v

/-- Reads a YAML text that holds one document; the anchors of its value are numbered from `base`
on. -/
def read (base : Nat) (s : String) : Except Failure Value := do
  match ← Node.ofText? s with
  | none => return .null
  | some n => return keepShared base (← n.value? (8 * n.size + 8))

end Provision.Yaml
