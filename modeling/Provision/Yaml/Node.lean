import Provision.Yaml.Lexer
import Provision.Yaml.Tag

namespace Provision.Yaml

inductive Node where
  | scalar (id : Nat) (tag : Tag) (text : String)
  | sequence (id : Nat) (tag : Tag) (items : List Node)
  | mapping (id : Nat) (tag : Tag) (entries : List (Node × Node))
  deriving Repr, Inhabited

namespace Node

def tag : Node → Tag
  | scalar _ t _ | sequence _ t _ | mapping _ t _ => t

def id : Node → Nat
  | scalar n _ _ | sequence n _ _ | mapping n _ _ => n

structure Reading where
  tokens : List Token
  anchors : List (String × Option Node) := []
  handles : List (String × String) := []
  next : Nat := 0

abbrev Read := StateT Reading (Except Failure)

def ahead : Read (Option Token) := return (← get).tokens.head?

def drop : Read Unit := modify fun r => { r with tokens := r.tokens.tail }

def fresh : Read Nat := modifyGet fun r => (r.next, { r with next := r.next + 1 })

def expect (t : Token) : Read Unit := do
  if (← ahead) = some t then drop else throw .yaml

def commonHandles : List (String × String) := [("!", "!"), ("!!", Tag.common)]

structure Properties where
  anchor : Option String := none
  tag : Option String := none

def fullTag (handle : Option String) (suffix : String) : Read String := do
  match handle with
  | none => return suffix
  | some h =>
    match (← get).handles.lookup h with
    | some expansion => return expansion ++ suffix
    | none => throw .yaml

def properties : Nat → Properties → Read Properties
  | 0, p => return p
  | fuel + 1, p => do
    match ← ahead with
    | some (.anchor name) =>
      if p.anchor.isSome then return p
      drop
      properties fuel { p with anchor := name }
    | some (.tag handle suffix) =>
      if p.tag.isSome then return p
      drop
      properties fuel { p with tag := ← fullTag handle suffix }
    | _ => return p

def openAnchor (p : Properties) : Read Unit := do
  match p.anchor with
  | none => return
  | some name =>
    if ((← get).anchors.lookup name).isSome then throw .yaml
    modify fun r => { r with anchors := (name, none) :: r.anchors }

def closeAnchor (p : Properties) (n : Node) : Read Node := do
  match p.anchor with
  | none => return n
  | some name =>
    modify fun r =>
      { r with anchors := (name, some n) :: r.anchors.filter (·.1 ≠ name) }
    return n

def isOpenTag (t : Option String) : Bool := t.isNone || t = some "!"

def scalarTag (p : Properties) (text : String) (isPlain : Bool) : Tag :=
  if isOpenTag p.tag then
    if isPlain || p.tag.isSome then Tag.ofPlain text else .text
  else (p.tag.map Tag.ofName).getD .text

def collectionTag (p : Properties) (default : Tag) : Tag :=
  if isOpenTag p.tag then default else (p.tag.map Tag.ofName).getD default

def makeScalar (p : Properties) (text : String) (isPlain : Bool) : Read Node := do
  openAnchor p
  closeAnchor p (.scalar (← fresh) (scalarTag p text isPlain) text)

def empty : Read Node := makeScalar {} "" true

def isAhead (ts : List Token) : Read Bool := do
  match ← ahead with
  | some t => return ts.contains t
  | none => return false

mutual
/-- Reads a node. Blocks may start only where `block` holds, and a row of entries without a block
of its own only as the key or value of a block mapping. -/
def read : Nat → (block row : Bool) → Read Node
  | 0, _, _ => throw .yaml
  | fuel + 1, block, row => do
    match ← ahead with
    | some (.alias name) =>
      drop
      match (← get).anchors.lookup name with
      | some (some n) => return n
      | _ => throw .yaml
    | _ =>
      let p ← properties 2 {}
      let collect (default : Tag) (first : Bool)
          (make : Nat → Tag → Read Node) : Read Node := do
        if first then drop
        openAnchor p
        closeAnchor p (← make (← fresh) (collectionTag p default))
      let sequence (first : Bool) (items : Read (List Node)) : Read Node :=
        collect .sequence first fun id t => return .sequence id t (← items)
      let mapping (entries : Read (List (Node × Node))) : Read Node :=
        collect .mapping true fun id t => return .mapping id t (← entries)
      match ← ahead with
      | some .entry =>
        if row then sequence false (rowItems fuel)
        else if p.anchor.isSome || p.tag.isSome then makeScalar p "" true
        else throw .yaml
      | some (.scalar s isPlain) =>
        drop
        makeScalar p s isPlain
      | some .openSequence => sequence true (flowItems fuel true)
      | some .openMapping => mapping (flowEntries fuel true)
      | t =>
        if block && t = some .blockSequence then sequence true (blockItems fuel)
        else if block && t = some .blockMapping then mapping (blockEntries fuel)
        else if p.anchor.isSome || p.tag.isSome then makeScalar p "" true
        else throw .yaml

def readUnless : Nat → (block row : Bool) → List Token → Read Node
  | 0, _, _, _ => throw .yaml
  | fuel + 1, block, row, ts => do
    if (← isAhead ts) || (← ahead).isNone then empty else read fuel block row

def rowItems : Nat → Read (List Node)
  | 0 => throw .yaml
  | fuel + 1 => do
    if (← ahead) = some .entry then
      drop
      let n ← readUnless fuel true false [.entry, .key, .value, .blockEnd]
      return n :: (← rowItems fuel)
    else return []

def blockItems : Nat → Read (List Node)
  | 0 => throw .yaml
  | fuel + 1 => do
    if (← ahead) = some .entry then
      drop
      let n ← readUnless fuel true false [.entry, .blockEnd]
      return n :: (← blockItems fuel)
    else
      expect .blockEnd
      return []

def blockEntries : Nat → Read (List (Node × Node))
  | 0 => throw .yaml
  | fuel + 1 => do
    if (← ahead) = some .key then
      drop
      let k ← readUnless fuel true true [.key, .value, .blockEnd]
      let v ←
        if (← ahead) = some .value then
          drop
          readUnless fuel true true [.key, .value, .blockEnd]
        else empty
      return (k, v) :: (← blockEntries fuel)
    else
      expect .blockEnd
      return []

def flowItems : Nat → (first : Bool) → Read (List Node)
  | 0, _ => throw .yaml
  | fuel + 1, first => do
    if (← ahead) = some .closeSequence then
      drop
      return []
    if !first then expect .comma
    match ← ahead with
    | some .closeSequence =>
      drop
      return []
    | some .key =>
      drop
      let id ← fresh
      let k ← readUnless fuel false false [.value, .comma, .closeSequence]
      let v ←
        if (← ahead) = some .value then
          drop
          readUnless fuel false false [.comma, .closeSequence]
        else empty
      return .mapping id .mapping [(k, v)] :: (← flowItems fuel false)
    | _ =>
      let n ← read fuel false false
      return n :: (← flowItems fuel false)

def flowEntries : Nat → (first : Bool) → Read (List (Node × Node))
  | 0, _ => throw .yaml
  | fuel + 1, first => do
    if (← ahead) = some .closeMapping then
      drop
      return []
    if !first then expect .comma
    match ← ahead with
    | some .closeMapping =>
      drop
      return []
    | some .key =>
      drop
      let k ← readUnless fuel false false [.value, .comma, .closeMapping]
      let v ←
        if (← ahead) = some .value then
          drop
          readUnless fuel false false [.comma, .closeMapping]
        else empty
      return (k, v) :: (← flowEntries fuel false)
    | _ =>
      let k ← read fuel false false
      let v ← empty
      return (k, v) :: (← flowEntries fuel false)
end

def directives : Nat → Bool → Read Unit
  | 0, _ => throw .yaml
  | fuel + 1, versioned => do
    match ← ahead with
    | some (.version major _) =>
      if versioned || major ≠ 1 then throw .yaml
      drop
      directives fuel true
    | some (.handle name expansion) =>
      if ((← get).handles.lookup name).isSome then throw .yaml
      drop
      modify fun r => { r with handles := (name, expansion) :: r.handles }
      directives fuel versioned
    | some .otherDirective =>
      drop
      directives fuel versioned
    | _ => return

def isDirective : Token → Bool
  | .version .. | .handle .. | .otherDirective => true
  | _ => false

def document : Read (Option Node) := do
  let size := (← get).tokens.length
  match ← ahead with
  | none => return none
  | some t =>
    let opened := isDirective t || t = .documentStart
    if opened then
      directives (size + 1) false
      expect .documentStart
    modify fun r => { r with handles := r.handles ++ commonHandles }
    let bare ← isAhead [.documentStart, .documentEnd]
    let n ←
      match ← ahead with
      | none => empty
      | some t =>
        if opened && (bare || isDirective t) then empty else read (4 * size + 4) true false
    modify fun r => { r with tokens := r.tokens.dropWhile (· = .documentEnd) }
    if (← ahead).isSome then throw .yaml
    return some n

def ofText? (s : String) : Except Failure (Option Node) := do
  let tokens ← Token.ofText? s
  return (← document.run { tokens }).1

end Node
end Provision.Yaml
