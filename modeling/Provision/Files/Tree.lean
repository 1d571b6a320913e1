import Provision.Files.Path
import Provision.Text.Newline
import Provision.Text.Utf8

namespace Provision

inductive Content where
  | text (s : String)
  | raw (bytes : List UInt8)
  deriving DecidableEq, Repr

namespace Content

def ofBytes (bytes : List UInt8) : Content :=
  match Text.Utf8.decode? bytes with
  | some cs => .text (String.ofList cs)
  | none => .raw bytes

def bytes : Content → List UInt8
  | text s => Text.Utf8.encode s
  | raw bs => bs

def append (c : Content) (s : String) : Content :=
  match c with
  | text t => .text (t ++ s)
  | raw bs => .raw (bs ++ Text.Utf8.encode s)

/-- The text of a file, with line feeds at the ends of its lines. -/
def read : Content → Except Failure String
  | text s => .ok (String.ofList (Text.unifyLines s.toList))
  | raw bs =>
    match Text.Utf8.decode bs with
    | .ok cs => .ok (String.ofList (Text.unifyLines cs))
    | .error f => .error (.encoding f.message)

end Content

inductive Node where
  | directory
  | file (content : Content)
  deriving DecidableEq, Repr

/-- A directory tree. The root and the directories from it down to the working one are always there,
whether they are listed or not. -/
structure Tree where
  nodes : List (List String × Node) := []
  /-- Where relative paths start. -/
  cwd : List String := []
  deriving Repr

namespace Tree

def node? (t : Tree) (place : List String) : Option Node :=
  if place.isPrefixOf t.cwd then some .directory else t.nodes.lookup place

def put (t : Tree) (place : List String) (n : Node) : Tree :=
  { t with nodes :=
      if (t.nodes.lookup place).isSome then
        t.nodes.map fun e => if e.1 = place then (e.1, n) else e
      else t.nodes ++ [(place, n)] }

def start (t : Tree) (path : String) : List String := if Path.rootOf path = "" then t.cwd else []

def place? (t : Tree) (path : String) : Option (List String) :=
  if path = "" then none else some ((Path.partsOf path).foldl Path.step (t.start path))

def above (place : List String) : List (List String) :=
  (List.range (place.length - 1)).map fun i => place.take (i + 1)

def plant (t : Tree) (path : String) (n : Node) : Tree :=
  match t.place? path with
  | none => t
  | some place =>
    let t := (above place).foldl (fun t p => if (t.node? p).isSome then t else t.put p .directory) t
    t.put place n

def ofList (es : List (String × Node)) (cwd : List String := []) : Tree :=
  es.foldl (fun t e => t.plant e.1 e.2) { cwd }

/-- Follows the parts of a path from a directory on; the last part need not be there. -/
def follow (t : Tree) (here : List String) : List String → Except FileFault (List String)
  | [] => .ok here
  | part :: rest =>
    match t.node? here with
    | none => .error .absent
    | some (.file _) => .error .notDirectory
    | some .directory => follow t (Path.step here part) rest

def namesDirectory (path : String) : Bool :=
  match (Path.pieces path.toList).getLast? with
  | some p => p = "" || p = "." || p = ".."
  | none => false

/-- The place that a path leads to. -/
def locate (t : Tree) (path : String) : Except FileFault (List String) :=
  if path = "" then .error .absent
  else
    match t.follow (t.start path) (Path.partsOf path) with
    | .error f => .error f
    | .ok place =>
      match t.node? place with
      | some (.file _) => if namesDirectory path then .error .notDirectory else .ok place
      | _ => .ok place

def find? (t : Tree) (path : String) : Option Node :=
  match t.locate path with
  | .ok place => t.node? place
  | .error _ => none

def contains (t : Tree) (path : String) : Bool := (t.find? path).isSome

def isDirectory (t : Tree) (path : String) : Bool := t.find? path = some .directory

def content? (t : Tree) (path : String) : Except FileFault Content :=
  match t.locate path with
  | .error f => .error f
  | .ok place =>
    match t.node? place with
    | some (.file c) => .ok c
    | some .directory => .error .isDirectory
    | none => .error .absent

/-- The place of a file to be written, and what it holds if it is there. -/
def target (t : Tree) (path : String) : Except FileFault (List String × Option Content) :=
  match t.locate path with
  | .error f => .error f
  | .ok place =>
    match t.node? place with
    | some (.file c) => .ok (place, some c)
    | some .directory => .error .isDirectory
    | none =>
      if t.node? place.dropLast != some .directory then .error .absent
      else if namesDirectory path then .error .isDirectory
      else .ok (place, none)

def write (t : Tree) (path : String) (c : Content) : Except FileFault Tree := do
  let (place, _) ← t.target path
  return t.put place (.file c)

def append (t : Tree) (path s : String) : Except FileFault Tree := do
  let (place, old) ← t.target path
  return t.put place (.file ((old.getD (.text "")).append s))

def makeDirectory (t : Tree) (path : String) : Except FileFault Tree :=
  match t.locate path with
  | .error f => .error f
  | .ok place =>
    if (t.node? place).isSome then .error .present
    else if t.node? place.dropLast != some .directory then .error .absent
    else .ok (t.put place .directory)

/-- Makes a directory and those above it that are not there; one that is there will do. The
directories made stay even if a later one cannot be made. -/
def makeDirectories : Nat → Bool → Path → Tree → Tree × Option (FileFault × Path)
  | 0, _, p, t => (t, some (.absent, p))
  | fuel + 1, withParents, p, t =>
    match t.makeDirectory p.text with
    | .ok t => (t, none)
    | .error .absent =>
      if !withParents || p.parts.isEmpty then (t, some (.absent, p))
      else
        match makeDirectories fuel true p.parent t with
        | (t, none) => makeDirectories fuel false p t
        | failed => failed
    | .error f => (t, if t.isDirectory p.text then none else some (f, p))

def ensureDirectory (p : Path) (t : Tree) : Tree × Option (FileFault × Path) :=
  makeDirectories (2 * p.parts.length + 2) true p t

def entries (t : Tree) : List (List String × Node) :=
  (above t.cwd ++ [t.cwd]).map (·, .directory) ++ t.nodes.filter fun e => !e.1.isPrefixOf t.cwd

def children (t : Tree) (place : List String) : List (String × Node) :=
  t.entries.filterMap fun e =>
    if e.1.dropLast = place && !e.1.isEmpty then some (e.1.getLastD "", e.2) else none

end Tree
end Provision
