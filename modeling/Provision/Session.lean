import Provision.Client.Service
import Provision.Files.Tree
import Provision.Log

namespace Provision

structure Session where
  env : Environment := []
  tree : Tree := {}
  log : Log := {}
  output : String := ""
  console : String := ""
  service : Service := {}
  stamp : String := ""
  deriving Repr

abbrev Action := ExceptT Failure (StateM Session)

namespace Action

def ofExcept (r : Except Failure α) : Action α := ExceptT.mk (pure r)

def print (s : String) : Action Unit := modify fun w => { w with output := w.output ++ s }

def printLine (s : String) : Action Unit := print (s ++ "\n")

def environment : Action Environment := return (← get).env

/-- Writes a record to the log. Without handlers, only the text of a warning or worse shows. -/
def record (source : String) (level : Int) (text : String) : Action Unit :=
  modify fun w =>
    if !w.log.keeps level then w
    else if w.log.handlers = 0 then
      if (Level.warning.number : Int) ≤ level then { w with console := w.console ++ text ++ "\n" }
      else w
    else
      let line := Log.line source level text
      let w := if w.log.console then { w with console := w.console ++ line } else w
      match w.log.file with
      | some place =>
        match w.tree.node? place with
        | some (.file c) => { w with tree := w.tree.put place (.file (c.append line)) }
        | _ => w
      | none => w

def debug (source text : String) : Action Unit := record source Level.debug.number text

def info (source text : String) : Action Unit := record source Level.info.number text

def warning (source text : String) : Action Unit := record source Level.warning.number text

def error (source text : String) : Action Unit := record source Level.error.number text

/-- Refuses a path that no file can have. -/
def checkPath (path : String) : Action Unit :=
  if path.toList.contains '\x00' then throw (.trouble .value "embedded null byte") else pure ()

def onTree (path : String) (f : Tree → Except FileFault Tree) : Action Unit := do
  checkPath path
  match f (← get).tree with
  | .ok t => modify fun w => { w with tree := t }
  | .error e => throw (.file e path)

def content (path : String) : Action Content := do
  checkPath path
  match (← get).tree.content? path with
  | .ok c => return c
  | .error e => throw (.file e path)

def readText (path : String) : Action String := do ofExcept (← content path).read

def writeText (path s : String) : Action Unit := onTree path (·.write path (.text s))

def appendText (path s : String) : Action Unit := onTree path (·.append path s)

def pathExists (path : String) : Action Bool := return (← get).tree.contains path

def ensureDirectory (p : Path) : Action Unit := do
  checkPath p.text
  let (t, failed) := (← get).tree.ensureDirectory p
  modify fun w => { w with tree := t }
  match failed with
  | none => pure ()
  | some (f, q) => throw (.file f q.text)

def copy (source target : String) : Action Unit := do
  let c ← content source
  onTree target fun t =>
    match t.write target c with
    | .error .isDirectory => .error (if t.contains target then .isDirectory else .absent)
    | r => r

def setUpLog (level : Value) (file : Value) : Action Unit := do
  let place ←
    if !file.truthy then pure none
    else
      match file with
      | .text path =>
        ensureDirectory (Path.ofText path).parent
        onTree path (·.append path "")
        match (← get).tree.locate path with
        | .ok place => pure (some place)
        | .error f => throw (.file f path)
      | v =>
        throw (.trouble .type
          ("expected str, bytes or os.PathLike object, not " ++ v.typeName))
  let wish ← ofExcept (Log.wish level)
  modify fun w => { w with log := { w.log with console := true, file := place } }
  match wish with
  | .level n => modify fun w => { w with log := { w.log with threshold := n } }
  | .notLevel true => throw (.trouble .value "Unknown level")
  | .notLevel false => throw (.trouble .type "Level not an integer or a valid string")

def onService (f : Service → α × Service) : Action α :=
  modifyGet fun w => let (a, s) := f w.service; (a, { w with service := s })

def attempt (t : Action α) : Action (Except Failure α) := fun w => let (r, w) := t w; (.ok r, w)

end Action
end Provision
