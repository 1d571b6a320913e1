import Provision.Environment
import Provision.Failure

namespace Provision

structure Path where
  /-- The slashes that an absolute path starts with: one, or exactly two. -/
  root : String := ""
  parts : List String := []
  deriving DecidableEq, Repr

namespace Path

def pieces (cs : List Char) : List String :=
  match cs with
  | [] => [""]
  | c :: rest =>
    if c = '/' then "" :: pieces rest
    else
      match pieces rest with
      | p :: ps => String.ofList (c :: p.toList) :: ps
      | [] => [c.toString]

def partsOf (s : String) : List String :=
  (pieces s.toList).filter fun p => p != "" && p != "."

def rootOf (s : String) : String :=
  match (s.toList.takeWhile (· = '/')).length with
  | 0 => ""
  | 2 => "//"
  | _ => "/"

def ofText (s : String) : Path := ⟨rootOf s, partsOf s⟩

def text (p : Path) : String :=
  if p.root = "" && p.parts.isEmpty then "." else p.root ++ "/".intercalate p.parts

/-- A path below a path; an absolute one stands for itself. -/
def append (p q : Path) : Path := if q.root = "" then { p with parts := p.parts ++ q.parts } else q

def step (here : List String) (part : String) : List String :=
  if part = ".." then here.dropLast else here ++ [part]

def name (p : Path) : String := p.parts.getLast?.getD ""

def parent (p : Path) : Path := { p with parts := p.parts.dropLast }

def withoutFinalSlashes (s : String) : String :=
  String.ofList (s.toList.reverse.dropWhile (· = '/')).reverse

def join (directory file : String) : String :=
  if file.startsWith "/" || directory = "" then file
  else if directory.endsWith "/" then directory ++ file
  else directory ++ "/" ++ file

/-- The home directory as a text; a path of no parts is the root. -/
def home (env : Environment) : String :=
  let s := withoutFinalSlashes (env.getD "HOME" "~")
  if s = "" then "/" else s

/-- Puts the home directory in the place of a first part `~`. The homes of other users are not
known. -/
def expandHome (env : Environment) (p : Path) : Except Failure Path :=
  match p.root, p.parts with
  | "", first :: rest =>
    if !first.startsWith "~" then .ok p
    else if first = "~" && !(home env).startsWith "~" then
      let h := ofText (home env)
      .ok { h with parts := h.parts ++ rest }
    else .error (.trouble .runtime "Could not determine home directory.")
  | _, _ => .ok p

end Path
end Provision
