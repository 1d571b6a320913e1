import Provision.Placeholder.Substitute

namespace Provision

structure Reference where
  name : String
  /-- The operand of the first placeholder that has a fallback. -/
  fallback : Option String := none
  required : Bool := false
  /-- Whether some placeholder has an alternate text. -/
  conditional : Bool := false
  paths : List String := []
  deriving DecidableEq, Repr

/-- A placeholder and the place of the text it stands in. -/
structure Occurrence where
  placeholder : Placeholder
  path : String
  deriving DecidableEq, Repr

namespace Occurrence

mutual
/-- The placeholders of all texts of a value, keys apart, depth first. -/
def collect (path : String) : Value → Except Failure (List Occurrence)
  | .text s => .ok ((Placeholder.all s).map (⟨·, path⟩))
  | .list _ xs => collectItems path 0 xs
  | .map _ es => collectEntries path es
  | _ => .ok []

def collectItems (path : String) : Nat → List Value → Except Failure (List Occurrence)
  | _, [] => .ok []
  | i, x :: xs => do
    let here ← collect (joinIndex path i) x
    return here ++ (← collectItems path (i + 1) xs)

def collectEntries (path : String) : List (Value × Value) → Except Failure (List Occurrence)
  | [] => .ok []
  | (k, v) :: es => do
    let here ← collect (← joinPath path k) v
    return here ++ (← collectEntries path es)
end

end Occurrence

namespace Reference

def note (r : Reference) (o : Occurrence) : Reference :=
  let r := match o.placeholder.form with
    | .required => { r with required := true }
    | .fallback operand => { r with fallback := r.fallback <|> some operand }
    | .alternate _ => { r with conditional := true }
  if o.path ∈ r.paths then r else { r with paths := r.paths ++ [o.path] }

def insert : List Reference → Occurrence → List Reference
  | [], o => [note { name := o.placeholder.name } o]
  | r :: rs, o => if r.name = o.placeholder.name then note r o :: rs else r :: insert rs o

def find (v : Value) (path : String) : Except Failure (List Reference) := do
  return (← Occurrence.collect path v).foldl insert []

def unset (env : Environment) (rs : List Reference) : List String :=
  (rs.filter fun r => r.required && (env.get? r.name).isNone).map (·.name)

def missing (env : Environment) (v : Value) : Except Failure (List String) := do
  return unset env (← find v "")

end Reference
end Provision
