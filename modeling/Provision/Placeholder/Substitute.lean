import Provision.Environment
import Provision.Placeholder.Basic
import Provision.Placeholder.Coerce
import Provision.Value.Shown

namespace Provision

/-- The place of an entry below a path: `[k]` for an integer or truth value, `.k` for other keys,
and the key alone at the top. -/
def joinPath (path : String) (k : Value) : Except Failure String := do
  let s ← k.plain
  match k with
  | .int _ | .bool _ => return path ++ "[" ++ s ++ "]"
  | _ => return if path = "" then s else path ++ "." ++ s

def joinIndex (path : String) (i : Nat) : String := path ++ s!"[{i}]"

namespace Placeholder

/-- What a placeholder becomes; none if it requires a variable that is not set. -/
def value? (env : Environment) (p : Placeholder) : Option String :=
  match p.form with
  | .required => env.get? p.name
  | .fallback operand => some ((env.nonempty? p.name).getD operand)
  | .alternate operand => some (if (env.nonempty? p.name).isSome then operand else "")

/-- Puts the values in the place of the placeholders, up to the first that has none. -/
def fill (env : Environment) (path : String) : List Segment → Except Failure (List Char)
  | [] => .ok []
  | .char c :: rest => do return c :: (← fill env path rest)
  | .hole p :: rest =>
    match p.value? env with
    | some s => do return s.toList ++ (← fill env path rest)
    | none => .error (.unset p.name path)

def substitute (env : Environment) (path s : String) : Except Failure Value := do
  let parts := segments s
  let result := String.ofList (← fill env path parts)
  match parts with
  | [.hole _] => Coerce.coerce result
  | _ => return .text result

mutual
/-- Substitutes the placeholders in every text of a value, keys apart. The lists and mappings of
the result are fresh. -/
def replace (env : Environment) (path : String) : Value → Except Failure Value
  | .text s => substitute env path s
  | .list _ xs => do return .list none (← replaceItems env path 0 xs)
  | .map _ es => do return .map none (← replaceEntries env path es)
  | v => .ok v

def replaceItems (env : Environment) (path : String) : Nat → List Value →
    Except Failure (List Value)
  | _, [] => .ok []
  | i, x :: xs => do
    let y ← replace env (joinIndex path i) x
    return y :: (← replaceItems env path (i + 1) xs)

def replaceEntries (env : Environment) (path : String) : List (Value × Value) →
    Except Failure (List (Value × Value))
  | [] => .ok []
  | (k, v) :: es => do
    let w ← replace env (← joinPath path k) v
    return (k, w) :: (← replaceEntries env path es)
end

end Placeholder
end Provision
