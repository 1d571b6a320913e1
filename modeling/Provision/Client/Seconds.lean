import Provision.Value.Equality

namespace Provision

inductive Seconds where
  | whole (n : Int)
  | real (x : Binary64)
  deriving Repr

namespace Seconds

def toReal : Seconds → Binary64
  | whole n => .ofInt n
  | real x => x

def add : Seconds → Seconds → Seconds
  | whole m, whole n => whole (m + n)
  | a, b => real (a.toReal.add b.toReal)

def sub : Seconds → Seconds → Seconds
  | whole m, whole n => whole (m - n)
  | a, b => real (a.toReal.sub b.toReal)

def below : Seconds → Seconds → Bool
  | whole m, whole n => m < n
  | whole m, real x => x.gtInt m
  | real x, whole n => x.ltInt n
  | real x, real y => x.lt y

instance : Add Seconds := ⟨add⟩
instance : Sub Seconds := ⟨sub⟩
instance : LT Seconds := ⟨fun a b => a.below b = true⟩
instance (a b : Seconds) : Decidable (a < b) := inferInstanceAs (Decidable (a.below b = true))

def ofValue? : Value → Option Seconds
  | .int n => some (whole n)
  | .bool b => some (whole (Value.ofBool b))
  | .real x => some (real x)
  | _ => none

/-- An exact count of the units of binary floating point numbers; infinite times have none. -/
def units? : Seconds → Option Int
  | whole n => some (n * Binary64.one)
  | real (.finite s n) => some (Binary64.signed s n)
  | real _ => none

def steps (span step : Seconds) : Nat :=
  match span.units?, step.units? with
  | some m, some n => m.toNat / n.toNat
  | _, _ => 0

def toValue : Seconds → Value
  | whole n => .int n
  | real x => .real x

end Seconds

end Provision
