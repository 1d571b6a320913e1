import Provision.Failure

namespace Provision

/-- Whether an integer has more digits than are written. -/
@[irreducible] def isLong (n : Int) : Bool := Nat.pow 10 Numeral.digitLimit ≤ n.natAbs

namespace Value

mutual
def isShort : Value → Bool
  | int n => !isLong n
  | list _ xs | tuple xs | set _ xs => allShort xs
  | map _ es => allShortEntries es
  | _ => true

def allShort : List Value → Bool
  | [] => true
  | x :: xs => x.isShort && allShort xs

def allShortEntries : List (Value × Value) → Bool
  | [] => true
  | (k, v) :: es => k.isShort && v.isShort && allShortEntries es
end

/-- The text of what is made of a value, if all its integers can be written. -/
def shown (v : Value) (text : String) : Except Failure String :=
  if v.isShort then .ok text else .error .tooLong

def quoted (v : Value) : Except Failure String := v.shown v.quotation

def plain (v : Value) : Except Failure String := v.shown v.wording

@[simp] theorem plain_text (s : String) : (text s).plain = .ok s := rfl

end Value
end Provision
