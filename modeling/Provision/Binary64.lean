namespace Provision

def twoPow (n : Nat) : Nat := Nat.pow 2 n

def tenPow (n : Nat) : Nat := Nat.pow 10 n

inductive Binary64 where
  | nan
  | infinite (negative : Bool)
  /-- The number `± units * 2 ^ -1074`. -/
  | finite (negative : Bool) (units : Nat)
  deriving DecidableEq, Repr, Inhabited

namespace Binary64

/-- How many units make one. -/
def one : Nat := twoPow 1074

/-- The first magnitude, in units, that is too large for the format. -/
def limit : Nat := twoPow 2098

def roundHalfEven (num den : Nat) : Nat :=
  let q := num / den
  let r := num % den
  if 2 * r < den then q
  else if den < 2 * r then q + 1
  else if q % 2 = 0 then q else q + 1

def gap (units : Nat) : Nat := units.log2 - 52

def ofUnits (negative : Bool) (num den : Nat) : Binary64 :=
  let s := gap (num / den)
  let units := roundHalfEven num (den * twoPow s) * twoPow s
  if limit ≤ units then infinite negative else finite negative units

def ofRatio (negative : Bool) (num den : Nat) : Binary64 := ofUnits negative (num * one) den

def ofInt (n : Int) : Binary64 := ofRatio (n < 0) n.natAbs 1

def zero : Binary64 := finite false 0

def ofDecimal (negative : Bool) (digits : Nat) (exponent : Int) : Binary64 :=
  if digits = 0 then finite negative 0
  else if 400 < exponent then infinite negative
  else if exponent < -400 - (digits.log2 : Int) then finite negative 0
  else if 0 ≤ exponent then ofRatio negative (digits * tenPow exponent.toNat) 1
  else ofRatio negative digits (tenPow (-exponent).toNat)

def neg : Binary64 → Binary64
  | nan => nan
  | infinite s => infinite (!s)
  | finite s n => finite (!s) n

def signed (negative : Bool) (units : Nat) : Int := if negative then -units else units

def add : Binary64 → Binary64 → Binary64
  | nan, _ | _, nan => nan
  | infinite s, infinite t => if s = t then infinite s else nan
  | infinite s, _ => infinite s
  | _, infinite t => infinite t
  | finite s m, finite t n =>
    let total := signed s m + signed t n
    if total = 0 then finite (s && t) 0 else ofUnits (total < 0) total.natAbs 1

def sub (x y : Binary64) : Binary64 := x.add y.neg

def mul : Binary64 → Binary64 → Binary64
  | nan, _ | _, nan => nan
  | infinite s, infinite t => infinite (s != t)
  | infinite s, finite t n | finite t n, infinite s => if n = 0 then nan else infinite (s != t)
  | finite s m, finite t n => ofUnits (s != t) (m * n) one

def lt : Binary64 → Binary64 → Bool
  | nan, _ | _, nan => false
  | infinite s, infinite t => s && !t
  | infinite s, finite _ _ => s
  | finite _ _, infinite t => !t
  | finite s m, finite t n => signed s m < signed t n

def eq : Binary64 → Binary64 → Bool
  | nan, _ | _, nan => false
  | infinite s, infinite t => s == t
  | finite s m, finite t n => signed s m == signed t n
  | _, _ => false

def toInt? : Binary64 → Option Int
  | finite s n => if n % one = 0 then some (signed s (n / one)) else none
  | _ => none

/-- Compares an integer with a number exactly, with no rounding of the integer. -/
def eqInt (x : Binary64) (n : Int) : Bool := x.toInt? == some n

def ltInt (x : Binary64) (n : Int) : Bool :=
  match x with
  | nan => false
  | infinite s => s
  | finite s m => signed s m < n * one

def gtInt (x : Binary64) (n : Int) : Bool :=
  match x with
  | nan => false
  | infinite s => !s
  | finite s m => n * one < signed s m

def isZero : Binary64 → Bool
  | finite _ 0 => true
  | _ => false

end Binary64
end Provision
