import Provision.Binary64

namespace Provision.Decimal

open Binary64

def search (p : Nat → Bool) : Nat → Nat → Nat
  | 0, k => k
  | n + 1, k => if p k then k else search p n (k + 1)

/-- The exponent `e` with `10 ^ (e - 1) ≤ x < 10 ^ e`, for `x` given in units. -/
def exponent (units : Nat) : Int :=
  if one ≤ units then
    search (fun k => units < one * tenPow k) 310 1
  else
    1 - (search (fun k => one ≤ units * tenPow k) 330 1 : Int)

/-- Whether `c * 10 ^ g` reads back as the number with these units: it lies between the midpoints
to the two neighbours, and on a midpoint only if the significand is even. -/
def readsBack (units c : Nat) (g : Int) : Bool :=
  let s := gap units
  let up := 2 * twoPow s
  let down := if units = twoPow 52 * twoPow s && 0 < s then twoPow s else up
  let b := tenPow (-g).toNat
  let x := 4 * (c * tenPow g.toNat * one)
  let lo := (4 * units - down) * b
  let hi := (4 * units + up) * b
  if units / twoPow s % 2 = 0 then lo ≤ x && x ≤ hi else lo < x && x < hi

/-- The best `k`-digit decimal that reads back, if there is one: of the two neighbours on the grid
the nearer, a tie going to the even digit. -/
def onGrid? (units : Nat) (e : Int) (k : Nat) : Option (Nat × Int) :=
  let g := e - k
  let num := units * tenPow (-g).toNat
  let den := one * tenPow g.toNat
  let low := num / den
  let near := roundHalfEven num den
  let far := if near = low then low + 1 else low
  if readsBack units near g then some (near, g)
  else if readsBack units far g then some (far, g)
  else none

def dropZeros : Nat → Nat → Int → Nat × Int
  | 0, n, g => (n, g)
  | fuel + 1, n, g => if n % 10 = 0 && n ≠ 0 then dropZeros fuel (n / 10) (g + 1) else (n, g)

/-- The shortest digits `d` and an exponent `g` such that `d * 10 ^ g` reads back. -/
def shortest (units : Nat) : Nat × Int :=
  let e := exponent units
  match (List.range 17).findSome? fun k => onGrid? units e (k + 1) with
  | some (d, g) => dropZeros 20 d g
  | none => (0, 0)

structure Notation where
  nan : String := "nan"
  infinity : String := "inf"
  /-- Whether a lone digit before an exponent is followed by `.0`. -/
  pointBeforeExponent : Bool := false

def zeros (n : Nat) : List Char := List.replicate n '0'

def digits (n : Nat) : List Char := Nat.toDigits 10 n

def exponentText (e : Int) : List Char :=
  let d := digits e.natAbs
  'e' :: (if e < 0 then '-' else '+') :: (if d.length < 2 then '0' :: d else d)

def layout (f : Notation) (ds : List Char) (point : Int) : List Char :=
  if -4 < point && point ≤ 16 then
    if point ≤ 0 then '0' :: '.' :: zeros (-point).toNat ++ ds
    else
      let p := point.toNat
      if ds.length ≤ p then ds ++ zeros (p - ds.length) ++ ['.', '0']
      else ds.take p ++ '.' :: ds.drop p
  else
    let fraction := match ds.drop 1 with
      | [] => if f.pointBeforeExponent then ['.', '0'] else []
      | rest => '.' :: rest
    ds.take 1 ++ fraction ++ exponentText (point - 1)

def magnitude (f : Notation) (units : Nat) : List Char :=
  if units = 0 then ['0', '.', '0']
  else
    let (d, g) := shortest units
    let ds := digits d
    layout f ds (g + ds.length)

def render (f : Notation) : Binary64 → String
  | .nan => f.nan
  | .infinite s => if s then "-" ++ f.infinity else f.infinity
  | .finite s n => String.ofList ((if s then ['-'] else []) ++ magnitude f n)

def fixed (places : Nat) : Binary64 → String
  | .nan => "nan"
  | .infinite s => if s then "-inf" else "inf"
  | .finite s n =>
    let ds := digits (roundHalfEven (n * tenPow places) one)
    let ds := zeros (places + 1 - ds.length) ++ ds
    let whole := ds.take (ds.length - places)
    let fraction := if places = 0 then [] else '.' :: ds.drop (ds.length - places)
    String.ofList ((if s then ['-'] else []) ++ whole ++ fraction)

end Provision.Decimal
