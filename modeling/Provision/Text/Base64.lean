namespace Provision.Text.Base64

def alphabet : List Char :=
  "ABCDEFGHIJKLMNOPQRSTUVWXYZabcdefghijklmnopqrstuvwxyz0123456789+/".toList

def letter (n : Nat) : Char := alphabet.getD n '='

def encodeChars : List UInt8 → List Char
  | [] => []
  | [a] => [letter (a.toNat / 4), letter (a.toNat % 4 * 16), '=', '=']
  | [a, b] =>
    [letter (a.toNat / 4), letter (a.toNat % 4 * 16 + b.toNat / 16), letter (b.toNat % 16 * 4), '=']
  | a :: b :: c :: rest =>
    letter (a.toNat / 4) :: letter (a.toNat % 4 * 16 + b.toNat / 16)
      :: letter (b.toNat % 16 * 4 + c.toNat / 64) :: letter (c.toNat % 64) :: encodeChars rest

def lines (width : Nat) : Nat → List Char → List Char
  | 0, _ => []
  | fuel + 1, cs =>
    if cs.isEmpty then [] else cs.take width ++ '\n' :: lines width fuel (cs.drop width)

def encode (bs : List UInt8) : String :=
  let cs := encodeChars bs
  String.ofList (lines 76 (cs.length + 1) cs)

/-- What is left over between two characters: their number in the current four, the bits not yet
used, and the pads just passed. -/
structure Rest where
  count : Nat := 0
  bits : Nat := 0
  pads : Nat := 0

/-- Reads characters as bytes. Others are passed over; pads that complete four characters end the
text, which may not end within four characters otherwise. -/
def decodeFrom (r : Rest) : List Char → Option (List UInt8)
  | [] => if r.count = 0 then some [] else none
  | c :: cs =>
    if c = '=' then
      if 2 ≤ r.count then
        if 4 ≤ r.count + r.pads + 1 then some []
        else decodeFrom { r with pads := r.pads + 1 } cs
      else decodeFrom r cs
    else
      match alphabet.idxOf? c with
      | none => decodeFrom r cs
      | some v =>
        match r.count with
        | 0 => decodeFrom ⟨1, v, 0⟩ cs
        | 1 => (decodeFrom ⟨2, v % 16, 0⟩ cs).map (UInt8.ofNat (r.bits * 4 + v / 16) :: ·)
        | 2 => (decodeFrom ⟨3, v % 4, 0⟩ cs).map (UInt8.ofNat (r.bits * 16 + v / 4) :: ·)
        | _ => (decodeFrom ⟨0, 0, 0⟩ cs).map (UInt8.ofNat (r.bits * 64 + v) :: ·)

def decode? (cs : List Char) : Option (List UInt8) := decodeFrom {} cs

example : encode [0x68, 0x69] = "aGk=\n" := by decide
example : decode? "aGk=".toList = some [0x68, 0x69] := by decide

end Provision.Text.Base64
