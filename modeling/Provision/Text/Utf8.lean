namespace Provision.Text.Utf8

/-- Why bytes are no text, and where. -/
inductive Fault where
  | start (byte : UInt8) (at_ : Nat)
  | continuation (byte : UInt8) (first last : Nat)
  | ending (byte : UInt8) (first last : Nat)
  deriving DecidableEq, Repr

def isTail (b : UInt8) : Bool := 0x80 ≤ b && b < 0xc0

/-- The length of the character that a byte starts, and the bounds of its second byte. -/
def shape? (b : UInt8) : Option (Nat × UInt8 × UInt8) :=
  if b < 0x80 then some (1, 0, 0)
  else if 0xc2 ≤ b && b < 0xe0 then some (2, 0x80, 0xbf)
  else if b == 0xe0 then some (3, 0xa0, 0xbf)
  else if b == 0xed then some (3, 0x80, 0x9f)
  else if 0xe1 ≤ b && b < 0xf0 then some (3, 0x80, 0xbf)
  else if b == 0xf0 then some (4, 0x90, 0xbf)
  else if 0xf1 ≤ b && b < 0xf4 then some (4, 0x80, 0xbf)
  else if b == 0xf4 then some (4, 0x80, 0x8f)
  else none

def first? (position : Nat) : List UInt8 → Except Fault (Nat × Nat)
  | [] => .error (.ending 0 position position)
  | b :: rest =>
    match shape? b with
    | none => .error (.start b position)
    | some (1, _, _) => .ok (b.toNat, 1)
    | some (n, lo, hi) =>
      let tail := rest.take (n - 1)
      let good := (tail.take 1).filter (fun t => lo ≤ t && t ≤ hi)
      let run := if good.isEmpty then [] else good ++ (tail.drop 1).takeWhile isTail
      if run.length = n - 1 then
        let mask := if n = 2 then 0x1f else if n = 3 then 0x0f else 0x07
        .ok (run.foldl (fun c t => c * 64 + (t &&& 0x3f).toNat) (b &&& mask).toNat, n)
      else if run.length = tail.length then .error (.ending b position (position + run.length))
      else .error (.continuation b position (position + run.length))

/-- Reads bytes as characters; `skip` bytes belong to a character that was read before. -/
def decodeAfter (position : Nat) : List UInt8 → Nat → Except Fault (List Char)
  | [], _ => .ok []
  | _ :: bs, skip + 1 => decodeAfter (position + 1) bs skip
  | b :: bs, 0 => do
    let (code, n) ← first? position (b :: bs)
    return Char.ofNat code :: (← decodeAfter (position + 1) bs (n - 1))

def decode (bs : List UInt8) : Except Fault (List Char) := decodeAfter 0 bs 0

def decode? (bs : List UInt8) : Option (List Char) := (decode bs).toOption

def encode (s : String) : List UInt8 := s.toUTF8.toList

def hexByte (b : UInt8) : String :=
  let ds := Nat.toDigits 16 b.toNat
  "0x" ++ String.ofList (List.replicate (2 - ds.length) '0' ++ ds)

namespace Fault

def place (first last : Nat) (b : UInt8) : String :=
  if first = last then s!"byte {hexByte b} in position {first}"
  else s!"bytes in position {first}-{last}"

def message : Fault → String
  | start b p => s!"'utf-8' codec can't decode {place p p b}: invalid start byte"
  | continuation b p q => s!"'utf-8' codec can't decode {place p q b}: invalid continuation byte"
  | ending b p q => s!"'utf-8' codec can't decode {place p q b}: unexpected end of data"

end Fault
end Provision.Text.Utf8
