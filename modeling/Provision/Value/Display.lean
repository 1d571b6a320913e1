import Provision.Decimal
import Provision.Text.Quoted
import Provision.Value.Basic

namespace Provision.Value

open Text

def realNotation : Decimal.Notation := {}

def showReal (x : Binary64) : String := Decimal.render realNotation x

def showBool (b : Bool) : String := if b then "True" else "False"

def showText (s : String) : String := String.ofList (Quoted.encode s.toList)

def showBytes (bs : List UInt8) : String :=
  let cs := bs.map fun b => Char.ofNat b.toNat
  let q := Quoted.quoteFor cs
  let body := cs.flatMap fun c =>
    if 0x7f ≤ c.toNat then Quoted.escape c else Quoted.encodeChar q c
  String.ofList ('b' :: q :: body ++ [q])

def showDate (d : Date) : String := s!"datetime.date({d.year}, {d.month}, {d.day})"

def showOffset (minutes : Int) : String :=
  let seconds := minutes * 60
  let days := seconds / 86400
  let rest := seconds % 86400
  if minutes = 0 then "datetime.timezone.utc"
  else if days = 0 then s!"datetime.timezone(datetime.timedelta(seconds={rest}))"
  else if rest = 0 then s!"datetime.timezone(datetime.timedelta(days={days}))"
  else s!"datetime.timezone(datetime.timedelta(days={days}, seconds={rest}))"

def showMoment (m : Moment) : String :=
  let d := m.date
  s!"datetime.datetime({d.year}, {d.month}, {d.day}, {m.hour}, {m.minute}"
    ++ (if m.second = 0 && m.microsecond = 0 then "" else s!", {m.second}")
    ++ (if m.microsecond = 0 then "" else s!", {m.microsecond}")
    ++ (match m.offset with | some o => ", tzinfo=" ++ showOffset o | none => "") ++ ")"

mutual
def quotation : Value → String
  | null => "None"
  | bool b => showBool b
  | int n => toString n
  | real x => showReal x
  | text s => showText s
  | bytes bs => showBytes bs
  | date _ d => showDate d
  | moment _ m => showMoment m
  | list _ xs => "[" ++ ", ".intercalate (quotations xs) ++ "]"
  | tuple [x] => "(" ++ x.quotation ++ ",)"
  | tuple xs => "(" ++ ", ".intercalate (quotations xs) ++ ")"
  | set _ [] => "set()"
  | set _ xs => "\x7b" ++ ", ".intercalate (quotations xs) ++ "\x7d"
  | map _ es => "\x7b" ++ ", ".intercalate (entryQuotations es) ++ "\x7d"

def quotations : List Value → List String
  | [] => []
  | x :: xs => x.quotation :: quotations xs

def entryQuotations : List (Value × Value) → List String
  | [] => []
  | (k, v) :: es => (k.quotation ++ ": " ++ v.quotation) :: entryQuotations es
end

def wording : Value → String
  | text s => s
  | date _ d => d.iso
  | moment _ m => m.iso " "
  | v => v.quotation

def showTexts (ss : List String) : String := "[" ++ ", ".intercalate (ss.map showText) ++ "]"

end Provision.Value
