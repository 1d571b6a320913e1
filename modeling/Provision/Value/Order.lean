import Provision.Value.Equality

namespace Provision.Value

def ltNumbers? : Value → Value → Option Bool
  | bool a, w => match w with
    | bool b => some (ofBool a < ofBool b)
    | int n => some (ofBool a < n)
    | real x => some (x.gtInt (ofBool a))
    | _ => none
  | int m, w => match w with
    | bool b => some (m < ofBool b)
    | int n => some (m < n)
    | real x => some (x.gtInt m)
    | _ => none
  | real x, w => match w with
    | bool b => some (x.ltInt (ofBool b))
    | int n => some (x.ltInt n)
    | real y => some (x.lt y)
    | _ => none
  | _, _ => none

mutual
/-- Whether the first value is below the second; none if they have no order. -/
def lt? : Value → Value → Option Bool
  | text s, text t => some (s < t)
  | bytes a, bytes b => some (a < b)
  | date _ d, date _ e => some (d.ordinal < e.ordinal)
  | moment _ a, moment _ b =>
    if a.offset.isSome == b.offset.isSome then
      some (a.clock - a.offset.getD 0 * 60000000 < b.clock - b.offset.getD 0 * 60000000)
    else none
  | list _ xs, list _ ys | tuple xs, tuple ys => ltList? xs ys
  | v, w => ltNumbers? v w

def ltList? : List Value → List Value → Option Bool
  | [], [] => some false
  | [], _ :: _ => some true
  | _ :: _, [] => some false
  | x :: xs, y :: ys => if x.same y then ltList? xs ys else x.lt? y
end

/-- Sorts entries by their keys; they stay as they are unless all keys have an order. -/
def sortEntries (es : Entries) : Entries :=
  if es.all fun e => es.all fun f => (e.1.lt? f.1).isSome then
    es.mergeSort fun e f => !(f.1.lt? e.1).getD false
  else es

end Provision.Value
