import Provision.Value.Basic

namespace Provision.Value

def ofBool (b : Bool) : Int := if b then 1 else 0

mutual
def same : Value → Value → Bool
  | null, null => true
  | bool a, bool b => a == b
  | bool a, int n | int n, bool a => ofBool a == n
  | bool a, real x | real x, bool a => x.eqInt (ofBool a)
  | int m, int n => m == n
  | int n, real x | real x, int n => x.eqInt n
  | real x, real y => x.eq y
  | text s, text t => s == t
  | bytes a, bytes b => a == b
  | date _ d, date _ e => d == e
  | moment _ a, moment _ b => a.same b
  | list _ xs, list _ ys | tuple xs, tuple ys => sameList xs ys
  | set _ xs, set _ ys => xs.length == ys.length && subset xs ys
  | map _ es, map _ fs => es.length == fs.length && subentries es fs
  | _, _ => false
termination_by structural v => v

def sameList : List Value → List Value → Bool
  | [], [] => true
  | x :: xs, y :: ys => x.same y && sameList xs ys
  | _, _ => false
termination_by structural xs => xs

def subset : List Value → List Value → Bool
  | [], _ => true
  | x :: xs, ys => ys.any (fun y => x.same y) && subset xs ys
termination_by structural xs => xs

def subentries : List (Value × Value) → List (Value × Value) → Bool
  | [], _ => true
  | (k, v) :: es, fs => fs.any (fun f => k.same f.1 && v.same f.2) && subentries es fs
termination_by structural es => es
end

def elem (v : Value) (xs : List Value) : Bool := xs.any (fun x => v.same x)

end Provision.Value

namespace Provision.Entries

def get? (es : Entries) (k : Value) : Option Value := (es.find? fun e => k.same e.1).map (·.2)

def get (es : Entries) (k : String) : Value := (get? es (.text k)).getD .null

def has (es : Entries) (k : Value) : Bool := es.any fun e => k.same e.1

/-- Puts a value at a key: in the place of the equal key if there is one, else at the end. -/
def put : Entries → Value → Value → Entries
  | [], k, v => [(k, v)]
  | (l, w) :: es, k, v => if k.same l then (l, v) :: es else (l, w) :: put es k v

def update (es fs : Entries) : Entries := fs.foldl (fun es f => put es f.1 f.2) es

def without (es : Entries) (names : List String) : Entries :=
  es.filter fun e => !names.any fun n => (Value.text n).same e.1

def erase (es : Entries) (k : Value) : Entries := es.filter fun e => !k.same e.1

def keys (es : Entries) : List Value := es.map (·.1)

end Provision.Entries
