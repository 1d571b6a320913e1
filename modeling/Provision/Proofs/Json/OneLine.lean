import Provision.Json.Writer
import Provision.Proofs.Value.Everywhere
import Provision.Proofs.Value.Shown

namespace Provision

/-- Whether JSON knows a value as it is, and not only through what is in it: it has no bytes, dates, sets
and tuples, and the keys of its mappings are texts. -/
def Value.isJson : Value → Bool
  | .null | .bool _ | .int _ | .real _ | .text _ | .list .. => true
  | .map _ es => es.all fun e => e.1.text?.isSome
  | _ => false

def Value.isBrief : Value → Bool
  | .int n => !isLong n
  | _ => true

def isVisible (c : Char) : Bool := ' ' ≤ c && c ≤ '~'

def Visible (cs : List Char) : Prop := ∀ c ∈ cs, isVisible c = true

instance (cs : List Char) : Decidable (Visible cs) := decidable_of_iff (cs.all isVisible = true) List.all_eq_true

section Visible

variable {c : Char} {cs ds : List Char}

@[simp] theorem visible_nil : Visible [] := nofun

@[simp] theorem visible_cons : Visible (c :: cs) ↔ isVisible c = true ∧ Visible cs := List.forall_mem_cons

@[simp] theorem visible_append : Visible (cs ++ ds) ↔ Visible cs ∧ Visible ds := List.forall_mem_append

theorem Visible.of_subset (h : Visible cs) (hds : ∀ d ∈ ds, d ∈ cs) : Visible ds :=
  fun d hd => h d (hds d hd)

theorem visible_replicate (n : Nat) (h : isVisible c = true) : Visible (List.replicate n c) := by
  intro d hd
  rwa [List.eq_of_mem_replicate hd]

theorem visible_flatMap {α : Type} {xs : List α} {f : α → List Char} (h : ∀ x ∈ xs, Visible (f x)) :
    Visible (xs.flatMap f) := by
  intro c hc
  obtain ⟨x, hx, hc⟩ := List.mem_flatMap.1 hc
  exact h x hx c hc

theorem visible_intercalate (h : Visible cs) {items : List (List Char)} (hitems : ∀ i ∈ items, Visible i) :
    Visible (cs.intercalate items) := by
  induction items with
  | nil => simp
  | cons i items ih =>
      obtain ⟨hi, hitems⟩ := List.forall_mem_cons.1 hitems
      cases items with
      | nil => simpa using hi
      | cons j items =>
          rw [List.intercalate_cons_cons, visible_append, visible_append]
          exact ⟨⟨hi, h⟩, ih hitems⟩

theorem visible_toDigits {b : Nat} (hb : 1 < b) (hb' : b ≤ 16) (n : Nat) : Visible (Nat.toDigits b n) := by
  have hdigit : ∀ d < 16, isVisible d.digitChar = true := by decide
  induction n using Nat.strongRecOn with
  | ind n ih =>
      rw [Nat.toDigits_eq_if hb]
      split
      next hn => simpa using hdigit n (Nat.lt_of_lt_of_le hn hb')
      next hn =>
        have hmod : n % b < 16 := Nat.lt_of_lt_of_le (Nat.mod_lt n (Nat.zero_lt_of_lt hb)) hb'
        have hdiv : n / b < n := Nat.div_lt_self (by omega) hb
        simpa using ⟨ih _ hdiv, hdigit _ hmod⟩

end Visible

namespace Decimal

variable {f : Notation}

theorem visible_exponentText (e : Int) : Visible (exponentText e) := by
  have hdigits : Visible (digits e.natAbs) := visible_toDigits (by decide) (by decide) _
  rw [exponentText]
  split <;> split <;> simp [hdigits] <;> decide

theorem visible_layout {ds : List Char} (h : Visible ds) (point : Int) : Visible (layout f ds point) := by
  have hzeros (n : Nat) : Visible (zeros n) := visible_replicate n (by decide)
  have htake (n : Nat) : Visible (ds.take n) := h.of_subset fun d hd => List.mem_of_mem_take hd
  have hdrop (n : Nat) : Visible (ds.drop n) := h.of_subset fun d hd => List.mem_of_mem_drop hd
  have hpoint : isVisible '.' = true := by decide
  have hzero : isVisible '0' = true := by decide
  have hexponent := visible_exponentText (point - 1)
  rw [layout]
  split
  next =>
    split
    next => simp [hzero, hpoint, hzeros, h]
    next =>
      dsimp only
      split <;> simp [hzero, hpoint, hzeros, htake, hdrop, h]
  next =>
    have hrest := hdrop 1
    generalize ds.drop 1 = rest at hrest ⊢
    cases rest with
    | nil =>
        dsimp only
        split <;> simp [hzero, hpoint, htake, hexponent]
    | cons => simpa [hpoint, htake, hexponent] using hrest

theorem visible_magnitude (n : Nat) : Visible (magnitude f n) := by
  rw [magnitude]
  split
  next => decide
  next => exact visible_layout (visible_toDigits (by decide) (by decide) _) _

theorem visible_render (hnan : Visible f.nan.toList) (hinfinity : Visible f.infinity.toList) (x : Binary64) :
    Visible (render f x).toList := by
  have hminus : isVisible '-' = true := by decide
  cases x with
  | nan => exact hnan
  | infinite s =>
      rw [render]
      split
      next => simp [hminus, hinfinity]
      next => exact hinfinity
  | finite s n =>
      rw [render, String.toList_ofList, visible_append]
      refine ⟨?_, visible_magnitude n⟩
      split
      next => simpa using hminus
      next => simp

end Decimal

namespace Json

open Steps

structure Style.OneLine (style : Style) : Prop where
  indent : style.indent = none
  ascii : style.ascii = true
  itemMark : Visible style.itemMark.toList
  keyMark : Visible style.keyMark.toList

theorem oneLine_compact : compact.OneLine := ⟨rfl, rfl, by decide, by decide⟩

theorem visible_unit (n : Nat) : Visible (unit n) := by
  have hdigits : Visible (Nat.toDigits 16 n) := visible_toDigits (by decide) (by decide) n
  have hzeros (k : Nat) : Visible (List.replicate k '0') := visible_replicate k (by decide)
  have hmarks : isVisible '\\' = true ∧ isVisible 'u' = true := by decide
  simp [unit, Text.Quoted.hex, hmarks, hdigits, hzeros]

theorem visible_encodeChar (c : Char) : Visible (encodeChar true c) := by
  simp only [encodeChar]
  -- First the characters that have an escape of their own.
  iterate 7
    split
    next => decide
  split
  next => exact visible_unit _
  next hlow =>
    split
    next =>
      split
      next => exact visible_unit _
      next => exact visible_append.2 ⟨visible_unit _, visible_unit _⟩
    next hhigh =>
      have hcode : 0x20 ≤ c.toNat ∧ c.toNat ≤ 0x7e := by
        simp at hhigh
        omega
      simpa [isVisible, Char.le_def, UInt32.le_iff_toNat_le] using hcode

theorem visible_encode (s : String) : Visible (encode true s) := by
  have hquote : isVisible '"' = true := by decide
  simp [encode, hquote, visible_flatMap, visible_encodeChar]

theorem visible_int (n : Int) : Visible (toString n).toList := by
  have hdigits (k : Nat) : Visible k.repr.toList := by
    rw [Nat.toList_repr]
    exact visible_toDigits (by decide) (by decide) k
  rw [Int.toString_eq_repr, Int.repr_eq_if]
  split
  next => exact hdigits _
  next =>
    rw [String.toList_append, visible_append]
    exact ⟨by decide, hdigits _⟩

theorem visible_bracket {style : Style} (hs : style.OneLine) (level : Nat) {opening closing : Char}
    (hopening : isVisible opening = true) (hclosing : isVisible closing = true)
    {items : List (List Char)} (hitems : ∀ i ∈ items, Visible i) :
    Visible (bracket style level opening closing items) := by
  have hlead (n : Nat) : lead style n = [] := by rw [lead, hs.indent]
  rw [bracket]
  split
  next => simp [hopening, hclosing]
  next => simp [hlead, hopening, hclosing, visible_intercalate hs.itemMark hitems]

def Written {α : Type} (brief : Bool) (P : α → Prop) (r : Except Failure α) : Prop :=
  if brief then ∃ a, r = .ok a ∧ P a else r = .error .tooLong

theorem Written.bind {α β : Type} {b b' : Bool} {P : α → Prop} {Q : β → Prop} {r : Except Failure α}
    {f : α → Except Failure β} (h : Written b P r) (hf : ∀ a, P a → Written b' Q (f a)) :
    Written (b && b') Q (r >>= f) := by
  cases b with
  | false =>
      have hr : r = .error .tooLong := h
      rw [hr]
      rfl
  | true =>
      obtain ⟨a, hr, ha⟩ : ∃ a, r = .ok a ∧ P a := h
      rw [hr, ok_bind]
      exact hf a ha

theorem Written.map {α β : Type} {b : Bool} {P : α → Prop} {Q : β → Prop} {r : Except Failure α} {f : α → β}
    (h : Written b P r) (hf : ∀ a, P a → Q (f a)) : Written b Q (r >>= fun a => pure (f a)) := by
  rw [← Bool.and_true b]
  exact h.bind fun a ha => ⟨f a, rfl, hf a ha⟩

variable {style : Style}

theorem written_encodeInt (n : Int) : Written (Value.int n).isBrief Visible (encodeInt n) := by
  rw [Written, encodeInt, Value.isBrief]
  cases isLong n with
  | false => exact ⟨_, rfl, visible_int n⟩
  | true => rfl

theorem written_scalar (hs : style.OneLine) {refused : Failure} {v : Value} (hv : v.isJson = true) (hlist : v.items? = none)
    (hmap : v.entries? = none) : Written v.isBrief Visible (scalar style refused v) := by
  cases v with
  | null => exact ⟨_, rfl, by decide⟩
  | bool b => exact ⟨_, rfl, by cases b <;> decide⟩
  | int n => exact written_encodeInt n
  | real x => exact ⟨_, rfl, Decimal.visible_render (by decide) (by decide) x⟩
  | text s => exact ⟨_, rfl, by rw [hs.ascii]; exact visible_encode s⟩
  | list => cases hlist
  | map => cases hmap
  | bytes | date | moment | tuple | set => cases hv

theorem written_key (hs : style.OneLine) (s : String) : ∃ cs, key style (.text s) = .ok cs ∧ Visible cs :=
  ⟨_, rfl, by rw [hs.ascii]; exact visible_encode s⟩

mutual
theorem written_encodeValue (hs : style.OneLine) : ∀ {v : Value}, v.everywhere Value.isJson = true → ∀ level,
    Written (v.everywhere Value.isBrief) Visible (encodeValue style level v)
  | .list a xs, h, level => by
      rw [Value.everywhere, Bool.and_eq_true] at h
      exact (written_encodeItems hs h.2 (level + 1)).map fun items hitems =>
        visible_bracket hs level (by decide) (by decide) hitems
  | .map a es, h, level => by
      rw [Value.everywhere, Bool.and_eq_true] at h
      exact (written_encodeEntries hs h.1 h.2 (level + 1)).map fun items hitems =>
        visible_bracket hs level (by decide) (by decide) hitems
  | .null, h, _ | .bool _, h, _ | .int _, h, _ | .real _, h, _ | .text _, h, _ => by
      rw [Value.everywhere, encodeValue] <;> first | exact written_scalar hs h rfl rfl | nofun
  | .bytes _, h, _ | .date .., h, _ | .moment .., h, _ | .tuple _, h, _ | .set .., h, _ => by cases h

theorem written_encodeItems (hs : style.OneLine) : ∀ {xs : List Value},
    Value.everywhereIn Value.isJson xs = true → ∀ level,
    Written (Value.everywhereIn Value.isBrief xs) (∀ i ∈ ·, Visible i) (encodeItems style level xs)
  | [], _, _ => ⟨[], rfl, nofun⟩
  | x :: xs, h, level => by
      rw [Value.everywhereIn, Bool.and_eq_true] at h
      exact (written_encodeValue hs h.1 level).bind fun cs hcs =>
        (written_encodeItems hs h.2 level).map fun items hitems => List.forall_mem_cons.2 ⟨hcs, hitems⟩

theorem written_encodeEntries (hs : style.OneLine) : ∀ {es : Entries}, (es.all fun e => e.1.text?.isSome) = true →
    Value.everywhereOf Value.isJson es = true → ∀ level,
    Written (Value.everywhereOf Value.isBrief es) (∀ i ∈ ·, Visible i) (encodeEntries style level es)
  | [], _, _, _ => ⟨[], rfl, nofun⟩
  | (.text s, v) :: es, hkeys, h, level => by
      rw [Value.everywhereOf, Bool.and_eq_true] at h
      rw [List.all_cons, Bool.and_eq_true] at hkeys
      obtain ⟨name, hname, hvisible⟩ := written_key hs s
      rw [encodeEntries, hname, ok_bind]
      refine (written_encodeValue hs h.1 level).bind fun cs hcs =>
        (written_encodeEntries hs hkeys.2 h.2 level).map fun items hitems => List.forall_mem_cons.2 ⟨?_, hitems⟩
      exact visible_append.2 ⟨visible_append.2 ⟨hvisible, hs.keyMark⟩, hcs⟩
  | (.null, _) :: _, hkeys, _, _ | (.bool _, _) :: _, hkeys, _, _ | (.int _, _) :: _, hkeys, _, _
  | (.real _, _) :: _, hkeys, _, _ | (.bytes _, _) :: _, hkeys, _, _ | (.date .., _) :: _, hkeys, _, _
  | (.moment .., _) :: _, hkeys, _, _ | (.list .., _) :: _, hkeys, _, _ | (.tuple _, _) :: _, hkeys, _, _
  | (.set .., _) :: _, hkeys, _, _ | (.map .., _) :: _, hkeys, _, _ => by cases hkeys
end

/-- What JSON knows is written in visible characters, or has an integer that is too long. -/
theorem written_write (hs : style.OneLine) {v : Value} (hv : v.everywhere Value.isJson = true) :
    Written (v.everywhere Value.isBrief) (fun s : String => Visible s.toList) (write style v) :=
  (written_encodeValue hs hv 0).map fun cs hcs => by rwa [String.toList_ofList]

end Json

end Provision
