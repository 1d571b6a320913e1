import Provision.Value.Equality
import Provision.Value.Shown

namespace Provision.Value

variable {p : Value → Bool}

mutual
def everywhere (p : Value → Bool) : Value → Bool
  | list a xs => p (list a xs) && everywhereIn p xs
  | map a es => p (map a es) && everywhereOf p es
  | v => p v

def everywhereIn (p : Value → Bool) : List Value → Bool
  | [] => true
  | x :: xs => x.everywhere p && everywhereIn p xs

def everywhereOf (p : Value → Bool) : List (Value × Value) → Bool
  | [] => true
  | (_, v) :: es => v.everywhere p && everywhereOf p es
end

theorem everywhere_self {v : Value} (h : v.everywhere p = true) : p v = true := by
  cases v with
  | list a xs =>
      rw [everywhere, Bool.and_eq_true] at h
      exact h.1
  | map a es =>
      rw [everywhere, Bool.and_eq_true] at h
      exact h.1
  | _ => exact h

theorem everywhere_item {a : Option Nat} {xs : List Value} (h : (list a xs).everywhere p = true) :
    ∀ x ∈ xs, x.everywhere p = true := by
  rw [everywhere, Bool.and_eq_true] at h
  replace h := h.2
  induction xs with
  | nil => simp
  | cons x xs ih =>
      rw [everywhereIn, Bool.and_eq_true] at h
      rw [List.forall_mem_cons]
      exact ⟨h.1, ih h.2⟩

theorem everywhere_entry {a : Option Nat} {es : Entries} (h : (map a es).everywhere p = true) :
    ∀ e ∈ es, e.2.everywhere p = true := by
  rw [everywhere, Bool.and_eq_true] at h
  replace h := h.2
  induction es with
  | nil => simp
  | cons e es ih =>
      obtain ⟨k, v⟩ := e
      rw [everywhereOf, Bool.and_eq_true] at h
      rw [List.forall_mem_cons]
      exact ⟨h.1, ih h.2⟩

theorem everywhere_getD {a : Option Nat} {es : Entries} (h : (map a es).everywhere p = true)
    (k : Value) {d : Value} (hd : d.everywhere p = true) :
    ((Entries.get? es k).getD d).everywhere p = true := by
  rw [Entries.get?]
  cases hk : es.find? fun e => k.same e.1 with
  | none => exact hd
  | some e => exact everywhere_entry h e (List.mem_of_find?_eq_some hk)

theorem everywhere_orElse {v w : Value} (hv : v.everywhere p = true) (hw : w.everywhere p = true) :
    (v.orElse w).everywhere p = true := by
  rw [orElse]
  split
  · exact hv
  · exact hw

mutual
theorem everywhere_isShort : ∀ {v : Value}, v.isShort = true → v.everywhere isShort = true
  | list a xs, h => by
      rw [everywhere, h, Bool.true_and]
      exact everywhereIn_isShort h
  | map a es, h => by
      rw [everywhere, h, Bool.true_and]
      exact everywhereOf_isShort h
  | null, h | bool _, h | int _, h | real _, h | text _, h | bytes _, h | date .., h | moment .., h
  | tuple _, h | set .., h => h

theorem everywhereIn_isShort : ∀ {xs : List Value}, allShort xs = true → everywhereIn isShort xs = true
  | [], _ => rfl
  | x :: xs, h => by
      rw [allShort, Bool.and_eq_true] at h
      rw [everywhereIn, everywhere_isShort h.1, everywhereIn_isShort h.2]
      rfl

theorem everywhereOf_isShort : ∀ {es : List (Value × Value)},
    allShortEntries es = true → everywhereOf isShort es = true
  | [], _ => rfl
  | (k, v) :: es, h => by
      rw [allShortEntries, Bool.and_eq_true, Bool.and_eq_true] at h
      rw [everywhereOf, everywhere_isShort h.1.2, everywhereOf_isShort h.2]
      rfl
end

end Provision.Value
