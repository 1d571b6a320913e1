import Provision.Proofs.Placeholder.Precheck

namespace Provision

/-- Two environments are alike for a reference. A variable that is required has the same text in
both or is unset in both. For one that has a fallback somewhere, unset and empty are the same. One
that has alternates only is set and not empty in both or in neither. -/
def Reference.Alike (e f : Environment) (r : Reference) : Prop :=
  if r.required then e.get? r.name = f.get? r.name
  else if r.fallback.isSome then e.nonempty? r.name = f.nonempty? r.name
  else (e.nonempty? r.name).isSome = (f.nonempty? r.name).isSome

instance (e f : Environment) (r : Reference) : Decidable (r.Alike e f) :=
  inferInstanceAs (Decidable (ite _ _ _))

namespace Reference

variable {e f : Environment}

theorem merge_fallback_of_mem {os : List Occurrence} {o : Occurrence} {operand : String}
    (ho : o ∈ os) (hform : o.placeholder.form = .fallback operand) :
    (merge os o.placeholder.name).fallback.isSome = true := by
  rw [merge_fallback, List.findSome?_isSome_iff]
  obtain ⟨⟨n, f⟩, path⟩ := o
  exact ⟨_, ho, by cases hform; simp [fallback?]⟩

theorem Alike.get? {r : Reference} (h : r.Alike e f) (hr : r.required = true) :
    e.get? r.name = f.get? r.name := by
  rwa [Alike, if_pos hr] at h

theorem Alike.nonempty? {r : Reference} (h : r.Alike e f) (hr : r.fallback.isSome = true) :
    e.nonempty? r.name = f.nonempty? r.name := by
  cases hreq : r.required with
  | true => rw [Environment.nonempty?, Environment.nonempty?, h.get? hreq]
  | false => rwa [Alike, hreq, if_neg (by decide), if_pos hr] at h

theorem Alike.isSome {r : Reference} (h : r.Alike e f) :
    (e.nonempty? r.name).isSome = (f.nonempty? r.name).isSome := by
  cases hfall : r.fallback.isSome with
  | true => rw [h.nonempty? hfall]
  | false =>
      cases hreq : r.required with
      | true => rw [Environment.nonempty?, Environment.nonempty?, h.get? hreq]
      | false => rwa [Alike, hreq, hfall, if_neg (by decide), if_neg (by decide)] at h

end Reference

namespace Placeholder

open Reference (find merge)
open Steps

variable {e f : Environment}

/-- A placeholder has one value under environments that are alike for the reference in which it is
merged with the other placeholders of its variable. -/
theorem value?_eq_of_alike {os : List Occurrence} {o : Occurrence} (ho : o ∈ os)
    (h : (merge os o.placeholder.name).Alike e f) :
    o.placeholder.value? e = o.placeholder.value? f := by
  cases hform : o.placeholder.form with
  | required =>
      have hreq : (merge os o.placeholder.name).required = true :=
        Reference.merge_required.2 ⟨o, ho, by rw [← hform]⟩
      have hget := h.get? hreq
      rw [Reference.merge_name] at hget
      simp only [value?, hform, hget]
  | fallback operand =>
      have hsame := h.nonempty? (Reference.merge_fallback_of_mem ho hform)
      rw [Reference.merge_name] at hsame
      simp only [value?, hform, hsame]
  | alternate operand =>
      have hboth := h.isSome
      rw [Reference.merge_name] at hboth
      simp only [value?, hform, hboth]

theorem fill_congr {path : String} {segs : List Segment}
    (h : ∀ p, .hole p ∈ segs → p.value? e = p.value? f) :
    fill e path segs = fill f path segs := by
  induction segs with
  | nil => rfl
  | cons g segs ih =>
      have hrest := ih fun p hp => h p (List.mem_cons_of_mem _ hp)
      cases g with
      | char c => rw [fill, fill, hrest]
      | hole p => rw [fill, fill, h p List.mem_cons_self, hrest]

theorem substitute_congr {path s : String}
    (h : ∀ p, .hole p ∈ segments s → p.value? e = p.value? f) :
    substitute e path s = substitute f path s := by
  rw [substitute, substitute, fill_congr h]

mutual
/-- Substitution reads an environment through the values of the placeholders alone. -/
theorem replace_congr {path : String} : ∀ {v : Value},
    (∀ l ∈ leaves path v, ∀ p, .hole p ∈ segments l.text → p.value? e = p.value? f) →
      replace e path v = replace f path v
  | .text s, h => substitute_congr (h ⟨path, s⟩ (by simp [leaves]))
  | .list _ xs, h => by rw [replace, replace, replaceItems_congr h]
  | .map _ es, h => by rw [replace, replace, replaceEntries_congr h]
  | .null, _ | .bool _, _ | .int _, _ | .real _, _ | .bytes _, _ | .date .., _ | .moment .., _
  | .tuple _, _ | .set .., _ => rfl

theorem replaceItems_congr {path : String} : ∀ {i : Nat} {xs : List Value},
    (∀ l ∈ leavesItems path i xs, ∀ p, .hole p ∈ segments l.text → p.value? e = p.value? f) →
      replaceItems e path i xs = replaceItems f path i xs
  | _, [], _ => rfl
  | i, x :: xs, h => by
      rw [leavesItems, List.forall_mem_append] at h
      rw [replaceItems, replaceItems, replace_congr h.1, replaceItems_congr h.2]

theorem replaceEntries_congr {path : String} : ∀ {es : List (Value × Value)},
    (∀ l ∈ leavesEntries path es, ∀ p, .hole p ∈ segments l.text → p.value? e = p.value? f) →
      replaceEntries e path es = replaceEntries f path es
  | [], _ => rfl
  | (k, v) :: es, h => by
      rw [leavesEntries, List.forall_mem_append] at h
      rw [replaceEntries, replaceEntries]
      cases hk : k.isShort with
      | false => simp only [joinPath_of_long hk, error_bind]
      | true =>
          simp only [joinPath_of_isShort hk, ok_bind]
          rw [replace_congr h.1, replaceEntries_congr h.2]
end

/-- The references of a value say all that its substitution depends on: under environments that are
alike for each of them it becomes the same or fails in the same way, at the same variable and place.
Variables without a reference do not matter. -/
theorem replace_eq_of_alike {path : String} {v : Value} {rs : List Reference}
    (hrs : find v path = .ok rs) (h : ∀ r ∈ rs, r.Alike e f) :
    replace e path v = replace f path v := by
  obtain ⟨-, rfl⟩ := find_eq_ok_iff.1 hrs
  refine replace_congr fun l hl p hp => ?_
  have ho : ⟨p, l.path⟩ ∈ occurrences path v := mem_occurrences.2 ⟨l, hl, mem_all.2 hp, rfl⟩
  exact value?_eq_of_alike ho (h _ (Reference.mem_summary.2 ⟨_, ho, rfl⟩))

/-- One variable is required beside a fallback, one is empty or unset, one has two texts where only
its presence counts, and one has no reference. -/
theorem replace_eq_of_alike_for_mixed_forms :
    let v := Value.record [
      ("a", .ofList [.text "<$\x7benv.A:=1\x7d>", .text "<$\x7benv.A\x7d$\x7benv.C:+on\x7d>"]),
      ("b", .text "$\x7benv.B:=2\x7d$\x7benv.B:+set\x7d")]
    let e : Environment := [("A", ""), ("B", ""), ("C", "x"), ("D", "1")]
    let f : Environment := [("A", ""), ("C", "y")]
    ∃ rs, find v "" = .ok rs ∧ (∀ r ∈ rs, r.Alike e f) ∧ replace e "" v = replace f "" v ∧
      (replace f "" v).isOk = true := by
  intro v e f
  have hfind : find v "" = .ok (Reference.summary (occurrences "" v)) := find_eq_ok_iff.2 ⟨by rfl, rfl⟩
  have halike : ∀ r ∈ Reference.summary (occurrences "" v), r.Alike e f := by decide
  exact ⟨_, hfind, halike, replace_eq_of_alike hfind halike, by decide +kernel⟩

end Placeholder
end Provision
