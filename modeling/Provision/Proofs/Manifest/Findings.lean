import Mathlib.Data.List.Infix
import Provision.Manifest.Check
import Provision.Proofs.Value.Shown

namespace Provision

open Steps

namespace Manifest

variable {v : Value} {p : String}

theorem quote_eq_ok_iff : quote v = .ok p ↔ v.isShort = true ∧ "'" ++ v.wording ++ "'" = p := by
  simp only [quote, bind_eq_ok_iff, pure_eq_ok_iff, Value.plain_eq_ok_iff]
  constructor
  · rintro ⟨_, ⟨hv, rfl⟩, rfl⟩
    exact ⟨hv, rfl⟩
  · rintro ⟨hv, rfl⟩
    exact ⟨_, ⟨hv, rfl⟩, rfl⟩

theorem quote_eq_error_iff {f : Failure} : quote v = .error f ↔ v.isShort = false ∧ f = .tooLong := by
  simp only [quote, bind_eq_error_iff, pure_ne_error, and_false, exists_false, or_false,
    Value.plain_eq_error_iff]

end Manifest

namespace Finding

open Manifest

variable {x : Finding} {p : String} {f : Failure}

def isStuck : Finding → Bool
  | stuck _ => true
  | _ => false

def values : Finding → List Value
  | unlisted api | repeatedProvider api _ | unprefixed api _ => [api]
  | repeated s r | unbound s r _ => [r.identifier s]
  | misbound s r => [r.identifier s, r.get "provider_id"]
  | untyped r => [r.identifier .models, r.get "model_type"]
  | dimensionless r => [r.identifier .models]
  | withoutEmbedding r => [r.identifier .vectorDbs, r.get "embedding_model"]
  | withoutDataset r => [r.identifier .benchmarks, r.get "dataset_id"]
  | badPort port => [port]
  | nameless | unknownApi _ | unserved _ | stuck _ => []

def Tellable (x : Finding) : Prop := ∀ v ∈ x.values, v.isShort = true

theorem text_isOk_iff : (∃ p, x.text = .ok p) ↔ x.isStuck = false ∧ x.Tellable := by
  unfold Tellable
  cases x <;> simp only [text, bind_eq_ok_iff, pure_eq_ok_iff, quote_eq_ok_iff, Value.quoted_eq_ok_iff,
    isStuck, values] <;> simp

/-- A finding has no text where checking ends, and where a value cannot be told. -/
theorem text_eq_error (h : x.text = .error f) :
    (∃ v, x = .stuck v ∧ f = unhashable v) ∨ ¬ x.Tellable ∧ f = .tooLong := by
  cases x with
  | stuck v => exact .inl ⟨v, rfl, (Except.error.inj h).symm⟩
  | nameless | unknownApi | unserved => cases h
  | _ =>
      simp only [text, bind_eq_error_iff, pure_ne_error, and_false, exists_false, or_false,
        quote_eq_ok_iff, quote_eq_error_iff, Value.quoted_eq_error_iff] at h
      refine .inr ?_
      simp only [Tellable, values, List.forall_mem_cons]
      grind

theorem texts_isOk_iff {xs : List Finding} :
    (∃ ps, xs.mapM text = .ok ps) ↔ ∀ x ∈ xs, x.isStuck = false ∧ x.Tellable := by
  simp only [exists_mapM_eq_ok_iff, text_isOk_iff]

theorem texts_eq_error {xs : List Finding} (h : xs.mapM text = .error f) :
    (∃ v, .stuck v ∈ xs ∧ f = unhashable v) ∨ (∃ x ∈ xs, ¬ x.Tellable) ∧ f = .tooLong := by
  obtain ⟨as, x, bs, rfl, -, hx⟩ := mapM_eq_error_iff.1 h
  have hmem : x ∈ as ++ x :: bs := by simp
  rcases text_eq_error hx with ⟨v, rfl, hf⟩ | ⟨hlong, hf⟩
  · exact .inl ⟨v, hmem, hf⟩
  · exact .inr ⟨⟨x, hmem, hlong⟩, hf⟩

def opening : Finding → String
  | nameless => "image_name is required"
  | unknownApi _ => "Unknown API '"
  | unserved _ => "API '"
  | unlisted _ => "Providers are configured for "
  | repeatedProvider .. => "Duplicate provider_id '"
  | unprefixed .. => "Provider '"
  | repeated .. => "Duplicate "
  | unbound s _ _ | misbound s _ => s.kind
  | untyped _ => "model "
  | dimensionless _ => "embedding model "
  | withoutEmbedding _ => "vector_db "
  | withoutDataset _ => "benchmark "
  | badPort _ => "server.port must be an integer between 1 and 65535, got "
  | stuck _ => ""

theorem opening_of_text (h : x.text = .ok p) : ∃ t, p = x.opening ++ t := by
  cases x with
  | stuck v => cases h
  | nameless => exact ⟨"", (Except.ok.inj h).symm⟩
  | unknownApi | unserved =>
      simp only [text, String.append_assoc] at h
      exact ⟨_, (Except.ok.inj h).symm⟩
  | _ =>
      simp only [text, bind_eq_ok_iff, pure_eq_ok_iff, String.append_assoc] at h
      obtain ⟨_, -, h⟩ := h
      first
      | exact ⟨_, h.symm⟩
      | obtain ⟨_, -, h⟩ := h
        exact ⟨_, h.symm⟩

def isRepeat : Finding → Bool
  | repeatedProvider .. | repeated .. => true
  | _ => false

/-- Whether a finding is about a manifest as a whole: its name, the names of its APIs or its port. -/
def isGeneral : Finding → Bool
  | nameless | unknownApi _ | unserved _ | unlisted _ | badPort _ => true
  | _ => false

theorem isStuck_of_isGeneral (h : x.isGeneral = true) : x.isStuck = false := by
  cases x <;> first | rfl | cases h

theorem isRepeat_of_isGeneral (h : x.isGeneral = true) : x.isRepeat = false := by
  cases x <;> first | rfl | cases h

/-- All that the texts of findings begin with, those of repetitions and the others. -/
def openings : Bool → List String
  | true => ["Duplicate provider_id '", "Duplicate "]
  | false =>
    ["image_name is required", "Unknown API '", "API '", "Providers are configured for ", "Provider '",
      "model ", "embedding model ", "vector_db ", "benchmark ",
      "server.port must be an integer between 1 and 65535, got "] ++ Section.all.map Section.kind

theorem opening_mem (h : x.text = .ok p) : x.opening ∈ openings x.isRepeat := by
  cases x with
  | stuck v => cases h
  | unbound s r n | misbound s r => cases s <;> simp [isRepeat, opening, openings, Section.all]
  | _ => simp [isRepeat, opening, openings]

/-- Neither text begins the other, so that what follows them does not matter. -/
def Parted (s t : String) : Prop := ¬ s.toList <+: t.toList ∧ ¬ t.toList <+: s.toList

instance (s t : String) : Decidable (Parted s t) := inferInstanceAs (Decidable (_ ∧ _))

theorem not_parted_of_append_eq {s t u w : String} (h : s ++ u = t ++ w) : ¬ Parted s t := by
  have hchars : s.toList ++ u.toList = t.toList ++ w.toList := by
    rw [← String.toList_append, h, String.toList_append]
  rintro ⟨hst, hts⟩
  rcases List.prefix_or_prefix_of_prefix (List.prefix_append s.toList u.toList)
    (hchars ▸ List.prefix_append t.toList w.toList) with hprefix | hprefix
  · exact hst hprefix
  · exact hts hprefix

theorem opening_eq_of_text {o t : String} (h : x.text = .ok (o ++ t))
    (ho : o ∈ ["Unknown API '", "API '", "Providers are configured for "]) : x.opening = o := by
  have htable : ∀ o ∈ ["Unknown API '", "API '", "Providers are configured for "], ∀ b,
      ∀ o' ∈ openings b, o' = o ∨ Parted o o' := by decide
  obtain ⟨u, hu⟩ := opening_of_text h
  exact (htable o ho _ _ (opening_mem h)).resolve_right (not_parted_of_append_eq hu)

theorem startsWith_duplicate (h : x.text = .ok p) : p.startsWith "Duplicate " = x.isRepeat := by
  have hrepeats : ∀ o ∈ openings true, "Duplicate ".toList <+: o.toList := by decide
  have hothers : ∀ o ∈ openings false, Parted "Duplicate " o := by decide
  have hmem := opening_mem h
  obtain ⟨t, rfl⟩ := opening_of_text h
  cases hx : x.isRepeat with
  | true =>
      rw [hx] at hmem
      rw [String.startsWith_string_iff, String.toList_append]
      exact (hrepeats _ hmem).trans (List.prefix_append _ _)
  | false =>
      rw [hx] at hmem
      rw [Bool.eq_false_iff, Ne, String.startsWith_string_iff, String.toList_append]
      intro hprefix
      rcases List.prefix_or_prefix_of_prefix hprefix (List.prefix_append _ _) with hp | hp
      · exact (hothers _ hmem).1 hp
      · exact (hothers _ hmem).2 hp

end Finding
end Provision
