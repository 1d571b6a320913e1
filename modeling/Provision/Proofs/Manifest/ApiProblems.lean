import Provision.Proofs.Manifest.Problems

namespace Provision.Manifest

open Steps

variable {m : Manifest} {problems : List String} {api p : String}

theorem mem_problems_iff (h : m.validate = .ok problems) :
    p ∈ problems ↔ ∃ x ∈ m.findings, x.text = .ok p := by
  have hall := mapM_eq_ok_iff.1 h
  constructor
  · intro hp
    exact exists_of_forall₂ hall.flip hp
  · rintro ⟨x, hx, hp⟩
    obtain ⟨q, hq, hxq⟩ := exists_of_forall₂ hall hx
    rw [hp] at hxq
    rwa [Except.ok.inj hxq]

theorem mem_findings_of_checkListed {x : Finding} (hapi : api ∈ m.apis) (h : x ∈ m.checkListed api) :
    x ∈ m.findings := by
  simp only [findings, List.mem_append, List.mem_flatMap, or_assoc]
  exact .inr (.inl ⟨api, hapi, h⟩)

theorem mem_findings_of_checkConfigured {x : Finding} {e : Value × List Provider} (he : e ∈ m.providers)
    (h : x ∈ m.checkConfigured e.1) : x ∈ m.findings := by
  simp only [findings, List.mem_append, List.mem_flatMap, or_assoc]
  exact .inr (.inr (.inl ⟨e, he, h⟩))

theorem unknown_mem_problems_iff (h : m.validate = .ok problems) :
    "Unknown API '" ++ (api ++ "' in apis") ∈ problems ↔ api ∈ m.apis ∧ api ∉ knownApis := by
  rw [mem_problems_iff h]
  constructor
  · rintro ⟨x, hx, htext⟩
    have hopening := x.opening_eq_of_text htext (by simp)
    have hreports := reports_of_mem hx
    cases x with
    | unknownApi a =>
        simp only [Finding.text, Except.ok.injEq, String.append_assoc, String.append_right_inj,
          String.append_left_inj] at htext
        exact htext ▸ hreports
    | unbound s r n | misbound s r => cases s <;> simp [Finding.opening, Section.kind] at hopening
    | _ => simp [Finding.opening] at hopening
  · rintro ⟨hapi, hknown⟩
    refine ⟨.unknownApi api, mem_findings_of_checkListed hapi ?_, by rw [Finding.text, String.append_assoc]⟩
    exact mem_checkListed_iff.2 (.inl ⟨rfl, hknown⟩)

theorem unserved_mem_problems_iff (h : m.validate = .ok problems) :
    "API '" ++ (api ++ "' is listed in apis but has no providers") ∈ problems ↔
      api ∈ m.apis ∧ api ∈ knownApis ∧ m.providersOf api = [] := by
  rw [mem_problems_iff h]
  constructor
  · rintro ⟨x, hx, htext⟩
    have hopening := x.opening_eq_of_text htext (by simp)
    have hreports := reports_of_mem hx
    cases x with
    | unserved a =>
        simp only [Finding.text, Except.ok.injEq, String.append_assoc, String.append_right_inj,
          String.append_left_inj] at htext
        exact htext ▸ hreports
    | unbound s r n | misbound s r => cases s <;> simp [Finding.opening, Section.kind] at hopening
    | _ => simp [Finding.opening] at hopening
  · rintro ⟨hapi, hserved⟩
    refine ⟨.unserved api, mem_findings_of_checkListed hapi ?_, by rw [Finding.text, String.append_assoc]⟩
    exact mem_checkListed_iff.2 (.inr ⟨rfl, hserved⟩)

theorem unlisted_mem_problems_iff (h : m.validate = .ok problems) :
    (∃ t, "Providers are configured for " ++ t ∈ problems) ↔
      ∃ e ∈ m.providers, ¬ ∃ a ∈ m.apis, e.1 = .text a := by
  simp only [mem_problems_iff h]
  constructor
  · rintro ⟨t, x, hx, htext⟩
    have hopening := x.opening_eq_of_text htext (by simp)
    have hreports := reports_of_mem hx
    cases x with
    | unlisted a =>
        obtain ⟨⟨e, he, rfl⟩, hlisted⟩ := hreports
        exact ⟨e, he, hlisted⟩
    | unbound s r n | misbound s r => cases s <;> simp [Finding.opening, Section.kind] at hopening
    | _ => simp [Finding.opening] at hopening
  · rintro ⟨e, he, hlisted⟩
    have hmem := mem_findings_of_checkConfigured he (mem_checkConfigured_iff.2 ⟨rfl, hlisted⟩)
    obtain ⟨p, -, hp⟩ := exists_of_forall₂ (mapM_eq_ok_iff.1 h) hmem
    obtain ⟨t, rfl⟩ := Finding.opening_of_text hp
    exact ⟨t, _, hmem, hp⟩

end Provision.Manifest
