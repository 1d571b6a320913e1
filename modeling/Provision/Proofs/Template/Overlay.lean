import Mathlib.Data.List.Nodup
import Provision.Proofs.Manifest.ApiProblems
import Provision.Template.Basic

namespace Provision

theorem Manifest.providersOf_of_mem {m : Manifest} {api : String} {ps : List Provider}
    (hkeys : (m.providers.map (·.1)).Nodup) (h : (.text api, ps) ∈ m.providers) :
    m.providersOf api = ps := by
  rw [providersOf]
  cases he : m.providers.find? fun e => (Value.text api).same e.1 with
  | none => simpa [Value.same] using List.find?_eq_none.1 he _ h
  | some e =>
      have hsame : (Value.text api).same e.1 = true := by simpa using List.find?_some he
      have hkey : e.1 = .text api := Value.same_text_iff.1 hsame
      obtain rfl : e = (.text api, ps) :=
        List.inj_on_of_nodup_map hkeys (List.mem_of_find?_eq_some he) h hkey
      rfl

namespace Template

variable {t : Template} {v : Variant} {ps es : List (String × List Provider)}
  {e f : String × List Provider} {file name : String}

/-- Run files, documented variables and APIs are names that stand for one thing each. -/
structure Keyed (t : Template) : Prop where
  runFiles : t.runFiles.Nodup
  documented : (t.documented.map (·.1)).Nodup
  providers : (t.providers.map (·.1)).Nodup
  overrides : ∀ e ∈ t.variants, (e.2.overrides.map (·.1)).Nodup

theorem keys_override :
    (override ps e).map (·.1) = if e.1 ∈ ps.map (·.1) then ps.map (·.1) else ps.map (·.1) ++ [e.1] := by
  induction ps with
  | nil => rfl
  | cons f ps ih =>
      rw [override]
      by_cases h : f.1 = e.1
      · simp [h]
      · have h' : e.1 ≠ f.1 := Ne.symm h
        rw [if_neg h, List.map_cons, ih]
        simp only [List.map_cons, List.mem_cons, h', false_or]
        split <;> rfl

theorem keys_override_nodup (h : (ps.map (·.1)).Nodup) : ((override ps e).map (·.1)).Nodup := by
  rw [keys_override]
  split
  next => exact h
  next hnew =>
    refine List.nodup_append.2 ⟨h, List.nodup_singleton _, ?_⟩
    rintro k hk _ hnewKey rfl
    exact hnew (List.mem_singleton.1 hnewKey ▸ hk)

theorem mem_override_iff (h : (ps.map (·.1)).Nodup) :
    f ∈ override ps e ↔ f = e ∨ f ∈ ps ∧ f.1 ≠ e.1 := by
  induction ps with
  | nil => simp [override]
  | cons g ps ih =>
      obtain ⟨hg, hps⟩ := List.nodup_cons.1 h
      rw [override]
      by_cases hkey : g.1 = e.1
      · have hrest : ∀ f ∈ ps, f.1 ≠ e.1 := by
          intro f hf he
          exact hg (List.mem_map.2 ⟨f, hf, he.trans hkey.symm⟩)
        rw [if_pos hkey, List.mem_cons, List.mem_cons]
        grind
      · rw [if_neg hkey, List.mem_cons, List.mem_cons, ih hps]
        grind

/-- Of the entries with one key, the one that was put last stays. -/
theorem mem_foldl_override_iff (hes : (es.map (·.1)).Nodup) (hps : (ps.map (·.1)).Nodup) :
    f ∈ es.foldl override ps ↔ f ∈ es ∨ f ∈ ps ∧ f.1 ∉ es.map (·.1) := by
  induction es generalizing ps with
  | nil => simp
  | cons e es ih =>
      obtain ⟨he, hes⟩ := List.nodup_cons.1 hes
      rw [List.foldl_cons, ih hes (keys_override_nodup hps), mem_override_iff hps]
      grind

theorem keys_foldl_override_nodup (hps : (ps.map (·.1)).Nodup) :
    ((es.foldl override ps).map (·.1)).Nodup := by
  induction es generalizing ps with
  | nil => exact hps
  | cons e es ih => exact ih (keys_override_nodup hps)

theorem mem_keys_foldl_override_iff :
    name ∈ (es.foldl override ps).map (·.1) ↔ name ∈ ps.map (·.1) ∨ name ∈ es.map (·.1) := by
  induction es generalizing ps with
  | nil => simp
  | cons e es ih =>
      rw [List.foldl_cons, ih, keys_override]
      split <;> simp <;> grind

theorem sorted_pairwise {names : List String} (h : names.Nodup) : (sorted names).Pairwise (· < ·) := by
  have hle : (sorted names).Pairwise (· ≤ ·) := by
    refine (List.pairwise_mergeSort ?_ ?_ names).imp fun hle => ?_
    · intro a b c hab hbc
      simp only [Bool.not_eq_true', decide_eq_false_iff_not, String.not_lt] at hab hbc ⊢
      exact String.le_trans hab hbc
    · intro a b
      simp only [Bool.or_eq_true, Bool.not_eq_true', decide_eq_false_iff_not, String.not_lt]
      exact String.le_total a b
    · simpa only [Bool.not_eq_true', decide_eq_false_iff_not, String.not_lt] using hle
  have hne : (sorted names).Nodup := (List.mergeSort_perm _ _).nodup_iff.2 h
  exact hle.imp₂ (fun a b => Std.lt_of_le_of_ne) hne

theorem runConfig_eq_ok (ht : t.Keyed) (hv : (file, v) ∈ t.variants) :
    t.runConfig file = .ok (t.manifest v) := by
  obtain ⟨as, bs, hsplit⟩ := List.append_of_mem hv
  have hlookup : t.variants.lookup file = some v := by
    refine List.lookup_eq_some_iff.2 ⟨as, bs, hsplit, fun f hf => ?_⟩
    have hnodup := ht.runFiles
    rw [runFiles, hsplit, List.map_append, List.nodup_append] at hnodup
    simpa using Ne.symm (hnodup.2.2 f.1 (List.mem_map_of_mem hf) file (by simp))
  rw [runConfig, hlookup]

theorem runConfig_eq_error (hfile : file ∉ t.runFiles) :
    t.runConfig file = .error (.noRunFile t.name file t.runFiles) := by
  have hlookup : t.variants.lookup file = none := by
    refine List.lookup_eq_none_iff.2 fun f hf => ?_
    rw [bne_iff_ne]
    rintro rfl
    exact hfile (List.mem_map_of_mem hf)
  rw [runConfig, hlookup]

/-- What a manifest takes from a template and from the variant that one of its run files is, and what
its check says of its APIs. -/
structure Overlaid (t : Template) (v : Variant) (m : Manifest) : Prop where
  keys : (m.providers.map (·.1)).Nodup
  mem_providers : ∀ k ps, (k, ps) ∈ m.providers ↔ ∃ api, k = .text api ∧
    ((api, ps) ∈ v.overrides ∨ (api, ps) ∈ t.providers ∧ api ∉ v.overrides.map (·.1))
  mem_apis : ∀ api, api ∈ m.apis ↔ api ∈ t.providers.map (·.1) ∨ api ∈ v.overrides.map (·.1)
  apis : m.apis.Pairwise (· < ·)
  replaced : ∀ rs, (v.models = some rs → m.resources .models = rs) ∧
    (v.toolGroups = some rs → m.resources .toolGroups = rs)
  kept : (v.models = none → m.resources .models = t.models) ∧
    (v.toolGroups = none → m.resources .toolGroups = t.toolGroups)
  listed : ∀ problems, m.validate = .ok problems →
    ∀ rest, "Providers are configured for " ++ rest ∉ problems
  unknown : ∀ problems, m.validate = .ok problems → ∀ api,
    "Unknown API '" ++ (api ++ "' in apis") ∈ problems ↔ api ∈ m.apis ∧ api ∉ Manifest.knownApis
  unserved : ∀ problems, m.validate = .ok problems → ∀ api,
    "API '" ++ (api ++ "' is listed in apis but has no providers") ∈ problems ↔
      api ∈ Manifest.knownApis ∧ (.text api, []) ∈ m.providers

theorem mem_providers_manifest {k : Value} {qs : List Provider} :
    (k, qs) ∈ (t.manifest v).providers ↔ ∃ api, k = .text api ∧ (api, qs) ∈ t.providersOf v := by
  simp only [manifest, List.mem_map, Prod.mk.injEq, Prod.exists]
  constructor
  · rintro ⟨api, ps, hps, rfl, rfl⟩
    exact ⟨api, rfl, hps⟩
  · rintro ⟨api, rfl, hps⟩
    exact ⟨api, qs, hps, rfl, rfl⟩

theorem keys_manifest_nodup (ht : t.Keyed) : ((t.manifest v).providers.map (·.1)).Nodup := by
  have hkeys : (t.manifest v).providers.map (·.1) = ((t.providersOf v).map (·.1)).map .text := by
    simp [manifest]
  rw [hkeys, List.nodup_map_iff fun _ _ => Value.text.inj]
  exact keys_foldl_override_nodup ht.providers

theorem mem_apis_iff_configured :
    name ∈ (t.manifest v).apis ↔ ∃ qs, (.text name, qs) ∈ (t.manifest v).providers := by
  rw [manifest, sorted, List.mem_mergeSort]
  simp

theorem manifest_overlaid (ht : t.Keyed) (hv : (v.overrides.map (·.1)).Nodup) :
    Overlaid t v (t.manifest v) where
  keys := keys_manifest_nodup ht
  mem_providers := by
    intro k qs
    rw [mem_providers_manifest, providersOf]
    simp only [mem_foldl_override_iff hv ht.providers]
  mem_apis := by
    intro api
    rw [manifest, sorted, List.mem_mergeSort, providersOf, mem_keys_foldl_override_iff]
  apis := sorted_pairwise (keys_foldl_override_nodup ht.providers)
  replaced := by
    intro rs
    constructor
    · intro h
      simp [manifest, h]
    · intro h
      simp [manifest, h]
  kept := by
    constructor
    · intro h
      simp [manifest, h]
    · intro h
      simp [manifest, h]
  listed := by
    intro problems h rest hmem
    obtain ⟨⟨k, qs⟩, he, hnot⟩ := (Manifest.unlisted_mem_problems_iff h).1 ⟨rest, hmem⟩
    obtain ⟨api, rfl, -⟩ := mem_providers_manifest.1 he
    exact hnot ⟨api, mem_apis_iff_configured.2 ⟨qs, he⟩, rfl⟩
  unknown := fun problems h api => Manifest.unknown_mem_problems_iff h
  unserved := by
    intro problems h api
    rw [Manifest.unserved_mem_problems_iff h]
    constructor
    · rintro ⟨hapi, hknown, hnone⟩
      obtain ⟨qs, hqs⟩ := mem_apis_iff_configured.1 hapi
      rw [Manifest.providersOf_of_mem (keys_manifest_nodup ht) hqs] at hnone
      exact ⟨hknown, hnone ▸ hqs⟩
    · rintro ⟨hknown, hmem⟩
      exact ⟨mem_apis_iff_configured.2 ⟨_, hmem⟩, hknown,
        Manifest.providersOf_of_mem (keys_manifest_nodup ht) hmem⟩

/-- The manifest of a run file overlays the template with the run file's variant: each API is served by
the providers of the variant where it has some, and of the template else, the APIs are listed in order,
and checking finds no API unlisted, and none unknown or unserved but for its own name or list. There is
no manifest for other files. -/
theorem runConfig_overlays (ht : t.Keyed) (file : String) :
    (∀ v, (file, v) ∈ t.variants → ∃ m, t.runConfig file = .ok m ∧ Overlaid t v m) ∧
    (file ∉ t.runFiles → t.runConfig file = .error (.noRunFile t.name file t.runFiles)) := by
  refine ⟨fun v hv => ⟨t.manifest v, runConfig_eq_ok ht hv, ?_⟩, runConfig_eq_error⟩
  exact manifest_overlaid ht (ht.overrides _ hv)

/-- A run file that takes the providers of one API away, brings another one and wants no tools. -/
theorem runConfig_overlays_for_bare_variant :
    let tgi : Provider := ⟨"tgi", "remote::tgi", []⟩
    let v : Variant := { overrides := [("vector_io", []), ("agents", [tgi])], toolGroups := some [] }
    let t : Template := {
      name := "tiny", description := .text "", image := .text ""
      providers := [("vector_io", [tgi]), ("inference", [tgi])]
      toolGroups := [{ slots := [("toolgroup_id", .text "web")] }]
      variants := [("run.yaml", {}), ("bare.yaml", v)] }
    t.Keyed ∧ ("bare.yaml", v) ∈ t.variants ∧ "other.yaml" ∉ t.runFiles ∧
      (∃ m, t.runConfig "bare.yaml" = .ok m ∧ Overlaid t v m ∧
        (∀ api, api ∈ m.apis ↔ api ∈ ["agents", "inference", "vector_io"]) ∧
        (.text "vector_io", []) ∈ m.providers ∧ (m.resources .toolGroups).isEmpty) ∧
      t.runConfig "other.yaml" = .error (.noRunFile "tiny" "other.yaml" ["run.yaml", "bare.yaml"]) := by
  intro tgi v t
  have ht : t.Keyed := by
    constructor
    · decide
    · decide
    · decide
    · simp [t, v]
  have hv : ("bare.yaml", v) ∈ t.variants := by simp [t]
  have hother : "other.yaml" ∉ t.runFiles := by decide
  obtain ⟨m, hm, hoverlaid⟩ := (runConfig_overlays ht "bare.yaml").1 v hv
  refine ⟨ht, hv, hother, ⟨m, hm, hoverlaid, ?_, ?_, ?_⟩, (runConfig_overlays ht "other.yaml").2 hother⟩
  · intro api
    rw [hoverlaid.mem_apis]
    simp only [t, v, List.map_cons, List.map_nil, List.mem_cons, List.not_mem_nil, or_false]
    tauto
  · exact (hoverlaid.mem_providers _ _).2 ⟨"vector_io", rfl, .inl (by simp [v])⟩
  · rw [(hoverlaid.replaced []).2 rfl]
    rfl

end Template
end Provision
