import Mathlib.Data.List.Infix
import Provision.Proofs.Workflow.Matrix
import Provision.Workflow.Job

namespace Provision.Workflow

open Steps

variable {names : List String} {event : Event} {jobs : List Entry} {i j : Entry} {x y : List Char}
  {c c' l l' v v' : Value}

def releases : List Value := [.text "published", .text "latest"]

theorem mem_releases_of_clientVersions {vs : List Value} (h : clientVersions event = .ok vs)
    (hv : v ∈ vs) : v ∈ releases := by
  obtain ⟨w, -, h⟩ := bind_eq_ok_iff.1 h
  obtain ⟨all, -, hvs⟩ := bind_eq_ok_iff.1 h
  rw [← pure_eq_ok_iff.1 hvs, List.mem_append] at hv
  rcases hv with hv | hv
  · split at hv
    next => simp_all [releases]
    next => cases hv
  · simp_all [releases]

theorem exists_provider {ps : List Value} (h : providers event = .ok ps) : ∃ p, ps = [p] := by
  rw [providers] at h
  split at h
  next => exact ⟨_, (Except.ok.inj h).symm⟩
  next =>
    obtain ⟨p, -, hps⟩ := bind_eq_ok_iff.1 h
    exact ⟨p, (pure_eq_ok_iff.1 hps).symm⟩

/-- What the jobs of one matrix can differ in. -/
structure Entry.Among (names : List String) (provider : Value) (e : Entry) : Prop where
  testType : ∃ name ∈ names, e.testType = .text name
  clientType : e.clientType ∈ clientTypes
  provider : e.provider = provider
  languageVersion : e.languageVersion ∈ languageVersions
  clientVersion : e.clientVersion ∈ releases

theorem among_of_matrix (h : matrix (names.map .text) event = .ok jobs) :
    ∃ p, ∀ e ∈ jobs, e.Among names p := by
  obtain ⟨all, hall, hjobs⟩ := bind_eq_ok_iff.1 h
  obtain ⟨ps, hps, hall⟩ := bind_eq_ok_iff.1 hall
  obtain ⟨vs, hvs, hall⟩ := bind_eq_ok_iff.1 hall
  obtain ⟨p, rfl⟩ := exists_provider hps
  refine ⟨p, fun e he => ?_⟩
  rw [← pure_eq_ok_iff.1 hjobs, ← pure_eq_ok_iff.1 hall] at he
  have hrow := List.mem_map_of_mem (f := Entry.values) (List.mem_filter.1 he).1
  rw [values_combinations, mem_rows] at hrow
  simp only [Entry.values, axesOf, List.forall₂_cons, List.mem_map, List.mem_singleton] at hrow
  obtain ⟨⟨name, hname, htype⟩, hclient, hprovider, hlanguage, hversion, -⟩ := hrow
  exact ⟨⟨name, hname, htype.symm⟩, hclient, hprovider, hlanguage,
    mem_releases_of_clientVersions hvs hversion⟩

def ending (l v : Value) : List Char := '-' :: (l.wording.toList ++ '-' :: v.wording.toList)

theorem eq_of_client_isPrefix (hc : c ∈ clientTypes) (hc' : c' ∈ clientTypes)
    (h : c.wording.toList <+: c'.wording.toList) : c = c' := by
  simp only [clientTypes, List.mem_cons, List.not_mem_nil, or_false] at hc hc'
  rcases hc with rfl | rfl <;> rcases hc' with rfl | rfl <;>
    first
    | rfl
    | exact absurd h (by decide)

theorem eq_of_ending_suffix (hl : l ∈ languageVersions) (hl' : l' ∈ languageVersions)
    (hv : v ∈ releases) (hv' : v' ∈ releases) (h : ending l v <:+ ending l' v') :
    l = l' ∧ v = v' := by
  simp only [languageVersions, releases, List.mem_cons, List.not_mem_nil, or_false] at hl hl' hv hv'
  rcases hl with rfl | rfl <;> rcases hl' with rfl | rfl <;> rcases hv with rfl | rfl <;>
    rcases hv' with rfl | rfl <;>
    first
    | exact ⟨rfl, rfl⟩
    | exact absurd h (by decide)

theorem client_append_inj (hc : c ∈ clientTypes) (hc' : c' ∈ clientTypes)
    (h : c.wording.toList ++ x = c'.wording.toList ++ y) : c = c' ∧ x = y := by
  have hfirst : c.wording.toList <+: c'.wording.toList ++ y := ⟨x, h⟩
  obtain rfl : c = c' := by
    rcases List.prefix_or_prefix_of_prefix hfirst (List.prefix_append _ y) with hp | hp
    · exact eq_of_client_isPrefix hc hc' hp
    · exact (eq_of_client_isPrefix hc' hc hp).symm
  exact ⟨rfl, List.append_cancel_left h⟩

/-- The versions are read off the end of a text. -/
theorem append_ending_inj (hl : l ∈ languageVersions) (hl' : l' ∈ languageVersions)
    (hv : v ∈ releases) (hv' : v' ∈ releases) (h : x ++ ending l v = y ++ ending l' v') :
    x = y ∧ l = l' ∧ v = v' := by
  have hlast : ending l v <:+ y ++ ending l' v' := ⟨x, h⟩
  obtain ⟨rfl, rfl⟩ : l = l' ∧ v = v' := by
    rcases List.suffix_or_suffix_of_suffix hlast (List.suffix_append y _) with hs | hs
    · exact eq_of_ending_suffix hl hl' hv hv' hs
    · obtain ⟨hl'', hv''⟩ := eq_of_ending_suffix hl' hl hv' hv hs
      exact ⟨hl''.symm, hv''.symm⟩
  exact ⟨List.append_cancel_right h, rfl, rfl⟩

theorem entry_ofEntry (e : Entry) : (Job.ofEntry e).entry = e := by
  rw [Job.ofEntry]
  split <;> rfl

def beginning (runId attempt provider : Value) : List Char :=
  "logs-".toList ++ (runId.wording.toList ++ '-' :: (attempt.wording.toList ++
    '-' :: (provider.wording.toList ++ ['-'])))

theorem artifact_eq_ok_iff {e : Entry} {runId attempt : Value} {name : String} :
    (Job.ofEntry e).artifact runId attempt = .ok name ↔
      (∀ v ∈ [runId, attempt, e.provider, e.clientType, e.testType, e.languageVersion, e.clientVersion],
        v.isShort = true) ∧
      "-".intercalate ("logs" :: [runId, attempt, e.provider, e.clientType, e.testType, e.languageVersion,
        e.clientVersion].map Value.wording) = name := by
  rw [Job.artifact, entry_ofEntry]
  simp only [bind_eq_ok_iff, Value.mapM_plain_eq_ok_iff, pure_eq_ok_iff]
  constructor
  · rintro ⟨_, ⟨hshort, rfl⟩, hname⟩
    exact ⟨hshort, hname⟩
  · rintro ⟨hshort, hname⟩
    exact ⟨_, ⟨hshort, rfl⟩, hname⟩

theorem toList_artifact {e : Entry} {runId attempt : Value} {name : String}
    (h : (Job.ofEntry e).artifact runId attempt = .ok name) :
    name.toList = beginning runId attempt e.provider ++ (e.clientType.wording.toList ++
      ('-' :: e.testType.wording.toList ++ ending e.languageVersion e.clientVersion)) := by
  obtain ⟨-, rfl⟩ := artifact_eq_ok_iff.1 h
  simp [beginning, ending]

/-- A job of a matrix has a name for what it leaves behind wherever the run, the attempt and the provider
can be shown. -/
theorem exists_artifact_iff {provider runId attempt : Value} (h : i.Among names provider) :
    (∃ name, (Job.ofEntry i).artifact runId attempt = .ok name) ↔
      runId.isShort = true ∧ attempt.isShort = true ∧ i.provider.isShort = true := by
  have hclients : ∀ v ∈ clientTypes, v.isShort = true := by decide
  have hlanguages : ∀ v ∈ languageVersions, v.isShort = true := by decide
  have hreleases : ∀ v ∈ releases, v.isShort = true := by decide
  obtain ⟨name, -, htype⟩ := h.testType
  have htypes : i.testType.isShort = true := by
    rw [htype]
    rfl
  simp only [artifact_eq_ok_iff, exists_and_left, exists_eq', and_true, List.forall_mem_cons, htypes,
    hclients _ h.clientType, hlanguages _ h.languageVersion, hreleases _ h.clientVersion,
    List.not_mem_nil, false_implies, implies_true]

/-- Different jobs of one matrix leave different names behind in one attempt of a run, whatever the test
suites are called. There is a name wherever the run, the attempt and the provider can be shown. -/
theorem artifacts_apart (h : matrix (names.map .text) event = .ok jobs) (runId attempt : Value) :
    ∀ i ∈ jobs, ((∃ name, (Job.ofEntry i).artifact runId attempt = .ok name) ↔
        runId.isShort = true ∧ attempt.isShort = true ∧ i.provider.isShort = true) ∧
      ∀ j ∈ jobs, i ≠ j → ∀ name name', (Job.ofEntry i).artifact runId attempt = .ok name →
        (Job.ofEntry j).artifact runId attempt = .ok name' → name ≠ name' := by
  obtain ⟨p, hjobs⟩ := among_of_matrix h
  intro i hi
  have hi := hjobs i hi
  refine ⟨exists_artifact_iff hi, ?_⟩
  rintro j hj hne name _ hname hname' rfl
  have hj := hjobs j hj
  have hchars := (toList_artifact hname).symm.trans (toList_artifact hname')
  rw [hi.provider, hj.provider] at hchars
  obtain ⟨hclient, hrest⟩ := client_append_inj hi.clientType hj.clientType
    (List.append_cancel_left hchars)
  obtain ⟨htest, hlanguage, hversion⟩ := append_ending_inj hi.languageVersion hj.languageVersion
    hi.clientVersion hj.clientVersion hrest
  obtain ⟨s, -, hs⟩ := hi.testType
  obtain ⟨t, -, ht⟩ := hj.testType
  have htype : i.testType = j.testType := by
    rw [hs, ht] at htest ⊢
    have hst : s = t := String.toList_inj.1 (List.cons.inj htest).2
    rw [hst]
  refine hne (Entry.values_injective ?_)
  rw [Entry.values, Entry.values, htype, hclient, hi.provider, hj.provider, hlanguage, hversion]

/-- Suites that are called like other suites with versions and a type of client. -/
theorem artifacts_apart_of_dashed_names :
    let names := ["eval", "eval-3.12-latest", "server-eval"]
    let i : Entry := ⟨.text "eval", .text "server", .text "ollama", .text "3.12", .text "latest"⟩
    let j : Entry :=
      ⟨.text "eval-3.12-latest", .text "server", .text "ollama", .text "3.12", .text "latest"⟩
    ∃ jobs, matrix (names.map .text) {} = .ok jobs ∧ i ∈ jobs ∧ j ∈ jobs ∧ i ≠ j ∧
      ∃ name name', (Job.ofEntry i).artifact (.text "1") (.text "1") = .ok name ∧
        (Job.ofEntry j).artifact (.text "1") (.text "1") = .ok name' ∧ name ≠ name' := by
  intro names i j
  let jobs := (combinations (names.map .text) [.text "ollama"] [.text "latest"]).filter
    fun e => !isExcluded defaultRules e
  have hjobs : matrix (names.map .text) {} = .ok jobs := by rfl
  have hi : i ∈ jobs := by
    refine List.mem_filter.2 ⟨?_, by decide⟩
    simp [combinations, names, i, clientTypes, languageVersions]
  have hj : j ∈ jobs := by
    refine List.mem_filter.2 ⟨?_, by decide⟩
    simp [combinations, names, j, clientTypes, languageVersions]
  have hne : i ≠ j := by simp [i, j]
  obtain ⟨hexists, happart⟩ := artifacts_apart hjobs (.text "1") (.text "1") i hi
  obtain ⟨name, hname⟩ := hexists.2 (by decide)
  obtain ⟨name', hname'⟩ := (artifacts_apart hjobs (.text "1") (.text "1") j hj).1.2 (by decide)
  exact ⟨jobs, hjobs, hi, hj, hne, name, name', hname, hname', happart j hj hne name name' hname hname'⟩

end Provision.Workflow
