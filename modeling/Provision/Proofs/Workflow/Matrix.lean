import Mathlib.Data.List.Forall2
import Mathlib.Data.List.Nodup
import Provision.Proofs.Action
import Provision.Proofs.Value.Equality
import Provision.Proofs.Value.Shown
import Provision.Workflow.Matrix

namespace Provision.Workflow

open Steps

variable {axis : List Value} {axes : List (List Value)} {row row' : List Value} {testTypes : List Value}
  {event : Event} {e e' : Entry}

def Entry.values (e : Entry) : List Value :=
  [e.testType, e.clientType, e.provider, e.languageVersion, e.clientVersion]

theorem Entry.values_injective : Function.Injective Entry.values := by
  rintro ⟨t, c, p, l, v⟩ ⟨t', c', p', l', v'⟩ h
  simp only [Entry.values, List.cons.injEq, and_true] at h
  obtain ⟨rfl, rfl, rfl, rfl, rfl⟩ := h
  rfl

def axesOf (testTypes providers clientVersions : List Value) : List (List Value) :=
  [testTypes, clientTypes, providers, languageVersions, clientVersions]

/-- On the first axis on which two rows differ, one stands at an earlier position than the other. -/
inductive Precedes : List (List Value) → List Value → List Value → Prop
  | first {axis : List Value} {axes : List (List Value)} {v w : Value} {vs ws : List Value} {i j : Nat}
      (hv : axis[i]? = some v) (hw : axis[j]? = some w) (h : i < j) :
      Precedes (axis :: axes) (v :: vs) (w :: ws)
  | later {axis : List Value} {axes : List (List Value)} {v : Value} {vs ws : List Value}
      (h : Precedes axes vs ws) : Precedes (axis :: axes) (v :: vs) (v :: ws)

def rows : List (List Value) → List (List Value)
  | [] => [[]]
  | axis :: axes => axis.flatMap fun v => (rows axes).map (v :: ·)

theorem values_combinations (testTypes ps vs : List Value) :
    (combinations testTypes ps vs).map Entry.values = rows (axesOf testTypes ps vs) := by
  simp [combinations, rows, axesOf, Entry.values, List.map_eq_flatMap, List.flatMap_assoc]

theorem mem_rows : row ∈ rows axes ↔ List.Forall₂ (· ∈ ·) row axes := by
  induction axes generalizing row with
  | nil => simp [rows]
  | cons axis axes ih =>
      simp only [rows, List.mem_flatMap, List.mem_map, ih, List.forall₂_cons_right_iff]
      constructor
      · rintro ⟨v, hv, vs, hvs, rfl⟩
        exact ⟨v, vs, hv, hvs, rfl⟩
      · rintro ⟨v, vs, hv, hvs, rfl⟩
        exact ⟨v, hv, vs, hvs, rfl⟩

theorem pairwise_position (axis : List Value) :
    axis.Pairwise fun v w => ∃ i j : Nat, axis[i]? = some v ∧ axis[j]? = some w ∧ i < j := by
  rw [List.pairwise_iff_getElem]
  intro i j hi hj h
  exact ⟨i, j, List.getElem?_eq_getElem hi, List.getElem?_eq_getElem hj, h⟩

theorem rows_ordered (axes : List (List Value)) : (rows axes).Pairwise (Precedes axes) := by
  induction axes with
  | nil => exact List.pairwise_singleton _ _
  | cons axis axes ih =>
      rw [rows, List.pairwise_flatMap]
      refine ⟨fun v _ => ?_, (pairwise_position axis).imp ?_⟩
      · rw [List.pairwise_map]
        exact ih.imp .later
      · rintro v w ⟨i, j, hv, hw, h⟩ r hr s hs
        obtain ⟨vs, -, rfl⟩ := List.mem_map.1 hr
        obtain ⟨ws, -, rfl⟩ := List.mem_map.1 hs
        exact .first hv hw h

/-- No row precedes itself where each axis has its values once. -/
theorem not_precedes_self (haxes : ∀ axis ∈ axes, axis.Nodup) : ¬ Precedes axes row row := by
  induction axes generalizing row with
  | nil => rintro ⟨⟩
  | cons axis axes ih =>
      obtain ⟨haxis, haxes⟩ := List.forall_mem_cons.1 haxes
      intro h
      cases h with
      | first hv hw hlt =>
          obtain ⟨hi, -⟩ := List.getElem?_eq_some_iff.1 hv
          have hij := (List.getElem?_inj hi haxis).1 (hv.trans hw.symm)
          omega
      | later h => exact ih haxes h

def Rule.Matches (r : Rule) (e : Entry) : Prop := ∀ f ∈ r, e.get f.1 = f.2

theorem Rule.applies_eq_true_iff {r : Rule} (hr : ∀ f ∈ r, ∃ s, f.2 = .text s) :
    r.applies e = true ↔ r.Matches e := by
  rw [Rule.applies, List.all_eq_true]
  refine forall₂_congr fun f hf => ?_
  obtain ⟨s, hs⟩ := hr f hf
  rw [hs, Value.same_text_right_iff]

theorem isExcluded_eq_false_iff :
    isExcluded defaultRules e = false ↔ ∀ r ∈ defaultRules, ¬ r.Matches e := by
  rw [isExcluded, List.any_eq_false]
  refine forall₂_congr fun r hr => not_congr (Rule.applies_eq_true_iff ?_)
  obtain ⟨t, -, rfl⟩ := List.mem_map.1 hr
  simp

/-- The jobs on some axes: those that no rule excludes, each once, in the order of their positions. -/
structure Exact (axes : List (List Value)) (jobs : List Entry) : Prop where
  mem_iff : ∀ e, e ∈ jobs ↔
    List.Forall₂ (· ∈ ·) e.values axes ∧ ∀ r ∈ defaultRules, ¬ r.Matches e
  once : jobs.Nodup
  ordered : jobs.Pairwise fun e e' => Precedes axes e.values e'.values

theorem exact_combinations {ps vs : List Value} (haxes : ∀ axis ∈ axesOf testTypes ps vs, axis.Nodup) :
    Exact (axesOf testTypes ps vs)
      ((combinations testTypes ps vs).filter fun e => !isExcluded defaultRules e) := by
  have hordered : (combinations testTypes ps vs).Pairwise
      fun e e' => Precedes (axesOf testTypes ps vs) e.values e'.values := by
    rw [← List.pairwise_map, values_combinations]
    exact rows_ordered _
  refine ⟨fun e => ?_, ?_, hordered.filter _⟩
  · rw [List.mem_filter, Bool.not_eq_true', isExcluded_eq_false_iff, ← mem_rows,
      ← values_combinations, List.mem_map_of_injective Entry.values_injective]
  · refine (hordered.filter _).imp ?_
    rintro e _ h rfl
    exact not_precedes_self haxes h

theorem clientVersions_nodup {vs : List Value} (h : clientVersions event = .ok vs) : vs.Nodup := by
  obtain ⟨v, -, h⟩ := bind_eq_ok_iff.1 h
  obtain ⟨all, -, hvs⟩ := bind_eq_ok_iff.1 h
  rw [← pure_eq_ok_iff.1 hvs]
  split <;> simp

theorem providers_nodup {ps : List Value} (h : providers event = .ok ps) : ps.Nodup := by
  rw [providers] at h
  split at h
  next =>
    rw [← Except.ok.inj h]
    simp
  next =>
    obtain ⟨v, -, hps⟩ := bind_eq_ok_iff.1 h
    rw [← pure_eq_ok_iff.1 hps]
    simp

theorem axesOf_nodup {ps vs : List Value} (hdistinct : testTypes.Nodup) (hps : providers event = .ok ps)
    (hvs : clientVersions event = .ok vs) : ∀ axis ∈ axesOf testTypes ps vs, axis.Nodup := by
  have hclients : clientTypes.Nodup := by simp [clientTypes]
  have hlanguages : languageVersions.Nodup := by simp [languageVersions]
  simp [axesOf, hdistinct, hclients, providers_nodup hps, hlanguages, clientVersions_nodup hvs]

theorem exists_input {a : Option Nat} {es : Entries} (h : event.inputs = .map a es) (name : String)
    (fallback : Value) : ∃ v, event.input name fallback = .ok v := by
  rw [Event.input, h]
  exact ⟨_, rfl⟩

theorem input_eq_error (h : ∀ a es, event.inputs ≠ .map a es) (name : String) (fallback : Value) :
    event.input name fallback = .error (lacks event.inputs "get") := by
  have hmember : member event.inputs name = .error (lacks event.inputs "get") := by
    cases hv : event.inputs with
    | map a es => exact absurd hv (h a es)
    | _ => rfl
  rw [Event.input, hmember]
  rfl

theorem exists_providers {a : Option Nat} {es : Entries} (h : event.inputs = .map a es) :
    ∃ ps, providers event = .ok ps := by
  obtain ⟨v, hv⟩ := exists_input h "test-provider" (.text "ollama")
  rw [providers, hv]
  split
  next => exact ⟨_, rfl⟩
  next => exact ⟨_, rfl⟩

def Event.allVersions (event : Event) : Except Failure Value :=
  event.input "test-all-client-versions" (.text "false")

theorem clientVersions_of_isShort {v : Value} (hv : event.allVersions = .ok v) (hshort : v.isShort = true) :
    ∃ vs, clientVersions event = .ok vs := by
  rw [Event.allVersions] at hv
  rw [clientVersions, hv, ok_bind, readsTrue, Value.plain_of_isShort hshort]
  exact ⟨_, rfl⟩

theorem clientVersions_of_long {v : Value} (hv : event.allVersions = .ok v) (hlong : v.isShort = false) :
    clientVersions event = .error .tooLong := by
  rw [Event.allVersions] at hv
  rw [clientVersions, hv, ok_bind, readsTrue, Value.plain_eq_error_iff.2 ⟨hlong, rfl⟩]
  rfl

theorem matrix_eq_error (h : ∀ a es, event.inputs ≠ .map a es) :
    matrix testTypes event = .error (lacks event.inputs "get") := by
  rw [matrix, candidates, providers, clientVersions, input_eq_error h, input_eq_error h]
  split <;> rfl

/-- Expanding gives the matrix and says in the log how many jobs there are. -/
theorem run_expand (testTypes : List Value) (event : Event) (w : Session) :
    ∃ v, Action.run (expand testTypes event) w = (matrix testTypes event, v) ∧ w.Logged v := by
  rw [expand, Action.run_bind, Action.run_ofExcept, matrix]
  cases candidates testTypes event with
  | error f => exact ⟨w, rfl, .refl w⟩
  | ok all =>
      dsimp only
      rw [Action.run_bind, Action.info]
      obtain ⟨v, hv, hlogged⟩ := Action.run_record "testmatrix.matrix" Level.info.number _ w
      rw [hv]
      exact ⟨v, rfl, hlogged⟩

/-- The matrix for an event whose inputs are a mapping has a job for each row of the axes that the event
selects and that no rule excludes, each once and in order. There is no matrix where the inputs are none, or
where one that is read as a text is too long for that. -/
theorem matrix_exact (hdistinct : testTypes.Nodup) (event : Event) :
    (∀ a es, event.inputs = .map a es → ∃ v, event.allVersions = .ok v ∧
      (v.isShort = true → ∃ ps vs jobs,
        providers event = .ok ps ∧ clientVersions event = .ok vs ∧ matrix testTypes event = .ok jobs ∧
          Exact (axesOf testTypes ps vs) jobs) ∧
      (v.isShort = false → matrix testTypes event = .error .tooLong)) ∧
    ((∀ a es, event.inputs ≠ .map a es) →
      matrix testTypes event = .error (lacks event.inputs "get")) ∧
    ∀ w, (Action.run (expand testTypes event) w).1 = matrix testTypes event := by
  refine ⟨?_, matrix_eq_error, ?_⟩
  · intro a es h
    obtain ⟨ps, hps⟩ := exists_providers h
    obtain ⟨v, hv⟩ := exists_input h "test-all-client-versions" (.text "false")
    refine ⟨v, hv, fun hshort => ?_, fun hlong => ?_⟩
    · obtain ⟨vs, hvs⟩ := clientVersions_of_isShort hv hshort
      refine ⟨ps, vs, _, hps, hvs, ?_, exact_combinations (axesOf_nodup hdistinct hps hvs)⟩
      rw [matrix, candidates, hps, hvs]
      rfl
    · rw [matrix, candidates, hps, clientVersions_of_long hv hlong]
      rfl
  · intro w
    obtain ⟨v, hv, -⟩ := run_expand testTypes event w
    rw [hv]

theorem matrix_exact_of_weekly_schedule :
    let testTypes : List Value := [.text "agents", .text "safety"]
    let event : Event :=
      { schedule := vllmSchedule, inputs := .record [("test-all-client-versions", .bool true)] }
    testTypes.Nodup ∧ ∃ jobs, matrix testTypes event = .ok jobs ∧ jobs.length = 8 ∧
      Exact (axesOf testTypes [.text "vllm"] [.text "published", .text "latest"]) jobs := by
  intro testTypes event
  have hdistinct : testTypes.Nodup := by simp [testTypes]
  obtain ⟨v, hv, hexpanded, -⟩ := (matrix_exact hdistinct event).1 _ _ rfl
  obtain rfl : .bool true = v := Except.ok.inj (Eq.trans (by rfl) hv)
  obtain ⟨ps, vs, jobs, hps, hvs, hjobs, hexact⟩ := hexpanded rfl
  have hlength : (matrix testTypes event).toOption.map List.length = some 8 := by decide +kernel
  obtain rfl : [.text "vllm"] = ps := Except.ok.inj (Eq.trans (by rfl) hps)
  obtain rfl : [.text "published", .text "latest"] = vs := Except.ok.inj (Eq.trans (by rfl) hvs)
  refine ⟨hdistinct, jobs, hjobs, ?_, hexact⟩
  rw [hjobs] at hlength
  exact Option.some.inj hlength

end Provision.Workflow
