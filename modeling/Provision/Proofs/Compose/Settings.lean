import Provision.Compose.Settings
import Provision.Proofs.Numeral.Integer
import Provision.Proofs.Steps

namespace Provision.Compose.Settings

open Numeral Steps

variable {env env' : Environment} {s s' : Settings} {name text : String} {f : Failure}

def textNames : List String :=
  ["TGI_IMAGE", "HF_CACHE_DIR", "CUDA_VISIBLE_DEVICES", "LLAMA_STACK_IMAGE", "LLAMA_STACK_RUN_YAML"]

def integerNames : List String :=
  ["TGI_PORT", "NUM_SHARD", "MAX_INPUT_TOKENS", "MAX_TOTAL_TOKENS", "LLAMA_STACK_PORT", "STACK_STARTUP_DELAY"]

/-- A variable whose text is neither empty nor an integer that can be read. -/
def Misread (env : Environment) (name text : String) : Prop :=
  env.get? name = some text ∧ text ≠ "" ∧ ¬ Readable text.toList

def textOr (env : Environment) (name : String) (fallback : Value) : Value :=
  match env.get? name with
  | some text => .text text
  | none => fallback

def integerOr (env : Environment) (name : String) (fallback : Value) : Value :=
  match env.get? name with
  | some text => if text = "" then fallback else .int (denoted text.toList)
  | none => fallback

def overridden (env : Environment) : Settings :=
  let defaults : Settings := {}
  { defaults with
    tgiImage := textOr env "TGI_IMAGE" defaults.tgiImage
    tgiPort := integerOr env "TGI_PORT" defaults.tgiPort
    modelCache := textOr env "HF_CACHE_DIR" defaults.modelCache
    cudaDevices := textOr env "CUDA_VISIBLE_DEVICES" defaults.cudaDevices
    numShard := integerOr env "NUM_SHARD" defaults.numShard
    maxInputTokens := integerOr env "MAX_INPUT_TOKENS" defaults.maxInputTokens
    maxTotalTokens := integerOr env "MAX_TOTAL_TOKENS" defaults.maxTotalTokens
    stackImage := textOr env "LLAMA_STACK_IMAGE" defaults.stackImage
    stackPort := integerOr env "LLAMA_STACK_PORT" defaults.stackPort
    runYaml := textOr env "LLAMA_STACK_RUN_YAML" defaults.runYaml
    startupDelay := integerOr env "STACK_STARTUP_DELAY" defaults.startupDelay }

def value (s : Settings) (field : String) : Value :=
  ((table.lookup field).map fun f => f.1 s).getD .null

def put (s : Settings) (field : String) (v : Value) : Settings := (s.set? field v).getD s

theorem table_lawful : ∀ f ∈ table, ∀ s, f.2.2 s (f.2.1 s) = s := by
  simp [table]

theorem put_value (s : Settings) (field : String) : s.put field (s.value field) = s := by
  rw [put, set?, value]
  cases h : table.lookup field with
  | none => rfl
  | some f =>
      obtain ⟨l, r, he, -⟩ := List.lookup_eq_some_iff.1 h
      exact table_lawful (field, f) (by simp [he]) s

theorem readText_eq (env : Environment) (s : Settings) (v : String × String) :
    readText env s v = s.put v.2 (textOr env v.1 (s.value v.2)) := by
  rw [readText, textOr]
  cases env.get? v.1 with
  | none => exact (put_value s v.2).symm
  | some text => rfl

theorem integer?_of_not_readable (h : ¬ Readable text.toList) :
    ∃ fault, integer? text.toList = .error fault := by
  cases hread : integer? text.toList with
  | ok n => exact absurd (integer?_eq_ok_iff.1 hread).1 h
  | error fault => exact ⟨fault, rfl⟩

theorem integerOr_of_set (h : env.get? name = some text) (fallback : Value) :
    integerOr env name fallback = if text = "" then fallback else .int (denoted text.toList) := by
  rw [integerOr, h]

/-- What reading a variable that should give an integer comes to. -/
theorem readInteger_cases (env : Environment) (s : Settings) (v : String × String) :
    (∃ text, Misread env v.1 text ∧ readInteger env s v = .error (.notInteger v.1 text)) ∨
      (∀ text, ¬ Misread env v.1 text) ∧
        readInteger env s v = .ok (s.put v.2 (integerOr env v.1 (s.value v.2))) := by
  cases hget : env.get? v.1 with
  | none =>
      refine .inr ⟨fun text h => ?_, ?_⟩
      · rw [h.1] at hget
        cases hget
      · rw [readInteger, integerOr, Environment.nonempty?, hget, put_value]
        rfl
  | some text =>
      have hgiven {text' : String} (h : env.get? v.1 = some text') : text' = text :=
        Option.some.inj (h.symm.trans hget)
      rw [integerOr_of_set hget, readInteger, Environment.nonempty?, hget]
      -- An empty text counts as none, although it is no integer.
      by_cases hempty : text = ""
      · subst hempty
        refine .inr ⟨fun text h => h.2.1 (hgiven h.1), ?_⟩
        rw [if_pos rfl, put_value]
        rfl
      · rw [if_neg hempty, Option.filter_some, if_pos (bne_iff_ne.2 hempty)]
        by_cases hread : Readable text.toList
        · refine .inr ⟨fun text' h => h.2.2 (by rwa [hgiven h.1]), ?_⟩
          simp only [integer?_eq_ok_iff.2 ⟨hread, rfl⟩]
          rfl
        · obtain ⟨fault, hfault⟩ := integer?_of_not_readable hread
          exact .inl ⟨text, ⟨hget, hempty, hread⟩, by simp only [hfault]⟩

theorem Misread.unique {text' : String} (h : Misread env name text) (h' : Misread env name text') :
    text = text' :=
  Option.some.inj (h.1.symm.trans h'.1)

theorem readInteger_eq_error_iff (s : Settings) (v : String × String) (f : Failure) :
    readInteger env s v = .error f ↔ ∃ text, Misread env v.1 text ∧ f = .notInteger v.1 text := by
  rcases readInteger_cases env s v with ⟨text, hmis, he⟩ | ⟨hnone, he⟩
  · rw [he, Except.error.injEq]
    constructor
    · rintro rfl
      exact ⟨text, hmis, rfl⟩
    · rintro ⟨text', hmis', rfl⟩
      rw [hmis.unique hmis']
  · rw [he]
    simp [hnone]

theorem readInteger_eq_ok_iff (s : Settings) (v : String × String) (s' : Settings) :
    readInteger env s v = .ok s' ↔
      (∀ text, ¬ Misread env v.1 text) ∧ s.put v.2 (integerOr env v.1 (s.value v.2)) = s' := by
  rcases readInteger_cases env s v with ⟨text, hmis, he⟩ | ⟨hnone, he⟩
  · rw [he]
    constructor
    · rintro ⟨⟩
    · exact fun h => absurd hmis (h.1 text)
  · rw [he, Except.ok.injEq, and_iff_right hnone]

theorem overridden_eq (env : Environment) :
    integerVariables.foldl (fun s v => s.put v.2 (integerOr env v.1 (s.value v.2)))
      (textVariables.foldl (readText env) {}) = overridden env := by
  simp only [readText_eq, textVariables, integerVariables, List.foldl_cons, List.foldl_nil]
  rfl

theorem ofEnvironment_eq_error_iff : ofEnvironment env = .error f ↔
    First (fun name => ¬ ∃ text, Misread env name text)
      (fun name => ∃ text, Misread env name text ∧ f = .notInteger name text) integerNames := by
  have hnames : integerNames = integerVariables.map Prod.fst := rfl
  have hfails (v : String × String) : (∃ f, ∃ text, Misread env v.1 text ∧ f = Failure.notInteger v.1 text) ↔
      ∃ text, Misread env v.1 text := by
    constructor
    · rintro ⟨_, text, h, -⟩
      exact ⟨text, h⟩
    · rintro ⟨text, h⟩
      exact ⟨_, text, h, rfl⟩
  rw [ofEnvironment, foldlM_eq_error_iff readInteger_eq_error_iff, hnames, first_map_iff]
  simp only [hfails]

theorem ofEnvironment_eq_ok_iff : ofEnvironment env = .ok s ↔
    (∀ name ∈ integerNames, ∀ text, ¬ Misread env name text) ∧ overridden env = s := by
  have hnames : integerNames = integerVariables.map Prod.fst := rfl
  rw [ofEnvironment, foldlM_eq_ok_iff readInteger_eq_ok_iff, overridden_eq, hnames, List.forall_mem_map]

/-- Nothing of an environment but the eleven variables decides what it gives. -/
theorem ofEnvironment_congr (h : ∀ name ∈ textNames ++ integerNames, env.get? name = env'.get? name) :
    ofEnvironment env = ofEnvironment env' := by
  obtain ⟨htexts, hintegers⟩ := List.forall_mem_append.1 h
  have hmis {name : String} (hname : name ∈ integerNames) (text : String) :
      Misread env name text ↔ Misread env' name text := by
    rw [Misread, Misread, hintegers name hname]
  have hgiven : overridden env = overridden env' := by
    simp only [textNames, integerNames, List.forall_mem_cons] at htexts hintegers
    simp only [overridden, textOr, integerOr, htexts, hintegers]
  cases he : ofEnvironment env with
  | ok s =>
      obtain ⟨hnone, hs⟩ := ofEnvironment_eq_ok_iff.1 he
      refine (ofEnvironment_eq_ok_iff.2 ⟨fun name hname text => ?_, hgiven ▸ hs⟩).symm
      exact fun hmis' => hnone name hname text ((hmis hname text).2 hmis')
  | error f =>
      refine (ofEnvironment_eq_error_iff.2 ?_).symm
      rw [← first_congr fun name hname => ?_]
      · exact ofEnvironment_eq_error_iff.1 he
      · simp only [hmis hname, and_self]

theorem exists_ofEnvironment_error_iff :
    (∃ f, ofEnvironment env = .error f) ↔ ∃ name ∈ integerNames, ∃ text, Misread env name text := by
  cases he : ofEnvironment env with
  | ok s =>
      have hnone := (ofEnvironment_eq_ok_iff.1 he).1
      simpa using hnone
  | error f =>
      obtain ⟨as, name, bs, hnames, -, text, hmis, -⟩ := ofEnvironment_eq_error_iff.1 he
      simp only [Except.error.injEq, exists_eq', true_iff]
      exact ⟨name, by simp [hnames], text, hmis⟩

/-- An environment gives settings unless a variable is misread, and then the failure tells of the first one and
of its text. -/
theorem settings_of_environment :
    (∀ env f, ofEnvironment env = .error f ↔
      First (fun name => ¬ ∃ text, Misread env name text)
        (fun name => ∃ text, Misread env name text ∧ f = .notInteger name text) integerNames) ∧
    (∀ env, (∃ f, ofEnvironment env = .error f) ↔ ∃ name ∈ integerNames, ∃ text, Misread env name text) ∧
    (∀ name text, (Failure.notInteger name text).message =
      name ++ " must be an integer, got " ++ Value.showText text) ∧
    (∀ env s, ofEnvironment env = .ok s ↔
      (∀ name ∈ integerNames, ∀ text, ¬ Misread env name text) ∧ overridden env = s) ∧
    ∀ env env', (∀ name ∈ textNames ++ integerNames, env.get? name = env'.get? name) →
      ofEnvironment env = ofEnvironment env' := by
  refine ⟨fun env f => ofEnvironment_eq_error_iff, fun env => exists_ofEnvironment_error_iff,
    fun name text => rfl, fun env s => ofEnvironment_eq_ok_iff, fun env env' => ofEnvironment_congr⟩

end Provision.Compose.Settings
