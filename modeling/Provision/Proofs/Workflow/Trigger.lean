import Provision.Proofs.Action
import Provision.Proofs.Value.Equality
import Provision.Workflow.Trigger

namespace Provision.Workflow

open Provision.Action (run)

variable {env env' : Environment} {w : Session} {payload : Value} {base : Option String} {e : Event}
  {changed : List String} {pattern path s : String}

def wildcards : List Char := ['*', '?', '[']

namespace Piece

theorem ofTextAfter_of_plain {cs : List Char} (h : ∀ c ∈ cs, c ∉ wildcards) :
    ofTextAfter cs 0 = cs.map .char := by
  induction cs with
  | nil => rfl
  | cons c cs ih =>
      obtain ⟨hc, hcs⟩ := List.forall_mem_cons.1 h
      simp only [wildcards, List.mem_cons, List.not_mem_nil, or_false, not_or] at hc
      obtain ⟨hstar, hany, hopen⟩ := hc
      rw [ofTextAfter, if_neg hstar, if_neg hany, if_neg hopen, ih hcs, List.map_cons]

theorem covers_chars_iff {cs ds : List Char} : covers (cs.map .char) ds = true ↔ ds = cs := by
  induction cs generalizing ds with
  | nil => simp [covers]
  | cons c cs ih =>
      cases ds with
      | nil => simp [covers]
      | cons d ds =>
          simp only [List.map_cons, covers, accepts, Bool.and_eq_true, beq_iff_eq, ih, List.cons.injEq]
          exact and_congr_left' eq_comm

end Piece

theorem matchesPattern_iff_of_plain (h : ∀ c ∈ pattern.toList, c ∉ wildcards) :
    matchesPattern pattern path = true ↔ path = pattern := by
  rw [matchesPattern, Piece.ofText, Piece.ofTextAfter_of_plain h, Piece.covers_chars_iff,
    String.toList_inj]

def watchedFiles : List String :=
  ["uv.lock", "pyproject.toml", "requirements.txt", ".github/workflows/integration-tests.yml",
    ".github/actions/setup-ollama/action.yml"]

def watchedDirectories : List String := ["llama_stack/", "tests/"]

/-- A path is one of the watched files, or lies in one of the watched directories. -/
def Watched (path : String) : Prop :=
  path ∈ watchedFiles ∨ ∃ d ∈ watchedDirectories, d.toList <+: path.toList

theorem pathMatches_file_iff {file : String} (h : file ∈ watchedFiles) :
    pathMatches path file = true ↔ path = file := by
  have hfiles : (watchedFiles.all fun f =>
      !f.endsWith "/**" && f.toList.all fun c => !wildcards.contains c) = true := by decide +kernel
  have hfile := List.all_eq_true.1 hfiles file h
  rw [Bool.and_eq_true, Bool.not_eq_true', List.all_eq_true] at hfile
  obtain ⟨hend, hall⟩ := hfile
  have hplain : ∀ c ∈ file.toList, c ∉ wildcards := fun c hc => by simpa using hall c hc
  rw [pathMatches, hend, if_neg Bool.false_ne_true, matchesPattern_iff_of_plain hplain]

theorem pathMatches_directory_iff {d : String} (h : d ∈ watchedDirectories) :
    pathMatches path (d ++ "**") = true ↔ d.toList <+: path.toList := by
  have hdirectories : ∀ d ∈ watchedDirectories,
      (d ++ "**").endsWith "/**" = true ∧ ((d ++ "**").dropEnd 2).toString = d := by decide +kernel
  obtain ⟨hend, hdrop⟩ := hdirectories d h
  rw [pathMatches, if_pos hend, hdrop, String.startsWith_string_iff]

theorem pathMatchesAny_iff_watched : pathMatchesAny watched path = true ↔ Watched path := by
  have hwatched : watched = watchedDirectories.map (· ++ "**") ++ watchedFiles := by decide
  rw [pathMatchesAny, hwatched, List.any_append, Bool.or_eq_true, List.any_map, List.any_eq_true,
    List.any_eq_true, or_comm, Watched]
  refine or_congr ⟨?_, ?_⟩ ⟨?_, ?_⟩
  · rintro ⟨f, hf, hmatches⟩
    rwa [(pathMatches_file_iff hf).1 hmatches]
  · exact fun hpath => ⟨path, hpath, (pathMatches_file_iff hpath).2 rfl⟩
  · rintro ⟨d, hd, hmatches⟩
    exact ⟨d, hd, (pathMatches_directory_iff hd).1 hmatches⟩
  · rintro ⟨d, hd, hlies⟩
    exact ⟨d, hd, (pathMatches_directory_iff hd).2 hlies⟩

theorem anyWatched_eq_ok (changed : List String) :
    anyWatched (changed.map .text) = .ok (changed.any (pathMatchesAny watched)) := by
  induction changed with
  | nil => rfl
  | cons p ps ih =>
      rw [List.map_cons, anyWatched, List.any_cons]
      split
      next h => rw [h, Bool.true_or]
      next h => rw [ih, Bool.eq_false_iff.2 h, Bool.false_or]

theorem branchName_eq_iff {branch : String} (h : ¬ "refs/heads/".toList <+: branch.toList) :
    branchName s = branch ↔ s = branch ∨ s = "refs/heads/" ++ branch := by
  have happ : ("refs/heads/" ++ branch).toList = "refs/heads/".toList ++ branch.toList :=
    String.toList_append
  rw [branchName]
  split
  next hs =>
    obtain ⟨cs, hcs⟩ := String.startsWith_string_iff.1 hs
    have hne : s ≠ branch := by
      rintro rfl
      exact h ⟨cs, hcs⟩
    have hdrop : (s.drop "refs/heads/".length).toString.toList = cs := by
      rw [String.Slice.toString_eq, String.toList_copy_drop, ← hcs, ← String.length_toList,
        List.drop_left]
    rw [← String.toList_inj, hdrop, or_iff_right hne, ← String.toList_inj, happ, ← hcs,
      List.append_cancel_left_eq]
  next hs =>
    refine (or_iff_left ?_).symm
    rintro rfl
    exact hs (String.startsWith_string_iff.2 ⟨branch.toList, happ.symm⟩)

def OfMain (s : String) : Prop := s = "main" ∨ s = "refs/heads/main"

theorem branchName_eq_main_iff : branchName s = mainBranch ↔ OfMain s :=
  branchName_eq_iff (by decide)

/-- The payload of an event, as such payloads are, and the branch that it says a pull request is meant
for, if it does. -/
inductive Targets : Value → Option String → Prop
  | noRequest {a es} (h : Entries.get es "pull_request" = .null) : Targets (.map a es) none
  | noBase {a b es fs} (hrequest : Entries.get es "pull_request" = .map b fs)
      (h : Entries.get fs "base" = .null) : Targets (.map a es) none
  | noRef {a b c es fs gs} (hrequest : Entries.get es "pull_request" = .map b fs)
      (hbase : Entries.get fs "base" = .map c gs) (h : Entries.get gs "ref" = .null) :
      Targets (.map a es) none
  | ref {a b c es fs gs s} (hrequest : Entries.get es "pull_request" = .map b fs)
      (hbase : Entries.get fs "base" = .map c gs) (h : Entries.get gs "ref" = .text s) :
      Targets (.map a es) (some s)

def payloadIn (env : Environment) (t : Tree) : Except Failure Value :=
  match env.nonempty? "GITHUB_EVENT_PATH" with
  | none => .ok (.ofEntries [])
  | some path => if t.contains path then (t.textAt path).bind Json.read else .ok (.ofEntries [])

def eventName (env : Environment) : String := env.getD "GITHUB_EVENT_NAME" "push"

def refOf (env : Environment) : String := env.getD "GITHUB_REF" "refs/heads/main"

def baseRef? (env : Environment) (base : Option String) : Option String :=
  (env.nonempty? "GITHUB_BASE_REF").or (base.filter (· != ""))

/-- What starts the workflow. -/
inductive Triggered (env : Environment) (base : Option String) (changed : List String) : Prop
  | always (h : eventName env = "schedule" ∨ eventName env = "workflow_dispatch")
  | push (h : eventName env = "push") (hmain : OfMain (refOf env))
  | request (h : eventName env = "pull_request")
      (hmain : OfMain ((baseRef? env base).getD (refOf env))) (hwatched : ∃ p ∈ changed, Watched p)

def decision (env : Environment) (changed : List String) : Action Bool := do
  let e ← Event.ofEnvironment env
  Action.ofExcept (shouldRun e none (changed.map .text))

theorem run_readPayload (env : Environment) (w : Session) :
    run (Event.readPayload env) w = (payloadIn env w.tree, w) := by
  rw [Event.readPayload, payloadIn]
  cases env.nonempty? "GITHUB_EVENT_PATH" with
  | none => rfl
  | some path =>
      dsimp only
      rw [Action.run_bind, Action.run_pathExists]
      dsimp only
      split
      next =>
        rw [Action.run_bind, Action.run_readText]
        cases w.tree.textAt path <;> rfl
      next => rfl

theorem member_map (a : Option Nat) (es : Entries) (k : String) :
    member (.map a es) k = .ok (Entries.get es k) := rfl

theorem member_orElse_map (a : Option Nat) (es : Entries) (k : String) :
    member ((Value.map a es).orElse (.ofEntries [])) k = .ok (Entries.get es k) := by
  rw [Value.orElse]
  split
  next => rfl
  next h =>
    obtain rfl : es = [] := by simpa [Value.truthy] using h
    rfl

theorem payloadBaseRef_of_targets (h : Targets payload base) :
    Event.payloadBaseRef payload = .ok (base.elim .null .text) := by
  cases h with
  | noRequest h =>
      simp only [Event.payloadBaseRef, member_map, h, Steps.ok_bind]
      rfl
  | noBase hrequest h =>
      simp only [Event.payloadBaseRef, member_map, hrequest, Steps.ok_bind, member_orElse_map, h]
      rfl
  | noRef hrequest hbase h =>
      simp only [Event.payloadBaseRef, member_map, hrequest, Steps.ok_bind, member_orElse_map, hbase, h]
      rfl
  | ref hrequest hbase h =>
      simp only [Event.payloadBaseRef, member_map, hrequest, Steps.ok_bind, member_orElse_map, hbase, h]
      rfl

theorem member_eq_ok {v value : Value} {k : String} (h : member v k = .ok value) :
    ∃ a es, v = .map a es ∧ Entries.get es k = value := by
  cases v with
  | map a es => exact ⟨a, es, rfl, Except.ok.inj h⟩
  | _ => cases h

theorem member_orElse_eq_ok {v value : Value} {k : String} (hvalue : value ≠ .null)
    (h : member (v.orElse (.ofEntries [])) k = .ok value) :
    ∃ a es, v = .map a es ∧ Entries.get es k = value := by
  rw [Value.orElse] at h
  split at h
  next => exact member_eq_ok h
  -- The empty mapping has nothing at the key.
  next => exact absurd (Except.ok.inj h).symm hvalue

theorem targets_of_payloadBaseRef (h : Event.payloadBaseRef payload = .ok (.text s)) :
    Targets payload (some s) := by
  obtain ⟨request, hrequest, h⟩ := Steps.bind_eq_ok_iff.1 h
  obtain ⟨target, htarget, href⟩ := Steps.bind_eq_ok_iff.1 h
  obtain ⟨a, es, rfl, hes⟩ := member_eq_ok hrequest
  obtain ⟨c, gs, rfl, hgs⟩ := member_orElse_eq_ok (by simp) href
  obtain ⟨b, fs, rfl, hfs⟩ := member_orElse_eq_ok (by simp) htarget
  exact .ref hes hfs hgs

/-- An event is named and has the branches that its environment and its payload say. -/
structure Described (env : Environment) (base : Option String) (e : Event) : Prop where
  name : e.name = .text (eventName env)
  ref : e.ref = .text (refOf env)
  baseRef : e.baseRef = ((env.nonempty? "GITHUB_BASE_REF").or base).elim .null .text

theorem variableD_eq (env : Environment) (name fallback : String) :
    Event.variableD env name (.text fallback) = .text (env.getD name fallback) := by
  rw [Event.variableD, Environment.getD]
  cases env.get? name <;> rfl

theorem ofPayload_described (env : Environment) (h : Targets payload base) :
    ∃ e, Event.ofPayload env payload = .ok e ∧ Described env base e := by
  have hmap : ∃ a es, payload = .map a es := by
    cases h <;> exact ⟨_, _, rfl⟩
  obtain ⟨a, es, rfl⟩ := hmap
  simp only [Event.ofPayload, member, Steps.ok_bind, payloadBaseRef_of_targets h]
  cases hbase : env.nonempty? "GITHUB_BASE_REF" with
  | some s => exact ⟨_, rfl, variableD_eq .., variableD_eq .., by rw [hbase]; rfl⟩
  | none => exact ⟨_, rfl, variableD_eq .., variableD_eq .., by rw [hbase]; rfl⟩

theorem baseRef?_eq_filter (env : Environment) (base : Option String) :
    baseRef? env base = ((env.nonempty? "GITHUB_BASE_REF").or base).filter (· != "") := by
  rw [baseRef?, Environment.nonempty?]
  cases env.get? "GITHUB_BASE_REF" with
  | none => rfl
  | some s => by_cases hs : s = "" <;> simp [Option.filter_some, hs]

def refFor (env : Environment) (base : Option String) : String :=
  if eventName env = "pull_request" then (baseRef? env base).getD (refOf env) else refOf env

theorem Described.targetBranch (h : Described env base e) :
    targetBranch e = .ok (.text (branchName (refFor env base))) := by
  rw [Workflow.targetBranch, h.name, h.ref, h.baseRef, refFor, baseRef?_eq_filter]
  by_cases hname : eventName env = "pull_request"
  · cases hr : (env.nonempty? "GITHUB_BASE_REF").or base with
    | none => simp [hname, Value.same, Value.truthy, branchOf]
    | some s =>
        -- An empty name of a branch counts as none.
        by_cases hs : s = "" <;>
          simp [hname, Value.same, Value.truthy, branchOf, Option.filter_some, hs]
  · simp [hname, Value.same, branchOf]

theorem elem_always_iff {name : String} (hname : e.name = .text name) :
    e.name.elem [.text "schedule", .text "workflow_dispatch"] = true ↔
      name = "schedule" ∨ name = "workflow_dispatch" := by
  simp [Value.elem, Value.same_text_right_iff, hname]

theorem shouldRun_of_always {name : String} (hname : e.name = .text name)
    (h : name = "schedule" ∨ name = "workflow_dispatch") (cs : List Value) :
    shouldRun e none cs = .ok true := by
  rw [shouldRun, if_pos ((elem_always_iff hname).2 h)]
  rfl

theorem shouldRun_of_branch {name branch : String} (hname : e.name = .text name)
    (h : ¬ (name = "schedule" ∨ name = "workflow_dispatch")) (hbranch : targetBranch e = .ok (.text branch))
    (cs : List Value) :
    shouldRun e none cs =
      if branch ≠ mainBranch then .ok false
      else if name = "push" then .ok true
      else if name = "pull_request" then anyWatched cs else .ok false := by
  have hsame (s t : String) : (Value.text s).same (.text t) = true ↔ s = t := by simp [Value.same]
  rw [shouldRun, if_neg (mt (elem_always_iff hname).1 h), hbranch, hname]
  refine if_congr ?_ rfl (if_congr (hsame _ _) rfl (if_congr (hsame _ _) rfl rfl))
  rw [Bool.not_eq_true', ← Bool.not_eq_true, hsame]

theorem triggered_iff_of_branch (h : ¬ (eventName env = "schedule" ∨ eventName env = "workflow_dispatch")) :
    Triggered env base changed ↔ OfMain (refFor env base) ∧
      (eventName env = "push" ∨ eventName env = "pull_request" ∧ ∃ p ∈ changed, Watched p) := by
  constructor
  · rintro (hname | ⟨hname, hmain⟩ | ⟨hname, hmain, hp⟩)
    · exact absurd hname h
    · exact ⟨by rwa [refFor, if_neg (by simp [hname])], .inl hname⟩
    · exact ⟨by rwa [refFor, if_pos hname], .inr ⟨hname, hp⟩⟩
  · rintro ⟨hmain, hname | ⟨hname, hp⟩⟩
    · exact .push hname (by rwa [refFor, if_neg (by simp [hname])] at hmain)
    · exact .request hname (by rwa [refFor, if_pos hname] at hmain) hp

theorem Described.shouldRun (h : Described env base e) (changed : List String) :
    ∃ b, shouldRun e none (changed.map .text) = .ok b ∧ (b = true ↔ Triggered env base changed) := by
  by_cases halways : eventName env = "schedule" ∨ eventName env = "workflow_dispatch"
  · exact ⟨true, shouldRun_of_always h.name halways _, iff_of_true rfl (.always halways)⟩
  rw [shouldRun_of_branch h.name halways h.targetBranch]
  simp only [triggered_iff_of_branch halways, ← branchName_eq_main_iff]
  split
  next hmain => exact ⟨false, rfl, by simp [hmain]⟩
  next hmain =>
    rw [not_not] at hmain
    split
    next hpush => exact ⟨true, rfl, by simp [hmain, hpush]⟩
    next hpush =>
      split
      next hrequest =>
        exact ⟨_, anyWatched_eq_ok changed, by simp [pathMatchesAny_iff_watched, hmain, hrequest]⟩
      next hrequest => exact ⟨false, rfl, by simp [hpush, hrequest]⟩

theorem exists_decision (hpayload : payloadIn env w.tree = .ok payload) (hbase : Targets payload base)
    (changed : List String) :
    ∃ b, run (decision env changed) w = (.ok b, w) ∧ (b = true ↔ Triggered env base changed) := by
  obtain ⟨e, he, hdescribed⟩ := ofPayload_described env hbase
  obtain ⟨b, hb, hiff⟩ := hdescribed.shouldRun changed
  refine ⟨b, ?_, hiff⟩
  rw [decision, Event.ofEnvironment, Action.run_bind, Action.run_bind, run_readPayload, hpayload]
  simp only [Action.run_ofExcept, he, hb]

theorem Triggered.mono {changed' : List String} (h : Triggered env base changed)
    (hsub : changed ⊆ changed') : Triggered env base changed' := by
  cases h with
  | always hname => exact .always hname
  | push hname hmain => exact .push hname hmain
  | request hname hmain hp =>
      obtain ⟨p, hp, hwatched⟩ := hp
      exact .request hname hmain ⟨p, hsub hp, hwatched⟩

theorem triggered_iff_of_request (h : eventName env = "pull_request") :
    Triggered env base changed ↔
      OfMain ((baseRef? env base).getD (refOf env)) ∧ ∃ p ∈ changed, Watched p := by
  rw [triggered_iff_of_branch (by simp [h]), refFor, if_pos h]
  simp [h]

def AlikeBut (name : String) (env env' : Environment) : Prop :=
  ∀ n, n ≠ name → env'.get? n = env.get? n

section

variable (h : AlikeBut "GITHUB_REF" env env')

include h

theorem eventName_of_alike : eventName env' = eventName env := by
  rw [eventName, Environment.getD, h _ (by decide), eventName, Environment.getD]

theorem baseRef?_of_alike : baseRef? env' base = baseRef? env base := by
  rw [baseRef?, Environment.nonempty?, h _ (by decide), baseRef?, Environment.nonempty?]

theorem payloadIn_of_alike (t : Tree) : payloadIn env' t = payloadIn env t := by
  have hpath : env'.nonempty? "GITHUB_EVENT_PATH" = env.nonempty? "GITHUB_EVENT_PATH" := by
    rw [Environment.nonempty?, h _ (by decide), Environment.nonempty?]
  rw [payloadIn, hpath, payloadIn]

theorem triggered_iff_of_alike (hname : eventName env = "pull_request")
    (hbase : (baseRef? env base).isSome = true) :
    Triggered env' base changed ↔ Triggered env base changed := by
  obtain ⟨s, hs⟩ := Option.isSome_iff_exists.1 hbase
  rw [triggered_iff_of_request hname, triggered_iff_of_request ((eventName_of_alike h).trans hname),
    baseRef?_of_alike h, hs, Option.getD_some, Option.getD_some]

end

/-- The workflow runs exactly for what triggers it. The order of the paths does not matter, nor does the
reference of the environment for a pull request that is meant for some branch. -/
theorem decision_iff_triggered (hpayload : payloadIn env w.tree = .ok payload)
    (hbase : Targets payload base) (changed : List String) :
    ∃ b, run (decision env changed) w = (.ok b, w) ∧ (b = true ↔ Triggered env base changed) ∧
      (∀ changed', changed.Perm changed' → run (decision env changed') w = (.ok b, w)) ∧
      (eventName env = "pull_request" → (baseRef? env base).isSome = true →
        ∀ env', AlikeBut "GITHUB_REF" env env' → run (decision env' changed) w = (.ok b, w)) := by
  obtain ⟨b, hb, hiff⟩ := exists_decision hpayload hbase changed
  refine ⟨b, hb, hiff, fun changed' hperm => ?_, fun hname hsome env' halike => ?_⟩
  · obtain ⟨b', hb', hiff'⟩ := exists_decision hpayload hbase changed'
    have hsame : Triggered env base changed' ↔ Triggered env base changed :=
      ⟨fun h => h.mono hperm.symm.subset, fun h => h.mono hperm.subset⟩
    rw [hb', Bool.eq_iff_iff.2 (hiff'.trans (hsame.trans hiff.symm))]
  · obtain ⟨b', hb', hiff'⟩ := exists_decision ((payloadIn_of_alike halike w.tree).trans hpayload) hbase changed
    have hsame : Triggered env' base changed ↔ Triggered env base changed :=
      triggered_iff_of_alike halike hname hsome
    rw [hb', Bool.eq_iff_iff.2 (hiff'.trans (hsame.trans hiff.symm))]

/-- The payload is outside the working directory. The variable for the branch is empty, so that the
payload names it. One path only ends like a watched file; the other order of the paths and another reference
change nothing. -/
theorem decision_iff_triggered_for_request :
    let env (ref : String) : Environment := [("GITHUB_EVENT_NAME", "pull_request"),
      ("GITHUB_EVENT_PATH", "/github/workflow/event.json"), ("GITHUB_BASE_REF", ""), ("GITHUB_REF", ref)]
    let text := "\x7b\"pull_request\": \x7b\"base\": \x7b\"ref\": \"refs/heads/main\"\x7d\x7d\x7d"
    let w : Session :=
      { tree := .ofList [("/github/workflow/event.json", .file (.text text))] ["home", "runner"] }
    let changed := ["docs/uv.lock", "tests/unit/conftest.py"]
    (∃ payload, payloadIn (env "refs/pull/7/merge") w.tree = .ok payload ∧
      Targets payload (some "refs/heads/main")) ∧
      run (decision (env "refs/pull/7/merge") changed) w = (.ok true, w) ∧
      run (decision (env "refs/pull/7/merge") changed.reverse) w = (.ok true, w) ∧
      run (decision (env "refs/heads/feature") changed) w = (.ok true, w) := by
  intro env text w changed
  have hbranch : ((Json.read text >>= Event.payloadBaseRef).toOption.bind Value.text?) =
      some "refs/heads/main" := by decide +kernel
  obtain ⟨v, hv, hmain⟩ := Option.bind_eq_some_iff.1 hbranch
  obtain ⟨payload, hread, hv⟩ := Steps.bind_eq_ok_iff.1 (Steps.eq_ok_of_toOption hv)
  rw [Value.text?_eq_some_iff] at hmain
  have hbase : Targets payload (some "refs/heads/main") := targets_of_payloadBaseRef (hmain ▸ hv)
  have htext : w.tree.textAt "/github/workflow/event.json" = .ok text := by
    have hlines : Text.unifyLines text.toList = text.toList := by decide +kernel
    have hcontent : w.tree.content? "/github/workflow/event.json" = .ok (.text text) := by decide +kernel
    rw [Tree.textAt, if_neg (by decide), hcontent]
    change Content.read (.text text) = _
    rw [Content.read, hlines, String.ofList_toList]
  have hpayload : payloadIn (env "refs/pull/7/merge") w.tree = .ok payload := by
    have hpath : (env "refs/pull/7/merge").nonempty? "GITHUB_EVENT_PATH" =
        some "/github/workflow/event.json" := by decide
    have hthere : w.tree.contains "/github/workflow/event.json" = true := by decide +kernel
    rw [payloadIn, hpath]
    change (if w.tree.contains "/github/workflow/event.json" = true then _ else _) = _
    rw [if_pos hthere, htext]
    exact hread
  have hname : eventName (env "refs/pull/7/merge") = "pull_request" := by decide
  have hsome : baseRef? (env "refs/pull/7/merge") (some "refs/heads/main") = some "refs/heads/main" := by
    decide
  have halike : AlikeBut "GITHUB_REF" (env "refs/pull/7/merge") (env "refs/heads/feature") := by
    intro n hn
    have hlast : (n == "GITHUB_REF") = false := beq_false_of_ne hn
    simp only [env, Environment.get?, List.lookup_cons, hlast]
  obtain ⟨b, hb, hiff, horder, href⟩ := decision_iff_triggered hpayload hbase changed
  have htrue : b = true := by
    refine hiff.2 (.request hname ?_ ⟨"tests/unit/conftest.py", by decide, .inr ⟨"tests/", by decide, ?_⟩⟩)
    · rw [hsome]
      exact .inr rfl
    · decide
  rw [htrue] at hb horder href
  exact ⟨⟨payload, hpayload, hbase⟩, hb, horder _ (List.reverse_perm _).symm,
    href hname (by rw [hsome]; rfl) _ halike⟩

end Provision.Workflow
