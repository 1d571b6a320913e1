import Provision.Program.Jobs
import Provision.Proofs.Action
import Provision.Proofs.CommandLine.Attached
import Provision.Proofs.Text.Shell
import Provision.Proofs.Value.Shown

namespace Provision

namespace Action

theorem run_printLine (s : String) (w : Session) :
    run (printLine s) w = (.ok (), { w with output := w.output ++ (s ++ "\n") }) := rfl

theorem run_printLines {α : Type} (f : α → String) (xs : List α) (w : Session) :
    run (forIn xs PUnit.unit fun x _ => do printLine (f x); pure (.yield .unit)) w =
      (.ok (), { w with output := w.output ++ String.join (xs.map (f · ++ "\n")) }) := by
  induction xs generalizing w with
  | nil =>
      rw [List.map_nil, String.join_nil, String.append_empty]
      rfl
  | cons x xs ih =>
      rw [List.forIn_cons, run_bind, run_bind, run_printLine]
      dsimp only
      refine (ih _).trans ?_
      rw [List.map_cons, String.join_cons, String.append_assoc]

end Action

namespace Workflow.Job

open Steps Text.Shell

def lines (j : Job) (line : String) : List String := j.env.map exportLine ++ [line]

theorem words_exportLine {name value : String} (h : ∀ c ∈ name.toList, isBare c = true) :
    words (exportLine (name, value)) = some ["export", name ++ "=" ++ value] := by
  have hstart : ∀ c ∈ "export".toList, isBare c = true := List.all_eq_true.1 (by decide)
  have hname : ∀ c ∈ (name ++ "=").toList, isBare c = true := by
    rw [String.toList_append]
    intro c hc
    rcases List.mem_append.1 hc with hc | hc
    · exact h c hc
    · rw [List.mem_singleton.1 hc]
      decide
  have hline : (exportLine (name, value)).toList =
      "export".toList ++ ' ' :: ((name ++ "=").toList ++ (quote value).toList) := by
    simp [exportLine]
  have hquote := wordsFrom_quote (name ++ "=").toList value []
  rw [List.append_nil, wordsFrom, ← String.toList_append, String.ofList_toList] at hquote
  rw [words, hline, wordsFrom_between_bare (by simp) hstart, wordsFrom_gap (by decide),
    wordsFrom_between_bare (by simp) hname, hquote]
  rfl

theorem testType_ofEntry (e : Entry) : (ofEntry e).entry.testType = e.testType := by
  rw [ofEntry]
  split <;> rfl

theorem isBare_of_env (e : Entry) : ∀ v ∈ (ofEntry e).env, ∀ c ∈ v.1.toList, isBare c = true := by
  have hbare : ["LLAMA_STACK_CLIENT_TIMEOUT", "OLLAMA_URL", "TEXT_MODEL", "SAFETY_MODEL", "VLLM_URL"].all
      (fun name => name.toList.all isBare) = true := by decide
  intro v hv
  refine List.all_eq_true.1 (List.all_eq_true.1 hbare v.1 ?_)
  rw [ofEntry] at hv
  split at hv <;> simp [ollama, vllm, baseEnv] at hv <;> grind

variable {j : Job} {suite log line : String} {args : List String}

theorem logFile_of_suite (h : j.entry.testType = .text suite) : j.logFile = .ok ("pytest-" ++ suite ++ ".log") := by
  rw [logFile, h]
  rfl

theorem exists_commandLine (h : j.entry.testType = .text suite) :
    ∃ args line, j.args defaultRoot = .ok args ∧ j.commandLine = .ok line := by
  have hargs : ∃ args, j.args defaultRoot = .ok args := by
    rw [Job.args, h]
    exact ⟨_, rfl⟩
  obtain ⟨args, hargs⟩ := hargs
  exact ⟨args, _, hargs, by rw [commandLine, hargs, logFile_of_suite h]; rfl⟩

theorem words_commandLine (hargs : j.args defaultRoot = .ok args) (hlog : j.logFile = .ok log)
    (hline : j.commandLine = .ok line) : words line = (words log).map (args ++ "|" :: "tee" :: ·) := by
  rw [commandLine, hargs, hlog] at hline
  obtain rfl := Except.ok.inj hline
  have hchars : (join args ++ " | tee " ++ log).toList =
      (join args).toList ++ ' ' :: "| tee ".toList ++ log.toList := by simp
  have htee : wordsFrom .between ("| tee ".toList ++ log.toList) = (words log).map ("|" :: "tee" :: ·) := by
    rw [words]
    change Option.map _ (Option.map _ _) = _
    rw [Option.map_map]
    rfl
  rw [words, hchars, List.append_assoc, List.cons_append, wordsFrom_join_append, htee, Option.map_map]
  rfl

theorem words_commandLine_iff (h : j.entry.testType = .text suite) (hargs : j.args defaultRoot = .ok args)
    (hlog : j.logFile = .ok log) (hline : j.commandLine = .ok line) :
    words line = some (args ++ ["|", "tee", log]) ↔ ∀ c ∈ suite.toList, isBare c = true := by
  obtain rfl : "pytest-" ++ suite ++ ".log" = log := Except.ok.inj ((logFile_of_suite h).symm.trans hlog)
  have hne : "pytest-" ++ suite ++ ".log" ≠ "" := by simp
  have hstart : ∀ c ∈ "pytest-".toList, isBare c = true := List.all_eq_true.1 (by decide)
  have hlast : ∀ c ∈ ".log".toList, isBare c = true := List.all_eq_true.1 (by decide)
  have hwords : words line = some (args ++ ["|", "tee", "pytest-" ++ suite ++ ".log"]) ↔
      words ("pytest-" ++ suite ++ ".log") = some ["pytest-" ++ suite ++ ".log"] := by
    rw [words_commandLine hargs hlog hline]
    cases words ("pytest-" ++ suite ++ ".log") <;> simp
  rw [hwords, words_eq_singleton_iff hne, String.toList_append, String.toList_append]
  simp only [List.forall_mem_append]
  exact ⟨fun h => h.1.2, fun h => ⟨⟨hstart, h⟩, hlast⟩⟩

end Workflow.Job

namespace Program.Jobs

open CommandLine Steps Workflow Text.Shell

variable {t k p l c : String}

def jobGrammar : Grammar := (commands.commands.lookup "command").getD {}

theorem lookup_command : commands.commands.lookup "command" = some jobGrammar := by rfl

theorem command_plain : "command".startsWith "-" = false := by decide +kernel

def entryWords (t k p l c : String) : List String :=
  ["--test-type=" ++ t, "--client-type=" ++ k, "--provider=" ++ p, "--python-version=" ++ l,
    "--client-version=" ++ c]

def entrySwitches (t k p l c : String) (hk : k ∈ ["library", "server"]) : List (Given jobGrammar) :=
  let switch (i : Fin 5) := jobGrammar.switches.get (i.cast rfl)
  [{ name := "--test-type", text := t, switch := switch 0, value := .text t },
    { name := "--client-type", text := k, switch := switch 1, value := .text k
      reads := if_pos (List.elem_iff.2 hk) },
    { name := "--provider", text := p, switch := switch 2, value := .text p },
    { name := "--python-version", text := l, switch := switch 3, value := .text l },
    { name := "--client-version", text := c, switch := switch 4, value := .text c }]

theorem map_line_entrySwitches (hk : k ∈ ["library", "server"]) :
    (entrySwitches t k p l c hk).map Given.line = entryWords t k p l c := by
  rfl

theorem read_entryWords (hk : k ∈ ["library", "server"]) : jobGrammar.read (entryWords t k p l c) =
    .ok ((entrySwitches t k p l c hk).reverse.map Given.entry ++ jobGrammar.fallbacks, []) := by
  have hkeys : (entrySwitches t k p l c hk).map (·.switch.key) = jobGrammar.switches.map (·.key) := by rfl
  rw [← map_line_entrySwitches hk]
  refine Given.read_lines (by decide) (by rfl) _ fun w hw _ => ?_
  have hkey := List.mem_map_of_mem (f := (·.key)) hw
  rwa [← hkeys, List.mem_map] at hkey

def entryNames : List String :=
  ["--test-type", "--client-type", "--provider", "--python-version", "--client-version"]

/-- Before the command is known its switches are read as words that are of no use yet. -/
theorem exists_words_outer (t k p l c : String) :
    ∃ words, commands.outer.words (entryWords t k p l c) = .ok words := by
  have hunknown : ∀ name ∈ entryNames, name.startsWith "--" = true ∧ '=' ∉ name.toList ∧
      ∀ e ∈ commands.outer.spellings, ¬ name.toList <+: e.1.toList := by decide +kernel
  have hword : ∀ name ∈ entryNames, ∀ text, ∃ w, commands.outer.word (name ++ "=" ++ text) = .ok w := by
    intro name hname text
    obtain ⟨hhyphens, hequals, hnone⟩ := hunknown name hname
    exact exists_word_of_unknown hhyphens hequals hnone
  refine exists_words ?_
  simp only [entryWords, List.forall_mem_cons]
  exact ⟨hword "--test-type" (by decide) t, hword "--client-type" (by decide) k,
    hword "--provider" (by decide) p, hword "--python-version" (by decide) l,
    hword "--client-version" (by decide) c, nofun⟩

/-- Every entry can be given, and is then the one of the job. -/
theorem exists_read_entryWords (hk : k ∈ ["library", "server"]) :
    ∃ a, commands.read ("command" :: entryWords t k p l c) = .ok a ∧ a.text "command" = "command" ∧
      a.get "log_level" = .text "WARNING" ∧
      job a = .ofEntry ⟨.text t, .text k, .text p, .text l, .text c⟩ := by
  obtain ⟨words, hwords⟩ := exists_words_outer t k p l c
  have houter := Commands.read_outer_of_words command_plain hwords (by decide)
  rw [Commands.read_of_outer lookup_command houter, read_entryWords hk]
  exact ⟨_, rfl, rfl, rfl, rfl⟩

theorem wish_warning : Log.wish (.text "WARNING") = .ok (.level Level.warning.number) :=
  eq_ok_of_toOption (by decide +kernel)

theorem run_command {a : Args} {line : String} (h : (job a).commandLine = .ok line) (w : Session) :
    Action.run (command a) w = (.ok (.exit 0),
      { w with output := w.output ++ String.join (((job a).lines line).map (· ++ "\n")) }) := by
  rw [command, Action.run_bind, Action.run_printLines]
  dsimp only
  rw [Action.run_bind, Action.run_ofExcept, h]
  dsimp only
  rw [Action.run_bind, Action.run_printLine]
  simp only [Job.lines, List.map_append, List.map_map, List.map_cons, List.map_nil, String.join_append,
    String.join_cons, String.join_nil, String.append_assoc, String.append_empty]
  rfl

theorem run_of_accepted {words : List String} {a : Args} {line : String}
    (h : commands.read words = .ok a) (hcommand : a.text "command" = "command")
    (hlevel : a.get "log_level" = .text "WARNING") (hline : (job a).commandLine = .ok line)
    (w : Session) : ∃ v, Action.run (run words) w = (.ok (.exit 0), v) ∧
      v.output = w.output ++ String.join (((job a).lines line).map (· ++ "\n")) := by
  rw [run, Commands.run, h]
  dsimp only
  rw [Action.run_bind, hlevel, Action.run_setUpLog wish_warning]
  dsimp only
  rw [hcommand]
  exact ⟨_, run_command hline _, rfl⟩

/-- What is printed of an entry: it sets each variable to its value, and is the job's command with its log's
file where all characters of the suite's name stand for themselves, and nowhere else. -/
theorem printed_job_words_iff (hk : k ∈ ["library", "server"]) (w : Session) :
    let j := Job.ofEntry ⟨.text t, .text k, .text p, .text l, .text c⟩
    let ended := Action.run (run ("command" :: entryWords t k p l c)) w
    ∃ args log line, j.args defaultRoot = .ok args ∧ j.logFile = .ok log ∧ j.commandLine = .ok line ∧
      ended.1 = .ok (.exit 0) ∧
      ended.2.output = w.output ++ String.join ((j.env.map Job.exportLine ++ [line]).map (· ++ "\n")) ∧
      (∀ v ∈ j.env, words (Job.exportLine v) = some ["export", v.1 ++ "=" ++ v.2]) ∧
      (words line = some (args ++ ["|", "tee", log]) ↔ ∀ x ∈ t.toList, isBare x = true) := by
  intro j ended
  obtain ⟨a, hread, hcommand, hlevel, hjob⟩ := exists_read_entryWords (t := t) (p := p) (l := l) (c := c) hk
  have htype : j.entry.testType = .text t := Job.testType_ofEntry _
  obtain ⟨args, line, hargs, hline⟩ := Job.exists_commandLine htype
  have hlog := Job.logFile_of_suite htype
  obtain ⟨v, hrun, hprinted⟩ := run_of_accepted hread hcommand hlevel (by rw [hjob, hline]) w
  have hended : ended = (.ok (.exit 0), v) := hrun
  rw [hended]
  refine ⟨args, _, line, hargs, hlog, hline, rfl, ?_,
    fun v hv => Job.words_exportLine (Job.isBare_of_env _ v hv),
    Job.words_commandLine_iff htype hargs hlog hline⟩
  rw [hprinted, hjob]
  rfl

theorem printed_job_words_of_plain_suite :
    let j := Job.ofEntry ⟨.text "inference", .text "server", .text "vllm", .text "3.12", .text "main; ls"⟩
    ∃ args line, j.args defaultRoot = .ok args ∧ j.commandLine = .ok line ∧
      words line = some (args ++ ["|", "tee", "pytest-inference.log"]) := by
  intro j
  obtain ⟨args, log, line, hargs, hlog, hline, -, -, -, hfaithful⟩ := printed_job_words_iff
    (t := "inference") (k := "server") (p := "vllm") (l := "3.12") (c := "main; ls") (by decide) {}
  obtain rfl : "pytest-inference.log" = log := Except.ok.inj (Eq.trans (by rfl) hlog)
  exact ⟨args, line, hargs, hline, hfaithful.2 (List.all_eq_true.1 (by decide))⟩

/-- The name of a suite with a blank in it parts the name of the log's file. -/
theorem printed_job_splits_spaced_suite :
    let j := Job.ofEntry ⟨.text "my suite", .text "library", .text "ollama", .text "3.12", .text "latest"⟩
    ∃ args line, j.args defaultRoot = .ok args ∧ j.logFile = .ok "pytest-my suite.log" ∧
      j.commandLine = .ok line ∧
      (Action.run (run ("command" :: entryWords "my suite" "library" "ollama" "3.12" "latest")) {}).2.output =
        String.join ((j.env.map Job.exportLine ++ [line]).map (· ++ "\n")) ∧
      words line = some (args ++ ["|", "tee", "pytest-my", "suite.log"]) ∧
      words line ≠ some (args ++ ["|", "tee", "pytest-my suite.log"]) := by
  intro j
  have htype : j.entry.testType = .text "my suite" := Job.testType_ofEntry _
  have hlog : j.logFile = .ok "pytest-my suite.log" := by rfl
  obtain ⟨args, line, hargs, hline⟩ := Job.exists_commandLine htype
  have hsplit : words "pytest-my suite.log" = some ["pytest-my", "suite.log"] := by decide +kernel
  refine ⟨args, line, hargs, hlog, hline, ?_, ?_, ?_⟩
  · obtain ⟨a, hread, hcommand, hlevel, hjob⟩ := exists_read_entryWords (t := "my suite") (k := "library")
      (p := "ollama") (l := "3.12") (c := "latest") (by simp)
    obtain ⟨v, hrun, hprinted⟩ := run_of_accepted hread hcommand hlevel (by rw [hjob, hline]) {}
    rw [hrun, hprinted, hjob, String.empty_append]
    rfl
  · rw [Job.words_commandLine hargs hlog hline, hsplit]
    rfl
  · rw [Ne, Job.words_commandLine_iff htype hargs hlog hline, ← List.all_eq_true]
    decide

end Program.Jobs
end Provision
