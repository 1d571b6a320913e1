import Provision.Proofs.Action
import Provision.Proofs.CommandLine.Attached
import Provision.Proofs.Json.OneLine
import Provision.Proofs.Text.Lines
import Provision.Workflow.Output

namespace Provision

def Content.appendLines (c : Content) (lines : List String) : Content :=
  lines.foldl (fun c l => c.append (l ++ "\n")) c

def Content.lines (ends : Char → Bool) (c : Content) : Except Failure (List (List Char)) := do
  return Text.lines ends (← c.read).toList

theorem Content.appendLines_text (s : String) (lines : List String) :
    (Content.text s).appendLines lines = .text (s ++ String.join (lines.map (· ++ "\n"))) := by
  induction lines generalizing s with
  | nil => simp [appendLines]
  | cons l lines ih =>
      rw [appendLines, List.foldl_cons, ← appendLines, append, ih, List.map_cons, String.join_cons,
        String.append_assoc]

namespace Workflow

open Steps Json

variable {path : String} {v : Value} {w : Session}

theorem run_writeOutput_of_refused (name : String) {f : Failure} (h : write compact v = .error f) :
    Action.run (writeOutput name v path) w = (.error f, w) := by
  rw [writeOutput, Action.run_bind, Action.run_ofExcept, outputLine, h]
  rfl

/-- A value that holds an integer with too many digits is refused before the file is touched. -/
theorem run_writeOutput_of_long (name path : String) (hjson : v.everywhere Value.isJson = true)
    (hlong : v.everywhere Value.isBrief = false) (w : Session) :
    Action.run (writeOutput name v path) w = (.error .tooLong, w) := by
  have hwritten := written_write oneLine_compact hjson
  rw [hlong] at hwritten
  exact run_writeOutput_of_refused name hwritten

theorem run_writeOutput (name : String) {text : String} (h : write compact v = .ok text)
    (hpath : w.tree.Writable path) :
    ∃ t, w.tree.write path ((w.tree.held path).append (name ++ "=" ++ text ++ "\n")) = .ok t ∧
      Action.run (writeOutput name v path) w = (.ok (name ++ "=" ++ text), { w with tree := t }) := by
  obtain ⟨t, ht, hrun⟩ := Action.run_appendText_of_writable hpath (name ++ "=" ++ text ++ "\n")
  refine ⟨t, ht, ?_⟩
  have henv : Action.run Action.environment w = (.ok w.env, w) := rfl
  have hne : path ≠ "" := Tree.ne_empty_of_writable hpath
  have hline : outputLine name v = .ok (name ++ "=" ++ text) := by
    rw [outputLine, h]
    rfl
  rw [writeOutput, Action.run_bind, Action.run_ofExcept, hline]
  dsimp only
  rw [Action.run_bind, henv]
  dsimp only
  rw [if_neg hne, if_neg hne, Action.run_bind, hrun]
  rfl

variable {os : List (String × Value)} {texts : List String}

def outputLines (os : List (String × Value)) (texts : List String) : List String :=
  List.zipWith (fun o t => o.1 ++ "=" ++ t) os texts

/-- One output after the other goes to the end of the file, and nothing else changes. -/
theorem run_writeOutputs (h : List.Forall₂ (fun o t => write compact o.2 = .ok t) os texts)
    (hpath : w.tree.Writable path) :
    ∃ t, Action.run (os.mapM fun o => writeOutput o.1 o.2 path) w =
        (.ok (outputLines os texts), { w with tree := t }) ∧
      t.held path = (w.tree.held path).appendLines (outputLines os texts) ∧
      w.tree.Keeps (fun p => w.tree.place? path = some p) t := by
  induction h generalizing w with
  | nil => exact ⟨w.tree, rfl, rfl, .refl _⟩
  | @cons o text os texts ho _ ih =>
      obtain ⟨t, hwrite, hrun⟩ := run_writeOutput o.1 ho hpath
      obtain ⟨t', hrest, hheld, hkeeps⟩ := ih (w := { w with tree := t }) (Tree.writable_of_write hpath hwrite)
      have hfirst := Tree.keeps_write hwrite
      rw [Tree.place?_eq_of_cwd hfirst.cwd] at hkeeps
      refine ⟨t', ?_, ?_, hfirst.trans hkeeps⟩
      · rw [List.mapM_cons, Action.run_bind, hrun]
        dsimp only
        rw [Action.run_bind, hrest]
        rfl
      · rw [hheld, Tree.held_of_write hwrite]
        rfl

theorem isLineEnd_of_isVisible {c : Char} (h : isVisible c = true) : Text.isLineEnd c = false := by
  have hends : ['\n', '\r', '\x0b', '\x0c', '\x1c', '\x1d', '\x1e', '\x85', '\u2028', '\u2029'].all
      (fun e => !isVisible e) = true := by decide
  rw [Text.isLineEnd, Bool.eq_false_iff]
  intro hc
  have hnot := List.all_eq_true.1 hends c (List.contains_iff_mem.1 hc)
  rw [h] at hnot
  cases hnot

def IsOutputName (name : String) : Prop := ∀ c ∈ name.toList, c ≠ '=' ∧ Text.isLineEnd c = false

instance (name : String) : Decidable (IsOutputName name) :=
  decidable_of_iff (name.toList.all (fun c => c != '=' && !Text.isLineEnd c) = true) (by simp [IsOutputName])

theorem isLineEnd_of_outputLine {name text : String} (hname : IsOutputName name) (htext : Visible text.toList) :
    ∀ c ∈ (name ++ "=" ++ text).toList, Text.isLineEnd c = false := by
  simp only [String.toList_append, List.mem_append]
  rintro c ((hc | hc) | hc)
  · exact (hname c hc).2
  · rw [List.mem_singleton.1 hc]
    decide
  · exact isLineEnd_of_isVisible (htext c hc)

theorem splitEquals_outputLines {P : String × Value → String → Prop} (hnames : ∀ o ∈ os, IsOutputName o.1)
    (h : List.Forall₂ P os texts) : ((outputLines os texts).map fun l => CommandLine.splitEquals l.toList) =
      List.zipWith (fun o s => (o.1.toList, some s.toList)) os texts := by
  induction h with
  | nil => rfl
  | @cons o s os texts _ _ ih =>
      obtain ⟨ho, hos⟩ := List.forall_mem_cons.1 hnames
      have hcut : CommandLine.splitEquals (o.1 ++ "=" ++ s).toList = (o.1.toList, some s.toList) :=
        CommandLine.splitEquals_append fun hmem => (ho '=' hmem).1 rfl
      exact congrArg₂ List.cons hcut (ih hos)

theorem exists_of_mem_outputLines {P : String × Value → String → Prop} (h : List.Forall₂ P os texts)
    {l : String} (hl : l ∈ outputLines os texts) : ∃ o ∈ os, ∃ t, P o t ∧ l = o.1 ++ "=" ++ t := by
  induction h with
  | nil => cases hl
  | @cons o t os texts ho _ ih =>
      rcases List.mem_cons.1 hl with rfl | hl
      · exact ⟨o, List.mem_cons_self, t, ho, rfl⟩
      · obtain ⟨o', ho', t', hP, he⟩ := ih hl
        exact ⟨o', List.mem_cons_of_mem _ ho', t', hP, he⟩

theorem exists_texts (h : ∀ o ∈ os, o.2.everywhere Value.isJson = true ∧ o.2.everywhere Value.isBrief = true) :
    ∃ texts, List.Forall₂ (fun o t => write compact o.2 = .ok t ∧ Visible t.toList) os texts := by
  induction os with
  | nil => exact ⟨[], .nil⟩
  | cons o os ih =>
      obtain ⟨⟨hjson, hbrief⟩, hos⟩ := List.forall_mem_cons.1 h
      obtain ⟨texts, htexts⟩ := ih hos
      have hwritten := written_write oneLine_compact hjson
      rw [hbrief] at hwritten
      obtain ⟨t, ht⟩ : ∃ t, write compact o.2 = .ok t ∧ Visible t.toList := hwritten
      exact ⟨t :: texts, .cons ht htexts⟩

theorem lines_appendLines {old : String} {lines : List String} {ends : Char → Bool}
    (hold : old = "" ∨ ∃ s, old = s ++ "\n") (hfeed : ends '\n' = true)
    (hends : ∀ c, ends c = true → Text.isLineEnd c = true)
    (hlines : ∀ l ∈ lines, ∀ c ∈ l.toList, Text.isLineEnd c = false) :
    ((Content.text old).appendLines lines).lines ends = do
      return (← (Content.text old).lines ends) ++ lines.map String.toList := by
  have hjoin : (String.join (lines.map (· ++ "\n"))).toList =
      (lines.map String.toList).flatMap (· ++ ['\n']) := by
    simp [String.toList_join, List.flatMap_map]
  have hold' : old.toList = [] ∨ ∃ cs, old.toList = cs ++ ['\n'] := by
    rcases hold with rfl | ⟨s, rfl⟩
    · exact .inl rfl
    · exact .inr ⟨s.toList, String.toList_append⟩
  have hnone : ∀ l ∈ lines.map String.toList, ∀ c ∈ l, ends c = false ∧ c ≠ '\r' := by
    intro l hl c hc
    obtain ⟨s, hs, rfl⟩ := List.mem_map.1 hl
    have hc := hlines s hs c hc
    refine ⟨Bool.eq_false_iff.2 fun he => ?_, ?_⟩
    · rw [hends c he] at hc
      cases hc
    · rintro rfl
      exact absurd hc (by decide)
  have hread := Text.lines_unifyLines_append hfeed hold' hnone
  rw [Content.appendLines_text, Content.lines, Content.lines, Content.read, Content.read, String.toList_append,
    hjoin]
  simp only [ok_bind, String.toList_ofList, hread]
  rfl

/-- What outputs with these texts have made of a file: each is a line after what it held. Their texts have
nothing that ends a line, and so the lines are read back, whatever a reader takes to end lines, and cut
where the name ends. -/
structure OnLines (path : String) (os : List (String × Value)) (texts : List String) (t t' : Tree) :
    Prop where
  written : List.Forall₂ (fun o s => write compact o.2 = .ok s ∧ ∀ c ∈ s.toList, Text.isLineEnd c = false)
    os texts
  held : t'.held path = (t.held path).appendLines (outputLines os texts)
  others : t.Keeps (fun p => t.place? path = some p) t'
  read : ∀ old, t.held path = .text old → (old = "" ∨ ∃ s, old = s ++ "\n") →
    ∀ ends : Char → Bool, ends '\n' = true → (∀ c, ends c = true → Text.isLineEnd c = true) →
      (t'.held path).lines ends = do
        return (← (t.held path).lines ends) ++ (outputLines os texts).map String.toList
  cut : ((outputLines os texts).map fun l => CommandLine.splitEquals l.toList) =
    List.zipWith (fun o s => (o.1.toList, some s.toList)) os texts

/-- Outputs that are written one after the other do not run into each other. -/
theorem outputs_on_lines (hpath : w.tree.Writable path) (hnames : ∀ o ∈ os, IsOutputName o.1)
    (hvalues : ∀ o ∈ os, o.2.everywhere Value.isJson = true ∧ o.2.everywhere Value.isBrief = true) :
    ∃ texts t, Action.run (os.mapM fun o => writeOutput o.1 o.2 path) w =
      (.ok (outputLines os texts), { w with tree := t }) ∧ OnLines path os texts w.tree t := by
  obtain ⟨texts, htexts⟩ := exists_texts hvalues
  obtain ⟨t, hrun, hheld, hkeeps⟩ := run_writeOutputs (htexts.imp fun _ _ h => h.1) hpath
  have hlines : ∀ l ∈ outputLines os texts, ∀ c ∈ l.toList, Text.isLineEnd c = false := by
    intro l hl
    obtain ⟨o, ho, s, hs, rfl⟩ := exists_of_mem_outputLines htexts hl
    exact isLineEnd_of_outputLine (hnames o ho) hs.2
  refine ⟨texts, t, hrun, ?_⟩
  exact
    { written := htexts.imp fun _ _ h => ⟨h.1, fun c hc => isLineEnd_of_isVisible (h.2 c hc)⟩
      held := hheld
      others := hkeeps
      read := by
        intro old hheld' hold ends hfeed hends
        rw [hheld, hheld', lines_appendLines hold hfeed hends hlines]
      cut := splitEquals_outputLines hnames htexts }

theorem outputs_on_lines_of_marks :
    let w : Session :=
      { tree := Tree.ofList [("/runner/outputs", .file (.text "x=1\n"))] ["home", "runner"] }
    let os := [("names", Value.ofList [.text "a\nb"]), ("marks", .ofEntries [(.text "=\u2028", .null)])]
    ∃ t, Action.run (os.mapM fun o => writeOutput o.1 o.2 "/runner/outputs") w =
        (.ok ["names=[\"a\\nb\"]", "marks=\x7b\"=\\u2028\":null\x7d"], { w with tree := t }) ∧
      t.held "/runner/outputs" = .text "x=1\nnames=[\"a\\nb\"]\nmarks=\x7b\"=\\u2028\":null\x7d\n" := by
  intro w os
  have hpath : w.tree.Writable "/runner/outputs" := ⟨by decide, ["runner", "outputs"], some _, by rfl⟩
  have hnames : ∀ o ∈ os, IsOutputName o.1 := by decide
  have hvalues : ∀ o ∈ os, o.2.everywhere Value.isJson = true ∧ o.2.everywhere Value.isBrief = true := by
    decide
  obtain ⟨texts, t, hrun, hlines⟩ := outputs_on_lines hpath hnames hvalues
  have hfirst : write compact (.ofList [.text "a\nb"]) = .ok "[\"a\\nb\"]" := by rfl
  have hsecond : write compact (.ofEntries [(.text "=\u2028", .null)]) = .ok "\x7b\"=\\u2028\":null\x7d" := by rfl
  have htexts := hlines.written
  simp only [os, List.forall₂_cons_left_iff, List.forall₂_nil_left_iff] at htexts
  obtain ⟨s, _, ⟨hs, -⟩, ⟨s', _, ⟨hs', -⟩, rfl, rfl⟩, rfl⟩ := htexts
  obtain rfl := Except.ok.inj (hs.symm.trans hfirst)
  obtain rfl := Except.ok.inj (hs'.symm.trans hsecond)
  exact ⟨t, hrun, hlines.held⟩

/-- An integer with one digit too many is a value that JSON knows, and has no line. -/
theorem no_output_of_long_integer :
    let n : Value := .int (Nat.pow 10 Numeral.digitLimit)
    n.everywhere Value.isJson = true ∧ IsOutputName "n" ∧
      Action.run (writeOutput "n" n "out.txt") {} = (.error .tooLong, {}) ∧
      ∀ line, Tree.held {} "out.txt" ≠ (Tree.held {} "out.txt").append (line ++ "\n") := by
  intro n
  have hlong : isLong (Nat.pow 10 Numeral.digitLimit) = true := isLong_longInteger
  have hbrief : n.everywhere Value.isBrief = false := by
    simp only [n, Value.everywhere, Value.isBrief, hlong, Bool.not_true]
  refine ⟨rfl, by decide, run_writeOutput_of_long "n" "out.txt" rfl hbrief {}, fun line => ?_⟩
  have hempty : Tree.held {} "out.txt" = .text "" := by rfl
  simp [hempty, Content.append]

end Workflow
end Provision
