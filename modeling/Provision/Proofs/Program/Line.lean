import Provision.Program.Manifests
import Provision.Proofs.CommandLine.Grants

namespace Provision.Program.Manifests

open CommandLine Steps

variable {x y : String} {w : Word} {r r' : Reading} {fuel : Nat} {a : Args}

def output : Switch := { names := ["--output", "-o"], key := "output" }

def grammar : Grammar := { switches := [output], operands := [file] }

def spelled : Spelling := { switch := output, name := "--output" }

theorem lookup_resolve : commands.commands.lookup "resolve" = some grammar := by rfl

theorem resolve_plain : "resolve".startsWith "-" = false := by decide +kernel

theorem word_output : grammar.word "--output" = .ok (.switch "--output" (some spelled)) := by
  have hswitch : "--output".startsWith "-" = true := by decide +kernel
  rw [Grammar.word, hswitch]
  rfl

theorem give_output (r : Reading) (s : String) :
    [(output, [s])].foldlM (fun r e => r.give e.1 e.2) r =
      .ok { r with args := ("output", .text s) :: r.args } := rfl

theorem readWords_nil (g : Grammar) (hr : r.operands = [] ∨ r.operands = [file]) :
    g.readWords (fuel + 1) r [] = .ok r := by
  have htake : Reading.takeOperands r.args r.operands [] = (r.args, r.operands, []) := by
    rcases hr with hr | hr <;> rw [hr] <;> rfl
  rw [Grammar.readWords.eq_def]
  simp [htake]

theorem readWords_output (s : String) (hr : r.operands = [] ∨ r.operands = [file]) :
    grammar.readWords (fuel + 2) r [.switch "--output" (some spelled), .plain s] =
      .ok { r with args := ("output", .text s) :: r.args } := by
  have hnil : grammar.readWords (fuel + 1) { r with args := ("output", .text s) :: r.args } [] =
      .ok { r with args := ("output", .text s) :: r.args } := readWords_nil grammar hr
  rw [Grammar.readWords.eq_def]
  dsimp only
  rw [grants_of_plain rfl rfl, ok_bind]
  simp only [List.append_nil]
  exact hnil

theorem readWords_output_eq_ok (hr : r.operands = [] ∨ r.operands = [file])
    (h : grammar.readWords (fuel + 2) r [.switch "--output" (some spelled), w] = .ok r') :
    ∃ s, w = .plain s ∧ r' = { r with args := ("output", .text s) :: r.args } := by
  cases hw : w.isPlain with
  | false =>
      rw [Grammar.readWords.eq_def] at h
      dsimp only at h
      rw [grants_of_not_plain rfl rfl hw] at h
      cases h
  | true =>
      cases w with
      | plain s => exact ⟨s, rfl, Except.ok.inj (h.symm.trans (readWords_output s hr))⟩
      | separator => cases hw
      | switch => cases hw

theorem readWords_file (hx : x ≠ "--") :
    grammar.readWords (fuel + 1) { operands := [file] }
        [.plain x, .switch "--output" (some spelled), w] =
      grammar.readWords fuel { args := [("manifest", .text x)], operands := [] }
        [.switch "--output" (some spelled), w] := by
  have htake : Reading.takeOperands [] [file] [.plain x, .switch "--output" (some spelled), w] =
      ([("manifest", .text x)], [], [.switch "--output" (some spelled), w]) := by
    have herase : [x].erase "--" = [x] := List.erase_of_not_mem (by simpa using hx.symm)
    simp [Reading.takeOperands, file, Arity.ofOperand, Word.isSeparator, Operand.read, Word.text,
      herase]
  rw [Grammar.readWords.eq_def]
  simp [htake, Word.isSwitch]

/-- A switch in place of the first file takes no plain word, so that the operand is left without one. -/
theorem operands_of_readWords_switch {s : String} {p : Option Spelling}
    (hp : ∀ q, p = some q → q.switch ∈ grammar.allSwitches)
    (h : grammar.readWords 4 { operands := [file] }
      [.switch s p, .switch "--output" (some spelled), w] = .ok r) : r.operands = [file] := by
  rw [Grammar.readWords.eq_def] at h
  cases p with
  | none =>
      obtain ⟨s, -, rfl⟩ := readWords_output_eq_ok (.inr rfl) h
      rfl
  | some p =>
      dsimp only at h
      obtain ⟨⟨granted, extras, left⟩, hgranted, h⟩ := bind_eq_ok_iff.1 h
      obtain ⟨r₁, hgive, h⟩ := bind_eq_ok_iff.1 h
      obtain ⟨ss, more, rfl⟩ := grants_eq_ok hgranted
      have hswitch : p.switch = Switch.help ∨ p.switch = output := by
        simpa [Grammar.allSwitches, grammar] using hp p rfl
      rcases hswitch with hhelp | hout
      · rw [List.foldlM_cons, hhelp, give_help] at hgive
        cases hgive
      · have hone : p.switch.arity = .one := by rw [hout]; rfl
        cases hattached : p.attached with
        | none =>
            rw [grants_of_not_plain hone hattached rfl] at hgranted
            cases hgranted
        | some cs =>
            rw [grants_of_attached hone hattached] at hgranted
            cases hgranted
            rw [hout] at hgive
            obtain rfl := Except.ok.inj ((give_output _ _).symm.trans hgive)
            obtain ⟨s, -, rfl⟩ := readWords_output_eq_ok (.inr rfl) h
            rfl

theorem readWords_separator :
    grammar.readWords 4 { operands := [file] } [.separator, .plain "--output", .plain y] =
      .ok { args := [("manifest", .text "--output")], operands := [], extras := [y] } := by
  rfl

theorem words_separator :
    grammar.words ["--", "--output", y] = .ok [.separator, .plain "--output", .plain y] := by
  rw [Grammar.words, if_pos rfl]
  rfl

theorem words_eq_ok {words : List Word} (hx : x ≠ "--")
    (h : grammar.words [x, "--output", y] = .ok words) :
    ∃ w w', grammar.word x = .ok w ∧ w'.text = y ∧
      words = [w, .switch "--output" (some spelled), w'] := by
  rw [Grammar.words, if_neg hx] at h
  obtain ⟨w, hw, h⟩ := bind_eq_ok_iff.1 h
  obtain ⟨ws, hws, h⟩ := bind_eq_ok_iff.1 h
  rw [Grammar.words, if_neg (by decide), word_output] at hws
  obtain ⟨w₁, hw₁, hws⟩ := bind_eq_ok_iff.1 hws
  cases hw₁
  obtain ⟨us, hus, hws⟩ := bind_eq_ok_iff.1 hws
  obtain rfl := pure_eq_ok_iff.1 hws
  obtain rfl := pure_eq_ok_iff.1 h
  obtain ⟨w', rfl, hw'⟩ := List.map_eq_singleton_iff.1 (texts_of_words hus)
  exact ⟨w, w', hw, hw', rfl⟩

theorem read_grammar_eq_ok {own : Args} (h : grammar.read [x, "--output", y] = .ok (own, [])) :
    own = ("output", .text y) :: ("manifest", .text x) :: grammar.fallbacks := by
  obtain ⟨words, hwords, h⟩ := bind_eq_ok_iff.1 h
  obtain ⟨r, hr, h⟩ := bind_eq_ok_iff.1 h
  split at h
  next hcomplete =>
    rw [Bool.and_eq_true, List.all_eq_true] at hcomplete
    obtain ⟨hown, hextras⟩ := Prod.mk.inj (pure_eq_ok_iff.1 h)
    have hread : r.operands ≠ [file] := by
      intro hfile
      have harity := hcomplete.2 file (by simp [hfile])
      simp [file] at harity
    by_cases hx : x = "--"
    · -- The operand takes the switch, and the last word is of no use.
      subst hx
      rw [← Except.ok.inj (words_separator.symm.trans hwords)] at hr
      rw [← Except.ok.inj (readWords_separator.symm.trans hr)] at hextras
      cases hextras
    · obtain ⟨w, w', hw, hy, rfl⟩ := words_eq_ok hx hwords
      rcases word_eq_ok hw with rfl | rfl | ⟨p, rfl, hp⟩
      · have hrest := (readWords_file hx).symm.trans hr
        obtain ⟨y', rfl, rfl⟩ := readWords_output_eq_ok (.inl rfl) hrest
        obtain rfl : y' = y := hy
        rw [← hown]
        rfl
      -- A word that looks like a switch is not read as a file, whether there is such a switch or not.
      · exact absurd (operands_of_readWords_switch (by simp) hr) hread
      · refine absurd (operands_of_readWords_switch ?_ hr) hread
        rintro q hq
        rwa [← Option.some.inj hq]
  next => cases h

/-- A line that is accepted names the two files, whatever they are called. -/
theorem read_resolve (h : commands.read ["resolve", x, "--output", y] = .ok a) :
    a.text "command" = "resolve" ∧ a.text "manifest" = x ∧ a.get "output" = .text y ∧
      a.get "log_level" = .text "INFO" := by
  obtain ⟨own, hown, rfl⟩ := Commands.read_eq_ok lookup_resolve resolve_plain h
  rw [read_grammar_eq_ok hown]
  exact ⟨rfl, rfl, rfl, rfl⟩

end Provision.Program.Manifests
