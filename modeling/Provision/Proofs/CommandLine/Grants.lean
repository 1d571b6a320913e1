import Provision.CommandLine.Parse
import Provision.Proofs.Steps

namespace Provision.CommandLine

open Steps

variable {g : Grammar} {s name : String} {p : Spelling} {w : Word} {words left : List Word}
  {switch : Switch} {granted : Grants} {args extras : List String} {fuel : Nat}

theorem mem_allSwitches_of_spellings (h : (name, switch) ∈ g.spellings) : switch ∈ g.allSwitches := by
  obtain ⟨w, hw, hname⟩ := List.mem_flatMap.1 h
  obtain ⟨n, -, he⟩ := List.mem_map.1 hname
  rwa [← (Prod.mk.inj he).2]

theorem mem_allSwitches_of_switch? (h : g.switch? name = some switch) : switch ∈ g.allSwitches := by
  rw [Grammar.switch?, List.lookup_eq_some_iff] at h
  obtain ⟨before, after, hspellings, -⟩ := h
  have hmem : (name, switch) ∈ g.spellings := by simp [hspellings]
  exact mem_allSwitches_of_spellings hmem

theorem mem_allSwitches_of_spelled? (h : g.spelled? s = some p) : p.switch ∈ g.allSwitches := by
  rw [Grammar.spelled?] at h
  split at h
  next switch hswitch =>
    rw [← Option.some.inj h]
    exact mem_allSwitches_of_switch? hswitch
  next =>
    generalize splitEquals s.toList = e at h
    obtain ⟨full, attached⟩ := e
    dsimp only at h
    split at h
    next => cases h
    next =>
      obtain ⟨switch, hswitch, rfl⟩ := Option.map_eq_some_iff.1 h
      exact mem_allSwitches_of_switch? hswitch

theorem mem_allSwitches_of_candidates (h : p ∈ g.candidates s) : p.switch ∈ g.allSwitches := by
  rw [Grammar.candidates] at h
  split at h
  next =>
    generalize splitEquals s.toList = e at h
    obtain ⟨⟨full, switch⟩, hspelling, hp⟩ := List.mem_filterMap.1 h
    dsimp only at hp
    split at hp
    next =>
      rw [← Option.some.inj hp]
      exact mem_allSwitches_of_spellings hspelling
    next => cases hp
  next =>
    obtain ⟨⟨full, switch⟩, hspelling, hp⟩ := List.mem_filterMap.1 h
    dsimp only at hp
    split at hp
    next =>
      rw [← Option.some.inj hp]
      exact mem_allSwitches_of_spellings hspelling
    next =>
      split at hp
      next =>
        rw [← Option.some.inj hp]
        exact mem_allSwitches_of_spellings hspelling
      next => cases hp

/-- A word stands for itself, or spells a switch of the grammar, or looks like one and is none. -/
theorem word_eq_ok (h : g.word s = .ok w) :
    w = .plain s ∨ w = .switch s none ∨ ∃ p, w = .switch s (some p) ∧ p.switch ∈ g.allSwitches := by
  rw [Grammar.word] at h
  split at h
  next => exact .inl (Except.ok.inj h).symm
  next =>
    split at h
    next p hp => exact .inr (.inr ⟨p, (Except.ok.inj h).symm, mem_allSwitches_of_spelled? hp⟩)
    next =>
      split at h
      next => exact .inl (Except.ok.inj h).symm
      next =>
        split at h
        next p hp =>
          refine .inr (.inr ⟨p, (Except.ok.inj h).symm, mem_allSwitches_of_candidates (s := s) ?_⟩)
          rw [hp]
          exact List.mem_singleton_self p
        next =>
          split at h
          next => exact .inl (Except.ok.inj h).symm
          next => exact .inr (.inl (Except.ok.inj h).symm)
        next => cases h

theorem text_of_word (h : g.word s = .ok w) : w.text = s := by
  rcases word_eq_ok h with rfl | rfl | ⟨p, rfl, -⟩ <;> rfl

theorem texts_of_words {args : List String} (h : g.words args = .ok words) :
    words.map Word.text = args := by
  induction args generalizing words with
  | nil =>
      rw [← Except.ok.inj h]
      rfl
  | cons s args ih =>
      rw [Grammar.words] at h
      split at h
      next hs =>
        rw [← Except.ok.inj h, hs]
        simp [Word.text, Function.comp_def]
      next =>
        obtain ⟨w, hw, h⟩ := bind_eq_ok_iff.1 h
        obtain ⟨ws, hws, h⟩ := bind_eq_ok_iff.1 h
        rw [← pure_eq_ok_iff.1 h, List.map_cons, text_of_word hw, ih hws]

theorem grants_of_plain (hone : p.switch.arity = .one) (hp : p.attached = none) :
    g.grants (.plain s :: words) (fuel + 1) p = .ok ([(p.switch, [s])], [], words) := by
  rw [Grammar.grants, hp, hone]
  rfl

theorem grants_of_not_plain (hone : p.switch.arity = .one) (hp : p.attached = none)
    (hw : w.isPlain = false) : g.grants (w :: words) (fuel + 1) p = .error .refused := by
  rw [Grammar.grants, hp, hone]
  simp [Arity.ofSwitch, hw]

theorem grants_of_attached {cs : List Char} (hone : p.switch.arity = .one)
    (hp : p.attached = some cs) :
    g.grants words (fuel + 1) p = .ok ([(p.switch, [String.ofList cs])], [], words) := by
  rw [Grammar.grants, hp, hone]
  rfl

/-- Whatever a word spells, its own switch comes first. -/
theorem grants_eq_ok (h : g.grants words fuel p = .ok (granted, extras, left)) :
    ∃ ss more, granted = (p.switch, ss) :: more := by
  cases fuel with
  | zero => cases h
  | succ fuel =>
      rw [Grammar.grants] at h
      split at h
      next =>
        split at h
        next =>
          cases h
          exact ⟨_, _, rfl⟩
        next => cases h
      next =>
        split at h
        next =>
          cases h
          exact ⟨_, _, rfl⟩
        next =>
          split at h
          next => cases h
          next =>
            split at h
            next => cases h
            next =>
              dsimp only at h
              split at h
              next =>
                cases h
                exact ⟨_, _, rfl⟩
              next =>
                obtain ⟨⟨more, _, _⟩, -, h⟩ := bind_eq_ok_iff.1 h
                cases h
                exact ⟨_, _, rfl⟩

theorem give_help (r : Reading) (ss : List String) : r.give Switch.help ss = .error .help := rfl

/-- The operand that takes all that follows takes all words of a line that begins with a plain one. -/
theorem readWords_of_rest {o : Operand} {r : Reading} (ho : r.operands = [o]) (hrest : o.arity = .rest) :
    g.readWords (fuel + 1) r (.plain s :: words) = .ok
      { r with args := (o.key, .ofList ((s :: words.map Word.text).map .text)) :: r.args
               operands := [] } := by
  have htake : Reading.takeOperands r.args r.operands (.plain s :: words) =
      ((o.key, .ofList ((s :: words.map Word.text).map .text)) :: r.args, [], []) := by
    have hall : o.arity.ofOperand (.plain s :: words) = some (.plain s :: words : List Word).length := by
      rw [hrest, List.length_cons, Nat.add_comm]
      simp [Arity.ofOperand, Word.isSeparator]
    rw [ho, Reading.takeOperands, hall]
    simp [Reading.takeOperands, Operand.read, hrest, Word.text]
  rw [Grammar.readWords.eq_def]
  simp [htake]

theorem ne_separator_of_plain (h : s.startsWith "-" = false) : s ≠ "--" := by
  rintro rfl
  have hhyphen : ("--".startsWith "-") = true := by decide +kernel
  rw [hhyphen] at h
  cases h

theorem word_of_plain (h : s.startsWith "-" = false) : g.word s = .ok (.plain s) := by
  rw [Grammar.word, h]
  rfl

theorem words_cons_of_plain (h : s.startsWith "-" = false) :
    g.words (s :: args) = g.words args >>= fun ws => pure (.plain s :: ws) := by
  rw [Grammar.words, if_neg (ne_separator_of_plain h), word_of_plain h]
  rfl

namespace Commands

variable {c : Commands} {a : Args}

/-- The grammar under which a command line with commands is read first: all from the command on is
one operand. -/
def outer (c : Commands) : Grammar := { c.grammar with operands := [operand] }

def whole (c : Commands) (args : List String) : Args :=
  (operand.key, .ofList (args.map .text)) :: c.grammar.fallbacks

theorem texts_whole (args : List String) : Args.texts (c.whole args) operand.key = args := by
  simp [Args.texts, Args.get, whole, Value.items?, Value.ofList, Value.text?, Function.comp_def]

theorem isEmpty_of_lookup (hc : c.commands.lookup name = some g) : c.commands.isEmpty = false := by
  cases hnil : c.commands with
  | nil =>
      rw [hnil] at hc
      cases hc
  | cons => rfl

theorem read_outer (hname : name.startsWith "-" = false)
    (h : c.outer.read (name :: args) = .ok (a, extras)) :
    a = c.whole (name :: args) ∧ extras = [] := by
  obtain ⟨words, hwords, h⟩ := bind_eq_ok_iff.1 h
  obtain ⟨r, hr, h⟩ := bind_eq_ok_iff.1 h
  rw [words_cons_of_plain hname] at hwords
  obtain ⟨ws, hws, hwords⟩ := bind_eq_ok_iff.1 hwords
  have hrest : c.outer.readWords (ws.length + 2) { operands := c.outer.operands }
      (.plain name :: ws) = .ok { args := [(operand.key,
        .ofList ((name :: ws.map Word.text).map .text))], operands := [] } :=
    readWords_of_rest rfl rfl
  rw [← pure_eq_ok_iff.1 hwords, List.length_cons, hrest, texts_of_words hws] at hr
  rw [← Except.ok.inj hr] at h
  split at h
  next =>
    obtain ⟨rfl, rfl⟩ := Prod.mk.inj (pure_eq_ok_iff.1 h)
    exact ⟨rfl, rfl⟩
  next => cases h

theorem read_outer_of_words (hname : name.startsWith "-" = false) (hwords : c.outer.words args = .ok words)
    (hrequired : ∀ w ∈ c.grammar.switches, w.required = false) :
    c.outer.read (name :: args) = .ok (c.whole (name :: args), []) := by
  have hread : c.outer.readWords (words.length + 2) { operands := c.outer.operands }
      (.plain name :: words) = .ok { args := [(operand.key,
        .ofList ((name :: words.map Word.text).map .text))], operands := [] } :=
    readWords_of_rest rfl rfl
  have hcomplete (r : Reading) : c.outer.isComplete r = true := by
    simp only [Grammar.isComplete, List.all_eq_true]
    intro w hw
    rw [hrequired w hw]
    rfl
  rw [Grammar.read, words_cons_of_plain hname, hwords, ok_bind]
  change c.outer.readWords (words.length + 2) _ _ >>= _ = _
  rw [hread, ok_bind, hcomplete, texts_of_words hwords]
  rfl

/-- The words after a command are read as the command has it. -/
theorem read_of_outer (hc : c.commands.lookup name = some g)
    (h : c.outer.read (name :: args) = .ok (c.whole (name :: args), [])) :
    c.read (name :: args) = g.read args >>= fun own =>
      finish ((operand.key, .text name) :: own.1 ++ c.whole (name :: args)) own.2 := by
  have htop : { c.grammar with operands := [operand] : Grammar }.read (name :: args) =
      .ok (c.whole (name :: args), []) := h
  rw [read, isEmpty_of_lookup hc, if_neg (by decide), htop, ok_bind]
  dsimp only
  rw [texts_whole]
  dsimp only
  rw [hc]
  rfl

/-- A line that is accepted begins with a command, and all words after it are of use. -/
theorem read_eq_ok (hc : c.commands.lookup name = some g) (hname : name.startsWith "-" = false)
    (h : c.read (name :: args) = .ok a) : ∃ own, g.read args = .ok (own, []) ∧
      a = (operand.key, .text name) :: own ++ c.whole (name :: args) := by
  have htop : c.outer.read (name :: args) = .ok (c.whole (name :: args), []) := by
    rw [read, isEmpty_of_lookup hc, if_neg (by decide)] at h
    obtain ⟨⟨top, extras⟩, htop, -⟩ := bind_eq_ok_iff.1 h
    obtain ⟨rfl, rfl⟩ := read_outer hname htop
    exact htop
  rw [read_of_outer hc htop] at h
  obtain ⟨⟨own, more⟩, hown, h⟩ := bind_eq_ok_iff.1 h
  rw [finish] at h
  split at h
  next hmore =>
    obtain rfl : more = [] := by simpa using hmore
    exact ⟨own, hown, (Except.ok.inj h).symm⟩
  next => cases h

end Commands

end Provision.CommandLine
