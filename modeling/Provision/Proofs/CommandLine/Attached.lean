import Provision.Proofs.CommandLine.Grants

namespace Provision.CommandLine

open Steps

variable {g : Grammar} {s name : String} {switch : Switch} {words : List Word} {p : Spelling} {fuel : Nat}
variable {value start : String}

theorem startsWith_append (h : name.startsWith start = true) :
    (name ++ "=" ++ value).startsWith start = true := by
  rw [String.startsWith_string_iff] at h ⊢
  rw [String.append_assoc, String.toList_append]
  exact h.trans (List.prefix_append _ _)

theorem splitEquals_append (h : '=' ∉ name.toList) :
    splitEquals (name ++ "=" ++ value).toList = (name.toList, some value.toList) := by
  have hname : ∀ c ∈ name.toList, (c != '=') = true := by
    intro c hc
    simpa using ne_of_mem_of_not_mem hc h
  rw [String.append_assoc, String.toList_append, splitEquals, List.dropWhile_append_of_pos hname,
    List.takeWhile_append_of_pos hname]
  simp

theorem word_of_equals (hname : g.switch? name = some switch) (hhyphen : name.startsWith "-" = true)
    (hequals : '=' ∉ name.toList) (hfull : ∀ e ∈ g.spellings, '=' ∉ e.1.toList) :
    g.word (name ++ "=" ++ value) = .ok (.switch (name ++ "=" ++ value)
      (some { switch, name, equals := true, attached := some value.toList })) := by
  have hnone : g.switch? (name ++ "=" ++ value) = none := by
    rw [Grammar.switch?, List.lookup_eq_none_iff]
    intro e he
    have hne : name ++ "=" ++ value ≠ e.1 := by
      intro heq
      exact hfull e he (by simp [← heq])
    simpa using hne
  rw [Grammar.word, startsWith_append hhyphen, Grammar.spelled?, hnone, splitEquals_append hequals]
  simp [hname]

theorem exists_word_of_unknown (hhyphens : name.startsWith "--" = true) (hequals : '=' ∉ name.toList)
    (hnone : ∀ e ∈ g.spellings, ¬ name.toList <+: e.1.toList) :
    ∃ w, g.word (name ++ "=" ++ value) = .ok w := by
  have hcandidates : g.candidates (name ++ "=" ++ value) = [] := by
    rw [Grammar.candidates, if_pos (startsWith_append hhyphens), splitEquals_append hequals]
    simpa using fun full switch he => hnone (full, switch) he
  rw [Grammar.word, hcandidates]
  split
  next => exact ⟨_, rfl⟩
  next =>
    split
    next => exact ⟨_, rfl⟩
    next => split <;> exact ⟨_, rfl⟩

theorem exists_words {args : List String} (h : ∀ s ∈ args, ∃ w, g.word s = .ok w) :
    ∃ words, g.words args = .ok words := by
  induction args with
  | nil => exact ⟨[], rfl⟩
  | cons s args ih =>
      obtain ⟨hs, hargs⟩ := List.forall_mem_cons.1 h
      obtain ⟨w, hw⟩ := hs
      obtain ⟨words, hwords⟩ := ih hargs
      rw [Grammar.words]
      split
      next => exact ⟨_, rfl⟩
      next =>
        rw [hw, hwords]
        exact ⟨_, rfl⟩

/-- A switch takes what is attached to it. -/
theorem readWords_attached {r : Reading} {v : Value} {cs : List Char} (hone : p.switch.arity = .one)
    (hp : p.attached = some cs) (hkey : p.switch.key ≠ Switch.help.key)
    (hv : p.switch.kind.read? (String.ofList cs) = some v) :
    g.readWords (fuel + 1) r (.switch s (some p) :: words) =
      g.readWords fuel { r with args := (p.switch.key, v) :: r.args } words := by
  have hgive : r.give p.switch [String.ofList cs] = .ok { r with args := (p.switch.key, v) :: r.args } := by
    simp [Reading.give, hkey, Switch.read?, hone, hv]
  rw [Grammar.readWords, grants_of_attached hone hp]
  simp [ok_bind, hgive]

structure Given (g : Grammar) where
  name : String
  text : String
  switch : Switch
  value : Value
  found : g.switch? name = some switch := by rfl
  hyphen : name.startsWith "-" = true := by decide +kernel
  noEquals : '=' ∉ name.toList := by decide
  one : switch.arity = .one := by rfl
  notHelp : switch.key ≠ Switch.help.key := by decide
  reads : switch.kind.read? text = some value := by rfl

namespace Given

def line (e : Given g) : String := e.name ++ "=" ++ e.text

def word (e : Given g) : Word :=
  .switch e.line (some { switch := e.switch, name := e.name, equals := true, attached := some e.text.toList })

def entry (e : Given g) : String × Value := (e.switch.key, e.value)

theorem words_lines (hfull : ∀ e ∈ g.spellings, '=' ∉ e.1.toList) (es : List (Given g)) :
    g.words (es.map line) = .ok (es.map word) := by
  induction es with
  | nil => rfl
  | cons e es ih =>
      have hword : g.word e.line = .ok e.word := word_of_equals e.found e.hyphen e.noEquals hfull
      have hne : e.line ≠ "--" := by
        intro heq
        have hmem : '=' ∈ e.line.toList := by simp [line]
        rw [heq] at hmem
        exact absurd hmem (by decide)
      rw [List.map_cons, Grammar.words, if_neg hne, hword, ih]
      rfl

theorem readWords_words (es : List (Given g)) {r : Reading} (hr : r.operands = [])
    (hfuel : es.length < fuel) :
    g.readWords fuel r (es.map word) = .ok { r with args := es.reverse.map entry ++ r.args } := by
  induction es generalizing fuel r with
  | nil =>
      obtain ⟨fuel, rfl⟩ := Nat.exists_eq_succ_of_ne_zero (Nat.ne_of_gt hfuel)
      rw [Grammar.readWords.eq_def]
      simp [hr, Reading.takeOperands]
  | cons e es ih =>
      obtain ⟨fuel, rfl⟩ := Nat.exists_eq_succ_of_ne_zero (Nat.ne_of_gt (Nat.zero_lt_of_lt hfuel))
      have hread : e.switch.kind.read? (String.ofList e.text.toList) = some e.value := by
        rw [String.ofList_toList, e.reads]
      have hrest : g.readWords fuel { r with args := e.entry :: r.args } (es.map word) =
          .ok { r with args := es.reverse.map entry ++ e.entry :: r.args } :=
        ih hr (Nat.lt_of_succ_lt_succ hfuel)
      rw [List.map_cons, word, readWords_attached e.one rfl e.notHelp hread]
      refine hrest.trans ?_
      simp

/-- The values of a line that gives nothing else, if it gives all that is required. -/
theorem read_lines (hfull : ∀ e ∈ g.spellings, '=' ∉ e.1.toList) (hoperands : g.operands = [])
    (es : List (Given g)) (hcomplete : ∀ w ∈ g.switches, w.required = true → ∃ e ∈ es, e.switch.key = w.key) :
    g.read (es.map line) = .ok (es.reverse.map entry ++ g.fallbacks, []) := by
  have hread : g.readWords ((es.map word).length + 1) { operands := g.operands } (es.map word) =
      .ok { args := es.reverse.map entry, operands := [] } := by
    refine (readWords_words es hoperands (by simp)).trans ?_
    simp [hoperands]
  have hall : g.isComplete { args := es.reverse.map entry, operands := [] } = true := by
    simp only [Grammar.isComplete, List.all_eq_true, Bool.or_eq_true, Bool.not_eq_true',
      List.lookup_isSome_iff]
    intro w hw
    cases hrequired : w.required with
    | false => exact .inl rfl
    | true =>
        obtain ⟨e, he, hkey⟩ := hcomplete w hw hrequired
        exact .inr ⟨e.entry, by simpa using ⟨e, he, rfl⟩, by simp [entry, hkey]⟩
  rw [Grammar.read, words_lines hfull, ok_bind, hread, ok_bind, hall]
  rfl

end Given
end Provision.CommandLine
