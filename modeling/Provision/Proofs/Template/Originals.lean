import Provision.Proofs.Template.Backup

namespace Provision

open Provision.Action

namespace Registry

def defaultBackup : String := ({} : Order).backup

def backupPlace (t : Tree) : List String := t.cwd ++ [defaultBackup]

variable {r : Registry} {w : Session} {o : Order} {os : List Order} {m : Manifest} {c : Content}
  {p : List String}

theorem backupPlace_eq_of_cwd {t t' : Tree} (h : t'.cwd = t.cwd) : backupPlace t' = backupPlace t := by
  rw [backupPlace, backupPlace, h]

/-- The name of the backup has one part, so that it leads to its place in every tree. -/
theorem locate_defaultBackup (t : Tree) : t.locate defaultBackup = .ok (backupPlace t) := by
  have hparts : Path.partsOf defaultBackup = [defaultBackup] := by decide +kernel
  have hnamed : defaultBackup ≠ "" := by decide +kernel
  have hroot : Path.rootOf defaultBackup = "" := by decide +kernel
  have hfile : Tree.namesDirectory defaultBackup = false := by decide +kernel
  have hpart : defaultBackup ≠ ".." := by decide +kernel
  rw [Tree.locate, if_neg hnamed, Tree.start, if_pos hroot, hparts, Tree.follow, Tree.node?_cwd]
  dsimp only
  rw [Tree.follow, Path.step, if_neg hpart, hfile]
  dsimp only
  split <;> rfl

theorem place?_defaultBackup (t : Tree) : t.place? defaultBackup = some (backupPlace t) :=
  Tree.place?_of_locate (locate_defaultBackup t)

theorem content?_defaultBackup {t : Tree} :
    t.content? defaultBackup = .ok c ↔ t.node? (backupPlace t) = some (.file c) := by
  rw [Tree.content?_eq_ok_iff, locate_defaultBackup]
  constructor
  · rintro ⟨place, hplace, hfile⟩
    cases hplace
    exact hfile
  · intro hfile
    exact ⟨backupPlace t, rfl, hfile⟩

theorem contains_defaultBackup (t : Tree) :
    t.contains defaultBackup = (t.node? (backupPlace t)).isSome := by
  rw [Tree.contains, Tree.find?, locate_defaultBackup]

theorem exists_content_of_lacking (h : (run (r.generate o) w).1 = .ok m)
    (hlack : lacksBackUp o.output o.backup w.tree = true) :
    ∃ c, w.tree.content? o.output = .ok c := by
  obtain ⟨-, -, hreplace⟩ := generate_eq_ok h
  obtain ⟨-, u, -, -, hbackUp, -, -, hfile, -⟩ := replace_eq_ok hreplace
  obtain ⟨u', hlogged, ⟨e, hrun⟩ | ⟨c, -, hc, -⟩⟩ := run_backUp_of_lacking hlack
  · rw [hbackUp] at hrun
    cases hrun
  · obtain ⟨p, hlocate, hnode⟩ := Tree.content?_eq_ok_iff.1 hc
    have hbefore :=
      Tree.locate_of_directories hlogged.cwd.symm (fun _ => hlogged.directories) hfile hlocate
    rcases hlogged.nodes p with hsame | ⟨-, c', -, hc', -⟩
    · exact ⟨c, Tree.content?_eq_ok_iff.2 ⟨p, hbefore, hsame ▸ hnode⟩⟩
    · exact ⟨c', Tree.content?_eq_ok_iff.2 ⟨p, hbefore, hc'⟩⟩

/-- An order that makes no backup neither makes nor changes a file but its output. -/
theorem node?_generate_of_kept (h : (run (r.generate o) w).1 = .ok m)
    (hkept : lacksBackUp o.output o.backup w.tree = false) (hp : w.tree.place? o.output ≠ some p)
    (hlog : w.log.file ≠ some p) :
    (run (r.generate o) w).2.tree.node? p = some (.file c) ↔ w.tree.node? p = some (.file c) := by
  obtain ⟨-, -, hreplace⟩ := generate_eq_ok h
  obtain ⟨-, u, u', place, hbackUp, hwidens, hlocate, -, hnode, hlogged⟩ := replace_eq_ok hreplace
  rw [run_backUp_of_kept hkept] at hbackUp
  cases hbackUp
  have hne : p ≠ place := by
    rintro rfl
    rw [← Tree.place?_eq_of_cwd hwidens.tree.cwd] at hp
    exact hp (Tree.place?_of_locate hlocate)
  have hlog' : u'.log.file ≠ some p := by
    rwa [hwidens.log]
  rw [hlogged.node?_eq hlog', Tree.node?_put hnode, if_neg hne]
  exact hwidens.tree.files p c

def Succeed (r : Registry) : List Order → Session → Prop
  | [], _ => True
  | o :: os, w => (∃ m, (run (r.generate o) w).1 = .ok m) ∧ r.Succeed os (run (r.generate o) w).2

/-- Orders that succeed, with the backup of the default and with outputs elsewhere. The log goes to none
of these files. -/
structure Orderly (r : Registry) (os : List Order) (w : Session) : Prop where
  backup : ∀ o ∈ os, o.backup = defaultBackup
  apart : ∀ o ∈ os, w.tree.place? o.output ≠ some (backupPlace w.tree)
  outputs : ∀ o ∈ os, ¬ w.LogsTo o.output
  log : w.log.file ≠ some (backupPlace w.tree)
  succeed : r.Succeed os w

/-- The output of an order is there, and no backup is. -/
def Finds (o : Order) (w : Session) : Prop :=
  w.tree.contains o.output = true ∧ w.tree.contains defaultBackup = false

/-- What the first order that finds its output there, and no backup, finds in it. -/
inductive Rescued (r : Registry) : List Order → Session → Content → Prop where
  | now {o : Order} {os : List Order} {w : Session} {c : Content} (hfinds : Finds o w)
      (hc : w.tree.content? o.output = .ok c) : Rescued r (o :: os) w c
  | later {o : Order} {os : List Order} {w : Session} {c : Content} (hfinds : ¬ Finds o w)
      (h : Rescued r os (run (r.generate o) w).2 c) : Rescued r (o :: os) w c

namespace Orderly

theorem of_no_log (hlog : w.log.file = none) (hbackup : ∀ o ∈ os, o.backup = defaultBackup)
    (hapart : ∀ o ∈ os, w.tree.place? o.output ≠ some (backupPlace w.tree)) (hsucceed : r.Succeed os w) :
    r.Orderly os w where
  backup := hbackup
  apart := hapart
  outputs := fun o _ => Session.not_logsTo_of_no_file hlog o.output
  log := by
    rw [hlog]
    nofun
  succeed := hsucceed

theorem tail (h : r.Orderly (o :: os) w) : r.Orderly os (run (r.generate o) w).2 := by
  have hkeeps := keeps_generate r o w
  have hplaces := Tree.place?_eq_of_cwd hkeeps.tree.cwd
  have hbackup := backupPlace_eq_of_cwd hkeeps.tree.cwd
  refine ⟨?_, ?_, ?_, ?_, h.succeed.2⟩
  · intro q hq
    exact h.backup q (List.mem_cons_of_mem _ hq)
  · intro q hq
    rw [hplaces, hbackup]
    exact h.apart q (List.mem_cons_of_mem _ hq)
  · rintro q hq ⟨p, hp, hplace⟩
    rw [hkeeps.log] at hp
    rw [hplaces] at hplace
    exact h.outputs q (List.mem_cons_of_mem _ hq) ⟨p, hp, hplace⟩
  · rw [hkeeps.log, hbackup]
    exact h.log

/-- A backup that is there stays. -/
theorem keeps_backup (h : r.Orderly os w)
    (hc : w.tree.node? (backupPlace w.tree) = some (.file c)) :
    (r.carryOut os w).tree.node? (backupPlace w.tree) = some (.file c) := by
  refine (keeps_carryOut r os w).tree.files (backupPlace w.tree) c ?_ hc
  rintro (⟨o, ho, hplace⟩ | hlog)
  · exact h.apart o ho hplace
  · exact h.log hlog

theorem lacksBackUp_iff (h : r.Orderly (o :: os) w) :
    lacksBackUp o.output o.backup w.tree = true ↔ Finds o w := by
  have hnamed : (defaultBackup != "") = true := by decide +kernel
  rw [h.backup o List.mem_cons_self, lacksBackUp, hnamed, Finds, Bool.true_and, Bool.and_eq_true,
    Bool.not_eq_true']

theorem exists_content (h : r.Orderly (o :: os) w) (hfinds : Finds o w) :
    ∃ c, w.tree.content? o.output = .ok c := by
  obtain ⟨m, hm⟩ := h.succeed.1
  exact exists_content_of_lacking hm (h.lacksBackUp_iff.2 hfinds)

theorem backup_of_finds (h : r.Orderly (o :: os) w) (hfinds : Finds o w)
    (hc : w.tree.content? o.output = .ok c) :
    (run (r.generate o) w).2.tree.node? (backupPlace w.tree) = some (.file c) := by
  obtain ⟨m, hm⟩ := h.succeed.1
  have hlog : ¬ w.LogsTo defaultBackup := by
    rintro ⟨p, hp, hplace⟩
    rw [place?_defaultBackup] at hplace
    exact h.log (hp.trans hplace.symm)
  have hsaved := (fileSafe_generate r o w).saved m c hm
  rw [h.backup o List.mem_cons_self] at hsaved
  rw [← backupPlace_eq_of_cwd (keeps_generate r o w).tree.cwd]
  exact content?_defaultBackup.1
    (hsaved (by decide +kernel) hfinds.2 hc (h.outputs o List.mem_cons_self) hlog)

/-- Where there is no backup at first, the one at the end holds what has been rescued. -/
theorem backup_iff (h : r.Orderly os w)
    (hfree : ∀ c, w.tree.node? (backupPlace w.tree) ≠ some (.file c)) :
    (r.carryOut os w).tree.node? (backupPlace w.tree) = some (.file c) ↔ r.Rescued os w c := by
  induction os generalizing w with
  | nil => exact ⟨fun hc => absurd hc (hfree c), nofun⟩
  | cons o os ih =>
      have hplace := backupPlace_eq_of_cwd (keeps_generate r o w).tree.cwd
      by_cases hfinds : Finds o w
      · obtain ⟨d, hd⟩ := h.exists_content hfinds
        have hmade := h.backup_of_finds hfinds hd
        rw [← hplace] at hmade ⊢
        rw [carryOut, h.tail.keeps_backup hmade]
        constructor
        · intro hc
          cases hc
          exact .now hfinds hd
        · intro hrescued
          cases hrescued with
          | now _ hc =>
              rw [hd] at hc
              cases hc
              rfl
          | later hnot => exact absurd hfinds hnot
      · obtain ⟨m, hm⟩ := h.succeed.1
        have hkept : lacksBackUp o.output o.backup w.tree = false := by
          rw [Bool.eq_false_iff, ne_eq, h.lacksBackUp_iff]
          exact hfinds
        have hfree' : ∀ d, (run (r.generate o) w).2.tree.node?
            (backupPlace (run (r.generate o) w).2.tree) ≠ some (.file d) := by
          intro d hd
          rw [hplace, node?_generate_of_kept hm hkept (h.apart o List.mem_cons_self) h.log] at hd
          exact hfree d hd
        rw [← hplace, carryOut, ih h.tail hfree']
        constructor
        · exact .later hfinds
        · intro hrescued
          cases hrescued with
          | now hfinds' => exact absurd hfinds' hfinds
          | later _ hlater => exact hlater

end Orderly

def Original (os : List Order) (w : Session) (c : Content) : Prop :=
  ∃ p, w.tree.node? p = some (.file c) ∧ ∃ o ∈ os, w.tree.place? o.output = some p

/-- Where all orders have the place of the first one's output, and that leads to a file, nothing is
lost. -/
theorem Orderly.keeps_only_output (h : r.Orderly (o :: os) w)
    (habsent : w.tree.contains defaultBackup = false) (hthere : w.tree.contains o.output = true)
    (hsame : ∀ q ∈ os, w.tree.place? q.output = w.tree.place? o.output)
    (hc : Original (o :: os) w c) : r.Rescued (o :: os) w c := by
  obtain ⟨d, hd⟩ := h.exists_content ⟨hthere, habsent⟩
  obtain ⟨p, hp, hfile⟩ := Tree.content?_eq_ok_iff.1 hd
  obtain ⟨p', hfile', q, hq, hplace⟩ := hc
  have hplaces : w.tree.place? q.output = some p := by
    rcases List.mem_cons.1 hq with rfl | hq
    · exact Tree.place?_of_locate hp
    · rw [hsame q hq]
      exact Tree.place?_of_locate hp
  rw [hplaces] at hplace
  cases hplace
  rw [hfile'] at hfile
  cases hfile
  exact .now ⟨hthere, habsent⟩ hd

/-- After orders that succeed, the backup holds the first output that was there, and so of all that they
replace no more than one content is kept. -/
theorem originals_kept_iff (h : r.Orderly os w) (habsent : w.tree.contains defaultBackup = false) :
    (∀ c, (r.carryOut os w).tree.content? defaultBackup = .ok c ↔ r.Rescued os w c) ∧
    ((∀ c, Original os w c → (r.carryOut os w).tree.content? defaultBackup = .ok c) ↔
      ∀ c, Original os w c → r.Rescued os w c) ∧
    (∀ c c', Original os w c → Original os w c' → c ≠ c' →
      ∃ d, Original os w d ∧ (r.carryOut os w).tree.content? defaultBackup ≠ .ok d) ∧
    ∀ o os', os = o :: os' → w.tree.contains o.output = true →
      (∀ q ∈ os', w.tree.place? q.output = w.tree.place? o.output) →
      ∀ c, Original os w c → (r.carryOut os w).tree.content? defaultBackup = .ok c := by
  have hbackup : ∀ c, (r.carryOut os w).tree.content? defaultBackup = .ok c ↔ r.Rescued os w c := by
    intro c
    have hplace := backupPlace_eq_of_cwd (keeps_carryOut r os w).tree.cwd
    rw [content?_defaultBackup, hplace, h.backup_iff]
    intro d hd
    rw [contains_defaultBackup, hd] at habsent
    cases habsent
  refine ⟨hbackup, ?_, ?_, ?_⟩
  · simp only [hbackup]
  · intro c c' hc hc' hne
    by_cases hkept : (r.carryOut os w).tree.content? defaultBackup = .ok c
    · refine ⟨c', hc', ?_⟩
      rw [hkept]
      intro he
      exact hne (Except.ok.inj he)
    · exact ⟨c, hc, hkept⟩
  · rintro o os' rfl hthere hsame c hc
    exact (hbackup c).2 (h.keeps_only_output habsent hthere hsame hc)

theorem originals_kept_of_one_output :
    let w : Session :=
      { tree := .ofList [("/srv/run.yaml", .file (.text "written: by hand\n"))] ["home", "demo"] }
    let os : List Order := [{ distribution := "tiny", output := "/srv/run.yaml" },
      { distribution := "tiny", output := "/srv/run.yaml", file := "bare.yaml" }]
    tiny.Orderly os w ∧ w.tree.contains defaultBackup = false ∧
      (tiny.carryOut os w).tree.content? defaultBackup = .ok (.text "written: by hand\n") := by
  intro w os
  have horderly : tiny.Orderly os w := .of_no_log rfl
    (List.forall_mem_cons.2 ⟨rfl, List.forall_mem_singleton.2 rfl⟩)
    (List.forall_mem_cons.2 ⟨by decide +kernel, List.forall_mem_singleton.2 (by decide +kernel)⟩)
    ⟨Steps.exists_eq_ok_of_isSome (by decide +kernel),
      Steps.exists_eq_ok_of_isSome (by decide +kernel), trivial⟩
  have habsent : w.tree.contains defaultBackup = false := by decide +kernel
  refine ⟨horderly, habsent, ?_⟩
  obtain ⟨-, -, -, hkept⟩ := originals_kept_iff horderly habsent
  refine hkept _ _ rfl (by decide +kernel) (List.forall_mem_singleton.2 rfl) _ ?_
  exact ⟨["srv", "run.yaml"], by decide +kernel, _, List.mem_cons_self, by decide +kernel⟩

/-- Of two run files that were written by hand and are both replaced, the first is kept, and there is no
other backup. -/
theorem second_original_lost :
    let w : Session := { tree := .ofList [("run.yaml", .file (.text "first: by hand\n")),
      ("other.yaml", .file (.text "second: by hand\n"))] }
    let os : List Order := [{ distribution := "tiny" }, { distribution := "tiny", output := "other.yaml" }]
    tiny.Orderly os w ∧ w.tree.contains defaultBackup = false ∧
      Original os w (.text "second: by hand\n") ∧
      (tiny.carryOut os w).tree.nodes.map (·.1) = [["run.yaml"], ["other.yaml"], backupPlace w.tree] ∧
      (tiny.carryOut os w).tree.content? defaultBackup ≠ .ok (.text "second: by hand\n") := by
  intro w os
  have horderly : tiny.Orderly os w := .of_no_log rfl
    (List.forall_mem_cons.2 ⟨rfl, List.forall_mem_singleton.2 rfl⟩)
    (List.forall_mem_cons.2 ⟨by decide +kernel, List.forall_mem_singleton.2 (by decide +kernel)⟩)
    ⟨Steps.exists_eq_ok_of_isSome (by decide +kernel),
      Steps.exists_eq_ok_of_isSome (by decide +kernel), trivial⟩
  refine ⟨horderly, by decide +kernel, ?_, by decide +kernel, ?_⟩
  · exact ⟨["other.yaml"], by decide +kernel, { distribution := "tiny", output := "other.yaml" },
      List.mem_cons_of_mem _ List.mem_cons_self, by decide +kernel⟩
  · have hfirst : (tiny.carryOut os w).tree.content? defaultBackup =
        .ok (.text "first: by hand\n") := Steps.eq_ok_of_toOption (by decide +kernel)
    rw [hfirst]
    decide +kernel

end Registry
end Provision
