import Provision.Proofs.Manifest.Consistency
import Provision.Proofs.Manifest.Saving
import Provision.Template.Dell

namespace Provision

open Provision.Action

variable {u v w : Session} {o : Order} {m : Manifest} {path backup : String}

namespace Registry

def lacksBackUp (path backup : String) (t : Tree) : Bool :=
  backup != "" && t.contains path && !t.contains backup

theorem run_backUp (path backup : String) (w : Session) :
    run (backUp path backup) w =
      if lacksBackUp path backup w.tree then
        run (Action.info source ("Creating backup: " ++ backup) >>= fun _ => copy path backup) w
      else (.ok (), w) := by
  rw [backUp]
  simp only [run_bind, run_pathExists, lacksBackUp]
  split <;> rfl

theorem run_backUp_of_kept (h : lacksBackUp path backup w.tree = false) :
    run (backUp path backup) w = (.ok (), w) := by
  rw [run_backUp, h, if_neg (by decide)]

/-- A backup is a copy in a new place. Where it cannot be made, nothing but the log has changed. -/
theorem run_backUp_of_lacking (h : lacksBackUp path backup w.tree = true) :
    ∃ u, w.Logged u ∧
      ((∃ e, run (backUp path backup) w = (.error e, u)) ∨
        ∃ c place, u.tree.content? path = .ok c ∧ u.tree.locate backup = .ok place ∧
          Tree.namesDirectory backup = false ∧ u.tree.node? place = none ∧
          run (backUp path backup) w = (.ok (), { u with tree := u.tree.put place (.file c) })) := by
  obtain ⟨u, hrecord, hlogged⟩ := run_record source Level.info.number ("Creating backup: " ++ backup) w
  have hbackUp : run (backUp path backup) w = run (copy path backup) u := by
    rw [run_backUp, if_pos h, run_bind, info, hrecord]
  rw [hbackUp]
  refine ⟨u, hlogged, ?_⟩
  rcases run_copy path backup u with hrefused | ⟨c, place, hc, hlocate, hfile, -, hcopy⟩
  · exact .inl hrefused
  · have habsent : w.tree.contains backup = false := by
      rw [lacksBackUp, Bool.and_eq_true, Bool.not_eq_true'] at h
      exact h.2
    have hbefore : w.tree.locate backup = .ok place :=
      Tree.locate_of_directories hlogged.cwd.symm (fun _ => hlogged.directories) hfile hlocate
    have hnone := Tree.node?_eq_none_of_contains habsent hbefore
    refine .inr ⟨c, place, hc, hlocate, hfile, ?_, hcopy⟩
    rw [hlogged.node?_eq_of_no_file (by simp [hnone]), hnone]

theorem keeps_backUp (path backup : String) (w : Session) :
    w.Keeps (fun p => w.log.file = some p) (run (backUp path backup) w).2 := by
  cases hlack : lacksBackUp path backup w.tree with
  | false =>
      rw [run_backUp_of_kept hlack]
      exact .refl w
  | true =>
      obtain ⟨u, hlogged, ⟨e, hrun⟩ | ⟨c, place, -, -, -, hnone, hrun⟩⟩ := run_backUp_of_lacking hlack
      · rw [hrun]
        exact hlogged.keeps
      · rw [hrun]
        exact hlogged.keeps.trans ⟨rfl, Tree.keeps_put_of_absent hnone _⟩

theorem logged_of_backUp_error {e : Failure} (h : run (backUp path backup) w = (.error e, v)) :
    w.Logged v := by
  cases hlack : lacksBackUp path backup w.tree with
  | false =>
      rw [run_backUp_of_kept hlack] at h
      cases h
  | true =>
      obtain ⟨u, hlogged, ⟨_, hrun⟩ | ⟨c, place, -, -, -, -, hrun⟩⟩ := run_backUp_of_lacking hlack
      · rw [hrun] at h
        cases h
        exact hlogged
      · rw [hrun] at h
        cases h

def replace (o : Order) (m : Manifest) : Action Manifest := do
  backUp o.output o.backup
  Action.ensureDirectory (Path.ofText o.output).parent
  m.save o.output
  Action.info source
    ("Successfully generated " ++ o.output ++ " for distribution '" ++ o.distribution ++ "' ("
      ++ o.file ++ ")")
  return m

variable {r : Registry}

theorem run_generate (r : Registry) (o : Order) (w : Session) :
    run (r.generate o) w =
      match r.runConfig o.distribution o.file with
      | .error e => (.error e, w)
      | .ok m =>
        match if o.validate then m.check else .ok () with
        | .error e => (.error e, w)
        | .ok () => run (replace o m) w := by
  rw [generate, run_bind, run_ofExcept]
  cases r.runConfig o.distribution o.file with
  | error e => rfl
  | ok m =>
      cases o.validate with
      | false => rfl
      | true =>
          dsimp only
          rw [if_pos rfl, run_bind, run_ofExcept]
          cases m.check <;> rfl

theorem run_generate_of_unknown {f : Failure} (h : r.runConfig o.distribution o.file = .error f) :
    run (r.generate o) w = (.error f, w) := by
  rw [run_generate, h]

theorem run_generate_of_unsound {f : Failure} (h : r.runConfig o.distribution o.file = .ok m)
    (hvalidate : o.validate = true) (hproblems : m.check = .error f) :
    run (r.generate o) w = (.error f, w) := by
  rw [run_generate, h]
  dsimp only
  rw [if_pos hvalidate, hproblems]

theorem run_generate_of_sound (h : r.runConfig o.distribution o.file = .ok m)
    (hsound : o.validate = true → m.check = .ok ()) :
    run (r.generate o) w = run (replace o m) w := by
  have hchecked : (if o.validate then m.check else .ok ()) = .ok () := by
    split
    next hvalidate => exact hsound hvalidate
    next => rfl
  rw [run_generate, h]
  dsimp only
  rw [hchecked]

/-- An order is refused, with nothing done, or its manifest is sound as far as it is checked. -/
theorem generate_cases (r : Registry) (o : Order) (w : Session) :
    (∃ f, run (r.generate o) w = (.error f, w)) ∨
      ∃ m, r.runConfig o.distribution o.file = .ok m ∧ (o.validate = true → m.check = .ok ()) ∧
        run (r.generate o) w = run (replace o m) w := by
  cases hmade : r.runConfig o.distribution o.file with
  | error f => exact .inl ⟨f, run_generate_of_unknown hmade⟩
  | ok m =>
      by_cases hsound : o.validate = true → m.check = .ok ()
      · exact .inr ⟨m, rfl, hsound, run_generate_of_sound hmade hsound⟩
      · obtain ⟨hvalidate, hnot⟩ := Classical.not_imp.1 hsound
        cases hchecked : m.check with
        | ok => exact absurd hchecked hnot
        | error f => exact .inl ⟨f, run_generate_of_unsound hmade hvalidate hchecked⟩

theorem run_replace_of_error {e : Failure}
    (h : run (backUp o.output o.backup) w = (.error e, v)) : run (replace o m) w = (.error e, v) := by
  rw [replace, run_bind, h]

/-- When the backup has been seen to, directories are made, and the output is the only file written. An
order that succeeds has written its manifest. -/
theorem run_replace_of_ok (m : Manifest) (h : run (backUp o.output o.backup) w = (.ok (), u)) :
    ∃ v, u.Widens v ∧
      ((∃ e, run (replace o m) w = (.error e, v)) ∨
        ∃ place v' e, v.tree.locate o.output = .ok place ∧ Tree.namesDirectory o.output = false ∧
          v.tree.node? place ≠ some .directory ∧
          ({ v with tree := v.tree.put place (.file (.text m.stored)) } : Session).Logged v' ∧
          run (replace o m) w = (e, v') ∧ ∀ m', e = .ok m' → m' = m ∧ m.toYaml = .ok m.stored) := by
  rw [replace, run_bind, h]
  dsimp only
  rw [run_bind]
  have hwidens := widens_ensureDirectory (Path.ofText o.output).parent u
  generalize run (Action.ensureDirectory (Path.ofText o.output).parent) u = made at hwidens ⊢
  obtain ⟨e | _, v⟩ := made
  · exact ⟨v, hwidens, .inl ⟨e, rfl⟩⟩
  refine ⟨v, hwidens, ?_⟩
  dsimp only
  rw [run_bind]
  rcases Manifest.run_save_cases m o.output v with
    ⟨e, hrefused⟩ | ⟨place, v₁, e | _, hlocate, hfile, hnode, hlogged₁, hsave, hstored⟩
  · rw [hrefused]
    exact .inl ⟨e, rfl⟩
  · rw [hsave]
    exact .inr ⟨place, v₁, .error e, hlocate, hfile, hnode, hlogged₁, rfl, nofun⟩
  · rw [hsave]
    dsimp only
    obtain ⟨v₂, hdone, hlogged₂⟩ := run_record source Level.info.number
      ("Successfully generated " ++ o.output ++ " for distribution '" ++ o.distribution ++ "' ("
        ++ o.file ++ ")") v₁
    refine .inr ⟨place, v₂, .ok m, hlocate, hfile, hnode, hlogged₁.trans hlogged₂, ?_, ?_⟩
    · rw [run_bind, Action.info, hdone]
      rfl
    · rintro m' hm
      exact ⟨(Except.ok.inj hm).symm, hstored rfl⟩

/-- When the backup has been seen to, an order changes no file but its output. -/
theorem keeps_replace_of_ok (m : Manifest) (h : run (backUp o.output o.backup) w = (.ok (), u)) :
    u.Keeps (fun p => u.tree.place? o.output = some p ∨ u.log.file = some p) (run (replace o m) w).2 := by
  obtain ⟨v, hwidens, ⟨e, hrun⟩ | ⟨place, v', e, hlocate, -, hnode, hlogged, hrun, -⟩⟩ :=
    run_replace_of_ok m h
  · rw [hrun]
    exact hwidens.keeps
  · have hwritten : v.Keeps (fun p => u.tree.place? o.output = some p ∨ u.log.file = some p)
        { v with tree := v.tree.put place (.file (.text m.stored)) } := by
      refine ⟨rfl, (Tree.keeps_put hnode _).mono ?_⟩
      rintro p rfl
      rw [← Tree.place?_eq_of_cwd hwidens.tree.cwd]
      exact .inl (Tree.place?_of_locate hlocate)
    rw [hrun]
    refine (hwidens.keeps.trans hwritten).trans (hlogged.keeps.mono fun p hp => .inr ?_)
    rwa [← hwidens.log]

theorem keeps_replace (o : Order) (m : Manifest) (w : Session) :
    w.Keeps (fun p => w.tree.place? o.output = some p ∨ w.log.file = some p) (run (replace o m) w).2 := by
  have hbackUp := (keeps_backUp o.output o.backup w).mono
    fun p (hp : w.log.file = some p) => (.inr hp : w.tree.place? o.output = some p ∨ _)
  cases hrun : run (backUp o.output o.backup) w with
  | mk e u =>
      rw [hrun] at hbackUp
      cases e with
      | error e => rwa [run_replace_of_error hrun]
      | ok =>
          have hrest := keeps_replace_of_ok m hrun
          rw [hbackUp.log, Tree.place?_eq_of_cwd hbackUp.tree.cwd] at hrest
          exact hbackUp.trans hrest

/-- An order that succeeds has seen to the backup and has written its output. -/
theorem replace_eq_ok {m' : Manifest} (h : run (replace o m) w = (.ok m', v)) :
    (m' = m ∧ m.toYaml = .ok m.stored) ∧
    ∃ u u' place, run (backUp o.output o.backup) w = (.ok (), u) ∧ u.Widens u' ∧
      u'.tree.locate o.output = .ok place ∧ Tree.namesDirectory o.output = false ∧
      u'.tree.node? place ≠ some .directory ∧
      ({ u' with tree := u'.tree.put place (.file (.text m.stored)) } : Session).Logged v := by
  cases hbackUp : run (backUp o.output o.backup) w with
  | mk e u =>
      cases e with
      | error e =>
          rw [run_replace_of_error hbackUp] at h
          cases h
      | ok =>
          obtain ⟨u', hwidens, ⟨e, hrun⟩ |
            ⟨place, v', e, hlocate, hfile, hnode, hlogged, hrun, hstored⟩⟩ := run_replace_of_ok m hbackUp
          · rw [hrun] at h
            cases h
          · rw [hrun] at h
            cases h
            exact ⟨hstored m' rfl, u, u', place, rfl, hwidens, hlocate, hfile, hnode, hlogged⟩

/-- The output holds the manifest, unless the log goes there. -/
theorem content_output_of_replace {m' : Manifest} (h : run (replace o m) w = (.ok m', v))
    (hlog : ¬ w.LogsTo o.output) :
    v.tree.content? o.output = .ok (.text m.stored) := by
  obtain ⟨-, u, u', place, hbackUp, hwidens, hlocate, hfile, hnode, hlogged⟩ := replace_eq_ok h
  refine Tree.content?_eq_ok_iff.2 ⟨place, ?_, ?_⟩
  · exact hlogged.keeps.tree.locate hfile
      ((Tree.keeps_put hnode (.file (.text m.stored))).locate hfile hlocate)
  · have hkept := keeps_backUp o.output o.backup w
    rw [hbackUp] at hkept
    have hne : u'.log.file ≠ some place := by
      rw [hwidens.log, hkept.log]
      refine fun hplace => hlog ⟨place, hplace, ?_⟩
      rw [← Tree.place?_eq_of_cwd (hwidens.tree.cwd.trans hkept.tree.cwd)]
      exact Tree.place?_of_locate hlocate
    rw [hlogged.node?_eq hne, Tree.node?_put hnode, if_pos rfl]

/-- The backup holds what the output held, if there was no backup and the log goes to neither. -/
theorem content_backup_of_replace {m' : Manifest} {c : Content}
    (h : run (replace o m) w = (.ok m', v)) (hnamed : o.backup ≠ "")
    (habsent : w.tree.contains o.backup = false) (hc : w.tree.content? o.output = .ok c)
    (hlog : ¬ w.LogsTo o.output) (hlog' : ¬ w.LogsTo o.backup) : v.tree.content? o.backup = .ok c := by
  have hlack : lacksBackUp o.output o.backup w.tree = true := by
    rw [lacksBackUp, Tree.contains_of_content? hc, habsent]
    simpa using hnamed
  obtain ⟨p, hp, hfile⟩ := Tree.content?_eq_ok_iff.1 hc
  obtain ⟨u, hlogged, ⟨e, hrun⟩ | ⟨c', place, hc', hlocate, hdir, hnone, hrun⟩⟩ :=
    run_backUp_of_lacking hlack
  · rw [run_replace_of_error hrun] at h
    cases h
  -- The copy is of the same content, as the record before it went elsewhere.
  obtain ⟨p', hp', hfile'⟩ := Tree.content?_eq_ok_iff.1 hc'
  have hplaces := Tree.place?_eq_of_cwd hlogged.cwd
  have hsame : p' = p := by
    have hp'' := Tree.place?_of_locate hp'
    rw [hplaces, Tree.place?_of_locate hp] at hp''
    exact (Option.some.inj hp'').symm
  have hthere : u.tree.node? p = some (.file c) := by
    rw [← hfile]
    exact hlogged.node?_eq fun hplace => hlog ⟨p, hplace, Tree.place?_of_locate hp⟩
  have hcopied : c' = c := by
    rw [hsame, hthere] at hfile'
    cases hfile'
    rfl
  have hkeeps := keeps_replace_of_ok m hrun
  rw [h] at hkeeps
  have hnodir : u.tree.node? place ≠ some .directory := by
    rw [hnone]
    nofun
  refine Tree.content?_eq_ok_iff.2 ⟨place, ?_, ?_⟩
  · exact hkeeps.tree.locate hdir ((Tree.keeps_put hnodir _).locate hdir hlocate)
  · refine hkeeps.tree.files place c ?_ (by rw [Tree.node?_put hnodir, if_pos rfl, hcopied])
    rintro (hplace | hplace)
    · change u.tree.place? o.output = some place at hplace
      rw [hplaces, Tree.place?_of_locate hp, Option.some.injEq] at hplace
      rw [hplace, hnone] at hthere
      cases hthere
    · rw [hlogged.log] at hplace
      refine hlog' ⟨place, hplace, ?_⟩
      rw [← hplaces]
      exact Tree.place?_of_locate hlocate

/-- What an order may do to files, from one session to another, when it ends in a certain way. -/
structure FileSafe (r : Registry) (o : Order) (u : Session) (e : Except Failure Manifest)
    (v : Session) : Prop where
  /-- No file that is there changes but the output and the log's. -/
  keeps : u.Keeps (fun p => u.tree.place? o.output = some p ∨ u.log.file = some p) v
  unknown : ∀ f, r.runConfig o.distribution o.file = .error f → e = .error f ∧ v = u
  unsound : ∀ m f, r.runConfig o.distribution o.file = .ok m → o.validate = true →
    m.check = .error f → e = .error f ∧ v = u
  /-- Where the backup cannot be made, nothing changes but the log. -/
  unsaved : ∀ m f u', r.runConfig o.distribution o.file = .ok m →
    (o.validate = true → m.check = .ok ()) → run (backUp o.output o.backup) u = (.error f, u') →
    e = .error f ∧ ∀ p, u.log.file ≠ some p → v.tree.node? p = u.tree.node? p
  /-- A new backup holds what the output held. -/
  saved : ∀ m c, e = .ok m → o.backup ≠ "" → u.tree.contains o.backup = false →
    u.tree.content? o.output = .ok c → ¬ u.LogsTo o.output → ¬ u.LogsTo o.backup →
    v.tree.content? o.backup = .ok c
  written : ∀ m, e = .ok m → r.runConfig o.distribution o.file = .ok m ∧
    ∃ text, m.toYaml = .ok text ∧
      (¬ u.LogsTo o.output → v.tree.content? o.output = .ok (.text text))
  sound : ∀ m, e = .ok m → o.validate = true → m.validate = .ok []

theorem keeps_generate (r : Registry) (o : Order) (w : Session) :
    w.Keeps (fun p => w.tree.place? o.output = some p ∨ w.log.file = some p)
      (run (r.generate o) w).2 := by
  rcases generate_cases r o w with ⟨f, hrefused⟩ | ⟨m, -, -, hrun⟩
  · rw [hrefused]
    exact .refl w
  · rw [hrun]
    exact keeps_replace o m w

theorem generate_eq_ok (h : (run (r.generate o) w).1 = .ok m) :
    r.runConfig o.distribution o.file = .ok m ∧ (o.validate = true → m.check = .ok ()) ∧
      run (replace o m) w = (.ok m, (run (r.generate o) w).2) := by
  rcases generate_cases r o w with ⟨f, hrefused⟩ | ⟨m', hmade, hsound, hrun⟩
  · rw [hrefused] at h
    cases h
  · have hreplace : run (replace o m') w = (.ok m, (run (r.generate o) w).2) := by
      rw [← hrun]
      exact Prod.ext h rfl
    obtain ⟨⟨rfl, -⟩, -⟩ := replace_eq_ok hreplace
    exact ⟨hmade, hsound, hreplace⟩

theorem fileSafe_generate (r : Registry) (o : Order) (w : Session) :
    FileSafe r o w (run (r.generate o) w).1 (run (r.generate o) w).2 where
  keeps := keeps_generate r o w
  unknown := by
    intro f hunknown
    rw [run_generate_of_unknown hunknown]
    exact ⟨rfl, rfl⟩
  unsound := by
    intro m f hmade hvalidate hproblems
    rw [run_generate_of_unsound hmade hvalidate hproblems]
    exact ⟨rfl, rfl⟩
  unsaved := by
    intro m f u hmade hsound hbackUp
    rw [run_generate_of_sound hmade hsound, run_replace_of_error hbackUp]
    exact ⟨rfl, fun p hp => (logged_of_backUp_error hbackUp).node?_eq hp⟩
  saved := by
    intro m c hm hnamed habsent hc hlog hlog'
    obtain ⟨-, -, hreplace⟩ := generate_eq_ok hm
    exact content_backup_of_replace hreplace hnamed habsent hc hlog hlog'
  written := by
    intro m hm
    obtain ⟨hmade, -, hreplace⟩ := generate_eq_ok hm
    exact ⟨hmade, m.stored, (replace_eq_ok hreplace).1.2, content_output_of_replace hreplace⟩
  sound := by
    intro m hm hvalidate
    obtain ⟨-, hsound, -⟩ := generate_eq_ok hm
    exact Manifest.check_eq_ok_iff.1 (hsound hvalidate)

def carryOut (r : Registry) : List Order → Session → Session
  | [], w => w
  | o :: os, w => r.carryOut os (run (r.generate o) w).2

/-- Over any orders only their outputs change, and the log's file. -/
theorem keeps_carryOut (r : Registry) (os : List Order) (w : Session) :
    w.Keeps (fun p => (∃ o ∈ os, w.tree.place? o.output = some p) ∨ w.log.file = some p)
      (r.carryOut os w) := by
  induction os generalizing w with
  | nil => exact .refl w
  | cons o os ih =>
      have hfirst := keeps_generate r o w
      have hrest := ih (run (r.generate o) w).2
      rw [hfirst.log, Tree.place?_eq_of_cwd hfirst.tree.cwd] at hrest
      refine (hfirst.mono ?_).trans (hrest.mono ?_)
      · rintro p (hp | hlog)
        · exact .inl ⟨o, List.mem_cons_self, hp⟩
        · exact .inr hlog
      · rintro p (⟨q, hq, hp⟩ | hlog)
        · exact .inl ⟨q, List.mem_cons_of_mem _ hq, hp⟩
        · exact .inr hlog

def tiny : Registry :=
  [("tiny", .ok
    { name := "tiny", description := .text "d", image := .text "i"
      providers := [("inference", [⟨"tgi", "remote::tgi", []⟩])]
      variants := [("run.yaml", {}), ("bare.yaml", { toolGroups := some [] })] })]

-- The backup is made once.
example :
    let w : Session :=
      { tree := .ofList [("/srv/run.yaml", .file (.text "original: true\n"))] ["home", "demo"] }
    let order : Order :=
      { distribution := "tiny", output := "/srv/run.yaml", backup := "/srv/run.yaml.orig" }
    ((tiny.carryOut [order, { order with file := "bare.yaml" }] w).tree.content?
        "/srv/run.yaml.orig").toOption =
      some (.text "original: true\n") := by
  decide +kernel

end Registry
end Provision
