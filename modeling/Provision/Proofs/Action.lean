import Provision.Proofs.Files.Tree
import Provision.Session

namespace Provision

variable {α β : Type} {u v w : Session}

structure Session.Recorded (line : String) (u v : Session) : Prop where
  log : v.log = u.log
  service : v.service = u.service
  tree : v.tree = u.tree ∨ ∃ place c, u.log.file = some place ∧ u.tree.node? place = some (.file c) ∧
    v.tree = u.tree.put place (.file (c.append line))

structure Session.Shown (u v : Session) : Prop where
  log : v.log = u.log
  tree : u.log.file = none → v.tree = u.tree

structure Session.Logged (u v : Session) : Prop where
  log : v.log = u.log
  cwd : v.tree.cwd = u.tree.cwd
  nodes : ∀ p, v.tree.node? p = u.tree.node? p ∨
    u.log.file = some p ∧ ∃ c c', u.tree.node? p = some (.file c) ∧ v.tree.node? p = some (.file c')

/-- The log goes on as it did, directories stay, and so do files but for those at some places. -/
structure Session.Keeps (P : List String → Prop) (u v : Session) : Prop where
  log : v.log = u.log
  tree : u.tree.Keeps P v.tree

/-- The log goes on as it did, and directories have been added. -/
structure Session.Widens (u v : Session) : Prop where
  log : v.log = u.log
  tree : u.tree.Widens v.tree

def Session.LogsTo (w : Session) (path : String) : Prop :=
  ∃ p, w.log.file = some p ∧ w.tree.place? path = some p

namespace Session

theorem not_logsTo_of_no_file (h : w.log.file = none) (path : String) : ¬ w.LogsTo path := by
  rintro ⟨p, hp, -⟩
  rw [h] at hp
  cases hp

variable {P Q : List String → Prop} {p : List String}

theorem Keeps.refl (w : Session) : w.Keeps P w := ⟨rfl, .refl _⟩

theorem Keeps.trans (h : u.Keeps P v) (h' : v.Keeps P w) : u.Keeps P w :=
  ⟨h'.log.trans h.log, h.tree.trans h'.tree⟩

theorem Keeps.mono (h : u.Keeps P v) (hPQ : ∀ p, P p → Q p) : u.Keeps Q v :=
  ⟨h.log, h.tree.mono hPQ⟩

theorem Widens.keeps (h : u.Widens v) : u.Keeps P v := ⟨h.log, h.tree.keeps⟩

namespace Logged

theorem refl (w : Session) : w.Logged w := ⟨rfl, rfl, fun _ => .inl rfl⟩

theorem trans (h : u.Logged v) (h' : v.Logged w) : u.Logged w where
  log := h'.log.trans h.log
  cwd := h'.cwd.trans h.cwd
  nodes := by
    intro p
    rcases h'.nodes p with hw | ⟨hlog, c, c', hv, hw⟩
    · rw [hw]
      exact h.nodes p
    · rw [h.log] at hlog
      rcases h.nodes p with hu | ⟨-, d, d', hu, -⟩
      · exact .inr ⟨hlog, c, c', hu.symm.trans hv, hw⟩
      · exact .inr ⟨hlog, d, c', hu, hw⟩

theorem node?_eq (h : u.Logged v) (hp : u.log.file ≠ some p) :
    v.tree.node? p = u.tree.node? p :=
  (h.nodes p).resolve_right fun hlog => hp hlog.1

theorem node?_eq_of_no_file (h : u.Logged v) (hp : ∀ c, u.tree.node? p ≠ some (.file c)) :
    v.tree.node? p = u.tree.node? p := by
  refine (h.nodes p).resolve_right ?_
  rintro ⟨-, c, -, hc, -⟩
  exact hp c hc

theorem directories (h : u.Logged v) (hp : v.tree.node? p = some .directory) :
    u.tree.node? p = some .directory := by
  rcases h.nodes p with he | ⟨-, -, c', -, hc'⟩
  · rwa [he] at hp
  · rw [hc'] at hp
    cases hp

theorem keeps (h : u.Logged v) : u.Keeps (fun p => u.log.file = some p) v where
  log := h.log
  tree :=
    { cwd := h.cwd
      directories := by
        intro p hp
        rwa [h.node?_eq_of_no_file (by simp [hp])]
      files := by
        intro p c hne hp
        rwa [h.node?_eq hne] }

end Logged

variable {line : String}

theorem Recorded.logged (h : u.Recorded line v) : u.Logged v where
  log := h.log
  cwd := by
    rcases h.tree with htree | ⟨place, c, -, -, htree⟩
    · rw [htree]
    · rw [htree, Tree.cwd_put]
  nodes := by
    intro p
    rcases h.tree with htree | ⟨place, c, hplace, hc, htree⟩
    · exact .inl (by rw [htree])
    · rw [htree, Tree.node?_put (by simp [hc])]
      split
      next hp =>
        subst hp
        exact .inr ⟨hplace, c, _, hc, rfl⟩
      next => exact .inl rfl

theorem Shown.refl (w : Session) : w.Shown w := ⟨rfl, fun _ => rfl⟩

theorem Shown.trans (h : u.Shown v) (h' : v.Shown w) : u.Shown w where
  log := h'.log.trans h.log
  tree := by
    intro hfile
    rw [h'.tree (h.log ▸ hfile), h.tree hfile]

theorem Recorded.shown (h : u.Recorded line v) : u.Shown v where
  log := h.log
  tree := by
    intro hfile
    refine h.tree.resolve_right ?_
    rintro ⟨place, -, hplace, -⟩
    rw [hfile] at hplace
    cases hplace

end Session

def Tree.textAt (t : Tree) (path : String) : Except Failure String :=
  if '\x00' ∈ path.toList then .error (.trouble .value "embedded null byte")
  else
    match t.content? path with
    | .ok c => c.read
    | .error f => .error (.file f path)

namespace Action

def run (t : Action α) (w : Session) : Except Failure α × Session := t w

theorem run_bind (t : Action α) (f : α → Action β) (w : Session) :
    run (t >>= f) w = match run t w with
      | (.ok a, u) => run (f a) u
      | (.error e, u) => (.error e, u) := by
  change ExceptT.bind t f w = _
  simp only [run, ExceptT.bind, ExceptT.mk, bind, StateT.bind]
  rcases t w with ⟨_ | _, u⟩ <;> rfl

theorem run_ofExcept (r : Except Failure α) (w : Session) : run (ofExcept r) w = (r, w) := rfl

theorem run_get (w : Session) : run get w = (.ok w, w) := rfl

theorem run_modify (f : Session → Session) (w : Session) : run (modify f) w = (.ok (), f w) := rfl

theorem run_onService (f : Service → α × Service) (w : Session) :
    run (onService f) w = (.ok (f w.service).1, { w with service := (f w.service).2 }) := rfl

theorem run_attempt (t : Action α) (w : Session) :
    run (attempt t) w = (.ok (run t w).1, (run t w).2) := rfl

theorem run_pathExists (path : String) (w : Session) :
    run (pathExists path) w = (.ok (w.tree.contains path), w) := rfl

theorem run_record_cases (source : String) (level : Int) (text : String) (w : Session) :
    ∃ v, run (record source level text) w = (.ok (), v) ∧
      w.Recorded (Log.line source level text) v := by
  refine ⟨_, rfl, ?_⟩
  beta_reduce
  split
  next => exact ⟨rfl, rfl, .inl rfl⟩
  next =>
    split
    next => split <;> exact ⟨rfl, rfl, .inl rfl⟩
    next =>
      -- The console shows the line first; that does not touch the tree.
      dsimp only
      generalize hu : (if w.log.console = true then
        { w with console := w.console ++ Log.line source level text } else w) = u
      obtain ⟨hlog, hservice, htree⟩ : u.log = w.log ∧ u.service = w.service ∧ u.tree = w.tree := by
        rw [← hu]
        split <;> exact ⟨rfl, rfl, rfl⟩
      split
      next place hplace =>
        rw [hlog] at hplace
        split
        next c hc =>
          rw [htree] at hc
          exact ⟨hlog, hservice, .inr ⟨place, c, hplace, hc, by rw [htree]⟩⟩
        next => exact ⟨hlog, hservice, .inl htree⟩
      next => exact ⟨hlog, hservice, .inl htree⟩

theorem run_record (source : String) (level : Int) (text : String) (w : Session) :
    ∃ v, run (record source level text) w = (.ok (), v) ∧ w.Logged v := by
  obtain ⟨v, hrun, hrecorded⟩ := run_record_cases source level text w
  exact ⟨v, hrun, hrecorded.logged⟩

theorem run_record_service (source : String) (level : Int) (text : String) (w : Session) :
    ∃ v, run (record source level text) w = (.ok (), v) ∧ v.service = w.service := by
  obtain ⟨v, hrun, hrecorded⟩ := run_record_cases source level text w
  exact ⟨v, hrun, hrecorded.service⟩

theorem run_checkPath_of_plain {path : String} (h : '\x00' ∉ path.toList) (w : Session) :
    run (checkPath path) w = (.ok (), w) := by
  rw [checkPath, if_neg (by simpa using h)]
  rfl

theorem run_checkPath_of_null {path : String} (h : '\x00' ∈ path.toList) (w : Session) :
    run (checkPath path) w = (.error (.trouble .value "embedded null byte"), w) := by
  rw [checkPath, if_pos (by simpa using h)]
  rfl

theorem run_checkPath (path : String) (w : Session) :
    run (checkPath path) w = (.ok (), w) ∨ ∃ e, run (checkPath path) w = (.error e, w) := by
  by_cases hnull : '\x00' ∈ path.toList
  · exact .inr ⟨_, run_checkPath_of_null hnull w⟩
  · exact .inl (run_checkPath_of_plain hnull w)

theorem run_onTree (path : String) (f : Tree → Except FileFault Tree) (w : Session) :
    (∃ e, run (onTree path f) w = (.error e, w)) ∨
      ∃ t, f w.tree = .ok t ∧ run (onTree path f) w = (.ok (), { w with tree := t }) := by
  rw [onTree, run_bind]
  rcases run_checkPath path w with hok | ⟨e, hrefused⟩
  · rw [hok]
    simp only [run_bind, run_get]
    split
    next t ht => exact .inr ⟨t, ht, rfl⟩
    next e _ => exact .inl ⟨_, rfl⟩
  · rw [hrefused]
    exact .inl ⟨e, rfl⟩

theorem run_content (path : String) (w : Session) :
    (∃ e, run (content path) w = (.error e, w)) ∨
      ∃ c, w.tree.content? path = .ok c ∧ run (content path) w = (.ok c, w) := by
  rw [content, run_bind]
  rcases run_checkPath path w with hok | ⟨e, hrefused⟩
  · rw [hok]
    simp only [run_bind, run_get]
    split
    next c hc => exact .inr ⟨c, hc, rfl⟩
    next => exact .inl ⟨_, rfl⟩
  · rw [hrefused]
    exact .inl ⟨e, rfl⟩

theorem run_readText (path : String) (w : Session) :
    run (readText path) w = (w.tree.textAt path, w) := by
  rw [readText, run_bind, content, run_bind, Tree.textAt]
  by_cases hnull : '\x00' ∈ path.toList
  · rw [run_checkPath_of_null hnull, if_pos hnull]
  · rw [run_checkPath_of_plain hnull, if_neg hnull]
    simp only [run_bind, run_get]
    cases w.tree.content? path <;> rfl

theorem run_writeText_of_plain {path : String} (h : '\x00' ∉ path.toList) (s : String) (w : Session) :
    run (writeText path s) w = match w.tree.write path (.text s) with
      | .ok t => (.ok (), { w with tree := t })
      | .error f => (.error (.file f path), w) := by
  rw [writeText, onTree, run_bind, run_checkPath_of_plain h]
  simp only [run_bind, run_get]
  cases w.tree.write path (.text s) <;> rfl

theorem run_writeText_of_null {path : String} (h : '\x00' ∈ path.toList) (s : String) (w : Session) :
    run (writeText path s) w = (.error (.trouble .value "embedded null byte"), w) := by
  rw [writeText, onTree, run_bind, run_checkPath_of_null h]

/-- A text is written where the path leads, whatever the text is, or nothing happens. -/
theorem run_writeText (path : String) (w : Session) :
    (∃ e, ∀ s, run (writeText path s) w = (.error e, w)) ∨
      ∃ place, w.tree.locate path = .ok place ∧ Tree.namesDirectory path = false ∧
        w.tree.node? place ≠ some .directory ∧
        ∀ s, run (writeText path s) w =
          (.ok (), { w with tree := w.tree.put place (.file (.text s)) }) := by
  by_cases hnull : '\x00' ∈ path.toList
  · exact .inl ⟨_, fun s => run_writeText_of_null hnull s w⟩
  cases htarget : w.tree.target path with
  | error f =>
      refine .inl ⟨.file f path, fun s => ?_⟩
      rw [run_writeText_of_plain hnull, Tree.write, htarget]
      rfl
  | ok target =>
      obtain ⟨hlocate, hfile, hnode⟩ := Tree.target_eq_ok htarget
      refine .inr ⟨target.1, hlocate, hfile, hnode, fun s => ?_⟩
      rw [run_writeText_of_plain hnull, Tree.write_of_target htarget]

/-- What has been written is gone when the file is written again. -/
theorem run_writeText_again {path s : String} (h : run (writeText path s) w = (.ok (), u)) (s' : String) :
    run (writeText path s') u = run (writeText path s') w := by
  by_cases hnull : '\x00' ∈ path.toList
  · rw [run_writeText_of_null hnull] at h
    cases h
  rw [run_writeText_of_plain hnull] at h
  cases hwrite : w.tree.write path (.text s) with
  | error f =>
      rw [hwrite] at h
      cases h
  | ok t =>
      rw [hwrite] at h
      cases h
      obtain ⟨t', hfirst, hagain⟩ := Tree.write_write hwrite (.text s')
      rw [run_writeText_of_plain hnull, run_writeText_of_plain hnull, hfirst, hagain]

theorem run_appendText_of_writable {path : String} (h : w.tree.Writable path) (s : String) :
    ∃ t, w.tree.write path ((w.tree.held path).append s) = .ok t ∧
      run (appendText path s) w = (.ok (), { w with tree := t }) := by
  obtain ⟨t, ht⟩ := Tree.write_of_writable h ((w.tree.held path).append s)
  refine ⟨t, ht, ?_⟩
  rw [appendText, onTree, run_bind, run_checkPath_of_plain h.1]
  simp only [run_bind, run_get, Tree.append_eq_write, ht]
  rfl

theorem run_copy (source target : String) (w : Session) :
    (∃ e, run (copy source target) w = (.error e, w)) ∨
      ∃ c place, w.tree.content? source = .ok c ∧ w.tree.locate target = .ok place ∧
        Tree.namesDirectory target = false ∧ w.tree.node? place ≠ some .directory ∧
        run (copy source target) w = (.ok (), { w with tree := w.tree.put place (.file c) }) := by
  rw [copy, run_bind]
  rcases run_content source w with ⟨e, hrefused⟩ | ⟨c, hc, hread⟩
  · rw [hrefused]
    exact .inl ⟨e, rfl⟩
  rw [hread]
  dsimp only
  rcases run_onTree target _ w with hrefused | ⟨t, ht, hrun⟩
  · exact .inl hrefused
  · have hwrite : w.tree.write target c = .ok t := by
      split at ht
      next => cases ht
      next => exact ht
    obtain ⟨place, hlocate, hfile, hnode, rfl⟩ := Tree.write_eq_ok hwrite
    exact .inr ⟨c, place, hc, hlocate, hfile, hnode, hrun⟩

theorem run_setUpLog {level : Value} {n : Int} (h : Log.wish level = .ok (.level n)) (w : Session) :
    run (setUpLog level .null) w =
      (.ok (), { w with log := { threshold := n, console := true, file := none } }) := by
  rw [setUpLog, h]
  · rfl
  · nofun

/-- Making directories keeps all files and makes none, also where not all can be made. -/
theorem widens_ensureDirectory (p : Path) (w : Session) :
    w.Widens (run (ensureDirectory p) w).2 := by
  rw [ensureDirectory, run_bind]
  rcases run_checkPath p.text w with hok | ⟨e, hrefused⟩
  · rw [hok]
    simp only [run_bind, run_get, run_modify]
    have hwidens : w.tree.Widens (Tree.ensureDirectory p w.tree).1 :=
      Tree.widens_makeDirectories _ true p w.tree
    split
    next => exact ⟨rfl, hwidens⟩
    next => exact ⟨rfl, hwidens⟩
  · rw [hrefused]
    exact ⟨rfl, .refl w.tree⟩

end Action
end Provision
