import Mathlib.Data.List.Infix
import Provision.Proofs.Placeholder.Precheck

namespace Provision.Placeholder

variable {env : Environment}

def isMark (c : Char) : Bool := c == '$' || c == '{' || c == '}'

def MarkFree (cs : List Char) : Prop := ∀ c ∈ cs, isMark c = false

/-- How far a placeholder has been read. -/
inductive Stage where
  | opening (rest : List Char)
  | name
  | sign
  | operand
  | closed
  deriving DecidableEq, Repr

namespace Stage

def start : Stage := opening Placeholder.opening

/-- The stage after one more character, if a placeholder can still be read. -/
def next : Stage → Char → Option Stage
  | opening (p :: ps), c => if p = c then some (opening ps) else none
  | opening [], c => if isNameChar c then some name else none
  | name, c =>
    if isNameChar c then some name
    else if c = '}' then some closed
    else if c = ':' then some sign
    else none
  | sign, c => if c = '=' || c = '+' then some operand else none
  | operand, c => some (if c = '}' then closed else operand)
  | closed, _ => some closed

def run : Stage → List Char → Option Stage
  | q, [] => some q
  | q, c :: cs => (q.next c).bind (run · cs)

/-- The stages that texts without marks lead to from inside an opening. -/
def opened : List Char → List Stage
  | [] => [opening [], name, sign, operand]
  | c :: cs => opening (c :: cs) :: if isMark c then [] else opened cs

def reach : Stage → List Stage
  | opening cs => opened cs
  | name => [name, sign, operand]
  | sign => [sign, operand]
  | operand => [operand]
  | closed => [closed]

def after (q : Stage) : Form → List Stage
  | .required => q.reach
  | .fallback s => (q.run s.toList).toList ++ q.reach
  | .alternate s => (q.run s.toList).toList ++ [q]

theorem run_append (q : Stage) (cs ds : List Char) :
    q.run (cs ++ ds) = (q.run cs).bind (run · ds) := by
  induction cs generalizing q with
  | nil => rfl
  | cons c cs ih =>
      rw [List.cons_append, run, run]
      cases q.next c with
      | none => rfl
      | some q' => exact ih q'

theorem mem_reach_self (q : Stage) : q ∈ q.reach := by
  cases q with
  | opening cs => cases cs <;> simp [reach, opened]
  | _ => simp [reach]

theorem mem_reach_of_next {q q' r : Stage} {c : Char} (hc : isMark c = false)
    (hn : q.next c = some q') (hr : r ∈ q'.reach) : r ∈ q.reach := by
  have hbrace : c ≠ '}' := by
    rintro rfl
    simp [isMark] at hc
  cases q with
  | opening cs =>
      cases cs with
      | nil =>
          simp only [next, Option.ite_none_right_eq_some, Option.some.injEq] at hn
          obtain ⟨-, rfl⟩ := hn
          exact List.mem_cons_of_mem _ hr
      | cons p ps =>
          simp only [next, Option.ite_none_right_eq_some, Option.some.injEq] at hn
          obtain ⟨rfl, rfl⟩ := hn
          rw [reach, opened, hc]
          exact List.mem_cons_of_mem _ hr
  | name =>
      simp only [next, hbrace, if_false] at hn
      split at hn
      next =>
        cases hn
        exact hr
      next =>
        simp only [Option.ite_none_right_eq_some, Option.some.injEq] at hn
        obtain ⟨-, rfl⟩ := hn
        exact List.mem_cons_of_mem _ hr
  | sign =>
      simp only [next, Option.ite_none_right_eq_some, Option.some.injEq] at hn
      obtain ⟨-, rfl⟩ := hn
      exact List.mem_cons_of_mem _ hr
  | operand =>
      simp only [next, hbrace, if_false, Option.some.injEq] at hn
      exact hn ▸ hr
  | closed =>
      cases hn
      exact hr

theorem mem_reach_of_run {q r : Stage} {cs : List Char} (hcs : MarkFree cs)
    (h : q.run cs = some r) : r ∈ q.reach := by
  induction cs generalizing q with
  | nil =>
      cases h
      exact mem_reach_self _
  | cons c cs ih =>
      obtain ⟨q', hn, hr⟩ := Option.bind_eq_some_iff.1 h
      exact mem_reach_of_next (hcs c List.mem_cons_self) hn
        (ih (fun d hd => hcs d (List.mem_cons_of_mem _ hd)) hr)

theorem isMark_of_run_start {c : Char} {cs : List Char} {q : Stage}
    (h : start.run (c :: cs) = some q) : isMark c = true := by
  obtain ⟨q', hn, -⟩ := Option.bind_eq_some_iff.1 h
  simp only [start, Placeholder.opening, next, Option.ite_none_right_eq_some] at hn
  rw [← hn.1]
  decide

theorem run_name {cs : List Char} (h : ∀ c ∈ cs, isNameChar c) : name.run cs = some name := by
  induction cs with
  | nil => rfl
  | cons c cs ih =>
      rw [run, next, if_pos (h c List.mem_cons_self)]
      exact ih fun d hd => h d (List.mem_cons_of_mem _ hd)

theorem run_operand {cs : List Char} (h : '}' ∉ cs) : operand.run cs = some operand := by
  induction cs with
  | nil => rfl
  | cons c cs ih =>
      obtain ⟨hc, hcs⟩ := not_or.1 (mt List.mem_cons.2 h)
      rw [run, next, if_neg (Ne.symm hc)]
      exact ih hcs

theorem run_closed (cs : List Char) : closed.run cs = some closed := by
  induction cs with
  | nil => rfl
  | cons c cs ih => exact ih

/-- A placeholder that is read at the start of a text is read through all stages. -/
theorem run_of_read {cs rest : List Char} {p : Placeholder} (h : read? cs = some (p, rest)) :
    start.run cs = some closed := by
  obtain ⟨rfl, hne, hname, hbrace⟩ := read?_eq_some h
  have hopen : start.run Placeholder.opening = some (opening []) := by decide
  have hnamed : (opening []).run p.name.toList = some name := by
    obtain ⟨c, cs, hc⟩ := List.exists_cons_of_ne_nil hne
    rw [hc] at hname ⊢
    rw [run, next, if_pos (hname c List.mem_cons_self)]
    exact run_name fun d hd => hname d (List.mem_cons_of_mem _ hd)
  have hform : (name.run p.form.text.toList).bind (next · '}') = some closed := by
    have hoperand {sign s : String} (hsign : name.run sign.toList = some operand)
        (hs : '}' ∉ (sign ++ s).toList) :
        (name.run (sign ++ s).toList).bind (next · '}') = some closed := by
      rw [String.toList_append] at hs ⊢
      rw [run_append, hsign, Option.bind_some,
        run_operand fun hm => hs (List.mem_append_right _ hm)]
      rfl
    cases hf : p.form with
    | required => decide
    | fallback s =>
        rw [hf] at hbrace
        exact hoperand (by decide) hbrace
    | alternate s =>
        rw [hf] at hbrace
        exact hoperand (by decide) hbrace
  obtain ⟨q, hq, hclose⟩ := Option.bind_eq_some_iff.1 hform
  rw [run_append, hopen, Option.bind_some, run_append, hnamed, Option.bind_some, run_append, hq,
    Option.bind_some, run, hclose]
  exact run_closed rest

end Stage

def Form.operand : Form → String
  | .required => ""
  | .fallback s | .alternate s => s

/-- Whether segments can spell the rest of a placeholder that has been read up to a stage. -/
def closes : List Segment → Stage → Bool
  | [], q => q = .closed
  | .char c :: segs, q => (q.next c).any (closes segs)
  | .hole p :: segs, q => (q.after p.form).any (closes segs)

/-- Whether segments can spell a placeholder once their own are replaced by texts without marks. It
begins at one of their characters or within an operand. -/
def reopens : List Segment → Bool
  | [] => false
  | .char c :: segs => (Stage.start.next c).any (closes segs) || reopens segs
  | .hole p :: segs =>
    ((Form.operand p.form).toList.tails.any fun u => (Stage.start.run u).any (closes segs))
      || reopens segs

inductive Filler : Segment → List Char → Prop
  | char (c : Char) : Filler (.char c) [c]
  | value {name : String} {t : List Char} (ht : MarkFree t) : Filler (.hole ⟨name, .required⟩) t
  | given {name s : String} {t : List Char} (ht : MarkFree t) :
      Filler (.hole ⟨name, .fallback s⟩) t
  | fallback {name s : String} : Filler (.hole ⟨name, .fallback s⟩) s.toList
  | alternate {name s : String} : Filler (.hole ⟨name, .alternate s⟩) s.toList
  | absent {name s : String} : Filler (.hole ⟨name, .alternate s⟩) []

def Unmarked (env : Environment) : Prop := ∀ e ∈ env, MarkFree e.2.toList

theorem markFree_of_get? (henv : Unmarked env) {name s : String}
    (h : env.get? name = some s) : MarkFree s.toList := by
  obtain ⟨as, bs, rfl, -⟩ := List.lookup_eq_some_iff.1 h
  exact henv (name, s) (by simp)

theorem filler_of_piece (henv : Unmarked env) {g : Segment} {t : List Char} (h : Piece env g t) :
    Filler g t := by
  cases h with
  | char c => exact .char c
  | @hole p s hv =>
      obtain ⟨name, form⟩ := p
      cases form with
      | required => exact .value (markFree_of_get? henv hv)
      | fallback o =>
          simp only [value?, Option.some.injEq] at hv
          cases hn : env.nonempty? name with
          | none =>
              rw [hn, Option.getD_none] at hv
              exact hv ▸ .fallback
          | some u =>
              obtain ⟨hu, -⟩ := Option.filter_eq_some_iff.1 hn
              rw [hn, Option.getD_some] at hv
              exact .given (markFree_of_get? henv (hv ▸ hu))
      | alternate o =>
          simp only [value?, Option.some.injEq] at hv
          split at hv
          next => exact hv ▸ .alternate
          next => exact hv ▸ .absent

theorem mem_after {q r : Stage} {p : Placeholder} {t : List Char} (ht : Filler (.hole p) t)
    (h : q.run t = some r) : r ∈ q.after p.form := by
  cases ht with
  | value ht => exact Stage.mem_reach_of_run ht h
  | given ht => exact List.mem_append_right _ (Stage.mem_reach_of_run ht h)
  | fallback => exact List.mem_append_left _ (by simpa using h)
  | alternate => exact List.mem_append_left _ (by simpa using h)
  | absent =>
      cases h
      exact List.mem_append_right _ List.mem_cons_self

theorem eq_operand_of_isMark {p : Placeholder} {t : List Char} (ht : Filler (.hole p) t)
    {c : Char} (hc : c ∈ t) (hm : isMark c = true) : t = (Form.operand p.form).toList := by
  have absurdMark (hfree : MarkFree t) : t = (Form.operand p.form).toList := by
    rw [hfree c hc] at hm
    cases hm
  cases ht with
  | value hfree => exact absurdMark hfree
  | given hfree => exact absurdMark hfree
  | fallback => rfl
  | alternate => rfl
  | absent => cases hc

/-- Segments whose fillers complete a placeholder are seen to do so. -/
theorem closes_of_run {segs : List Segment} {ts : List (List Char)} {q : Stage}
    (hts : List.Forall₂ Filler segs ts) (h : q.run ts.flatten = some .closed) :
    closes segs q = true := by
  induction hts generalizing q with
  | nil =>
      cases h
      rfl
  | @cons g t segs ts hg _ ih =>
      rw [List.flatten_cons, Stage.run_append] at h
      obtain ⟨r, hr, hrest⟩ := Option.bind_eq_some_iff.1 h
      cases g with
      | char c =>
          cases hg
          have hn : q.next c = some r := by simpa [Stage.run] using hr
          rw [closes, hn]
          exact ih hrest
      | hole p =>
          rw [closes, List.any_eq_true]
          exact ⟨r, mem_after hg hr, ih hrest⟩

/-- Segments whose fillers spell a placeholder somewhere are seen to do so. -/
theorem reopens_of_run {segs : List Segment} {ts : List (List Char)} {u : List Char}
    (hts : List.Forall₂ Filler segs ts) (hu : u <:+ ts.flatten)
    (h : Stage.start.run u = some .closed) : reopens segs = true := by
  induction hts generalizing u with
  | nil =>
      rw [List.suffix_nil.1 hu] at h
      exact absurd h (by decide)
  | @cons g t segs ts hg hts ih =>
      have here {w : List Char} (hw : Stage.start.run (w ++ ts.flatten) = some .closed) :
          (Stage.start.run w).any (closes segs) = true := by
        rw [Stage.run_append] at hw
        obtain ⟨r, hr, hw⟩ := Option.bind_eq_some_iff.1 hw
        rw [hr]
        exact closes_of_run hts hw
      have later (hu : u <:+ ts.flatten) : reopens (g :: segs) = true := by
        cases g <;> rw [reopens, ih hu h, Bool.or_true]
      obtain ⟨as, hu⟩ := hu
      rw [List.flatten_cons] at hu
      rcases List.append_eq_append_iff.1 hu with ⟨w, ht, rfl⟩ | ⟨bs, -, hbs⟩
      · have hw : w <:+ t := ⟨as, ht.symm⟩
        cases w with
        | nil => exact later (by simp)
        | cons c w =>
            cases g with
            | char d =>
                cases hg
                obtain ⟨rfl, rfl⟩ : c = d ∧ w = [] := by simpa [List.suffix_cons_iff] using hw
                rw [reopens, Bool.or_eq_true]
                exact .inl (by simpa [Stage.run] using here h)
            | hole p =>
                -- It opens with a mark, which no text of a variable has.
                have hoperand : t = (Form.operand p.form).toList :=
                  eq_operand_of_isMark hg (hw.subset List.mem_cons_self)
                    (Stage.isMark_of_run_start h)
                rw [hoperand] at hw
                rw [reopens, Bool.or_eq_true, List.any_eq_true]
                exact .inl ⟨_, (List.mem_tails _ _).2 hw, here h⟩
      · exact later ⟨bs, hbs.symm⟩

theorem not_inText_of_substitute {path s t : String} (henv : Unmarked env)
    (hs : reopens (segments s) = false) (h : substitute env path s = .ok (.text t)) :
    inText t = false := by
  obtain ⟨cs, hcs, rfl⟩ : ∃ cs, fill env path (segments s) = .ok cs ∧ t = String.ofList cs := by
    rcases substitute_result h with ⟨_, hb⟩ | ⟨_, hn⟩ | ⟨_, hx⟩ | ⟨cs, hcs, ht⟩
    · cases hb
    · cases hn
    · cases hx
    · exact ⟨cs, hcs, Value.text.inj ht⟩
  rw [Bool.eq_false_iff]
  intro hin
  obtain ⟨ts, hts, rfl⟩ := fill_eq_ok_iff.1 hcs
  obtain ⟨u, hu, p, rest, hr⟩ := exists_suffix_of_inText hin
  have hfill : List.Forall₂ Filler (segments s) ts :=
    hts.imp fun _ _ hg => filler_of_piece henv hg
  rw [reopens_of_run hfill hu (Stage.run_of_read hr)] at hs
  cases hs

/-- Resolution is complete for values whose texts cannot spell new placeholders: with variables
without marks no placeholder is left, and further substitutions change nothing. -/
theorem no_placeholder_left {env : Environment} {v w : Value} (henv : Unmarked env)
    (hv : ∀ l ∈ leaves "" v, reopens (segments l.text) = false)
    (h : replace env "" v = .ok w) :
    (∀ l ∈ leaves "" w, inText l.text = false) ∧ Reference.find w "" = .ok [] ∧
      ∀ env' : Environment, replace env' "" w = .ok w := by
  have hleaves : ∀ l ∈ leaves "" w, inText l.text = false := by
    intro l hl
    obtain ⟨k, hk, hs⟩ := (replace_eq_ok h).2 l hl
    exact not_inText_of_substitute henv (hv k hk) hs
  refine ⟨hleaves, ?_, replace_again h hleaves⟩
  have hnone : occurrences "" w = [] := by
    rw [occurrences, List.flatMap_eq_nil_iff]
    intro l hl
    rw [Leaf.occurrences, inText_eq_false_iff.1 (hleaves l hl), List.map_nil]
  rw [find_eq_ok_iff, hnone]
  exact ⟨(isPlaced_of_replace h).2, rfl⟩

theorem no_placeholder_left_among_marks :
    let env : Environment := [("HOST", "db"), ("DIR", "env.")]
    let v := Value.record [("url", .text "$\x7benv.HOST\x7d:$\x7benv.PORT:=\x7b5432\x7d/$\x7bdb\x7d"),
      ("paths", .ofList [.text "$$\x7benv.DIR\x7d", .text "$\x7benv.KEY:+\x7b$\x7d\x7d"])]
    let w := Value.record [("url", .text "db:\x7b5432/$\x7bdb\x7d"),
      ("paths", .ofList [.text "$env.", .text "\x7d"])]
    Unmarked env ∧ (∀ l ∈ leaves "" v, reopens (segments l.text) = false) ∧
      replace env "" v = .ok w ∧ Reference.find w "" = .ok [] ∧
        ∀ env' : Environment, replace env' "" w = .ok w := by
  intro env v w
  have henv : Unmarked env := by simp [env, Unmarked, MarkFree, isMark]
  have hv : ∀ l ∈ leaves "" v, reopens (segments l.text) = false := by decide
  have h : replace env "" v = .ok w := by
    simp only [env, v, w]
    rfl
  obtain ⟨-, hfind, hagain⟩ := no_placeholder_left henv hv h
  exact ⟨henv, hv, h, hfind, hagain⟩

/-- A placeholder within an operand is left over: the operand ends at the first closing brace. -/
theorem placeholder_left_of_operand :
    ¬ ∀ (env : Environment) (v w : Value), Unmarked env → replace env "" v = .ok w →
      Reference.find w "" = .ok [] ∧ ∀ env' : Environment, replace env' "" w = .ok w := by
  intro h
  have hleft := (h [] (.text "$\x7benv.A:=$\x7benv.B\x7d\x7d") (.text "$\x7benv.B\x7d")
    (by simp [Unmarked]) (by rfl)).1
  exact absurd (find_eq_ok_iff.1 hleft).2 (by decide)

end Provision.Placeholder
