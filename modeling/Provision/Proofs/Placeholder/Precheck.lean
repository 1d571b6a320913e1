import Provision.Proofs.Placeholder.Leaves
import Provision.Proofs.Placeholder.Merging

namespace Provision.Placeholder

open Reference (find missing merge summary unset)

variable {env : Environment} {v : Value}

theorem mem_occurrences {path : String} {o : Occurrence} :
    o ∈ occurrences path v ↔
      ∃ l ∈ leaves path v, o.placeholder ∈ all l.text ∧ o.path = l.path := by
  rw [occurrences, List.mem_flatMap]
  constructor
  · rintro ⟨l, hl, ho⟩
    obtain ⟨p, hp, rfl⟩ := List.mem_map.1 ho
    exact ⟨l, hl, hp, rfl⟩
  · rintro ⟨l, hl, hp, hpath⟩
    refine ⟨l, hl, List.mem_map.2 ⟨o.placeholder, hp, ?_⟩⟩
    rw [← hpath]

/-- The references of a value are collected unless some key cannot be told. -/
theorem walked_find (v : Value) (path : String) :
    Walked (isPlaced v) (find v path) (summary (occurrences path v)) := by
  have hwalk := walked_collect path v
  rw [Walked] at hwalk ⊢
  rw [find, hwalk]
  cases isPlaced v with
  | false => rfl
  | true => exact congrArg Except.ok (Reference.foldl_insert_eq_summary _)

theorem walked_missing (env : Environment) (v : Value) :
    Walked (isPlaced v) (missing env v) (unset env (summary (occurrences "" v))) := by
  have hwalk := walked_find v ""
  rw [Walked] at hwalk ⊢
  rw [missing, hwalk]
  cases isPlaced v <;> rfl

theorem find_eq_ok_iff {path : String} {rs : List Reference} :
    find v path = .ok rs ↔ isPlaced v = true ∧ summary (occurrences path v) = rs :=
  (walked_find v path).eq_ok_iff

/-- A variable is missing when some text requires it and the environment does not set it. -/
theorem mem_unset {name : String} :
    name ∈ unset env (summary (occurrences "" v)) ↔
      ∃ l ∈ leaves "" v, ⟨name, .required⟩ ∈ all l.text ∧ env.get? name = none := by
  simp only [unset, List.mem_map, List.mem_filter, Bool.and_eq_true, Option.isNone_iff_eq_none]
  constructor
  · rintro ⟨r, ⟨hr, hreq, henv⟩, rfl⟩
    obtain ⟨o, -, rfl⟩ := Reference.mem_summary.1 hr
    obtain ⟨o', ho', hp⟩ := Reference.merge_required.1 hreq
    obtain ⟨l, hl, hall, -⟩ := mem_occurrences.1 ho'
    rw [Reference.merge_name] at henv ⊢
    exact ⟨l, hl, hp ▸ hall, henv⟩
  · rintro ⟨l, hl, hp, henv⟩
    have ho : ⟨⟨name, .required⟩, l.path⟩ ∈ occurrences "" v := mem_occurrences.2 ⟨l, hl, hp, rfl⟩
    exact ⟨merge _ name, ⟨Reference.mem_summary.2 ⟨_, ho, rfl⟩,
      Reference.merge_required.2 ⟨_, ho, rfl⟩, by simpa using henv⟩, by simp⟩

theorem unset_eq_nil_iff :
    unset env (summary (occurrences "" v)) = [] ↔
      ∀ l ∈ leaves "" v, ∀ p, .hole p ∈ segments l.text → p.value? env ≠ none := by
  rw [List.eq_nil_iff_forall_not_mem]
  constructor
  · intro h l hl p hp hv
    obtain ⟨hform, henv⟩ := value?_eq_none_iff.1 hv
    refine h p.name (mem_unset.2 ⟨l, hl, ?_, henv⟩)
    rw [← hform]
    exact mem_all.2 hp
  · intro h name hname
    obtain ⟨l, hl, hp, henv⟩ := mem_unset.1 hname
    exact h l hl _ (mem_all.1 hp) (value?_eq_none_iff.2 ⟨rfl, henv⟩)

theorem missing_of_replace {w : Value} (h : replace env "" v = .ok w) : missing env v = .ok [] := by
  refine (walked_missing env v).eq_ok_iff.2 ⟨(isPlaced_of_replace h).1, ?_⟩
  refine unset_eq_nil_iff.2 fun l hl p hp hnone => ?_
  obtain ⟨u, hu⟩ := (replace_eq_ok h).1 l hl
  obtain ⟨cs, hcs, -⟩ := substitute_eq_ok hu
  obtain ⟨s, hs⟩ := value?_of_fill hcs hp
  rw [hnone] at hs
  cases hs

/-- The place at which substitution fails is one of the places of the variable's reference. -/
theorem summary_of_unset {l : Leaf} (hl : l ∈ leaves "" v) {p : Placeholder}
    (hp : .hole p ∈ segments l.text) :
    ∃ r ∈ summary (occurrences "" v), r.name = p.name ∧ l.path ∈ r.paths ∧
      ∀ q ∈ summary (occurrences "" v), q.name = p.name → q = r := by
  have ho : ⟨p, l.path⟩ ∈ occurrences "" v := mem_occurrences.2 ⟨l, hl, mem_all.2 hp, rfl⟩
  refine ⟨merge _ p.name, Reference.mem_summary.2 ⟨_, ho, rfl⟩, by simp,
    Reference.mem_merge_paths.2 ⟨_, ho, rfl, rfl⟩, ?_⟩
  intro q hq hname
  obtain ⟨o, -, rfl⟩ := Reference.mem_summary.1 hq
  rw [Reference.merge_name] at hname
  rw [hname]

/-- The report and the substitution agree. Where no key is an integer that is too long to be told, a variable
at which substitution fails is reported, with the place of the failure; where a variable is reported
substitution does not succeed; where none is it succeeds, unless a whole text is an integer too long to be
read. Where some key is, there is no report, and substitution does not succeed either. -/
theorem replace_agrees_with_missing (env : Environment) (v : Value) :
    (isPlaced v = true → ∃ names rs, missing env v = .ok names ∧ find v "" = .ok rs ∧
      (∀ name path, replace env "" v = .error (.unset name path) →
        name ∈ names ∧ ∃ r ∈ rs, r.name = name ∧ path ∈ r.paths ∧
          ∀ q ∈ rs, q.name = name → q = r) ∧
      (names ≠ [] → ∀ w, replace env "" v ≠ .ok w) ∧
      (names = [] →
        (∃ w, replace env "" v = .ok w) ∨
          ∃ l ∈ leaves "" v, ∃ n, Overlong env l.text n ∧
            replace env "" v = .error (.trouble .value (Failure.tooManyDigits n)))) ∧
    (isPlaced v = false → missing env v = .error .tooLong ∧ find v "" = .error .tooLong ∧
      ∀ w, replace env "" v ≠ .ok w) := by
  refine ⟨fun hplaced => ?_, fun hlong => ?_⟩
  · refine ⟨_, _, (walked_missing env v).eq_ok_iff.2 ⟨hplaced, rfl⟩, find_eq_ok_iff.2 ⟨hplaced, rfl⟩,
      ?_, ?_, ?_⟩
    · intro name path h
      -- All keys can be told, so that it is a text at which the substitution stops.
      rcases replace_eq_error h with ⟨l, hl, hs⟩ | ⟨hlong, -⟩
      · rcases substitute_eq_error hs with ⟨p, hp, hv, he⟩ | ⟨n, -, he⟩
        · obtain ⟨rfl, rfl⟩ := Failure.unset.inj he
          obtain ⟨hform, henv⟩ := value?_eq_none_iff.1 hv
          refine ⟨mem_unset.2 ⟨l, hl, ?_, henv⟩, summary_of_unset hl hp⟩
          rw [← hform]
          exact mem_all.2 hp
        · exact absurd he (by simp)
      · rw [hplaced] at hlong
        cases hlong
    · intro hmiss w hw
      have hnone := ((walked_missing env v).eq_ok_iff.1 (missing_of_replace hw)).2
      exact hmiss hnone
    · intro hmiss
      cases hr : replace env "" v with
      | ok w => exact .inl ⟨w, rfl⟩
      | error f =>
          refine .inr ?_
          rcases replace_eq_error hr with ⟨l, hl, hs⟩ | ⟨hlong, -⟩
          · rcases substitute_eq_error hs with ⟨p, hp, hv, -⟩ | ⟨n, hlong, rfl⟩
            · exact absurd hv (unset_eq_nil_iff.1 hmiss l hl p hp)
            · exact ⟨l, hl, n, hlong, rfl⟩
          · rw [hplaced] at hlong
            cases hlong
  · refine ⟨(walked_missing env v).eq_error_iff.2 ⟨hlong, rfl⟩,
      (walked_find v "").eq_error_iff.2 ⟨hlong, rfl⟩, fun w hw => ?_⟩
    rw [(isPlaced_of_replace hw).1] at hlong
    cases hlong

theorem replace_agrees_with_missing_at_second_place :
    let v := Value.record [("a", .ofList [.text "$\x7benv.X:=1\x7d", .text "<$\x7benv.X\x7d>"])]
    isPlaced v = true ∧ replace [] "" v = .error (.unset "X" "a[1]") ∧
      ∃ names rs, missing [] v = .ok names ∧ find v "" = .ok rs ∧ "X" ∈ names ∧
        ∃ r ∈ rs, r.name = "X" ∧ "a[1]" ∈ r.paths := by
  intro v
  have hplaced : isPlaced v = true := by rfl
  have hfail : replace [] "" v = .error (.unset "X" "a[1]") := by rfl
  obtain ⟨names, rs, hmissing, hfind, hunset, -⟩ := (replace_agrees_with_missing [] v).1 hplaced
  obtain ⟨hname, r, hr, hrname, hpath, -⟩ := hunset "X" "a[1]" hfail
  exact ⟨hplaced, hfail, names, rs, hmissing, hfind, hname, r, hr, hrname, hpath⟩

/-- A variable before a key that is too long to be told is missed by the substitution and by no report. -/
theorem unset_before_long_key :
    ¬ ∀ (env : Environment) (v : Value) (name path : String),
      replace env "" v = .error (.unset name path) →
        ∃ names, missing env v = .ok names ∧ name ∈ names := by
  intro h
  let v : Value := .ofEntries [(.text "a", .text "$\x7benv.X\x7d"), (.int longInteger, .int 1)]
  have hlong : isPlaced v = false := by
    simp [v, Value.ofEntries, isPlaced, allPlacedEntries, Value.isShort, isLong_longInteger]
  obtain ⟨names, hnames, -⟩ := h [] v "X" "a" (by rfl)
  rw [((walked_missing [] v).eq_ok_iff.1 hnames).1] at hlong
  cases hlong

end Provision.Placeholder
