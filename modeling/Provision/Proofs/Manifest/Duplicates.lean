import Mathlib.Data.List.Dedup
import Provision.Proofs.Manifest.Telling
import Provision.Proofs.Value.Scalar

namespace Provision.Manifest

open Steps

variable {m : Manifest} {r : Resource} {problems : List String} {x : Finding} {p : String}

section Counting

variable {α κ : Type} {again : α → α → Bool} {counted : α → Bool} {key : α → κ} {found : α → Finding}
  {xs : List α}

theorem any_again_iff {x : α} (h : ∀ y ∈ xs, again x y = true ↔
    counted x = true ∧ counted y = true ∧ key x = key y) :
    xs.any (again x) = true ↔ counted x = true ∧ key x ∈ (xs.filter counted).map key := by
  simp only [List.any_eq_true, List.mem_map, List.mem_filter]
  constructor
  · rintro ⟨y, hy, hagain⟩
    obtain ⟨hx, hcounted, he⟩ := (h y hy).1 hagain
    exact ⟨hx, y, ⟨hy, hcounted⟩, he.symm⟩
  · rintro ⟨hx, y, ⟨hy, hcounted⟩, he⟩
    exact ⟨y, hy, (h y hy).2 ⟨hx, hcounted, he.symm⟩⟩

theorem card_concat [DecidableEq κ] (ks : List κ) (k : κ) :
    (ks ++ [k]).toFinset.card = if k ∈ ks then ks.toFinset.card else ks.toFinset.card + 1 := by
  have hinsert : (ks ++ [k]).toFinset = insert k ks.toFinset := by
    ext a
    simp
  rw [hinsert]
  split
  next h => rw [Finset.insert_eq_of_mem (List.mem_toFinset.2 h)]
  next h => rw [Finset.card_insert_of_notMem (mt List.mem_toFinset.1 h)]

/-- Of what is counted, all that is not the first of its equals is a repetition. -/
theorem length_repeats_add_card [DecidableEq κ] (h : ∀ x ∈ xs, ∀ y ∈ xs, again x y = true ↔
    counted x = true ∧ counted y = true ∧ key x = key y) :
    (inTurn (repeats again found) xs).length + ((xs.filter counted).map key).toFinset.card =
      (xs.filter counted).length := by
  induction xs using List.reverseRecOn with
  | nil => rfl
  | append_singleton xs x ih =>
      have hxs := ih fun y hy z hz => h y (List.mem_append_left _ hy) z (List.mem_append_left _ hz)
      have hany : xs.any (again x) = true ↔ counted x = true ∧ key x ∈ (xs.filter counted).map key :=
        any_again_iff fun y hy => h x (by simp) y (List.mem_append_left _ hy)
      -- A counted member at the end is one more repetition or one more distinct value, never both.
      rw [inTurn_concat, List.length_append, repeats, List.filter_append]
      cases hx : counted x with
      | false =>
          have hnot : ¬ xs.any (again x) = true := by rw [hany, hx]; simp
          rw [if_neg hnot, List.filter_singleton, hx, cond_false, List.append_nil]
          exact hxs
      | true =>
          rw [List.filter_singleton, hx, cond_true, List.map_append, List.map_singleton, card_concat,
            List.length_append, ← hxs]
          by_cases hseen : key x ∈ (xs.filter counted).map key
          · rw [if_pos (hany.2 ⟨hx, hseen⟩), if_pos hseen, List.length_singleton, List.length_singleton]
            omega
          · rw [if_neg fun hagain => hseen (hany.1 hagain).2, if_neg hseen, List.length_singleton]
            rfl

end Counting

def isDuplicate (p : String) : Bool := p.startsWith "Duplicate "

/-- A finding, and the problem that it is told as. -/
def ToldAs (x : Finding) (p : String) : Prop := x.text = .ok p

theorem isDuplicate_of_toldAs (h : ToldAs x p) : isDuplicate p = x.isRepeat := x.startsWith_duplicate h

theorem filter_toldAs {xs : List Finding} (h : List.Forall₂ ToldAs xs problems) :
    List.Forall₂ ToldAs (xs.filter Finding.isRepeat) (problems.filter isDuplicate) := by
  refine List.rel_filter (fun x p hp => ?_) h
  simp only [isDuplicate_of_toldAs hp]

theorem filter_eq_nil_of_forall {xs : List Finding} (h : ∀ x ∈ xs, x.isRepeat = false) :
    xs.filter Finding.isRepeat = [] :=
  List.filter_eq_nil_iff.2 fun x hx => Bool.eq_false_iff.1 (h x hx)

/-- Of what is found one after another, the repetitions are kept, and nothing else. -/
theorem filter_repeats {α : Type} {again : α → α → Bool} {found : α → Finding}
    {g : α → List Finding} {xs : List α} (hfound : ∀ x, (found x).isRepeat = true)
    (hg : ∀ x, ∀ y ∈ g x, y.isRepeat = false) :
    (inTurn (fun before x => repeats again found before x ++ g x) xs).filter Finding.isRepeat =
      inTurn (repeats again found) xs := by
  rw [filter_inTurn]
  congr 1
  funext before x
  rw [List.filter_append, filter_eq_nil_of_forall (hg x), List.append_nil, repeats]
  split
  next => rw [List.filter_singleton, hfound x, cond_true]
  next => rfl

theorem filter_checkProviders (api : Value) (ps : List Provider) :
    (checkProviders api [] ps).filter Finding.isRepeat = inTurn (repeatedUnder api) ps := by
  rw [checkProviders_eq]
  refine filter_repeats (fun _ => rfl) fun p x hx => ?_
  obtain rfl : x = .unprefixed api p := by simpa using (List.mem_ite_nil_left.1 hx).2
  rfl

theorem isRepeat_of_checkBinding {s : Section} {ids : List String} (h : x ∈ checkBinding s ids r) :
    x.isRepeat = false := by
  obtain ⟨n, rfl⟩ | rfl := mem_checkBinding h
  · rfl
  · rfl

theorem filter_checkSection {s : Section} (ids : List String) {rs : List Resource}
    (h : ∀ r ∈ rs, (r.identifier s).hashable = true) :
    (checkSection s ids [] rs).filter Finding.isRepeat = inTurn (repeatedIn s) rs := by
  rw [checkSection_eq h]
  exact filter_repeats (fun _ => rfl) fun r x => isRepeat_of_checkBinding

theorem length_repeatedUnder (api : Value) (ps : List Provider) :
    (inTurn (repeatedUnder api) ps).length + (ps.map (·.id)).dedup.length = ps.length := by
  have hcount : (inTurn (repeatedUnder api) ps).length +
      ((ps.filter fun _ => true).map Provider.id).toFinset.card = (ps.filter fun _ => true).length :=
    length_repeats_add_card fun p _ q _ => by simp
  rwa [List.filter_true, List.card_toFinset] at hcount

def isConcrete (s : Section) (r : Resource) : Bool := !Placeholder.inValue (r.identifier s)

def concrete (m : Manifest) (s : Section) : List Value :=
  ((m.resources s).filter (isConcrete s)).map (Resource.identifier s)

theorem again_iff {s : Section} {q : Resource} :
    (!Placeholder.inValue (r.identifier s) && (r.identifier s).same (q.identifier s)) = true ↔
      isConcrete s r = true ∧ isConcrete s q = true ∧ (r.identifier s).same (q.identifier s) = true := by
  rw [Bool.and_eq_true, isConcrete, isConcrete]
  refine and_congr_right fun hr => (and_iff_right_of_imp fun hsame => ?_).symm
  rw [Bool.not_eq_true'] at hr ⊢
  by_contra hq
  rw [Bool.not_eq_false] at hq
  rw [Value.inValue_of_same hsame hq] at hr
  cases hr

theorem length_repeatedIn {s : Section} (h : Value.Scalars (m.identifiers s)) {reps : List Value}
    (hreps : Value.Representatives (m.concrete s) reps) :
    (inTurn (repeatedIn s) (m.resources s)).length + reps.length = (m.concrete s).length := by
  obtain ⟨meaning, hmeaning⟩ := Value.exists_meaning h
  have hmem {r : Resource} (hr : r ∈ m.resources s) : r.identifier s ∈ m.identifiers s :=
    List.mem_map_of_mem hr
  have hcount : (inTurn (repeatedIn s) (m.resources s)).length +
      (((m.resources s).filter (isConcrete s)).map fun r => meaning (r.identifier s)).toFinset.card =
        ((m.resources s).filter (isConcrete s)).length := by
    refine length_repeats_add_card fun r hr q hq => ?_
    rw [again_iff, hmeaning _ (hmem hr) _ (hmem hq)]
  have hkey : ∀ v ∈ m.concrete s, ∀ w ∈ m.concrete s, v.same w = true ↔ meaning v = meaning w := by
    intro v hv w hw
    obtain ⟨r, hr, rfl⟩ := List.mem_map.1 hv
    obtain ⟨q, hq, rfl⟩ := List.mem_map.1 hw
    exact hmeaning _ (hmem (List.mem_filter.1 hr).1) _ (hmem (List.mem_filter.1 hq).1)
  rw [hreps.length_eq hkey, concrete, List.map_map, List.length_map]
  exact hcount

theorem scalars_concrete {s : Section} (h : Value.Scalars (m.identifiers s)) :
    Value.Scalars (m.concrete s) := by
  intro v hv
  obtain ⟨r, hr, rfl⟩ := List.mem_map.1 hv
  exact h _ (List.mem_map_of_mem (List.mem_filter.1 hr).1)

theorem checkBinding_of_not_bound {s : Section} {ps : List Provider} (h : ¬ Bound ps r) :
    ∃ x, checkBinding s (ps.map (·.id)) r = [x] ∧ x.isRepeat = false := by
  have hone {c : Prop} [Decidable c] {x : Finding} (hfound : (if c then [] else [x]) ≠ []) :
      (if c then [] else [x]) = [x] := by
    split at hfound
    next => exact absurd rfl hfound
    next hc => exact if_neg hc
  have hfound : checkBinding s (ps.map (·.id)) r ≠ [] := mt checkBinding_eq_nil_iff.1 h
  obtain ⟨x, hx⟩ : ∃ x, checkBinding s (ps.map (·.id)) r = [x] := by
    rw [checkBinding] at hfound ⊢
    split at hfound
    next hnull => exact ⟨_, (if_pos hnull).trans (hone hfound)⟩
    next hnull => exact ⟨_, (if_neg hnull).trans (hone hfound)⟩
  exact ⟨x, hx, isRepeat_of_checkBinding (r := r) (by rw [hx]; exact List.mem_singleton_self x)⟩

/-- What is found of a section, and the problems that it is told as. -/
structure Reported (m : Manifest) (s : Section) (problems : List String) : Prop where
  inOrder : List.Forall₂ ToldAs (inTurn
    (fun before r => repeatedIn s before r ++ checkBinding s (m.providerIds s.api) r) (m.resources s)) problems
  repeated : List.Forall₂ ToldAs (inTurn (repeatedIn s) (m.resources s)) (problems.filter isDuplicate)
  count : ∀ reps, Value.Representatives (m.concrete s) reps →
    (problems.filter isDuplicate).length + reps.length = (m.concrete s).length
  bound : ∀ r ∈ m.resources s, Bound (m.providersOf s.api) r →
    checkBinding s (m.providerIds s.api) r = []
  unbound : ∀ r ∈ m.resources s, ¬ Bound (m.providersOf s.api) r →
    ∃ x, checkBinding s (m.providerIds s.api) r = [x] ∧ x.isRepeat = false

def sectionFindings (m : Manifest) (s : Section) : List Finding :=
  checkSection s (m.providerIds s.api) [] (m.resources s)

theorem hashable_of_scalars {s : Section} (h : Value.Scalars (m.identifiers s)) :
    ∀ r ∈ m.resources s, (r.identifier s).hashable = true :=
  fun _ hr => Value.hashable_of_isScalar (h _ (List.mem_map_of_mem hr)).1

theorem sectionFindings_unstuck {s : Section} (h : Value.Scalars (m.identifiers s)) :
    Unstuck (m.sectionFindings s) :=
  checkSection_unstuck_iff.2 (hashable_of_scalars h)

theorem reported {s : Section} (h : Value.Scalars (m.identifiers s))
    (htold : (m.sectionFindings s).mapM Finding.text = .ok problems) : Reported m s problems := by
  have htold : List.Forall₂ ToldAs (m.sectionFindings s) problems := mapM_eq_ok_iff.1 htold
  have hrepeated := filter_toldAs htold
  rw [sectionFindings, filter_checkSection _ (hashable_of_scalars h)] at hrepeated
  rw [sectionFindings, checkSection_eq (hashable_of_scalars h)] at htold
  refine ⟨htold, hrepeated, fun reps hreps => ?_, fun r _ => checkBinding_eq_nil_iff.2,
    fun r _ => checkBinding_of_not_bound⟩
  rw [← hrepeated.length_eq]
  exact length_repeatedIn h hreps

theorem filter_findings (h : ∀ s, Value.Scalars (m.identifiers s)) :
    m.findings.filter Finding.isRepeat = m.providers.flatMap (fun e => inTurn (repeatedUnder e.1) e.2) ++
      Section.all.flatMap (fun s => inTurn (repeatedIn s) (m.resources s)) := by
  have hname : m.checkName.filter Finding.isRepeat = [] :=
    filter_eq_nil_of_forall fun x hx => x.isRepeat_of_isGeneral (isGeneral_of_checkName hx)
  have hlisted (api : String) : (m.checkListed api).filter Finding.isRepeat = [] :=
    filter_eq_nil_of_forall fun x hx => x.isRepeat_of_isGeneral (isGeneral_of_checkListed hx)
  have hconfigured (api : Value) : (m.checkConfigured api).filter Finding.isRepeat = [] :=
    filter_eq_nil_of_forall fun x hx => x.isRepeat_of_isGeneral (isGeneral_of_checkConfigured hx)
  have hport : m.checkPort.filter Finding.isRepeat = [] :=
    filter_eq_nil_of_forall fun x hx => x.isRepeat_of_isGeneral (isGeneral_of_checkPort hx)
  have hsection (s : Section) := filter_checkSection (m.providerIds s.api) (hashable_of_scalars (h s))
  have hmodel (r : Resource) : (checkModel r).filter Finding.isRepeat = [] := by
    refine filter_eq_nil_of_forall fun x hx => ?_
    obtain rfl | rfl := mem_checkModel hx
    · rfl
    · rfl
  have hhashable (v : Value) : (checkHashable v).filter Finding.isRepeat = [] := by
    refine filter_eq_nil_of_forall fun x hx => ?_
    obtain ⟨rfl, -⟩ := mem_checkHashable hx
    rfl
  have hvectorDb (r : Resource) : (checkVectorDb m.embeddings r).filter Finding.isRepeat = [] := by
    refine filter_eq_nil_of_forall fun x hx => ?_
    obtain ⟨v, rfl, -⟩ | rfl := mem_checkVectorDb hx
    · rfl
    · rfl
  have hbenchmark (r : Resource) :
      (checkBenchmark (m.identifiers .datasets) r).filter Finding.isRepeat = [] := by
    refine filter_eq_nil_of_forall fun x hx => ?_
    obtain ⟨v, rfl, -⟩ | rfl := mem_checkBenchmark hx
    · rfl
    · rfl
  have hnone {α : Type} (as : List α) : as.flatMap (fun _ => ([] : List Finding)) = [] := by simp
  simp only [findings, List.filter_append, List.filter_flatMap, hname, hlisted, hconfigured,
    filter_checkProviders, hsection, hmodel, hhashable, hvectorDb, hbenchmark, hport, hnone,
    List.nil_append, List.append_nil]

/-- Each repetition of an identifier is reported, and nothing else is reported as one, unless an integer
that is too long to be written has to be shown. -/
theorem duplicates_reported (m : Manifest) (h : ∀ s, Value.Scalars (m.identifiers s)) :
    (∀ s, (∃ reps, Value.Representatives (m.concrete s) reps) ∧
      ((∀ x ∈ m.sectionFindings s, x.Tellable) → ∃ problems,
        (m.sectionFindings s).mapM Finding.text = .ok problems ∧ Reported m s problems) ∧
      ((∃ x ∈ m.sectionFindings s, ¬ x.Tellable) →
        (m.sectionFindings s).mapM Finding.text = .error .tooLong)) ∧
    ((∃ problems, m.validate = .ok problems) ↔ m.Comparable ∧ m.Tellable) ∧
    ∀ problems, m.validate = .ok problems →
      List.Forall₂ ToldAs (m.providers.flatMap (fun e => inTurn (repeatedUnder e.1) e.2) ++
        Section.all.flatMap (fun s => inTurn (repeatedIn s) (m.resources s)))
          (problems.filter isDuplicate) ∧
      ∀ e ∈ m.providers,
        (inTurn (repeatedUnder e.1) e.2).length + (e.2.map (·.id)).dedup.length = e.2.length := by
  refine ⟨fun s => ⟨Value.exists_representatives (scalars_concrete (h s)), fun htell => ?_, ?_⟩,
    validate_isOk_iff, fun problems hok => ⟨?_, fun e _ => length_repeatedUnder e.1 e.2⟩⟩
  · obtain ⟨problems, hproblems⟩ := Finding.texts_isOk_iff.2 fun x hx =>
      ⟨sectionFindings_unstuck (h s) x hx, htell x hx⟩
    exact ⟨problems, hproblems, reported (h s) hproblems⟩
  · rintro ⟨x, hx, hlong⟩
    cases htold : (m.sectionFindings s).mapM Finding.text with
    | ok problems => exact absurd (Finding.texts_isOk_iff.1 ⟨problems, htold⟩ x hx).2 hlong
    | error f =>
        rcases Finding.texts_eq_error htold with ⟨v, hv, -⟩ | ⟨-, rfl⟩
        · cases sectionFindings_unstuck (h s) _ hv
        · rfl
  · rw [← filter_findings h]
    exact filter_toldAs (validate_eq_ok_iff.1 hok)

theorem duplicates_reported_between_placeholders :
    let ids : List Value := [.text "llama", .text "$\x7benv.M\x7d", .int 1, .text "llama",
      .text "$\x7benv.M\x7d", .bool true, .text "llama"]
    let m : Manifest :=
      { providers := [(.text "inference", [⟨"tgi", "remote::tgi", []⟩, ⟨"vllm", "remote::vllm", []⟩,
          ⟨"tgi", "inline::tgi", []⟩])]
        resources := fun s => if s = .models then ids.map fun id => ⟨[("model_id", id)], []⟩ else [] }
    (∀ s, Value.Scalars (m.identifiers s)) ∧ ∃ problems, m.validate = .ok problems ∧
      problems.filter isDuplicate = ["Duplicate provider_id 'tgi' under 'inference'",
        "Duplicate model_id 'llama' in models", "Duplicate model_id 'True' in models",
        "Duplicate model_id 'llama' in models"] := by
  intro ids m
  have hscalars : ∀ s, Value.Scalars (m.identifiers s) := by
    intro s
    by_cases hs : s = .models
    · subst hs
      have hids : m.identifiers .models = ids := rfl
      rw [hids]
      simp [Value.Scalars, ids, Value.isScalar]
    · have hnone : m.identifiers s = [] := by simp [identifiers, m, hs]
      rw [hnone]
      exact List.forall_mem_nil _
  have hcomparable : m.Comparable := by
    refine ⟨fun s v hv => Value.hashable_of_isScalar (hscalars s v hv).1, ?_, ?_⟩
    · exact List.forall_mem_nil _
    · exact List.forall_mem_nil _
  have htellable : m.Tellable := by
    unfold Tellable Finding.Tellable
    decide +kernel
  obtain ⟨-, hanswer, hreport⟩ := duplicates_reported m hscalars
  obtain ⟨problems, hok⟩ := hanswer.2 ⟨hcomparable, htellable⟩
  refine ⟨hscalars, problems, hok, ?_⟩
  have hfound : (m.providers.flatMap (fun e => inTurn (repeatedUnder e.1) e.2) ++
      Section.all.flatMap (fun s => inTurn (repeatedIn s) (m.resources s))).mapM Finding.text =
        .ok ["Duplicate provider_id 'tgi' under 'inference'", "Duplicate model_id 'llama' in models",
          "Duplicate model_id 'True' in models", "Duplicate model_id 'llama' in models"] :=
    eq_ok_of_toOption (by decide +kernel)
  have htold := mapM_eq_ok_iff.2 (hreport problems hok).1
  exact (Except.ok.inj (hfound.symm.trans htold)).symm

/-- An identifier that is too long to be shown is there twice, and no report says so. -/
theorem no_report_of_long_identifier :
    ¬ ∀ (d : Value) (m : Manifest), ofValue d = .ok m → (∀ s, Value.Scalars (m.identifiers s)) → ∀ s,
      ∃ problems, (m.sectionFindings s).mapM Finding.text = .ok problems ∧
        ∀ reps, Value.Representatives (m.concrete s) reps →
          (problems.filter isDuplicate).length + reps.length = (m.concrete s).length := by
  intro hevery
  let model := Value.record [("model_id", .int longInteger)]
  let d := Value.record [("image_name", .text "dell"), ("models", .ofList [model, model])]
  have hread : (ofValue d).toOption.any (fun m =>
      Section.all.all (fun s => (m.identifiers s).all Value.isInt) &&
        ((m.sectionFindings .models).mapM Finding.text).toOption.isNone) = true := by decide +kernel
  obtain ⟨m, hm, hfacts⟩ := (Option.any_eq_true _ _).1 hread
  obtain ⟨hints, hnone⟩ := Bool.and_eq_true_iff.1 hfacts
  have hscalars : ∀ s, Value.Scalars (m.identifiers s) := by
    intro s v hv
    have hint := List.all_eq_true.1 (List.all_eq_true.1 hints s (mem_all_sections s)) v hv
    cases v with
    | int n => exact ⟨rfl, nofun⟩
    | _ => cases hint
  obtain ⟨problems, hok, -⟩ := hevery d m (eq_ok_of_toOption hm) hscalars .models
  rw [hok] at hnone
  cases hnone

end Provision.Manifest
