import Provision.Proofs.Placeholder.Occurrences
import Provision.Proofs.Template.Overlay
import Provision.Template.Page

namespace Provision

def Manifest.found (m : Manifest) : List Reference :=
  Reference.summary (Placeholder.occurrences "" m.toValue)

theorem Manifest.references_eq_ok_iff {m : Manifest} {rs : List Reference} :
    m.references = .ok rs ↔ Placeholder.isPlaced m.toValue = true ∧ m.found = rs :=
  Placeholder.find_eq_ok_iff

namespace Template

open Placeholder (Occurs Walks exists_walk exists_walks)
open Reference (names merge)
open Steps

variable {t : Template} {name file : String} {rs : List Reference} {r : Reference}

/-- A placeholder stands in a run file: the number of the file, then the position in its document. -/
inductive Mentions (t : Template) : List Nat → Occurrence → Prop
  | intro {i : Nat} {file : String} {m : Manifest} {pos : List Nat} {o : Occurrence}
      (hfile : t.runFiles[i]? = some file) (hm : t.runConfig file = .ok m)
      (ho : Occurs "" m.toValue pos o) : Mentions t (i :: pos) o

/-- A variable stands in a run file before the other one stands anywhere. -/
def Before (t : Template) (name name' : String) : Prop :=
  ∃ pos o, t.Mentions pos o ∧ o.placeholder.name = name ∧
    ∀ pos' o', t.Mentions pos' o' → o'.placeholder.name = name' → pos < pos'

def Refers (t : Template) (name file : String) : Prop :=
  ∃ m rs, t.runConfig file = .ok m ∧ m.references = .ok rs ∧ ∃ r ∈ rs, r.name = name

def Requires (t : Template) (name file : String) : Prop :=
  ∃ m rs, t.runConfig file = .ok m ∧ m.references = .ok rs ∧ ∃ r ∈ rs, r.name = name ∧ r.required = true

def Placed (t : Template) : Prop :=
  ∀ v ∈ t.variants, Placeholder.isPlaced (t.manifest v.2).toValue = true

def occurrences (t : Template) : List Occurrence :=
  t.variants.flatMap fun v => Placeholder.occurrences "" (t.manifest v.2).toValue

def mergedReferences (t : Template) : List Reference :=
  firstReferences (t.variants.flatMap fun v => (t.manifest v.2).found)

def listing (t : Template) : List Variable :=
  t.documented.map (documentedVariable t.mergedReferences) ++
    (t.mergedReferences.filter fun r => (t.documented.lookup r.name).isNone).map mentionedVariable

theorem references_of_placed (hp : t.Placed) {v : Variant} (hv : (file, v) ∈ t.variants) :
    (t.manifest v).references = .ok (t.manifest v).found :=
  Manifest.references_eq_ok_iff.2 ⟨hp (file, v) hv, rfl⟩

theorem referencesByFile_of_placed (hp : t.Placed) :
    t.referencesByFile = .ok (t.variants.map fun v => (t.manifest v.2).found) := by
  refine mapM_eq_ok_iff.2 ?_
  rw [List.forall₂_map_right_iff, List.forall₂_same]
  exact fun v hv => references_of_placed hp hv

theorem variableList_of_placed (hp : t.Placed) : t.variableList = .ok t.listing := by
  rw [variableList, referencesByFile_of_placed hp, ok_bind, ← List.flatMap_def]
  rfl

theorem variableList_of_not_placed (hp : ¬ t.Placed) : t.variableList = .error .tooLong := by
  have hlong : ∃ v ∈ t.variants, ¬ Placeholder.isPlaced (t.manifest v.2).toValue = true := by
    simpa [Placed] using hp
  refine bind_eq_error_iff.2 (.inl (mapM_eq_error_iff.2 ?_))
  obtain ⟨as, v, bs, hsplit, has, hv⟩ := exists_first hlong
  refine ⟨as, v, bs, hsplit, fun a ha => ?_, ?_⟩
  · exact ⟨_, Manifest.references_eq_ok_iff.2 ⟨not_not.1 (has a ha), rfl⟩⟩
  · exact (Placeholder.walked_find _ "").eq_error_iff.2 ⟨Bool.eq_false_iff.2 hv, rfl⟩

theorem exists_mentions (ht : t.Keyed) : ∃ os : List (List Nat × Occurrence),
    os.Pairwise (fun a b => a.1 < b.1) ∧ (∀ pos o, (pos, o) ∈ os ↔ t.Mentions pos o) ∧
      os.map (·.2) = t.occurrences := by
  obtain ⟨os, hwalks, hcollect⟩ :=
    @exists_walks (t.variants.map fun v => ("", (t.manifest v.2).toValue)) fun e _ => exists_walk e.2 e.1
  refine ⟨os, hwalks.ordered, fun pos o => ?_, ?_⟩
  · rw [hwalks.mem_iff]
    constructor
    · rintro ⟨i, e, rest, rfl, he, ho⟩
      rw [List.getElem?_map, Option.map_eq_some_iff] at he
      obtain ⟨v, hv, rfl⟩ := he
      have hfile : t.runFiles[i]? = some v.1 := by
        rw [runFiles, List.getElem?_map, hv]
        rfl
      exact .intro hfile (runConfig_eq_ok ht (List.mem_of_getElem? hv)) ho
    · rintro ⟨hfile, hm, ho⟩
      rw [runFiles, List.getElem?_map, Option.map_eq_some_iff] at hfile
      obtain ⟨v, hv, rfl⟩ := hfile
      rw [runConfig_eq_ok ht (List.mem_of_getElem? hv)] at hm
      obtain rfl := Except.ok.inj hm
      exact ⟨_, _, _, rfl, by rw [List.getElem?_map, hv]; rfl, ho⟩
  · rw [hcollect, occurrences, List.flatMap_map]

theorem firstReferences_concat (rs : List Reference) (r : Reference) :
    firstReferences (rs ++ [r]) =
      if r.name ∈ (firstReferences rs).map (·.name) then firstReferences rs
      else firstReferences rs ++ [r] := by
  have hany : ((firstReferences rs).any fun s => s.name = r.name) = true ↔
      r.name ∈ (firstReferences rs).map (·.name) := by simp
  rw [← if_congr hany rfl rfl, firstReferences, List.foldl_append]
  rfl

theorem names_firstReferences (rs : List Reference) :
    (firstReferences rs).map (·.name) = (rs.map (·.name)).eraseDups := by
  induction rs using List.reverseRecOn with
  | nil => rfl
  | append_singleton rs r ih =>
      rw [firstReferences_concat, ih, List.map_append, List.map_singleton, Reference.eraseDups_concat]
      simp only [List.mem_eraseDups]
      split
      next => exact ih
      next => rw [List.map_append, ih, List.map_singleton]

theorem mem_firstReferences_of_find? (h : rs.find? (·.name = name) = some r) :
    r ∈ firstReferences rs := by
  induction rs using List.reverseRecOn with
  | nil => cases h
  | append_singleton rs s ih =>
      rw [firstReferences_concat]
      rw [List.find?_append] at h
      cases hrs : rs.find? (·.name = name) with
      | some q =>
          rw [hrs] at h
          have hr := ih (hrs.trans h)
          split
          next => exact hr
          next => exact List.mem_append_left _ hr
      | none =>
          rw [hrs, Option.none_or, List.find?_singleton] at h
          split at h
          next hname =>
            obtain rfl := Option.some.inj h
            have hnew : s.name ∉ (firstReferences rs).map (·.name) := by
              rw [names_firstReferences, List.mem_eraseDups, of_decide_eq_true hname]
              simpa using hrs
            rw [if_neg hnew]
            simp
          next => cases h

theorem names_found (m : Manifest) :
    m.found.map (·.name) =
      ((Placeholder.occurrences "" m.toValue).map (·.placeholder.name)).eraseDups :=
  (Reference.merged_summary _).names

theorem names_mergedReferences (t : Template) :
    t.mergedReferences.map (·.name) = names t.occurrences := by
  rw [mergedReferences, names_firstReferences, names, occurrences, List.map_flatMap, List.map_flatMap,
    ← Reference.eraseDups_flatMap fun v : String × Variant =>
      (Placeholder.occurrences "" (t.manifest v.2).toValue).map (·.placeholder.name)]
  simp only [names_found]

theorem names_listing (t : Template) :
    t.listing.map (·.name) = t.documented.map (·.1) ++
      (names t.occurrences).filter fun n => (t.documented.lookup n).isNone := by
  rw [listing, List.map_append, List.map_map, List.map_map, ← names_mergedReferences,
    List.filter_map]
  rfl

theorem isNone_lookup_iff : (t.documented.lookup name).isNone = true ↔ name ∉ t.documented.map (·.1) := by
  rw [Option.isNone_iff_eq_none, List.lookup_eq_none_iff]
  simp only [bne_iff_ne, ne_eq, List.mem_map, not_exists, not_and]
  exact forall₂_congr fun _ _ => not_congr eq_comm

theorem exists_variant_of_runConfig {m : Manifest} (h : t.runConfig file = .ok m) :
    ∃ v, (file, v) ∈ t.variants ∧ t.manifest v = m := by
  rw [runConfig] at h
  split at h
  next v hv =>
    obtain ⟨as, bs, hsplit, -⟩ := List.lookup_eq_some_iff.1 hv
    exact ⟨v, by simp [hsplit], Except.ok.inj h⟩
  next => cases h

theorem refers_iff_mem_found (ht : t.Keyed) (hp : t.Placed) {v : Variant} (hv : (file, v) ∈ t.variants) :
    t.Refers name file ↔ name ∈ (t.manifest v).found.map (·.name) := by
  rw [Refers, runConfig_eq_ok ht hv, List.mem_map]
  constructor
  · rintro ⟨m, rs, hm, hrs, h⟩
    obtain rfl := Except.ok.inj hm
    rwa [(Manifest.references_eq_ok_iff.1 hrs).2]
  · exact fun h => ⟨_, _, rfl, references_of_placed hp hv, h⟩

theorem mem_names_occurrences_iff (ht : t.Keyed) (hp : t.Placed) :
    name ∈ names t.occurrences ↔ ∃ file, t.Refers name file := by
  have hnames : name ∈ names t.occurrences ↔
      ∃ e ∈ t.variants, name ∈ (t.manifest e.2).found.map (·.name) := by
    simp only [names, occurrences, names_found, List.mem_eraseDups, List.map_flatMap,
      List.mem_flatMap]
  rw [hnames]
  constructor
  · rintro ⟨⟨file, v⟩, hv, hname⟩
    exact ⟨file, (refers_iff_mem_found ht hp hv).2 hname⟩
  · rintro ⟨file, hrefers⟩
    obtain ⟨m, _, hm, -⟩ := id hrefers
    obtain ⟨v, hv, -⟩ := exists_variant_of_runConfig hm
    exact ⟨(file, v), hv, (refers_iff_mem_found ht hp hv).1 hrefers⟩

theorem nodup_names_listing (ht : t.Keyed) : (t.listing.map (·.name)).Nodup := by
  rw [names_listing]
  refine List.nodup_append.2 ⟨ht.documented, (Reference.names_nodup _).filter _, ?_⟩
  rintro name hdoc _ hname rfl
  exact isNone_lookup_iff.1 (List.mem_filter.1 hname).2 hdoc

theorem names_occurrences_pairwise (ht : t.Keyed) : (names t.occurrences).Pairwise t.Before := by
  obtain ⟨os, hos, hmem, hcollect⟩ := exists_mentions ht
  have hfirst := Reference.pairwise_eraseDups (fun a => a.2.placeholder.name) hos
  have hnames : (os.map fun a => a.2.placeholder.name).eraseDups = names t.occurrences := by
    rw [names, ← hcollect, List.map_map]
    rfl
  rw [hnames] at hfirst
  refine hfirst.imp ?_
  rintro name name' ⟨⟨pos, o⟩, ho, hname, hbefore⟩
  exact ⟨pos, o, (hmem _ _).1 ho, hname, fun pos' o' ho' => hbefore (pos', o') ((hmem _ _).2 ho')⟩

/-- The variables in the order that is promised. -/
structure Listed (t : Template) (names : List String) : Prop where
  nodup : names.Nodup
  order : ∃ mentioned, names = t.documented.map (·.1) ++ mentioned ∧ mentioned.Pairwise t.Before
  mem_iff : ∀ name, name ∈ names ↔ name ∈ t.documented.map (·.1) ∨ ∃ file, t.Refers name file

/-- The documentation lists each variable once: those with a description as they are declared, then the
others that some run file refers to, as they first occur when one reads the run files one after the
other. There is no list if some key in a run file is an integer that is too long to be told. -/
theorem variableList_listed (ht : t.Keyed) :
    (t.Placed → ∃ vs, t.variableList = .ok vs ∧ Listed t (vs.map (·.name))) ∧
    (¬ t.Placed → t.variableList = .error .tooLong) := by
  refine ⟨fun hp => ⟨_, variableList_of_placed hp, ?_⟩, variableList_of_not_placed⟩
  exact
    { nodup := nodup_names_listing ht
      order := ⟨_, names_listing t, (names_occurrences_pairwise ht).filter _⟩
      mem_iff := by
        intro name
        rw [names_listing, List.mem_append, List.mem_filter, mem_names_occurrences_iff ht hp,
          isNone_lookup_iff]
        tauto }

/-- The second run file brings two variables, one of them before the one that both run files have; a
documented variable that occurs nowhere stays in its place. -/
theorem variableList_listed_for_two_run_files :
    let tgi (url : String) : Provider := ⟨"tgi", "remote::tgi", [(.text "url", .text url)]⟩
    let v : Variant := { overrides := [("inference", [tgi "$\x7benv.HOST\x7d:$\x7benv.PORT:=80\x7d"])] }
    let t : Template := {
      name := "tiny", description := .text "", image := .text ""
      providers := [("inference", [tgi "$\x7benv.HOST:=localhost\x7d"])]
      variants := [("run.yaml", {}), ("ports.yaml", v)]
      documented := [("TOKEN", .text "", .text "A secret"), ("HOST", .text "", .text "A host")] }
    let names := ["TOKEN", "HOST", "SQLITE_STORE_DIR", "PORT"]
    t.Keyed ∧ t.Placed ∧ (∃ vs, t.variableList = .ok vs ∧ vs.map (·.name) = names) ∧ Listed t names := by
  intro tgi v t names
  have ht : t.Keyed := by
    constructor
    · decide
    · decide
    · decide
    · simp [t, v]
  have hp : t.Placed := by
    unfold Placed
    decide +kernel
  obtain ⟨vs, hvs, hlisted⟩ := (variableList_listed ht).1 hp
  have hnames : vs.map (·.name) = names := by
    rw [variableList_of_placed hp] at hvs
    rw [← Except.ok.inj hvs]
    decide +kernel
  exact ⟨ht, hp, ⟨vs, hvs, hnames⟩, hnames ▸ hlisted⟩

/-- A key in a provider's configuration is too long to be told, and no variable is listed. -/
theorem nothing_listed_beside_long_key :
    ¬ ∀ t : Template, t.Keyed → ∃ vs, t.variableList = .ok vs ∧ Listed t (vs.map (·.name)) := by
  intro hevery
  let tgi : Provider := ⟨"tgi", "remote::tgi", [(.text "limits", .ofEntries [(.int longInteger, .int 1)])]⟩
  let t : Template := {
    name := "tiny", description := .text "", image := .text ""
    providers := [("inference", [tgi])]
    variants := [("run.yaml", {})] }
  have ht : t.Keyed := by
    constructor
    · decide
    · decide
    · decide
    · simp [t]
  have hp : ¬ t.Placed := by
    unfold Placed
    decide +kernel
  obtain ⟨vs, hvs, -⟩ := hevery t ht
  rw [variableList_of_not_placed hp] at hvs
  cases hvs

theorem requires_iff_required (ht : t.Keyed) (hp : t.Placed) {v : Variant} (hv : (file, v) ∈ t.variants)
    (hr : r ∈ (t.manifest v).found) : t.Requires r.name file ↔ r.required = true := by
  have hnodup : ((t.manifest v).found.map (·.name)).Nodup := by
    rw [names_found]
    exact Reference.names_nodup _
  rw [Requires, runConfig_eq_ok ht hv]
  constructor
  · rintro ⟨m, rs, hm, hrs, q, hq, hname, hrequired⟩
    obtain rfl := Except.ok.inj hm
    obtain ⟨-, rfl⟩ := Manifest.references_eq_ok_iff.1 hrs
    rwa [← List.inj_on_of_nodup_map hnodup hq hr hname]
  · exact fun h => ⟨_, _, rfl, references_of_placed hp hv, r, hr, rfl, h⟩

theorem Requires.refers (h : t.Requires name file) : t.Refers name file := by
  obtain ⟨m, rs, hm, hrs, r, hr, hname, -⟩ := h
  exact ⟨m, rs, hm, hrs, r, hr, hname⟩

theorem first_requires_iff (ht : t.Keyed) (hp : t.Placed) {vs : List (String × Variant)}
    (hvs : vs ⊆ t.variants)
    (h : (vs.flatMap fun v => (t.manifest v.2).found).find? (·.name = name) = some r) :
    First (¬ t.Refers name ·) (t.Requires name) (vs.map (·.1)) ↔ r.required = true := by
  induction vs with
  | nil => cases h
  | cons e vs ih =>
      obtain ⟨file, v⟩ := e
      obtain ⟨hv, hvs⟩ := List.cons_subset.1 hvs
      rw [List.map_cons, Steps.first_cons_iff]
      rw [List.flatMap_cons, List.find?_append] at h
      -- The first file has the last word if it refers to the variable, and no word otherwise.
      cases hfind : (t.manifest v).found.find? (·.name = name) with
      | some q =>
          rw [hfind] at h
          obtain rfl := Option.some.inj h
          obtain rfl : q.name = name := by simpa using List.find?_some hfind
          have hq := List.mem_of_find?_eq_some hfind
          have hrefers : t.Refers q.name file :=
            (refers_iff_mem_found ht hp hv).2 (List.mem_map_of_mem hq)
          rw [requires_iff_required ht hp hv hq]
          exact or_iff_left fun hlater => hlater.1 hrefers
      | none =>
          rw [hfind, Option.none_or] at h
          have hrefers : ¬ t.Refers name file := by
            rw [refers_iff_mem_found ht hp hv]
            simpa using hfind
          rw [← ih hvs h]
          exact ⟨fun hfirst => hfirst.elim (fun hreq => absurd hreq.refers hrefers) And.right,
            fun hfirst => .inr ⟨hrefers, hfirst⟩⟩

/-- Some run file requires a variable, but not the first one that refers to it. -/
def Hidden (t : Template) (name : String) : Prop :=
  First (¬ t.Refers name ·) (fun file => t.Refers name file ∧ ¬ t.Requires name file) t.runFiles ∧
    ∃ file ∈ t.runFiles, t.Requires name file

theorem first_requires_iff_not_hidden (hfile : ∃ file ∈ t.runFiles, t.Refers name file) :
    (First (¬ t.Refers name ·) (t.Requires name) t.runFiles ↔ ∃ file ∈ t.runFiles, t.Requires name file) ↔
      ¬ t.Hidden name := by
  obtain ⟨as, file, bs, hsplit, has, hrefers⟩ := Steps.exists_first hfile
  have hmem : file ∈ t.runFiles := by simp [hsplit]
  have hrequires : First (¬ t.Refers name ·) (t.Requires name) t.runFiles ↔ t.Requires name file := by
    rw [hsplit]
    exact Steps.first_iff_here has (not_not_intro hrefers) fun _ h => not_not_intro h.refers
  have hspared : First (¬ t.Refers name ·) (fun file => t.Refers name file ∧ ¬ t.Requires name file)
      t.runFiles ↔ t.Refers name file ∧ ¬ t.Requires name file := by
    rw [hsplit]
    exact Steps.first_iff_here has (not_not_intro hrefers) fun _ h => not_not_intro h.1
  rw [Hidden, hrequires, hspared]
  constructor
  · rintro h ⟨⟨-, hnot⟩, hsome⟩
    exact hnot (h.2 hsome)
  · intro h
    refine ⟨fun hreq => ⟨file, hmem, hreq⟩, fun hsome => ?_⟩
    by_contra hnot
    exact h ⟨⟨hrefers, hnot⟩, hsome⟩

/-- A variable without a description has one entry if some run file refers to it. The entry says that it is
required exactly where the first run file that refers to it requires it, which is where some run file
requires it unless the requirement is hidden. -/
theorem variableList_requires_iff (ht : t.Keyed) (hp : t.Placed) (hname : name ∉ t.documented.map (·.1))
    (hfile : ∃ file ∈ t.runFiles, t.Refers name file) :
    ∃ vs, t.variableList = .ok vs ∧ ∃ v ∈ vs, v.name = name ∧ (∀ w ∈ vs, w.name = name → w = v) ∧
      (v.required = true ↔ First (¬ t.Refers name ·) (t.Requires name) t.runFiles) ∧
      ((v.required = true ↔ ∃ file ∈ t.runFiles, t.Requires name file) ↔ ¬ t.Hidden name) := by
  have hfind : ∃ r, (t.variants.flatMap fun v => (t.manifest v.2).found).find? (·.name = name) = some r := by
    obtain ⟨file, hfile, hrefers⟩ := hfile
    obtain ⟨⟨file, v⟩, hv, rfl⟩ := List.mem_map.1 hfile
    obtain ⟨r, hr, hrname⟩ := List.mem_map.1 ((refers_iff_mem_found ht hp hv).1 hrefers)
    rw [← Option.isSome_iff_exists, List.find?_isSome]
    exact ⟨r, List.mem_flatMap.2 ⟨_, hv, hr⟩, decide_eq_true hrname⟩
  obtain ⟨r, hr⟩ := hfind
  obtain rfl : r.name = name := by simpa using List.find?_some hr
  have hrequired : First (¬ t.Refers r.name ·) (t.Requires r.name) t.runFiles ↔ r.required = true :=
    first_requires_iff ht hp (List.Subset.refl _) hr
  have hmem : mentionedVariable r ∈ t.listing := by
    refine List.mem_append_right _ (List.mem_map_of_mem (List.mem_filter.2 ?_))
    exact ⟨mem_firstReferences_of_find? hr, isNone_lookup_iff.2 hname⟩
  refine ⟨_, variableList_of_placed hp, _, hmem, rfl, fun w hw hwname => ?_, hrequired.symm, ?_⟩
  · exact List.inj_on_of_nodup_map (nodup_names_listing ht) hw hmem hwname
  · rw [← first_requires_iff_not_hidden hfile, hrequired]
    rfl

/-- The first run file does without the variable, the second requires it and the third does not. -/
theorem variableList_requires_iff_for_second_run_file :
    let tgi (url : String) : Provider := ⟨"tgi", "remote::tgi", [(.text "url", .text url)]⟩
    let bare : Variant := { overrides := [("inference", [])] }
    let strict : Variant := { overrides := [("inference", [tgi "$\x7benv.URL\x7d"])] }
    let t : Template := {
      name := "tiny", description := .text "", image := .text ""
      providers := [("inference", [tgi "$\x7benv.URL:=http://localhost\x7d"])]
      variants := [("bare.yaml", bare), ("strict.yaml", strict), ("run.yaml", {})] }
    t.Keyed ∧ t.Placed ∧ "URL" ∉ t.documented.map (·.1) ∧ (∃ file ∈ t.runFiles, t.Refers "URL" file) ∧
      ¬ t.Hidden "URL" ∧ ∃ vs, t.variableList = .ok vs ∧ ∃ v ∈ vs, v.name = "URL" ∧ v.required = true := by
  intro tgi bare strict t
  have ht : t.Keyed := by
    constructor
    · decide
    · decide
    · decide
    · simp [t, bare, strict]
  have hp : t.Placed := by
    unfold Placed
    decide +kernel
  have hdoc : "URL" ∉ t.documented.map (·.1) := by decide
  have hbare : ¬ t.Refers "URL" "bare.yaml" := by
    rw [refers_iff_mem_found ht hp (v := bare) (by simp [t])]
    decide +kernel
  have hv : ("strict.yaml", strict) ∈ t.variants := by simp [t]
  have hstrict : t.Requires "URL" "strict.yaml" :=
    ⟨_, _, runConfig_eq_ok ht hv, references_of_placed hp hv, by decide +kernel⟩
  have hmem : "strict.yaml" ∈ t.runFiles := by decide
  have hrefers : ∃ file ∈ t.runFiles, t.Refers "URL" file := ⟨_, hmem, hstrict.refers⟩
  obtain ⟨vs, hvs, v, hv, hname, -, hrequired, hshown⟩ := variableList_requires_iff ht hp hdoc hrefers
  have hfirst : First (¬ t.Refers "URL" ·) (t.Requires "URL") t.runFiles :=
    ⟨["bare.yaml"], "strict.yaml", ["run.yaml"], rfl, by simpa using hbare, hstrict⟩
  have hv' : v.required = true := hrequired.2 hfirst
  exact ⟨ht, hp, hdoc, hrefers, hshown.1 ⟨fun _ => ⟨_, hmem, hstrict⟩, fun _ => hv'⟩, vs, hvs, v, hv, hname,
    hv'⟩

/-- The second run file requires a variable that the first one has a fallback for: the documentation does
not call it required. -/
theorem requirement_of_second_run_file_lost :
    let tgi (url : String) : Provider := ⟨"tgi", "remote::tgi", [(.text "url", .text url)]⟩
    let strict : Variant := { overrides := [("inference", [tgi "$\x7benv.URL\x7d"])] }
    let t : Template := {
      name := "tiny", description := .text "d", image := .text "i"
      providers := [("inference", [tgi "$\x7benv.URL:=http://localhost\x7d"])]
      variants := [("run.yaml", {}), ("strict.yaml", strict)] }
    t.Keyed ∧ "URL" ∉ t.documented.map (·.1) ∧
      (∃ file ∈ t.runFiles, t.Requires "URL" file) ∧
      ∃ vs, t.variableList = .ok vs ∧ (∃ v ∈ vs, v.name = "URL") ∧
        ∀ v ∈ vs, v.name = "URL" → v.required = false := by
  intro tgi strict t
  have ht : t.Keyed := by
    constructor
    · decide
    · decide
    · decide
    · simp [t, strict]
  have hp : t.Placed := by
    unfold Placed
    decide +kernel
  have hv : ("strict.yaml", strict) ∈ t.variants := by simp [t]
  have hstrict : t.Requires "URL" "strict.yaml" :=
    ⟨_, _, runConfig_eq_ok ht hv, references_of_placed hp hv, by decide +kernel⟩
  exact ⟨ht, by decide, ⟨_, by decide, hstrict⟩, _, variableList_of_placed hp, by decide +kernel,
    by decide +kernel⟩

end Template
end Provision
