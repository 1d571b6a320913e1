import Provision.Proofs.Manifest.Reading
import Provision.Proofs.Value.Shown

namespace Provision

open Steps

namespace Value

def arePair : List Value → Bool
  | [k, _] => k.hashable
  | _ => false

def isPair : Value → Bool
  | list _ xs | tuple xs | set _ xs => arePair xs
  | text s => s.length = 2
  | bytes bs => bs.length = 2
  | map _ es => arePair (Entries.keys es)
  | _ => false

def namesEntries : Value → Bool
  | list _ xs | tuple xs | set _ xs => xs.all isPair
  | text s => s = ""
  | bytes bs => bs.isEmpty
  | map .. => true
  | _ => false

end Value

/-- A failure that says nothing of the document: of a value of the wrong type, or of a wrong length. -/
def Unnamed (f : Failure) : Prop := ∃ text, f = .trouble .type text ∨ f = .trouble .value text

theorem pairOf?_two_isOk_iff {i : Nat} {vs : List Value} :
    (∃ e, pairOf?.two i vs = .ok e) ↔ Value.arePair vs = true := by
  rcases vs with _ | ⟨k, _ | ⟨w, _ | ⟨x, vs⟩⟩⟩
  · simp [pairOf?.two, Value.arePair]
  · simp [pairOf?.two, Value.arePair]
  · rw [pairOf?.two, Value.arePair]
    split <;> simp [*]
  · simp [pairOf?.two, Value.arePair]

theorem arePair_map {α : Type} {g : α → Value} (hg : ∀ a, (g a).hashable = true) (as : List α) :
    Value.arePair (as.map g) = true ↔ as.length = 2 := by
  rcases as with _ | ⟨a, _ | ⟨b, _ | ⟨c, as⟩⟩⟩ <;> simp [Value.arePair, hg]

theorem pairOf?_isOk_iff {i : Nat} {v : Value} :
    (∃ e, pairOf? i v = .ok e) ↔ v.isPair = true := by
  cases v with
  | list a xs | set a xs | map a xs => exact pairOf?_two_isOk_iff
  | tuple xs => exact pairOf?_two_isOk_iff
  | text s =>
      rw [pairOf?, pairOf?_two_isOk_iff, arePair_map fun _ => rfl, String.length_toList]
      simp [Value.isPair]
  | bytes bs =>
      rw [pairOf?, pairOf?_two_isOk_iff, arePair_map fun _ => rfl]
      simp [Value.isPair]
  | _ => simp [pairOf?, Value.isPair]

theorem putPairs_isOk_iff {es : Entries} {i : Nat} {xs : List Value} :
    (∃ fs, putPairs es i xs = .ok fs) ↔ xs.all Value.isPair = true := by
  induction xs generalizing es i with
  | nil => simp [putPairs]
  | cons x xs ih =>
      rw [putPairs, List.all_cons, Bool.and_eq_true, ← pairOf?_isOk_iff (i := i)]
      constructor
      · rintro ⟨fs, hfs⟩
        obtain ⟨e, he, hrest⟩ := bind_eq_ok_iff.1 hfs
        exact ⟨⟨e, he⟩, ih.1 ⟨fs, hrest⟩⟩
      · rintro ⟨⟨e, he⟩, hall⟩
        obtain ⟨fs, hfs⟩ := ih.2 hall
        exact ⟨fs, bind_eq_ok_iff.2 ⟨e, he, hfs⟩⟩

theorem entriesOf?_isOk_iff {v : Value} :
    (∃ es, entriesOf? v = .ok es) ↔ v.namesEntries = true := by
  have hsingle {α : Type} {g : α → Value} (hg : ∀ a, (g a).isPair = false) (as : List α) :
      (as.map g).all Value.isPair = true ↔ as = [] := by
    cases as <;> simp [hg]
  cases v with
  | list a xs | set a xs => exact putPairs_isOk_iff
  | tuple xs => exact putPairs_isOk_iff
  | map a es => exact ⟨fun _ => rfl, fun _ => ⟨es, rfl⟩⟩
  | text s =>
      rw [entriesOf?, putPairs_isOk_iff, hsingle fun c => by simp [Value.isPair]]
      simp [Value.namesEntries]
  | bytes bs =>
      rw [entriesOf?, putPairs_isOk_iff, hsingle fun b => rfl]
      simp [Value.namesEntries]
  | _ => simp [entriesOf?, Value.namesEntries]

theorem unnamed_of_pairOf? {i : Nat} {v : Value} {f : Failure} (h : pairOf? i v = .error f) :
    Unnamed f := by
  have htwo {vs : List Value} (h : pairOf?.two i vs = .error f) : Unnamed f := by
    rw [pairOf?.two.eq_def] at h
    split at h
    next =>
      split at h
      next => cases h
      next => exact ⟨_, .inl (Except.error.inj h).symm⟩
    next => exact ⟨_, .inr (Except.error.inj h).symm⟩
  cases v with
  | list a xs | set a xs | map a xs => exact htwo h
  | tuple xs | text xs | bytes xs => exact htwo h
  | _ => exact ⟨_, .inl (Except.error.inj h).symm⟩

theorem unnamed_of_putPairs {es : Entries} {i : Nat} {xs : List Value} {f : Failure}
    (h : putPairs es i xs = .error f) : Unnamed f := by
  induction xs generalizing es i with
  | nil => cases h
  | cons x xs ih =>
      rcases bind_eq_error_iff.1 h with hpair | ⟨_, -, hrest⟩
      · exact unnamed_of_pairOf? hpair
      · exact ih hrest

theorem unnamed_of_entriesOf? {v : Value} {f : Failure} (h : entriesOf? v = .error f) :
    Unnamed f := by
  cases v with
  | list a xs | set a xs => exact unnamed_of_putPairs h
  | tuple xs | text xs | bytes xs => exact unnamed_of_putPairs h
  | map a es => cases h
  | _ => exact ⟨_, .inl (Except.error.inj h).symm⟩

/-- A failure that names what is wrong with the document. -/
def Named (f : Failure) : Prop := ∃ fault, f = .manifest fault

theorem not_unnamed_of_named {f : Failure} (h : Named f) : ¬ Unnamed f := by
  obtain ⟨fault, rfl⟩ := h
  rintro ⟨text, he | he⟩ <;> cases he

theorem unnamed_tooLong : Unnamed .tooLong := ⟨_, .inr rfl⟩

theorem named_of_throw {α : Type} {fault : ManifestFault} {f : Failure}
    (h : (throw (.manifest fault) : Except Failure α) = .error f) : Named f :=
  ⟨fault, (Except.error.inj h).symm⟩

/-- A step that shows a value fails where the value is too long to be shown, or goes on. -/
theorem bind_shown_eq_error {α : Type} {v : Value} {text : String} {g : String → Except Failure α}
    {f : Failure} (h : v.shown text >>= g = .error f) :
    v.isShort = false ∧ f = .tooLong ∨ g text = .error f := by
  rcases bind_eq_error_iff.1 h with hlong | ⟨s, hs, h⟩
  · exact .inl (Value.shown_eq_error_iff.1 hlong)
  · obtain ⟨-, rfl⟩ := Value.shown_eq_ok_iff.1 hs
    exact .inr h

theorem bind_shown_of_long {α : Type} {v : Value} {text : String} {g : String → Except Failure α}
    (h : v.isShort = false) : v.shown text >>= g = .error .tooLong :=
  bind_eq_error_iff.2 (.inl (Value.shown_eq_error_iff.2 ⟨h, rfl⟩))

namespace Provider

variable {api v : Value} {es : Entries} {field : String} {f : Failure}

/-- A provider has its two texts and a configuration that is there but names no entries. -/
def Misconfigured (v : Value) : Prop :=
  ∃ anchor es id kind, v = .map anchor es ∧ Entries.get es "provider_id" = .text id ∧ id ≠ "" ∧
    Entries.get es "provider_type" = .text kind ∧ kind ≠ "" ∧
    (Entries.get es "config").truthy = true ∧ (Entries.get es "config").namesEntries = false

def UntoldField (api : Value) (es : Entries) (field : String) : Prop :=
  (∀ s, Entries.get es field ≠ .text s) ∧ (api.isShort = false ∨ (Entries.get es field).isShort = false)

inductive Untold (api : Value) : Value → Prop
  | notMapping {v : Value} (h : ∀ anchor es, v ≠ .map anchor es) (long : api.isShort = false) :
    Untold api v
  | lacking {anchor : Option Nat} {es : Entries} (h : (Entries.get es "provider_id").truthy = false ∨
      (Entries.get es "provider_type").truthy = false) (long : api.isShort = false) :
    Untold api (.map anchor es)
  | id {anchor : Option Nat} {es : Entries} (hid : (Entries.get es "provider_id").truthy = true)
      (hkind : (Entries.get es "provider_type").truthy = true) (h : UntoldField api es "provider_id") :
    Untold api (.map anchor es)
  | kind {anchor : Option Nat} {es : Entries} {id : String} (hid : Entries.get es "provider_id" = .text id)
      (hne : id ≠ "") (hkind : (Entries.get es "provider_type").truthy = true)
      (h : UntoldField api es "provider_type") :
    Untold api (.map anchor es)

/-- A provider cannot be read, and no fault names why. -/
def Unnamable (api v : Value) : Prop := Misconfigured v ∨ Untold api v

theorem namesEntries_orElse_eq_false_iff {v : Value} :
    (v.orElse (.ofEntries [])).namesEntries = false ↔
      v.truthy = true ∧ v.namesEntries = false := by
  cases hv : v.truthy with
  | true => simp [Value.orElse, hv]
  | false => simp [Value.orElse, hv, Value.ofEntries, Value.namesEntries]

theorem textField?_eq_error (h : textField? api es field = .error f) :
    Named f ∨ Unnamed f ∧ UntoldField api es field := by
  rw [textField?] at h
  split at h
  next => cases h
  next hnot =>
    rcases bind_shown_eq_error h with ⟨hlong, rfl⟩ | h
    · exact .inr ⟨unnamed_tooLong, hnot, .inl hlong⟩
    · rcases bind_shown_eq_error h with ⟨hlong, rfl⟩ | h
      · exact .inr ⟨unnamed_tooLong, hnot, .inr hlong⟩
      · exact .inl (named_of_throw h)

theorem UntoldField.textField?_eq (h : UntoldField api es field) :
    textField? api es field = .error .tooLong := by
  obtain ⟨hnot, hlong⟩ := h
  rw [textField?]
  split
  next s hs => exact absurd hs (hnot s)
  next =>
    cases hapi : api.isShort with
    | false => exact bind_shown_of_long hapi
    | true =>
        rw [Value.plain_of_isShort hapi, ok_bind]
        exact bind_shown_of_long (hlong.resolve_left (by simp [hapi]))

theorem lacking_isEmpty : (["provider_id", "provider_type"].filter
    fun k => !(Entries.get es k).truthy).isEmpty =
      ((Entries.get es "provider_id").truthy && (Entries.get es "provider_type").truthy) := by
  cases hid : (Entries.get es "provider_id").truthy <;>
    cases hkind : (Entries.get es "provider_type").truthy <;> simp [hid, hkind]

/-- A provider is refused by name, unless it is one of those that no fault names. -/
theorem ofValue_eq_error (h : Provider.ofValue api v = .error f) :
    Named f ∨ (Unnamed f ∧ Unnamable api v) := by
  cases v with
  | map anchor es =>
      simp only [Provider.ofValue, lacking_isEmpty] at h
      split at h
      next hlacking =>
        rw [Bool.not_eq_true', Bool.and_eq_false_iff] at hlacking
        rcases bind_shown_eq_error h with ⟨hlong, rfl⟩ | h
        · exact .inr ⟨unnamed_tooLong, .inr (.lacking hlacking hlong)⟩
        · exact .inl (named_of_throw h)
      next hthere =>
        rw [Bool.not_eq_true', Bool.not_eq_false, Bool.and_eq_true] at hthere
        rcases bind_eq_error_iff.1 h with hid | ⟨id, hid, h⟩
        · exact (textField?_eq_error hid).imp_right fun h => ⟨h.1, .inr (.id hthere.1 hthere.2 h.2)⟩
        rw [textField?_eq_ok_iff] at hid
        have hne : id ≠ "" := by
          rintro rfl
          simp [hid, Value.truthy] at hthere
        rcases bind_eq_error_iff.1 h with hkind | ⟨kind, hkind, h⟩
        · exact (textField?_eq_error hkind).imp_right fun h => ⟨h.1, .inr (.kind hid hne hthere.2 h.2)⟩
        rw [textField?_eq_ok_iff] at hkind
        rcases bind_eq_error_iff.1 h with hconfig | ⟨_, -, hpure⟩
        · have hnames : ((Entries.get es "config").orElse (.ofEntries [])).namesEntries = false := by
            by_contra hyes
            obtain ⟨fs, hfs⟩ := entriesOf?_isOk_iff.2 ((Bool.not_eq_false _).mp hyes)
            rw [hfs] at hconfig
            cases hconfig
          refine .inr ⟨unnamed_of_entriesOf? hconfig, .inl ⟨anchor, es, id, kind, rfl, hid, hne, hkind, ?_,
            namesEntries_orElse_eq_false_iff.1 hnames⟩⟩
          rintro rfl
          simp [hkind, Value.truthy] at hthere
        · exact absurd hpure pure_ne_error
  | _ =>
      rcases bind_shown_eq_error h with ⟨hlong, rfl⟩ | h
      · refine .inr ⟨unnamed_tooLong, .inr (.notMapping ?_ hlong)⟩
        rintro _ _ ⟨⟩
      · exact .inl (named_of_throw h)

theorem Misconfigured.exists_unnamed (h : Misconfigured v) :
    ∃ f, Provider.ofValue api v = .error f ∧ Unnamed f := by
  obtain ⟨anchor, es, id, kind, rfl, hid, hne, hkind, hne', hconfig⟩ := h
  have hnames := namesEntries_orElse_eq_false_iff.2 hconfig
  have hlacking : ["provider_id", "provider_type"].filter
      (fun f => !(Entries.get es f).truthy) = [] := by
    simp [hid, hkind, Value.truthy, hne, hne']
  cases hread : entriesOf? ((Entries.get es "config").orElse (.ofEntries [])) with
  | ok fs =>
      rw [entriesOf?_isOk_iff.1 ⟨fs, hread⟩] at hnames
      cases hnames
  | error f =>
      refine ⟨f, ?_, unnamed_of_entriesOf? hread⟩
      simp only [Provider.ofValue, hlacking, textField?, hid, hkind, hread]
      rfl

theorem Untold.ofValue_eq (h : Untold api v) : Provider.ofValue api v = .error .tooLong := by
  cases h with
  | notMapping h long =>
      cases v with
      | map anchor es => exact absurd rfl (h anchor es)
      | _ => exact bind_shown_of_long long
  | lacking h long =>
      simp only [Provider.ofValue, lacking_isEmpty]
      rw [if_pos (by simpa using h)]
      exact bind_shown_of_long long
  | id hid hkind h =>
      simp only [Provider.ofValue, lacking_isEmpty, hid, hkind]
      exact bind_eq_error_iff.2 (.inl h.textField?_eq)
  | @kind anchor es id hid hne hkind h =>
      have hthere : (Entries.get es "provider_id").truthy = true := by simp [hid, Value.truthy, hne]
      simp only [Provider.ofValue, lacking_isEmpty, hthere, hkind]
      exact bind_eq_error_iff.2 (.inr ⟨id, textField?_eq_ok_iff.2 hid,
        bind_eq_error_iff.2 (.inl h.textField?_eq)⟩)

theorem Unnamable.exists_unnamed (h : Unnamable api v) :
    ∃ f, Provider.ofValue api v = .error f ∧ Unnamed f := by
  rcases h with h | h
  · exact h.exists_unnamed
  · exact ⟨_, h.ofValue_eq, unnamed_tooLong⟩

end Provider

def Resource.Untold (s : Section) (v : Value) : Prop :=
  ∃ anchor es, v = .map anchor es ∧ (Entries.get es s.idField).isNested = true ∧
    (Entries.get es s.idField).isShort = false

theorem Resource.ofValue_eq_error {s : Section} {v : Value} {f : Failure}
    (h : Resource.ofValue s v = .error f) : Named f ∨ Unnamed f ∧ Resource.Untold s v := by
  cases v with
  | map anchor es =>
      have hnested {g : String → Except Failure Resource} (hg : ∀ t, g t = .error f → Named f)
          (hid : (Entries.get es s.idField).isNested = true)
          (h : (Entries.get es s.idField).quoted >>= g = .error f) :
          Named f ∨ Unnamed f ∧ Resource.Untold s (.map anchor es) := by
        rcases bind_shown_eq_error h with ⟨hlong, rfl⟩ | h
        · exact .inr ⟨unnamed_tooLong, anchor, es, rfl, hid, hlong⟩
        · exact .inl (hg _ h)
      simp only [Resource.ofValue] at h
      split at h
      next => exact .inl (named_of_throw h)
      next =>
        split at h
        next hid => exact hnested (fun _ => named_of_throw) (by rw [hid]; rfl) h
        next hid => exact hnested (fun _ => named_of_throw) (by rw [hid]; rfl) h
        next => cases h
  | _ => exact .inl (named_of_throw h)

theorem Resource.Untold.ofValue_eq {s : Section} {v : Value} (h : Resource.Untold s v) :
    Resource.ofValue s v = .error .tooLong := by
  obtain ⟨anchor, es, rfl, hnested, hlong⟩ := h
  have hthere : (Entries.get es s.idField).truthy = true := by
    cases hid : Entries.get es s.idField with
    | list a xs =>
        rw [hid] at hlong
        cases xs with
        | nil => cases hlong
        | cons x xs => rfl
    | map a fs =>
        rw [hid] at hlong
        cases fs with
        | nil => cases hlong
        | cons e fs => rfl
    | _ =>
        rw [hid] at hnested
        cases hnested
  simp only [Resource.ofValue]
  rw [hthere, if_neg (by decide)]
  split
  next => exact bind_shown_of_long hlong
  next => exact bind_shown_of_long hlong
  next hlist hmap =>
    cases hid : Entries.get es s.idField with
    | list a xs => exact absurd hid (hlist a xs)
    | map a fs => exact absurd hid (hmap a fs)
    | _ =>
        rw [hid] at hnested
        cases hnested

theorem Store.named_of_ofValue {v : Value} {f : Failure} (h : Store.ofValue v = .error f) :
    Named f := by
  cases v with
  | null | map anchor es => cases h
  | _ => exact named_of_throw h

theorem Server.named_of_ofValue {v : Value} {f : Failure} (h : Server.ofValue v = .error f) :
    Named f := by
  rw [Server.ofValue] at h
  split at h
  next => cases h
  next => exact named_of_throw h

namespace Manifest

variable {v : Value} {f : Failure}

def UntoldApis (v : Value) : Prop :=
  ∃ anchor xs, v.orElse (.ofList []) = .list anchor xs ∧
    First (fun x => ∃ s, x = .text s) (·.isShort = false) xs

theorem apisOf?_eq_error (h : apisOf? v = .error f) : Named f ∨ Unnamed f ∧ UntoldApis v := by
  rw [apisOf?] at h
  split at h
  next anchor xs hv =>
    obtain ⟨as, x, bs, rfl, has, hx⟩ := mapM_eq_error_iff.1 h
    have hnames : ∀ a ∈ as, ∃ s, a = .text s := by
      intro a ha
      obtain ⟨s, hs⟩ := has a ha
      split at hs
      next t => exact ⟨t, rfl⟩
      next => exact absurd hs throw_shown_ne_ok
    split at hx
    next => cases hx
    next =>
      rcases bind_shown_eq_error hx with ⟨hlong, rfl⟩ | hx
      · exact .inr ⟨unnamed_tooLong, anchor, _, hv, as, x, bs, rfl, hnames, hlong⟩
      · exact .inl (named_of_throw hx)
  next => exact .inl (named_of_throw h)

theorem UntoldApis.apisOf?_eq (h : UntoldApis v) : apisOf? v = .error .tooLong := by
  obtain ⟨anchor, xs, hv, as, x, bs, rfl, has, hlong⟩ := h
  rw [apisOf?, hv]
  refine mapM_eq_error_iff.2 ⟨as, x, bs, rfl, fun a ha => ?_, ?_⟩
  · obtain ⟨s, rfl⟩ := has a ha
    exact ⟨s, rfl⟩
  · cases x with
    | text s => cases hlong
    | _ => exact bind_shown_of_long hlong

def UntoldSection (s : Section) (v : Value) : Prop :=
  ∃ anchor xs, v.orElse (.ofList []) = .list anchor xs ∧
    First (fun x => ∃ r, Resource.ofValue s x = .ok r) (Resource.Untold s) xs

theorem sectionOf?_eq_error {s : Section} (h : sectionOf? s v = .error f) :
    Named f ∨ Unnamed f ∧ UntoldSection s v := by
  rw [sectionOf?] at h
  split at h
  next anchor xs hv =>
    obtain ⟨as, x, bs, he, has, hx⟩ := mapM_eq_error_iff.1 h
    exact (Resource.ofValue_eq_error hx).imp_right fun h =>
      ⟨h.1, anchor, xs, hv, as, x, bs, he, has, h.2⟩
  next => exact .inl (named_of_throw h)

theorem UntoldSection.sectionOf?_eq {s : Section} (h : UntoldSection s v) :
    sectionOf? s v = .error .tooLong := by
  obtain ⟨anchor, xs, hv, as, x, bs, he, has, hlong⟩ := h
  rw [sectionOf?, hv]
  exact mapM_eq_error_iff.2 ⟨as, x, bs, he, has, hlong.ofValue_eq⟩

def UntoldSections (es : Entries) : List Section → Prop :=
  First (fun s => ∃ rs, sectionOf? s (Entries.get es s.name) = .ok rs)
    fun s => UntoldSection s (Entries.get es s.name)

theorem sectionsOf?_eq_error {es : Entries} {ss : List Section} (h : sectionsOf? es ss = .error f) :
    Named f ∨ Unnamed f ∧ UntoldSections es ss := by
  induction ss with
  | nil => cases h
  | cons s ss ih =>
      rw [UntoldSections, first_cons_iff]
      rcases bind_eq_error_iff.1 h with hfirst | ⟨rs, hrs, h⟩
      · exact (sectionOf?_eq_error hfirst).imp_right fun h => ⟨h.1, .inl h.2⟩
      · rcases bind_eq_error_iff.1 h with hrest | ⟨_, -, hpure⟩
        · exact (ih hrest).imp_right fun h => ⟨h.1, .inr ⟨⟨rs, hrs⟩, h.2⟩⟩
        · exact absurd hpure pure_ne_error

theorem UntoldSections.sectionsOf?_eq {es : Entries} {ss : List Section} (h : UntoldSections es ss) :
    sectionsOf? es ss = .error .tooLong := by
  induction ss with
  | nil => simp [UntoldSections, First] at h
  | cons s ss ih =>
      rw [UntoldSections, first_cons_iff] at h
      rcases h with h | ⟨⟨rs, hrs⟩, h⟩
      · exact bind_eq_error_iff.2 (.inl h.sectionOf?_eq)
      · exact bind_eq_error_iff.2 (.inr ⟨rs, hrs, bind_eq_error_iff.2 (.inl (ih h))⟩)

def UnnamableApi (e : Value × Value) : Prop :=
  (∃ anchor xs, e.2 = .list anchor xs ∧
    First (fun v => ∃ p, Provider.ofValue e.1 v = .ok p) (Provider.Unnamable e.1) xs) ∨
  (∀ anchor xs, e.2 ≠ .list anchor xs) ∧ e.1.isShort = false

theorem providerList?_eq_error {api : Value} (h : providerList? api v = .error f) :
    Named f ∨ (Unnamed f ∧ UnnamableApi (api, v)) := by
  cases v with
  | list anchor xs =>
      obtain ⟨as, x, bs, he, has, hx⟩ := mapM_eq_error_iff.1 h
      exact (Provider.ofValue_eq_error hx).imp_right fun h =>
        ⟨h.1, .inl ⟨anchor, xs, rfl, as, x, bs, he, has, h.2⟩⟩
  | _ =>
      rcases bind_shown_eq_error h with ⟨hlong, rfl⟩ | h
      · exact .inr ⟨unnamed_tooLong, .inr ⟨nofun, hlong⟩⟩
      · exact .inl (named_of_throw h)

theorem UnnamableApi.exists_unnamed {e : Value × Value} (h : UnnamableApi e) :
    ∃ f, providerList? e.1 e.2 = .error f ∧ Unnamed f := by
  obtain ⟨k, v⟩ := e
  rcases h with ⟨anchor, xs, rfl, as, x, bs, hxs, has, hx⟩ | ⟨hnot, hlong⟩
  · obtain ⟨f, hf, hunnamed⟩ := hx.exists_unnamed
    exact ⟨f, mapM_eq_error_iff.2 ⟨as, x, bs, hxs, has, hf⟩, hunnamed⟩
  · refine ⟨.tooLong, ?_, unnamed_tooLong⟩
    cases v with
    | list anchor xs => exact absurd rfl (hnot anchor xs)
    | _ => exact bind_shown_of_long hlong

def UnnamableApis (v : Value) : Prop :=
  ∃ anchor es, v.orElse (.ofEntries []) = .map anchor es ∧
    First (fun e => ∃ ps, providerList? e.1 e.2 = .ok ps) UnnamableApi es

theorem providersOf?_eq_error (h : providersOf? v = .error f) :
    Named f ∨ (Unnamed f ∧ UnnamableApis v) := by
  rw [providersOf?] at h
  split at h
  next anchor es hv =>
    obtain ⟨as, e, bs, hes, has, he⟩ := mapM_eq_error_iff.1 h
    have hbefore : ∀ a ∈ as, ∃ ps, providerList? a.1 a.2 = .ok ps := by
      intro a ha
      obtain ⟨_, hstep⟩ := has a ha
      obtain ⟨ps, hps, -⟩ := bind_eq_ok_iff.1 hstep
      exact ⟨ps, hps⟩
    rcases bind_eq_error_iff.1 he with hlist | ⟨_, -, hpure⟩
    · exact (providerList?_eq_error hlist).imp_right fun h =>
        ⟨h.1, anchor, es, hv, as, e, bs, hes, hbefore, h.2⟩
    · exact absurd hpure pure_ne_error
  next => exact .inl (named_of_throw h)

theorem UnnamableApis.exists_unnamed (h : UnnamableApis v) :
    ∃ f, providersOf? v = .error f ∧ Unnamed f := by
  obtain ⟨anchor, es, hv, as, e, bs, hes, has, he⟩ := h
  obtain ⟨f, hf, hunnamed⟩ := he.exists_unnamed
  refine ⟨f, ?_, hunnamed⟩
  rw [providersOf?, hv]
  refine mapM_eq_error_iff.2 ⟨as, e, bs, hes, fun a ha => ?_, bind_eq_error_iff.2 (.inl hf)⟩
  obtain ⟨ps, hps⟩ := has a ha
  exact ⟨(a.1, ps), bind_eq_ok_iff.2 ⟨ps, hps, rfl⟩⟩

/-- The first part that cannot be read is one that no fault names: a provider whose configuration names
no entries, or anything for whose fault an overlong integer has to be shown. -/
inductive UnnamableParts (es : Entries) : Prop
  | apis (h : UntoldApis (Entries.get es "apis"))
  | providers {apis : List String} (hapis : apisOf? (Entries.get es "apis") = .ok apis)
      (h : UnnamableApis (Entries.get es "providers"))
  | sections {apis : List String} {providers : List (Value × List Provider)}
      (hapis : apisOf? (Entries.get es "apis") = .ok apis)
      (hproviders : providersOf? (Entries.get es "providers") = .ok providers)
      (h : UntoldSections es Section.all)

def Unnamable (d : Value) : Prop := ∃ anchor es, d = .map anchor es ∧ UnnamableParts es

theorem ofValue_eq_error {d : Value} (h : ofValue d = .error f) :
    Named f ∨ (Unnamed f ∧ Unnamable d) := by
  cases d with
  | map anchor es =>
      rw [ofValue] at h
      rcases bind_eq_error_iff.1 h with hapis | ⟨apis, hapis, h⟩
      · exact (apisOf?_eq_error hapis).imp_right fun h => ⟨h.1, anchor, es, rfl, .apis h.2⟩
      rcases bind_eq_error_iff.1 h with hproviders | ⟨providers, hproviders, h⟩
      · exact (providersOf?_eq_error hproviders).imp_right fun h =>
          ⟨h.1, anchor, es, rfl, .providers hapis h.2⟩
      rcases bind_eq_error_iff.1 h with hsections | ⟨_, -, h⟩
      · exact (sectionsOf?_eq_error hsections).imp_right fun h =>
          ⟨h.1, anchor, es, rfl, .sections hapis hproviders h.2⟩
      -- The stores and the server are refused by name.
      rcases bind_eq_error_iff.1 h with hmetadata | ⟨_, -, h⟩
      · exact .inl (Store.named_of_ofValue hmetadata)
      rcases bind_eq_error_iff.1 h with hinference | ⟨_, -, h⟩
      · exact .inl (Store.named_of_ofValue hinference)
      rcases bind_eq_error_iff.1 h with hserver | ⟨_, -, hpure⟩
      · exact .inl (Server.named_of_ofValue hserver)
      · exact absurd hpure pure_ne_error
  | _ => exact .inl (named_of_throw h)

theorem Unnamable.exists_unnamed {d : Value} (h : Unnamable d) :
    ∃ f, ofValue d = .error f ∧ Unnamed f := by
  obtain ⟨anchor, es, rfl, hparts⟩ := h
  rw [ofValue]
  cases hparts with
  | apis h => exact ⟨_, bind_eq_error_iff.2 (.inl h.apisOf?_eq), unnamed_tooLong⟩
  | @providers apis hapis h =>
      obtain ⟨f, hf, hunnamed⟩ := h.exists_unnamed
      exact ⟨f, bind_eq_error_iff.2 (.inr ⟨apis, hapis, bind_eq_error_iff.2 (.inl hf)⟩), hunnamed⟩
  | @sections apis providers hapis hproviders h =>
      refine ⟨_, bind_eq_error_iff.2 (.inr ⟨apis, hapis, ?_⟩), unnamed_tooLong⟩
      exact bind_eq_error_iff.2 (.inr ⟨providers, hproviders,
        bind_eq_error_iff.2 (.inl h.sectionsOf?_eq)⟩)

/-- A document is read, or refused by a named fault, unless the first part that cannot be read is one that
no fault names. In that case reading fails for a value of the wrong type or length. -/
theorem read_or_refused_iff (d : Value) :
    ((∃ m, ofValue d = .ok m) ∨ (∃ fault, ofValue d = .error (.manifest fault)) ↔
      ¬ Unnamable d) ∧
    (Unnamable d ↔ ∃ text, ofValue d = .error (.trouble .type text) ∨
      ofValue d = .error (.trouble .value text)) := by
  refine ⟨⟨?_, fun hfine => ?_⟩, fun hbad => ?_, ?_⟩
  · rintro hread hbad
    obtain ⟨f, hf, hunnamed⟩ := hbad.exists_unnamed
    rcases hread with ⟨m, hm⟩ | ⟨fault, hfault⟩
    · rw [hf] at hm
      cases hm
    · rw [hf] at hfault
      exact not_unnamed_of_named ⟨fault, Except.error.inj hfault⟩ hunnamed
  · cases hd : ofValue d with
    | ok m => exact .inl ⟨m, rfl⟩
    | error f =>
        rcases ofValue_eq_error hd with ⟨fault, rfl⟩ | ⟨-, hbad⟩
        · exact .inr ⟨fault, rfl⟩
        · exact absurd hbad hfine
  · obtain ⟨f, hf, text, rfl | rfl⟩ := hbad.exists_unnamed
    · exact ⟨text, .inl hf⟩
    · exact ⟨text, .inr hf⟩
  · rintro ⟨text, hf | hf⟩
    · rcases ofValue_eq_error hf with hnamed | ⟨-, hbad⟩
      · exact absurd ⟨text, .inl rfl⟩ (not_unnamed_of_named hnamed)
      · exact hbad
    · rcases ofValue_eq_error hf with hnamed | ⟨-, hbad⟩
      · exact absurd ⟨text, .inr rfl⟩ (not_unnamed_of_named hnamed)
      · exact hbad

/-- The configuration of a provider is a number, which no fault names. -/
theorem unnamed_failure_of_configuration :
    ¬ ∀ d : Value, (∃ m, ofValue d = .ok m) ∨ ∃ fault, ofValue d = .error (.manifest fault) := by
  intro hevery
  let provider := Value.record [("provider_id", .text "tgi"),
    ("provider_type", .text "remote::tgi"), ("config", .int 5)]
  let d := Value.record [("image_name", .text "dell"), ("apis", .ofList [.text "inference"]),
    ("providers", .record [("inference", .ofList [provider])])]
  obtain ⟨text, hd⟩ : ∃ text, ofValue d = .error (.trouble .type text) := ⟨_, rfl⟩
  rcases hevery d with ⟨m, hm⟩ | ⟨fault, hfault⟩
  · rw [hd] at hm
    cases hm
  · rw [hd] at hfault
    cases hfault

end Manifest
end Provision
