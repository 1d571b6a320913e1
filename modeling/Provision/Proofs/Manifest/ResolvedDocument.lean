import Provision.Proofs.Manifest.Resolution

namespace Provision

open Steps Entries Placeholder

variable {env : Environment}

def ResolvesFields (env : Environment) : List (String × Value) → List (String × Value) → Prop :=
  List.Forall₂ fun f g => g.1 = f.1 ∧ Resolves env f.2 g.2

theorem ResolvesFields.entries {fields gs : List (String × Value)}
    (h : ResolvesFields env fields gs) :
    ResolvesEntries env (ofFields fields) (ofFields gs) := by
  rw [ResolvesEntries, ofFields, ofFields, List.forall₂_map_left_iff, List.forall₂_map_right_iff]
  exact h.imp fun f g hfg => ⟨congrArg Value.text hfg.1, hfg.2⟩

/-- The entries of a resolved record are its resolved fields and, after them, those whose keys are
not in its schema. -/
theorem withExtra_of_resolves {names : List String} {fields gs : List (String × Value)}
    {extra fs : Entries} (hfields : ∀ f ∈ fields, f.1 ∈ names) (hgs : ∀ g ∈ gs, g.1 ∈ names)
    (hextra : extra.Apart names) (h : ResolvesEntries env (withExtra fields extra) fs)
    (hres : ResolvesFields env fields gs) : withExtra gs (fs.without names) = fs := by
  have htail : ResolvesEntries env extra.merged (fs.without names) := by
    rw [← without_withExtra hfields hextra]
    exact h.without names
  have hdistinct : (fs.without names).Distinct := by
    rw [Distinct, htail.keys_eq]
    exact distinct_merged extra
  rw [withExtra_eq_append hgs (apart_without fs names), merged_of_distinct hdistinct]
  rw [withExtra_eq_append hfields hextra] at h
  exact ResolvesEntries.unique (List.rel_append hres.entries htail) h

theorem Provider.toValue_of_resolves {p q : Provider} {api w : Value}
    (h : Resolves env p.toValue w) (hq : Provider.ofValue api w = .ok q) : q.toValue = w := by
  obtain ⟨_, fs, rfl, hid, hkind, -, -, hconfig⟩ := Provider.ofValue_eq_ok_iff.1 hq
  obtain ⟨_, he, hfs⟩ := h.map
  cases he
  have field {k : String} {v : Value} (hk : p.fields.lookup k = some v) :
      Resolves env v (Entries.get fs k) := by
    obtain ⟨w, hw, hres⟩ := hfs.get?_some ((get?_map_text p.fields).trans hk)
    rwa [Entries.get, hw]
  have hid : Resolves env (.text p.id) (.text q.id) := hid ▸ field rfl
  have hkind : Resolves env (.text p.kind) (.text q.kind) := hkind ▸ field rfl
  have hlookup := p.lookup_config
  have hres : ResolvesFields env p.fields q.fields := by
    refine List.rel_append (.cons ⟨rfl, hid⟩ (.cons ⟨rfl, hkind⟩ .nil)) ?_
    cases hc : p.config with
    | nil =>
        rw [hc] at hlookup
        have hnone := hfs.get?_none ((get?_map_text p.fields).trans hlookup)
        rw [Entries.get, hnone] at hconfig
        have hempty : q.config = [] := (Except.ok.inj hconfig).symm
        rw [hempty]
        exact .nil
    | cons e es =>
        rw [hc] at hlookup
        have hmap := field hlookup
        obtain ⟨gs, hgs, hall⟩ := hmap.map
        rw [hgs, ← Value.ofEntries] at hmap hconfig
        rw [Value.orElse_ofEntries] at hconfig
        have hentries : q.config = gs := (Except.ok.inj hconfig).symm
        rw [hentries]
        cases hall with
        | cons _ _ => exact .cons ⟨rfl, hmap⟩ .nil
  exact congrArg Value.ofEntries (hres.entries.unique hfs)

theorem Store.toValue_of_resolves {s : Store} (hextra : s.extra.Apart schema) {w : Value}
    (h : Resolves env s.toValue w) {t : Option Store} (ht : Store.ofValue w = .ok t) :
    ∃ u, t = some u ∧ u.toValue = w := by
  obtain ⟨fs, rfl, hfs⟩ := h.map
  obtain ⟨u, rfl, hkind, hpath, hrest⟩ := Store.ofValue_map_eq_ok ht
  have hkind : Resolves env s.kind u.kind := by
    rw [hkind]
    exact resolves_field hextra hfs (by decide) rfl _
  have hpath : Resolves env s.path u.path := by
    have hlookup := s.lookup_path
    cases hnull : s.path.isNull with
    | false =>
        rw [hnull] at hlookup
        rw [hpath]
        exact resolves_field hextra hfs (by decide) hlookup .null
    | true =>
        rw [hnull] at hlookup
        rw [hpath, Value.isNull_iff.1 hnull, Entries.get, ← getD,
          absent_field hextra hfs (by decide) hlookup]
        rfl
  have hres : ResolvesFields env s.fields u.fields := by
    refine List.rel_append (.cons ⟨rfl, hkind⟩ .nil) ?_
    rw [hpath.isNull_eq]
    split
    · exact .nil
    · exact .cons ⟨rfl, hpath⟩ .nil
  refine ⟨u, rfl, ?_⟩
  rw [toValue_eq, hrest, ← schema,
    withExtra_of_resolves s.fields_mem_schema u.fields_mem_schema hextra hfs hres, Value.ofEntries]

theorem Server.toValue_of_resolves {s t : Server} (hextra : s.extra.Apart schema) {w : Value}
    (h : Resolves env s.toValue w) (ht : Server.ofValue w = .ok t) : t.toValue = w := by
  obtain ⟨fs, rfl, hfs⟩ := h.map
  obtain ⟨_, gs, he, rfl⟩ := Server.ofValue_eq_ok ht
  cases Value.entries_of_orElse he
  have hport := resolves_field hextra hfs List.mem_cons_self rfl (.int 8321)
  refine congrArg Value.ofEntries
    (withExtra_of_resolves s.fields_mem_schema (fields_mem_schema _) hextra hfs ?_)
  exact .cons ⟨rfl, hport⟩ .nil

theorem Resource.toValue_of_resolves {s : Section} {r q : Resource} (hgiven : r.Given s)
    (hextra : r.extra.Apart s.fields) {w : Value} (h : Resolves env (r.toValue s) w)
    (hq : Resource.ofValue s w = .ok q) : q.toValue s = w := by
  obtain ⟨fs, rfl, hfs⟩ := h.map
  obtain ⟨_, _, he, -, -, rfl⟩ := Resource.ofValue_eq_ok_iff.1 hq
  cases he
  refine congrArg Value.ofEntries (withExtra_of_resolves (r.writtenFields_mem_fields s)
    (writtenFields_mem_fields s _) hextra hfs ?_)
  -- null stays null, so that the same fields are written
  refine List.rel_filter (fun f g hfg => by simp only [hfg.2.isNull_eq]) ?_
  rw [List.forall₂_map_left_iff, List.forall₂_map_right_iff, List.forall₂_same]
  exact fun field hf => ⟨rfl, resolves_get hgiven hextra hfs ((written_eq s field).1 hf)⟩

namespace Manifest

variable {m r : Manifest}

theorem orElse_of_resolves {s : String} {w : Value} (h : Resolves env (.text s) w)
    (hs : ∀ p, segments s ≠ [.hole p]) : w.orElse (.text "") = w := by
  obtain ⟨t, rfl⟩ := text_of_resolves h hs
  by_cases hempty : t = "" <;> simp [Value.orElse, Value.truthy, hempty]

theorem ofTexts_of_resolves {apis names : List String} {w : Value}
    (h : Resolves env (.ofTexts apis) w) (hr : apisOf? w = .ok names) : .ofTexts names = w := by
  obtain ⟨ys, rfl, -⟩ := Resolves.list h
  obtain ⟨_, hitems⟩ := apisOf?_eq_ok hr
  rw [Value.ofTexts, Value.items_of_orElse hitems, Value.ofList]

theorem providers_of_resolves {ps qs : List (Value × List Provider)} {w : Value}
    (h : Resolves env (.ofEntries (ps.map fun e => (e.1, .ofList (e.2.map Provider.toValue)))) w)
    (hr : providersOf? w = .ok qs) :
    .ofEntries (qs.map fun e => (e.1, .ofList (e.2.map Provider.toValue))) = w := by
  obtain ⟨gs, rfl, hgs⟩ := Resolves.map h
  obtain ⟨_, _, he, hread⟩ := providersOf?_eq_ok hr
  cases Value.entries_of_orElse he
  rw [ResolvesEntries, List.forall₂_map_left_iff] at hgs
  refine congrArg Value.ofEntries (map_eq_of_forall₂ ?_ hgs hread)
  rintro e g q ⟨-, hlist⟩ ⟨hkey, a, xs, hxs, hqs⟩
  obtain ⟨ys, hys, hres⟩ := Resolves.list hlist
  rw [hxs] at hys
  cases hys
  rw [List.forall₂_map_left_iff] at hres
  rw [map_eq_of_forall₂ Provider.toValue_of_resolves hres hqs, hkey, Value.ofList, ← hxs]

theorem section_of_resolves {s : Section} {rs qs : List Resource}
    (hrs : ∀ r ∈ rs, r.Given s ∧ r.extra.Apart s.fields) {w : Value}
    (h : Resolves env (.ofList (rs.map (Resource.toValue s))) w) (hr : sectionOf? s w = .ok qs) :
    .ofList (qs.map (Resource.toValue s)) = w := by
  obtain ⟨ys, rfl, hys⟩ := Resolves.list h
  obtain ⟨_, _, hitems, hread⟩ := sectionOf?_eq_ok hr
  cases Value.items_of_orElse hitems
  rw [List.forall₂_map_left_iff] at hys
  refine congrArg Value.ofList
    (map_eq_of_forall₂ ?_ ((List.forall₂_and_left _ _).2 ⟨hrs, hys⟩) hread)
  rintro r y q ⟨⟨hgiven, hextra⟩, hy⟩ hq
  exact Resource.toValue_of_resolves hgiven hextra hy hq

/-- A manifest in the form in which its document determines what resolving it gives: the name is a
text and stays one, a resource has every field that is not null when absent, and no extra entry has
a key of its record. -/
structure Canonical (m : Manifest) : Prop where
  imageName : ∃ s, m.imageName = .text s ∧ ∀ p, segments s ≠ [.hole p]
  given : ∀ s, ∀ r ∈ m.resources s, r.Given s
  extras : m.Extras Apart

theorem resolvesFields_store {name : String} {s t : Option Store} {v : Value}
    (hextra : ∀ u ∈ s, u.extra.Apart Store.schema)
    (h : Resolves env ((s.map Store.toValue).getD .null) v) (ht : Store.ofValue v = .ok t) :
    ResolvesFields env (storeField name s) (storeField name t) := by
  cases s with
  | none =>
      cases h
      cases ht
      exact .nil
  | some s =>
      obtain ⟨u, rfl, rfl⟩ := Store.toValue_of_resolves (hextra s rfl) h ht
      exact .cons ⟨rfl, h⟩ .nil

/-- What a canonical manifest's document resolves to is the document of the manifest that is read
from it. -/
theorem toValue_of_resolves (hm : m.Canonical) {w : Value} (h : Resolves env m.toValue w)
    (hr : ofValue w = .ok r) : r.toValue = w := by
  obtain ⟨fs, rfl, hfs⟩ := h.map
  obtain ⟨_, _, he, hread⟩ := ofValue_eq_ok hr
  cases he
  have field {k : String} (hk : k ∈ schema) {v : Value} (hv : m.fields.lookup k = some v) :
      Resolves env v (Entries.get fs k) :=
    resolves_field hm.extras.top hfs hk hv .null
  have store {k : String} (hk : k ∈ schema) {s : Option Store}
      (hs : m.fields.lookup k = s.map Store.toValue) :
      Resolves env ((s.map Store.toValue).getD .null) (Entries.get fs k) := by
    cases s with
    | none =>
        rw [Entries.get, ← getD, absent_field hm.extras.top hfs hk hs]
        rfl
    | some s => exact field hk hs
  have version : Resolves env m.version r.version := by
    rw [hread.version]
    exact resolves_field hm.extras.top hfs (by decide) rfl _
  have imageName : Resolves env m.imageName r.imageName := by
    obtain ⟨s, hs, hopen⟩ := hm.imageName
    have himage := field (k := "image_name") (by decide) rfl
    rwa [hread.imageName, orElse_of_resolves (hs ▸ himage) hopen]
  have apis := field (k := "apis") (by decide) rfl
  rw [← ofTexts_of_resolves apis hread.apis] at apis
  have providers := field (k := "providers") (by decide) rfl
  rw [← providers_of_resolves providers hread.providers] at providers
  have sections (s : Section) : Resolves env (m.sectionField s).2 (r.sectionField s).2 := by
    have hsection := field (by cases s <;> decide) (lookup_section m s)
    have hrs : ∀ x ∈ m.resources s, x.Given s ∧ x.extra.Apart s.fields :=
      fun x hx => ⟨hm.given s x hx, hm.extras.resources s x hx⟩
    rwa [← section_of_resolves hrs hsection (hread.resources s)] at hsection
  have server := field (by decide) m.lookup_server
  rw [← Server.toValue_of_resolves hm.extras.server server hread.server] at server
  have hres : ResolvesFields env m.fields r.fields := by
    refine List.rel_append (List.rel_append (List.rel_append (List.rel_append
      (.cons ⟨rfl, version⟩ (.cons ⟨rfl, imageName⟩ (.cons ⟨rfl, apis⟩ (.cons ⟨rfl, providers⟩ .nil))))
      ?_) ?_) ?_) (.cons ⟨rfl, server⟩ .nil)
    · exact resolvesFields_store hm.extras.metadataStore (store (by decide) m.lookup_metadataStore)
        hread.metadataStore
    · exact resolvesFields_store hm.extras.inferenceStore (store (by decide) m.lookup_inferenceStore)
        hread.inferenceStore
    · rw [List.forall₂_map_left_iff, List.forall₂_map_right_iff, List.forall₂_same]
      exact fun s _ => ⟨rfl, sections s⟩
  rw [toValue, toEntries, hread.extra,
    withExtra_of_resolves m.fields_mem_schema r.fields_mem_schema hm.extras.top hfs hres,
    Value.ofEntries]

/-- Resolving a canonical manifest is substituting in its document: nothing is dropped, renamed or
replaced by a default. -/
theorem document_of_resolve {m r : Manifest} (hm : m.Canonical) {env : Environment}
    (hr : m.resolve env = .ok r) : replace env "" m.toValue = .ok r.toValue := by
  obtain ⟨w, hw, hof⟩ := bind_eq_ok_iff.1 hr
  rwa [toValue_of_resolves hm hw hof]

theorem document_of_resolve_with_placeholders :
    let model := Resource.ofEntries .models [(.text "model_id", .text "$\x7benv.MODEL\x7d"),
      (.text "provider_id", .text "tgi"), (.text "limit", .text "$\x7benv.LIMIT:=12\x7d")]
    let m : Manifest :=
      { imageName := .text "dell-$\x7benv.SITE:=lab\x7d"
        apis := ["inference"]
        providers := [(.text "inference",
          [⟨"tgi", "remote::tgi", [(.text "url", .text "$\x7benv.TGI_URL:+on\x7d")]⟩])]
        metadataStore := some { path := .text "$\x7benv.DB\x7d" }
        resources := fun s => if s = .models then [model] else []
        server := { port := .text "$\x7benv.PORT:=8321\x7d" } }
    let env := [("MODEL", "llama"), ("DB", "true")]
    m.Canonical ∧ ∃ r, m.resolve env = .ok r ∧ r.server.port.same (.int 8321) = true ∧
      replace env "" m.toValue = .ok r.toValue := by
  intro model m env
  have honly {s : Section} {x : Resource} (hx : x ∈ m.resources s) : s = .models ∧ x = model := by
    simpa [m] using hx
  have hcanonical : m.Canonical :=
    { imageName := by
        refine ⟨_, rfl, fun p hp => ?_⟩
        have hlength : (segments "dell-$\x7benv.SITE:=lab\x7d").length ≠ 1 := by decide
        exact hlength (congrArg List.length hp)
      given := by
        intro s x hx
        obtain ⟨rfl, rfl⟩ := honly hx
        decide
      extras :=
        { top := nofun
          metadataStore := by
            rintro _ ⟨⟩
            exact nofun
          inferenceStore := nofun
          server := nofun
          resources := by
            intro s x hx
            obtain ⟨rfl, rfl⟩ := honly hx
            exact apart_without _ _ } }
  have hrun : (do
      let r ← m.resolve env
      pure (r.server.port.same (.int 8321))) = .ok true := eq_ok_of_toOption (by decide +kernel)
  obtain ⟨r, hr, hport⟩ := bind_eq_ok_iff.1 hrun
  exact ⟨hcanonical, r, hr, pure_eq_ok_iff.1 hport, document_of_resolve hcanonical hr⟩

end Manifest
end Provision
