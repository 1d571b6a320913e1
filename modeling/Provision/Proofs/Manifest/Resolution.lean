import Provision.Proofs.Manifest.Fields
import Provision.Proofs.Placeholder.Resolving

namespace Provision

open Steps Placeholder

variable {env : Environment}

namespace Value

mutual
def nullFree : Value → Bool
  | null => false
  | list _ xs => allNullFree xs
  | map _ es => entriesNullFree es
  | _ => true

def allNullFree : List Value → Bool
  | [] => true
  | x :: xs => x.nullFree && allNullFree xs

def entriesNullFree : List (Value × Value) → Bool
  | [] => true
  | (_, v) :: es => v.nullFree && entriesNullFree es
end

theorem nullFree_of_mem {xs : List Value} (h : allNullFree xs = true) :
    ∀ x ∈ xs, x.nullFree = true := by
  induction xs with
  | nil => simp
  | cons x xs ih =>
      rw [allNullFree, Bool.and_eq_true] at h
      rw [List.forall_mem_cons]
      exact ⟨h.1, ih h.2⟩

theorem nullFree_of_get? {es : Entries} {k v : Value} (h : entriesNullFree es = true)
    (hk : Entries.get? es k = some v) : v.nullFree = true := by
  induction es with
  | nil => cases hk
  | cons e es ih =>
      obtain ⟨l, w⟩ := e
      rw [entriesNullFree, Bool.and_eq_true] at h
      simp only [Entries.get?, List.find?_cons] at hk
      split at hk
      next =>
        cases hk
        exact h.1
      next => exact ih h.2 hk

theorem nullFree_get_orElse {es : Entries} {k : String} {d : Value}
    (h : entriesNullFree es = true) (hd : d.nullFree = true) :
    ((Entries.get es k).orElse d).nullFree = true := by
  rw [orElse]
  split
  next ht =>
    rw [Entries.get] at ht ⊢
    cases hk : Entries.get? es (.text k) with
    | none =>
        rw [hk] at ht
        cases ht
    | some v => exact nullFree_of_get? h hk
  next => exact hd

end Value

section Field

variable {fields : List (String × Value)} {names : List String} {extra fs : Entries}

theorem resolves_field (hextra : extra.Apart names)
    (h : ResolvesEntries env (withExtra fields extra) fs) {k : String} (hk : k ∈ names) {v : Value}
    (hv : fields.lookup k = some v) (d : Value) : Resolves env v (Entries.getD fs k d) := by
  obtain ⟨w, hw, hres⟩ := h.get?_some ((Entries.get?_withExtra_of_apart hextra hk).trans hv)
  rwa [Entries.getD, hw]

theorem absent_field (hextra : extra.Apart names)
    (h : ResolvesEntries env (withExtra fields extra) fs) {k : String} (hk : k ∈ names)
    (hv : fields.lookup k = none) (d : Value) : Entries.getD fs k d = d := by
  rw [Entries.getD, h.get?_none ((Entries.get?_withExtra_of_apart hextra hk).trans hv)]
  rfl

end Field

namespace Resource

variable {s : Section} {r : Resource} {es fs : Entries}

/-- A resource resolves field by field: a field that is null was left out, is left out again and is
null when absent. -/
theorem resolves_get (hgiven : r.Given s) (hextra : r.extra.Apart s.fields)
    (h : ResolvesEntries env (r.toEntries s) fs) {field : String} (hf : field ∈ s.fields) :
    Resolves env (r.get field) ((ofEntries s fs).get field) := by
  obtain ⟨d, hd⟩ := Section.exists_lookup hf
  have hlookup := lookup_written s.written r.get field
  simp only [(written_eq s field).2 hf, true_and] at hlookup
  rw [get_ofEntries, hd, Option.map_some, Option.getD_some]
  cases hnull : (r.get field).isNull with
  | false =>
      rw [if_pos hnull] at hlookup
      exact resolves_field hextra h hf hlookup d
  | true =>
      rw [if_neg (by simp [hnull])] at hlookup
      have hvalue := Value.isNull_iff.1 hnull
      have hdefault : d = .null := by
        by_contra hne
        exact hgiven field ((Section.mem_defaulted_iff hd).2 hne) hvalue
      rw [absent_field hextra h hf hlookup, hvalue, hdefault]
      rfl

/-- In a document without null values only a field that is null when absent can be null. -/
theorem given_ofEntries (hes : Value.entriesNullFree es = true) : (ofEntries s es).Given s := by
  intro field hf hnull
  obtain ⟨d, hd⟩ := Section.exists_lookup (s.defaulted_subset hf)
  rw [get_ofEntries, hd, Option.map_some, Option.getD_some, Entries.getD] at hnull
  cases hk : Entries.get? es (.text field) with
  | none =>
      rw [hk] at hnull
      exact (Section.mem_defaulted_iff hd).1 hf hnull
  | some v =>
      have hv := Value.nullFree_of_get? hes hk
      rw [hk, Option.getD_some] at hnull
      rw [hnull] at hv
      cases hv

theorem resolves_get_ofEntries (hes : Value.entriesNullFree es = true)
    (h : ResolvesEntries env ((ofEntries s es).toEntries s) fs) (field : String) :
    Resolves env ((ofEntries s es).get field) ((ofEntries s fs).get field) := by
  by_cases hf : field ∈ s.fields
  · exact resolves_get (given_ofEntries hes) (Entries.apart_without es s.fields) h hf
  · cases hd : s.schema.lookup field with
    | none =>
        rw [get_ofEntries, get_ofEntries, hd]
        rfl
    | some d => exact absurd (lookup_fields hd) hf

end Resource

structure Provider.ResolvesTo (env : Environment) (p q : Provider) : Prop where
  id : Resolves env (.text p.id) (.text q.id)
  kind : Resolves env (.text p.kind) (.text q.kind)

theorem Provider.resolvesTo {p q : Provider} {api w : Value}
    (hw : Resolves env p.toValue w) (hq : Provider.ofValue api w = .ok q) :
    Provider.ResolvesTo env p q := by
  obtain ⟨fs, rfl, hfs⟩ := hw.map
  obtain ⟨_, _, he, hid, hkind, -⟩ := Provider.ofValue_eq_ok_iff.1 hq
  cases he
  have field {k s t : String}
      (hk : ([("provider_id", Value.text p.id), ("provider_type", .text p.kind)]
        ++ if p.config.isEmpty then [] else [("config", Value.ofEntries p.config)]).lookup k =
          some (.text s))
      (ht : Entries.get fs k = .text t) : Resolves env (.text s) (.text t) := by
    obtain ⟨w, hw, hres⟩ := hfs.get?_some ((Entries.get?_map_text _).trans hk)
    rw [Entries.get, hw] at ht
    exact ht ▸ hres
  exact ⟨field rfl hid, field rfl hkind⟩

namespace Manifest

variable {m r : Manifest}

/-- A manifest and what it resolves to, part by part. -/
structure ResolvesTo (env : Environment) (m r : Manifest) : Prop where
  imageName : ∃ w, Resolves env m.imageName w ∧ r.imageName = w.orElse (.text "")
  apis : List.Forall₂ (fun a b => Resolves env (.text a) (.text b)) m.apis r.apis
  providers : List.Forall₂
    (fun e f => f.1 = e.1 ∧ List.Forall₂ (Provider.ResolvesTo env) e.2 f.2) m.providers r.providers
  resources : ∀ s, List.Forall₂ (fun x y => ∀ field, Resolves env (x.get field) (y.get field))
    (m.resources s) (r.resources s)
  port : Resolves env m.server.port r.server.port

/-- The field of a written manifest that the reading of the resolved one meets. -/
theorem resolves_get {es fs : Entries} (hread : ReadFrom es m)
    (h : ResolvesEntries env m.toEntries fs) {k : String} (hk : k ∈ schema) {v : Value}
    (hv : m.fields.lookup k = some v) : Resolves env v (Entries.get fs k) := by
  rw [toEntries, hread.extra] at h
  exact resolves_field (Entries.apart_without es schema) h hk hv .null

theorem resolves_apis {w : Value} (h : Resolves env (.ofTexts m.apis) w)
    (hr : apisOf? w = .ok r.apis) :
    List.Forall₂ (fun a b => Resolves env (.text a) (.text b)) m.apis r.apis := by
  obtain ⟨ys, rfl, hys⟩ := Resolves.list h
  obtain ⟨_, hitems⟩ := apisOf?_eq_ok hr
  rw [← Value.items_of_orElse hitems, List.forall₂_map_left_iff, List.forall₂_map_right_iff] at hys
  exact hys

theorem resolves_providers {w : Value}
    (h : Resolves env
      (.ofEntries (m.providers.map fun e => (e.1, .ofList (e.2.map Provider.toValue)))) w)
    (hr : providersOf? w = .ok r.providers) :
    List.Forall₂ (fun e f => f.1 = e.1 ∧ List.Forall₂ (Provider.ResolvesTo env) e.2 f.2)
      m.providers r.providers := by
  obtain ⟨gs, rfl, hgs⟩ := Resolves.map h
  obtain ⟨_, _, he, hread⟩ := providersOf?_eq_ok hr
  rw [Value.entries_of_orElse he] at hread
  rw [ResolvesEntries, List.forall₂_map_left_iff] at hgs
  refine (forall₂_comp hgs hread).imp ?_
  rintro e f ⟨g, ⟨hkey, hlist⟩, hfkey, a, xs, hxs, hps⟩
  obtain ⟨ys, hys, hres⟩ := Resolves.list hlist
  rw [hxs] at hys
  cases hys
  rw [List.forall₂_map_left_iff] at hres
  refine ⟨hfkey.trans hkey, (forall₂_comp hres hps).imp ?_⟩
  rintro p q ⟨w, hw, hq⟩
  exact Provider.resolvesTo hw hq

theorem exists_entries {es : Entries} (hes : Value.entriesNullFree es = true)
    (hread : ReadFrom es m) (s : Section) :
    ∀ x ∈ m.resources s, ∃ fs, Value.entriesNullFree fs = true ∧ x = Resource.ofEntries s fs := by
  obtain ⟨_, xs, hxs, hrs⟩ := sectionOf?_eq_ok (hread.resources s)
  have hnull := Value.nullFree_get_orElse (k := s.name) (d := .ofList []) hes rfl
  rw [hxs] at hnull
  intro x hx
  obtain ⟨v, hv, hof⟩ := exists_of_forall₂ hrs.flip hx
  obtain ⟨_, fs, rfl, -, -, he⟩ := Resource.ofValue_eq_ok_iff.1 hof
  exact ⟨fs, Value.nullFree_of_mem hnull _ hv, he⟩

theorem resolves_resources {es : Entries} (hes : Value.entriesNullFree es = true)
    (hread : ReadFrom es m) {s : Section} {w : Value}
    (h : Resolves env (.ofList ((m.resources s).map (Resource.toValue s))) w)
    (hr : sectionOf? s w = .ok (r.resources s)) :
    List.Forall₂ (fun x y => ∀ field, Resolves env (x.get field) (y.get field))
      (m.resources s) (r.resources s) := by
  obtain ⟨ys, rfl, hys⟩ := Resolves.list h
  obtain ⟨_, _, hitems, hrs⟩ := sectionOf?_eq_ok hr
  rw [Value.items_of_orElse hitems] at hrs
  rw [List.forall₂_map_left_iff] at hys
  have hboth := (List.forall₂_and_left _ _).2 ⟨exists_entries hes hread s, forall₂_comp hys hrs⟩
  refine hboth.imp ?_
  rintro x y ⟨⟨gs, hgs, rfl⟩, v, hv, hof⟩
  obtain ⟨_, fs, rfl, -, -, rfl⟩ := Resource.ofValue_eq_ok_iff.1 hof
  obtain ⟨_, he, hfs⟩ := Resolves.map hv
  cases he
  exact Resource.resolves_get_ofEntries hgs hfs

theorem resolves_port {es : Entries} (hread : ReadFrom es m) {w : Value}
    (h : Resolves env m.server.toValue w) (hr : Server.ofValue w = .ok r.server) :
    Resolves env m.server.port r.server.port := by
  obtain ⟨fs, rfl, hfs⟩ := Resolves.map h
  obtain ⟨_, _, he, hserver⟩ := Server.ofValue_eq_ok hr
  obtain ⟨_, gs, -, hextra⟩ := Server.ofValue_eq_ok hread.server
  rw [hextra] at hfs
  rw [hserver, Value.entries_of_orElse he]
  rw [hextra]
  exact resolves_field (Entries.apart_without gs Server.schema) hfs List.mem_cons_self rfl _

/-- A manifest that was read from a document without null values resolves part by part. -/
theorem resolvesTo_of_resolve {d : Value} (hd : d.nullFree = true) (hm : ofValue d = .ok m)
    (hr : m.resolve env = .ok r) : ResolvesTo env m r := by
  obtain ⟨_, es, rfl, hread⟩ := ofValue_eq_ok hm
  obtain ⟨v, hv, hof⟩ := bind_eq_ok_iff.1 hr
  obtain ⟨fs, rfl, hfs⟩ := Resolves.map hv
  obtain ⟨_, _, he, hread'⟩ := ofValue_eq_ok hof
  cases he
  have field {k : String} (hk : k ∈ schema) {v : Value} (hv : m.fields.lookup k = some v) :
      Resolves env v (Entries.get fs k) := resolves_get hread hfs hk hv
  exact
    { imageName := ⟨_, field (k := "image_name") (by decide) rfl, hread'.imageName⟩
      apis := resolves_apis (field (by decide) rfl) hread'.apis
      providers := resolves_providers (field (by decide) rfl) hread'.providers
      resources := fun s =>
        resolves_resources hd hread (field (by cases s <;> decide) (lookup_section m s))
          (hread'.resources s)
      port := resolves_port hread (field (by decide) (lookup_server m)) hread'.server }

end Manifest
end Provision
