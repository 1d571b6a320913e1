import Provision.Manifest.Read
import Provision.Proofs.Steps

namespace Provision

open Steps

namespace Value

theorem orElse_ofList (xs : List Value) : (ofList xs).orElse (ofList []) = ofList xs := by
  cases xs <;> rfl

theorem orElse_ofEntries (es : Entries) :
    (ofEntries es).orElse (ofEntries []) = ofEntries es := by
  cases es <;> rfl

theorem orElse_orElse (v w : Value) : (v.orElse w).orElse w = v.orElse w := by
  cases hv : v.truthy with
  | true => simp [orElse, hv]
  | false => simp [orElse, hv]

theorem items_of_orElse {a b : Option Nat} {xs ys : List Value}
    (h : (list a xs).orElse (ofList []) = list b ys) : ys = xs := by
  cases xs with
  | nil => exact (Value.list.inj h).2.symm
  | cons x xs => exact (Value.list.inj h).2.symm

theorem entries_of_orElse {a b : Option Nat} {es fs : Entries}
    (h : (map a es).orElse (ofEntries []) = map b fs) : fs = es := by
  cases es with
  | nil => exact (Value.map.inj h).2.symm
  | cons e es => exact (Value.map.inj h).2.symm

def isNested : Value → Bool
  | list .. | map .. => true
  | _ => false

end Value

theorem throw_shown_ne_ok {α β : Type} {x : Except Failure β} {g : β → Failure} {a : α} :
    (do throw (g (← x)) : Except Failure α) ≠ .ok a := by
  cases x <;> nofun

theorem Provider.textField?_eq_ok_iff {api : Value} {field s : String} {es : Entries} :
    textField? api es field = .ok s ↔ Entries.get es field = .text s := by
  rw [textField?]
  split
  next t ht => simp [ht]
  next ht =>
    constructor
    · intro h
      obtain ⟨_, -, h⟩ := bind_eq_ok_iff.1 h
      exact absurd h throw_shown_ne_ok
    · intro h
      exact absurd h (ht s)

/-- A provider is read from a mapping that gives its two texts, which are not empty, and entries for
its configuration. -/
theorem Provider.ofValue_eq_ok_iff {api v : Value} {p : Provider} :
    Provider.ofValue api v = .ok p ↔ ∃ anchor es, v = .map anchor es ∧
      Entries.get es "provider_id" = .text p.id ∧ Entries.get es "provider_type" = .text p.kind ∧
      p.id ≠ "" ∧ p.kind ≠ "" ∧
      entriesOf? ((Entries.get es "config").orElse (.ofEntries [])) = .ok p.config := by
  have truthy {s : String} : (Value.text s).truthy = true ↔ s ≠ "" := by simp [Value.truthy]
  cases v with
  | map anchor es =>
      obtain ⟨id, kind, config⟩ := p
      have hlacking : (["provider_id", "provider_type"].filter
          fun f => !(Entries.get es f).truthy).isEmpty =
            ((Entries.get es "provider_id").truthy && (Entries.get es "provider_type").truthy) := by
        cases hid : (Entries.get es "provider_id").truthy <;>
          cases hkind : (Entries.get es "provider_type").truthy <;> simp [hid, hkind]
      simp only [Provider.ofValue, hlacking]
      constructor
      · intro h
        split at h
        next => exact absurd h throw_shown_ne_ok
        next hnone =>
          simp only [bind_eq_ok_iff, pure_eq_ok_iff, textField?_eq_ok_iff] at h
          obtain ⟨_, hid, _, hkind, _, hconfig, he⟩ := h
          cases he
          simp only [hid, hkind, Bool.not_eq_true', Bool.not_eq_false, Bool.and_eq_true,
            truthy] at hnone
          exact ⟨anchor, es, rfl, hid, hkind, hnone.1, hnone.2, hconfig⟩
      · rintro ⟨_, _, he, hid, hkind, hne, hne', hconfig⟩
        cases he
        rw [hid, hkind, truthy.2 hne, truthy.2 hne', if_neg (by decide)]
        simp only [bind_eq_ok_iff, pure_eq_ok_iff, textField?_eq_ok_iff]
        exact ⟨_, hid, _, hkind, _, hconfig, rfl⟩
  | _ =>
      constructor
      · exact fun h => absurd h throw_shown_ne_ok
      · rintro ⟨_, _, he, -⟩
        cases he

def Resource.ofEntries (s : Section) (es : Entries) : Resource :=
  { slots := s.schema.map fun f => (f.1, Entries.getD es f.1 f.2)
    extra := Entries.without es s.fields }

/-- A resource is read from a mapping that identifies it by a single value. -/
theorem Resource.ofValue_eq_ok_iff {s : Section} {v : Value} {r : Resource} :
    Resource.ofValue s v = .ok r ↔ ∃ anchor es, v = .map anchor es ∧
      (Entries.get es s.idField).truthy = true ∧ (Entries.get es s.idField).isNested = false ∧
      r = Resource.ofEntries s es := by
  cases v with
  | map anchor es =>
      simp only [Resource.ofValue]
      constructor
      · intro h
        split at h
        next => cases h
        next hid =>
          refine ⟨anchor, es, rfl, by simpa using hid, ?_⟩
          split at h
          next => exact absurd h throw_shown_ne_ok
          next => exact absurd h throw_shown_ne_ok
          next hlist hmap =>
            refine ⟨?_, (pure_eq_ok_iff.1 h).symm⟩
            cases hv : Entries.get es s.idField with
            | list a xs => exact absurd hv (hlist a xs)
            | map a fs => exact absurd hv (hmap a fs)
            | _ => rfl
      · rintro ⟨_, _, he, hid, hsingle, rfl⟩
        cases he
        rw [hid, if_neg (by decide)]
        split
        next a xs hv =>
          rw [hv] at hsingle
          cases hsingle
        next a fs hv =>
          rw [hv] at hsingle
          cases hsingle
        next => rfl
  | _ => simp [Resource.ofValue]

theorem Server.ofValue_eq_ok {v : Value} {s : Server} (h : Server.ofValue v = .ok s) :
    ∃ anchor es, v.orElse (.ofEntries []) = .map anchor es ∧
      s = { port := Entries.getD es "port" (.int 8321), extra := Entries.without es ["port"] } := by
  rw [Server.ofValue] at h
  split at h
  next anchor es hv => exact ⟨anchor, es, hv, (Except.ok.inj h).symm⟩
  next => cases h

theorem Store.ofValue_map_eq_ok {anchor : Option Nat} {es : Entries} {s : Option Store}
    (h : Store.ofValue (.map anchor es) = .ok s) :
    ∃ t, s = some t ∧ t.kind = Entries.getD es "type" (.text "sqlite") ∧
      t.path = Entries.get es "db_path" ∧ t.extra = Entries.without es ["type", "db_path"] := by
  cases h
  exact ⟨_, rfl, rfl, rfl, rfl⟩

namespace Manifest

theorem apisOf?_eq_ok {v : Value} {apis : List String} (h : apisOf? v = .ok apis) :
    ∃ anchor, v.orElse (.ofList []) = .list anchor (apis.map .text) := by
  rw [apisOf?] at h
  split at h
  next anchor xs hv =>
    refine ⟨anchor, ?_⟩
    rw [hv]
    congr 1
    have hxs := mapM_eq_ok_iff.1 h
    clear h hv
    induction hxs with
    | nil => rfl
    | @cons x name xs names hx _ ih =>
        split at hx
        next s => rw [ih, List.map_cons, Except.ok.inj hx]
        next => exact absurd hx throw_shown_ne_ok
  next => cases h

theorem providersOf?_eq_ok {v : Value} {ps : List (Value × List Provider)}
    (h : providersOf? v = .ok ps) :
    ∃ anchor es, v.orElse (.ofEntries []) = .map anchor es ∧
      List.Forall₂ (fun e p => p.1 = e.1 ∧ ∃ a xs, e.2 = .list a xs ∧
        List.Forall₂ (fun x q => Provider.ofValue e.1 x = .ok q) xs p.2) es ps := by
  rw [providersOf?] at h
  split at h
  next anchor es hv =>
    refine ⟨anchor, es, hv, (mapM_eq_ok_iff.1 h).imp fun e p hp => ?_⟩
    simp only [bind_eq_ok_iff, pure_eq_ok_iff] at hp
    obtain ⟨qs, hqs, rfl⟩ := hp
    refine ⟨rfl, ?_⟩
    cases hlist : e.2 with
    | list a xs =>
        rw [hlist] at hqs
        exact ⟨a, xs, rfl, mapM_eq_ok_iff.1 hqs⟩
    | _ =>
        rw [hlist] at hqs
        exact absurd hqs throw_shown_ne_ok
  next => cases h

theorem sectionOf?_eq_ok {s : Section} {v : Value} {rs : List Resource}
    (h : sectionOf? s v = .ok rs) :
    ∃ anchor xs, v.orElse (.ofList []) = .list anchor xs ∧
      List.Forall₂ (fun x r => Resource.ofValue s x = .ok r) xs rs := by
  rw [sectionOf?] at h
  split at h
  next anchor xs hv => exact ⟨anchor, xs, hv, mapM_eq_ok_iff.1 h⟩
  next => cases h

theorem sectionsOf?_eq_ok {es : Entries} {ss : List Section} {rs : Section → List Resource}
    (h : sectionsOf? es ss = .ok rs) :
    ∀ s ∈ ss, sectionOf? s (Entries.get es s.name) = .ok (rs s) := by
  induction ss generalizing rs with
  | nil => simp
  | cons t ss ih =>
      simp only [sectionsOf?, bind_eq_ok_iff, pure_eq_ok_iff] at h
      obtain ⟨first, hfirst, others, hothers, rfl⟩ := h
      intro s hs
      by_cases he : s = t
      · simpa [he] using hfirst
      · simpa [he] using ih hothers s ((List.mem_cons.1 hs).resolve_left he)

theorem mem_all_sections (s : Section) : s ∈ Section.all := by
  cases s <;> decide

/-- How the parts of a manifest are read from the entries of a document. -/
structure ReadFrom (es : Entries) (m : Manifest) : Prop where
  imageName : m.imageName = (Entries.get es "image_name").orElse (.text "")
  version : m.version = Entries.getD es "version" (.int 2)
  apis : apisOf? (Entries.get es "apis") = .ok m.apis
  providers : providersOf? (Entries.get es "providers") = .ok m.providers
  metadataStore : Store.ofValue (Entries.get es "metadata_store") = .ok m.metadataStore
  inferenceStore : Store.ofValue (Entries.get es "inference_store") = .ok m.inferenceStore
  resources : ∀ s, sectionOf? s (Entries.get es s.name) = .ok (m.resources s)
  server : Server.ofValue (Entries.get es "server") = .ok m.server
  extra : m.extra = Entries.without es schema

theorem ReadFrom.items {es : Entries} {m : Manifest} (h : ReadFrom es m) {s : Section} {r : Resource}
    (hr : r ∈ m.resources s) : ∃ anchor xs x,
      (Entries.get es s.name).orElse (.ofList []) = .list anchor xs ∧ x ∈ xs ∧
        Resource.ofValue s x = .ok r := by
  obtain ⟨anchor, xs, hlist, hall⟩ := sectionOf?_eq_ok (h.resources s)
  obtain ⟨x, hx, hread⟩ := exists_of_forall₂ hall.flip hr
  exact ⟨anchor, xs, x, hlist, hx, hread⟩

theorem ofValue_eq_ok {v : Value} {m : Manifest} (h : ofValue v = .ok m) :
    ∃ anchor es, v = .map anchor es ∧ ReadFrom es m := by
  cases v with
  | map anchor es =>
      simp only [ofValue, bind_eq_ok_iff, pure_eq_ok_iff] at h
      obtain ⟨apis, hapis, providers, hproviders, resources, hresources, metadataStore, hmetadata,
        inferenceStore, hinference, server, hserver, rfl⟩ := h
      exact ⟨anchor, es, rfl, rfl, rfl, hapis, hproviders, hmetadata, hinference,
        fun s => sectionsOf?_eq_ok hresources s (mem_all_sections s), hserver, rfl⟩
  | _ => cases h

theorem sectionsOf?_of_forall {es : Entries} {ss : List Section} {g : Section → List Resource}
    (h : ∀ s ∈ ss, sectionOf? s (Entries.get es s.name) = .ok (g s)) :
    ∃ rs, sectionsOf? es ss = .ok rs ∧ ∀ s ∈ ss, rs s = g s := by
  induction ss with
  | nil => exact ⟨_, rfl, by simp⟩
  | cons t ss ih =>
      rw [List.forall_mem_cons] at h
      obtain ⟨others, hothers, hg⟩ := ih h.2
      refine ⟨_, bind_eq_ok_iff.2 ⟨_, h.1, bind_eq_ok_iff.2 ⟨others, hothers, rfl⟩⟩, ?_⟩
      intro s hs
      by_cases he : s = t
      · simp [he]
      · simpa [he] using hg s ((List.mem_cons.1 hs).resolve_left he)

/-- Parts that can all be read make a manifest. -/
theorem ofValue_of_readFrom {es : Entries} {m : Manifest} (h : ReadFrom es m)
    (anchor : Option Nat) : ofValue (.map anchor es) = .ok m := by
  obtain ⟨rs, hrs, hall⟩ := sectionsOf?_of_forall fun s (_ : s ∈ Section.all) => h.resources s
  have hsame : rs = m.resources := funext fun s => hall s (mem_all_sections s)
  simp only [ofValue, bind_eq_ok_iff, pure_eq_ok_iff]
  refine ⟨_, h.apis, _, h.providers, _, hrs, _, h.metadataStore, _, h.inferenceStore, _, h.server,
    ?_⟩
  rw [hsame, ← h.imageName, ← h.version, ← h.extra]

end Manifest
end Provision
