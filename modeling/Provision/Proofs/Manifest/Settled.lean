import Provision.Proofs.Manifest.Telling
import Provision.Proofs.Manifest.Resolution

namespace Provision.Manifest

open Steps Placeholder

variable {env : Environment} {m r : Manifest}

/-- The rules that a manifest can break before it is resolved and not after. -/
structure Settled (m : Manifest) : Prop where
  apis : ∀ api ∈ m.apis, inText api = false
  providerKinds : ∀ e ∈ m.providers, ∀ p ∈ e.2, inText p.kind = true → p.isRemote ∨ p.isInline
  /-- A provider whose identifier is a placeholder is no provider to a resource that names one. -/
  bindings : ∀ s, (∃ p ∈ m.providersOf s.api, inText p.id = true) →
    ∀ x ∈ m.resources s, ∀ id, x.get "provider_id" = .text id → inText id = false →
      ∃ p ∈ m.providersOf s.api, p.id = id
  modelTypes : ∀ x ∈ m.resources .models, inValue (x.get "model_type") = false
  dimensions : ∀ x ∈ m.resources .models, x.get "model_type" = .text "embedding" →
    ∀ anchor es, x.get "metadata" = .map anchor es →
      inValue (Entries.get es "embedding_dimension") = false
  vectorDbs : (∃ e ∈ m.resources .models, e.get "model_type" = .text "embedding" ∧
      inValue (e.identifier .models) = true) →
    ∀ x ∈ m.resources .vectorDbs, (x.get "embedding_model").truthy = true →
      inValue (x.get "embedding_model") = false → m.HasEmbedding (x.get "embedding_model")
  /-- Benchmarks are not exempt: a placeholder is looked up as it is written. -/
  benchmarks : ∀ x ∈ m.resources .benchmarks, m.resources .datasets ≠ [] →
    (x.get "dataset_id").truthy = true →
      (inValue (x.get "dataset_id") = true ∨
        ∃ d ∈ m.resources .datasets, inValue (d.identifier .datasets) = true) →
          m.HasDataset (x.get "dataset_id")

theorem not_inText_of_known {api : String} (h : api ∈ knownApis) : inText api = false := by
  have hall : ∀ a ∈ knownApis, inText a = false := by decide
  exact hall api h

theorem Consistent.settled (h : m.Consistent) : m.Settled where
  apis api hapi := not_inText_of_known (h.listed api hapi).1
  providerKinds e he p hp _ := h.providerKinds e he p hp
  bindings s _ x hx id hid hconcrete := by
    cases h.bindings s x hx with
    | only hnull _ =>
        rw [hid] at hnull
        cases hnull
    | «open» hopen =>
        rw [hid, inValue, hconcrete] at hopen
        cases hopen
    | named p hp hnamed =>
        rw [hid] at hnamed
        exact ⟨p, hp, (Value.text.inj hnamed).symm⟩
  modelTypes x hx := by
    cases h.models x hx with
    | llm ht =>
        rw [ht]
        decide
    | embedding ht _ _ _ _ _ =>
        rw [ht]
        decide
  dimensions x hx ht anchor es hes := by
    cases h.models x hx with
    | llm hllm =>
        rw [ht] at hllm
        simp at hllm
    | embedding _ _ _ hes' n hn =>
        rw [hes] at hes'
        cases hes'
        rw [hn]
        rfl
  vectorDbs _ x hx htruthy hconcrete := by
    rcases h.vectorDbs x hx with hfalsy | hopen | hhas
    · rw [htruthy] at hfalsy
      cases hfalsy
    · rw [hconcrete] at hopen
      cases hopen
    · exact hhas
  benchmarks x hx hne htruthy _ := by
    rcases h.benchmarks x hx with hnil | hfalsy | hhas
    · exact absurd hnil hne
    · rw [htruthy] at hfalsy
      cases hfalsy
    · exact hhas

theorem ResolvesTo.providersOf (h : ResolvesTo env m r) (api : String) :
    List.Forall₂ (Provider.ResolvesTo env) (m.providersOf api) (r.providersOf api) := by
  have hps := h.providers
  rw [Manifest.providersOf, Manifest.providersOf]
  generalize m.providers = es at hps
  generalize r.providers = fs at hps
  induction hps with
  | nil => exact .nil
  | @cons e f es fs hef _ ih =>
      rw [List.find?_cons, List.find?_cons, hef.1]
      cases (Value.text api).same e.1 with
      | true => exact hef.2
      | false => exact ih

theorem ResolvesTo.resource (h : ResolvesTo env m r) {s : Section} {x : Resource}
    (hx : x ∈ m.resources s) :
    ∃ y ∈ r.resources s, ∀ field, Resolves env (x.get field) (y.get field) :=
  exists_of_forall₂ (h.resources s) hx

theorem ResolvesTo.resource_back (h : ResolvesTo env m r) {s : Section} {y : Resource}
    (hy : y ∈ r.resources s) :
    ∃ x ∈ m.resources s, ∀ field, Resolves env (x.get field) (y.get field) :=
  exists_of_forall₂ (h.resources s).flip hy

theorem ResolvesTo.datasets_ne_nil (h : ResolvesTo env m r) (hne : m.resources .datasets ≠ []) :
    r.resources .datasets ≠ [] := by
  intro hnil
  have hlength := (h.resources .datasets).length_eq
  rw [hnil, List.length_nil, List.length_eq_zero_iff] at hlength
  exact hne hlength

/-- What can be looked for once it is resolved is a placeholder or has not changed. -/
theorem eq_or_inValue_of_resolves {v w : Value} (h : Resolves env v w)
    (hw : w.searchable = true) : w = v ∨ inValue v = true := by
  cases hv : inValue v with
  | true => exact .inr rfl
  | false => exact .inl ((h.concrete hv).2.2 hw)

theorem hashable_of_inValue {v : Value} (h : inValue v = true) : v.hashable = true := by
  obtain ⟨s, rfl, -⟩ := Value.inValue_eq_true_iff.1 h
  rfl

theorem hashable_of_resolves {v w : Value} (h : Resolves env v w) (hw : w.hashable = true) :
    v.hashable = true := by
  rcases eq_or_inValue_of_resolves h (Value.searchable_of_hashable hw) with rfl | hv
  · exact hw
  · exact hashable_of_inValue hv

theorem searchable_of_resolves {v w : Value} (h : Resolves env v w) (hw : w.searchable = true) :
    v.searchable = true := by
  rcases eq_or_inValue_of_resolves h hw with rfl | hv
  · exact hw
  · exact Value.searchable_of_hashable (hashable_of_inValue hv)

theorem ResolvesTo.comparable (h : ResolvesTo env m r) (hr : r.Comparable) : m.Comparable where
  identifiers s v hv := by
    obtain ⟨x, hx, rfl⟩ := List.mem_map.1 hv
    obtain ⟨y, hy, hres⟩ := h.resource hx
    exact hashable_of_resolves (hres _) (hr.identifiers s _ (List.mem_map_of_mem hy))
  vectorDbs x hx htruthy hconcrete := by
    obtain ⟨y, hy, hres⟩ := h.resource hx
    obtain ⟨hsame, hopen, -⟩ := (hres "embedding_model").concrete hconcrete
    exact searchable_of_resolves (hres _) (hr.vectorDbs y hy (hsame.trans htruthy) hopen)
  benchmarks x hx hne htruthy := by
    cases hv : inValue (x.get "dataset_id") with
    | true =>
        obtain ⟨s, hs, -⟩ := Value.inValue_eq_true_iff.1 hv
        rw [hs]
        rfl
    | false =>
        obtain ⟨y, hy, hres⟩ := h.resource hx
        obtain ⟨hsame, -, -⟩ := (hres "dataset_id").concrete hv
        exact searchable_of_resolves (hres _)
          (hr.benchmarks y hy (h.datasets_ne_nil hne) (hsame.trans htruthy))

theorem identifier_of_resolves {s : Section} {x y : Resource} (hcmp : r.Comparable)
    (hy : y ∈ r.resources s) (hres : ∀ field, Resolves env (x.get field) (y.get field))
    (hx : inValue (x.identifier s) = false) :
    y.identifier s = x.identifier s ∧ inValue (y.identifier s) = false := by
  obtain ⟨-, hopen, hsame⟩ := (hres s.idField).concrete hx
  have hid := hcmp.identifiers s _ (List.mem_map_of_mem hy)
  exact ⟨hsame (Value.searchable_of_hashable hid), hopen⟩

section

variable (h : ResolvesTo env m r) (hcmp : r.Comparable) (hr : r.Consistent) (hs : m.Settled)

include h

include hr in
theorem ResolvesTo.imageName_ne : m.imageName ≠ .text "" := by
  intro hempty
  obtain ⟨w, hw, hname⟩ := h.imageName
  rw [hempty] at hw
  rw [resolves_of_not_inText hw (by decide)] at hname
  exact hr.imageName hname

include hr hs in
theorem ResolvesTo.listed : ∀ api ∈ m.apis, api ∈ knownApis ∧ m.providersOf api ≠ [] := by
  intro api hapi
  obtain ⟨b, hb, hres⟩ := exists_of_forall₂ h.apis hapi
  have hsame := Value.text.inj (resolves_of_not_inText hres (hs.apis api hapi))
  subst hsame
  obtain ⟨hknown, hne⟩ := hr.listed b hb
  refine ⟨hknown, fun hnil => hne ?_⟩
  have hps := h.providersOf b
  rw [hnil] at hps
  exact List.forall₂_nil_left_iff.1 hps

include hr hs in
theorem ResolvesTo.configured : ∀ e ∈ m.providers, ∃ api ∈ m.apis, e.1 = .text api := by
  intro e he
  obtain ⟨f, hf, hkey, -⟩ := exists_of_forall₂ h.providers he
  obtain ⟨b, hb, hfb⟩ := hr.configured f hf
  obtain ⟨a, ha, hres⟩ := exists_of_forall₂ h.apis.flip hb
  have hsame := resolves_of_not_inText hres (hs.apis a ha)
  exact ⟨a, ha, by rw [← hkey, hfb, hsame]⟩

include hr in
theorem ResolvesTo.providerIds : ∀ e ∈ m.providers, (e.2.map (·.id)).Nodup := by
  intro e he
  obtain ⟨f, hf, -, hps⟩ := exists_of_forall₂ h.providers he
  have hnodup := hr.providerIds f hf
  rw [List.Nodup, List.pairwise_map] at hnodup ⊢
  refine pairwise_of_forall₂ ?_ hps hnodup
  intro p p' q q' hp hp' hne hid
  have hboth := hp'.id
  rw [← hid, Resolves, hp.id, Except.ok.injEq, Value.text.injEq] at hboth
  exact hne hboth

include hr hs in
theorem ResolvesTo.providerKinds : ∀ e ∈ m.providers, ∀ p ∈ e.2, p.isRemote ∨ p.isInline := by
  intro e he p hp
  cases hopen : inText p.kind with
  | true => exact hs.providerKinds e he p hp hopen
  | false =>
      obtain ⟨f, hf, -, hps⟩ := exists_of_forall₂ h.providers he
      obtain ⟨q, hq, hpq⟩ := exists_of_forall₂ hps hp
      have hkind := Value.text.inj (resolves_of_not_inText hpq.kind hopen)
      have hpre := hr.providerKinds f hf q hq
      rw [Provider.isRemote, Provider.isInline, hkind] at hpre
      exact hpre

include hcmp hr in
theorem ResolvesTo.identifiers (s : Section) :
    ((m.identifiers s).filter (!inValue ·)).Pairwise fun v w => w.same v = false := by
  have hdistinct := pairwise_distinct_iff.1 (hr.identifiers s)
  rw [pairwise_distinct_iff]
  simp only [Manifest.identifiers, List.pairwise_map] at hdistinct ⊢
  have hres := (List.forall₂_and_left _ _).2 ⟨fun y hy => hy, (h.resources s).flip⟩
  refine pairwise_of_forall₂ ?_ hres.flip hdistinct
  rintro x x' y y' ⟨hy, hxy⟩ ⟨hy', hxy'⟩ hne hconcrete
  obtain ⟨hsame', hopen'⟩ := identifier_of_resolves hcmp hy' hxy' hconcrete
  by_contra hsame
  rw [Bool.not_eq_false] at hsame
  have hx : inValue (x.identifier s) = false := by
    by_contra hopen
    rw [Bool.not_eq_false] at hopen
    rw [Value.inValue_of_same hsame hopen] at hconcrete
    cases hconcrete
  have hdiff := hne hopen'
  rw [hsame', (identifier_of_resolves hcmp hy hxy hx).1, hsame] at hdiff
  cases hdiff

include hr hs in
theorem ResolvesTo.bindings (s : Section) :
    ∀ x ∈ m.resources s, Bound (m.providersOf s.api) x := by
  intro x hx
  cases hv : inValue (x.get "provider_id") with
  | true => exact .open hv
  | false =>
      obtain ⟨y, hy, hres⟩ := h.resource hx
      obtain ⟨-, hopen, hsame⟩ := (hres "provider_id").concrete hv
      cases hr.bindings s y hy with
      | only hnull one =>
          rw [hnull] at hsame
          exact .only (hsame rfl).symm ((h.providersOf s.api).length_eq.trans one)
      | «open» hopen' =>
          rw [hopen] at hopen'
          cases hopen'
      | named q hq hnamed =>
          rw [hnamed] at hsame
          have hid : x.get "provider_id" = .text q.id := (hsame rfl).symm
          rw [hid, inValue] at hv
          obtain ⟨p, hp, hpq⟩ := exists_of_forall₂ (h.providersOf s.api).flip hq
          -- The provider may have this identifier only once it is resolved.
          cases hplaceholder : inText p.id with
          | true =>
              obtain ⟨p', hp', he⟩ := hs.bindings s ⟨p, hp, hplaceholder⟩ x hx q.id hid hv
              exact .named p' hp' (by rw [hid, he])
          | false =>
              have he := resolves_of_not_inText hpq.id hplaceholder
              exact .named p hp (hid.trans he)

include hr hs in
theorem ResolvesTo.models : ∀ x ∈ m.resources .models, Typed x := by
  intro x hx
  obtain ⟨y, hy, hres⟩ := h.resource hx
  obtain ⟨-, -, hsame⟩ := (hres "model_type").concrete (hs.modelTypes x hx)
  cases hr.models y hy with
  | llm ht =>
      rw [ht] at hsame
      exact .llm (hsame rfl).symm
  | embedding ht anchor fs hfs n hn =>
      rw [ht] at hsame
      have htype : x.get "model_type" = .text "embedding" := (hsame rfl).symm
      have hmeta := hres "metadata"
      rw [hfs] at hmeta
      obtain ⟨a, es, hes, hentries⟩ := hmeta.of_map
      have hconcrete := hs.dimensions x hx htype a es hes
      refine .embedding htype a es hes n ?_
      rw [Entries.get] at hn hconcrete ⊢
      cases hk : Entries.get? es (.text "embedding_dimension") with
      | none =>
          rw [hentries.get?_none hk] at hn
          cases hn
      | some v =>
          obtain ⟨w, hw, hvw⟩ := hentries.get?_some hk
          rw [hw, Option.getD_some] at hn
          rw [hk, Option.getD_some] at hconcrete
          subst hn
          exact ((hvw.concrete hconcrete).2.2 rfl).symm

include hcmp hr hs in
theorem ResolvesTo.vectorDbs : ∀ x ∈ m.resources .vectorDbs,
    (x.get "embedding_model").truthy = false ∨ inValue (x.get "embedding_model") = true ∨
      m.HasEmbedding (x.get "embedding_model") := by
  intro x hx
  by_contra hno
  simp only [not_or, Bool.not_eq_false, Bool.not_eq_true] at hno
  obtain ⟨htruthy, hconcrete, hlacks⟩ := hno
  obtain ⟨y, hy, hres⟩ := h.resource hx
  obtain ⟨hpresent, hopen, hsame⟩ := (hres "embedding_model").concrete hconcrete
  have hkept := hsame (hcmp.vectorDbs y hy (hpresent.trans htruthy) hopen)
  rcases hr.vectorDbs y hy with hfalsy | hopen' | ⟨e', he', htype, hid⟩
  · rw [hpresent, htruthy] at hfalsy
    cases hfalsy
  · rw [hopen] at hopen'
    cases hopen'
  · obtain ⟨e, he, hees⟩ := h.resource_back he'
    obtain ⟨-, -, hsametype⟩ := (hees "model_type").concrete (hs.modelTypes e he)
    rw [htype] at hsametype
    have htype := (hsametype rfl).symm
    cases hplaceholder : inValue (e.identifier .models) with
    | true => exact hlacks (hs.vectorDbs ⟨e, he, htype, hplaceholder⟩ x hx htruthy hconcrete)
    | false =>
        rw [hkept, (identifier_of_resolves hcmp he' hees hplaceholder).1] at hid
        exact hlacks ⟨e, he, htype, hid⟩

include hcmp hr hs in
theorem ResolvesTo.benchmarks : ∀ x ∈ m.resources .benchmarks, m.resources .datasets = [] ∨
    (x.get "dataset_id").truthy = false ∨ m.HasDataset (x.get "dataset_id") := by
  intro x hx
  by_contra hno
  simp only [not_or, Bool.not_eq_false] at hno
  obtain ⟨hne, htruthy, hlacks⟩ := hno
  cases hconcrete : inValue (x.get "dataset_id") with
  | true => exact hlacks (hs.benchmarks x hx hne htruthy (.inl hconcrete))
  | false =>
      obtain ⟨y, hy, hres⟩ := h.resource hx
      obtain ⟨hpresent, -, hsame⟩ := (hres "dataset_id").concrete hconcrete
      have hkept := hsame
        (hcmp.benchmarks y hy (h.datasets_ne_nil hne) (hpresent.trans htruthy))
      rcases hr.benchmarks y hy with hnil | hfalsy | ⟨d', hd', hid⟩
      · exact h.datasets_ne_nil hne hnil
      · rw [hpresent, htruthy] at hfalsy
        cases hfalsy
      · obtain ⟨d, hd, hdds⟩ := h.resource_back hd'
        cases hplaceholder : inValue (d.identifier .datasets) with
        | true => exact hlacks (hs.benchmarks x hx hne htruthy (.inr ⟨d, hd, hplaceholder⟩))
        | false =>
            rw [hkept, (identifier_of_resolves hcmp hd' hdds hplaceholder).1] at hid
            exact hlacks ⟨d, hd, hid⟩

include hr in
theorem ResolvesTo.port_ok : inValue m.server.port = true ∨
    ∃ n : Int, m.server.port = .int n ∧ 1 ≤ n ∧ n ≤ 65535 := by
  cases hv : inValue m.server.port with
  | true => exact .inl rfl
  | false =>
      obtain ⟨-, hopen, hsame⟩ := h.port.concrete hv
      rcases hr.port with hopen' | ⟨n, hn, hlow, hhigh⟩
      · rw [hopen] at hopen'
        cases hopen'
      · rw [hn] at hsame
        exact .inr ⟨n, (hsame rfl).symm, hlow, hhigh⟩

include hcmp hr hs in
/-- A settled manifest is consistent where it resolves to one that is. -/
theorem ResolvesTo.consistent : m.Consistent where
  imageName := h.imageName_ne hr
  listed := h.listed hr hs
  configured := h.configured hr hs
  providerIds := h.providerIds hr
  providerKinds := h.providerKinds hr hs
  identifiers := h.identifiers hcmp hr
  bindings := h.bindings hr hs
  models := h.models hr hs
  vectorDbs := h.vectorDbs hcmp hr hs
  benchmarks := h.benchmarks hcmp hr hs
  port := h.port_ok hr

end

/-- Of the manifests of documents without null values that resolve to one without problems, the
settled ones have no problems themselves; the others are given a false alarm, which may fail for an
integer of the document that is too long to be shown. -/
theorem unresolved_accepted_iff_settled {d : Value} {env : Environment} {m r : Manifest}
    (hd : d.nullFree = true) (hm : ofValue d = .ok m) (hr : m.resolve env = .ok r)
    (hvalid : r.validate = .ok []) : (m.validate = .ok [] ↔ m.Settled) ∧
      ((∃ ps, m.validate = .ok ps) ∨ m.validate = .error .tooLong ∧ d.isShort = false) := by
  have hres := resolvesTo_of_resolve hd hm hr
  obtain ⟨_, -, hread⟩ := bind_eq_ok_iff.1 hr
  obtain ⟨hcmp, hcons⟩ := (validate_eq_nil_iff hread).1 hvalid
  have hcomparable := hres.comparable hcmp
  refine ⟨?_, ?_⟩
  · rw [validate_eq_nil_iff hm]
    constructor
    · rintro ⟨-, hconsistent⟩
      exact hconsistent.settled
    · intro hsettled
      exact ⟨hcomparable, hres.consistent hcmp hcons hsettled⟩
  · cases hverdict : m.validate with
    | ok ps => exact .inl ⟨ps, rfl⟩
    | error f =>
        refine .inr ?_
        rcases Finding.texts_eq_error hverdict with ⟨v, hv, -⟩ | ⟨⟨x, hx, hlong⟩, rfl⟩
        · cases findings_unstuck_iff.2 hcomparable _ hv
        · refine ⟨rfl, Bool.eq_false_iff.2 fun hshort => ?_⟩
          exact hlong (tellable_of_isShort hshort hm x hx)

theorem unresolved_accepted_of_exempt :
    let provider := Value.record [("provider_id", .text "tgi"),
      ("provider_type", .text "remote::tgi")]
    let model := Value.record [("model_id", .text "$\x7benv.MODEL\x7d"),
      ("provider_id", .text "$\x7benv.PROVIDER\x7d")]
    let d := Value.record [("image_name", .text "dell"), ("apis", .ofList [.text "inference"]),
      ("providers", .record [("inference", .ofList [provider])]), ("models", .ofList [model]),
      ("server", .record [("port", .text "$\x7benv.PORT:=8321\x7d")])]
    d.nullFree = true ∧ ∃ m r, ofValue d = .ok m ∧
      m.resolve [("MODEL", "llama"), ("PROVIDER", "tgi")] = .ok r ∧ r.validate = .ok [] ∧
      m.validate = .ok [] ∧ m.Settled := by
  intro provider model d
  have hnull : d.nullFree = true := by decide
  have hrun : (do
      let r ← (← ofValue d).resolve [("MODEL", "llama"), ("PROVIDER", "tgi")]
      r.validate) = .ok [] := eq_ok_of_toOption (by decide +kernel)
  have hnone : (do (← ofValue d).validate) = .ok [] := eq_ok_of_toOption (by decide +kernel)
  obtain ⟨m, hm, hrun⟩ := bind_eq_ok_iff.1 hrun
  obtain ⟨r, hr, hvalid⟩ := bind_eq_ok_iff.1 hrun
  have hnone : m.validate = .ok [] := by
    rw [hm] at hnone
    exact hnone
  exact ⟨hnull, m, r, hm, hr, hvalid, hnone, (unresolved_accepted_iff_settled hnull hm hr hvalid).1.1 hnone⟩

/-- The type of a model is judged while it is a placeholder. -/
theorem false_alarm_of_model_type :
    ¬ ∀ (d : Value) (env : Environment) (m r : Manifest), d.nullFree = true →
      ofValue d = .ok m → m.resolve env = .ok r → r.validate = .ok [] → m.validate = .ok [] := by
  intro hevery
  let provider := Value.record [("provider_id", .text "tgi"),
    ("provider_type", .text "remote::tgi")]
  let model := Value.record [("model_id", .text "llama"),
    ("model_type", .text "$\x7benv.TYPE\x7d")]
  let d := Value.record [("image_name", .text "dell"), ("apis", .ofList [.text "inference"]),
    ("providers", .record [("inference", .ofList [provider])]), ("models", .ofList [model])]
  have hrun : (do
      let r ← (← ofValue d).resolve [("TYPE", "llm")]
      r.validate) = .ok [] := eq_ok_of_toOption (by decide +kernel)
  have halarm : (do (← ofValue d).validate).toOption ≠ some [] := by decide +kernel
  obtain ⟨m, hm, hrun⟩ := bind_eq_ok_iff.1 hrun
  obtain ⟨r, hr, hvalid⟩ := bind_eq_ok_iff.1 hrun
  have hnone := hevery d _ m r (by decide) hm hr hvalid
  rw [hm] at halarm
  exact halarm (congrArg Except.toOption hnone)

end Provision.Manifest
