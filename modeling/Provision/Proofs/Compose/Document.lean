import Provision.Compose.Document
import Provision.Proofs.Value.Entries
import Provision.Proofs.Value.Shown

namespace Provision

def Value.at? : Value → List String → Option Value
  | v, [] => some v
  | .map _ es, k :: ks => (Entries.get? es (.text k)).bind (·.at? ks)
  | _, _ :: _ => none

theorem Value.at?_record (fields : List (String × Value)) (k : String) (ks : List String) :
    (record fields).at? (k :: ks) = (fields.lookup k).bind (·.at? ks) := by
  rw [record, at?, Entries.get?_map_text]

theorem Binary64.gtInt_zero (negative : Bool) : (finite negative 0).gtInt 0 = false := by
  rw [gtInt, Int.zero_mul]
  cases negative <;> rfl

theorem Value.truthy_of_pos {v : Value} (h : (Value.int 0).lt? v = some true) : v.truthy = true := by
  cases v with
  | bool b => cases b <;> first | rfl | cases h
  | int n =>
      have hn : 0 < n := of_decide_eq_true (Option.some.inj h)
      simpa [truthy] using Int.ne_of_gt hn
  | real x =>
      have hx : x.gtInt 0 = true := Option.some.inj h
      cases x with
      | finite negative units =>
          cases units with
          | zero =>
              rw [Binary64.gtInt_zero] at hx
              cases hx
          | succ => rfl
      | _ => rfl
  | _ => cases h

namespace Compose

open Steps

variable {s s' : Settings} {d : Value}

def NamesVolume (source : String) : Prop := ∀ c ∈ ['/', '.', '~', '$'], source.toList.head? ≠ some c

theorem usesVolume_of_text {source : String} (h : s.modelCache = .text source) :
    ∃ b, usesVolume s = .ok b ∧ (b = true ↔ NamesVolume source) := by
  have hstart (c : Char) : source.startsWith (String.singleton c) = true ↔ source.toList.head? = some c := by
    rw [String.startsWith_string_iff, String.toList_singleton]
    cases source.toList <;> simp [eq_comm]
  rw [usesVolume, h]
  refine ⟨_, rfl, ?_⟩
  simp [NamesVolume, ← hstart]

theorem exists_usesVolume_iff : (∃ b, usesVolume s = .ok b) ↔ ∃ source, s.modelCache = .text source := by
  constructor
  · rintro ⟨b, hb⟩
    rw [usesVolume] at hb
    split at hb
    next source hsource => exact ⟨source, hsource⟩
    next => cases hb
    next => cases hb
  · rintro ⟨source, hsource⟩
    obtain ⟨b, hb, -⟩ := usesVolume_of_text hsource
    exact ⟨b, hb⟩

theorem exists_waits_iff : (∃ b, waits s = .ok b) ↔
    (s.startupDelay.truthy = true → ((Value.int 0).lt? s.startupDelay).isSome = true) := by
  rw [waits]
  cases s.startupDelay.truthy with
  | false => exact ⟨fun _ => nofun, fun _ => ⟨false, rfl⟩⟩
  | true => cases (Value.int 0).lt? s.startupDelay <;> simp

theorem waits_eq_ok {b : Bool} (h : waits s = .ok b) :
    b = true ↔ (Value.int 0).lt? s.startupDelay = some true := by
  rw [waits] at h
  cases htruthy : s.startupDelay.truthy with
  | false =>
      rw [htruthy] at h
      cases h
      refine ⟨nofun, fun hpos => ?_⟩
      rw [Value.truthy_of_pos hpos] at htruthy
      cases htruthy
  | true =>
      rw [htruthy] at h
      cases hlt : (Value.int 0).lt? s.startupDelay with
      | none =>
          rw [hlt] at h
          cases h
      | some c =>
          rw [hlt] at h
          cases h
          simp

def delay (s : Settings) : Except Failure String := do
  if ← waits s then do pure ("sleep " ++ (← s.startupDelay.plain) ++ "; ") else pure ""

theorem delay_eq_ok {text : String} (h : delay s = .ok text) :
    ((Value.int 0).lt? s.startupDelay = some true →
      ∃ n, s.startupDelay.plain = .ok n ∧ text = "sleep " ++ n ++ "; ") ∧
    ((Value.int 0).lt? s.startupDelay ≠ some true → text = "") := by
  obtain ⟨wait, hwait, htext⟩ := bind_eq_ok_iff.1 h
  rw [ne_eq, ← waits_eq_ok hwait]
  cases wait with
  | false => exact ⟨nofun, fun _ => (Except.ok.inj htext).symm⟩
  | true =>
      obtain ⟨n, hn, htext⟩ := bind_eq_ok_iff.1 htext
      exact ⟨fun _ => ⟨n, hn, (Except.ok.inj htext).symm⟩, fun hne => absurd rfl hne⟩

theorem exists_delay_iff : (∃ text, delay s = .ok text) ↔
    (s.startupDelay.truthy = true → ((Value.int 0).lt? s.startupDelay).isSome = true) ∧
    ((Value.int 0).lt? s.startupDelay = some true → s.startupDelay.isShort = true) := by
  rw [← exists_waits_iff, delay]
  constructor
  · rintro ⟨text, htext⟩
    obtain ⟨wait, hwait, -⟩ := bind_eq_ok_iff.1 htext
    refine ⟨⟨wait, hwait⟩, fun hpos => ?_⟩
    obtain ⟨n, hn, -⟩ := (delay_eq_ok htext).1 hpos
    exact (Value.plain_eq_ok_iff.1 hn).1
  · rintro ⟨⟨wait, hwait⟩, hshort⟩
    rw [← waits_eq_ok hwait] at hshort
    rw [hwait, ok_bind]
    cases wait with
    | false => exact ⟨"", rfl⟩
    | true =>
        rw [if_pos rfl, Value.plain_of_isShort (hshort rfl)]
        exact ⟨_, rfl⟩

def entryOf (s : Settings) (port delay : String) : String :=
  "bash -c \"" ++ delay ++ ("python -m llama_stack.distribution.server.server --yaml_config " ++
    containerRunYaml ++ if s.stackPort.same (.int 8321) then "" else " --port " ++ port) ++ "\""

theorem serverCommand_of_port {port : String} (hport : s.stackPort.plain = .ok port) : serverCommand s =
    .ok ("python -m llama_stack.distribution.server.server --yaml_config " ++ containerRunYaml ++
      if s.stackPort.same (.int 8321) then "" else " --port " ++ port) := by
  rw [serverCommand, hport, defaultStackPort]
  cases s.stackPort.same (.int 8321) <;> rfl

theorem entrypoint_of_port {port : String} (hport : s.stackPort.plain = .ok port) :
    entrypoint s = do return entryOf s port (← delay s) := by
  rw [entrypoint, serverCommand_of_port hport, ok_bind, delay]
  cases waits s with
  | error f => rfl
  | ok wait =>
      cases wait with
      | false => rfl
      | true => cases s.startupDelay.plain <;> rfl

def stackOf (s : Settings) (home yaml port delay : String) : Value :=
  .record
    [("depends_on", .record [(tgiService, .record [("condition", .text (condition s))])]),
      ("image", s.stackImage), ("network_mode", .text "host"),
      ("volumes", texts [home ++ ":/root/.llama", yaml ++ ":" ++ containerRunYaml]),
      ("ports", texts [port ++ ":" ++ port]), ("entrypoint", .text (entryOf s port delay)),
      ("restart_policy", restart s.restart)]

theorem stack_eq_ok_iff : stack s = .ok d ↔ ∃ home yaml port text,
    s.llamaDir.plain = .ok home ∧ s.runYaml.plain = .ok yaml ∧ s.stackPort.plain = .ok port ∧
      delay s = .ok text ∧ stackOf s home yaml port text = d := by
  simp only [stack, samePort, bind_eq_ok_iff, pure_eq_ok_iff]
  constructor
  · rintro ⟨home, hhome, yaml, hyaml, _, ⟨port, hport, rfl⟩, _, hentry, rfl⟩
    rw [entrypoint_of_port hport] at hentry
    obtain ⟨text, htext, hentry⟩ := bind_eq_ok_iff.1 hentry
    obtain rfl := pure_eq_ok_iff.1 hentry
    exact ⟨home, yaml, port, text, hhome, hyaml, hport, htext, rfl⟩
  · rintro ⟨home, yaml, port, text, hhome, hyaml, hport, htext, rfl⟩
    refine ⟨home, hhome, yaml, hyaml, _, ⟨port, hport, rfl⟩, entryOf s port text, ?_, rfl⟩
    rw [entrypoint_of_port hport, htext]
    rfl

def healthOf (s : Settings) (port : String) : Value :=
  .record
    [("test", texts ["CMD", "curl", "-f", "http://localhost:" ++ port ++ "/health"]),
      ("interval", s.healthcheckInterval), ("timeout", .text "5s"), ("retries", s.healthcheckRetries)]

def tgiOf (s : Settings) (cache port : String) (environment : List String) : Value :=
  .record
    ([("image", s.tgiImage), ("network_mode", .text "host"), ("volumes", texts [cache ++ ":/data"]),
      ("ports", texts [port ++ ":" ++ port]), ("devices", texts ["nvidia.com/gpu=all"]),
      ("environment", texts environment), ("command", .ofList []), ("deploy", gpus s),
      ("runtime", .text "nvidia")]
      ++ if s.healthcheck.truthy then [("healthcheck", healthOf s port)] else [])

theorem tgi_eq : tgi s = do
    let cache ← s.modelCache.plain
    let port ← s.tgiPort.plain
    let environment ← tgiEnvironment s
    return tgiOf s cache port environment := by
  rw [tgi, samePort, healthcheck]
  cases s.modelCache.plain with
  | error f => rfl
  | ok cache =>
      cases s.tgiPort.plain with
      | error f => rfl
      | ok port =>
          cases tgiEnvironment s with
          | error f => rfl
          | ok environment => simp only [tgiOf]; cases s.healthcheck.truthy <;> rfl

theorem tgi_eq_ok_iff : tgi s = .ok d ↔ ∃ cache port environment, s.modelCache.plain = .ok cache ∧
    s.tgiPort.plain = .ok port ∧ tgiEnvironment s = .ok environment ∧
      tgiOf s cache port environment = d := by
  rw [tgi_eq]
  simp only [bind_eq_ok_iff, pure_eq_ok_iff]
  simp

def documentOf (s : Settings) (tgi stack : Value) (volume : Bool) : Value :=
  .record ([("services", .record [(tgiService, tgi), (stackService, stack)])] ++
    if volume then [("volumes", .ofEntries [(s.modelCache, .ofEntries [])])] else [])

theorem document_eq : document s = do
    let t ← tgi s
    let u ← stack s
    return documentOf s t u (← usesVolume s) := by
  rw [document]
  cases tgi s with
  | error f => rfl
  | ok t =>
      cases stack s with
      | error f => rfl
      | ok u =>
          cases usesVolume s with
          | error f => rfl
          | ok volume => cases volume <;> rfl

theorem document_eq_ok_iff : document s = .ok d ↔ ∃ t u volume,
    tgi s = .ok t ∧ stack s = .ok u ∧ usesVolume s = .ok volume ∧ documentOf s t u volume = d := by
  rw [document_eq]
  simp only [bind_eq_ok_iff, pure_eq_ok_iff]
  simp

def Settings.told (s : Settings) : List Value :=
  [s.tgiPort, s.cudaDevices, s.numShard, s.maxBatchPrefillTokens, s.maxInputTokens, s.maxTotalTokens,
    s.llamaDir, s.runYaml, s.stackPort]

theorem exists_tgiEnvironment_iff : (∃ environment, tgiEnvironment s = .ok environment) ↔
    ∀ v ∈ [s.cudaDevices, s.numShard, s.maxBatchPrefillTokens, s.maxInputTokens, s.maxTotalTokens],
      v.isShort = true := by
  have hplain (name : String) (v : Value) :
      (∃ text, (do return name ++ "=" ++ (← v.plain) : Except Failure String) = .ok text) ↔
        v.isShort = true := by
    simp only [bind_eq_ok_iff, Value.plain_eq_ok_iff, pure_eq_ok_iff]
    constructor
    · rintro ⟨_, _, ⟨h, -⟩, -⟩
      exact h
    · intro h
      exact ⟨_, _, ⟨h, rfl⟩, rfl⟩
  rw [tgiEnvironment, exists_mapM_eq_ok_iff]
  simp only [hplain, List.forall_mem_cons, List.not_mem_nil, false_implies, implies_true]

/-- There is a document wherever the model cache is a text, the delay, if there is one, a number, and no
integer too long that stands in a text. -/
theorem exists_document_iff : (∃ d, document s = .ok d) ↔ (∃ source, s.modelCache = .text source) ∧
    (s.startupDelay.truthy = true → ((Value.int 0).lt? s.startupDelay).isSome = true) ∧
    (∀ v ∈ s.told, v.isShort = true) ∧
    ((Value.int 0).lt? s.startupDelay = some true → s.startupDelay.isShort = true) := by
  simp only [document_eq_ok_iff]
  constructor
  · rintro ⟨d, t, u, volume, ht, hu, hvolume, -⟩
    obtain ⟨cache, tgiPort, environment, hcache, htgiPort, henv, -⟩ := tgi_eq_ok_iff.1 ht
    obtain ⟨home, yaml, port, text, hhome, hyaml, hport, htext, -⟩ := stack_eq_ok_iff.1 hu
    obtain ⟨hwaits, hdelay⟩ := exists_delay_iff.1 ⟨text, htext⟩
    have hvalues := exists_tgiEnvironment_iff.1 ⟨environment, henv⟩
    rw [Value.plain_eq_ok_iff] at htgiPort hhome hyaml hport
    refine ⟨exists_usesVolume_iff.1 ⟨volume, hvolume⟩, hwaits, ?_, hdelay⟩
    simp only [List.forall_mem_cons] at hvalues
    simp [Settings.told, htgiPort.1, hhome.1, hyaml.1, hport.1, hvalues]
  · rintro ⟨⟨source, hsource⟩, hwaits, htold, hdelay⟩
    simp only [Settings.told, List.forall_mem_cons] at htold
    obtain ⟨htgiPort, hdevices, hshard, hprefill, hinput, htotal, hhome, hyaml, hport, -⟩ := htold
    obtain ⟨volume, hvolume⟩ := exists_usesVolume_iff.2 ⟨source, hsource⟩
    obtain ⟨text, htext⟩ := exists_delay_iff.2 ⟨hwaits, hdelay⟩
    obtain ⟨environment, henv⟩ := exists_tgiEnvironment_iff.2
      (by simp [hdevices, hshard, hprefill, hinput, htotal] : ∀ v ∈ [s.cudaDevices, s.numShard,
        s.maxBatchPrefillTokens, s.maxInputTokens, s.maxTotalTokens], v.isShort = true)
    exact ⟨_, _, _, volume,
      tgi_eq_ok_iff.2 ⟨source, _, environment, by rw [hsource]; rfl, Value.plain_of_isShort htgiPort, henv, rfl⟩,
      stack_eq_ok_iff.2 ⟨_, _, _, text, Value.plain_of_isShort hhome, Value.plain_of_isShort hyaml,
        Value.plain_of_isShort hport, htext, rfl⟩, hvolume, rfl⟩

def tgiAt : List String := ["services", tgiService]

def stackAt : List String := ["services", stackService]

variable {t u : Value} {volume : Bool}

theorem at?_tgi (ks : List String) : (documentOf s t u volume).at? (tgiAt ++ ks) = t.at? ks := by
  change (documentOf s t u volume).at? ("services" :: tgiService :: ks) = _
  simp [documentOf, Value.at?_record]

theorem at?_stack (ks : List String) : (documentOf s t u volume).at? (stackAt ++ ks) = u.at? ks := by
  change (documentOf s t u volume).at? ("services" :: stackService :: ks) = _
  simp [documentOf, Value.at?_record, tgiService, stackService, List.lookup_cons]

theorem at?_volumes : (documentOf s t u volume).at? ["volumes"] =
    if volume then some (.ofEntries [(s.modelCache, .ofEntries [])]) else none := by
  rw [documentOf, Value.at?_record]
  cases volume <;> simp [List.lookup_cons, Value.at?]

variable {cache port port' home yaml text : String} {environment : List String}

theorem at?_healthcheck : (tgiOf s cache port environment).at? ["healthcheck"] =
    if s.healthcheck.truthy then some (healthOf s port) else none := by
  rw [tgiOf, Value.at?_record]
  cases s.healthcheck.truthy <;> simp [List.lookup_cons, Value.at?]

structure Coherent (s : Settings) (d : Value) : Prop where
  health : ∃ condition, d.at? (stackAt ++ ["depends_on", tgiService, "condition"]) = some (.text condition) ∧
    (condition = "service_healthy" ↔ (d.at? (tgiAt ++ ["healthcheck"])).isSome = true) ∧
    (condition = "service_started" ↔ d.at? (tgiAt ++ ["healthcheck"]) = none)
  probe : ∃ port, s.tgiPort.plain = .ok port ∧
    d.at? (tgiAt ++ ["ports"]) = some (texts [port ++ ":" ++ port]) ∧
    ((d.at? (tgiAt ++ ["healthcheck"])).isSome = true → d.at? (tgiAt ++ ["healthcheck", "test"]) =
      some (texts ["CMD", "curl", "-f", "http://localhost:" ++ port ++ "/health"]))
  mount : ∃ source, s.modelCache = .text source ∧
    d.at? (tgiAt ++ ["volumes"]) = some (texts [source ++ ":/data"]) ∧
    (NamesVolume source → d.at? ["volumes"] = some (.ofEntries [(.text source, .ofEntries [])])) ∧
    (¬ NamesVolume source → d.at? ["volumes"] = none)
  command : ∃ path port home yaml delay : String,
    s.runYaml.plain = .ok yaml ∧ d.at? (stackAt ++ ["volumes"]) = some (texts [home, yaml ++ ":" ++ path]) ∧
    s.stackPort.plain = .ok port ∧ d.at? (stackAt ++ ["ports"]) = some (texts [port ++ ":" ++ port]) ∧
    ((Value.int 0).lt? s.startupDelay = some true →
      ∃ n, s.startupDelay.plain = .ok n ∧ delay = "sleep " ++ n ++ "; ") ∧
    ((Value.int 0).lt? s.startupDelay ≠ some true → delay = "") ∧
    d.at? (stackAt ++ ["entrypoint"]) = some (.text ("bash -c \"" ++ delay
      ++ "python -m llama_stack.distribution.server.server --yaml_config " ++ path
      ++ (if s.stackPort.same (.int 8321) then "" else " --port " ++ port) ++ "\""))

theorem health_documentOf : ∃ c,
    (documentOf s (tgiOf s cache port environment) (stackOf s home yaml port' text) volume).at?
      (stackAt ++ ["depends_on", tgiService, "condition"]) = some (.text c) ∧
    (c = "service_healthy" ↔
      ((tgiOf s cache port environment).at? ["healthcheck"]).isSome = true) ∧
    (c = "service_started" ↔ (tgiOf s cache port environment).at? ["healthcheck"] = none) := by
  refine ⟨condition s, ?_, ?_⟩
  · rw [at?_stack]
    simp [stackOf, Value.at?_record, Value.at?]
  · rw [at?_healthcheck, condition]
    cases s.healthcheck.truthy <;> simp

theorem probe_tgiOf : (tgiOf s cache port environment).at? ["ports"] = some (texts [port ++ ":" ++ port]) ∧
    (((tgiOf s cache port environment).at? ["healthcheck"]).isSome = true →
      (tgiOf s cache port environment).at? ["healthcheck", "test"] =
        some (texts ["CMD", "curl", "-f", "http://localhost:" ++ port ++ "/health"])) := by
  rw [at?_healthcheck]
  cases htruthy : s.healthcheck.truthy with
  | false => simp [tgiOf, Value.at?_record, Value.at?, List.lookup_cons]
  | true => simp [tgiOf, htruthy, healthOf, Value.at?_record, Value.at?, List.lookup_cons]

theorem coherent_of_document (h : document s = .ok d) : Coherent s d := by
  obtain ⟨t, u, volume, ht, hu, hvolume, rfl⟩ := document_eq_ok_iff.1 h
  obtain ⟨cache, tgiPort, environment, hcache, htgiPort, -, rfl⟩ := tgi_eq_ok_iff.1 ht
  obtain ⟨home, yaml, port, text, -, hyaml, hport, htext, rfl⟩ := stack_eq_ok_iff.1 hu
  obtain ⟨source, hsource⟩ := exists_usesVolume_iff.1 ⟨volume, hvolume⟩
  obtain ⟨b, hb, hnames⟩ := usesVolume_of_text hsource
  obtain rfl := Except.ok.inj (hb.symm.trans hvolume)
  obtain ⟨hsleep, hnone⟩ := delay_eq_ok htext
  refine ⟨?_, ⟨tgiPort, htgiPort, ?_⟩, ⟨source, hsource, ?_, ?_, ?_⟩,
    ⟨containerRunYaml, port, home ++ ":/root/.llama", yaml, text, hyaml, ?_, hport, ?_, hsleep, hnone, ?_⟩⟩
  · rw [at?_tgi]
    exact health_documentOf
  · rw [at?_tgi, at?_tgi, at?_tgi]
    exact probe_tgiOf
  · rw [hsource, Value.plain_text] at hcache
    obtain rfl := Except.ok.inj hcache
    rw [at?_tgi]
    simp [tgiOf, Value.at?_record, Value.at?, List.lookup_cons]
  · intro hvolume
    rw [at?_volumes, if_pos (hnames.2 hvolume), hsource]
  · intro hpath
    rw [at?_volumes, if_neg (mt hnames.1 hpath)]
  · rw [at?_stack]
    simp [stackOf, Value.at?_record, Value.at?, List.lookup_cons]
  · rw [at?_stack]
    simp [stackOf, Value.at?_record, Value.at?, List.lookup_cons]
  · rw [at?_stack]
    simp [stackOf, entryOf, Value.at?_record, Value.at?, List.lookup_cons, String.append_assoc]

/-- Settings that differ in fields of these names at most. -/
structure AgreeBut (names : List String) (s s' : Settings) : Prop where
  fields : ∀ f ∈ Settings.table, f.1 ∉ names → f.2.1 s = f.2.1 s'
  restart : "restart_policy" ∉ names → s.restart = s'.restart

def tgiFields : List String :=
  ["tgi_image", "tgi_port", "model_cache", "cuda_visible_devices", "num_shard", "max_batch_prefill_tokens",
    "max_input_tokens", "max_total_tokens", "gpu_count", "healthcheck_interval", "healthcheck_retries"]

def stackFields : List String :=
  ["stack_image", "stack_port", "llama_dir", "run_yaml", "startup_delay", "restart_policy"]

theorem stack_congr (h : AgreeBut tgiFields s s') : stack s = stack s' := by
  have hfields := h.fields
  simp [Settings.table, tgiFields] at hfields
  obtain ⟨hcheck, himage, hport, hdir, hyaml, hdelay⟩ := hfields
  have hrestart := h.restart (by decide)
  rw [stack, stack, condition, condition, entrypoint, entrypoint, serverCommand, serverCommand, waits, waits,
    hcheck, himage, hport, hdir, hyaml, hdelay, hrestart]

theorem tgi_congr (h : AgreeBut stackFields s s') : tgi s = tgi s' := by
  have hfields := h.fields
  simp [Settings.table, stackFields] at hfields
  obtain ⟨himage, hport, hcache, hdevices, hshard, hprefill, hinput, htotal, hgpu, hcheck, hinterval, hretries⟩ :=
    hfields
  rw [tgi, tgi, tgiEnvironment, tgiEnvironment, gpus, gpus, healthcheck, healthcheck, himage, hport, hcache,
    hdevices, hshard, hprefill, hinput, htotal, hgpu, hcheck, hinterval, hretries]

/-- A document has the services that its settings describe. -/
theorem services_of_document (h : document s = .ok d) :
    ∃ t u, tgi s = .ok t ∧ stack s = .ok u ∧ d.at? tgiAt = some t ∧ d.at? stackAt = some u := by
  obtain ⟨t, u, volume, ht, hu, -, rfl⟩ := document_eq_ok_iff.1 h
  exact ⟨t, u, ht, hu, at?_tgi [], at?_stack []⟩

/-- The document of a deployment is coherent, and the settings of either service leave the other service as
it is. -/
theorem document_coherent (s : Settings) :
    ((∃ d, document s = .ok d) ↔ (∃ source, s.modelCache = .text source) ∧
      (s.startupDelay.truthy = true → ((Value.int 0).lt? s.startupDelay).isSome = true) ∧
      (∀ v ∈ s.told, v.isShort = true) ∧
      ((Value.int 0).lt? s.startupDelay = some true → s.startupDelay.isShort = true)) ∧
    ∀ d, document s = .ok d → Coherent s d ∧ ∀ s' d', document s' = .ok d' →
      (AgreeBut tgiFields s s' → d.at? stackAt = d'.at? stackAt) ∧
      (AgreeBut stackFields s s' → d.at? tgiAt = d'.at? tgiAt) := by
  refine ⟨exists_document_iff, fun d hd => ⟨coherent_of_document hd, fun s' d' hd' => ?_⟩⟩
  obtain ⟨t, u, ht, hu, htgi, hstack⟩ := services_of_document hd
  obtain ⟨t', u', ht', hu', htgi', hstack'⟩ := services_of_document hd'
  constructor
  · intro hagree
    rw [stack_congr hagree, hu'] at hu
    rw [hstack, hstack', Except.ok.inj hu]
  · intro hagree
    rw [tgi_congr hagree, ht'] at ht
    rw [htgi, htgi', Except.ok.inj ht]

/-- A port of more digits than are written leaves no document. -/
theorem no_document_with_long_port : document { stackPort := .int longInteger } = .error .tooLong := by
  have hplain : (Value.int longInteger).plain = .error .tooLong :=
    Value.plain_eq_error_iff.2 ⟨by rw [Value.isShort, isLong_longInteger]; rfl, rfl⟩
  have hstack : stack { stackPort := .int longInteger } = .error .tooLong := by
    rw [stack, samePort, hplain]
    rfl
  obtain ⟨t, ht⟩ : ∃ t, tgi { stackPort := .int longInteger } = .ok t :=
    exists_eq_ok_of_isSome (by decide +kernel)
  rw [document_eq, ht, ok_bind, hstack]
  rfl

end Compose
end Provision
