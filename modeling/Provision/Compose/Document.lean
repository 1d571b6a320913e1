import Provision.Compose.Settings
import Provision.Session
import Provision.Yaml.Writer

namespace Provision.Compose

def tgiService : String := "text-generation-inference"

def stackService : String := "llamastack"

def containerRunYaml : String := "/root/my-run.yaml"

def defaultStackPort : Value := .int 8321

def texts (ss : List String) : Value := .ofList (ss.map .text)

def samePort (port : Value) : Except Failure String := do
  let p ← port.plain
  return p ++ ":" ++ p

/-- Whether the model cache is a volume: it does not start as a path does. -/
def usesVolume (s : Settings) : Except Failure Bool :=
  match s.modelCache with
  | .text t => .ok (!(["/", ".", "~", "$"].any fun start => t.startsWith start))
  | .bytes _ =>
    .error (.trouble .type "startswith first arg must be bytes or a tuple of bytes, not tuple")
  | v =>
    .error (.trouble .attribute
      (Value.showText v.typeName ++ " object has no attribute 'startswith'"))

def waits (s : Settings) : Except Failure Bool :=
  if !s.startupDelay.truthy then .ok false
  else
    match (Value.int 0).lt? s.startupDelay with
    | some b => .ok b
    | none =>
      .error (.trouble .type
        ("'>' not supported between instances of " ++ Value.showText s.startupDelay.typeName
          ++ " and 'int'"))

/-- The command of the stack server, without the wait. A port is named only if it is not the one
that run files have. -/
def serverCommand (s : Settings) : Except Failure String := do
  let port ← if s.stackPort.same defaultStackPort then pure "" else do
    pure (" --port " ++ (← s.stackPort.plain))
  return "python -m llama_stack.distribution.server.server --yaml_config " ++ containerRunYaml ++ port

def entrypoint (s : Settings) : Except Failure String := do
  let command ← serverCommand s
  let wait ← if ← waits s then do pure ("sleep " ++ (← s.startupDelay.plain) ++ "; ") else pure ""
  return "bash -c \"" ++ wait ++ command ++ "\""

def tgiEnvironment (s : Settings) : Except Failure (List String) :=
  [("CUDA_VISIBLE_DEVICES", s.cudaDevices), ("NUM_SHARD", s.numShard),
    ("MAX_BATCH_PREFILL_TOKENS", s.maxBatchPrefillTokens), ("MAX_INPUT_TOKENS", s.maxInputTokens),
    ("MAX_TOTAL_TOKENS", s.maxTotalTokens)].mapM fun v => do return v.1 ++ "=" ++ (← v.2.plain)

def gpus (s : Settings) : Value :=
  .record [("resources", .record [("reservations", .record [("devices", .ofList
    [.record [("driver", .text "nvidia"), ("count", s.gpuCount),
      ("capabilities", texts ["gpu"])]])])])]

def healthcheck (s : Settings) : Except Failure Value := do
  let url := "http://localhost:" ++ (← s.tgiPort.plain) ++ "/health"
  return .record
    [("test", texts ["CMD", "curl", "-f", url]),
      ("interval", s.healthcheckInterval), ("timeout", .text "5s"),
      ("retries", s.healthcheckRetries)]

def tgi (s : Settings) : Except Failure Value := do
  let cache ← s.modelCache.plain
  let ports ← samePort s.tgiPort
  let environment ← tgiEnvironment s
  let health ←
    if s.healthcheck.truthy then do pure [("healthcheck", ← healthcheck s)] else pure []
  return .record
    ([("image", s.tgiImage), ("network_mode", .text "host"),
      ("volumes", texts [cache ++ ":/data"]), ("ports", texts [ports]),
      ("devices", texts ["nvidia.com/gpu=all"]), ("environment", texts environment),
      ("command", .ofList []), ("deploy", gpus s), ("runtime", .text "nvidia")]
      ++ health)

def condition (s : Settings) : String :=
  if s.healthcheck.truthy then "service_healthy" else "service_started"

def restart (r : Restart) : Value :=
  .record [("condition", r.condition), ("delay", r.delay), ("max_attempts", r.maxAttempts),
    ("window", r.window)]

def stack (s : Settings) : Except Failure Value := do
  let directory ← s.llamaDir.plain
  let runYaml ← s.runYaml.plain
  let ports ← samePort s.stackPort
  let entrypoint ← entrypoint s
  return .record
    [("depends_on", .record [(tgiService, .record [("condition", .text (condition s))])]),
      ("image", s.stackImage), ("network_mode", .text "host"),
      ("volumes", texts [directory ++ ":/root/.llama", runYaml ++ ":" ++ containerRunYaml]),
      ("ports", texts [ports]), ("entrypoint", .text entrypoint),
      ("restart_policy", restart s.restart)]

def document (s : Settings) : Except Failure Value := do
  let tgi ← tgi s
  let services := Value.record [(tgiService, tgi), (stackService, ← stack s)]
  let volumes ←
    if ← usesVolume s then
      pure [("volumes", Value.ofEntries [(s.modelCache, .ofEntries [])])]
    else pure []
  return .record ([("services", services)] ++ volumes)

def layout : Yaml.Layout := { unicode := false }

def toYaml (document : Value) : Except Failure String := Yaml.write layout document

def save (s : Settings) (path : String) : Action Unit := do
  Action.ensureDirectory (Path.ofText path).parent
  Action.writeText path ""
  Action.writeText path (← Action.ofExcept (document s >>= toYaml))
  Action.info "deploy.compose" ("Compose file written to " ++ path)

end Provision.Compose
