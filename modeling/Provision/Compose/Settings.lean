import Provision.Environment
import Provision.Failure
import Provision.Value.Equality
import Provision.Value.Order

namespace Provision.Compose

structure Restart where
  condition : Value := .text "on-failure"
  delay : Value := .text "3s"
  maxAttempts : Value := .int 5
  window : Value := .text "60s"
  deriving Repr

structure Settings where
  tgiImage : Value := .text ("registry.dell.huggingface.co/enterprise-dell-inference-"
    ++ "meta-llama-meta-llama-3.1-8b-instruct")
  tgiPort : Value := .int 5009
  modelCache : Value := .text "$HOME/.cache/huggingface"
  cudaDevices : Value := .text "0,1,2,3,4"
  numShard : Value := .int 4
  maxBatchPrefillTokens : Value := .int 32768
  maxInputTokens : Value := .int 8000
  maxTotalTokens : Value := .int 8192
  gpuCount : Value := .text "all"
  healthcheck : Value := .bool true
  healthcheckInterval : Value := .text "10s"
  healthcheckRetries : Value := .int 30
  stackImage : Value := .text "llamastack/distribution-tgi"
  stackPort : Value := .int 8321
  llamaDir : Value := .text "~/.llama"
  runYaml : Value := .text "./run.yaml"
  startupDelay : Value := .int 60
  restart : Restart := {}
  deriving Repr

namespace Settings

def table : List (String × (Settings → Value) × (Settings → Value → Settings)) :=
  [("tgi_image", (·.tgiImage), fun s v => { s with tgiImage := v }),
    ("tgi_port", (·.tgiPort), fun s v => { s with tgiPort := v }),
    ("model_cache", (·.modelCache), fun s v => { s with modelCache := v }),
    ("cuda_visible_devices", (·.cudaDevices), fun s v => { s with cudaDevices := v }),
    ("num_shard", (·.numShard), fun s v => { s with numShard := v }),
    ("max_batch_prefill_tokens", (·.maxBatchPrefillTokens),
      fun s v => { s with maxBatchPrefillTokens := v }),
    ("max_input_tokens", (·.maxInputTokens), fun s v => { s with maxInputTokens := v }),
    ("max_total_tokens", (·.maxTotalTokens), fun s v => { s with maxTotalTokens := v }),
    ("gpu_count", (·.gpuCount), fun s v => { s with gpuCount := v }),
    ("tgi_healthcheck", (·.healthcheck), fun s v => { s with healthcheck := v }),
    ("healthcheck_interval", (·.healthcheckInterval),
      fun s v => { s with healthcheckInterval := v }),
    ("healthcheck_retries", (·.healthcheckRetries),
      fun s v => { s with healthcheckRetries := v }),
    ("stack_image", (·.stackImage), fun s v => { s with stackImage := v }),
    ("stack_port", (·.stackPort), fun s v => { s with stackPort := v }),
    ("llama_dir", (·.llamaDir), fun s v => { s with llamaDir := v }),
    ("run_yaml", (·.runYaml), fun s v => { s with runYaml := v }),
    ("startup_delay", (·.startupDelay), fun s v => { s with startupDelay := v })]

def set? (s : Settings) (name : String) (v : Value) : Option Settings :=
  (table.lookup name).map fun f => f.2 s v

def fields (s : Settings) : List (String × Value) := table.map fun f => (f.1, f.2.1 s)

def textVariables : List (String × String) :=
  [("TGI_IMAGE", "tgi_image"), ("HF_CACHE_DIR", "model_cache"),
    ("CUDA_VISIBLE_DEVICES", "cuda_visible_devices"), ("LLAMA_STACK_IMAGE", "stack_image"),
    ("LLAMA_STACK_RUN_YAML", "run_yaml")]

def integerVariables : List (String × String) :=
  [("TGI_PORT", "tgi_port"), ("NUM_SHARD", "num_shard"), ("MAX_INPUT_TOKENS", "max_input_tokens"),
    ("MAX_TOTAL_TOKENS", "max_total_tokens"), ("LLAMA_STACK_PORT", "stack_port"),
    ("STACK_STARTUP_DELAY", "startup_delay")]

def readText (env : Environment) (s : Settings) (v : String × String) : Settings :=
  match env.get? v.1 with
  | some t => (s.set? v.2 (.text t)).getD s
  | none => s

def readInteger (env : Environment) (s : Settings) (v : String × String) :
    Except Failure Settings :=
  match env.nonempty? v.1 with
  | none => .ok s
  | some t =>
    match Numeral.integer? t.toList with
    | .ok n => .ok ((s.set? v.2 (.int n)).getD s)
    | .error _ => .error (.notInteger v.1 t)

def ofEnvironment (env : Environment) : Except Failure Settings :=
  integerVariables.foldlM (readInteger env) (textVariables.foldl (readText env) {})

end Settings
end Provision.Compose
