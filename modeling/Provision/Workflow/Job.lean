import Provision.Text.Shell
import Provision.Workflow.Matrix

namespace Provision.Workflow

structure Job where
  entry : Entry
  stackConfig : String
  env : List (String × String)
  excludedTests : List String
  extraParams : List String
  textModel : String
  embeddingModel : String := "sentence-transformers/all-MiniLM-L6-v2"
  deriving Repr

def neverRun : List String :=
  ["builtin_tool", "safety_with_image", "code_interpreter", "test_rag"]

namespace Job

def stackConfigOf (e : Entry) : String :=
  if e.clientType.same (.text "library") then "ci-tests" else "server:ci-tests"

def baseEnv : List (String × String) := [("LLAMA_STACK_CLIENT_TIMEOUT", "300")]

def ollamaModel : String := "ollama/llama3.2:3b-instruct-fp16"

def vllmModel : String := "vllm/meta-llama/Llama-3.2-1B-Instruct"

def ollama (e : Entry) : Job :=
  { entry := e
    stackConfig := stackConfigOf e
    env := baseEnv ++ [("OLLAMA_URL", "http://0.0.0.0:11434"), ("TEXT_MODEL", ollamaModel),
      ("SAFETY_MODEL", "ollama/llama-guard3:1b")]
    excludedTests := neverRun
    extraParams := ["--safety-shield=llama-guard"]
    textModel := ollamaModel }

def vllm (e : Entry) : Job :=
  { entry := e
    stackConfig := stackConfigOf e
    env := baseEnv ++ [("VLLM_URL", "http://localhost:8000/v1"), ("TEXT_MODEL", vllmModel)]
    excludedTests := neverRun ++ ["test_inference_store_tool_calls"]
    extraParams := []
    textModel := vllmModel }

def ofEntry (e : Entry) : Job := if e.provider.same (.text "ollama") then ollama e else vllm e

/-- The expression that leaves the excluded tests out. -/
def keyword (j : Job) : String := "not( " ++ " or ".intercalate j.excludedTests ++ " )"

def logFile (j : Job) : Except Failure String := do
  return "pytest-" ++ (← j.entry.testType.plain) ++ ".log"

def args (j : Job) (root : String) : Except Failure (List String) := do
  return ["pytest", "-s", "-v", root ++ "/" ++ (← j.entry.testType.plain), "--stack-config=" ++ j.stackConfig,
    "-k", j.keyword, "--text-model=" ++ j.textModel, "--embedding-model=" ++ j.embeddingModel,
    "--color=yes"] ++ j.extraParams ++ ["--capture=tee-sys"]

def artifact (j : Job) (runId attempt : Value) : Except Failure String := do
  let e := j.entry
  let parts ← [runId, attempt, e.provider, e.clientType, e.testType, e.languageVersion,
    e.clientVersion].mapM Value.plain
  return "-".intercalate ("logs" :: parts)

def exportLine (v : String × String) : String := "export " ++ v.1 ++ "=" ++ Text.Shell.quote v.2

def commandLine (j : Job) : Except Failure String := do
  return Text.Shell.join (← j.args defaultRoot) ++ " | tee " ++ (← j.logFile)

end Job
end Provision.Workflow
