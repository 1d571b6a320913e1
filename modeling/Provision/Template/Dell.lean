import Provision.Template.Basic

namespace Provision.Template.Dell

def name : String := "dell"

def required (var : String) : Value := .text (Placeholder.text ⟨var, .required⟩)

def optional (var operand : String) : Value :=
  .text (Placeholder.text ⟨var, .fallback operand⟩)

def provider (id kind : String) (config : List (String × Value)) : Provider :=
  ⟨id, kind, config.map fun f => (.text f.1, f.2)⟩

def stored (id kind file : String) : Provider := provider id kind [("kvstore", database name file)]

def resource (s : Section) (fields : List (String × Value)) : Resource :=
  { slots := s.schema.map fun f => (f.1, (fields.lookup f.1).getD f.2) }

def inference : Provider := provider "tgi0" "remote::tgi" [("url", required "DEH_URL")]

def guard : Provider := provider "tgi1" "remote::tgi" [("url", required "DEH_SAFETY_URL")]

def embedding : Provider :=
  provider "sentence-transformers" "inline::sentence-transformers" []

def search (id var : String) : Provider :=
  provider id ("remote::" ++ id) [("api_key", optional var ""), ("max_results", .int 3)]

def providers : List (String × List Provider) :=
  [("inference", [inference, embedding]),
    ("vector_io", [provider "chromadb" "remote::chromadb" [("url", required "CHROMA_URL")]]),
    ("safety",
      [provider "llama-guard" "inline::llama-guard" [("excluded_categories", .ofList [])]]),
    ("agents",
      [provider "meta-reference" "inline::meta-reference"
        [("persistence_store", database name "agents_store.db"),
          ("responses_store", database name "responses_store.db")]]),
    ("telemetry",
      [provider "meta-reference" "inline::meta-reference"
        [("service_name", optional "OTEL_SERVICE_NAME" "\u200b"),
          ("sinks", optional "TELEMETRY_SINKS" "console,sqlite"),
          ("sqlite_db_path", .text (storeDirectory name ++ "/trace_store.db")),
          ("otel_exporter_otlp_endpoint", optional "OTEL_EXPORTER_OTLP_ENDPOINT" "")]]),
    ("eval", [stored "meta-reference" "inline::meta-reference" "meta_reference_eval.db"]),
    ("datasetio",
      [stored "huggingface" "remote::huggingface" "huggingface_datasetio.db",
        stored "localfs" "inline::localfs" "localfs_datasetio.db"]),
    ("scoring",
      [provider "basic" "inline::basic" [], provider "llm-as-judge" "inline::llm-as-judge" [],
        provider "braintrust" "inline::braintrust"
          [("openai_api_key", optional "OPENAI_API_KEY" "")]]),
    ("tool_runtime",
      [search "brave-search" "BRAVE_SEARCH_API_KEY", search "tavily-search" "TAVILY_SEARCH_API_KEY",
        provider "rag-runtime" "inline::rag-runtime" []])]

def inferenceModel : Resource :=
  resource .models [("model_id", required "INFERENCE_MODEL"), ("provider_id", .text "tgi0")]

def safetyModel : Resource :=
  resource .models [("model_id", required "SAFETY_MODEL"), ("provider_id", .text "tgi1")]

def embeddingModel : Resource :=
  resource .models
    [("model_id", .text "all-MiniLM-L6-v2"), ("provider_id", .text "sentence-transformers"),
      ("model_type", .text "embedding"),
      ("metadata", .record [("embedding_dimension", .int 384)])]

def withSafety : Variant :=
  { overrides := [("inference", [inference, guard, embedding])]
    models := some [inferenceModel, safetyModel, embeddingModel]
    shields :=
      [resource .shields
        [("shield_id", required "SAFETY_MODEL"), ("provider_id", .text "llama-guard")]] }

def toolGroup (id provider : String) : Resource :=
  resource .toolGroups [("toolgroup_id", .text id), ("provider_id", .text provider)]

def document (var sample description : String) : String × Value × Value :=
  (var, .text sample, .text description)

def template : Template :=
  { name := name
    description :=
      .text "Dell's distribution of Llama Stack. TGI inference via Dell's custom container"
    image := .text "llamastack/distribution-tgi"
    providers := providers
    models := [inferenceModel, embeddingModel]
    toolGroups :=
      [toolGroup "builtin::websearch" "brave-search", toolGroup "builtin::rag" "rag-runtime"]
    variants := [(defaultRunFile, {}), ("run-with-safety.yaml", withSafety)]
    documented :=
      [document "LLAMA_STACK_PORT" "8321" "Port for the Llama Stack distribution server",
        document "HF_TOKEN" "" "Hugging Face API token",
        document "DEH_URL" "http://0.0.0.0:8181" "URL for the Dell inference server",
        document "DEH_SAFETY_URL" "http://0.0.0.0:8282"
          "URL for the Dell safety inference server",
        document "CHROMA_URL" "http://localhost:6601" "URL for the Chroma server",
        document "INFERENCE_MODEL" "meta-llama/Llama-3.2-3B-Instruct"
          "Inference model loaded into the TGI server",
        document "SAFETY_MODEL" "meta-llama/Llama-Guard-3-1B"
          "Name of the safety (Llama-Guard) model to use"] }

end Provision.Template.Dell

namespace Provision.Registry

def builtin : Registry := [("dell", .ok Template.Dell.template)]

end Provision.Registry
