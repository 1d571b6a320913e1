import Provision.Environment
import Provision.Failure
import Provision.Value.Equality

namespace Provision

structure Profile where
  stackUrl : Value := .text "http://localhost:8321"
  distribution : Value := .text "dell"
  inferenceModel : Value := .null
  outputDirectory : Value := .text "distributions"
  clientTimeout : Value := .real (.ofInt 300)
  healthTimeout : Value := .real (.ofInt 120)
  healthInterval : Value := .real (.ofInt 2)
  logLevel : Value := .text "INFO"
  logFile : Value := .null
  deriving Repr

namespace Profile

def table : List (String × (Profile → Value) × (Profile → Value → Profile)) :=
  [("stack_url", (·.stackUrl), fun p v => { p with stackUrl := v }),
    ("distribution", (·.distribution), fun p v => { p with distribution := v }),
    ("inference_model", (·.inferenceModel), fun p v => { p with inferenceModel := v }),
    ("output_directory", (·.outputDirectory), fun p v => { p with outputDirectory := v }),
    ("client_timeout", (·.clientTimeout), fun p v => { p with clientTimeout := v }),
    ("health_timeout", (·.healthTimeout), fun p v => { p with healthTimeout := v }),
    ("health_interval", (·.healthInterval), fun p v => { p with healthInterval := v }),
    ("log_level", (·.logLevel), fun p v => { p with logLevel := v }),
    ("log_file", (·.logFile), fun p v => { p with logFile := v })]

def set? (p : Profile) (name : String) (v : Value) : Option Profile :=
  (table.lookup name).map fun f => f.2 p v

def fields (p : Profile) : List (String × Value) := table.map fun f => (f.1, f.2.1 p)

/-- Whether two profiles have equal settings. -/
def same (p q : Profile) : Bool := table.all fun f => (f.2.1 p).same (f.2.1 q)

def readEntry (p : Profile) (e : Value × Value) : Except Failure Profile :=
  match e.1 with
  | .text name =>
    match p.set? name e.2 with
    | some p => .ok p
    | none => .error (.trouble .type ("unexpected setting " ++ Value.showText name))
  | _ => .error (.trouble .type "settings must have names")

def ofValue (v : Value) : Except Failure Profile :=
  if !v.truthy then .ok {}
  else
    match v with
    | .map _ es => es.foldlM readEntry {}
    | _ => .error (.trouble .type "settings must be a mapping")

def textVariables : List (String × String) :=
  [("LLAMA_STACK_URL", "stack_url"), ("LLAMA_STACK_DISTRIBUTION", "distribution"),
    ("INFERENCE_MODEL", "inference_model"), ("LLAMA_STACK_OUTPUT_DIR", "output_directory"),
    ("LOG_LEVEL", "log_level"), ("LOG_FILE", "log_file")]

def readText (env : Environment) (p : Profile) (v : String × String) : Profile :=
  match env.get? v.1 with
  | some t => (p.set? v.2 (.text t)).getD p
  | none => p

def ofEnvironment (env : Environment) : Except Failure Profile :=
  let p := textVariables.foldl (readText env) {}
  match env.nonempty? "LLAMA_STACK_CLIENT_TIMEOUT" with
  | none => .ok p
  | some t =>
    match Numeral.real? t.toList with
    | some x => .ok { p with clientTimeout := .real x }
    | none =>
      .error (.trouble .value ("could not convert string to float: " ++ Value.showText t))

def named : List (String × Profile) :=
  [("development", { logLevel := .text "DEBUG" }),
    ("ci", { healthTimeout := .real (.ofInt 300) }),
    ("production",
      { stackUrl := .text "http://llama-stack:8321", healthTimeout := .real (.ofInt 600),
        healthInterval := .real (.ofInt 5) })]

end Profile

/-- Profiles with names, and the one in use. Changes to the one in use are kept under its name, if
it has one. -/
structure Profiles where
  named : List (String × Profile) := Profile.named
  current : Profile := {}
  name : Option String := none
  deriving Repr

namespace Profiles

def use (ps : Profiles) (p : Profile) : Profiles := { ps with current := p, name := none }

def select (ps : Profiles) (name : String) : Except Failure Profiles :=
  match ps.named.lookup name with
  | some p => .ok { ps with current := p, name := some name }
  | none => .error (.unknownProfile name (ps.named.map (·.1)))

def set (ps : Profiles) (setting : String) (v : Value) : Profiles :=
  let p := (ps.current.set? setting v).getD ps.current
  { ps with
    named := ps.named.map fun e => if some e.1 = ps.name then (e.1, p) else e
    current := p }

end Profiles
end Provision
