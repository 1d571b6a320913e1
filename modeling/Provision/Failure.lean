import Provision.Numeral
import Provision.Value.Display

namespace Provision

inductive ManifestFault where
  | unreadable
  | notMapping (found : Value)
  | apisNotList (found : Value)
  | apiNotName (shown : String)
  | providersNotMapping
  | providersNotList (api : String)
  | providerNotMapping (api : String) (found : Value)
  | providerLacks (api : String) (fields : List String)
  | providerNotText (api field shown : String)
  | storeNotMapping (found : Value)
  | sectionNotList (name : String)
  | resourceNotMapping (kind : String) (found : Value)
  | resourceLacks (kind field : String)
  | resourceNotScalar (kind field shown : String)
  | serverNotMapping (found : Value)
  deriving Repr

namespace ManifestFault

def message : ManifestFault → String
  | unreadable => "Invalid YAML"
  | notMapping v => "Manifest must be a mapping, got " ++ v.typeName
  | apisNotList v => "'apis' must be a list of API names, got " ++ v.typeName
  | apiNotName shown => "'apis' entries must be API names, got " ++ shown
  | providersNotMapping => "'providers' must map API names to provider lists"
  | providersNotList api => "Providers for '" ++ api ++ "' must be a list"
  | providerNotMapping api v =>
    "Provider entry under '" ++ api ++ "' must be a mapping, got " ++ v.typeName
  | providerLacks api fields =>
    "Provider entry under '" ++ api ++ "' is missing " ++ ", ".intercalate fields
  | providerNotText api field shown =>
    "Provider entry under '" ++ api ++ "' has a non-string " ++ field ++ ": " ++ shown
  | storeNotMapping v => "Store must be a mapping, got " ++ v.typeName
  | sectionNotList name => "'" ++ name ++ "' must be a list"
  | resourceNotMapping kind v => kind ++ " entry must be a mapping, got " ++ v.typeName
  | resourceLacks kind field => kind ++ " entry is missing " ++ field
  | resourceNotScalar kind field shown => kind ++ " " ++ field ++ " must be a scalar, got " ++ shown
  | serverNotMapping v => "'server' must be a mapping, got " ++ v.typeName

end ManifestFault

inductive FileFault where
  | absent | present | notDirectory | isDirectory
  deriving DecidableEq, Repr

namespace FileFault

def number : FileFault → Nat
  | absent => 2
  | present => 17
  | notDirectory => 20
  | isDirectory => 21

def words : FileFault → String
  | absent => "No such file or directory"
  | present => "File exists"
  | notDirectory => "Not a directory"
  | isDirectory => "Is a directory"

end FileFault

inductive Trouble where
  | type | value | key | index | attribute | runtime | system | exhausted
  | connection | timeout | status
  deriving DecidableEq, Repr

structure Cause where
  kind : Trouble
  text : String
  deriving DecidableEq, Repr

def Cause.message (c : Cause) : String :=
  if c.kind = .key then Value.showText c.text else c.text

structure CallFault where
  what : String
  url : String
  operation : String
  cause : Option Cause := none
  unavailable : Bool := false
  deriving DecidableEq, Repr

def CallFault.message (f : CallFault) : String := f.what ++ " (url=" ++ f.url ++ ")"

inductive Failure where
  | manifest (fault : ManifestFault)
  | inconsistent (problems : List String)
  | unset (name path : String)
  | unknownDistribution (name : String) (known : List String)
  | noRunFile (distribution file : String) (known : List String)
  | unknownProfile (name : String) (known : List String)
  | notInteger (name text : String)
  | call (fault : CallFault)
  | file (fault : FileFault) (path : String)
  | encoding (text : String)
  | yaml
  | json
  | trouble (kind : Trouble) (text : String)
  deriving Repr

namespace Failure

def tooManyDigits (n : Nat) : String :=
  s!"Exceeds the limit ({Numeral.digitLimit} digits) for integer string conversion: value has {n} "
    ++ "digits; use sys.set_int_max_str_digits() to increase the limit"

def tooLong : Failure :=
  .trouble .value (s!"Exceeds the limit ({Numeral.digitLimit} digits) for integer string conversion; "
    ++ "use sys.set_int_max_str_digits() to increase the limit")

def ofNumeral (text : String) : Numeral.Fault → Failure
  | .malformed => trouble .value ("invalid literal for int() with base 10: " ++ Value.showText text)
  | .tooLong n => trouble .value (tooManyDigits n)

def ofCalendar : CalendarFault → Failure
  | .year n => trouble .value s!"year {n} is out of range"
  | .month => trouble .value "month must be in 1..12"
  | .day => trouble .value "day is out of range for month"
  | .hour => trouble .value "hour must be in 0..23"
  | .minute => trouble .value "minute must be in 0..59"
  | .second => trouble .value "second must be in 0..59"
  | .offset => trouble .value "offset must be strictly between -24 and 24 hours"

def listProblems (problems : List String) : String :=
  s!"Manifest has {problems.length} problem(s):\n"
    ++ "\n".intercalate (problems.map ("  - " ++ ·))

def message : Failure → String
  | manifest f => f.message
  | inconsistent problems => listProblems problems
  | unset name path =>
    "Environment variable '" ++ name ++ "' is not set"
      ++ (if path = "" then "" else " (at " ++ path ++ ")")
  | unknownDistribution name known =>
    "Unknown distribution: " ++ name ++ ". Available: " ++ Value.showTexts known
  | noRunFile distribution wanted known =>
    "Distribution '" ++ distribution ++ "' has no run file " ++ wanted ++ ". Available: "
      ++ Value.showTexts known
  | unknownProfile name known =>
    "Unknown configuration: " ++ name ++ ". Available: " ++ Value.showTexts known
  | notInteger name text =>
    name ++ " must be an integer, got " ++ Value.showText text
  | call f => f.message
  | file f path => s!"[Errno {f.number}] " ++ f.words ++ ": " ++ Value.showText path
  | encoding text => text
  | yaml => "Invalid YAML"
  | json => "Invalid JSON"
  | trouble kind text => Cause.message ⟨kind, text⟩

end Failure
end Provision
