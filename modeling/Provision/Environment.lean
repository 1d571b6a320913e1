namespace Provision

abbrev Environment := List (String × String)

namespace Environment

def get? (env : Environment) (name : String) : Option String := env.lookup name

def nonempty? (env : Environment) (name : String) : Option String :=
  (get? env name).filter (· != "")

def getD (env : Environment) (name fallback : String) : String := (get? env name).getD fallback

end Environment
end Provision
