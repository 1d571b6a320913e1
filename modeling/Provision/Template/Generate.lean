import Provision.Manifest.Check
import Provision.Session
import Provision.Template.Page

namespace Provision

namespace Manifest

def save (m : Manifest) (path : String) : Action Unit := do
  Action.writeText path ""
  Action.writeText path (← Action.ofExcept m.toYaml)
  let name ← Action.ofExcept m.imageName.plain
  Action.info "distro.manifest" ("Manifest '" ++ name ++ "' written to " ++ path)

def load (path : String) (resolved : Bool) (env : Environment) : Action Manifest := do
  let m ← Action.ofExcept (ofYaml 0 (← Action.readText path))
  let name ← Action.ofExcept m.imageName.plain
  Action.debug "distro.manifest" ("Loaded manifest '" ++ name ++ "' from " ++ path)
  if resolved then Action.ofExcept (m.resolve env) else return m

end Manifest

structure Order where
  distribution : String := "dell"
  output : String := "run.yaml"
  backup : String := "run.yaml.orig"
  file : String := defaultRunFile
  validate : Bool := true
  deriving Repr

namespace Registry

def source : String := "distro.yaml_generator"

/-- Keeps a copy of a file under another name, if the file is there and the copy is not. -/
def backUp (path backup : String) : Action Unit := do
  if backup != "" && (← Action.pathExists path) && !(← Action.pathExists backup) then
    Action.info source ("Creating backup: " ++ backup)
    Action.copy path backup

def generate (r : Registry) (o : Order) : Action Manifest := do
  let m ← Action.ofExcept (r.runConfig o.distribution o.file)
  if o.validate then Action.ofExcept m.check
  backUp o.output o.backup
  Action.ensureDirectory (Path.ofText o.output).parent
  m.save o.output
  Action.info source
    ("Successfully generated " ++ o.output ++ " for distribution '" ++ o.distribution ++ "' ("
      ++ o.file ++ ")")
  return m

def generateAll (r : Registry) (distribution directory : String) :
    Action (List (String × Manifest)) := do
  let t ← Action.ofExcept (r.find distribution)
  t.runFiles.mapM fun file => do
    let path := Path.join directory file
    let m ← r.generate { distribution, output := path, backup := "", file }
    return (path, m)

end Registry

namespace Template

def writePage (t : Template) (path : String) : Action Unit := do
  let content ← Action.ofExcept t.page
  Action.ensureDirectory (Path.ofText path).parent
  Action.writeText path content
  Action.info "distro.docs" ("Documentation for '" ++ t.name ++ "' written to " ++ path)

end Template
end Provision
