import Provision.Compose.Document
import Provision.Profile.Basic
import Provision.Program.Basic
import Provision.Template.Dell
import Provision.Template.Generate

namespace Provision.Program.RunFiles

open CommandLine

def source : String := "generate_run_yaml"

def commands (p : Profile) : Commands where
  name := "generate_run_yaml"
  grammar :=
    { switches :=
        [{ names := ["--distribution", "-d"], key := "distribution", fallback := p.distribution },
          { names := ["--output-dir", "-o"], key := "output_dir", fallback := p.outputDirectory },
          .flag ["--docs"] "docs", .flag ["--compose"] "compose"] }

def write (r : Registry) (a : Args) (directory : String) : Action (List String) := do
  let distribution := a.text "distribution"
  let runFiles ← r.generateAll distribution directory
  let page ←
    if a.flag "docs" then do
      let t ← Action.ofExcept (r.find distribution)
      let path := Path.join directory (t.name ++ ".md")
      t.writePage path
      pure [path]
    else pure []
  let compose ←
    if a.flag "compose" then do
      let env ← Action.environment
      let s ← Action.ofExcept (Compose.Settings.ofEnvironment env)
      let path := Path.join directory "compose.yaml"
      Compose.save s path
      pure [path]
    else pure []
  return runFiles.map (·.1) ++ page ++ compose

def tell (f : Failure) : Option String := tellValue f <|> tellUnwritten f

def run : Program := fun args => do
  let env ← Action.environment
  let p ← Action.ofExcept (Profile.ofEnvironment env)
  (commands p).run args fun a => do
    Action.setUpLog p.logLevel p.logFile
    Action.contain source tell do
      let written ← write Registry.builtin a
        (Path.join (a.text "output_dir") (a.text "distribution"))
      for path in written do Action.printLine ("Generated " ++ path)
      return .exit 0

end Provision.Program.RunFiles
