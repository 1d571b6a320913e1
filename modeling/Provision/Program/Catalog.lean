import Provision.Program.Deployment
import Provision.Program.Jobs
import Provision.Program.Manifests
import Provision.Program.RunFiles
import Provision.Program.Stack

namespace Provision.Program

def catalog : List (String × Program) :=
  [("distro", Manifests.run), ("deploy", Deployment.run), ("testmatrix", Jobs.run),
    ("stack", Stack.run), ("generate_run_yaml", RunFiles.run)]

end Provision.Program
