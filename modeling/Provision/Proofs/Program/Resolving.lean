import Provision.Proofs.Manifest.Saving
import Provision.Proofs.Placeholder.Precheck
import Provision.Proofs.Program.Line

namespace Provision

open Provision.Action Steps

variable {x y path : String} {env : Environment} {f : Failure} {u v w : Session}

namespace Manifest

variable {m m' : Manifest} {resolved : Bool}

variable {name : String}

end Manifest

namespace Action

variable {source : String} {tell : Failure → Option String} {body : Action Ending}

end Action

namespace Program.Manifests

open CommandLine

variable {a : Args} {m m' : Manifest}

def started (w : Session) : Session :=
  { w with log := { threshold := Level.info.number, console := true, file := none } }

theorem wish_info : Log.wish (.text "INFO") = .ok (.level Level.info.number) :=
  eq_ok_of_toOption (by decide +kernel)

theorem run_of_accepted (h : commands.read ["resolve", x, "--output", y] = .ok a) (w : Session) :
    Action.run (run ["resolve", x, "--output", y]) w =
      Action.run (Action.contain source tell (resolve a)) (started w) := by
  obtain ⟨hcommand, -, -, hlevel⟩ := read_resolve h
  rw [run, Commands.run, h]
  dsimp only
  rw [run_bind, hlevel, run_setUpLog wish_info]
  dsimp only
  rw [hcommand]
  rfl

end Program.Manifests
end Provision
