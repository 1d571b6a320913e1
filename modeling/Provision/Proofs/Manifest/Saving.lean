import Provision.Proofs.Action
import Provision.Proofs.Manifest.Fields
import Provision.Proofs.Value.Shown
import Provision.Template.Generate

namespace Provision.Manifest

open Provision.Action Steps

variable {m : Manifest} {u v w : Session} {path : String}

def stored (m : Manifest) : String := m.toYaml.toOption.getD ""

theorem stored_of_toYaml {text : String} (h : m.toYaml = .ok text) : m.stored = text := by
  rw [stored, h]
  rfl

def savedName (m : Manifest) : Except Failure String := m.toYaml >>= fun _ => m.imageName.plain

/-- The file is written once, as far as can be seen afterwards. -/
theorem run_save (m : Manifest) (path : String) (w : Session) : run (m.save path) w = run (do
    writeText path m.stored
    let name ← Action.ofExcept m.savedName
    info "distro.manifest" ("Manifest '" ++ name ++ "' written to " ++ path)) w := by
  rw [save, savedName, stored]
  cases m.toYaml with
  | error e => rfl
  | ok text =>
      change run (writeText path "" >>= fun _ => writeText path text >>= _) w = _
      rcases run_writeText path w with ⟨e, hrefused⟩ | ⟨place, -, -, -, hwritten⟩
      · rw [run_bind, hrefused, run_bind, hrefused]
      · rw [run_bind, hwritten]
        dsimp only
        rw [run_bind, run_writeText_again (hwritten ""), run_bind]
        rfl

/-- A manifest is saved where the path leads, or nothing happens. What follows can only fail where the
manifest cannot be shown. -/
theorem run_save_cases (m : Manifest) (path : String) (w : Session) :
    (∃ e, run (m.save path) w = (.error e, w)) ∨
      ∃ place v e, w.tree.locate path = .ok place ∧ Tree.namesDirectory path = false ∧
        w.tree.node? place ≠ some .directory ∧
        ({ w with tree := w.tree.put place (.file (.text m.stored)) } : Session).Logged v ∧
        run (m.save path) w = (e, v) ∧ (e = .ok () → m.toYaml = .ok m.stored) := by
  rw [run_save]
  rcases run_writeText path w with ⟨e, hrefused⟩ | ⟨place, hlocate, hfile, hnode, hwritten⟩
  · exact .inl ⟨e, by rw [run_bind, hrefused]⟩
  refine .inr ⟨place, ?_⟩
  rw [run_bind, hwritten]
  dsimp only
  rw [run_bind, run_ofExcept]
  cases hname : m.savedName with
  | error e => exact ⟨_, .error e, hlocate, hfile, hnode, .refl _, rfl, nofun⟩
  | ok name =>
      obtain ⟨v, hrecord, hlogged⟩ := run_record "distro.manifest" Level.info.number
        ("Manifest '" ++ name ++ "' written to " ++ path)
        { w with tree := w.tree.put place (.file (.text m.stored)) }
      obtain ⟨text, htext, -⟩ := bind_eq_ok_iff.1 hname
      exact ⟨v, .ok (), hlocate, hfile, hnode, hlogged, hrecord, fun _ => by rw [stored_of_toYaml htext, htext]⟩

end Provision.Manifest
