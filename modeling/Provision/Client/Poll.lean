namespace Provision

inductive Polling (τ : Type) where
  | succeeded (waited : τ) (attempts : Nat)
  /-- The last of the checks failed, and the next one would have come too late. -/
  | gaveUp (attempts : Nat)
  /-- Neither came about within the attempts that there were to be. -/
  | unfinished
  deriving DecidableEq, Repr

variable {m : Type → Type} [Monad m] {τ : Type} [Add τ] [Sub τ] [LT τ] [DecidableLT τ]

/-- Polls from a start time on, with `fuel` attempts left after the `made` ones. The clock is read
after each check; a check that would come later than `timeout` is not made. -/
def poll (check : m Bool) (now : m τ) (pause : τ → m Unit) (timeout interval start : τ) :
    (fuel made : Nat) → m (Polling τ)
  | 0, _ => return .unfinished
  | fuel + 1, made => do
    if ← check then
      return .succeeded ((← now) - start) (made + 1)
    else if timeout < (← now) - start + interval then
      return .gaveUp (made + 1)
    else
      pause interval
      poll check now pause timeout interval start fuel (made + 1)

end Provision
