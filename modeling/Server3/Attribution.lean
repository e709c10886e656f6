import Mathlib.Algebra.BigOperators.Group.Finset.Piecewise
import Mathlib.Tactic.Ring
import Server3.Transition

/-! Whose steps change a reading of the state: the share that each owner has in it. -/

namespace Transition

variable {σ α ω : Type*} [DecidableEq ω]

/-- What the steps of one owner add to the reading. -/
def share (step : σ → α → Option σ) (owner : σ → α → ω) (read : σ → Int) (start : σ)
    (actions : List α) (who : ω) : Int :=
  (observed step (fun state action =>
    if owner state action = who then (step state action).map fun next => read next - read state
    else none) start actions).sum

variable {step : σ → α → Option σ} {owner : σ → α → ω} {read : σ → Int} {start state next : σ}
  {actions : List α} {action : α}

theorem share_snoc (reached : run step start actions = some state)
    (taken : step state action = some next) (who : ω) :
    share step owner read start (actions ++ [action]) who =
      share step owner read start actions who +
        if owner state action = who then read next - read state else 0 := by
  rw [share, observed_snoc reached, List.sum_append, ← share]
  by_cases own : owner state action = who <;> simp [own, taken]

theorem shares_sum {owners : Finset ω} (reached : run step start actions = some state)
    (known : Along step (fun state action => owner state action ∈ owners) start actions) :
    ∑ who ∈ owners, share step owner read start actions who = read state - read start := by
  induction actions using List.reverseRecOn generalizing state with
  | nil =>
      cases reached
      simp [share, observed]
  | append_singleton actions action ih =>
      rcases run_snoc.mp reached with ⟨middle, earlier, taken⟩
      rcases (along_snoc earlier).mp known with ⟨along, last⟩
      calc
        ∑ who ∈ owners, share step owner read start (actions ++ [action]) who =
            ∑ who ∈ owners, (share step owner read start actions who +
              if owner middle action = who then read state - read middle else 0) :=
          Finset.sum_congr rfl fun who _ => share_snoc earlier taken who
        _ = (read middle - read start) + (read state - read middle) := by
          rw [Finset.sum_add_distrib, ih earlier along, Finset.sum_ite_eq, if_pos last]
        _ = read state - read start := by ring

end Transition
