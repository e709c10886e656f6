import Mathlib.Algebra.Ring.Nat
import Server3.Transition

/-! The potential method for runs: a step is paid for by the fall of a potential or by
what its action grants. -/

namespace Transition

variable {σ α : Type*} {step : σ → α → Option σ} {start : σ}

/-- Where each counted step is paid for, the counted steps of a run are no more than the
potential at the start and the grants pay for. -/
theorem count_bounded (potential : σ → Nat) (counted granted : α → Bool) (amount : Nat)
    (paid : ∀ state action next, Reachable step start state → step state action = some next →
      (if counted action then 1 else 0) + potential next ≤
        potential state + if granted action then amount else 0)
    {actions : List α} {final : σ} (reached : run step start actions = some final) :
    actions.countP counted + potential final ≤
      potential start + actions.countP granted * amount := by
  refine run_induction (fun actions state => actions.countP counted + potential state ≤
    potential start + actions.countP granted * amount) (by simp) ?_ reached
  intro earlier state action next prefixRun before taken
  have last := paid state action next ⟨earlier, prefixRun⟩ taken
  rw [List.countP_append, List.countP_append, List.countP_singleton, List.countP_singleton,
    Nat.add_mul, ite_mul, Nat.one_mul, Nat.zero_mul]
  omega

/-- Where an allowed step that lowers the rank is possible until the end, allowed steps
lead to the end, and no more of them than the rank. -/
theorem drains (rank : σ → Nat) (holds ended : σ → Prop) (allowed : α → Prop)
    (progress : ∀ state, holds state → ¬ ended state → ∃ action next, allowed action ∧
      step state action = some next ∧ holds next ∧ rank next < rank state)
    (state : σ) (held : holds state) :
    ∃ actions final, (∀ action ∈ actions, allowed action) ∧ run step state actions = some final ∧
      holds final ∧ ended final ∧ actions.length ≤ rank state := by
  induction left : rank state using Nat.strong_induction_on generalizing state with
  | _ left ih =>
      subst left
      by_cases atEnd : ended state
      · exact ⟨[], state, by simp, rfl, held, atEnd, Nat.zero_le _⟩
      · rcases progress state held atEnd with ⟨action, next, allows, taken, kept, lower⟩
        rcases ih _ lower next kept rfl with ⟨actions, final, later, reached, stays, atEnd, short⟩
        refine ⟨action :: actions, final, ?_, ?_, stays, atEnd, ?_⟩
        · intro other member
          rcases List.mem_cons.mp member with rfl | member
          · exact allows
          · exact later other member
        · rw [run, taken]
          exact reached
        · simp only [List.length_cons]
          omega

end Transition
