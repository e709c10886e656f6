import Mathlib.Order.OrderIsoNat
import Server3.Transition

/-! Runs that go on for ever, and what a fair schedule brings about in them. -/

namespace Transition

variable {σ α ι : Type*}

/-- A run without an end. At each moment one step is taken, or nothing happens. -/
structure Course (step : σ → α → Option σ) (start : σ) where
  state : Nat → σ
  move : Nat → Option α
  begins : state 0 = start
  idles : ∀ time, move time = none → state (time + 1) = state time
  advances : ∀ time action, move time = some action →
    step (state time) action = some (state (time + 1))

namespace Course

variable {step : σ → α → Option σ} {start : σ}

/-- Whoever could take a step again and again takes one again and again. -/
def Fair (course : Course step start) (mover : α → Option ι) (ready : σ → ι → Prop) : Prop :=
  ∀ actor, (∀ time, ∃ later, time ≤ later ∧ ready (course.state later) actor) →
    ∀ time, ∃ later action, time ≤ later ∧ course.move later = some action ∧
      mover action = some actor

variable (course : Course step start)

theorem reachable (time : Nat) : Reachable step start (course.state time) := by
  induction time with
  | zero =>
      rw [course.begins]
      exact reachable_start
  | succ time ih =>
      cases moved : course.move time with
      | none =>
          rw [course.idles time moved]
          exact ih
      | some action => exact reachable_step ih (course.advances time action moved)

theorem onwards (holds : σ → Prop) {since : Nat} (begun : holds (course.state since))
    (kept : ∀ time action, since ≤ time → course.move time = some action →
      holds (course.state time) → holds (course.state (time + 1))) :
    ∀ time, since ≤ time → holds (course.state time) := by
  intro time after
  induction time, after using Nat.le_induction with
  | base => exact begun
  | succ time after ih =>
      cases moved : course.move time with
      | none =>
          rw [course.idles time moved]
          exact ih
      | some action => exact kept time action after moved ih

/-- Steps that are paid for from a potential that never rises are no longer taken at last. -/
theorem spent (potential : σ → Nat) (counted : α → Prop)
    (falls : ∀ state action next, Reachable step start state → step state action = some next →
      potential next ≤ potential state ∧ (counted action → potential next < potential state)) :
    ∃ time, ∀ later action, time ≤ later → course.move later = some action →
      ¬ counted action := by
  have antitone : Antitone fun time => potential (course.state time) := by
    apply antitone_nat_of_succ_le
    intro time
    cases moved : course.move time with
    | none => rw [course.idles time moved]
    | some action =>
        exact (falls _ action _ (course.reachable time) (course.advances time action moved)).1
  rcases WellFoundedLT.antitone_chain_condition antitone with ⟨time, constant⟩
  refine ⟨time, ?_⟩
  intro later action after moved counts
  have here := constant later after
  have there := constant (later + 1) (Nat.le_succ_of_le after)
  have lower := (falls _ action _ (course.reachable later) (course.advances later action moved)).2
    counts
  omega

/-- An actor with boundedly many steps cannot go on being ready in a fair run. -/
theorem rests {mover : α → Option ι} {ready : σ → ι → Prop} (fair : course.Fair mover ready)
    (actor : ι) (potential : σ → Nat)
    (falls : ∀ state action next, Reachable step start state → step state action = some next →
      potential next ≤ potential state ∧
        (mover action = some actor → potential next < potential state)) :
    ∃ time, ∀ later, time ≤ later → ¬ ready (course.state later) actor := by
  rcases course.spent potential (fun action => mover action = some actor) falls with ⟨time, silent⟩
  by_contra busy
  have again : ∀ time, ∃ later, time ≤ later ∧ ready (course.state later) actor := by
    intro moment
    by_contra never
    exact busy ⟨moment, fun later after ready => never ⟨later, after, ready⟩⟩
  rcases fair actor again time with ⟨later, action, after, moved, mine⟩
  exact silent later action after moved mine

/-- The run as the view shows it, where each step is silent to the view or a step there. -/
def viewed {τ β : Type*} {part : τ → β → Option τ} (view : σ → τ) (observe : σ → α → Option β)
    (silent : ∀ state action next, step state action = some next →
      observe state action = none → view next = view state)
    (shown : ∀ state action next move, step state action = some next →
      observe state action = some move → part (view state) move = some (view next)) :
    Course part (view start) where
  state time := view (course.state time)
  move time := (course.move time).bind (observe (course.state time))
  begins := congrArg view course.begins
  idles time idle := by
    cases moved : course.move time with
    | none => rw [course.idles time moved]
    | some action =>
        rw [moved, Option.bind_some] at idle
        exact silent _ action _ (course.advances time action moved) idle
  advances time move seen := by
    rcases Option.bind_eq_some_iff.mp seen with ⟨action, moved, observed⟩
    exact shown _ action _ move (course.advances time action moved) observed

end Course

def idling {step : σ → α → Option σ} {start : σ} (actions : List α) {final : σ}
    (reached : run step start actions = some final) : Course step start where
  state time := (run step start (actions.take time)).getD final
  move time := actions[time]?
  begins := rfl
  idles time atEnd := by
    have short : actions.length ≤ time := List.getElem?_eq_none_iff.mp atEnd
    rw [List.take_of_length_le short, List.take_of_length_le (Nat.le_succ_of_le short)]
  advances time action moved := by
    have split : actions.take (time + 1) = actions.take time ++ [action] := by
      rw [List.take_add_one, moved]
      rfl
    have whole := reached
    rw [← List.take_append_drop (time + 1) actions, run_append] at whole
    rcases Option.bind_eq_some_iff.mp whole with ⟨next, early, -⟩
    rw [split] at early
    rcases run_snoc.mp early with ⟨middle, earlier, taken⟩
    rw [split, early, earlier]
    exact taken

variable {step : σ → α → Option σ} {start : σ}

theorem idling_final {actions : List α} {final : σ} (reached : run step start actions = some final)
    {time : Nat} (after : actions.length ≤ time) :
    (idling actions reached).state time = final := by
  simp only [idling, List.take_of_length_le after, reached, Option.getD_some]

end Transition
