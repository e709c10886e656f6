import Mathlib.Data.List.Induction
import Mathlib.Tactic.Common

/-! Runs of a partial step function, the induction rule for what a run
preserves and what is observed along a run. -/

namespace Transition

variable {σ τ α β ε : Type*}

def run (step : σ → α → Option σ) : σ → List α → Option σ
  | state, [] => some state
  | state, action :: rest => (step state action).bind fun next => run step next rest

def Reachable (step : σ → α → Option σ) (start state : σ) : Prop :=
  ∃ actions, run step start actions = some state

/-- Every step of the run meets the condition in the state it is taken from. -/
def Along (step : σ → α → Option σ) (condition : σ → α → Prop) (start : σ)
    (actions : List α) : Prop :=
  ∀ before action after state, actions = before ++ action :: after →
    run step start before = some state → condition state action

def Throughout (step : σ → α → Option σ) (holds : σ → Prop) (start : σ) (actions : List α) : Prop :=
  ∀ before after state, actions = before ++ after → run step start before = some state → holds state

/-- What the observer sees of each step, in order. -/
def observed (step : σ → α → Option σ) (observe : σ → α → Option ε) : σ → List α → List ε
  | _, [] => []
  | state, action :: rest =>
      (observe state action).toList ++
        match step state action with
        | some next => observed step observe next rest
        | none => []

variable {step : σ → α → Option σ} {start : σ}

theorem run_append (first second : List α) :
    run step start (first ++ second) =
      (run step start first).bind fun middle => run step middle second := by
  induction first generalizing start with
  | nil => rfl
  | cons action rest ih =>
      simp only [List.cons_append, run]
      cases step start action with
      | none => rfl
      | some next => exact ih

theorem run_snoc {actions : List α} {action : α} {final : σ} :
    run step start (actions ++ [action]) = some final ↔
      ∃ middle, run step start actions = some middle ∧ step middle action = some final := by
  rw [run_append]
  cases run step start actions with
  | none => simp
  | some middle =>
      simp only [Option.bind_some, run, Option.some.injEq, exists_eq_left']
      cases step middle action <;> simp

theorem run_between {first second : List α} {middle final : σ}
    (one : run step start first = some middle) (two : run step start second = some final)
    (front : first <+: second) :
    ∃ rest, second = first ++ rest ∧ run step middle rest = some final := by
  obtain ⟨rest, rfl⟩ := front
  rw [run_append, one] at two
  exact ⟨rest, rfl, two⟩

/-- The invariant may speak of the actions taken so far. -/
theorem run_induction (holds : List α → σ → Prop) (initial : holds [] start)
    (preserved : ∀ actions state action next, run step start actions = some state →
      holds actions state → step state action = some next → holds (actions ++ [action]) next)
    {actions : List α} {final : σ} (reached : run step start actions = some final) :
    holds actions final := by
  induction actions using List.reverseRecOn generalizing final with
  | nil =>
      simp only [run, Option.some.injEq] at reached
      exact reached ▸ initial
  | append_singleton actions action ih =>
      obtain ⟨middle, prefixRun, last⟩ := run_snoc.mp reached
      exact preserved actions middle action final prefixRun (ih prefixRun) last

theorem reachable_induction (holds : σ → Prop) (initial : holds start)
    (preserved : ∀ state action next, holds state → step state action = some next → holds next)
    {final : σ} (reached : Reachable step start final) : holds final := by
  obtain ⟨actions, reached⟩ := reached
  exact run_induction (fun _ state => holds state) initial
    (fun _ state action next _ before taken => preserved state action next before taken) reached

theorem reachable_start : Reachable step start start := ⟨[], rfl⟩

theorem reachable_step {state next : σ} {action : α} (reached : Reachable step start state)
    (taken : step state action = some next) : Reachable step start next := by
  obtain ⟨actions, reached⟩ := reached
  exact ⟨actions ++ [action], run_snoc.mpr ⟨state, reached, taken⟩⟩

theorem along_nil {condition : σ → α → Prop} : Along step condition start [] := by
  intro before action after state split
  simp at split

theorem along_cons {condition : σ → α → Prop} {action : α} {rest : List α} :
    Along step condition start (action :: rest) ↔
      condition start action ∧ ∀ next ∈ step start action, Along step condition next rest := by
  constructor
  · intro along
    refine ⟨along [] action rest start rfl rfl, ?_⟩
    intro next taken before later after state split reached
    refine along (action :: before) later after state (by simp [split]) ?_
    rw [run, Option.mem_def.mp taken]
    exact reached
  · rintro ⟨first, along⟩ before later after state split reached
    cases before with
    | nil =>
        obtain ⟨rfl, rfl⟩ := List.cons.inj split
        cases reached
        exact first
    | cons head before =>
        obtain ⟨rfl, rfl⟩ := List.cons.inj split
        obtain ⟨next, taken, reached⟩ := Option.bind_eq_some_iff.mp reached
        exact along next taken before later after state rfl reached

instance decidableAlong (condition : σ → α → Prop) [∀ state action, Decidable (condition state action)] :
    (start : σ) → (actions : List α) → Decidable (Along step condition start actions)
  | _, [] => isTrue along_nil
  | start, action :: rest =>
      match taken : step start action with
      | none => decidable_of_iff (condition start action) (by simp [along_cons, taken])
      | some next =>
          have := decidableAlong condition next rest
          decidable_of_iff (condition start action ∧ Along step condition next rest)
            (by simp [along_cons, taken])

theorem along_snoc {condition : σ → α → Prop} {actions : List α} {action : α} {state : σ}
    (reached : run step start actions = some state) :
    Along step condition start (actions ++ [action]) ↔
      Along step condition start actions ∧ condition state action := by
  constructor
  · intro along
    refine ⟨?_, along actions action [] state rfl reached⟩
    intro before earlier after middle split taken
    exact along before earlier (after ++ [action]) middle (by simp [split]) taken
  · rintro ⟨along, last⟩ before earlier after middle split taken
    rcases List.eq_nil_or_concat after with rfl | ⟨body, final, rfl⟩
    · obtain ⟨same, final⟩ := List.append_inj' split rfl
      obtain rfl := List.singleton_inj.mp final
      subst before
      rw [reached, Option.some.injEq] at taken
      exact taken ▸ last
    · have shape : actions ++ [action] = (before ++ earlier :: body) ++ [final] := by
        simpa using split
      obtain ⟨same, _⟩ := List.append_inj' shape rfl
      exact along before earlier body middle same taken

theorem along_prefix {condition : σ → α → Prop} {first second : List α}
    (along : Along step condition start (first ++ second)) : Along step condition start first := by
  intro before action after state split reached
  exact along before action (after ++ second) state (by simp [split]) reached

theorem observed_snoc {observe : σ → α → Option ε} {actions : List α} {action : α} {state : σ}
    (reached : run step start actions = some state) :
    observed step observe start (actions ++ [action]) =
      observed step observe start actions ++ (observe state action).toList := by
  induction actions generalizing start with
  | nil =>
      simp only [run, Option.some.injEq] at reached
      subst state
      simp only [List.nil_append, observed]
      cases step start action <;> simp
  | cons head rest ih =>
      simp only [run] at reached
      cases taken : step start head with
      | none => simp [taken] at reached
      | some next =>
          rw [taken, Option.bind_some] at reached
          simp only [List.cons_append, observed, taken, ih reached, List.append_assoc]

theorem observed_append {observe : σ → α → Option ε} {first second : List α} {middle : σ}
    (reached : run step start first = some middle) :
    observed step observe start (first ++ second) =
      observed step observe start first ++ observed step observe middle second := by
  induction first generalizing start with
  | nil =>
      cases reached
      rfl
  | cons action rest ih =>
      rcases Option.bind_eq_some_iff.mp reached with ⟨next, taken, onwards⟩
      simp only [List.cons_append, observed, taken, ih onwards, List.append_assoc]

end Transition
