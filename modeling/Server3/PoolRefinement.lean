import Server3.PoolConservation

/-! The loops of the pool implement a ledger whose operations are indivisible. -/

namespace Server3.CapacityPool

def Action.entered : Action → Option (TaskId × Operation)
  | .reserve task size => some (task, .reserve size)
  | .reserveUpTo task size => some (task, .reserveUpTo size)
  | .returnToPool task id | .drop task id => some (task, .returnToPool id)
  | .advance _ => none

/-- The operation that the step ends, and whose it is. -/
def State.ended (state : State) (action : Action) : Option (TaskId × Operation) :=
  if (step state action).map (fun next => next.pc action.task) = some .idle then
    (state.operation action).map (Prod.mk action.task)
  else none

def ofTask (task : TaskId) (operations : List (TaskId × Operation)) : List Operation :=
  (operations.filter fun one => one.1 = task).map Prod.snd

variable {capacity : UInt64} {state next : State} {task : TaskId} {action : Action}

@[simp] theorem of_task_append (first second : List (TaskId × Operation)) :
    ofTask task (first ++ second) = ofTask task first ++ ofTask task second := by
  simp [ofTask]

theorem operation_running (taken : step state action = some next) :
    (state.pc action.task).operation.toList ++ ofTask action.task action.entered.toList =
      (state.operation action).toList := by
  cases action with
  | reserve task size =>
      simp only [step] at taken
      split at taken
      · rename_i idle
        simp [Action.entered, Action.task, State.operation, ofTask, idle, Pc.operation]
      · cases taken
  | reserveUpTo task size =>
      simp only [step] at taken
      split at taken
      · rename_i idle
        simp [Action.entered, Action.task, State.operation, ofTask, idle, Pc.operation]
      · cases taken
  | returnToPool task id =>
      simp only [step] at taken
      split at taken
      · cases taken
      · split at taken
        · rename_i free
          simp [Action.entered, Action.task, State.operation, ofTask, free.1, Pc.operation]
        · cases taken
  | drop task id =>
      simp only [step] at taken
      split at taken
      · cases taken
      · split at taken
        · rename_i free
          simp [Action.entered, Action.task, State.operation, ofTask, free.1, Pc.operation]
        · cases taken
  | advance task => simp [Action.entered, Action.task, State.operation, ofTask]

theorem entered_others (different : task ≠ action.task) :
    ofTask task action.entered.toList = [] := by
  cases action <;> simp_all [Action.entered, Action.task, ofTask, eq_comm]

theorem turn_others {operation : Operation} {other : TaskId}
    (turn : Turn state task operation next) (different : other ≠ task) :
    next.pc other = state.pc other := by
  cases turn with
  | goes pc own same => simp [State.goto, different]
  | gaveUp size short => simp [State.goto, different]
  | reserved size pool reservation granted => simp [State.grant, different]
  | reservedUpTo size pool reservation granted => simp [State.grant, different]
  | entered id handle dropped idle present unused =>
      unfold State.enterReturn
      split <;> simp [different]
  | returned id handle pool present owner given => simp [different]

/-- A step carries its task's operation on and leaves the ledger as it is, or ends the
operation and takes it on the ledger at once. -/
theorem step_settles (inv : Inv capacity state) (taken : step state action = some next) :
    ∃ operation, state.operation action = some operation ∧
      (∀ other, other ≠ action.task → next.pc other = state.pc other) ∧
      ((next.pc action.task).operation = some operation ∧ state.ended action = none ∧
          next.ledger = state.ledger ∨
        next.pc action.task = .idle ∧ state.ended action = some (action.task, operation) ∧
          state.ledger.step operation = some next.ledger) := by
  obtain ⟨operation, running, turn⟩ := step_turn inv taken
  refine ⟨operation, running, fun other => turn_others turn, ?_⟩
  rcases turn_settles turn with ⟨inside, still⟩ | ⟨idle, moved⟩
  · have ongoing : next.pc action.task ≠ .idle := by
      intro idle
      rw [idle] at inside
      cases inside
    exact Or.inl ⟨inside, by simp [State.ended, taken, ongoing], still⟩
  · exact Or.inr ⟨idle, by simp [State.ended, taken, idle, running], moved⟩

theorem step_order (inv : Inv capacity state) (taken : step state action = some next) :
    (state.pc task).operation.toList ++ ofTask task action.entered.toList =
      ofTask task (state.ended action).toList ++ (next.pc task).operation.toList := by
  obtain ⟨operation, running, others, settled⟩ := step_settles inv taken
  by_cases own : task = action.task
  · subst own
    rw [operation_running taken, running]
    rcases settled with ⟨inside, ended, -⟩ | ⟨idle, ended, -⟩
    · simp [inside, ended, ofTask]
    · simp [idle, ended, ofTask, Pc.operation]
  · rw [entered_others own, others task own]
    rcases settled with ⟨-, ended, -⟩ | ⟨-, ended, -⟩
    · simp [ended, ofTask]
    · simp [ended, ofTask, Ne.symm own]

theorem operations_in_order {actions : List Action}
    (reached : Transition.run step (initial capacity) actions = some state) :
    ofTask task (actions.filterMap Action.entered) =
      ofTask task (Transition.observed step State.ended (initial capacity) actions) ++
        (state.pc task).operation.toList := by
  refine Transition.run_induction (fun actions state =>
    ofTask task (actions.filterMap Action.entered) =
      ofTask task (Transition.observed step State.ended (initial capacity) actions) ++
        (state.pc task).operation.toList) rfl ?_ reached
  intro actions state action next earlier before taken
  have ordered : (state.pc task).operation.toList ++ ofTask task action.entered.toList = _ :=
    step_order (reachable_inv ⟨actions, earlier⟩) taken
  have last : [action].filterMap Action.entered = action.entered.toList := by
    cases found : action.entered <;> simp [found]
  rw [Transition.observed_snoc earlier, List.filterMap_append, of_task_append, of_task_append,
    before, last, List.append_assoc, List.append_assoc, ordered]

theorem ledger_follows {actions : List Action}
    (reached : Transition.run step (initial capacity) actions = some state) :
    Transition.run Ledger.step ⟨⟨capacity⟩, []⟩
        ((Transition.observed step State.ended (initial capacity) actions).map Prod.snd) =
      some state.ledger := by
  refine Transition.run_induction (fun actions state =>
    Transition.run Ledger.step ⟨⟨capacity⟩, []⟩
        ((Transition.observed step State.ended (initial capacity) actions).map Prod.snd) =
      some state.ledger) rfl ?_ reached
  intro actions state action next earlier before taken
  obtain ⟨operation, -, -, settled⟩ := step_settles (reachable_inv ⟨actions, earlier⟩) taken
  rw [Transition.observed_snoc earlier, List.map_append]
  rcases settled with ⟨-, ended, still⟩ | ⟨-, ended, moved⟩
  · simpa [ended, still] using before
  · rw [ended]
    exact Transition.run_snoc.mpr ⟨state.ledger, before, moved⟩

/-- Every operation of the retry loops takes effect at one step, the one it ends with, as the
indivisible operation does on the ledger: a run is one of the ledger over the operations in
the order they end, which for each task is the order it enters them. -/
theorem loops_refine_ledger {capacity : UInt64} {actions : List Action} {state : State}
    (reached : Transition.run step (initial capacity) actions = some state) :
    Transition.run Ledger.step ⟨⟨capacity⟩, []⟩
        ((Transition.observed step State.ended (initial capacity) actions).map Prod.snd) =
      some state.ledger ∧
    (∀ task, ofTask task (actions.filterMap Action.entered) =
      ofTask task (Transition.observed step State.ended (initial capacity) actions) ++
        (state.pc task).operation.toList) ∧
    ∀ action next, step state action = some next → ∃ operation,
      state.operation action = some operation ∧
      (∀ other, other ≠ action.task → next.pc other = state.pc other) ∧
      ((next.pc action.task).operation = some operation ∧ state.ended action = none ∧
          next.ledger = state.ledger ∨
        next.pc action.task = .idle ∧ state.ended action = some (action.task, operation) ∧
          state.ledger.step operation = some next.ledger) :=
  ⟨ledger_follows reached, fun _ => operations_in_order reached,
    fun _ _ taken => step_settles (reachable_inv ⟨actions, reached⟩) taken⟩

/-- The second task's operation ends first, though it was entered last. -/
def overtakingActions : List Action :=
  [.reserve 0 7, .advance 0, .reserveUpTo 1 5, .advance 1, .advance 1, .advance 0, .advance 0]

theorem loops_refine_ledger_overtaking :
    Transition.run Ledger.step ⟨⟨10⟩, []⟩ [.reserveUpTo 5, .reserve 7] = some ⟨⟨5⟩, [⟨5⟩]⟩ := by
  have reached : ∃ state, Transition.run step (initial 10) overtakingActions = some state ∧
      state.ledger = ⟨⟨5⟩, [⟨5⟩]⟩ := ⟨_, rfl, rfl⟩
  rcases reached with ⟨state, reached, ledger⟩
  rw [← ledger]
  exact (loops_refine_ledger reached).1

end Server3.CapacityPool
