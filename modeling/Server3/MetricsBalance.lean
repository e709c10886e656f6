import Server3.Classification

/-! The books of the metrics: every request of a route is counted once as an outcome, unless
it has none yet or was given up. -/

namespace Server3.Resource

/-- The counters of which each request should bump one. -/
def CacheRouteMetrics.outcomeCount (metrics : CacheRouteMetrics) : Nat :=
  metrics.unroutedCount + metrics.neverCount + metrics.notFoundCount + metrics.errorCount +
    metrics.missCount + metrics.hitCount

end Server3.Resource

namespace Server3.Machine

open Clock Routes Upstream Resource Recency

variable {T : Type → Type} {capacity : UInt64} {state next : State} {id : TaskId} {task : Task}
  {action : Action T} {actions : List (Action T)} {route : Route} {pc : Pc} {counted : Nat}

def State.requestCount (state : State) (route : Route) : Nat :=
  (state.metrics.route route.1 route.2).requestCount

def State.outcomeCount (state : State) (route : Route) : Nat :=
  (state.metrics.route route.1 route.2).outcomeCount

/-- No outcome of the get has been counted. A get that panicked has none. -/
def Pc.uncounted : Pc → Bool
  | .neverFetch | .cloning _ _ | .finished _ | .cancelled => false
  | _ => true

def Task.openOn (route : Route) (task : Task) : Bool := task.route = route && task.pc.uncounted

def Pc.isCancelled : Pc → Bool
  | .cancelled => true
  | _ => false

def Task.cancelledOn (route : Route) (task : Task) : Bool :=
  task.route = route && task.pc.isCancelled

theorem route_place (task : Task) (pc : Pc) : ({ task with pc := pc } : Task).route = task.route :=
  rfl

structure Books (state next : State) (task : Task) (counted : Nat) : Prop where
  requests : ∀ route, next.requestCount route = state.requestCount route
  outcomes : ∀ route, next.outcomeCount route =
    state.outcomeCount route + if route = task.route then counted else 0

def CountsOutcome (change : CacheRouteMetrics → CacheRouteMetrics) : Prop :=
  ∀ metrics, (change metrics).outcomeCount = metrics.outcomeCount + 1 ∧
    (change metrics).requestCount = metrics.requestCount

section Moves

theorem books_still (same : next.metrics.route = state.metrics.route) : Books state next task 0 := by
  constructor <;> intro route <;> simp [State.requestCount, State.outcomeCount, same]

theorem books_counted {change : CacheRouteMetrics → CacheRouteMetrics}
    (counts : CountsOutcome change)
    (same : next.metrics.route = (state.countRoute task change).metrics.route) :
    Books state next task 1 := by
  have found (route : Route) : next.metrics.route route.1 route.2 =
      if route = task.route then change (state.metrics.route route.1 route.2)
      else state.metrics.route route.1 route.2 := by
    rw [same]
    simp only [State.countRoute, Metrics.updateRoute, Task.route, Prod.ext_iff]
  constructor
  · intro route
    rw [State.requestCount, found]
    split
    · exact (counts _).2
    · rfl
  · intro route
    rw [State.outcomeCount, found]
    split
    · exact (counts _).1
    · rfl

theorem outcome_counts (outcome : RequestOutcome) (bytes : Nat) :
    CountsOutcome (outcome.change bytes) := by
  intro metrics
  cases outcome with
  | hit => exact ⟨rfl, rfl⟩
  | _ =>
      refine ⟨?_, rfl⟩
      simp only [RequestOutcome.change, CacheRouteMetrics.unrouted, CacheRouteMetrics.notFound,
        CacheRouteMetrics.failed, CacheRouteMetrics.never, CacheRouteMetrics.outcomeCount]
      omega

/-- The step counts an outcome as the get leaves the places without one, unless it is given
up there. -/
structure Booked (state next : State) (id : TaskId) (task : Task) (pc : Pc) (counted : Nat) :
    Prop where
  tasks : next.tasks = state.tasks.set id { task with pc := pc }
  books : Books state next task counted
  spent : counted + pc.uncounted.toNat ≤ task.pc.uncounted.toNat
  kept : pc ≠ .cancelled → counted + pc.uncounted.toNat = task.pc.uncounted.toNat

theorem booked_still (tasks : next.tasks = state.tasks.set id { task with pc := pc })
    (same : next.metrics.route = state.metrics.route)
    (place : pc.uncounted = task.pc.uncounted) : Booked state next id task pc 0 := by
  refine ⟨tasks, books_still same, ?_, ?_⟩
  · rw [place, Nat.zero_add]
  · intro _
    rw [place, Nat.zero_add]

theorem booked_counted {change : CacheRouteMetrics → CacheRouteMetrics}
    (tasks : next.tasks = state.tasks.set id { task with pc := pc })
    (counts : CountsOutcome change)
    (same : next.metrics.route = (state.countRoute task change).metrics.route)
    (before : task.pc.uncounted = true) (after : pc.uncounted = false) :
    Booked state next id task pc 1 := by
  refine ⟨tasks, books_counted counts same, ?_, ?_⟩
  · rw [before, after]
    exact Nat.le_refl 1
  · intro _
    rw [before, after]
    rfl

theorem booked_cancelled (tasks : next.tasks = state.tasks.set id { task with pc := .cancelled })
    (same : next.metrics.route = state.metrics.route) :
    Booked state next id task .cancelled 0 :=
  ⟨tasks, books_still same, Nat.zero_le _, fun going => absurd rfl going⟩

theorem move_booked (move : Move state id task action next) :
    ∃ pc counted, Booked state next id task pc counted := by
  cases move with
  | lookup stage =>
      exact ⟨_, _, booked_still (State.releaseOption_tasks _) (releaseOption_route _)
        (by rw [stage]; rfl)⟩
  | answerNone cell stage =>
      exact ⟨_, _, booked_counted (State.abandon_tasks _ _ _) (outcome_counts .notFound 0)
        (State.release_route _ _) (by rw [stage]; rfl) rfl⟩
  | answerError cell failure stage =>
      exact ⟨_, _, booked_counted (State.abandon_tasks _ _ _) (outcome_counts .failed 0)
        (State.release_route _ _) (by rw [stage]; rfl) rfl⟩
  | storeError cell resource diskError failure stage stored =>
      exact ⟨_, _, booked_counted (State.abandon_tasks _ _ _) (outcome_counts .failed 0)
        (State.release_route _ _) (by rw [stage]; rfl) rfl⟩
  | reserveFailed cell fetched locked stage refused =>
      refine ⟨_, _, booked_still rfl rfl ?_⟩
      rw [stage]
      cases locked <;> rfl
  | evict cell fetched victim stage =>
      exact ⟨_, _, booked_still (State.release_tasks _ _)
        ((State.release_route _ _).trans (evictionMetrics_route victim)) (by rw [stage]; rfl)⟩
  | count cell resource stage =>
      exact ⟨_, _, booked_counted rfl (outcome_counts (servedOutcome resource id) _)
        (by rw [← served_change]; rfl) (by rw [stage]; rfl) rfl⟩
  | respond cell resource cloneError result stage shape =>
      exact ⟨_, _, booked_still (State.release_tasks _ _) (State.release_route _ _)
        (by rw [stage]; rfl)⟩
  | cancelIdle stage => exact ⟨_, _, booked_cancelled rfl rfl⟩
  | cancelJoined cell stage =>
      exact ⟨_, _, booked_cancelled (State.release_tasks _ _) (State.release_route _ _)⟩
  | cancelInit cell stage =>
      exact ⟨_, _, booked_cancelled (State.abandon_tasks _ _ _) (State.release_route _ _)⟩
  | acquireLookup stage | acquireEvict _ _ stage | joinFilled _ _ stage | joinEmpty _ stage
  | answerNever _ stage | answerFound _ _ stage | storeOk _ _ _ _ stage
  | reserveGranted _ _ _ _ _ stage | popEntry _ _ _ _ _ stage | popNothing _ _ stage
  | reserveUpTo _ _ _ _ stage | unlock _ _ _ stage | fill _ _ _ _ stage =>
      exact ⟨_, _, booked_still rfl rfl (by rw [stage]; rfl)⟩

theorem isCancelled_iff {pc : Pc} : pc.isCancelled = true ↔ pc = .cancelled := by
  cases pc <;> simp [Pc.isCancelled]

end Moves

section Balance

variable [PathTree T] {slots : Nat} {positive : 0 < slots}

/-- The requests of the route are its outcomes, those that have none yet, and at most as many
again as were given up. -/
def Balanced (state : State) (route : Route) : Prop :=
  ∃ lost, lost ≤ state.tasks.countP (Task.cancelledOn route) ∧
    state.requestCount route =
      state.outcomeCount route + state.tasks.countP (Task.openOn route) + lost

omit [PathTree T] in
theorem balanced_move (present : state.tasks[id]? = some task) (before : Balanced state route)
    (move : Move state id task action next) : Balanced next route := by
  rcases before with ⟨lost, few, balance⟩
  rcases move_booked move with ⟨pc, counted, booked⟩
  have going : task.pc.isCancelled = false := by
    cases stage : task.pc.isCancelled with
    | false => rfl
    | true =>
        have unended := move_unended move
        rw [isCancelled_iff.mp stage] at unended
        cases unended
  have opens := Arena.countP_set (Task.openOn route) { task with pc := pc } present
  have given := Arena.countP_set (Task.cancelledOn route) { task with pc := pc } present
  rw [← booked.tasks] at opens given
  simp only [Balanced, booked.books.requests, booked.books.outcomes]
  by_cases own : route = task.route
  · subst own
    simp only [Task.openOn, Task.cancelledOn, route_place, decide_true, Bool.true_and, going,
      Bool.toNat_false, Nat.add_zero] at opens given
    have spent := booked.spent
    -- what the get leaves without an outcome was given up with it
    refine ⟨lost + (task.pc.uncounted.toNat - (counted + pc.uncounted.toNat)), ?_, ?_⟩
    · cases ended : pc.isCancelled with
      | true =>
          have most := Bool.toNat_le task.pc.uncounted
          rw [given, ended, Bool.toNat_true]
          omega
      | false =>
          have kept := booked.kept fun same => by simp [isCancelled_iff.mpr same] at ended
          rw [given, ended, Bool.toNat_false]
          omega
    · rw [if_pos rfl]
      omega
  · have other : ¬ task.route = route := fun same => own same.symm
    simp only [Task.openOn, Task.cancelledOn, route_place, other, decide_false, Bool.false_and,
      Bool.toNat_false, Nat.add_zero] at opens given
    rw [if_neg own, Nat.add_zero, opens, given]
    exact ⟨lost, few, balance⟩

theorem begun_books (state : State) (task : Task) (route : Route) :
    (state.begun task).requestCount route =
        state.requestCount route + (if route = task.route then 1 else 0) ∧
      (state.begun task).outcomeCount route = state.outcomeCount route := by
  have found : (state.begun task).metrics.route route.1 route.2 =
      if route = task.route then (state.metrics.route route.1 route.2).requested
      else state.metrics.route route.1 route.2 := by
    simp only [State.begun, State.countRoute, Metrics.updateRoute, Task.route, Prod.ext_iff]
  rw [State.requestCount, State.outcomeCount, found]
  split <;> exact ⟨rfl, rfl⟩

theorem start_books (state : State) (cache : Cache T) (path : String) (now : Instant) :
    ∃ task counted, (state.start cache path now).tasks = state.tasks ++ [task] ∧
      counted + task.pc.uncounted.toNat = 1 ∧ task.pc.isCancelled = false ∧
      Books (state.begun task) (state.start cache path now) task counted := by
  simp only [State.start]
  cases plan (cache.rules.matchRoute path).1 now with
  | unrouted => exact ⟨_, 1, rfl, rfl, rfl, books_counted (outcome_counts .unrouted 0) rfl⟩
  | never => exact ⟨_, 1, rfl, rfl, rfl, books_counted (outcome_counts .never 0) rfl⟩
  | cached expiresAfter => exact ⟨_, 0, rfl, rfl, rfl, books_still rfl⟩
  | panicked => exact ⟨_, 0, rfl, rfl, rfl, books_still rfl⟩

theorem balanced_start (before : Balanced state route) (cache : Cache T) (path : String)
    (now : Instant) : Balanced (state.start cache path now) route := by
  rcases before with ⟨lost, few, balance⟩
  rcases start_books state cache path now with ⟨task, counted, tasks, once, going, books⟩
  have begun := begun_books state task route
  refine ⟨lost, ?_, ?_⟩
  · rw [tasks, List.countP_append]
    exact Nat.le_add_right_of_le few
  · rw [books.requests, books.outcomes, begun.1, begun.2, tasks, List.countP_append,
      List.countP_singleton, Task.openOn]
    by_cases own : route = task.route
    · subst own
      cases place : task.pc.uncounted <;> simp [place] at once ⊢ <;> omega
    · have other : ¬ task.route = route := fun same => own same.symm
      simp only [own, other, if_false, decide_false, Bool.false_and, Bool.false_eq_true]
      omega

/-- In every state of every run the requests counted for a route are the outcomes counted for
it, the gets of it that have none yet, and some of those that were given up: no request is
counted as two outcomes, and none is forgotten. -/
theorem requests_balance
    (reached : Transition.run step (initial capacity slots positive) actions = some state)
    (route : Route) : Balanced state route := by
  refine Transition.run_induction (fun (_ : List (Action T)) state => Balanced state route) ?_ ?_
    reached
  · exact ⟨0, Nat.zero_le _, rfl⟩
  · intro actions state action next earlier before taken
    rcases step_moves taken with ⟨cache, path, now, rfl, rfl⟩ | ⟨id, task, present, move⟩
    · exact balanced_start before cache path now
    · exact balanced_move present before move

end Balance

/-- A get that is answered, one that is given up while it looks, and one that has just come. -/
def givenUpActions : List (Action LiteralTree) :=
  fetchActions plainCache "/a" epoch 0 (plainBody [1]) ++ fillActions 0 ⟨epoch, ⟨0⟩⟩ ++
    respondActions 0 ++ [.start plainCache "/a" epoch, .acquire 1, .lookup 1, .cancel 1,
      .start plainCache "/a" epoch]

theorem requests_balance_given_up :
    ∃ state, Transition.run step (initial 10 2 (by decide)) givenUpActions = some state ∧
      state.requestCount ("files", "**") = 3 ∧ state.outcomeCount ("files", "**") = 1 ∧
      Balanced state ("files", "**") := by
  have shape : (Transition.run step (initial 10 2 (by decide)) givenUpActions).map
      (fun state => (state.requestCount ("files", "**"), state.outcomeCount ("files", "**"))) =
        some (3, 1) := rfl
  rcases Option.map_eq_some_iff.mp shape with ⟨state, reached, counts⟩
  obtain ⟨requests, outcomes⟩ := Prod.mk.inj counts
  exact ⟨state, reached, requests, outcomes, requests_balance reached _⟩

end Server3.Machine
