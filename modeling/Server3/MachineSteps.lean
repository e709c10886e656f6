import Server3.Machine

/-! What one step can do, stated once: a rule for each way a step is taken, with
its guards and the whole next state. -/

namespace Server3.Machine

open Clock Routes Upstream Resource Recency
open CapacityPool (CacheCapacityPool CacheCapacityReservation)

variable {T : Type → Type}

inductive Move (state : State) (id : TaskId) (task : Task) : Action T → State → Prop where
  | acquireLookup (stage : task.pc = .lookupLock) (unlocked : state.lock = none) :
      Move state id task (.acquire id) ({ state with lock := some id }.setPc id task .lookup)
  | acquireEvict (cell : CellId) (fetched : Fetched) (stage : task.pc = .evictLock cell fetched)
      (unlocked : state.lock = none) :
      Move state id task (.acquire id)
        ({ state with lock := some id }.setPc id task (.popping cell fetched))
  | lookup (stage : task.pc = .lookup) :
      Move state id task (.lookup id) ((state.afterLookup id task).releaseOption
        (state.lookupKey task.key task.now).unlinked)
  | joinFilled (cell : CellId) (resource : CachedResource) (stage : task.pc = .joining cell)
      (found : state.cellAt cell = some (.filled resource)) :
      Move state id task (.join id) (state.setPc id task (.initialized cell resource))
  | joinEmpty (cell : CellId) (stage : task.pc = .joining cell)
      (found : state.cellAt cell = some .empty) :
      Move state id task (.join id)
        ((state.setCell cell (.initializing id)).setPc id task (.fetching cell))
  | answerNever (answer : Answer) (stage : task.pc = .neverFetch) :
      Move state id task (.answer id answer) (state.setPc id task
        (.finished (answer.map fun found => found.map fun resource =>
          ⟨resource.headers, .upstream resource.body, .never, none⟩)))
  | answerFound (cell : CellId) (resource : UpstreamResource) (stage : task.pc = .fetching cell) :
      Move state id task (.answer id (.ok (some resource)))
        (state.setPc id task (.storing cell resource))
  | answerNone (cell : CellId) (stage : task.pc = .fetching cell) :
      Move state id task (.answer id (.ok none))
        ((state.countRoute task CacheRouteMetrics.notFound).abandon id task cell
          (.finished (.ok none)))
  | answerError (cell : CellId) (failure : UpstreamError) (stage : task.pc = .fetching cell) :
      Move state id task (.answer id (.error failure))
        ((state.countRoute task CacheRouteMetrics.failed).abandon id task cell
          (.finished (.error failure)))
  | storeOk (cell : CellId) (resource : UpstreamResource) (diskError : Option String) (file : File)
      (stage : task.pc = .storing cell resource)
      (stored : Upstream.store resource.body diskError = .ok file) :
      Move state id task (.store id diskError)
        (state.setPc id task (.reserving cell ⟨resource.headers, file⟩ false))
  | storeError (cell : CellId) (resource : UpstreamResource) (diskError : Option String)
      (failure : UpstreamError) (stage : task.pc = .storing cell resource)
      (stored : Upstream.store resource.body diskError = .error failure) :
      Move state id task (.store id diskError)
        ((state.countRoute task CacheRouteMetrics.failed).abandon id task cell
          (.finished (.error failure)))
  | reserveGranted (cell : CellId) (fetched : Fetched) (locked : Bool) (pool : CacheCapacityPool)
      (reservation : CacheCapacityReservation) (stage : task.pc = .reserving cell fetched locked)
      (granted : state.pool.reserve fetched.file.size = some (pool, reservation)) :
      Move state id task (.reserve id) ({ state with pool := pool }.setPc id task
        (.granted cell fetched reservation locked))
  | reserveFailed (cell : CellId) (fetched : Fetched) (locked : Bool)
      (stage : task.pc = .reserving cell fetched locked)
      (refused : state.pool.reserve fetched.file.size = none) :
      Move state id task (.reserve id) (state.setPc id task
        (if locked then .popping cell fetched else .evictLock cell fetched))
  | popEntry (cell : CellId) (fetched : Fetched) (key : CachedResourceKey) (victim : CellId)
      (rest : LruCache CachedResourceKey CellId) (stage : task.pc = .popping cell fetched)
      (popped : state.map.popLru = some ((key, victim), rest)) :
      Move state id task (.pop id)
        ({ state with map := rest }.setPc id task (.evicting cell fetched victim))
  | popNothing (cell : CellId) (fetched : Fetched) (stage : task.pc = .popping cell fetched)
      (exhausted : state.map.popLru = none) :
      Move state id task (.pop id) (state.setPc id task (.reservingUpTo cell fetched))
  | evict (cell : CellId) (fetched : Fetched) (victim : CellId)
      (stage : task.pc = .evicting cell fetched victim) :
      Move state id task (.evict id)
        (({ state with metrics := state.evictionMetrics victim }.setPc id task
          (.reserving cell fetched true)).release victim)
  | reserveUpTo (cell : CellId) (fetched : Fetched) (pool : CacheCapacityPool)
      (reservation : CacheCapacityReservation) (stage : task.pc = .reservingUpTo cell fetched)
      (granted : state.pool.reserveUpTo fetched.file.size = some (pool, reservation)) :
      Move state id task (.reserveUpTo id) ({ state with pool := pool }.setPc id task
        (.granted cell fetched reservation true))
  | unlock (cell : CellId) (fetched : Fetched) (reservation : CacheCapacityReservation)
      (stage : task.pc = .granted cell fetched reservation true) :
      Move state id task (.unlock id) ({ state with lock := none }.setPc id task
        (.granted cell fetched reservation false))
  | fill (cell : CellId) (fetched : Fetched) (reservation : CacheCapacityReservation)
      (clock : ClockReading) (stage : task.pc = .granted cell fetched reservation false) :
      Move state id task (.fill id clock)
        (({ state with metrics := state.metrics.created task.host fetched.file.size }.setCell cell
          (.filled (task.resource id fetched reservation clock))).setPc id task
          (.initialized cell (task.resource id fetched reservation clock)))
  | count (cell : CellId) (resource : CachedResource) (stage : task.pc = .initialized cell resource) :
      Move state id task (.count id)
        ((state.countRoute task (CacheRouteMetrics.served resource id)).setPc id task
          (.cloning cell resource))
  | respond (cell : CellId) (resource : CachedResource) (cloneError : Option String)
      (result : Except UpstreamError (Option CachedResourceResponse))
      (stage : task.pc = .cloning cell resource)
      (shape : result = match cloneError with
        | none => .ok (some (resource.response id))
        | some message => .error (.io message)) :
      Move state id task (.respond id cloneError)
        ((state.setPc id task (.finished result)).release cell)
  | cancelIdle (stage : task.pc = .neverFetch ∨ task.pc = .lookupLock) :
      Move state id task (.cancel id) (state.setPc id task .cancelled)
  | cancelJoined (cell : CellId)
      (stage : task.pc = .joining cell ∨ ∃ resource, task.pc = .cloning cell resource) :
      Move state id task (.cancel id) ((state.setPc id task .cancelled).release cell)
  | cancelInit (cell : CellId)
      (stage : task.pc = .fetching cell ∨ (∃ resource, task.pc = .storing cell resource) ∨
        ∃ fetched, task.pc = .evictLock cell fetched) :
      Move state id task (.cancel id) (state.abandon id task cell .cancelled)

variable {state next : State} {id : TaskId} {task : Task}

theorem acquire_move (taken : state.acquire id task = some next) :
    Move state id task (.acquire id : Action T) next := by
  unfold State.acquire at taken
  split at taken
  · rename_i unlocked stage
    cases taken
    exact .acquireLookup stage unlocked
  · rename_i unlocked stage
    cases taken
    exact .acquireEvict _ _ stage unlocked
  · cases taken

theorem lookup_move (taken : state.lookup id task = some next) :
    Move state id task (.lookup id : Action T) next := by
  unfold State.lookup at taken
  split at taken
  · rename_i stage
    cases taken
    exact .lookup stage
  · cases taken

theorem join_move (taken : state.join id task = some next) :
    Move state id task (.join id : Action T) next := by
  unfold State.join at taken
  split at taken
  · rename_i cell stage
    split at taken
    · rename_i resource found
      cases taken
      exact .joinFilled cell resource stage found
    · rename_i found
      cases taken
      exact .joinEmpty cell stage found
    · cases taken
  · cases taken

theorem answer_move {answer : Answer} (taken : state.answer id task answer = some next) :
    Move state id task (.answer id answer : Action T) next := by
  unfold State.answer at taken
  split at taken
  · rename_i stage
    cases taken
    exact .answerNever answer stage
  · rename_i cell stage
    split at taken
    · cases taken
      exact .answerFound cell _ stage
    · cases taken
      exact .answerNone cell stage
    · cases taken
      exact .answerError cell _ stage
  · cases taken

theorem store_move {diskError : Option String} (taken : state.store id task diskError = some next) :
    Move state id task (.store id diskError : Action T) next := by
  unfold State.store at taken
  split at taken
  · rename_i cell resource stage
    split at taken
    · rename_i file stored
      cases taken
      exact .storeOk cell resource diskError file stage stored
    · rename_i failure stored
      cases taken
      exact .storeError cell resource diskError failure stage stored
  · cases taken

theorem reserve_move (taken : state.reserve id task = some next) :
    Move state id task (.reserve id : Action T) next := by
  unfold State.reserve at taken
  split at taken
  · rename_i cell fetched locked stage
    split at taken
    · rename_i pool reservation granted
      cases taken
      exact .reserveGranted cell fetched locked pool reservation stage granted
    · rename_i refused
      have move : Move state id task (.reserve id : Action T) _ :=
        .reserveFailed cell fetched locked stage refused
      cases locked <;> cases taken <;> exact move
  · cases taken

theorem pop_move (taken : state.pop id task = some next) :
    Move state id task (.pop id : Action T) next := by
  unfold State.pop at taken
  split at taken
  · rename_i cell fetched stage
    split at taken
    · rename_i key victim rest popped
      cases taken
      exact .popEntry cell fetched key victim rest stage popped
    · rename_i exhausted
      cases taken
      exact .popNothing cell fetched stage exhausted
  · cases taken

theorem evict_move (taken : state.evict id task = some next) :
    Move state id task (.evict id : Action T) next := by
  unfold State.evict at taken
  split at taken
  · rename_i cell fetched victim stage
    cases taken
    exact .evict cell fetched victim stage
  · cases taken

/-- `reserve_up_to` always grants, so its `unwrap` is never reached. -/
theorem reserveUpTo_move (taken : state.reserveUpTo id task = some next) :
    Move state id task (.reserveUpTo id : Action T) next := by
  unfold State.reserveUpTo at taken
  split at taken
  · rename_i cell fetched stage
    split at taken
    · rename_i pool reservation granted
      cases taken
      exact .reserveUpTo cell fetched pool reservation stage granted
    · rename_i refused
      rcases CapacityPool.reserve_up_to_grants state.pool fetched.file.size with
        ⟨pool, reservation, granted, _⟩
      rw [granted] at refused
      cases refused
  · cases taken

theorem unlock_move (taken : state.unlock id task = some next) :
    Move state id task (.unlock id : Action T) next := by
  unfold State.unlock at taken
  split at taken
  · rename_i cell fetched reservation stage
    cases taken
    exact .unlock cell fetched reservation stage
  · cases taken

theorem fill_move {clock : ClockReading} (taken : state.fill id task clock = some next) :
    Move state id task (.fill id clock : Action T) next := by
  unfold State.fill at taken
  split at taken
  · rename_i cell fetched reservation stage
    cases taken
    exact .fill cell fetched reservation clock stage
  · cases taken

theorem count_move (taken : state.count id task = some next) :
    Move state id task (.count id : Action T) next := by
  unfold State.count at taken
  split at taken
  · rename_i cell resource stage
    cases taken
    exact .count cell resource stage
  · cases taken

theorem respond_move {cloneError : Option String}
    (taken : state.respond id task cloneError = some next) :
    Move state id task (.respond id cloneError : Action T) next := by
  unfold State.respond at taken
  split at taken
  · rename_i cell resource stage
    cases taken
    exact .respond cell resource cloneError _ stage rfl
  · cases taken

theorem cancel_move (taken : state.cancel id task = some next) :
    Move state id task (.cancel id : Action T) next := by
  unfold State.cancel at taken
  split at taken
  · rename_i stage
    cases taken
    exact .cancelIdle (Or.inl stage)
  · rename_i stage
    cases taken
    exact .cancelIdle (Or.inr stage)
  · rename_i cell stage
    cases taken
    exact .cancelJoined cell (Or.inl stage)
  · rename_i cell resource stage
    cases taken
    exact .cancelJoined cell (Or.inr ⟨resource, stage⟩)
  · rename_i cell stage
    cases taken
    exact .cancelInit cell (Or.inl stage)
  · rename_i cell resource stage
    cases taken
    exact .cancelInit cell (Or.inr (Or.inl ⟨resource, stage⟩))
  · rename_i cell fetched stage
    cases taken
    exact .cancelInit cell (Or.inr (Or.inr ⟨fetched, stage⟩))
  · cases taken

theorem bound_move {action : Action T} {moving : Task → Option State}
    (taken : (state.tasks[id]?).bind moving = some next)
    (moved : ∀ task, moving task = some next → Move state id task action next) :
    ∃ id task, state.tasks[id]? = some task ∧ Move state id task action next := by
  rcases Option.bind_eq_some_iff.mp taken with ⟨task, present, result⟩
  exact ⟨id, task, present, moved task result⟩

/-- A new get touches nothing shared but the route counters. -/
structure Started [PathTree T] (state : State) (cache : Cache T) (path : String) (now : Instant)
    (task : Task) (next : State) : Prop where
  tasks : next.tasks = state.tasks ++ [task]
  pool : next.pool = state.pool
  map : next.map = state.map
  lock : next.lock = state.lock
  slots : next.slots = state.slots
  sound : next.poolPanicked = state.poolPanicked
  host : task.host = cache.hostKey
  requested : task.path = path
  time : task.now = now
  stage : (task.pc = .lookupLock ∧
      plan (cache.rules.matchRoute path).1 now = .cached task.expiresAfter) ∨
    (task.pc = .neverFetch ∧ plan (cache.rules.matchRoute path).1 now = .never) ∨
    (task.pc = .finished (.ok none) ∧ plan (cache.rules.matchRoute path).1 now = .unrouted) ∨
    (task.pc = .panicked ∧ plan (cache.rules.matchRoute path).1 now = .panicked)

theorem start_started [PathTree T] (state : State) (cache : Cache T) (path : String)
    (now : Instant) : ∃ task, Started state cache path now task (state.start cache path now) := by
  let label := routeLabel (cache.rules.matchRoute path).2
  cases planned : plan (cache.rules.matchRoute path).1 now with
  | unrouted =>
      simp only [State.start, planned]
      exact ⟨⟨cache.hostKey, path, now, label, none, .finished (.ok none)⟩,
        rfl, rfl, rfl, rfl, rfl, rfl, rfl, rfl, rfl, Or.inr (Or.inr (Or.inl ⟨rfl, planned⟩))⟩
  | never =>
      simp only [State.start, planned]
      exact ⟨⟨cache.hostKey, path, now, label, none, .neverFetch⟩,
        rfl, rfl, rfl, rfl, rfl, rfl, rfl, rfl, rfl, Or.inr (Or.inl ⟨rfl, planned⟩)⟩
  | cached expiresAfter =>
      simp only [State.start, planned]
      exact ⟨⟨cache.hostKey, path, now, label, expiresAfter, .lookupLock⟩,
        rfl, rfl, rfl, rfl, rfl, rfl, rfl, rfl, rfl, Or.inl ⟨rfl, planned⟩⟩
  | panicked =>
      simp only [State.start, planned]
      exact ⟨⟨cache.hostKey, path, now, label, none, .panicked⟩,
        rfl, rfl, rfl, rfl, rfl, rfl, rfl, rfl, rfl, Or.inr (Or.inr (Or.inr ⟨rfl, planned⟩))⟩

/-- A step starts a new get or moves an existing one by one of the rules. -/
theorem step_moves [PathTree T] {action : Action T} (taken : step state action = some next) :
    (∃ cache path now, action = .start cache path now ∧ next = state.start cache path now) ∨
      ∃ id task, state.tasks[id]? = some task ∧ Move state id task action next := by
  cases action with
  | start cache path now =>
      cases taken
      exact Or.inl ⟨cache, path, now, rfl, rfl⟩
  | acquire id => exact Or.inr (bound_move taken fun _ => acquire_move)
  | lookup id => exact Or.inr (bound_move taken fun _ => lookup_move)
  | join id => exact Or.inr (bound_move taken fun _ => join_move)
  | answer id answer => exact Or.inr (bound_move taken fun _ => answer_move)
  | store id diskError => exact Or.inr (bound_move taken fun _ => store_move)
  | reserve id => exact Or.inr (bound_move taken fun _ => reserve_move)
  | pop id => exact Or.inr (bound_move taken fun _ => pop_move)
  | evict id => exact Or.inr (bound_move taken fun _ => evict_move)
  | reserveUpTo id => exact Or.inr (bound_move taken fun _ => reserveUpTo_move)
  | unlock id => exact Or.inr (bound_move taken fun _ => unlock_move)
  | fill id clock => exact Or.inr (bound_move taken fun _ => fill_move)
  | count id => exact Or.inr (bound_move taken fun _ => count_move)
  | respond id cloneError => exact Or.inr (bound_move taken fun _ => respond_move)
  | cancel id => exact Or.inr (bound_move taken fun _ => cancel_move)

theorem move_taken [PathTree T] {action : Action T} (present : state.tasks[id]? = some task)
    (move : Move state id task action next) : step state action = some next := by
  cases move with
  | acquireLookup stage unlocked =>
      simp only [step, present, Option.bind_some, State.acquire, stage, unlocked]
  | acquireEvict cell fetched stage unlocked =>
      simp only [step, present, Option.bind_some, State.acquire, stage, unlocked]
  | lookup stage => simp only [step, present, Option.bind_some, State.lookup, stage]
  | joinFilled cell resource stage found =>
      simp only [step, present, Option.bind_some, State.join, stage, found]
  | joinEmpty cell stage found =>
      simp only [step, present, Option.bind_some, State.join, stage, found]
  | answerNever answer stage => simp only [step, present, Option.bind_some, State.answer, stage]
  | answerFound cell resource stage =>
      simp only [step, present, Option.bind_some, State.answer, stage]
  | answerNone cell stage => simp only [step, present, Option.bind_some, State.answer, stage]
  | answerError cell failure stage =>
      simp only [step, present, Option.bind_some, State.answer, stage]
  | storeOk cell resource diskError file stage stored =>
      simp only [step, present, Option.bind_some, State.store, stage, stored]
  | storeError cell resource diskError failure stage stored =>
      simp only [step, present, Option.bind_some, State.store, stage, stored]
  | reserveGranted cell fetched locked pool reservation stage granted =>
      simp only [step, present, Option.bind_some, State.reserve, stage, granted]
  | reserveFailed cell fetched locked stage refused =>
      simp only [step, present, Option.bind_some, State.reserve, stage, refused]
      split <;> rfl
  | popEntry cell fetched key victim rest stage popped =>
      simp only [step, present, Option.bind_some, State.pop, stage, popped]
  | popNothing cell fetched stage exhausted =>
      simp only [step, present, Option.bind_some, State.pop, stage, exhausted]
  | evict cell fetched victim stage =>
      simp only [step, present, Option.bind_some, State.evict, stage]
  | reserveUpTo cell fetched pool reservation stage granted =>
      simp only [step, present, Option.bind_some, State.reserveUpTo, stage, granted]
  | unlock cell fetched reservation stage =>
      simp only [step, present, Option.bind_some, State.unlock, stage]
  | fill cell fetched reservation clock stage =>
      simp only [step, present, Option.bind_some, State.fill, stage]
  | count cell resource stage => simp only [step, present, Option.bind_some, State.count, stage]
  | respond cell resource cloneError result stage shape =>
      subst shape
      cases cloneError <;> simp only [step, present, Option.bind_some, State.respond, stage]
  | cancelIdle stage =>
      rcases stage with stage | stage <;>
        simp only [step, present, Option.bind_some, State.cancel, stage]
  | cancelJoined cell stage =>
      rcases stage with stage | ⟨_, stage⟩ <;>
        simp only [step, present, Option.bind_some, State.cancel, stage]
  | cancelInit cell stage =>
      rcases stage with stage | ⟨_, stage⟩ | ⟨_, stage⟩ <;>
        simp only [step, present, Option.bind_some, State.cancel, stage]

end Server3.Machine
