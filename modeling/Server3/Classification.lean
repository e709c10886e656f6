import Server3.Attribution
import Server3.Origins
import Server3.Progress

/-! What each request adds to the counters of its route, against the outcome that the
counters are documented to count. -/

namespace Server3.Machine

open Clock Routes Upstream Resource Recency
open CapacityPool (CacheCapacityPool CacheCapacityReservation)

inductive Counter where
  | requests
  | misses
  | missBytes
  | hits
  | hitBytes
  | nevers
  | errors
  | notFounds
  | unrouteds
  deriving DecidableEq

def Counter.read : Counter → CacheRouteMetrics → Nat
  | .requests => CacheRouteMetrics.requestCount
  | .misses => CacheRouteMetrics.missCount
  | .missBytes => CacheRouteMetrics.missBytes
  | .hits => CacheRouteMetrics.hitCount
  | .hitBytes => CacheRouteMetrics.hitBytes
  | .nevers => CacheRouteMetrics.neverCount
  | .errors => CacheRouteMetrics.errorCount
  | .notFounds => CacheRouteMetrics.notFoundCount
  | .unrouteds => CacheRouteMetrics.unroutedCount

inductive RequestOutcome where
  | unrouted
  | notFound
  | failed
  | never
  | miss
  | hit
  deriving DecidableEq

/-- The one outcome counter of an outcome grows by one, and on a hit or miss the bytes by
those served. -/
def RequestOutcome.bumps (bytes : Nat) : RequestOutcome → Counter → Nat
  | .unrouted, .unrouteds | .notFound, .notFounds | .failed, .errors | .never, .nevers
  | .miss, .misses | .hit, .hits => 1
  | .miss, .missBytes | .hit, .hitBytes => bytes
  | _, _ => 0

abbrev Route := String × String

def Task.route (task : Task) : Route := (task.host, task.label)

def State.counter (route : Route) (counter : Counter) (state : State) : Int :=
  counter.read (state.metrics.route route.1 route.2)

section Effects

def Adds (change : CacheRouteMetrics → CacheRouteMetrics) (amount : Counter → Nat) : Prop :=
  ∀ counter metrics, counter.read (change metrics) = counter.read metrics + amount counter

def requested : Counter → Nat
  | .requests => 1
  | _ => 0

theorem requested_adds : Adds CacheRouteMetrics.requested requested := by
  intro counter metrics
  cases counter <;> rfl

def RequestOutcome.change (bytes : Nat) : RequestOutcome → CacheRouteMetrics → CacheRouteMetrics
  | .unrouted => CacheRouteMetrics.unrouted
  | .notFound => CacheRouteMetrics.notFound
  | .failed => CacheRouteMetrics.failed
  | .never => CacheRouteMetrics.never
  | .miss => fun metrics =>
      { metrics with missCount := metrics.missCount + 1, missBytes := metrics.missBytes + bytes }
  | .hit => fun metrics =>
      { metrics with hitCount := metrics.hitCount + 1, hitBytes := metrics.hitBytes + bytes }

theorem outcome_adds (outcome : RequestOutcome) (bytes : Nat) :
    Adds (outcome.change bytes) (outcome.bumps bytes) := by
  intro counter metrics
  cases outcome <;> cases counter <;> rfl

def servedOutcome (resource : CachedResource) (id : TaskId) : RequestOutcome :=
  if resource.id = id then .miss else .hit

theorem served_change (resource : CachedResource) (id : TaskId) :
    CacheRouteMetrics.served resource id =
      (servedOutcome resource id).change resource.size.toNat := by
  funext metrics
  unfold CacheRouteMetrics.served servedOutcome
  split <;> rfl

theorem served_adds (resource : CachedResource) (id : TaskId) :
    Adds (CacheRouteMetrics.served resource id)
      ((servedOutcome resource id).bumps resource.size.toNat) := by
  rw [served_change]
  exact outcome_adds _ _

variable {state next : State} {task : Task} {route : Route} {counter : Counter}

theorem counter_same (same : next.metrics.route = state.metrics.route) :
    next.counter route counter = state.counter route counter := by
  rw [State.counter, State.counter, same]

theorem counter_counted {change : CacheRouteMetrics → CacheRouteMetrics} {amount : Counter → Nat}
    (adds : Adds change amount) : (state.countRoute task change).counter route counter =
      state.counter route counter + if route = task.route then (amount counter : Int) else 0 := by
  have labels : (route.1 = task.host ∧ route.2 = task.label) ↔ route = task.route := by
    rw [Task.route, Prod.ext_iff]
  simp only [State.counter, State.countRoute, Metrics.updateRoute, labels]
  split
  · rw [adds counter]
    exact Int.natCast_add _ _
  · exact (add_zero _).symm

end Effects

def responseBytes (response : CachedResourceResponse) : Nat :=
  match response.body with
  | .file file => file.size.toNat
  | .upstream _ => 0

def responseOutcome (response : CachedResourceResponse) : RequestOutcome :=
  match response.outcome with
  | .hit => .hit
  | .miss => .miss
  | .never => .never

/-- What a get under a caching rule has added beside the request itself. -/
def Pc.tally (id : TaskId) : Pc → Counter → Nat
  | .cloning _ resource => (servedOutcome resource id).bumps resource.size.toNat
  | .finished (.ok (some response)) => (responseOutcome response).bumps (responseBytes response)
  | .finished (.ok none) => RequestOutcome.notFound.bumps 0
  | .finished (.error _) => RequestOutcome.failed.bumps 0
  | _ => fun _ => 0

theorem response_outcome (resource : CachedResource) (id : TaskId) :
    responseOutcome (resource.response id) = servedOutcome resource id := by
  unfold responseOutcome CachedResource.response servedOutcome
  by_cases own : resource.id = id
  · simp [own]
  · simp [own, Ne.symm own]

theorem response_tally (resource : CachedResource) (id : TaskId) :
    (Pc.finished (.ok (some (resource.response id)))).tally id =
      (servedOutcome resource id).bumps resource.size.toNat := by
  change (responseOutcome (resource.response id)).bumps resource.size.toNat = _
  rw [response_outcome]

section Moves

variable {T : Type → Type} {capacity : UInt64} {state next : State} {id : TaskId} {task : Task}
  {action : Action T} {route : Route} {counter : Counter}

def Cloned (id : TaskId) (action : Action T) : Prop := ∀ message, action ≠ .respond id (some message)

def Tallied (state next : State) (id : TaskId) (task : Task) (pc : Pc) : Prop :=
  ∀ route counter, next.counter route counter - state.counter route counter =
    if route = task.route then (pc.tally id counter : Int) - task.pc.tally id counter else 0

variable {pc : Pc}

theorem tallied_still (same : next.metrics.route = state.metrics.route)
    (still : pc.tally id = task.pc.tally id) : Tallied state next id task pc := by
  intro route counter
  rw [counter_same same, still]
  simp

theorem tallied_counted {change : CacheRouteMetrics → CacheRouteMetrics} {amount : Counter → Nat}
    (adds : Adds change amount)
    (counted : next.metrics.route = (state.countRoute task change).metrics.route)
    (before : task.pc.tally id = fun _ => 0) (after : pc.tally id = amount) :
    Tallied state next id task pc := by
  intro route counter
  rw [counter_same counted, counter_counted adds, before, after]
  simp

theorem releaseOption_route (freed : Option CellId) :
    (state.releaseOption freed).metrics.route = state.metrics.route := by
  cases freed with
  | none => rfl
  | some cell => exact State.release_route state cell

theorem evictionMetrics_route (victim : CellId) :
    (state.evictionMetrics victim).route = state.metrics.route := by
  unfold State.evictionMetrics
  split <;> rfl

theorem move_tally (move : Move state id task action next) (caching : task.pc ≠ .neverFetch)
    (cloned : Cloned id action) :
    ∃ pc, next.tasks = state.tasks.set id { task with pc := pc } ∧
      (pc ≠ .cancelled → Tallied state next id task pc) := by
  cases move with
  | lookup stage =>
      exact ⟨_, State.releaseOption_tasks _, fun _ =>
        tallied_still (releaseOption_route _) (by rw [stage]; rfl)⟩
  | answerNever answer stage => exact absurd stage caching
  | answerNone cell stage =>
      exact ⟨_, State.abandon_tasks _ _ _, fun _ =>
        tallied_counted (outcome_adds .notFound 0) (State.release_route _ _) (by rw [stage]; rfl) rfl⟩
  | answerError cell failure stage =>
      exact ⟨_, State.abandon_tasks _ _ _, fun _ =>
        tallied_counted (outcome_adds .failed 0) (State.release_route _ _) (by rw [stage]; rfl) rfl⟩
  | storeError cell resource diskError failure stage stored =>
      exact ⟨_, State.abandon_tasks _ _ _, fun _ =>
        tallied_counted (outcome_adds .failed 0) (State.release_route _ _) (by rw [stage]; rfl) rfl⟩
  | reserveFailed cell fetched locked stage refused =>
      refine ⟨_, rfl, fun _ => tallied_still rfl ?_⟩
      rw [stage]
      cases locked <;> rfl
  | evict cell fetched victim stage =>
      exact ⟨_, State.release_tasks _ _, fun _ => tallied_still
        ((State.release_route _ _).trans (evictionMetrics_route victim)) (by rw [stage]; rfl)⟩
  | count cell resource stage =>
      exact ⟨_, rfl, fun _ => tallied_counted (served_adds resource id) rfl (by rw [stage]; rfl) rfl⟩
  | respond cell resource cloneError result stage shape =>
      refine ⟨_, State.release_tasks _ _, fun _ => tallied_still (State.release_route _ _) ?_⟩
      cases cloneError with
      | some message => exact absurd rfl (cloned message)
      | none =>
          subst shape
          rw [stage]
          exact response_tally resource id
  | cancelIdle stage => exact ⟨_, rfl, fun going => absurd rfl going⟩
  | cancelJoined cell stage => exact ⟨_, State.release_tasks _ _, fun going => absurd rfl going⟩
  | cancelInit cell stage => exact ⟨_, State.abandon_tasks _ _ _, fun going => absurd rfl going⟩
  | acquireLookup stage | acquireEvict _ _ stage | joinFilled _ _ stage | joinEmpty _ stage
  | answerFound _ _ stage | storeOk _ _ _ _ stage | reserveGranted _ _ _ _ _ stage
  | popEntry _ _ _ _ _ stage | popNothing _ _ stage | reserveUpTo _ _ _ _ stage
  | unlock _ _ _ stage | fill _ _ _ _ stage =>
      exact ⟨_, rfl, fun _ => tallied_still rfl (by rw [stage]; rfl)⟩

end Moves

section History

variable {T : Type → Type}

def Action.answerTo (id : TaskId) : Action T → Option Answer
  | .answer other given => if other = id then some given else none
  | _ => none

def answersTo (actions : List (Action T)) (id : TaskId) : List Answer :=
  actions.filterMap (Action.answerTo id)

def filledBy (actions : List (Action T)) (id : TaskId) : Bool :=
  actions.any fun action => action.fills = some id

def Action.mover (state : State) : Action T → TaskId
  | .start _ _ _ => state.tasks.length
  | .acquire id | .lookup id | .join id | .answer id _ | .store id _ | .reserve id | .pop id
  | .evict id | .reserveUpTo id | .unlock id | .fill id _ | .count id | .respond id _
  | .cancel id => id

variable {capacity : UInt64} {state next : State} {id : TaskId} {task : Task} {action : Action T}
  {actions : List (Action T)}

theorem answersTo_snoc : answersTo (actions ++ [action]) id =
    answersTo actions id ++ (action.answerTo id).toList := by
  rw [answersTo, List.filterMap_append]
  cases found : action.answerTo id <;> simp [found, answersTo]

theorem filledBy_snoc : filledBy (actions ++ [action]) id =
    (filledBy actions id || decide (action.fills = some id)) := by
  simp [filledBy]

theorem mem_answersTo {answer : Answer} :
    answer ∈ answersTo actions id ↔ .answer id answer ∈ actions := by
  rw [answersTo, List.mem_filterMap]
  constructor
  · rintro ⟨action, member, found⟩
    cases action with
    | answer other given =>
        simp only [Action.answerTo, Option.ite_none_right_eq_some, Option.some.injEq] at found
        rcases found with ⟨rfl, rfl⟩
        exact member
    | _ => cases found
  · intro member
    exact ⟨_, member, if_pos rfl⟩

theorem move_mover (move : Move state id task action next) : action.mover state = id := by
  cases move <;> rfl

theorem answerTo_other {other : TaskId} (different : action.mover state ≠ other) :
    action.answerTo other = none := by
  cases action with
  | answer id answer => exact if_neg different
  | _ => rfl

theorem fills_other {other : TaskId} (different : action.mover state ≠ other) :
    action.fills ≠ some other := by
  intro same
  cases action with
  | fill id clock => exact different (Option.some.inj same)
  | _ => cases same

/-- What a get under a caching rule was told and has done, by its place. -/
def PcTold (answers : List Answer) (filled : Bool) (id : TaskId) : Pc → Prop
  | .lookupLock | .lookup | .joining _ | .fetching _ => answers = [] ∧ filled = false
  | .storing _ _ | .reserving _ _ _ | .evictLock _ _ | .popping _ _ | .evicting _ _ _
  | .reservingUpTo _ _ | .granted _ _ _ _ =>
      (∃ resource, answers = [.ok (some resource)]) ∧ filled = false
  | .initialized _ resource | .cloning _ resource =>
      .ok none ∉ answers ∧ (filled = true ↔ resource.id = id)
  | .finished (.ok (some response)) =>
      .ok none ∉ answers ∧ responseOutcome response = if filled then .miss else .hit
  | .finished (.ok none) => .ok none ∈ answers
  | .finished (.error _) => .ok none ∉ answers
  | .neverFetch => False
  | .panicked | .cancelled => True

def NeverTold (answers : List Answer) : Pc → Prop
  | .neverFetch => answers = []
  | .finished result => ∃ answer, answers = [answer] ∧
      result = answer.map fun found => found.map passedOn
  | .cancelled => True
  | _ => False

theorem move_told {answers : List Answer} {filled : Bool}
    (told : PcTold answers filled id task.pc)
    (strange : ∀ cell resource, state.cellAt cell = some (.filled resource) → resource.id = id →
      filled = true)
    (move : Move state id task action next) :
    ∃ pc, next.tasks = state.tasks.set id { task with pc := pc } ∧
      PcTold (answers ++ (action.answerTo id).toList)
        (filled || decide (action.fills = some id)) id pc := by
  cases move with
  | joinFilled cell resource stage found =>
      rw [stage] at told
      obtain ⟨rfl, rfl⟩ := told
      refine ⟨_, rfl, List.not_mem_nil, ?_⟩
      constructor
      · rintro ⟨⟩
      · intro own
        exact (strange cell resource found own)
  | answerNever answer stage =>
      rw [stage] at told
      exact told.elim
  | answerFound cell resource stage =>
      rw [stage] at told
      obtain ⟨rfl, rfl⟩ := told
      exact ⟨_, rfl, ⟨resource, by simp [Action.answerTo]⟩, rfl⟩
  | answerNone cell stage =>
      rw [stage] at told
      obtain ⟨rfl, rfl⟩ := told
      exact ⟨_, State.abandon_tasks _ _ _, by simp [PcTold, Action.answerTo]⟩
  | answerError cell failure stage =>
      rw [stage] at told
      obtain ⟨rfl, rfl⟩ := told
      exact ⟨_, State.abandon_tasks _ _ _, by simp [PcTold, Action.answerTo]⟩
  | storeOk cell resource diskError file stage stored =>
      rw [stage] at told
      obtain ⟨⟨answered, rfl⟩, rfl⟩ := told
      exact ⟨_, rfl, ⟨answered, rfl⟩, rfl⟩
  | storeError cell resource diskError failure stage stored =>
      rw [stage] at told
      obtain ⟨⟨answered, rfl⟩, rfl⟩ := told
      exact ⟨_, State.abandon_tasks _ _ _, by simp [PcTold, Action.answerTo]⟩
  | reserveFailed cell fetched locked stage refused =>
      rw [stage] at told
      obtain ⟨⟨answered, rfl⟩, rfl⟩ := told
      refine ⟨_, rfl, ?_⟩
      cases locked <;> exact ⟨⟨answered, rfl⟩, rfl⟩
  | reserveGranted _ _ _ _ _ stage | popEntry _ _ _ _ _ stage | popNothing _ _ stage
  | reserveUpTo _ _ _ _ stage | unlock _ _ _ stage | acquireEvict _ _ stage =>
      rw [stage] at told
      obtain ⟨⟨answered, rfl⟩, rfl⟩ := told
      exact ⟨_, rfl, ⟨answered, rfl⟩, rfl⟩
  | evict cell fetched victim stage =>
      rw [stage] at told
      obtain ⟨⟨answered, rfl⟩, rfl⟩ := told
      exact ⟨_, State.release_tasks _ _, ⟨answered, rfl⟩, rfl⟩
  | fill cell fetched reservation clock stage =>
      rw [stage] at told
      obtain ⟨⟨answered, rfl⟩, rfl⟩ := told
      exact ⟨_, rfl, by simp [Action.answerTo], iff_of_true (by simp [Action.fills]) rfl⟩
  | count cell resource stage =>
      rw [stage] at told
      refine ⟨_, rfl, ?_⟩
      simpa [PcTold, Action.answerTo, Action.fills] using told
  | respond cell resource cloneError result stage shape =>
      rw [stage] at told
      refine ⟨_, State.release_tasks _ _, ?_⟩
      subst shape
      cases cloneError with
      | some message => simpa [PcTold, Action.answerTo] using told.1
      | none =>
          refine ⟨by simpa [Action.answerTo] using told.1, ?_⟩
          rw [response_outcome, servedOutcome]
          simp only [Action.fills, reduceCtorEq, decide_false, Bool.or_false, told.2]
  | acquireLookup stage | joinEmpty _ stage =>
      rw [stage] at told
      obtain ⟨rfl, rfl⟩ := told
      exact ⟨_, rfl, rfl, rfl⟩
  | lookup stage =>
      rw [stage] at told
      obtain ⟨rfl, rfl⟩ := told
      exact ⟨_, State.releaseOption_tasks _, rfl, rfl⟩
  | cancelIdle stage => exact ⟨_, rfl, trivial⟩
  | cancelJoined cell stage => exact ⟨_, State.release_tasks _ _, trivial⟩
  | cancelInit cell stage => exact ⟨_, State.abandon_tasks _ _ _, trivial⟩

theorem never_told {answers : List Answer} (told : NeverTold answers task.pc)
    (move : Move state id task action next) :
    ∃ pc, next.tasks = state.tasks.set id { task with pc := pc } ∧
      NeverTold (answers ++ (action.answerTo id).toList) pc ∧
      ∀ route counter, next.counter route counter = state.counter route counter := by
  cases move with
  | answerNever answer stage =>
      rw [stage] at told
      obtain rfl : answers = [] := told
      exact ⟨_, rfl, ⟨answer, by simp [Action.answerTo], rfl⟩, fun _ _ => rfl⟩
  | cancelIdle stage => exact ⟨_, rfl, trivial, fun _ _ => rfl⟩
  | cancelJoined cell stage =>
      rcases stage with stage | ⟨_, stage⟩ <;> rw [stage] at told <;> exact told.elim
  | cancelInit cell stage =>
      rcases stage with stage | ⟨_, stage⟩ | ⟨_, stage⟩ <;> rw [stage] at told <;> exact told.elim
  | acquireLookup stage | acquireEvict _ _ stage | joinFilled _ _ stage | joinEmpty _ stage
  | answerFound _ _ stage | storeOk _ _ _ _ stage | reserveGranted _ _ _ _ _ stage
  | popEntry _ _ _ _ _ stage | popNothing _ _ stage | reserveUpTo _ _ _ _ stage
  | unlock _ _ _ stage | fill _ _ _ _ stage | lookup stage | answerNone _ stage
  | answerError _ _ stage | storeError _ _ _ _ stage | reserveFailed _ _ _ stage
  | evict _ _ _ stage | count _ _ stage | respond _ _ _ _ stage =>
      rw [stage] at told
      exact told.elim

end History

section Gets

variable {T : Type → Type} [PathTree T] {capacity : UInt64} {start state next : State}
  {id : TaskId} {task : Task} {action : Action T} {actions : List (Action T)} {request : Request T}

def Request.rule (request : Request T) : CacheRouteRule :=
  (request.cache.rules.matchRoute request.path).1

def Request.plan (request : Request T) : Plan := Resource.plan request.rule request.now

def Request.route (request : Request T) : Route :=
  (request.cache.hostKey, routeLabel (request.cache.rules.matchRoute request.path).2)

def Told (plan : Plan) (answers : List Answer) (filled : Bool) (id : TaskId) (pc : Pc) : Prop :=
  match plan with
  | .unrouted => pc = .finished (.ok none)
  | .never => NeverTold answers pc
  | .cached _ => PcTold answers filled id pc
  | .panicked => pc = .panicked

def tally (plan : Plan) (id : TaskId) (pc : Pc) : Counter → Nat :=
  match plan with
  | .unrouted => RequestOutcome.unrouted.bumps 0
  | .never => RequestOutcome.never.bumps 0
  | .cached _ => pc.tally id
  | .panicked => fun _ => 0

def added (start : State) (actions : List (Action T)) (id : TaskId) (route : Route)
    (counter : Counter) : Int :=
  Transition.share step (fun state action => action.mover state) (State.counter route counter) start
    actions id

structure Counted (start : State) (actions : List (Action T)) (id : TaskId) (task : Task)
    (request : Request T) : Prop where
  route : task.route = request.route
  told : Told request.plan (answersTo actions id) (filledBy actions id) id task.pc
  added : task.pc ≠ .cancelled → (∀ action ∈ actions, Cloned id action) → ∀ route counter,
    added start actions id route counter = if route = request.route then
      (requested counter + tally request.plan id task.pc counter : Int) else 0

structure Classified (start : State) (actions : List (Action T)) (state : State) : Prop where
  gets : ∀ (id : TaskId) task request, state.tasks[id]? = some task →
    (requests actions)[id]? = some request → Counted start actions id task request
  cells : ∀ cell resource, state.cellAt cell = some (.filled resource) →
    filledBy actions resource.id = true
  unborn : ∀ id : TaskId, state.tasks.length ≤ id → answersTo actions id = [] ∧
    filledBy actions id = false ∧ ∀ route counter, added start actions id route counter = 0

theorem added_snoc (reached : Transition.run step start actions = some state)
    (taken : step state action = some next) (route : Route) (counter : Counter) :
    added start (actions ++ [action]) id route counter = added start actions id route counter +
      if action.mover state = id then next.counter route counter - state.counter route counter
      else 0 :=
  Transition.share_snoc reached taken id

omit [PathTree T] in
theorem cloned_before (cloned : ∀ other ∈ actions ++ [action], Cloned id other) :
    ∀ other ∈ actions, Cloned id other :=
  fun other member => cloned other (List.mem_append_left _ member)

theorem counted_other (reached : Transition.run step start actions = some state)
    (taken : step state action = some next) (other : action.mover state ≠ id)
    (counted : Counted start actions id task request) :
    Counted start (actions ++ [action]) id task request := by
  refine ⟨counted.route, ?_, ?_⟩
  · rw [answersTo_snoc, filledBy_snoc, answerTo_other other, decide_eq_false (fills_other other),
      Option.toList_none, List.append_nil, Bool.or_false]
    exact counted.told
  · intro going cloned route counter
    rw [added_snoc reached taken, if_neg other, add_zero]
    exact counted.added going (cloned_before cloned) route counter

omit [PathTree T] in
theorem moved_pc {one two : Pc} (present : state.tasks[id]? = some task)
    (first : next.tasks = state.tasks.set id { task with pc := one })
    (second : next.tasks = state.tasks.set id { task with pc := two }) : one = two := by
  have same := Arena.get_set_self { task with pc := one } present
  rw [← first, second, Arena.get_set_self _ present, Option.some.injEq] at same
  exact (congrArg Task.pc same).symm

theorem counted_own (reached : Transition.run step start actions = some state)
    (present : state.tasks[id]? = some task)
    (strange : ∀ cell resource, state.cellAt cell = some (.filled resource) → resource.id = id →
      filledBy actions id = true)
    (counted : Counted start actions id task request) (move : Move state id task action next) :
    ∃ pc, next.tasks = state.tasks.set id { task with pc := pc } ∧
      Counted start (actions ++ [action]) id { task with pc := pc } request := by
  have grown (route : Route) (counter : Counter) :
      added start (actions ++ [action]) id route counter = added start actions id route counter +
        if action.mover state = id then next.counter route counter - state.counter route counter
        else 0 :=
    added_snoc reached (move_taken present move) route counter
  have going : task.pc ≠ .cancelled := by
    intro stage
    have unended := move_unended move
    rw [stage] at unended
    cases unended
  have told := counted.told
  cases planned : request.plan with
  | unrouted =>
      rw [planned] at told
      have unended := move_unended move
      rw [show task.pc = _ from told] at unended
      cases unended
  | never =>
      rw [planned] at told
      rcases never_told told move with ⟨pc, tasks, later, same⟩
      refine ⟨pc, tasks, counted.route, ?_, ?_⟩
      · rw [planned, answersTo_snoc]
        exact later
      · intro _ cloned route counter
        rw [grown, if_pos (move_mover move), same, sub_self, add_zero,
          counted.added going (cloned_before cloned), planned]
        rfl
  | cached expiresAfter =>
      rw [planned] at told
      rcases move_told told strange move with ⟨pc, tasks, later⟩
      refine ⟨pc, tasks, counted.route, ?_, ?_⟩
      · rw [planned, answersTo_snoc, filledBy_snoc]
        exact later
      · intro onward cloned route counter
        have caching : task.pc ≠ .neverFetch := by
          intro stage
          rw [stage] at told
          exact told
        rcases move_tally move caching (cloned action (by simp)) with ⟨other, again, tallied⟩
        obtain rfl := moved_pc present tasks again
        rw [grown, if_pos (move_mover move), tallied onward, counted.route,
          counted.added going (cloned_before cloned), planned]
        simp only [tally]
        split <;> ring
  | panicked =>
      rw [planned] at told
      have unended := move_unended move
      rw [show task.pc = _ from told] at unended
      cases unended

def Request.opened (request : Request T) (expiresAfter : Option Instant) (pc : Pc) : Task :=
  ⟨request.cache.hostKey, request.path, request.now,
    routeLabel (request.cache.rules.matchRoute request.path).2, expiresAfter, pc⟩

theorem opened_route (expiresAfter : Option Instant) (pc : Pc) :
    (request.opened expiresAfter pc).route = request.route := rfl

def State.begun (state : State) (task : Task) : State :=
  { state with tasks := state.tasks ++ [task] }.countRoute task CacheRouteMetrics.requested

structure StartCounted (state : State) (request : Request T) (id : TaskId) (task : Task)
    (next : State) : Prop where
  tasks : next.tasks = state.tasks ++ [task]
  route : task.route = request.route
  told : Told request.plan [] false id task.pc
  added : ∀ route counter, next.counter route counter - state.counter route counter =
    if route = request.route then (requested counter + tally request.plan id task.pc counter : Int)
    else 0

theorem start_once (expiresAfter : Option Instant) (pc : Pc)
    (told : Told request.plan [] false id pc) (nothing : tally request.plan id pc = fun _ => 0) :
    StartCounted state request id (request.opened expiresAfter pc)
      (state.begun (request.opened expiresAfter pc)) := by
  refine ⟨rfl, rfl, told, ?_⟩
  intro route counter
  rw [State.begun, counter_counted requested_adds, opened_route,
    show (request.opened expiresAfter pc).pc = pc from rfl, nothing]
  change State.counter route counter state + _ - State.counter route counter state = _
  rw [add_sub_cancel_left, Nat.cast_zero, add_zero]

theorem start_settled {change : CacheRouteMetrics → CacheRouteMetrics} (pc : Pc)
    (told : Told request.plan [] false id pc) (adds : Adds change (tally request.plan id pc)) :
    StartCounted state request id (request.opened none pc)
      ((state.begun (request.opened none pc)).countRoute (request.opened none pc) change) := by
  refine ⟨rfl, rfl, told, ?_⟩
  intro route counter
  rw [counter_counted adds, State.begun, counter_counted requested_adds, opened_route]
  change State.counter route counter state + _ + _ - State.counter route counter state = _
  rw [add_assoc, add_sub_cancel_left]
  by_cases own : route = request.route
  · rw [if_pos own, if_pos own, if_pos own]
    rfl
  · rw [if_neg own, if_neg own, if_neg own, add_zero]

theorem start_counted (state : State) (request : Request T) (id : TaskId) :
    ∃ task, StartCounted state request id task
      (state.start request.cache request.path request.now) := by
  cases planned : plan (request.cache.rules.matchRoute request.path).1 request.now with
  | unrouted =>
      have same : request.plan = .unrouted := planned
      simp only [State.start, planned]
      exact ⟨_, start_settled (.finished (.ok none)) (by rw [same]; rfl)
        (by rw [same]; exact outcome_adds .unrouted 0)⟩
  | never =>
      have same : request.plan = .never := planned
      simp only [State.start, planned]
      exact ⟨_, start_settled .neverFetch (by rw [same]; rfl)
        (by rw [same]; exact outcome_adds .never 0)⟩
  | cached expiresAfter =>
      have same : request.plan = .cached expiresAfter := planned
      simp only [State.start, planned]
      exact ⟨_, start_once expiresAfter .lookupLock (by rw [same]; exact ⟨rfl, rfl⟩)
        (by rw [same]; rfl)⟩
  | panicked =>
      have same : request.plan = .panicked := planned
      simp only [State.start, planned]
      exact ⟨_, start_once none .panicked (by rw [same]; rfl) (by rw [same]; rfl)⟩

theorem classified_start {slots : Nat} {positive : 0 < slots}
    (reached : Transition.run step (initial capacity slots positive) actions = some state)
    (classified : Classified (initial capacity slots positive) actions state) (request : Request T) :
    Classified (initial capacity slots positive)
      (actions ++ [.start request.cache request.path request.now])
      (state.start request.cache request.path request.now) := by
  have taken : step state (.start request.cache request.path request.now) =
      some (state.start request.cache request.path request.now) := rfl
  have mover : (Action.start request.cache request.path request.now).mover state =
      state.tasks.length := rfl
  have count := (run_count reached).symm
  rcases start_counted state request state.tasks.length with ⟨fresh, started⟩
  refine ⟨?_, ?_, ?_⟩
  · intro id task other present asked
    rw [started.tasks] at present
    rw [requests, List.filterMap_append] at asked
    rcases Arena.get_append_cases present with old | ⟨rfl, rfl⟩
    · have earlier : (requests actions)[id]? = some other := by
        have inside := Arena.get_lt old
        rw [List.getElem?_append_left (by rw [← requests, count]; exact inside)] at asked
        exact asked
      exact counted_other reached taken (Arena.get_lt old).ne'
        (classified.gets id task other old earlier)
    · have same : request = other := by
        rw [← requests, ← count] at asked
        exact Option.some.inj ((Arena.get_append_new _ _).symm.trans asked)
      subst other
      rcases classified.unborn state.tasks.length le_rfl with ⟨silent, empty, nothing⟩
      refine ⟨started.route, ?_, ?_⟩
      · rw [answersTo_snoc, filledBy_snoc, silent, empty]
        exact started.told
      · intro _ _ route counter
        rw [added_snoc reached taken, if_pos mover, nothing, zero_add]
        exact started.added route counter
  · intro cell resource filled
    rw [filledBy_snoc]
    have slots : (state.start request.cache request.path request.now).slots = state.slots := by
      rcases start_started state request.cache request.path request.now with ⟨_, begun⟩
      exact begun.slots
    rw [State.cellAt, slots] at filled
    rw [classified.cells cell resource filled, Bool.true_or]
  · intro id beyond
    rw [started.tasks, List.length_append, List.length_singleton] at beyond
    rcases classified.unborn id (by omega) with ⟨silent, empty, nothing⟩
    refine ⟨?_, ?_, ?_⟩
    · rw [answersTo_snoc, silent]
      rfl
    · rw [filledBy_snoc, empty]
      rfl
    · intro route counter
      have other : state.tasks.length ≠ id := by omega
      rw [added_snoc reached taken, mover, if_neg other, nothing, add_zero]

theorem classified_move (reached : Transition.run step start actions = some state)
    (classified : Classified start actions state) (present : state.tasks[id]? = some task)
    (move : Move state id task action next) : Classified start (actions ++ [action]) next := by
  have taken := move_taken present move
  have asks : requests (actions ++ [action]) = requests actions := by
    simp [requests, move_request move]
  rcases move_task move with ⟨pc, tasks⟩
  refine ⟨?_, ?_, ?_⟩
  · intro other found request after asked
    rw [asks] at asked
    rcases task_after present tasks after with ⟨rfl, rfl⟩ | ⟨different, before⟩
    · have counted := classified.gets other task request present asked
      have strange : ∀ cell resource, state.cellAt cell = some (.filled resource) →
          resource.id = other → filledBy actions other = true := by
        rintro cell resource filled rfl
        exact classified.cells cell resource filled
      rcases counted_own reached present strange counted move with ⟨again, same, later⟩
      obtain rfl := moved_pc present tasks same
      exact later
    · have counted := classified.gets other found request before asked
      have mover : action.mover state ≠ other := by
        rw [move_mover move]
        exact different.symm
      exact counted_other reached taken mover counted
  · intro cell resource filled
    rw [filledBy_snoc]
    rcases move_filled move filled with old | ⟨fetched, reservation, clock, rfl, stage, rfl⟩
    · rw [classified.cells cell resource old, Bool.true_or]
    · exact (Bool.or_eq_true _ _).mpr (Or.inr (decide_eq_true rfl))
  · intro other beyond
    rw [tasks, List.length_set] at beyond
    have mover : action.mover state ≠ other := by
      rw [move_mover move]
      exact (Nat.lt_of_lt_of_le (Arena.get_lt present) beyond).ne
    rcases classified.unborn other beyond with ⟨silent, empty, nothing⟩
    refine ⟨?_, ?_, ?_⟩
    · rw [answersTo_snoc, silent, answerTo_other mover]
      rfl
    · rw [filledBy_snoc, empty, decide_eq_false (fills_other mover)]
      rfl
    · intro route counter
      rw [added_snoc reached taken, if_neg mover, nothing, add_zero]

theorem run_classified {slots : Nat} {positive : 0 < slots}
    (reached : Transition.run step (initial capacity slots positive) actions = some state) :
    Classified (initial capacity slots positive) actions state := by
  refine Transition.run_induction (Classified (initial capacity slots positive)) ?_ ?_ reached
  · refine ⟨?_, ?_, ?_⟩
    · intro id task request present
      simp [initial] at present
    · intro cell resource filled
      simp [initial, State.cellAt] at filled
    · intro id _
      exact ⟨rfl, rfl, fun _ _ => rfl⟩
  · intro actions state action next earlier before taken
    rcases step_moves taken with ⟨cache, path, now, rfl, rfl⟩ | ⟨id, task, present, move⟩
    · exact classified_start earlier before ⟨cache, path, now⟩
    · exact classified_move earlier before present move

theorem movers_started {slots : Nat} {positive : 0 < slots}
    (reached : Transition.run step (initial capacity slots positive) actions = some state) :
    Transition.Along step (fun middle action => action.mover middle ∈ Finset.range state.tasks.length)
      (initial capacity slots positive) actions := by
  intro before action after middle split earlier
  have count : state.tasks.length = middle.tasks.length + (requests (action :: after)).length := by
    rw [run_count reached, run_count earlier, split, requests, List.filterMap_append,
      List.length_append]
    rfl
  rw [split, Transition.run_append, earlier, Option.bind_some] at reached
  rcases Option.bind_eq_some_iff.mp reached with ⟨next, taken, -⟩
  rw [Finset.mem_range, count]
  rcases step_moves taken with ⟨cache, path, now, rfl, rfl⟩ | ⟨id, task, present, move⟩
  · exact Nat.lt_add_of_pos_right (Nat.succ_pos _)
  · rw [move_mover move]
    exact Nat.lt_add_right _ (Arena.get_lt present)

/-- Each counter is the sum of what the gets have added to it. -/
theorem counters_shared {slots : Nat} {positive : 0 < slots}
    (reached : Transition.run step (initial capacity slots positive) actions = some state)
    (route : Route) (counter : Counter) : ∑ id ∈ Finset.range state.tasks.length,
      added (initial capacity slots positive) actions id route counter =
        state.counter route counter := by
  have zero : State.counter route counter (initial capacity slots positive) = 0 := by
    cases counter <;> rfl
  calc
    ∑ id ∈ Finset.range state.tasks.length,
        added (initial capacity slots positive) actions id route counter =
          state.counter route counter -
            State.counter route counter (initial capacity slots positive) :=
      Transition.shares_sum reached (movers_started reached)
    _ = state.counter route counter := by rw [zero, sub_zero]

/-- The outcome that the documentation gives a get, by its rule, what the upstream told it,
whether it filled its cell, and what it returned. -/
def documented (rule : CacheRouteRule) (answers : List Answer) (filled : Bool)
    (result : Except UpstreamError (Option CachedResourceResponse)) : RequestOutcome :=
  match rule with
  | .disabled => .unrouted
  | .enabled ⟨maxAge⟩ =>
      if .ok none ∈ answers then .notFound
      else match result, maxAge with
        | .error _, _ => .failed
        | .ok _, .cacheNever => .never
        | .ok _, _ => if filled then .miss else .hit

def servedBytes : Except UpstreamError (Option CachedResourceResponse) → Nat
  | .ok (some response) => responseBytes response
  | _ => 0

/-- The get has added one request, and its documented outcome, to the counters of its route
and to no others. -/
def CountedAsDocumented (start : State) (actions : List (Action T)) (id : TaskId)
    (request : Request T) (result : Except UpstreamError (Option CachedResourceResponse)) : Prop :=
  ∀ route counter, added start actions id route counter = if route = request.route then
    (requested counter + (documented request.rule (answersTo actions id) (filledBy actions id)
      result).bumps (servedBytes result) counter : Int) else 0

omit [PathTree T] in
theorem caching_documented {answers : List Answer} {filled : Bool} {maxAge : CacheMaxAgeRule}
    {result : Except UpstreamError (Option CachedResourceResponse)} (caching : maxAge ≠ .cacheNever)
    (told : PcTold answers filled id (.finished result)) :
    (Pc.finished result).tally id =
      (documented (.enabled ⟨maxAge⟩) answers filled result).bumps (servedBytes result) := by
  match result with
  | .error failure =>
      have answered : .ok none ∉ answers := told
      simp only [documented, if_neg answered]
      rfl
  | .ok none =>
      have answered : .ok none ∈ answers := told
      simp only [documented, if_pos answered]
      rfl
  | .ok (some response) =>
      have answered : .ok none ∉ answers := told.1
      have outcome : documented (.enabled ⟨maxAge⟩) answers filled (.ok (some response)) =
          responseOutcome response := by
        rw [told.2]
        cases maxAge with
        | cacheNever => exact absurd rfl caching
        | cacheForever => simp only [documented, if_neg answered]
        | cacheFor duration => simp only [documented, if_neg answered]
      rw [outcome]
      rfl

omit [PathTree T] in
theorem never_documented (answer : Answer) (filled : Bool) :
    (∀ counter, RequestOutcome.never.bumps 0 counter =
      (documented (.enabled ⟨.cacheNever⟩) [answer] filled
        (answer.map fun found => found.map passedOn)).bumps
          (servedBytes (answer.map fun found => found.map passedOn)) counter) ↔
      ∃ resource, answer = .ok (some resource) := by
  match answer with
  | .error failure =>
      refine iff_of_false ?_ (by simp)
      intro same
      have nevers := same .nevers
      simp [documented, Except.map, RequestOutcome.bumps] at nevers
  | .ok none =>
      refine iff_of_false ?_ (by simp)
      intro same
      have nevers := same .nevers
      simp [documented, RequestOutcome.bumps] at nevers
  | .ok (some resource) =>
      refine iff_of_true ?_ ⟨resource, rfl⟩
      intro counter
      simp [documented, Except.map, servedBytes, passedOn, responseBytes]

/-- Every finished get is counted as documented, but those under `CacheNever` that the
upstream gave no resource. -/
theorem requests_classified {slots : Nat} {positive : 0 < slots}
    {result : Except UpstreamError (Option CachedResourceResponse)}
    (reached : Transition.run step (initial capacity slots positive) actions = some state)
    (present : state.tasks[id]? = some task) (finished : task.pc = .finished result)
    (asked : (requests actions)[id]? = some request)
    (cloned : ∀ message, .respond id (some message) ∉ actions) :
    CountedAsDocumented (initial capacity slots positive) actions id request result ↔
      (request.rule = .enabled ⟨.cacheNever⟩ →
        ∃ resource, .answer id (.ok (some resource)) ∈ actions) := by
  have counted := (run_classified reached).gets id task request present asked
  have whole : ∀ action ∈ actions, Cloned id action := by
    rintro action member message rfl
    exact cloned message member
  have share := counted.added (by rw [finished]; exact Pc.noConfusion) whole
  have told := counted.told
  rw [finished] at share told
  have documents : CountedAsDocumented (initial capacity slots positive) actions id request result ↔
      ∀ counter, tally request.plan id (.finished result) counter =
        (documented request.rule (answersTo actions id) (filledBy actions id) result).bumps
          (servedBytes result) counter := by
    constructor
    · intro same counter
      have own := (share request.route counter).symm.trans (same request.route counter)
      rw [if_pos rfl, if_pos rfl] at own
      exact Int.ofNat.inj (add_left_cancel own)
    · intro same route counter
      rw [share route counter, same counter]
  rw [documents]
  cases ruled : request.rule with
  | disabled =>
      have planned : request.plan = .unrouted := by rw [Request.plan, ruled]; rfl
      rw [planned] at told ⊢
      obtain rfl : result = .ok none := Pc.finished.inj told
      exact iff_of_true (fun _ => rfl) nofun
  | enabled enabled =>
      obtain ⟨maxAge⟩ := enabled
      by_cases never : maxAge = .cacheNever
      · subst never
        have planned : request.plan = .never := by rw [Request.plan, ruled]; rfl
        rw [planned] at told ⊢
        rcases told with ⟨answer, answers, rfl⟩
        have given : (∃ resource, .answer id (.ok (some resource)) ∈ actions) ↔
            ∃ resource, answer = .ok (some resource) := by
          simp only [← mem_answersTo, answers, List.mem_singleton, eq_comm]
        rw [answers, given, imp_iff_right rfl]
        exact never_documented answer _
      · have caches : ∃ expiresAfter, request.plan = .cached expiresAfter := by
          cases planned : request.plan with
          | cached expiresAfter => exact ⟨expiresAfter, rfl⟩
          | panicked =>
              rw [planned] at told
              cases told
          | unrouted | never =>
              rw [Request.plan, ruled] at planned
              cases maxAge <;> simp [plan] at planned never
              split at planned <;> cases planned
        rcases caches with ⟨expiresAfter, planned⟩
        rw [planned] at told ⊢
        refine iff_of_true ?_ ?_
        · intro counter
          rw [← caching_documented never told]
          rfl
        · intro same
          exact absurd (by simpa using same) never

end Gets

def neverCache : Cache LiteralTree := ⟨"files", CacheRoutes.new (.enabled ⟨.cacheNever⟩)⟩

/-- A get under `CacheNever` whose resource is not there. -/
def missingActions : List (Action LiteralTree) :=
  [.start neverCache "/a" epoch, .answer 0 (.ok none)]

theorem missing_counted_never :
    ∃ state task, Transition.run step (initial 10 2 (by decide)) missingActions = some state ∧
      state.tasks[0]? = some task ∧ task.pc = .finished (.ok none) ∧
      (state.metrics.route "files" "**").notFoundCount = 0 ∧
      (state.metrics.route "files" "**").neverCount = 1 ∧
      ¬ CountedAsDocumented (initial 10 2 (by decide)) missingActions 0 ⟨neverCache, "/a", epoch⟩
        (.ok none) := by
  refine ⟨_, _, rfl, rfl, rfl, rfl, rfl, ?_⟩
  intro counted
  have notFounds := counted ("files", "**") .notFounds
  revert notFounds
  decide

/-- A get is served what another has fetched. -/
def sharedActions : List (Action LiteralTree) :=
  fetchActions plainCache "/a" epoch 0 (plainBody [1, 2]) ++ fillActions 0 ⟨epoch, ⟨0⟩⟩ ++
    respondActions 0 ++ [.start plainCache "/a" epoch, .acquire 1, .lookup 1, .join 1] ++
    respondActions 1

theorem requests_classified_hit :
    documented (.enabled ⟨.cacheForever⟩) (answersTo sharedActions 1) (filledBy sharedActions 1)
        (.ok (some ⟨⟨some "text/plain"⟩, .file ⟨[1, 2], by decide⟩, .hit, none⟩)) = .hit ∧
      CountedAsDocumented (initial 10 2 (by decide)) sharedActions 1 ⟨plainCache, "/a", epoch⟩
        (.ok (some ⟨⟨some "text/plain"⟩, .file ⟨[1, 2], by decide⟩, .hit, none⟩)) := by
  have shape : ((Transition.run step (initial 10 2 (by decide)) sharedActions).bind
      fun state => (state.tasks[1]?).map Task.pc) =
        some (.finished
          (.ok (some ⟨⟨some "text/plain"⟩, .file ⟨[1, 2], by decide⟩, .hit, none⟩))) := rfl
  rcases Option.bind_eq_some_iff.mp shape with ⟨state, reached, ended⟩
  rcases Option.map_eq_some_iff.mp ended with ⟨task, present, finished⟩
  refine ⟨rfl, (requests_classified reached present finished rfl ?_).mpr ?_⟩
  · simp [sharedActions, fetchActions, fillActions, respondActions]
  · intro never
    cases never

end Server3.Machine
