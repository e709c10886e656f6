import Server3.Service

/-! What explains the response to a request, and how requests are counted. -/

namespace Server3.Machine

open Routes Upstream Resource

section Requested

variable {T : Type → Type} {state next : State} {id : TaskId} {task : Task} {action : Action T}
  {actions : List (Action T)} {route : Route}

theorem bumps_requests (bytes : Nat) (outcome : RequestOutcome) :
    outcome.bumps bytes .requests = 0 := by
  cases outcome <;> rfl

theorem tally_requests (plan : Plan) (id : TaskId) (pc : Pc) : tally plan id pc .requests = 0 := by
  cases plan with
  | unrouted => exact bumps_requests 0 .unrouted
  | never => exact bumps_requests 0 .never
  | panicked => rfl
  | cached expiresAfter =>
      cases pc with
      | finished result =>
          cases result with
          | error failure => exact bumps_requests 0 .failed
          | ok found =>
              cases found with
              | none => exact bumps_requests 0 .notFound
              | some response => exact bumps_requests _ (responseOutcome response)
      | cloning cell resource => exact bumps_requests _ (servedOutcome resource id)
      | _ => rfl

theorem unrequested {change : CacheRouteMetrics → CacheRouteMetrics} {amount : Counter → Nat}
    (adds : Adds change amount) (nothing : amount .requests = 0)
    (counted : next.metrics.route = (state.countRoute task change).metrics.route) :
    next.counter route .requests = state.counter route .requests := by
  rw [counter_same counted, counter_counted adds, nothing]
  simp

theorem move_requests (move : Move state id task action next) :
    next.counter route .requests = state.counter route .requests := by
  cases move with
  | lookup stage => exact counter_same (releaseOption_route _)
  | answerNone cell stage => exact unrequested (outcome_adds .notFound 0) rfl (State.release_route _ _)
  | answerError cell failure stage =>
      exact unrequested (outcome_adds .failed 0) rfl (State.release_route _ _)
  | storeError cell resource diskError failure stage stored =>
      exact unrequested (outcome_adds .failed 0) rfl (State.release_route _ _)
  | evict cell fetched victim stage =>
      exact counter_same ((State.release_route _ _).trans (evictionMetrics_route victim))
  | count cell resource stage =>
      exact unrequested (served_adds resource id) (bumps_requests _ _) rfl
  | respond | cancelJoined | cancelInit => exact counter_same (State.release_route _ _)
  | _ => exact counter_same rfl

variable [PathTree T]

theorem start_requests (state : State) (request : Request T) :
    (state.start request.cache request.path request.now).counter route .requests =
      state.counter route .requests + if route = request.route then 1 else 0 := by
  rcases start_counted state request state.tasks.length with ⟨task, counted⟩
  have grown := counted.added route .requests
  rw [tally_requests, requested, Nat.cast_one, Nat.cast_zero, add_zero] at grown
  omega

theorem unrouted_disabled {request : Request T} (planned : request.plan = .unrouted) :
    request.rule = .disabled := by
  cases ruled : request.rule with
  | disabled => rfl
  | enabled enabled =>
      obtain ⟨maxAge⟩ := enabled
      rw [Request.plan, ruled] at planned
      cases maxAge <;> simp [plan] at planned
      split at planned <;> cases planned

theorem step_requests (own : action.request = none) (taken : step state action = some next) :
    next.counter route .requests = state.counter route .requests := by
  rcases step_moves taken with ⟨cache, path, now, rfl, rfl⟩ | ⟨id, task, present, move⟩
  · cases own
  · exact move_requests move

theorem absent_told {capacity : UInt64} {slots : Nat} {positive : 0 < slots} {request : Request T}
    (reached : Transition.run step (initial capacity slots positive) actions = some state)
    (present : state.tasks[id]? = some task) (finished : task.pc = .finished (.ok none))
    (asked : (requests actions)[id]? = some request) :
    request.rule = .disabled ∨ .answer id (.ok none) ∈ actions := by
  have told := ((run_classified reached).gets id task request present asked).told
  rw [finished] at told
  cases planned : request.plan with
  | unrouted => exact Or.inl (unrouted_disabled planned)
  | panicked =>
      rw [planned] at told
      cases told
  | never =>
      rw [planned] at told
      rcases told with ⟨answer, answers, same⟩
      have absent : answer = .ok none := by
        cases answer with
        | error failure => cases same
        | ok found => cases found <;> cases same; rfl
      exact Or.inr (mem_answersTo.mp (by rw [answers, absent]; exact List.mem_singleton_self _))
  | cached expiresAfter =>
      rw [planned] at told
      exact Or.inr (mem_answersTo.mp told)

end Requested

end Server3.Machine

namespace Server3.Service

open Clock Server3.Configuration Routes Upstream Resource App
open Machine (TaskId Action Route Delivers Failed passedOn requests)

section Counters

variable {U : Type} {T : Type → Type} [PathTree T]

/-- The labels that a request was counted with in `http_requests_total`. -/
def Exchange.labels (app : AppState U T) (exchange : Exchange) : Option Labels :=
  match exchange.place with
  | .answered response => some (labelsOf app exchange response)
  | _ => none

def Exchange.route (app : AppState U T) (exchange : Exchange) : Option Route :=
  match exchange.get, app.select exchange.headers with
  | some _, .ok cache =>
      some (cache.hostKey, routeLabel (cache.rules.matchRoute exchange.path).2)
  | _, _ => none

/-- Each answered request is counted once, with the labels of its response, and each
request for which a cache was selected is counted once on its route there. -/
structure Accounted (app : AppState U T) (state : State) : Prop where
  total : ∀ labels, state.requestsTotal labels =
    state.exchanges.countP fun exchange => exchange.labels app = some labels
  started : ∀ route, state.cache.counter route .requests =
    (state.exchanges.countP fun exchange => exchange.route app = some route : Nat)

variable {app : AppState U T} {showTimestamp : Timestamp → String} {metadata : MetadataConfig}
  {state next : State} {exchange : Exchange} {place : Place} {index : Nat}

theorem settle_started (present : state.exchanges[index]? = some exchange) (route : Route) :
    (state.settle index exchange place).exchanges.countP (fun found => found.route app = some route) =
      state.exchanges.countP fun found => found.route app = some route := by
  have among := List.mem_of_getElem? present
  rw [settle_counted present]
  change _ - (if decide (exchange.route app = some route) then 1 else 0) +
    (if decide (exchange.route app = some route) then 1 else 0) = _
  by_cases own : exchange.route app = some route
  · have positive : 0 < state.exchanges.countP fun found => found.route app = some route :=
      List.countP_pos_iff.mpr ⟨exchange, among, by simpa using own⟩
    simp only [own, decide_true, if_true]
    omega
  · simp [own]

theorem settle_total (present : state.exchanges[index]? = some exchange)
    (waiting : exchange.place = .waiting) (labels : Labels) :
    (state.settle index exchange place).exchanges.countP
        (fun found => found.labels app = some labels) =
      (state.exchanges.countP fun found => found.labels app = some labels) +
        if { exchange with place := place }.labels app = some labels then 1 else 0 := by
  have uncounted : exchange.labels app = none := by rw [Exchange.labels, waiting]
  rw [settle_counted present]
  simp [uncounted]

theorem accounted_move {event : Event T} {more : Option (App.Event T)}
    (before : Accounted app state)
    (move : Moves app showTimestamp metadata state event more next) : Accounted app next := by
  cases move with
  | enter method headers path now cache allowed selected =>
      constructor
      · intro labels
        change state.requestsTotal labels = _
        simp [before.total, State.enter, Exchange.labels]
      · intro route
        have own : Exchange.route app ⟨method, headers, path, some state.cache.tasks.length,
            .waiting⟩ = some (Machine.Request.route ⟨cache.toCache, path, now⟩) := by
          rw [Exchange.route, selected]
          rfl
        rw [State.enter, Machine.start_requests state.cache ⟨cache.toCache, path, now⟩,
          before.started, List.countP_append, List.countP_singleton, own]
        simp [eq_comm]
  | refuse method headers path now response why =>
      constructor
      · intro labels
        simp [State.answerAtOnce, State.count, before.total, Exchange.labels, List.countP_singleton]
      · intro route
        change state.cache.counter route .requests = _
        simp [before.started, State.answerAtOnce, State.count, Exchange.route]
  | advance action own cache advances moved =>
      refine ⟨before.total, ?_⟩
      intro route
      exact (Machine.step_requests own moved).trans (before.started route)
  | reply index exchange id task result response waits ended made =>
      rcases waits_some waits with ⟨present, waiting, -⟩
      constructor
      · intro labels
        rw [State.count]
        change state.requestsTotal labels + _ = (state.settle index exchange _).exchanges.countP _
        rw [settle_total present waiting, before.total]
        simp only [Exchange.labels, Option.some.injEq]
        rfl
      · intro route
        exact (before.started route).trans (congrArg Nat.cast (settle_started present route).symm)
  | lose index exchange id task waits panicked =>
      rcases waits_some waits with ⟨present, waiting, -⟩
      constructor
      · intro labels
        change state.requestsTotal labels = _
        rw [settle_total present waiting, before.total]
        simp [Exchange.labels]
      · intro route
        exact (before.started route).trans (congrArg Nat.cast (settle_started present route).symm)
  | cancel index exchange id task cache waits moved =>
      rcases waits_some waits with ⟨present, waiting, -⟩
      constructor
      · intro labels
        change state.requestsTotal labels = (state.settle index exchange _).exchanges.countP _
        rw [settle_total present waiting, before.total]
        simp [Exchange.labels]
      · intro route
        refine (Machine.step_requests rfl moved).trans ((before.started route).trans ?_)
        exact congrArg Nat.cast (settle_started present route).symm

/-- In every run of the server the counters are those of the requests, whatever became
of them. -/
theorem requests_counted {capacity : UInt64} {slots : Nat} {positive : 0 < slots}
    {events : List (Event T)}
    (reached : Transition.run (step app showTimestamp metadata) (initial capacity slots positive)
      events = some state) : Accounted app state := by
  refine Transition.run_induction (fun (_ : List (Event T)) state => Accounted app state)
    ⟨fun _ => rfl, fun _ => rfl⟩ ?_ reached
  intro events state event next _ before taken
  rcases step_moves taken with ⟨more, move⟩
  exact accounted_move before move

/-- A page that the upstream does not have, and a method that is not routed. -/
def absentEvents : List (Event LiteralTree) :=
  [.arrive "GET" [] "/a" epoch, .advance (.acquire 0), .advance (.lookup 0), .advance (.join 0),
    .arrive "POST" [] "/a" epoch, .advance (.answer 0 (.ok none)), .reply 0]

def nothingShown : MetadataConfig := ⟨false, false, none⟩

theorem requests_counted_absent :
    ∃ (app : AppState UpstreamConfig LiteralTree) (state : State),
      mainState some (twoBuckets "files") = some app ∧
      state.requestsTotal ⟨"**", "**", "GET", 404⟩ = 1 ∧
      state.requestsTotal ⟨"**", "**", "POST", 405⟩ = 1 ∧ Accounted app state := by
  have run : ∃ app : AppState UpstreamConfig LiteralTree,
      mainState some (twoBuckets "files") = some app ∧
      ∃ state, Transition.run (step app (fun _ => "") nothingShown)
          (initial 10 2 (by decide)) absentEvents = some state ∧
        state.requestsTotal ⟨"**", "**", "GET", 404⟩ = 1 ∧
        state.requestsTotal ⟨"**", "**", "POST", 405⟩ = 1 :=
    ⟨_, rfl, _, rfl, rfl, rfl⟩
  rcases run with ⟨app, accepted, state, reached, missing, refused⟩
  exact ⟨app, state, accepted, missing, refused, requests_counted reached⟩

end Counters

section Explanations

variable {U : Type} {T : Type → Type} [PathTree T]

def stepsOf (events : List (Event T)) : List (Action T) :=
  events.filterMap fun event =>
    match event with
    | .advance action => some action
    | _ => none

/-- What explains a response to a request whose method is routed. -/
inductive Explained (app : AppState U T) (showTimestamp : Timestamp → String)
    (metadata : MetadataConfig) (events : List (Event T)) (state : State) (exchange : Exchange) :
    Response → Prop where
  | refused (error : AppError) (why : app.select exchange.headers = .error error) :
      Explained app showTimestamp metadata events state exchange
        (RequestError.refused error).intoResponse
  | disabled (cache : HostCache U T) (selected : app.select exchange.headers = .ok cache)
      (rule : (cache.rules.matchRoute exchange.path).1 = .disabled) :
      Explained app showTimestamp metadata events state exchange
        (RequestError.notFound exchange.path).intoResponse
  | absent (id : TaskId) (own : exchange.get = some id)
      (answered : .advance (.answer id (.ok none)) ∈ events) :
      Explained app showTimestamp metadata events state exchange
        (RequestError.notFound exchange.path).intoResponse
  | failed (id : TaskId) (failure : UpstreamError) (own : exchange.get = some id)
      (why : Failed (stepsOf events) id failure) :
      Explained app showTimestamp metadata events state exchange
        (RequestError.upstream failure).intoResponse
  | passed (id : TaskId) (resource : UpstreamResource) (own : exchange.get = some id)
      (answered : .advance (.answer id (.ok (some resource))) ∈ events) :
      Explained app showTimestamp metadata events state exchange
        (annotate showTimestamp metadata (passedOn resource))
  | served (cache : HostCache U T) (found : CachedResourceResponse) (other : Exchange)
      (source : TaskId) (resource : UpstreamResource)
      (selected : app.select exchange.headers = .ok cache) (member : other ∈ state.exchanges)
      (asked : other.get = some source) (same : app.select other.headers = .ok cache)
      (path : other.path = exchange.path)
      (answered : .advance (.answer source (.ok (some resource))) ∈ events)
      (delivers : Delivers found resource) :
      Explained app showTimestamp metadata events state exchange
        (annotate showTimestamp metadata found)

variable {build : UpstreamConfig → Option U} {config : Config} {app : AppState U T}
  {showTimestamp : Timestamp → String} {metadata : MetadataConfig} {start : Machine.State}
  {state : State} {events : List (Event T)} {inner : List (App.Event T)} {exchange : Exchange}
  {id : TaskId}

omit [PathTree T] in
theorem mem_stepsOf {action : Action T} : action ∈ stepsOf events ↔ .advance action ∈ events := by
  rw [stepsOf, List.mem_filterMap]
  constructor
  · rintro ⟨event, member, same⟩
    cases event with
    | advance other =>
        cases same
        exact member
    | _ => cases same
  · intro member
    exact ⟨_, member, rfl⟩

theorem traced_failed {failure : UpstreamError}
    (traced : Traced app showTimestamp metadata start events state inner)
    (failed : Failed (actionsOf app inner) id failure) : Failed (stepsOf events) id failure := by
  cases failed with
  | answered failure member =>
      exact .answered failure (mem_stepsOf.mpr ((traced.steps _ rfl).mp member))
  | stored resource diskError failure member attempted refused =>
      exact .stored resource diskError failure (mem_stepsOf.mpr ((traced.steps _ rfl).mp member))
        (mem_stepsOf.mpr ((traced.steps _ rfl).mp attempted)) refused
  | cloned message member =>
      exact .cloned message (mem_stepsOf.mpr ((traced.steps _ rfl).mp member))

/-- Every response of the server has its explanation: the method, the host, the route, or
the answer of the upstream of the selected cache to a get of the same path, of this or of
another request. -/
theorem responses_explained (accepted : mainState build config = some app)
    (apart : ¬ Collides T config) {capacity : UInt64} {slots : Nat} {positive : 0 < slots}
    (reached : Transition.run (step app showTimestamp metadata) (initial capacity slots positive)
      events = some state) :
    ∀ exchange ∈ state.exchanges, ∀ response, exchange.place = .answered response →
      (routed exchange.method = false ∧ response = methodNotAllowed) ∨
        (routed exchange.method = true ∧ ∃ made,
          Explained app showTimestamp metadata events state exchange made ∧
            response = made.forMethod exchange.method) := by
  intro exchange member response answered
  rcases run_traced reached with ⟨inner, traced⟩
  cases traced.answered exchange member response answered with
  | atOnce alone why =>
      rcases why with refused | ⟨allowed, error, selected, made⟩
      · exact Or.inl refused
      · exact Or.inr ⟨allowed, _, .refused error selected, made⟩
  | ended id task result own present finished made =>
      rcases traced.asked exchange member id own with
        ⟨allowed, cache, owner, request, selected, owned, cached, asked, same, path⟩
      refine Or.inr ⟨allowed, _, ?_, made⟩
      have ran := (run_actions app _ _).symm.trans traced.reached
      have origins := Machine.run_origins ran
      cases result with
      | error failure =>
          exact .failed id failure own (traced_failed traced
            (Machine.run_failed ran id task failure present finished))
      | ok found =>
          cases found with
          | none =>
              rcases Machine.absent_told ran present finished asked with rule | given
              · rw [Machine.Request.rule, same, path] at rule
                exact .disabled cache selected rule
              · exact .absent id own ((traced.steps _ rfl).mp given)
          | some found =>
              by_cases never : found.outcome = .never
              · rcases origins.passed id task found present finished never with
                  ⟨resource, given, rfl⟩
                exact .passed id resource own ((traced.steps _ rfl).mp given)
              · rcases origins.served id task found present finished never with
                  ⟨file, body, source, caching, resource, given, whole, headers, content⟩
                have ownCaching := origins.tasks id task present (by
                  rw [finished]
                  simpa [Machine.Pc.caches] using never)
                rcases Machine.task_request ran present with ⟨again, askedAgain, key, -⟩
                obtain rfl : request = again := Option.some.inj (asked.symm.trans askedAgain)
                rw [← key] at caching ownCaching
                rcases source_exchange accepted apart traced owned cached ownCaching caching with
                  ⟨other, otherMember, otherOwn, otherSelected, otherPath⟩
                exact .served cache found other source resource selected otherMember otherOwn
                  otherSelected (otherPath.trans path) ((traced.steps _ rfl).mp given)
                  (Machine.delivers_of_answered headers whole body content)

theorem responses_explained_absent :
    ∃ (app : AppState UpstreamConfig LiteralTree) (state : State) (made : Response),
      mainState some (twoBuckets "files") = some app ∧ made.status = 404 ∧
      Explained app (fun _ => "") nothingShown absentEvents state
        ⟨"GET", [], "/a", some 0, .answered made⟩ made := by
  have run : ∃ app : AppState UpstreamConfig LiteralTree,
      mainState some (twoBuckets "files") = some app ∧
      ∃ state, Transition.run (step app (fun _ => "") nothingShown)
          (initial 10 2 (by decide)) absentEvents = some state ∧
        ⟨"GET", [], "/a", some 0, .answered (RequestError.notFound "/a").intoResponse⟩ ∈
          state.exchanges :=
    ⟨_, rfl, _, rfl, List.mem_cons_self⟩
  rcases run with ⟨app, accepted, state, reached, member⟩
  have apart : ¬ Collides LiteralTree (twoBuckets "files") := by
    rintro ⟨-, hostConfig, configured, -⟩
    cases configured
  rcases responses_explained accepted apart reached _ member _ rfl with
    ⟨refused, -⟩ | ⟨-, made, explained, same⟩
  · cases refused
  · obtain rfl : (RequestError.notFound "/a").intoResponse = made := same
    exact ⟨app, state, _, accepted, rfl, explained⟩

end Explanations

end Server3.Service
