import Server3.Isolation
import Server3.Response
import Server3.Transparency

/-! The server: requests arrive, wait for their gets, are answered and counted, or are given
up by their clients, while the gets take their steps in any order. -/

namespace Server3.Service

open Clock Server3.Configuration Routes Upstream Resource App
open Machine (TaskId Action)

/-- Where a request is: in `Cache::get`, answered, or given up. -/
inductive Place where
  | waiting
  | answered (response : Response)
  | gone
  deriving DecidableEq

structure Exchange where
  method : String
  headers : HeaderMap
  path : String
  get : Option TaskId
  place : Place

structure Labels where
  host : String
  path : String
  method : String
  status : Nat
  deriving DecidableEq

structure State where
  cache : Machine.State
  exchanges : List Exchange
  requestsTotal : Labels → Nat

/-- A request that arrives, a step of a get, the answer to a request whose get has ended,
and the loss of its client. -/
inductive Event (T : Type → Type) where
  | arrive (method : String) (headers : HeaderMap) (path : String) (now : Instant)
  | advance (action : Action T)
  | reply (index : Nat)
  | disconnect (index : Nat)

def initial (capacity : UInt64) (slots : Nat) (positive : 0 < slots) : State where
  cache := Machine.initial capacity slots positive
  exchanges := []
  requestsTotal := fun _ => 0

section Steps

variable {U : Type} {T : Type → Type} [PathTree T] (app : AppState U T)
  (showTimestamp : Timestamp → String) (metadata : MetadataConfig)

/-- The labels that `request_metrics_middleware` counts a response with. -/
def labelsOf (exchange : Exchange) (response : Response) : Labels :=
  let labels := app.requestLabels exchange.headers exchange.path
  ⟨labels.1, labels.2, exchange.method, response.status⟩

def State.count (state : State) (labels : Labels) : State :=
  { state with requestsTotal := fun other =>
      state.requestsTotal other + if labels = other then 1 else 0 }

/-- A request that no get is started for. -/
def State.answerAtOnce (state : State) (method : String) (headers : HeaderMap) (path : String)
    (response : Response) : State :=
  let exchange : Exchange := ⟨method, headers, path, none, .answered response⟩
  { state with exchanges := state.exchanges ++ [exchange] }.count (labelsOf app exchange response)

def State.enter (state : State) (method : String) (headers : HeaderMap) (path : String)
    (now : Instant) (cache : HostCache U T) : State :=
  { state with
    cache := state.cache.start cache.toCache path now
    exchanges := state.exchanges ++
      [⟨method, headers, path, some state.cache.tasks.length, .waiting⟩] }

/-- A request with a method that is not routed, or for which no cache is selected, is
answered at once. The others wait for their gets. -/
def State.arrive (state : State) (method : String) (headers : HeaderMap) (path : String)
    (now : Instant) : State :=
  if routed method then
    match app.select headers with
    | .ok cache => state.enter method headers path now cache
    | .error refused => state.answerAtOnce app method headers path
        ((RequestError.refused refused).intoResponse.forMethod method)
  else state.answerAtOnce app method headers path methodNotAllowed

def State.waits (state : State) (index : Nat) : Option (Exchange × TaskId × Machine.Task) :=
  (state.exchanges[index]?).bind fun exchange =>
    match exchange.place, exchange.get with
    | .waiting, some id => (state.cache.tasks[id]?).map fun task => (exchange, id, task)
    | _, _ => none

def State.settle (state : State) (index : Nat) (exchange : Exchange) (place : Place) : State :=
  { state with exchanges := state.exchanges.set index { exchange with place := place } }

def State.reply (state : State) (index : Nat) : Option State :=
  (state.waits index).bind fun (exchange, _, task) =>
    match task.pc with
    | .finished result =>
        let response :=
          (getResource showTimestamp metadata exchange.path result).forMethod exchange.method
        some ((state.settle index exchange (.answered response)).count
          (labelsOf app exchange response))
    | _ => none

/-- The get is dropped with its request. One that panicked has taken its connection with it. -/
def State.disconnect (T : Type → Type) [PathTree T] (state : State) (index : Nat) :
    Option State :=
  (state.waits index).bind fun (exchange, id, task) =>
    match task.pc with
    | .panicked => some (state.settle index exchange .gone)
    | _ => (Machine.step state.cache (.cancel id : Action T)).map fun cache =>
        { state.settle index exchange .gone with cache := cache }

def step (state : State) : Event T → Option State
  | .arrive method headers path now => some (state.arrive app method headers path now)
  | .advance action =>
      if action.advances.isSome then
        (Machine.step state.cache action).map fun cache => { state with cache := cache }
      else none
  | .reply index => state.reply app showTimestamp metadata index
  | .disconnect index => state.disconnect T index

end Steps

section Moves

variable {U : Type} {T : Type → Type} [PathTree T]

def AtOnce (app : AppState U T) (method : String) (headers : HeaderMap) (response : Response) :
    Prop :=
  (routed method = false ∧ response = methodNotAllowed) ∨
    (routed method = true ∧ ∃ refused, app.select headers = .error refused ∧
      response = (RequestError.refused refused).intoResponse.forMethod method)

/-- What one event does, with what it does to the caches. -/
inductive Moves (app : AppState U T) (showTimestamp : Timestamp → String)
    (metadata : MetadataConfig) (state : State) :
    Event T → Option (App.Event T) → State → Prop where
  | enter (method : String) (headers : HeaderMap) (path : String) (now : Instant)
      (cache : HostCache U T) (allowed : routed method = true)
      (selected : app.select headers = .ok cache) :
      Moves app showTimestamp metadata state (.arrive method headers path now)
        (some (.request headers path now)) (state.enter method headers path now cache)
  | refuse (method : String) (headers : HeaderMap) (path : String) (now : Instant)
      (response : Response) (why : AtOnce app method headers response) :
      Moves app showTimestamp metadata state (.arrive method headers path now) none
        (state.answerAtOnce app method headers path response)
  | advance (action : Action T) (own : action.request = none) (cache : Machine.State)
      (advances : action.advances.isSome) (moved : Machine.step state.cache action = some cache) :
      Moves app showTimestamp metadata state (.advance action) (some (.step action own))
        { state with cache := cache }
  | reply (index : Nat) (exchange : Exchange) (id : TaskId) (task : Machine.Task)
      (result : Except UpstreamError (Option CachedResourceResponse)) (response : Response)
      (waits : state.waits index = some (exchange, id, task)) (ended : task.pc = .finished result)
      (made : response =
        (getResource showTimestamp metadata exchange.path result).forMethod exchange.method) :
      Moves app showTimestamp metadata state (.reply index) none
        ((state.settle index exchange (.answered response)).count (labelsOf app exchange response))
  | lose (index : Nat) (exchange : Exchange) (id : TaskId) (task : Machine.Task)
      (waits : state.waits index = some (exchange, id, task)) (panicked : task.pc = .panicked) :
      Moves app showTimestamp metadata state (.disconnect index) none
        (state.settle index exchange .gone)
  | cancel (index : Nat) (exchange : Exchange) (id : TaskId) (task : Machine.Task)
      (cache : Machine.State) (waits : state.waits index = some (exchange, id, task))
      (moved : Machine.step state.cache (.cancel id : Action T) = some cache) :
      Moves app showTimestamp metadata state (.disconnect index) (some (.step (.cancel id) rfl))
        { state.settle index exchange .gone with cache := cache }

variable {app : AppState U T} {showTimestamp : Timestamp → String} {metadata : MetadataConfig}
  {state next : State} {event : Event T}

theorem arrive_moves (method : String) (headers : HeaderMap) (path : String) (now : Instant) :
    ∃ inner, Moves app showTimestamp metadata state (.arrive method headers path now) inner
      (state.arrive app method headers path now) := by
  unfold State.arrive
  by_cases allowed : routed method = true
  · rw [if_pos allowed]
    cases selected : app.select headers with
    | ok cache => exact ⟨_, .enter method headers path now cache allowed selected⟩
    | error refused =>
        exact ⟨_, .refuse method headers path now _ (Or.inr ⟨allowed, refused, selected, rfl⟩)⟩
  · rw [if_neg allowed]
    exact ⟨_, .refuse method headers path now _ (Or.inl ⟨by simpa using allowed, rfl⟩)⟩

omit [PathTree T] in
theorem advances_request {action : Action T} (advances : action.advances.isSome) :
    action.request = none := by
  cases action with
  | start cache path now => cases advances
  | _ => rfl

theorem step_moves (taken : step app showTimestamp metadata state event = some next) :
    ∃ inner, Moves app showTimestamp metadata state event inner next := by
  cases event with
  | arrive method headers path now =>
      cases taken
      exact arrive_moves method headers path now
  | advance action =>
      simp only [step, Option.ite_none_right_eq_some] at taken
      rcases Option.map_eq_some_iff.mp taken.2 with ⟨cache, moved, rfl⟩
      exact ⟨_, .advance action (advances_request taken.1) cache taken.1 moved⟩
  | reply index =>
      rcases Option.bind_eq_some_iff.mp taken with ⟨⟨exchange, id, task⟩, waits, rest⟩
      cases ended : task.pc with
      | finished result =>
          simp only [ended, Option.some.injEq] at rest
          subst rest
          exact ⟨_, .reply index exchange id task result _ waits ended rfl⟩
      | _ => simp [ended] at rest
  | disconnect index =>
      rcases Option.bind_eq_some_iff.mp taken with ⟨⟨exchange, id, task⟩, waits, rest⟩
      cases stage : task.pc with
      | panicked =>
          simp only [stage, Option.some.injEq] at rest
          subst rest
          exact ⟨_, .lose index exchange id task waits stage⟩
      | _ =>
          simp only [stage] at rest
          rcases Option.map_eq_some_iff.mp rest with ⟨cache, moved, rfl⟩
          exact ⟨_, .cancel index exchange id task cache waits moved⟩

omit [PathTree T] in
theorem waits_some {index : Nat} {exchange : Exchange} {id : TaskId} {task : Machine.Task}
    (waits : state.waits index = some (exchange, id, task)) :
    state.exchanges[index]? = some exchange ∧ exchange.place = .waiting ∧
      exchange.get = some id ∧ state.cache.tasks[id]? = some task := by
  rcases Option.bind_eq_some_iff.mp waits with ⟨found, present, rest⟩
  cases place : found.place <;> cases own : found.get <;> simp [place, own] at rest
  rcases rest with ⟨there, rfl, rfl⟩
  exact ⟨present, place, own, there⟩

end Moves

section Runs

variable {U : Type} {T : Type → Type} [PathTree T]

def Asked (app : AppState U T) (inner : List (App.Event T)) (exchange : Exchange) (id : TaskId) :
    Prop :=
  routed exchange.method = true ∧ ∃ cache owner request,
    app.select exchange.headers = .ok cache ∧ (owners app inner)[id]? = some owner ∧
    app.cacheOf owner = some cache ∧
    (Machine.requests (actionsOf app inner))[id]? = some request ∧
    request.cache = cache.toCache ∧ request.path = exchange.path

/-- Why a request was answered so: at once, or as its get ended. -/
inductive AnsweredAs (app : AppState U T) (showTimestamp : Timestamp → String)
    (metadata : MetadataConfig) (cache : Machine.State) (exchange : Exchange)
    (response : Response) : Prop where
  | atOnce (alone : exchange.get = none)
      (why : AtOnce app exchange.method exchange.headers response)
  | ended (id : TaskId) (task : Machine.Task)
      (result : Except UpstreamError (Option CachedResourceResponse))
      (own : exchange.get = some id) (present : cache.tasks[id]? = some task)
      (finished : task.pc = .finished result)
      (made : response =
        (getResource showTimestamp metadata exchange.path result).forMethod exchange.method)

/-- What the events have done, by what they have done to the caches. -/
structure Traced (app : AppState U T) (showTimestamp : Timestamp → String)
    (metadata : MetadataConfig) (start : Machine.State) (events : List (Event T)) (state : State)
    (inner : List (App.Event T)) : Prop where
  reached : Transition.run (appStep app) start inner = some state.cache
  steps : ∀ action, action.advances.isSome →
    (action ∈ actionsOf app inner ↔ .advance action ∈ events)
  asked : ∀ exchange ∈ state.exchanges, ∀ id, exchange.get = some id → Asked app inner exchange id
  gets : ∀ id < state.cache.tasks.length, ∃ exchange ∈ state.exchanges, exchange.get = some id
  answered : ∀ exchange ∈ state.exchanges, ∀ response, exchange.place = .answered response →
    AnsweredAs app showTimestamp metadata state.cache exchange response

variable {app : AppState U T} {showTimestamp : Timestamp → String} {metadata : MetadataConfig}
  {start cache after : Machine.State} {state next : State} {event : Event T}
  {events : List (Event T)} {inner : List (App.Event T)} {exchange : Exchange} {id : TaskId}

theorem answered_stays {action : Action T} {response : Response}
    (taken : Machine.step cache action = some after)
    (answered : AnsweredAs app showTimestamp metadata cache exchange response) :
    AnsweredAs app showTimestamp metadata after exchange response := by
  cases answered with
  | atOnce alone why => exact .atOnce alone why
  | ended id task result own present finished made =>
      exact .ended id task result own
        (Machine.step_ended taken present (by rw [finished]; rfl)) finished made

omit [PathTree T] in
theorem asked_later (asked : Asked app inner exchange id) (more : App.Event T) :
    Asked app (inner ++ [more]) exchange id := by
  rcases asked with ⟨allowed, cache, owner, request, selected, owned, cached, found, rest⟩
  refine ⟨allowed, cache, owner, request, selected, ?_, cached, ?_, rest⟩
  · rw [owners, List.filterMap_append]
    exact Arena.get_append_old _ owned
  · rw [actionsOf, Machine.requests, List.filterMap_append, List.filterMap_append]
    exact Arena.get_append_old _ found

theorem inner_count {capacity : UInt64} {slots : Nat} {positive : 0 < slots}
    (reached : Transition.run (appStep app) (Machine.initial capacity slots positive) inner =
      some cache) : cache.tasks.length = (Machine.requests (actionsOf app inner)).length :=
  Machine.run_count ((run_actions app _ _).symm.trans reached)

theorem owner_count {capacity : UInt64} {slots : Nat} {positive : 0 < slots}
    (reached : Transition.run (appStep app) (Machine.initial capacity slots positive) inner =
      some cache) : cache.tasks.length = (owners app inner).length := by
  have same := congrArg List.length (owners_requests app inner)
  rw [List.length_map, List.length_map] at same
  rw [inner_count reached, same]

theorem step_length {action : Action T} (own : action.request = none)
    (taken : Machine.step cache action = some after) : after.tasks.length = cache.tasks.length := by
  rcases Machine.step_moves taken with ⟨handle, path, now, rfl, rfl⟩ | ⟨mover, moving, moves, move⟩
  · cases own
  · rcases Machine.move_task move with ⟨pc, tasks⟩
    rw [tasks, List.length_set]

theorem settle_mem {index : Nat} {found : Exchange} {place : Place}
    (member : found ∈ (state.settle index exchange place).exchanges) :
    found ∈ state.exchanges ∨ found = { exchange with place := place } :=
  List.mem_or_eq_of_mem_set member

theorem settle_counted {index : Nat} {place : Place} {property : Exchange → Bool}
    (present : state.exchanges[index]? = some exchange) :
    (state.settle index exchange place).exchanges.countP property =
      state.exchanges.countP property - (if property exchange then 1 else 0) +
        if property { exchange with place := place } then 1 else 0 := by
  rcases List.getElem?_eq_some_iff.mp present with ⟨bound, there⟩
  rw [State.settle, List.countP_set bound, there]

theorem settle_gets {index : Nat} {place : Place} (present : state.exchanges[index]? = some exchange)
    (known : ∃ found ∈ state.exchanges, found.get = some id) :
    ∃ found ∈ (state.settle index exchange place).exchanges, found.get = some id := by
  rcases known with ⟨found, member, own⟩
  rcases List.mem_iff_getElem?.mp member with ⟨other, there⟩
  by_cases same : index = other
  · subst same
    rw [present, Option.some.injEq] at there
    subst there
    exact ⟨_, List.mem_of_getElem? (Arena.get_set_self _ present), own⟩
  · exact ⟨found, List.mem_of_getElem? ((Arena.get_set_other _ _ same).trans there), own⟩

omit [PathTree T] in
theorem actions_step {action : Action T} (own : action.request = none) :
    actionsOf app (inner ++ [.step action own]) = actionsOf app inner ++ [action] := by
  simp [actionsOf, Event.action]

omit [PathTree T] in
theorem actions_request {headers : HeaderMap} {handle : HostCache U T} (path : String)
    (now : Instant) (selected : app.select headers = .ok handle) :
    actionsOf app (inner ++ [.request headers path now]) =
      actionsOf app inner ++ [.start handle.toCache path now] := by
  simp [actionsOf, Event.action, selected]

variable {capacity : UInt64} {slots : Nat} {positive : 0 < slots}

theorem traced_enter {method path : String} {headers : HeaderMap} {now : Instant}
    {handle : HostCache U T} (allowed : routed method = true)
    (selected : app.select headers = .ok handle)
    (traced : Traced app showTimestamp metadata (Machine.initial capacity slots positive) events
      state inner) :
    Traced app showTimestamp metadata (Machine.initial capacity slots positive)
      (events ++ [.arrive method headers path now]) (state.enter method headers path now handle)
      (inner ++ [.request headers path now]) := by
  have taken : Machine.step state.cache (.start handle.toCache path now) =
      some (state.cache.start handle.toCache path now) := rfl
  constructor
  · exact Transition.run_snoc.mpr ⟨state.cache, traced.reached, by simp [appStep, selected, State.enter]⟩
  · intro action advances
    rw [actions_request path now selected]
    have other : action ≠ .start handle.toCache path now := by
      rintro rfl
      cases advances
    simp [traced.steps action advances, other]
  · intro exchange member id own
    rcases List.mem_append.mp member with old | fresh
    · exact asked_later (traced.asked exchange old id own) _
    · rw [List.mem_singleton] at fresh
      subst fresh
      obtain rfl := Option.some.inj own
      rcases owner_selected selected with ⟨owner, owned, cached⟩
      have last : owners app [.request headers path now] = [owner] := by
        simp [owners, Event.owner, owned]
      refine ⟨allowed, handle, owner, ⟨handle.toCache, path, now⟩, selected, ?_, cached, ?_, rfl, rfl⟩
      · rw [owners, List.filterMap_append, ← owners, ← owners, last, owner_count traced.reached]
        exact Arena.get_append_new _ _
      · rw [actions_request path now selected, Machine.requests, List.filterMap_append,
          inner_count traced.reached]
        exact Arena.get_append_new _ _
  · intro id bound
    rcases Machine.start_started state.cache handle.toCache path now with ⟨fresh, started⟩
    simp only [State.enter, started.tasks, List.length_append, List.length_singleton] at bound
    by_cases old : id < state.cache.tasks.length
    · rcases traced.gets id old with ⟨exchange, member, own⟩
      exact ⟨exchange, List.mem_append_left _ member, own⟩
    · refine ⟨_, List.mem_append_right _ (List.mem_singleton_self _), ?_⟩
      exact congrArg some (Nat.eq_of_lt_succ_of_not_lt bound old).symm
  · intro exchange member response answered
    rcases List.mem_append.mp member with old | fresh
    · exact answered_stays taken (traced.answered exchange old response answered)
    · rw [List.mem_singleton] at fresh
      subst fresh
      cases answered

theorem traced_refuse {method path : String} {headers : HeaderMap} {now : Instant}
    {response : Response} (why : AtOnce app method headers response)
    (traced : Traced app showTimestamp metadata start events state inner) :
    Traced app showTimestamp metadata start (events ++ [.arrive method headers path now])
      (state.answerAtOnce app method headers path response) inner := by
  constructor
  · exact traced.reached
  · intro action advances
    simp [traced.steps action advances]
  · intro exchange member id own
    rcases List.mem_append.mp member with old | fresh
    · exact traced.asked exchange old id own
    · rw [List.mem_singleton] at fresh
      subst fresh
      cases own
  · intro id bound
    rcases traced.gets id bound with ⟨exchange, member, own⟩
    exact ⟨exchange, List.mem_append_left _ member, own⟩
  · intro exchange member other answered
    rcases List.mem_append.mp member with old | fresh
    · exact traced.answered exchange old other answered
    · rw [List.mem_singleton] at fresh
      subst fresh
      cases answered
      exact .atOnce rfl why

theorem traced_cache {action : Action T} (own : action.request = none) (later : List (Event T))
    (steps : ∀ other : Action T, other.advances.isSome → (other = action ↔ .advance other ∈ later))
    (moved : Machine.step state.cache action = some after)
    (traced : Traced app showTimestamp metadata start events state inner) :
    Traced app showTimestamp metadata start (events ++ later) { state with cache := after }
      (inner ++ [.step action own]) := by
  constructor
  · exact Transition.run_snoc.mpr ⟨state.cache, traced.reached, moved⟩
  · intro other advances
    rw [actions_step own, List.mem_append, List.mem_append, traced.steps other advances,
      List.mem_singleton, steps other advances]
  · intro exchange member id asked
    exact asked_later (traced.asked exchange member id asked) _
  · intro id bound
    exact traced.gets id (by rw [← step_length own moved]; exact bound)
  · intro exchange member response answered
    exact answered_stays moved (traced.answered exchange member response answered)

theorem traced_settle {index : Nat} {place : Place} (later : List (Event T))
    (present : state.exchanges[index]? = some exchange)
    (steps : ∀ action : Action T, action.advances.isSome → .advance action ∉ later)
    (settled : ∀ response, place = .answered response →
      AnsweredAs app showTimestamp metadata state.cache { exchange with place := place } response)
    (traced : Traced app showTimestamp metadata start events state inner) :
    Traced app showTimestamp metadata start (events ++ later) (state.settle index exchange place)
      inner := by
  constructor
  · exact traced.reached
  · intro action advances
    simp [traced.steps action advances, steps action advances]
  · intro found member id own
    rcases settle_mem member with old | rfl
    · exact traced.asked found old id own
    · exact traced.asked exchange (List.mem_of_getElem? present) id own
  · intro id bound
    exact settle_gets present (traced.gets id bound)
  · intro found member response answered
    rcases settle_mem member with old | rfl
    · exact traced.answered found old response answered
    · exact settled response answered

omit [PathTree T] in
theorem traced_count [PathTree T] (labels : Labels)
    (traced : Traced app showTimestamp metadata start events state inner) :
    Traced app showTimestamp metadata start events (state.count labels) inner :=
  ⟨traced.reached, traced.steps, traced.asked, traced.gets, traced.answered⟩

theorem traced_move {more : Option (App.Event T)}
    (traced : Traced app showTimestamp metadata (Machine.initial capacity slots positive) events
      state inner)
    (move : Moves app showTimestamp metadata state event more next) :
    Traced app showTimestamp metadata (Machine.initial capacity slots positive)
      (events ++ [event]) next (inner ++ more.toList) := by
  cases move with
  | enter method headers path now cache allowed selected =>
      exact traced_enter allowed selected traced
  | refuse method headers path now response why =>
      rw [Option.toList_none, List.append_nil]
      exact traced_refuse why traced
  | advance action own cache advances moved =>
      exact traced_cache own [.advance action] (by simp) moved traced
  | reply index exchange id task result response waits ended made =>
      rcases waits_some waits with ⟨present, -, own, there⟩
      rw [Option.toList_none, List.append_nil]
      apply traced_count
      apply traced_settle _ present (by simp) ?_ traced
      intro other answered
      cases answered
      exact .ended id task result own there ended made
  | lose index exchange id task waits panicked =>
      rcases waits_some waits with ⟨present, -⟩
      rw [Option.toList_none, List.append_nil]
      exact traced_settle _ present (by simp) nofun traced
  | cancel index exchange id task cache waits moved =>
      rcases waits_some waits with ⟨present, -⟩
      have settled : Traced _ _ _ _ (events ++ []) (state.settle index exchange .gone) inner :=
        traced_settle [] present (by simp) nofun traced
      rw [List.append_nil] at settled
      have moved : Machine.step (state.settle index exchange .gone).cache (.cancel id : Action T) =
          some cache := moved
      refine traced_cache rfl [.disconnect index] ?_ moved settled
      intro other advances
      refine iff_of_false ?_ (by simp)
      rintro rfl
      cases advances

/-- Every run of the server is a run of its caches under it. -/
theorem run_traced
    (reached : Transition.run (step app showTimestamp metadata) (initial capacity slots positive)
      events = some state) :
    ∃ inner, Traced app showTimestamp metadata (Machine.initial capacity slots positive) events
      state inner := by
  refine Transition.run_induction (fun events state => ∃ inner, Traced app showTimestamp metadata
    (Machine.initial capacity slots positive) events state inner) ?_ ?_ reached
  · refine ⟨[], rfl, ?_, ?_, ?_, ?_⟩
    · intro action _
      simp [actionsOf]
    · intro exchange member
      cases member
    · intro id bound
      cases bound
    · intro exchange member
      cases member
  · rintro events state event next - ⟨inner, traced⟩ taken
    rcases step_moves taken with ⟨more, move⟩
    exact ⟨inner ++ more.toList, traced_move traced move⟩

theorem source_exchange {build : UpstreamConfig → Option U} {config : Config}
    (accepted : mainState build config = some app) (apart : ¬ Collides T config)
    (traced : Traced app showTimestamp metadata (Machine.initial capacity slots positive) events
      state inner) {handle : HostCache U T} {owner : Owner} {request : Machine.Request T}
    {source : TaskId} (owned : (owners app inner)[id]? = some owner)
    (cached : app.cacheOf owner = some handle)
    (caching : Machine.CachingGet (actionsOf app inner) id request.key)
    (sourceCaching : Machine.CachingGet (actionsOf app inner) source request.key) :
    ∃ other ∈ state.exchanges, other.get = some source ∧ app.select other.headers = .ok handle ∧
      other.path = request.path := by
  rcases same_owner accepted apart caching sourceCaching with ⟨both, first, second⟩
  obtain rfl : owner = both := Option.some.inj (owned.symm.trans first)
  rcases sourceCaching with ⟨sourceRequest, asked, same, -⟩
  have started : source < state.cache.tasks.length := by
    rw [inner_count traced.reached]
    exact (List.getElem?_eq_some_iff.mp asked).1
  rcases traced.gets source started with ⟨other, member, own⟩
  rcases traced.asked other member source own with
    ⟨-, otherCache, otherOwner, otherRequest, selected, otherOwned, otherCached, otherAsked, -,
      path⟩
  obtain rfl : owner = otherOwner := Option.some.inj (second.symm.trans otherOwned)
  obtain rfl : handle = otherCache := Option.some.inj (cached.symm.trans otherCached)
  obtain rfl : sourceRequest = otherRequest := Option.some.inj (asked.symm.trans otherAsked)
  exact ⟨other, member, own, selected, path.symm.trans (congrArg CachedResourceKey.path same)⟩

end Runs

end Server3.Service
