import Server3.HostSelection
import Server3.Origins

/-! Requests to one server from all its hosts. All caches share one storage and are
told apart in it by their host keys. -/

namespace Server3.App

open Clock Server3.Configuration Routes Upstream Resource Recency Machine

/-- Whose cache a request selects: that of a host, or the default one. -/
abbrev Owner := Option String

/-- A request that arrives, or a step of one that is already in `Cache::get`. -/
inductive Event (T : Type → Type) where
  | request (headers : HeaderMap) (path : String) (now : Instant)
  | step (action : Action T) (own : action.request = none)

section Runs

variable {U : Type} {T : Type → Type}

def AppState.cacheOf (app : AppState U T) : Owner → Option (HostCache U T)
  | some host => app.hostUpstreams.lookup host
  | none => app.upstream

def AppState.owner (app : AppState U T) (headers : HeaderMap) : Option Owner :=
  match hostname headers with
  | .ok (some host) =>
      if (app.hostUpstreams.lookup host).isSome then some (some host)
      else app.upstream.map fun _ => none
  | .ok none => app.upstream.map fun _ => none
  | .error _ => none

theorem owner_selected {app : AppState U T} {headers : HeaderMap} {cache : HostCache U T}
    (selected : app.select headers = .ok cache) :
    ∃ owner, app.owner headers = some owner ∧ app.cacheOf owner = some cache := by
  cases named : hostname headers with
  | error failure =>
      rw [AppState.select, named] at selected
      cases selected
  | ok name =>
      have found := (select_ok named).mp selected
      cases name with
      | none =>
          have top : app.upstream = some cache := found
          exact ⟨none, by rw [AppState.owner, named, top]; rfl, top⟩
      | some host =>
          rw [AppState.cacheForHost, Option.bind_some] at found
          cases own : app.hostUpstreams.lookup host with
          | some other =>
              rw [own, Option.some_or] at found
              exact ⟨some host, by simp [AppState.owner, named, own], own.trans found⟩
          | none =>
              rw [own, Option.none_or] at found
              exact ⟨none, by simp [AppState.owner, named, own, found], found⟩

theorem owner_refused {app : AppState U T} {headers : HeaderMap} {failure : AppError}
    (refused : app.select headers = .error failure) : app.owner headers = none := by
  cases named : hostname headers with
  | error failure => rw [AppState.owner, named]
  | ok name =>
      have nothing : app.cacheForHost name = none := by
        rw [select_hostname named] at refused
        split at refused
        · cases refused
        · assumption
      cases name with
      | none =>
          have top : app.upstream = none := nothing
          simp [AppState.owner, named, top]
      | some host =>
          rw [AppState.cacheForHost, Option.bind_some, Option.or_eq_none_iff] at nothing
          simp [AppState.owner, named, nothing.1, nothing.2]

variable [PathTree T] (app : AppState U T)

/-- A request for which no cache is selected is answered with an error. -/
def appStep (state : State) : Event T → Option State
  | .request headers path now =>
      match app.select headers with
      | .ok cache => some (state.start cache.toCache path now)
      | .error _ => some state
  | .step action _ => step state action

def Event.action : Event T → Option (Action T)
  | .request headers path now =>
      match app.select headers with
      | .ok cache => some (.start cache.toCache path now)
      | .error _ => none
  | .step action _ => some action

def Event.owner : Event T → Option Owner
  | .request headers _ _ => app.owner headers
  | .step _ _ => none

def actionsOf (events : List (Event T)) : List (Action T) := events.filterMap (Event.action app)

def owners (events : List (Event T)) : List Owner := events.filterMap (Event.owner app)

theorem run_actions (start : State) (events : List (Event T)) :
    Transition.run (appStep app) start events = Transition.run step start (actionsOf app events) := by
  induction events generalizing start with
  | nil => rfl
  | cons event rest ih =>
      cases event with
      | step action own =>
          change (step start action).bind (fun next => Transition.run (appStep app) next rest) =
            (step start action).bind fun next => Transition.run step next (actionsOf app rest)
          simp only [ih]
      | request headers path now =>
          cases selected : app.select headers with
          | ok cache =>
              have ahead : actionsOf app (.request headers path now :: rest) =
                  .start cache.toCache path now :: actionsOf app rest := by
                simp only [actionsOf, List.filterMap_cons, Event.action, selected]
              rw [ahead]
              simp only [Transition.run, appStep, selected, step, Option.bind_some, ih]
          | error failure =>
              have ahead : actionsOf app (.request headers path now :: rest) =
                  actionsOf app rest := by
                simp only [actionsOf, List.filterMap_cons, Event.action, selected]
              rw [ahead]
              simp only [Transition.run, appStep, selected, Option.bind_some, ih]

variable {app}

omit [PathTree T] in
variable (app) in
theorem owners_requests (events : List (Event T)) :
    (owners app events).map (fun owner => (app.cacheOf owner).map HostCache.toCache) =
      (requests (actionsOf app events)).map fun request => some request.cache := by
  induction events with
  | nil => rfl
  | cons event rest ih =>
      cases event with
      | step action own =>
          simp only [owners, actionsOf, requests, List.filterMap_cons, Event.owner, Event.action,
            own] at ih ⊢
          exact ih
      | request headers path now =>
          cases selected : app.select headers with
          | ok cache =>
              rcases owner_selected selected with ⟨owner, owned, same⟩
              simp only [owners, actionsOf, requests, List.filterMap_cons, Event.owner, Event.action,
                selected, owned, Action.request, List.map_cons, same, Option.map_some] at ih ⊢
              rw [ih]
          | error failure =>
              simp only [owners, actionsOf, requests, List.filterMap_cons, Event.owner, Event.action,
                selected, owner_refused selected] at ih ⊢
              exact ih

omit [PathTree T] in
theorem request_owner {events : List (Event T)} {id : TaskId} {request : Request T}
    (asked : (requests (actionsOf app events))[id]? = some request) :
    ∃ owner cache, (owners app events)[id]? = some owner ∧ app.cacheOf owner = some cache ∧
      request.cache = cache.toCache := by
  have found := congrArg (fun items => items[id]?) (owners_requests app events)
  simp only [List.getElem?_map, asked, Option.map_some] at found
  rcases Option.map_eq_some_iff.mp found with ⟨owner, owned, same⟩
  rcases Option.map_eq_some_iff.mp same with ⟨cache, cached, equal⟩
  exact ⟨owner, cache, owned, cached, equal.symm⟩

def Caches (rules : CacheRoutes T) (path : String) : Prop :=
  ∃ now expiresAfter, plan (rules.matchRoute path).1 now = .cached expiresAfter

/-- A host is called what the default cache is keyed by, and both have an upstream and
cache some path. -/
def Collides (T : Type → Type) [PathTree T] (config : Config) : Prop :=
  config.upstream.isSome ∧ ∃ hostConfig, config.hosts.lookup "**" = some hostConfig ∧
    hostConfig.upstream.isSome ∧ ∃ path,
      Caches (CacheRoutes.fromConfig config.cache config.routes : CacheRoutes T) path ∧
        Caches (effectiveRules T config hostConfig) path

/-- Every response comes from an answer to a get of its own cache, and gets of different
caches never hold one cell, at no two times of the run. -/
structure Isolated (app : AppState U T) (start : State) (events : List (Event T)) (state : State) :
    Prop where
  served : ∀ (id : TaskId) task response, state.tasks[id]? = some task →
    task.pc = .finished (.ok (some response)) →
      ∃ owner source resource, (owners app events)[id]? = some owner ∧
        (owners app events)[source]? = some owner ∧
        .answer source (.ok (some resource)) ∈ actionsOf app events ∧
        (Delivers response resource ∨ response = passedOn resource)
  entries : ∀ (first second : TaskId) cell, Holding start (actionsOf app events) first cell →
    Holding start (actionsOf app events) second cell →
      (owners app events)[first]? = (owners app events)[second]?

end Runs

section Owners

variable {U : Type} {T : Type → Type} [PathTree T] {build : UpstreamConfig → Option U}
  {config : Config} {app : AppState U T}

theorem owner_cache (accepted : mainState build config = some app) {owner : Owner}
    {cache : HostCache U T} (cached : app.cacheOf owner = some cache) :
    cache.hostKey = owner.getD "**" ∧
      match owner with
      | none => config.upstream.isSome ∧
          cache.rules = .fromConfig config.cache config.routes
      | some host => ∃ hostConfig, config.hosts.lookup host = some hostConfig ∧
          hostConfig.upstream.isSome ∧ cache.rules = effectiveRules T config hostConfig := by
  cases owner with
  | none =>
      rw [AppState.cacheOf, (main_parts accepted).1, topCache] at cached
      rcases Option.bind_eq_some_iff.mp cached with ⟨upstream, own, built⟩
      rcases Option.map_eq_some_iff.mp built with ⟨_, -, rfl⟩
      exact ⟨rfl, by rw [own]; rfl, rfl⟩
  | some host =>
      rw [AppState.cacheOf, main_hosts accepted host] at cached
      rcases Option.bind_eq_some_iff.mp cached with ⟨hostConfig, configured, made⟩
      rw [ownCache] at made
      rcases Option.bind_eq_some_iff.mp made with ⟨upstream, own, built⟩
      rcases Option.map_eq_some_iff.mp built with ⟨_, -, rfl⟩
      exact ⟨rfl, hostConfig, configured, by rw [own]; rfl, rfl⟩

/-- Caching gets of one key are of one cache, unless the two caches of `**` collide. -/
theorem same_owner (accepted : mainState build config = some app) (apart : ¬ Collides T config)
    {events : List (Event T)} {first second : TaskId} {key : CachedResourceKey}
    (one : CachingGet (actionsOf app events) first key)
    (two : CachingGet (actionsOf app events) second key) :
    ∃ owner, (owners app events)[first]? = some owner ∧ (owners app events)[second]? = some owner := by
  rcases one with ⟨oneRequest, oneAsked, oneKey, oneCaches⟩
  rcases two with ⟨twoRequest, twoAsked, twoKey, twoCaches⟩
  rcases request_owner oneAsked with ⟨oneOwner, oneCache, oneOwned, oneCached, oneSame⟩
  rcases request_owner twoAsked with ⟨twoOwner, twoCache, twoOwned, twoCached, twoSame⟩
  have oneOf := owner_cache accepted oneCached
  have twoOf := owner_cache accepted twoCached
  have hosts : oneOwner.getD "**" = twoOwner.getD "**" := by
    rw [← oneOf.1, ← twoOf.1]
    have keys := congrArg CachedResourceKey.host (oneKey.trans twoKey.symm)
    rwa [Request.key, Request.key, oneSame, twoSame] at keys
  have paths : oneRequest.path = twoRequest.path :=
    congrArg CachedResourceKey.path (oneKey.trans twoKey.symm)
  refine ⟨oneOwner, oneOwned, ?_⟩
  rw [twoOwned]
  rw [oneSame] at oneCaches
  rw [twoSame, ← paths] at twoCaches
  cases oneOwner with
  | none =>
      cases twoOwner with
      | none => rfl
      | some host =>
          obtain rfl : "**" = host := hosts
          rcases twoOf.2 with ⟨hostConfig, configured, own, rules⟩
          exact absurd ⟨oneOf.2.1, hostConfig, configured, own, oneRequest.path,
            ⟨_, oneOf.2.2 ▸ oneCaches⟩, ⟨_, rules ▸ twoCaches⟩⟩ apart
  | some host =>
      cases twoOwner with
      | none =>
          obtain rfl : host = "**" := hosts
          rcases oneOf.2 with ⟨hostConfig, configured, own, rules⟩
          exact absurd ⟨twoOf.2.1, hostConfig, configured, own, oneRequest.path,
            ⟨_, twoOf.2.2 ▸ twoCaches⟩, ⟨_, rules ▸ oneCaches⟩⟩ apart
      | some other => exact congrArg some (congrArg some hosts.symm)

theorem opens_joining {state : State} {cache : Cache T} {path : String} {now : Instant}
    {expiresAfter : Option Instant} (unlocked : state.lock = none)
    (caches : plan (cache.rules.matchRoute path).1 now = .cached expiresAfter) {found : Lookup}
    (looked : state.lookupKey ⟨cache.hostKey, path⟩ now = found) (kept : found.unlinked = none) :
    ∃ next task, Transition.run step state [.start cache path now, .acquire state.tasks.length,
        .lookup state.tasks.length] = some next ∧
      next.tasks = state.tasks ++ [task] ∧ task.pc = .joining found.own ∧ next.lock = none ∧
      next.map = found.map ∧ next.slots = if found.allocates then
        state.slots ++ [⟨⟨cache.hostKey, path⟩, .empty⟩] else state.slots := by
  let id := state.tasks.length
  let task : Task := ⟨cache.hostKey, path, now, routeLabel (cache.rules.matchRoute path).2,
    expiresAfter, .lookupLock⟩
  let begun := { state with tasks := state.tasks ++ [task] }.countRoute task
    CacheRouteMetrics.requested
  let locked := { begun with lock := some id }.setPc id task .lookup
  have started : step state (.start cache path now) = some begun := by
    simp only [step, State.start, caches, begun, task]
  have present : begun.tasks[id]? = some task := Arena.get_append_new _ _
  have acquired : step begun (.acquire id : Action T) = some locked :=
    move_taken present (.acquireLookup rfl unlocked)
  have waiting : locked.tasks[id]? = some { task with pc := .lookup } :=
    Arena.get_set_self _ present
  have same : locked.lookupKey task.key task.now = found := looked
  have taken : step locked (.lookup id : Action T) =
      some (locked.afterLookup id { task with pc := .lookup }) := by
    rw [move_taken waiting (.lookup rfl)]
    change some ((locked.afterLookup id _).releaseOption
      (locked.lookupKey task.key task.now).unlinked) = _
    rw [same, kept]
    rfl
  refine ⟨locked.afterLookup id { task with pc := .lookup }, { task with pc := .joining found.own },
    ?_, ?_, rfl, rfl, congrArg Lookup.map same, ?_⟩
  · simp only [Transition.run, started, acquired, taken, Option.bind_some, id]
  · change ((state.tasks ++ [task]).set id _).set id
      { task with pc := .joining (locked.lookupKey task.key task.now).own } = _
    rw [same]
    simp [id]
  · rw [afterLookup_slots]
    change (if (locked.lookupKey task.key task.now).allocates then _ else _) = _
    rw [same]
    rfl

theorem lookups_share {first second : Cache T} {path : String} {one two : Instant}
    {oneAfter twoAfter : Option Instant} (same : first.hostKey = second.hostKey)
    (oneCaches : plan (first.rules.matchRoute path).1 one = .cached oneAfter)
    (twoCaches : plan (second.rules.matchRoute path).1 two = .cached twoAfter) :
    ∃ state, Transition.run step (initial 0 1 Nat.one_pos) [.start first path one, .acquire 0,
        .lookup 0, .start second path two, .acquire 1, .lookup 1] = some state ∧
      (∃ task, state.tasks[0]? = some task ∧ task.pc.own = some 0) ∧
      ∃ task, state.tasks[1]? = some task ∧ task.pc.own = some 0 := by
  let key : CachedResourceKey := ⟨first.hostKey, path⟩
  let start := initial 0 1 Nat.one_pos
  have absent : start.lookupKey key one = ⟨start.map.insert key 0 nofun, 0, true, none⟩ := rfl
  rcases opens_joining rfl oneCaches absent rfl with
    ⟨middle, opened, began, tasks, joining, free, map, slots⟩
  have count : middle.tasks.length = 1 := by
    rw [tasks]
    rfl
  have entries : middle.map.entries = [(key, 0)] := by
    rw [map]
    rfl
  have found : (middle.lookupKey key two).own = 0 ∧ (middle.lookupKey key two).unlinked = none := by
    have known (cell) (member : (key, cell) ∈ middle.map.entries) : cell < middle.slots.length := by
      rw [entries, List.mem_singleton] at member
      cases member
      rw [slots]
      exact Nat.one_pos
    cases lookup_cases two known with
    | absent missing => exact absurd (by simp [entries]) missing
    | expired old resource mapped filled =>
        rw [entries, List.mem_singleton] at mapped
        cases mapped
        rw [State.cellAt, slots] at filled
        cases filled
    | shared old mapped fresh entered own allocates unlinked =>
        rw [entries, List.mem_singleton] at mapped
        cases mapped
        exact ⟨own, unlinked⟩
  rcases opens_joining free twoCaches (same ▸ rfl) found.2 with
    ⟨last, later, goes, both, joins, -⟩
  rw [count] at goes
  rw [tasks] at both
  have opening : Transition.run step start [.start first path one, .acquire 0, .lookup 0] =
    some middle := began
  have reached : Transition.run step start ([.start first path one, .acquire 0, .lookup 0] ++
      [.start second path two, .acquire 1, .lookup 1]) = some last := by
    rw [Transition.run_append, opening]
    exact goes
  refine ⟨last, reached, ⟨opened, ?_, ?_⟩, later, ?_, ?_⟩
  · rw [both]
    rfl
  · rw [joining]
    rfl
  · rw [both]
    rfl
  · rw [joins]
    exact congrArg some found.1

def starsHeaders : HeaderMap := [("host", [42, 42])]

/-- A request without a host and one for the host `**`. -/
def collidingEvents (path : String) (one two : Instant) : List (Event T) :=
  [.request [] path one, .step (.acquire 0) rfl, .step (.lookup 0) rfl,
    .request starsHeaders path two, .step (.acquire 1) rfl, .step (.lookup 1) rfl]

theorem colliding_caches (accepted : mainState build config = some app)
    (collides : Collides T config) :
    ∃ top own path, app.upstream = some top ∧ app.hostUpstreams.lookup "**" = some own ∧
      top.hostKey = own.hostKey ∧ Caches top.rules path ∧ Caches own.rules path := by
  rcases collides with ⟨top, hostConfig, configured, own, path, topCaches, ownCaches⟩
  have parts := main_parts accepted
  rcases Option.isSome_iff_exists.mp top with ⟨topUpstream, top⟩
  rcases Option.isSome_iff_exists.mp own with ⟨ownUpstream, own⟩
  rcases parts.2.1 topUpstream top with ⟨topBuilt, topSame⟩
  have member := AList.mem_lookup_iff.mp (Option.mem_def.mpr configured)
  rcases addHosts_built parts.2.2 member own with ⟨ownBuilt, ownSame⟩
  refine ⟨⟨⟨"**", .fromConfig config.cache config.routes⟩, topBuilt⟩,
    ⟨⟨"**", effectiveRules T config hostConfig⟩, ownBuilt⟩, path, ?_, ?_, rfl, topCaches, ownCaches⟩
  · rw [parts.1, topCache, top, Option.bind_some, topSame]
    rfl
  · rw [main_hosts accepted, configured, Option.bind_some, ownCache, own, Option.bind_some, ownSame]
    rfl

theorem collision_shares (accepted : mainState build config = some app)
    (collides : Collides T config) :
    ∃ events state, Transition.run (appStep app) (initial 0 1 Nat.one_pos) events = some state ∧
      ¬ Isolated app (initial 0 1 Nat.one_pos) events state := by
  rcases colliding_caches accepted collides with ⟨top, own, path, topPresent, ownPresent, same,
    ⟨one, oneAfter, oneCaches⟩, ⟨two, twoAfter, twoCaches⟩⟩
  have unnamed : hostname [] = .ok none := rfl
  have named : hostname starsHeaders = .ok (some "**") := rfl
  have default : app.select [] = .ok top := (select_ok unnamed).mpr topPresent
  have hosted : app.select starsHeaders = .ok own := by
    rw [select_ok named, AppState.cacheForHost, Option.bind_some, ownPresent, Option.some_or]
  have actions : actionsOf app (collidingEvents path one two) =
      [.start top.toCache path one, .acquire 0, .lookup 0, .start own.toCache path two, .acquire 1,
        .lookup 1] := by
    simp only [actionsOf, collidingEvents, List.filterMap_cons, Event.action, default, hosted,
      List.filterMap_nil]
  have defaultOwner : app.owner [] = some none := by
    rw [AppState.owner, unnamed, topPresent]
    rfl
  have hostedOwner : app.owner starsHeaders = some (some "**") := by
    simp [AppState.owner, named, ownPresent]
  have owned : owners app (collidingEvents path one two) = [none, some "**"] := by
    simp only [owners, collidingEvents, List.filterMap_cons, Event.owner, defaultOwner, hostedOwner,
      List.filterMap_nil]
  rcases lookups_share same oneCaches twoCaches with
    ⟨state, reached, ⟨first, firstPresent, firstOwn⟩, ⟨second, secondPresent, secondOwn⟩⟩
  rw [← actions] at reached
  refine ⟨collidingEvents path one two, state, (run_actions app _ _).trans reached, ?_⟩
  intro isolated
  have equal := isolated.entries 0 1 0
    ⟨_, [], state, first, (List.append_nil _).symm, reached, firstPresent, firstOwn⟩
    ⟨_, [], state, second, (List.append_nil _).symm, reached, secondPresent, secondOwn⟩
  rw [owned] at equal
  simp at equal

/-- Requests of different caches are isolated in every run of the server exactly if the
default cache and a host `**` do not collide. -/
theorem requests_isolated (accepted : mainState build config = some app) :
    (∀ capacity slots (positive : 0 < slots) events state,
      Transition.run (appStep app) (initial capacity slots positive) events = some state →
        Isolated app (initial capacity slots positive) events state) ↔ ¬ Collides T config := by
  constructor
  · intro isolated collides
    rcases collision_shares accepted collides with ⟨events, state, reached, shared⟩
    exact shared (isolated 0 1 Nat.one_pos events state reached)
  · intro apart capacity slots positive events state run
    have reached := (run_actions app _ _).symm.trans run
    have origins := run_origins reached
    constructor
    · intro id task response present finished
      by_cases never : response.outcome = .never
      · rcases origins.passed id task response present finished never with ⟨resource, answered, same⟩
        rcases task_request reached present with ⟨request, asked, -⟩
        rcases request_owner asked with ⟨owner, -, owned, -⟩
        exact ⟨owner, id, resource, owned, owned, answered, Or.inr same⟩
      · rcases origins.served id task response present finished never with
          ⟨file, body, source, caching, resource, answered, whole, headers, content⟩
        have own := origins.tasks id task present (by
          rw [finished]
          simpa [Pc.caches] using never)
        rcases same_owner accepted apart own caching with ⟨owner, owned, sourceOwned⟩
        exact ⟨owner, source, resource, owned, sourceOwned, answered,
          Or.inl (delivers_of_answered headers whole body content)⟩
    · intro first second cell one two
      rcases run_holding reached first cell one with ⟨key, known, firstCaching⟩
      rcases run_holding reached second cell two with ⟨other, again, secondCaching⟩
      obtain rfl : key = other := Option.some.inj (known.symm.trans again)
      rcases same_owner accepted apart firstCaching secondCaching with ⟨owner, one, two⟩
      exact one.trans two.symm

def pagesBucket : UpstreamConfig := .s3 ⟨"pages", "", none, none, none⟩

def twoBuckets (host : String) : Config where
  hosts := .singleton host ⟨some filesBucket, none, none⟩
  upstream := some pagesBucket
  routes := ∅
  cache := forever

/-- A request without a host is served from the default upstream. -/
def pageEvents : List (Event LiteralTree) :=
  [.request [] "/a" epoch, .step (.acquire 0) rfl, .step (.lookup 0) rfl, .step (.join 0) rfl,
    .step (.answer 0 (plainBody [1, 2, 3])) rfl, .step (.store 0 none) rfl, .step (.reserve 0) rfl,
    .step (.fill 0 ⟨epoch, ⟨0⟩⟩) rfl, .step (.count 0) rfl, .step (.respond 0 none) rfl]

/-- The host `**` is then served the page without its upstream being asked. -/
def starsEvents : List (Event LiteralTree) :=
  pageEvents ++ [.request starsHeaders "/a" epoch, .step (.acquire 1) rfl, .step (.lookup 1) rfl,
    .step (.join 1) rfl, .step (.count 1) rfl, .step (.respond 1 none) rfl]

theorem stars_served_page :
    ∃ (app : AppState UpstreamConfig LiteralTree) (state : State) (task : Task),
      mainState some (twoBuckets "**") = some app ∧
      (app.cacheOf (some "**")).map HostCache.upstream = some filesBucket ∧
      owners app starsEvents = [none, some "**"] ∧
      Transition.run (appStep app) (initial 10 2 (by decide)) starsEvents = some state ∧
      state.tasks[1]? = some task ∧
      task.pc = .finished
        (.ok (some ⟨⟨some "text/plain"⟩, .file ⟨[1, 2, 3], by decide⟩, .hit, none⟩)) ∧
      ¬ Isolated app (initial 10 2 (by decide)) starsEvents state := by
  refine ⟨_, _, _, rfl, rfl, rfl, rfl, rfl, rfl, ?_⟩
  intro isolated
  rcases isolated.served 1 _ _ rfl rfl with ⟨owner, source, resource, owned, sourceOwned, answered, -⟩
  obtain rfl : some "**" = owner := Option.some.inj owned
  match source, sourceOwned with
  | 0, other => cases other
  | 1, _ =>
      -- the only answer is that to the first get
      change Action.answer 1 _ ∈ ([.start _ _ _, .acquire 0, .lookup 0, .join 0, .answer 0 _,
        .store 0 none, .reserve 0, .fill 0 _, .count 0, .respond 0 none, .start _ _ _, .acquire 1,
        .lookup 1, .join 1, .count 1, .respond 1 none] : List (Action LiteralTree)) at answered
      simp at answered

def filesEvents : List (Event LiteralTree) :=
  pageEvents ++ [.request filesHeaders "/a" epoch, .step (.acquire 1) rfl, .step (.lookup 1) rfl]

theorem requests_isolated_files :
    ∃ (app : AppState UpstreamConfig LiteralTree) (state : State),
      mainState some (twoBuckets "files") = some app ∧
      Transition.run (appStep app) (initial 10 2 (by decide)) filesEvents = some state ∧
      Isolated app (initial 10 2 (by decide)) filesEvents state := by
  have accepted : ∃ app : AppState UpstreamConfig LiteralTree,
      mainState some (twoBuckets "files") = some app ∧
      ∃ state, Transition.run (appStep app) (initial 10 2 (by decide)) filesEvents = some state :=
    ⟨_, rfl, _, rfl⟩
  rcases accepted with ⟨app, accepted, state, reached⟩
  refine ⟨app, state, accepted, reached, (requests_isolated accepted).mpr ?_ 10 2 _ _ _ reached⟩
  rintro ⟨-, hostConfig, configured, -⟩
  cases configured

end Owners

end Server3.App
