import Server3.HostSelection
import Server3.RouteOrder
import Server3.Service

/-! A hash map is iterated in another order by every process. Restarting the server with the
same configuration changes nothing, where no path is matched by a shape that two patterns
share. -/

namespace Server3.App

open Clock Server3.Configuration Routes Upstream Resource

variable {U : Type} {T : Type → Type}

section Startup

variable [PathTree T] {build : UpstreamConfig → Option U} {config : Config}

theorem addHosts_total {entries : List (Sigma fun _ : String => HostConfig)}
    (built : ∀ entry ∈ entries, ∀ upstream, entry.2.upstream = some upstream →
      (build upstream).isSome) (before : HashMap String (HostCache U T)) :
    ∃ after, entries.foldlM (addHost build config) before = some after := by
  induction entries generalizing before with
  | nil => exact ⟨before, rfl⟩
  | cons entry rest ih =>
      have later := ih fun other member => built other (List.mem_cons_of_mem _ member)
      rw [List.foldlM_cons]
      cases own : entry.2.upstream with
      | none => simpa [addHost, own] using later before
      | some upstream =>
          rcases Option.isSome_iff_exists.mp (built entry List.mem_cons_self upstream own) with
            ⟨made, found⟩
          simpa [addHost, own, found] using later _

def hostUpstream (config : Config) (host : String) : Option UpstreamConfig :=
  (config.hosts.lookup host).bind HostConfig.upstream

structure Builds (build : UpstreamConfig → Option U) (config : Config) : Prop where
  top : ∀ upstream, config.upstream = some upstream → (build upstream).isSome
  hosts : ∀ host upstream, hostUpstream config host = some upstream → (build upstream).isSome

def Serves (config : Config) : Prop :=
  config.upstream.isSome ∨ ∃ host, (hostUpstream config host).isSome

theorem member_upstream {entry : Sigma fun _ : String => HostConfig}
    (member : entry ∈ config.hosts.entries) : hostUpstream config entry.1 = entry.2.upstream := by
  rw [hostUpstream, AList.mem_lookup_iff.mpr member, Option.bind_some]

theorem hosts_built (builds : Builds build config) :
    ∃ hostUpstreams : HashMap String (HostCache U T),
      config.hosts.entries.foldlM (addHost build config) ∅ = some hostUpstreams := by
  apply addHosts_total
  intro entry member upstream own
  exact builds.hosts entry.1 upstream ((member_upstream member).trans own)

theorem hosts_added (builds : Builds build config) {hostUpstreams : HashMap String (HostCache U T)}
    (added : config.hosts.entries.foldlM (addHost build config) ∅ = some hostUpstreams) :
    hostUpstreams.entries ≠ [] ↔ ∃ host, (hostUpstream config host).isSome := by
  have found (host : String) : hostUpstreams.lookup host =
      (config.hosts.lookup host).bind (ownCache T build config host) := by
    rw [addHosts_lookup config.hosts.nodupKeys added host, AList.lookup_empty, Option.or_none]
    rfl
  constructor
  · intro some
    rcases List.exists_mem_of_ne_nil _ some with ⟨entry, member⟩
    have there := (found entry.1).symm.trans (AList.mem_lookup_iff.mpr member)
    rcases Option.bind_eq_some_iff.mp there with ⟨hostConfig, named, own⟩
    rcases Option.bind_eq_some_iff.mp own with ⟨upstream, has, -⟩
    refine ⟨entry.1, ?_⟩
    rw [hostUpstream, named, Option.bind_some, has]
    rfl
  · intro some empty
    rcases some with ⟨host, own⟩
    rcases Option.isSome_iff_exists.mp own with ⟨upstream, has⟩
    rcases Option.isSome_iff_exists.mp (builds.hosts host upstream has) with ⟨made, built⟩
    rcases Option.bind_eq_some_iff.mp has with ⟨hostConfig, named, has⟩
    have nothing : hostUpstreams.lookup host = none := by
      rw [AList.lookup, empty, List.dlookup_nil]
    rw [found host, named, Option.bind_some, ownCache, has, Option.bind_some, built] at nothing
    cases nothing

theorem main_builds (builds : Builds build config) :
    (mainState build config : Option (AppState U T)).isSome ↔ Serves config := by
  have finish (top : Option (HostCache U T)) (same : top.isSome = config.upstream.isSome) :
      ((config.hosts.entries.foldlM (addHost build config) ∅).bind fun hostUpstreams =>
        if top.isSome || !hostUpstreams.entries.isEmpty then
          some (AppState.mk top hostUpstreams) else none).isSome ↔ Serves config := by
    rcases hosts_built (T := T) builds with ⟨hostUpstreams, added⟩
    rw [added, Option.bind_some, Serves, ← hosts_added builds added, ← same]
    cases top <;> cases hostUpstreams.entries <;> simp
  cases own : config.upstream with
  | none =>
      simp only [mainState, own, Option.bind_eq_bind, Option.pure_def, Option.bind_some]
      exact finish none (by rw [own]; rfl)
  | some upstream =>
      rcases Option.isSome_iff_exists.mp (builds.top upstream own) with ⟨made, built⟩
      simp only [mainState, own, built, Option.map_some, Option.bind_eq_bind, Option.pure_def,
        Option.bind_some]
      exact finish (some _) (by rw [own]; rfl)

theorem main_accepts :
    (mainState build config : Option (AppState U T)).isSome ↔
      Builds build config ∧ Serves config := by
  constructor
  · intro accepted
    rcases Option.isSome_iff_exists.mp accepted with ⟨state, found⟩
    rcases main_parts found with ⟨-, top, added⟩
    have builds : Builds build config := by
      constructor
      · intro upstream own
        exact Option.isSome_iff_exists.mpr (top upstream own)
      · intro host upstream own
        rcases Option.bind_eq_some_iff.mp own with ⟨hostConfig, named, own⟩
        exact Option.isSome_iff_exists.mpr
          (addHosts_built added (AList.mem_lookup_iff.mp named) own)
    exact ⟨builds, (main_builds builds).mp accepted⟩
  · intro sound
    exact (main_builds sound.1).mpr sound.2

end Startup

section Alike

structure Alike [PathTree T] (one two : HostCache U T) : Prop where
  hostKey : one.hostKey = two.hostKey
  upstream : one.upstream = two.upstream
  matched : ∀ path, one.rules.matchRoute path = two.rules.matchRoute path

structure AlikeApps [PathTree T] (one two : AppState U T) : Prop where
  top : Option.Rel Alike one.upstream two.upstream
  hosts : ∀ host, Option.Rel Alike (one.hostUpstreams.lookup host) (two.hostUpstreams.lookup host)

variable [PathTree T] {one two : AppState U T} {oneCache twoCache : HostCache U T}

theorem cache_alike (alike : AlikeApps one two) (host : Option String) :
    Option.Rel Alike (one.cacheForHost host) (two.cacheForHost host) := by
  have top := alike.top
  cases host with
  | none => exact top
  | some host =>
      have own := alike.hosts host
      simp only [AppState.cacheForHost, Option.bind_some]
      generalize one.hostUpstreams.lookup host = oneFound at own ⊢
      generalize two.hostUpstreams.lookup host = twoFound at own ⊢
      cases own with
      | none => exact top
      | some same => exact .some same

theorem select_alike (alike : AlikeApps one two) (headers : HeaderMap) :
    (∃ oneCache twoCache, one.select headers = .ok oneCache ∧ two.select headers = .ok twoCache ∧
        Alike oneCache twoCache) ∨
      ∃ refused, one.select headers = .error refused ∧ two.select headers = .error refused := by
  cases named : hostname headers with
  | error refused =>
      exact Or.inr ⟨refused, by simp [AppState.select, named, Bind.bind, Except.bind],
        by simp [AppState.select, named, Bind.bind, Except.bind]⟩
  | ok host =>
      have selected := cache_alike alike host
      simp only [AppState.select, named, Bind.bind, Except.bind]
      generalize one.cacheForHost host = oneFound at selected ⊢
      generalize two.cacheForHost host = twoFound at selected ⊢
      cases selected with
      | none => exact Or.inr ⟨_, rfl, rfl⟩
      | some same => exact Or.inl ⟨_, _, rfl, rfl, same⟩

theorem labels_alike (alike : AlikeApps one two) (headers : HeaderMap) (path : String) :
    one.requestLabels headers path = two.requestLabels headers path := by
  have top : (one.upstream.bind fun upstream => getPathPattern upstream path) =
      two.upstream.bind fun upstream => getPathPattern upstream path := by
    have own := alike.top
    generalize one.upstream = oneTop at own ⊢
    generalize two.upstream = twoTop at own ⊢
    cases own with
    | none => rfl
    | some same => exact congrArg Prod.snd (same.matched path)
  have filtered (host : Option String) :
      one.filteredHostAndPath host path = two.filteredHostAndPath host path := by
    cases host with
    | none => simp only [AppState.filteredHostAndPath, Option.bind_none, top]
    | some host =>
        have own := alike.hosts host
        simp only [AppState.filteredHostAndPath, Option.bind_some]
        generalize one.hostUpstreams.lookup host = oneFound at own ⊢
        generalize two.hostUpstreams.lookup host = twoFound at own ⊢
        cases own with
        | none => simp only [Option.map_none, top]
        | some same => simp only [Option.map_some, getPathPattern, same.matched path]
  simp only [AppState.requestLabels, filtered]

theorem start_alike (alike : Alike oneCache twoCache) (state : Machine.State) (path : String)
    (now : Instant) :
    state.start oneCache.toCache path now = state.start twoCache.toCache path now := by
  have key : oneCache.toCache.hostKey = twoCache.toCache.hostKey := alike.hostKey
  have matched : oneCache.toCache.rules.matchRoute path = twoCache.toCache.rules.matchRoute path :=
    alike.matched path
  simp only [Machine.State.start, key, matched]

end Alike

section Configurations

/-- The settings of a host, with its routes in any order. -/
structure SameHost (one two : HostConfig) : Prop where
  upstream : one.upstream = two.upstream
  cache : one.cache = two.cache
  routes : Option.Rel SameRoutes one.routes two.routes

/-- One configuration, with its maps in any order. -/
structure SameConfig (one two : Config) : Prop where
  upstream : one.upstream = two.upstream
  cache : one.cache = two.cache
  routes : SameRoutes one.routes two.routes
  hosts : ∀ host, Option.Rel SameHost (one.hosts.lookup host) (two.hosts.lookup host)

variable {Shape : Type} [PathTree T] [DecidableEq Shape] [ShapedPathTree T Shape]
  [RootedPathTree T Shape] {build : UpstreamConfig → Option U} {one two : Config}

variable (T) in
/-- The patterns are written as `path_tree` has them, and none hides another. -/
structure ClearRoutes (routes : HashMap String RouteConfig) : Prop where
  rooted : ∀ pattern ∈ routes.keys, Rooted pattern
  unambiguous : Unambiguous T routes

variable (T) in
structure Clear (config : Config) : Prop where
  top : ClearRoutes T config.routes
  hosts : ∀ host hostConfig routes, config.hosts.lookup host = some hostConfig →
    hostConfig.routes = some routes → ClearRoutes T routes

theorem rooted_reads {routes : HashMap String RouteConfig}
    (rooted : ∀ pattern ∈ routes.keys, Rooted pattern) (path : String) :
    ReadsLast T (CacheRoutes.addedRoutes routes) path := by
  apply RootedPathTree.reads
  intro added member
  rcases List.mem_map.mp member with ⟨entry, among, rfl⟩
  exact rooted entry.1 (List.mem_map_of_mem among)

theorem match_same {first second : HashMap String RouteConfig} (cacheConfig : CacheConfig)
    (same : SameRoutes first second) (clear : ClearRoutes T second) (path : String) :
    (CacheRoutes.fromConfig cacheConfig first : CacheRoutes T).matchRoute path =
      (CacheRoutes.fromConfig cacheConfig second : CacheRoutes T).matchRoute path := by
  have rooted : ∀ pattern ∈ first.keys, Rooted pattern := by
    intro pattern member
    exact clear.rooted pattern ((same.map Sigma.fst).mem_iff.mp member)
  rw [CacheRoutes.match_configured _ (rooted_reads rooted path),
    CacheRoutes.match_configured _ (rooted_reads clear.rooted path), same_configured same]
  cases matched : ShapedPathTree.matched T (configured T second) path with
  | none => rfl
  | some shape =>
      rw [Option.bind_some, Option.bind_some,
        last_same same (clear.unambiguous path shape matched)]

omit [PathTree T] [RootedPathTree T Shape] in
variable (T) in
theorem distinct_unambiguous {routes : HashMap String RouteConfig}
    (distinct : ∀ pattern ∈ routes.keys, ∀ other ∈ routes.keys,
      ShapedPathTree.erase T pattern = ShapedPathTree.erase T other → pattern = other) :
    Unambiguous T routes := by
  intro path shape _ pattern member other among same alike
  exact distinct pattern member other among (same.trans alike.symm)

omit [PathTree T] [ShapedPathTree T Shape] [RootedPathTree T Shape] in
theorem same_of_perm (upstream : one.upstream = two.upstream) (cache : one.cache = two.cache)
    (routes : SameRoutes one.routes two.routes) (hosts : one.hosts.entries.Perm two.hosts.entries) :
    SameConfig one two := by
  refine ⟨upstream, cache, routes, ?_⟩
  intro host
  rw [AList.perm_lookup hosts]
  cases two.hosts.lookup host with
  | none => exact .none
  | some hostConfig =>
      refine .some ⟨rfl, rfl, ?_⟩
      cases hostConfig.routes with
      | none => exact .none
      | some order => exact .some (List.Perm.refl _)

theorem upstream_same (same : SameConfig one two) (host : String) :
    hostUpstream one host = hostUpstream two host := by
  have own := same.hosts host
  unfold hostUpstream
  generalize one.hosts.lookup host = oneHost at own ⊢
  generalize two.hosts.lookup host = twoHost at own ⊢
  cases own with
  | none => rfl
  | some alike => exact alike.upstream

theorem accepts_same (same : SameConfig one two) :
    (mainState build one : Option (AppState U T)).isSome ↔
      (mainState build two : Option (AppState U T)).isSome := by
  have hosts : hostUpstream one = hostUpstream two := funext (upstream_same same)
  have builds : Builds build one ↔ Builds build two := by
    constructor
    · intro builds
      exact ⟨same.upstream ▸ builds.top, hosts ▸ builds.hosts⟩
    · intro builds
      exact ⟨same.upstream ▸ builds.top, hosts ▸ builds.hosts⟩
  rw [main_accepts, main_accepts, builds, Serves, Serves, same.upstream, hosts]

theorem rules_alike (same : SameConfig one two) (clear : Clear T two) {host : String}
    {oneHost twoHost : HostConfig} (named : two.hosts.lookup host = some twoHost)
    (alike : SameHost oneHost twoHost) (path : String) :
    (effectiveRules T one oneHost).matchRoute path =
      (effectiveRules T two twoHost).matchRoute path := by
  have own := alike.routes
  rw [effectiveRules, effectiveRules, alike.cache, same.cache]
  generalize oneHost.routes = oneRoutes at own ⊢
  generalize routed : twoHost.routes = twoRoutes at own ⊢
  cases own with
  | none => exact match_same _ same.routes clear.top path
  | some order => exact match_same _ order (clear.hosts host twoHost _ named routed) path

theorem own_alike (same : SameConfig one two) (clear : Clear T two) (host : String) :
    Option.Rel Alike ((one.hosts.lookup host).bind (ownCache T build one host))
      ((two.hosts.lookup host).bind (ownCache T build two host)) := by
  have own := same.hosts host
  generalize one.hosts.lookup host = oneFound at own ⊢
  generalize named : two.hosts.lookup host = twoFound at own ⊢
  cases own with
  | none => exact .none
  | @some oneHost twoHost alike =>
      rw [Option.bind_some, Option.bind_some, ownCache, ownCache, alike.upstream]
      cases twoHost.upstream with
      | none => exact .none
      | some upstream =>
          rw [Option.bind_some, Option.bind_some]
          cases build upstream with
          | none => exact .none
          | some made => exact .some ⟨rfl, rfl, rules_alike same clear named alike⟩

theorem main_alike (same : SameConfig one two) (clear : Clear T two)
    {oneState twoState : AppState U T} (first : mainState build one = some oneState)
    (second : mainState build two = some twoState) : AlikeApps oneState twoState := by
  constructor
  · rw [(main_parts first).1, (main_parts second).1, topCache, topCache, same.upstream]
    cases two.upstream with
    | none => exact .none
    | some upstream =>
        rw [Option.bind_some, Option.bind_some]
        cases build upstream with
        | none => exact .none
        | some made =>
            refine .some ⟨rfl, rfl, ?_⟩
            intro path
            rw [same.cache]
            exact match_same two.cache same.routes clear.top path
  · intro host
    rw [main_hosts first, main_hosts second]
    exact own_alike same clear host

end Configurations

section Restarts

open Service (labelsOf)

variable {showTimestamp : Timestamp → String} {metadata : MetadataConfig}

theorem labels_of_alike [PathTree T] {one two : AppState U T} (alike : AlikeApps one two) :
    labelsOf one = labelsOf two := by
  funext exchange response
  rw [labelsOf, labelsOf, labels_alike alike]

theorem arrive_alike [PathTree T] {one two : AppState U T} (alike : AlikeApps one two)
    (state : Service.State) (method : String) (headers : HeaderMap) (path : String) (now : Instant) :
    state.arrive one method headers path now = state.arrive two method headers path now := by
  have labels := labels_of_alike alike
  unfold Service.State.arrive
  rcases select_alike alike headers with
    ⟨oneCache, twoCache, oneSelected, twoSelected, same⟩ | ⟨refused, oneSelected, twoSelected⟩
  · simp only [oneSelected, twoSelected, Service.State.enter, start_alike same,
      Service.State.answerAtOnce, labels]
  · simp only [oneSelected, twoSelected, Service.State.answerAtOnce, labels]

theorem step_alike [PathTree T] {one two : AppState U T} (alike : AlikeApps one two) :
    Service.step one showTimestamp metadata = Service.step two showTimestamp metadata := by
  funext state event
  cases event with
  | arrive method headers path now =>
      exact congrArg some (arrive_alike alike state method headers path now)
  | reply index => simp only [Service.step, Service.State.reply, labels_of_alike alike]
  | advance action => rfl
  | disconnect index => rfl

variable {Shape : Type} [PathTree T] [DecidableEq Shape] [ShapedPathTree T Shape]
  [RootedPathTree T Shape] {build : UpstreamConfig → Option U} {one two : Config}

variable (build) in
/-- The order in which the maps of a configuration are iterated decides nothing, where none
of them is ambiguous: the server starts in any order or in none, and every request then
selects the same upstream, and every run goes the same way. -/
theorem iteration_order_unseen (showTimestamp : Timestamp → String) (metadata : MetadataConfig)
    (same : SameConfig one two) (clear : Clear T two) :
    ((mainState build one : Option (AppState U T)).isSome ↔
      (mainState build two : Option (AppState U T)).isSome) ∧
    ∀ oneState twoState : AppState U T, mainState build one = some oneState →
      mainState build two = some twoState →
        (∀ headers, (oneState.select headers).map HostCache.upstream =
          (twoState.select headers).map HostCache.upstream) ∧
        ∀ start events, Transition.run (Service.step oneState showTimestamp metadata) start events =
          Transition.run (Service.step twoState showTimestamp metadata) start events := by
  refine ⟨accepts_same same, ?_⟩
  intro oneState twoState first second
  have alike := main_alike same clear first second
  constructor
  · intro headers
    rcases select_alike alike headers with
      ⟨oneCache, twoCache, oneSelected, twoSelected, like⟩ | ⟨refused, oneSelected, twoSelected⟩
    · rw [oneSelected, twoSelected]
      exact congrArg Except.ok like.upstream
    · rw [oneSelected, twoSelected]
  · intro start events
    rw [step_alike alike]

/-- Two hosts and two routes, in one order and in the other. -/
def twoHosts (hosts : HashMap String HostConfig) (routes : HashMap String RouteConfig) : Config where
  hosts := hosts
  upstream := none
  routes := routes
  cache := forever

theorem iteration_order_unseen_swapped :
    let bucket : HostConfig := ⟨some filesBucket, none, none⟩
    let path : HostConfig := ⟨none, none, none⟩
    let one := twoHosts ⟨[⟨"files", bucket⟩, ⟨"pages", path⟩], by simp [List.NodupKeys]⟩
      ⟨[⟨"/x", .disabled⟩, ⟨"/:id", .enabled forever⟩], by simp [List.NodupKeys]⟩
    let two := twoHosts ⟨[⟨"pages", path⟩, ⟨"files", bucket⟩], by simp [List.NodupKeys]⟩
      ⟨[⟨"/:id", .enabled forever⟩, ⟨"/x", .disabled⟩], by simp [List.NodupKeys]⟩
    let build : UpstreamConfig → Option Unit := fun _ => some ()
    ∃ oneState twoState : AppState Unit PieceTree,
      mainState build one = some oneState ∧ mainState build two = some twoState ∧
        ∀ start events,
          Transition.run (Service.step oneState (fun _ => "") ⟨true, true, none⟩) start events =
            Transition.run (Service.step twoState (fun _ => "") ⟨true, true, none⟩) start events := by
  intro bucket path one two build
  have same : SameConfig one two :=
    same_of_perm rfl rfl (List.Perm.swap _ _ _) (List.Perm.swap _ _ _)
  have clear : Clear PieceTree two := by
    refine ⟨⟨by decide, distinct_unambiguous PieceTree (by decide)⟩, ?_⟩
    intro host hostConfig routes named own
    have plain : ∀ entry ∈ two.hosts.entries, entry.2.routes = none := by
      simp [two, twoHosts, bucket, path]
    rw [plain _ (AList.mem_lookup_iff.mp named)] at own
    cases own
  have runs := iteration_order_unseen build (T := PieceTree) (fun _ => "") ⟨true, true, none⟩ same
    clear
  exact ⟨_, _, rfl, rfl, (runs.2 _ _ rfl rfl).2⟩

end Restarts

end Server3.App
