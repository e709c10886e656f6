import Mathlib.Data.List.TakeWhile
import Server3.App

/-! Which settings and which metric labels a request gets, against those of the host
that it names. -/

namespace Server3.App

open Server3.Configuration Routes Upstream Resource

variable {U : Type} {T : Type → Type}

/-- The rules of a host by its own settings, and by the top-level ones for what it
leaves open. -/
def effectiveRules (T : Type → Type) [PathTree T] (config : Config) (hostConfig : HostConfig) :
    CacheRoutes T :=
  .fromConfig (hostConfig.cache.getD config.cache) (hostConfig.routes.getD config.routes)

section Settings

variable [PathTree T] {build : UpstreamConfig → Option U} {config : Config}
  {state : AppState U T} {host : String} {hostConfig : HostConfig} {headers : HeaderMap}

def ownCache (T : Type → Type) [PathTree T] (build : UpstreamConfig → Option U) (config : Config)
    (host : String) (hostConfig : HostConfig) : Option (HostCache U T) :=
  hostConfig.upstream.bind fun upstream =>
    (build upstream).map fun upstream => ⟨⟨host, effectiveRules T config hostConfig⟩, upstream⟩

theorem addHost_some {before after : HashMap String (HostCache U T)}
    {entry : Sigma fun _ : String => HostConfig}
    (added : addHost build config before entry = some after) :
    after.lookup entry.1 = (ownCache T build config entry.1 entry.2).or (before.lookup entry.1) ∧
      ∀ other, other ≠ entry.1 → after.lookup other = before.lookup other := by
  cases own : entry.2.upstream with
  | none =>
      simp only [addHost, own, Option.some.injEq] at added
      subst added
      simp [ownCache, own]
  | some upstream =>
      simp only [addHost, own, Option.bind_eq_bind, Option.pure_def, Option.bind_eq_some_iff,
        Option.some.injEq] at added
      rcases added with ⟨built, found, rfl⟩
      refine ⟨?_, fun other different => AList.lookup_insert_ne different⟩
      rw [AList.lookup_insert, ownCache, own, Option.bind_some, found]
      rfl

theorem addHosts_lookup {entries : List (Sigma fun _ : String => HostConfig)}
    (distinct : entries.NodupKeys) {before after : HashMap String (HostCache U T)}
    (added : entries.foldlM (addHost build config) before = some after) (host : String) :
    after.lookup host = ((entries.dlookup host).bind (ownCache T build config host)).or
      (before.lookup host) := by
  induction entries generalizing before with
  | nil =>
      cases added
      rfl
  | cons entry rest ih =>
      rw [List.foldlM_cons] at added
      rcases Option.bind_eq_some_iff.mp added with ⟨middle, first, later⟩
      rw [List.nodupKeys_cons] at distinct
      have step := addHost_some first
      rw [ih distinct.2 later]
      by_cases same : host = entry.1
      · subst host
        rw [List.dlookup_eq_none.mpr distinct.1, step.1, List.dlookup_cons_eq]
        rfl
      · rw [List.dlookup_cons_ne _ _ same, step.2 host same]

theorem addHosts_built {entries : List (Sigma fun _ : String => HostConfig)}
    {before after : HashMap String (HostCache U T)}
    (added : entries.foldlM (addHost build config) before = some after)
    {entry : Sigma fun _ : String => HostConfig} (member : entry ∈ entries)
    {upstream : UpstreamConfig} (own : entry.2.upstream = some upstream) :
    ∃ built, build upstream = some built := by
  induction entries generalizing before with
  | nil => cases member
  | cons head rest ih =>
      rw [List.foldlM_cons] at added
      rcases Option.bind_eq_some_iff.mp added with ⟨middle, first, later⟩
      rcases List.mem_cons.mp member with rfl | inside
      · simp only [addHost, own, Option.bind_eq_bind, Option.bind_eq_some_iff] at first
        rcases first with ⟨built, found, -⟩
        exact ⟨built, found⟩
      · exact ih later inside

def topCache (T : Type → Type) [PathTree T] (build : UpstreamConfig → Option U) (config : Config) :
    Option (HostCache U T) :=
  config.upstream.bind fun upstream => (build upstream).map fun upstream =>
    ⟨⟨"**", .fromConfig config.cache config.routes⟩, upstream⟩

theorem main_parts (accepted : mainState build config = some state) :
    state.upstream = topCache T build config ∧
      (∀ upstream, config.upstream = some upstream → ∃ built, build upstream = some built) ∧
      config.hosts.entries.foldlM (addHost build config) ∅ = some state.hostUpstreams := by
  have finish {top : Option (HostCache U T)} (same : top = topCache T build config)
      (rest : (config.hosts.entries.foldlM (addHost build config) ∅).bind (fun hostUpstreams =>
        if top.isSome || !hostUpstreams.entries.isEmpty then
          some (AppState.mk top hostUpstreams) else none) = some state) :
      state.upstream = topCache T build config ∧
        config.hosts.entries.foldlM (addHost build config) ∅ = some state.hostUpstreams := by
    rcases Option.bind_eq_some_iff.mp rest with ⟨hosts, added, result⟩
    split at result
    · cases result
      exact ⟨same, added⟩
    · cases result
  cases own : config.upstream with
  | none =>
      simp only [mainState, own, Option.bind_eq_bind, Option.pure_def, Option.bind_some] at accepted
      have state := finish (by rw [topCache, own]; rfl) accepted
      exact ⟨state.1, (by simp), state.2⟩
  | some upstream =>
      simp only [mainState, own, Option.bind_eq_bind, Option.pure_def] at accepted
      rcases Option.bind_eq_some_iff.mp accepted with ⟨top, builtTop, rest⟩
      rcases Option.map_eq_some_iff.mp builtTop with ⟨built, found, rfl⟩
      have state := finish (by rw [topCache, own, Option.bind_some, found]; rfl) rest
      refine ⟨state.1, ?_, state.2⟩
      rintro other ⟨⟩
      exact ⟨built, found⟩

theorem main_hosts (accepted : mainState build config = some state) (host : String) :
    state.hostUpstreams.lookup host =
      (config.hosts.lookup host).bind (ownCache T build config host) := by
  have added := (main_parts accepted).2.2
  rw [addHosts_lookup config.hosts.nodupKeys added host, AList.lookup_empty, Option.or_none]
  rfl

/-- What a request for a host should get: the effective upstream, the rules of the
effective settings, none of the paths that these disable, and no answer only without an
upstream. -/
def Respects (build : UpstreamConfig → Option U) (config : Config) (hostConfig : HostConfig) :
    Except AppError (HostCache U T) → Prop
  | .ok cache =>
      (∃ upstream, hostConfig.upstream.or config.upstream = some upstream ∧
        build upstream = some cache.upstream) ∧
      (∀ path, cache.rules.matchRoute path = (effectiveRules T config hostConfig).matchRoute path) ∧
      ∀ path now, ((effectiveRules T config hostConfig).matchRoute path).1 = .disabled →
        plan (cache.rules.matchRoute path).1 now = .unrouted
  | .error _ => hostConfig.upstream.or config.upstream = none

omit [PathTree T] in
theorem select_hostname {name : Option String} (named : hostname headers = .ok name) :
    state.select headers = match state.cacheForHost name with
      | some cache => .ok cache
      | none => .error (.noUpstreamServer name) := by
  rw [AppState.select, named]
  rfl

omit [PathTree T] in
theorem select_ok {name : Option String} {cache : HostCache U T}
    (named : hostname headers = .ok name) :
    state.select headers = .ok cache ↔ state.cacheForHost name = some cache := by
  rw [select_hostname named]
  cases state.cacheForHost name <;> simp

/-- The settings of a host take precedence exactly if the host has an upstream of its own,
or nothing has one, or its settings decide every path as the top-level ones do. -/
theorem host_settings_respected (accepted : mainState build config = some state)
    (configured : config.hosts.lookup host = some hostConfig)
    (named : hostname headers = .ok (some host)) :
    Respects build config hostConfig (state.select headers) ↔
      hostConfig.upstream.isSome ∨ config.upstream = none ∨
        ∀ path, (CacheRoutes.fromConfig config.cache config.routes : CacheRoutes T).matchRoute path =
          (effectiveRules T config hostConfig).matchRoute path := by
  have parts := main_parts accepted
  have found := main_hosts accepted host
  rw [configured, Option.bind_some] at found
  cases own : hostConfig.upstream with
  | some upstream =>
      have member := AList.mem_lookup_iff.mp (Option.mem_def.mpr configured)
      rcases addHosts_built parts.2.2 member own with ⟨built, same⟩
      have selected : state.select headers =
          .ok ⟨⟨host, effectiveRules T config hostConfig⟩, built⟩ := by
        rw [select_ok named, AppState.cacheForHost, Option.bind_some, found, ownCache, own,
          Option.bind_some, same]
        rfl
      rw [selected]
      refine iff_of_true ⟨⟨upstream, by rw [own]; rfl, same⟩, fun _ => rfl, ?_⟩ (Or.inl rfl)
      intro path now disabled
      rw [disabled]
      rfl
  | none =>
      cases top : config.upstream with
      | none =>
          have selected : state.select headers = .error (.noUpstreamServer (some host)) := by
            rw [select_hostname named, AppState.cacheForHost, Option.bind_some, found, parts.1,
              ownCache, topCache, own, top]
            rfl
          rw [selected]
          exact iff_of_true (by rw [Respects, own, top]; rfl) (Or.inr (Or.inl rfl))
      | some upstream =>
          rcases parts.2.1 upstream top with ⟨built, same⟩
          have selected : state.select headers =
              .ok ⟨⟨"**", .fromConfig config.cache config.routes⟩, built⟩ := by
            rw [select_ok named, AppState.cacheForHost, Option.bind_some, found, parts.1, ownCache,
              topCache, own, top, Option.bind_some, same]
            rfl
          rw [selected, Respects, own, Option.none_or, top]
          constructor
          · rintro ⟨-, rules, -⟩
            exact Or.inr (Or.inr rules)
          · rintro (impossible | impossible | rules)
            · cases impossible
            · cases impossible
            · refine ⟨⟨upstream, rfl, same⟩, rules, ?_⟩
              intro path now disabled
              rw [rules, disabled]
              rfl

def filesBucket : UpstreamConfig := .s3 ⟨"files", "", none, none, none⟩

def forever : CacheConfig := ⟨.other .forever⟩

def closedPath : HostConfig where
  upstream := none
  routes := some (.singleton "/private" .disabled)
  cache := none

def closedPathConfig : Config where
  hosts := .singleton "files" closedPath
  upstream := some filesBucket
  routes := ∅
  cache := forever

def filesHeaders : HeaderMap := [("host", [102, 105, 108, 101, 115])]

/-- The path that the host closes is fetched and cached. -/
theorem closed_path_fetched :
    ∃ (state : AppState Unit LiteralTree) (cache : HostCache Unit LiteralTree),
      mainState (fun _ => some ()) closedPathConfig = some state ∧
      closedPathConfig.hosts.lookup "files" = some closedPath ∧
      hostname filesHeaders = .ok (some "files") ∧ state.select filesHeaders = .ok cache ∧
      plan (cache.rules.matchRoute "/private").1 epoch = .cached none ∧
      ¬ Respects (fun _ => some ()) closedPathConfig closedPath (state.select filesHeaders) := by
  refine ⟨_, _, rfl, rfl, rfl, rfl, rfl, ?_⟩
  rintro ⟨-, -, closed⟩
  have unrouted := closed "/private" epoch rfl
  cases unrouted

/-- With an upstream of its own the host closes its path. -/
theorem host_settings_respected_own :
    ∃ state : AppState Unit LiteralTree,
      mainState (fun _ => some ())
        { closedPathConfig with
          hosts := .singleton "files" { closedPath with upstream := some filesBucket } } =
            some state ∧
      Respects (fun _ => some ())
        { closedPathConfig with
          hosts := .singleton "files" { closedPath with upstream := some filesBucket } }
        { closedPath with upstream := some filesBucket } (state.select filesHeaders) :=
  ⟨_, rfl, (host_settings_respected rfl rfl rfl).mpr (Or.inl rfl)⟩

end Settings

section Labels

theorem rsplit_none {separator : Char} {text : List Char} (absent : separator ∉ text) :
    rsplitOnce separator text = none := by
  have all : text.reverse.dropWhile (fun char => char ≠ separator) = [] := by
    rw [List.dropWhile_eq_nil_iff]
    intro char member
    simp only [ne_eq, decide_not, Bool.not_eq_true', decide_eq_false_iff_not]
    rintro rfl
    exact absent (List.mem_reverse.mp member)
  rw [rsplitOnce, all]

theorem rsplit_some {separator : Char} {text : List Char} (present : separator ∈ text) :
    ∃ before after, rsplitOnce separator text = some (before, after) ∧
      text = before ++ separator :: after ∧ separator ∉ after := by
  cases rest : text.reverse.dropWhile fun char => char ≠ separator with
  | nil =>
      have none := List.dropWhile_eq_nil_iff.mp rest separator (List.mem_reverse.mpr present)
      simp at none
  | cons found before =>
      have same : found = separator := by
        have head := List.head?_dropWhile_not (fun char => decide (char ≠ separator)) text.reverse
        rw [rest] at head
        simpa using head
      subst found
      refine ⟨before.reverse, _, by rw [rsplitOnce, rest], ?_, ?_⟩
      · rw [← List.reverse_inj, List.reverse_append, List.reverse_cons, List.reverse_reverse,
          List.reverse_reverse, List.append_assoc, List.singleton_append, ← rest,
          List.takeWhile_append_dropWhile]
      · intro again
        have other := List.mem_takeWhile_imp (List.mem_reverse.mp again)
        simp at other

theorem stripPort_same {value : String} : stripPort value = value ↔ ':' ∉ value.toList := by
  constructor
  · intro same present
    rcases rsplit_some present with ⟨before, after, split, text, -⟩
    rw [stripPort, split] at same
    have short := congrArg String.toList same
    rw [String.toList_ofList, text] at short
    have lengths := congrArg List.length short
    simp at lengths
  · intro absent
    rw [stripPort, rsplit_none absent]

variable [PathTree T] {state : AppState U T} {headers : HeaderMap} {path : String}
  {cache : HostCache U T}

def pathLabel (cache : HostCache U T) (path : String) : String :=
  (getPathPattern cache path).getD "**"

def AppState.selectedHost (state : AppState U T) (headers : HeaderMap) : String :=
  match hostname headers with
  | .ok (some host) => if (state.hostUpstreams.lookup host).isSome then host else "**"
  | _ => "**"

/-- The value has no colon, or names no host with or without its port, or without it a
host that happens to be labelled as the default cache is. -/
def LabelsAgree (state : AppState U T) (headers : HeaderMap) (path : String) : Prop :=
  ∀ value, host headers = .ok (some value) → ':' ∈ value.toList →
    state.hostUpstreams.lookup value = none ∧
      ∀ own, state.hostUpstreams.lookup (stripPort value) = some own → stripPort value = "**" ∧
        ((state.upstream.bind fun upstream => getPathPattern upstream path).getD "**" =
          pathLabel own path)

theorem labels_value {value : String} (read : host headers = .ok (some value)) :
    state.requestLabels headers path =
      match state.hostUpstreams.lookup value with
      | some own => (value, pathLabel own path)
      | none =>
          ("**", (state.upstream.bind fun upstream => getPathPattern upstream path).getD "**") := by
  rw [AppState.requestLabels, read]
  simp only [AppState.filteredHostAndPath, Option.bind_some]
  cases state.hostUpstreams.lookup value <;> rfl

theorem hostname_value {value : String} (read : host headers = .ok (some value)) :
    hostname headers = .ok (some (stripPort value)) := by
  rw [hostname, read]
  rfl

omit [PathTree T] in
theorem selected_host_value {value : String} (read : host headers = .ok (some value)) :
    state.selectedHost headers =
      if (state.hostUpstreams.lookup (stripPort value)).isSome then stripPort value else "**" := by
  rw [AppState.selectedHost, hostname_value read]

omit [PathTree T] in
theorem select_value {value : String} (read : host headers = .ok (some value))
    (selected : state.select headers = .ok cache) :
    (state.hostUpstreams.lookup (stripPort value)).or state.upstream = some cache :=
  (select_ok (hostname_value read)).mp selected

theorem labels_agree_value {value : String} (read : host headers = .ok (some value))
    (served : (state.hostUpstreams.lookup (stripPort value)).or state.upstream = some cache) :
    state.requestLabels headers path = (state.selectedHost headers, pathLabel cache path) ↔
      (':' ∈ value.toList → state.hostUpstreams.lookup value = none ∧
        ∀ own, state.hostUpstreams.lookup (stripPort value) = some own → stripPort value = "**" ∧
          ((state.upstream.bind fun upstream => getPathPattern upstream path).getD "**" =
            pathLabel own path)) := by
  rw [labels_value read, selected_host_value read]
  by_cases colon : ':' ∈ value.toList
  · have changed : stripPort value ≠ value := fun same => stripPort_same.mp same colon
    have named : value ≠ "**" := by
      rintro rfl
      exact absurd colon (by decide)
    rw [imp_iff_right colon]
    cases raw : state.hostUpstreams.lookup value with
    | some other =>
        refine iff_of_false ?_ (by simp)
        intro same
        have first := (Prod.mk.inj same).1
        split at first
        · exact changed first.symm
        · exact named first
    | none =>
        cases stripped : state.hostUpstreams.lookup (stripPort value) with
        | some own =>
            rw [stripped] at served
            obtain rfl := Option.some.inj served
            simp [eq_comm]
        | none =>
            rw [stripped, Option.none_or] at served
            simp [served, pathLabel]
  · have same := stripPort_same.mpr colon
    refine iff_of_true ?_ fun present => absurd present colon
    rw [same] at served ⊢
    cases raw : state.hostUpstreams.lookup value with
    | some own =>
        rw [raw] at served
        obtain rfl := Option.some.inj served
        rfl
    | none =>
        rw [raw, Option.none_or] at served
        simp [served, pathLabel]

/-- The labels of a request name the cache that serves it exactly if its host value is one
of these. -/
theorem request_labels_agree (selected : state.select headers = .ok cache) :
    state.requestLabels headers path = (state.selectedHost headers, pathLabel cache path) ↔
      LabelsAgree state headers path := by
  cases read : host headers with
  | error failure =>
      rw [AppState.select, hostname, read] at selected
      cases selected
  | ok found =>
      cases found with
      | none =>
          refine iff_of_true ?_ ?_
          · have unnamed : hostname headers = .ok none := by
              rw [hostname, read]
              rfl
            have top : state.upstream = some cache := (select_ok unnamed).mp selected
            rw [AppState.requestLabels, AppState.selectedHost, hostname, read]
            simp only [AppState.filteredHostAndPath, Option.bind_none, top, Option.bind_some]
            rfl
          · intro value again
            rw [read] at again
            cases again
      | some value =>
          rw [labels_agree_value read (select_value read selected), LabelsAgree, read]
          simp

def filesState : AppState Unit LiteralTree where
  upstream := none
  hostUpstreams := .singleton "files" ⟨plainCache, ()⟩

def filesPortHeaders : HeaderMap := [("host", [102, 105, 108, 101, 115, 58, 56, 48])]

/-- A request with a port is served by the cache of its host and labelled with none. -/
theorem port_hides_host :
    ∃ cache, filesState.select filesPortHeaders = .ok cache ∧
      filesState.selectedHost filesPortHeaders = "files" ∧
      filesState.requestLabels filesPortHeaders "/a" = ("**", "**") ∧
      filesState.requestLabels filesPortHeaders "/a" ≠
        (filesState.selectedHost filesPortHeaders, pathLabel cache "/a") :=
  ⟨⟨plainCache, ()⟩, rfl, rfl, rfl, by decide⟩

theorem request_labels_agree_portless :
    filesState.requestLabels filesHeaders "/a" =
      (filesState.selectedHost filesHeaders,
        pathLabel (⟨plainCache, ()⟩ : HostCache Unit LiteralTree) "/a") :=
  (request_labels_agree rfl).mpr (by
    rintro value ⟨⟩ colon
    exact absurd colon (by decide))

end Labels

end Server3.App
