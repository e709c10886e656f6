import Server3.ConfiguredRoutes
import Server3.Resource

/-! What `main` builds from the configuration, and how a request selects a cache. -/

namespace Server3.App

open Server3.Configuration Routes Upstream Resource

/-- `Cache<ArcUpstream>`: a cache handle with its upstream. -/
structure HostCache (U : Type) (T : Type → Type) extends Cache T where
  upstream : U

structure AppState (U : Type) (T : Type → Type) where
  upstream : Option (HostCache U T)
  hostUpstreams : HashMap String (HostCache U T)

/-- The bytes of a header value; it may hold any byte above 31 but 127, and tabs. -/
abbrev HeaderValue := Bytes

/-- Header names are compared in lower case, in which the map holds them. -/
abbrev HeaderMap := List (String × HeaderValue)

def HeaderMap.getAll (headers : HeaderMap) (name : String) : List HeaderValue :=
  (headers.filter fun header => header.1 = name).map Prod.snd

/-- `HeaderValue::to_str` takes visible ASCII and tabs. -/
def toStr (value : HeaderValue) : Option String :=
  if value.all fun byte => (32 ≤ byte && byte < 127) || byte = 9 then
    some (String.ofList (value.map fun byte => Char.ofNat byte.toNat))
  else none

inductive AppError where
  | noUpstreamServer (hostname : Option String)
  | invalidHostHeader
  deriving DecidableEq, Repr

/-- The `Host` header, which must not be there twice. -/
def host (headers : HeaderMap) : Except AppError (Option String) :=
  match headers.getAll "host" with
  | [] => .ok none
  | [value] =>
      match toStr value with
      | some host => .ok (some host)
      | none => .error .invalidHostHeader
  | _ => .error .invalidHostHeader

def rsplitOnce (separator : Char) (text : List Char) : Option (List Char × List Char) :=
  match text.reverse.dropWhile fun char => char ≠ separator with
  | [] => none
  | _ :: before =>
      some (before.reverse, (text.reverse.takeWhile fun char => char ≠ separator).reverse)

def stripPort (hostValue : String) : String :=
  match rsplitOnce ':' hostValue.toList with
  | some (host, _) => String.ofList host
  | none => hostValue

section Main

variable {U : Type} {T : Type → Type} [PathTree T] (build : UpstreamConfig → Option U)

/-- A host without an upstream of its own is skipped. -/
def addHost (config : Config) (hostUpstreams : HashMap String (HostCache U T))
    (entry : Sigma fun _ : String => HostConfig) : Option (HashMap String (HostCache U T)) :=
  let hostCache := entry.2.cache.getD config.cache
  let hostRoutes := entry.2.routes.getD config.routes
  let routes := CacheRoutes.fromConfig hostCache hostRoutes
  match entry.2.upstream with
  | none => some hostUpstreams
  | some upstream => do
      let upstream ← build upstream
      return hostUpstreams.insert entry.1 ⟨⟨entry.1, routes⟩, upstream⟩

/-- The part of `main` from the routes to the state of the app. `build_upstream` is a
parameter. -/
def mainState (config : Config) : Option (AppState U T) := do
  let routes := CacheRoutes.fromConfig config.cache config.routes
  let upstream ← match config.upstream with
    | some upstream => (build upstream).map fun upstream => some (HostCache.mk ⟨"**", routes⟩ upstream)
    | none => some none
  let hostUpstreams ← config.hosts.entries.foldlM (addHost build config) ∅
  if upstream.isSome || !hostUpstreams.entries.isEmpty then
    return ⟨upstream, hostUpstreams⟩
  else none

end Main

section Select

variable {U : Type} {T : Type → Type}

def AppState.cacheForHost (state : AppState U T) (host : Option String) :
    Option (HostCache U T) :=
  (host.bind fun host => state.hostUpstreams.lookup host).or state.upstream

def hostname (headers : HeaderMap) : Except AppError (Option String) :=
  (host headers).map fun hostValue => hostValue.map stripPort

/-- `get_resource` up to the call of `Cache::get`. -/
def AppState.select (state : AppState U T) (headers : HeaderMap) :
    Except AppError (HostCache U T) := do
  let hostname ← hostname headers
  match state.cacheForHost hostname with
  | some cache => .ok cache
  | none => .error (.noUpstreamServer hostname)

variable [PathTree T]

def getPathPattern (cache : HostCache U T) (path : String) : Option String :=
  (cache.rules.matchRoute path).2

def AppState.filteredHostAndPath (state : AppState U T) (host : Option String) (path : String) :
    Option String × Option String :=
  match host.bind fun host => (state.hostUpstreams.lookup host).map fun cache => (host, cache) with
  | some (host, upstream) => (some host, getPathPattern upstream path)
  | none => (none, state.upstream.bind fun upstream => getPathPattern upstream path)

/-- The `host` and `path` labels of `request_metrics_middleware`. -/
def AppState.requestLabels (state : AppState U T) (headers : HeaderMap) (path : String) :
    String × String :=
  let host := match host headers with
    | .ok host => host
    | .error _ => none
  let labels := state.filteredHostAndPath host path
  (labels.1.getD "**", labels.2.getD "**")

end Select

end Server3.App
