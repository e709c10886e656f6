import Server3.CapacityPool
import Server3.Recency
import Server3.Routes
import Server3.Upstream

/-! The cached resource, the metrics, and the parts of `Cache::get` that do not
touch shared state. -/

namespace Server3.Resource

open Clock Routes Upstream CapacityPool

structure CachedResourceKey where
  host : String
  path : String
  deriving DecidableEq, Repr

/-- `Uuid::new_v4` is taken never to repeat a value. -/
abbrev Uuid := Nat

/-- The handles of the eviction counters and disk gauges are those of one host,
kept as its host key. -/
structure CachedResource where
  id : Uuid
  host : String
  headers : UpstreamResourceHeaders
  file : File
  expiresAt : Option Instant
  expiresAtTimestamp : Option Timestamp
  reservation : CacheCapacityReservation
  deriving DecidableEq

namespace CachedResource

def size (resource : CachedResource) : UInt64 := resource.file.size

def isExpired (resource : CachedResource) (now : Instant) : Bool :=
  match resource.expiresAt with
  | none => false
  | some expiresAt => decide (expiresAt ≤ now)

theorem not_expired {resource : CachedResource} {now : Instant} :
    resource.isExpired now = false ↔ ∀ expiresAt, resource.expiresAt = some expiresAt →
      now < expiresAt := by
  unfold isExpired
  cases resource.expiresAt with
  | none => simp
  | some expiresAt =>
      simp only [decide_eq_false_iff_not, instant_not_le, Option.some.injEq, forall_eq']

end CachedResource

structure Cache (T : Type → Type) where
  hostKey : String
  rules : CacheRoutes T

inductive CacheOutcome where
  | hit
  | miss
  | never
  deriving DecidableEq, Repr

/-- A response streams the upstream body under `CacheNever` and a cache file otherwise. -/
inductive ResponseBody where
  | upstream (body : BodyStream)
  | file (file : File)
  deriving DecidableEq

structure CachedResourceResponse where
  headers : UpstreamResourceHeaders
  body : ResponseBody
  outcome : CacheOutcome
  expiresAt : Option Timestamp
  deriving DecidableEq

structure CacheRouteMetrics where
  requestCount : Nat
  missCount : Nat
  missBytes : Nat
  hitCount : Nat
  hitBytes : Nat
  neverCount : Nat
  errorCount : Nat
  notFoundCount : Nat
  unroutedCount : Nat
  deriving DecidableEq, Repr

/-- Counters by their labels: route metrics by host and path, the others by host. -/
structure Metrics where
  route : String → String → CacheRouteMetrics
  evictionCount : String → Nat
  evictionBytes : String → Nat
  diskFileCount : String → Int
  diskBytes : String → Int

namespace Metrics

def zero : Metrics :=
  ⟨fun _ _ => ⟨0, 0, 0, 0, 0, 0, 0, 0, 0⟩, fun _ => 0, fun _ => 0, fun _ => 0, fun _ => 0⟩

/-- Handles with one host key share the counters of that host. -/
def updateRoute (metrics : Metrics) (host path : String)
    (change : CacheRouteMetrics → CacheRouteMetrics) : Metrics :=
  { metrics with route := fun someHost somePath =>
      if someHost = host ∧ somePath = path then change (metrics.route someHost somePath)
      else metrics.route someHost somePath }

def evicted (metrics : Metrics) (resource : CachedResource) : Metrics :=
  { metrics with
    evictionCount := Function.update metrics.evictionCount resource.host
      (metrics.evictionCount resource.host + 1)
    evictionBytes := Function.update metrics.evictionBytes resource.host
      (metrics.evictionBytes resource.host + resource.size.toNat) }

def created (metrics : Metrics) (host : String) (size : UInt64) : Metrics :=
  { metrics with
    diskFileCount := Function.update metrics.diskFileCount host (metrics.diskFileCount host + 1)
    diskBytes := Function.update metrics.diskBytes host (metrics.diskBytes host + size.toNat) }

/-- `Drop for CachedResource`. -/
def dropped (metrics : Metrics) (resource : CachedResource) : Metrics :=
  { metrics with
    diskFileCount := Function.update metrics.diskFileCount resource.host
      (metrics.diskFileCount resource.host - 1)
    diskBytes := Function.update metrics.diskBytes resource.host
      (metrics.diskBytes resource.host - resource.size.toNat) }

end Metrics

/-- `self.route_metrics[pattern]`, or the default route's metrics. -/
def routeLabel (pattern : Option String) : String := pattern.getD "**"

/-- What `Cache::get` decides about a path before it looks at the cache. -/
inductive Plan where
  | unrouted
  | never
  | cached (expiresAfter : Option Instant)
  | panicked
  deriving DecidableEq, Repr

/-- `now.checked_add(*duration).unwrap()` is evaluated on every request under `CacheFor`. -/
def plan (rule : CacheRouteRule) (now : Instant) : Plan :=
  match rule with
  | .disabled => .unrouted
  | .enabled ⟨.cacheForever⟩ => .cached none
  | .enabled ⟨.cacheFor duration⟩ =>
      match now.checkedAdd duration with
      | some expiresAt => .cached (some expiresAt)
      | none => .panicked
  | .enabled ⟨.cacheNever⟩ => .never

def Cache.key {T : Type → Type} (cache : Cache T) (path : String) : CachedResourceKey :=
  ⟨cache.hostKey, path⟩

structure ClockReading where
  instant : Instant
  timestamp : Timestamp
  deriving DecidableEq, Repr

/-- The estimate for the `Server3-Expires-At` header. -/
def expiresAtTimestamp (expiresAt : Option Instant) (clock : ClockReading) : Option Timestamp :=
  expiresAt.bind fun expiresAt =>
    clock.timestamp.checkedAdd (expiresAt.saturatingDurationSince clock.instant)

def newResource (id : Uuid) (expiresAt : Option Instant) (host : String)
    (headers : UpstreamResourceHeaders) (file : File) (reservation : CacheCapacityReservation)
    (clock : ClockReading) : CachedResource where
  id := id
  host := host
  headers := headers
  file := file
  expiresAt := expiresAt
  expiresAtTimestamp := expiresAtTimestamp expiresAt clock
  reservation := reservation

/-- The response of a get whose initialiser has the given id. -/
def CachedResource.response (resource : CachedResource) (initId : Uuid) : CachedResourceResponse where
  headers := resource.headers
  body := .file resource.file
  outcome := if initId = resource.id then .miss else .hit
  expiresAt := resource.expiresAtTimestamp

/-- The hit or miss counters of a get that holds its resource. -/
def CacheRouteMetrics.served (resource : CachedResource) (initId : Uuid)
    (metrics : CacheRouteMetrics) : CacheRouteMetrics :=
  if resource.id = initId then
    { metrics with
      missCount := metrics.missCount + 1, missBytes := metrics.missBytes + resource.size.toNat }
  else
    { metrics with
      hitCount := metrics.hitCount + 1, hitBytes := metrics.hitBytes + resource.size.toNat }

def CacheRouteMetrics.requested (metrics : CacheRouteMetrics) : CacheRouteMetrics :=
  { metrics with requestCount := metrics.requestCount + 1 }

def CacheRouteMetrics.unrouted (metrics : CacheRouteMetrics) : CacheRouteMetrics :=
  { metrics with unroutedCount := metrics.unroutedCount + 1 }

def CacheRouteMetrics.never (metrics : CacheRouteMetrics) : CacheRouteMetrics :=
  { metrics with neverCount := metrics.neverCount + 1 }

def CacheRouteMetrics.notFound (metrics : CacheRouteMetrics) : CacheRouteMetrics :=
  { metrics with notFoundCount := metrics.notFoundCount + 1 }

def CacheRouteMetrics.failed (metrics : CacheRouteMetrics) : CacheRouteMetrics :=
  { metrics with errorCount := metrics.errorCount + 1 }

def plainCache : Cache LiteralTree := ⟨"files", CacheRoutes.new (.enabled ⟨.cacheForever⟩)⟩

def epoch : Instant := ⟨0, by decide⟩

def plainBody (content : Bytes) : Answer := .ok (some ⟨⟨some "text/plain"⟩, ⟨[content], none⟩⟩)

end Server3.Resource
