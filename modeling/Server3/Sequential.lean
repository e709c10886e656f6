import Server3.Resource
import Mathlib.Data.Option.Basic

/-! `Cache::get` run to its end with no other get in flight. A cell of the map is
then owned by the map and the running get only, so it is its content here. -/

namespace Server3.Sequential

open Clock Routes Upstream Resource Recency
open CapacityPool (CacheCapacityPool CacheCapacityReservation)

structure CacheStorage where
  pool : CacheCapacityPool
  cachedResources : LruCache CachedResourceKey (Option CachedResource)
  metrics : Metrics
  poolPanicked : Bool

def CacheStorage.new (capacity : UInt64) (maxCacheFiles : Nat) (positive : 0 < maxCacheFiles) :
    CacheStorage where
  pool := ⟨capacity⟩
  cachedResources := LruCache.new maxCacheFiles positive
  metrics := Metrics.zero
  poolPanicked := false

/-- The handle and arguments of a get, the value of `Uuid::new_v4`, and what the
outside does if it is asked. -/
structure Call (T : Type → Type) where
  cache : Cache T
  path : String
  now : Instant
  initId : Uuid
  answer : Answer
  diskError : Option String
  cloneError : Option String
  clock : ClockReading

inductive Reply where
  | returned (result : Except UpstreamError (Option CachedResourceResponse))
  | panicked
  deriving DecidableEq

structure Outcome where
  reply : Reply
  upstreamCalls : Nat
  deriving DecidableEq

namespace Call

variable {T : Type → Type}

def key (call : Call T) : CachedResourceKey := call.cache.key call.path

def plan [PathTree T] (call : Call T) : Plan :=
  Resource.plan (call.cache.rules.matchRoute call.path).1 call.now

def label [PathTree T] (call : Call T) : String :=
  routeLabel (call.cache.rules.matchRoute call.path).2

def resource (call : Call T) (expiresAfter : Option Instant) (headers : UpstreamResourceHeaders)
    (file : File) (reservation : CacheCapacityReservation) : CachedResource :=
  newResource call.initId expiresAfter call.cache.hostKey headers file reservation call.clock

/-- `body_from_cached_resource` clones the file handle, which may fail. -/
def respond (call : Call T) (resource : CachedResource) : Reply :=
  match call.cloneError with
  | none => .returned (.ok (some (resource.response call.initId)))
  | some message => .returned (.error (.io message))

def passOn (call : Call T) : Reply :=
  .returned (call.answer.map fun found => found.map fun resource =>
    ⟨resource.headers, .upstream resource.body, .never, none⟩)

end Call

namespace CacheStorage

def keys (storage : CacheStorage) : List CachedResourceKey :=
  storage.cachedResources.entries.map Prod.fst

def giveBack (storage : CacheStorage) (reservation : CacheCapacityReservation) : CacheStorage :=
  match storage.pool.returnToPool reservation with
  | some pool => { storage with pool := pool }
  | none => { storage with poolPanicked := true }

def drop (storage : CacheStorage) : Option CachedResource → CacheStorage
  | some resource =>
      { storage with metrics := storage.metrics.dropped resource }.giveBack resource.reservation
  | none => storage

/-- Lines 185 to 196: the cell of the key, if it is filled and not expired. What
the map lets go of is dropped with the guard. -/
def lookup (storage : CacheStorage) (key : CachedResourceKey) (now : Instant) :
    CacheStorage × Option CachedResource :=
  let inserted := storage.cachedResources.getOrInsertMutRef key none
  let promoted := { storage with cachedResources := inserted.cache }.drop
    (inserted.displaced.bind Prod.snd)
  match inserted.value with
  | none => (promoted, none)
  | some resource =>
      if resource.isExpired now then
        ({ promoted with cachedResources := inserted.cache.replace key none }.drop (some resource),
          none)
      else (promoted, some resource)

def evictionMetrics (storage : CacheStorage) : Option CachedResource → Metrics
  | some resource => storage.metrics.evicted resource
  | none => storage.metrics

/-- Lines 460 to 508. The first argument bounds the rounds; the result is `none`
if they do not suffice or `reserve_up_to` panics. -/
def reserveLoop (size : UInt64) : Nat → CacheStorage →
    Option (CacheStorage × CacheCapacityReservation)
  | 0, _ => none
  | rounds + 1, storage =>
      match storage.pool.reserve size with
      | some (pool, reservation) => some ({ storage with pool := pool }, reservation)
      | none =>
          match storage.cachedResources.popLru with
          | some ((_, victim), rest) =>
              reserveLoop size rounds
                ({ storage with
                  cachedResources := rest
                  metrics := storage.evictionMetrics victim }.drop victim)
          | none =>
              (storage.pool.reserveUpTo size).map fun granted =>
                ({ storage with pool := granted.1 }, granted.2)

/-- A round is enough for every entry there is to evict, and one more. -/
def reserve (storage : CacheStorage) (size : UInt64) :
    Option (CacheStorage × CacheCapacityReservation) :=
  reserveLoop size (storage.cachedResources.entries.length + 1) storage

/-- Where the filled cell is at the end of the get: in the map, unless its own
reservation loop evicted it. -/
def keep (storage : CacheStorage) (key : CachedResourceKey) (resource : CachedResource) :
    CacheStorage :=
  if key ∈ storage.keys then
    { storage with cachedResources := storage.cachedResources.replace key (some resource) }
  else storage.drop (some resource)

variable {T : Type → Type} [PathTree T]

def count (storage : CacheStorage) (call : Call T)
    (change : CacheRouteMetrics → CacheRouteMetrics) : CacheStorage :=
  { storage with
    metrics := storage.metrics.updateRoute call.cache.hostKey call.label change }

/-- The initialiser of an empty cell and what follows it. -/
def getOrTryInit (storage : CacheStorage) (call : Call T) (expiresAfter : Option Instant) :
    CacheStorage × Outcome :=
  match call.answer with
  | .error failure =>
      (storage.count call CacheRouteMetrics.failed, ⟨.returned (.error failure), 1⟩)
  | .ok none => (storage.count call CacheRouteMetrics.notFound, ⟨.returned (.ok none), 1⟩)
  | .ok (some found) =>
      match store found.body call.diskError with
      | .error failure =>
          (storage.count call CacheRouteMetrics.failed, ⟨.returned (.error failure), 1⟩)
      | .ok file =>
          match storage.reserve file.size with
          | none => (storage, ⟨.panicked, 1⟩)
          | some (reserved, reservation) =>
              let resource := call.resource expiresAfter found.headers file reservation
              let created :=
                { reserved with
                  metrics := reserved.metrics.created call.cache.hostKey file.size }
              ((created.count call (CacheRouteMetrics.served resource call.initId)).keep call.key
                resource, ⟨call.respond resource, 1⟩)

def get (storage : CacheStorage) (call : Call T) : CacheStorage × Outcome :=
  let requested := storage.count call CacheRouteMetrics.requested
  match call.plan with
  | .unrouted =>
      (requested.count call CacheRouteMetrics.unrouted, ⟨.returned (.ok none), 0⟩)
  | .never => (requested.count call CacheRouteMetrics.never, ⟨call.passOn, 1⟩)
  | .panicked => (requested, ⟨.panicked, 0⟩)
  | .cached expiresAfter =>
      match requested.lookup call.key call.now with
      | (found, some resource) =>
          (found.count call (CacheRouteMetrics.served resource call.initId),
            ⟨call.respond resource, 0⟩)
      | (missed, none) => missed.getOrTryInit call expiresAfter

def step (storage : CacheStorage) (call : Call T) : Option CacheStorage :=
  some (storage.get call).1

def serve (storage : CacheStorage) (calls : List (Call T)) : CacheStorage :=
  calls.foldl (fun storage call => (storage.get call).1) storage

def outcomes (storage : CacheStorage) : List (Call T) → List (Call T × Outcome)
  | [] => []
  | call :: later => (call, (storage.get call).2) :: outcomes (storage.get call).1 later

def fetches (storage : CacheStorage) (calls : List (Call T)) : List (Call T) :=
  ((storage.outcomes calls).filter fun served => 0 < served.2.upstreamCalls).map Prod.fst

section Lookups

variable {storage first second : CacheStorage} {cell : Option CachedResource}
  {key : CachedResourceKey}

@[simp] theorem drop_cachedResources :
    (storage.drop cell).cachedResources = storage.cachedResources := by
  cases cell with
  | none => rfl
  | some resource =>
      simp only [drop, giveBack]
      split <;> rfl

/-- What a drop gives back does not depend on the rest of the storage. -/
theorem drop_pool_congr (same : first.pool = second.pool) :
    (first.drop cell).pool = (second.drop cell).pool := by
  cases cell with
  | none => exact same
  | some resource =>
      simp only [drop, giveBack, same]
      split <;> simp_all

theorem drop_available {resource : CachedResource}
    (fits : storage.pool.availableCapacity.toNat + resource.reservation.reserved.toNat < 2^64) :
    (storage.drop (some resource)).pool.availableCapacity.toNat =
      storage.pool.availableCapacity.toNat + resource.reservation.reserved.toNat := by
  rcases CapacityPool.return_succeeds fits with ⟨next, returned⟩
  simp only [drop, giveBack, returned]
  exact CapacityPool.return_some.mp returned

theorem lookup_kept {now : Instant} (member : (key, cell) ∈ storage.cachedResources.entries)
    (unexpired : ∀ resource, cell = some resource → resource.isExpired now = false) :
    ∃ map, map.entries = (key, cell) :: LruCache.others storage.cachedResources.entries key ∧
      map.capacity = storage.cachedResources.capacity ∧
      storage.lookup key now = ({ storage with cachedResources := map }, cell) := by
  obtain ⟨entries, value, displaced⟩ := LruCache.get_or_insert_present none member
  refine ⟨_, entries, LruCache.get_or_insert_capacity key none, ?_⟩
  cases cell with
  | none => simp only [lookup, value, displaced, Option.bind_none, drop]
  | some resource =>
      simp only [lookup, value, displaced, unexpired resource rfl, Bool.false_eq_true, if_false,
        Option.bind_none, drop]

theorem lookup_expired {now : Instant} {resource : CachedResource}
    (member : (key, some resource) ∈ storage.cachedResources.entries)
    (expired : resource.isExpired now = true) :
    ∃ map, map.entries = (key, none) :: LruCache.others storage.cachedResources.entries key ∧
      map.capacity = storage.cachedResources.capacity ∧
      storage.lookup key now =
        ({ storage with cachedResources := map }.drop (some resource), none) := by
  obtain ⟨entries, value, displaced⟩ := LruCache.get_or_insert_present none member
  refine ⟨(storage.cachedResources.getOrInsertMutRef key none).cache.replace key none,
    LruCache.replace_front none entries, LruCache.get_or_insert_capacity key none, ?_⟩
  simp only [lookup, value, displaced, expired, if_true, Option.bind_none, drop]

theorem lookup_absent (now : Instant) (absent : key ∉ storage.keys) :
    ∃ map, map.entries = (key, none) ::
        storage.cachedResources.entries.take (storage.cachedResources.capacity - 1) ∧
      map.capacity = storage.cachedResources.capacity ∧
      storage.lookup key now =
        ({ storage with cachedResources := map }.drop
          (storage.cachedResources.displaced.bind Prod.snd), none) := by
  obtain ⟨entries, value, displaced⟩ := LruCache.get_or_insert_absent none absent
  refine ⟨_, entries, LruCache.get_or_insert_capacity key none, ?_⟩
  simp only [lookup, value, displaced]

theorem cell_cases (storage : CacheStorage) (key : CachedResourceKey) (now : Instant) :
    (∃ cell, (key, cell) ∈ storage.cachedResources.entries ∧
      ∀ resource, cell = some resource → resource.isExpired now = false) ∨
    (∃ resource, (key, some resource) ∈ storage.cachedResources.entries ∧
      resource.isExpired now = true) ∨ key ∉ storage.keys := by
  by_cases present : key ∈ storage.keys
  · obtain ⟨⟨owner, cell⟩, member, same⟩ := List.mem_map.mp present
    obtain rfl : owner = key := same
    cases cell with
    | none => exact Or.inl ⟨none, member, by simp⟩
    | some resource =>
        by_cases expired : resource.isExpired now = true
        · exact Or.inr (Or.inl ⟨resource, member, expired⟩)
        · exact Or.inl ⟨some resource, member, by simpa using expired⟩
  · exact Or.inr (Or.inr present)

end Lookups

section Runs

variable {storage : CacheStorage} {calls : List (Call T)} {call : Call T}

theorem serve_snoc : storage.serve (calls ++ [call]) = ((storage.serve calls).get call).1 := by
  simp [serve]

theorem outcomes_snoc :
    storage.outcomes (calls ++ [call]) =
      storage.outcomes calls ++ [(call, ((storage.serve calls).get call).2)] := by
  induction calls generalizing storage with
  | nil => rfl
  | cons first later ih =>
      simp only [List.cons_append, outcomes, ih]
      rfl

theorem outcomes_length : (storage.outcomes calls).length = calls.length := by
  induction calls generalizing storage with
  | nil => rfl
  | cons first later ih => exact congrArg Nat.succ ih

theorem fetches_snoc :
    storage.fetches (calls ++ [call]) =
      storage.fetches calls ++
        if 0 < ((storage.serve calls).get call).2.upstreamCalls then [call] else [] := by
  simp only [fetches, outcomes_snoc, List.filter_append, List.map_append]
  congr 1
  split <;> simp_all

end Runs

end CacheStorage

def plainCall (path : String) (initId : Uuid) (content : Bytes) : Call LiteralTree :=
  ⟨plainCache, path, epoch, initId, plainBody content, none, none, ⟨epoch, ⟨0⟩⟩⟩

end Server3.Sequential
