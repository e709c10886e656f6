import Server3.Sequential
import Server3.Residence

/-! Which gets of a sequence are hits. -/

namespace Server3.Sequential

open Clock Routes Upstream Resource Recency WeightedLru
open CapacityPool (CacheCapacityPool CacheCapacityReservation)

variable {T : Type → Type} [PathTree T]

namespace Call

/-- The rule of the path is `CacheForever`, or `CacheFor` with an expiry that an
`Instant` can hold. -/
def Cacheable (call : Call T) : Prop :=
  (call.cache.rules.matchRoute call.path).1 = .enabled ⟨.cacheForever⟩ ∨
    ∃ duration, (call.cache.rules.matchRoute call.path).1 = .enabled ⟨.cacheFor duration⟩ ∧
      (call.now.checkedAdd duration).isSome

theorem cacheable_plan {call : Call T} (cacheable : call.Cacheable) :
    ∃ expiresAfter, call.plan = .cached expiresAfter := by
  rcases cacheable with forever | ⟨duration, limited, fits⟩
  · exact ⟨none, by simp only [plan, forever, Resource.plan]⟩
  · obtain ⟨expiresAt, added⟩ := Option.isSome_iff_exists.mp fits
    exact ⟨some expiresAt, by simp only [plan, limited, Resource.plan, added]⟩

/-- The fetch of the call succeeds with a body of the size its key always has. -/
def Succeeds (size : CachedResourceKey → Nat) (call : Call T) : Prop :=
  call.diskError = none ∧ ∃ found, call.answer = .ok (some found) ∧ found.body.error = none ∧
    found.body.content.length = size call.key

def Fresh (fetch : Call T) (now : Instant) : Prop :=
  ∀ expiresAt, fetch.plan = .cached (some expiresAt) → now < expiresAt

/-- The resource is what the call made of the upstream's answer. -/
structure Stored (fetch : Call T) (resource : CachedResource) : Prop where
  id : resource.id = fetch.initId
  plan : fetch.plan = .cached resource.expiresAt
  body : ∃ found, fetch.answer = .ok (some found) ∧ resource.headers = found.headers ∧
    resource.file.content = found.body.content

end Call

def requestedSince (calls : List (Call T)) (key : CachedResourceKey) : Finset CachedResourceKey :=
  ((calls.reverse.map Call.key).takeWhile (· ≠ key)).toFinset

def CacheStorage.latestFetch (storage : CacheStorage) (calls : List (Call T))
    (key : CachedResourceKey) : Option (Call T) :=
  ((storage.fetches calls).filter fun fetch => fetch.key = key).getLast?

def Outcome.response (outcome : Outcome) : Option CachedResourceResponse :=
  match outcome.reply with
  | .returned (.ok response) => response
  | _ => none

/-- Whether a get reports a hit, a miss or an uncached answer, if it reports any. -/
def Outcome.reported (outcome : Outcome) : Option CacheOutcome :=
  outcome.response.map CachedResourceResponse.outcome

namespace CacheStorage

variable {size : CachedResourceKey → Nat} {storage : CacheStorage} {capacity room : Nat}
  {key : CachedResourceKey} {rest : List (CachedResourceKey × Option CachedResource)}

def Weighs (size : CachedResourceKey → Nat)
    (entry : CachedResourceKey × Option CachedResource) : Prop :=
  ∃ resource, entry.2 = some resource ∧ resource.reservation.reserved.toNat = size entry.1

/-- Behind the empty cell of a key, what is filled and what is available make up
the capacity. -/
structure Balanced (size : CachedResourceKey → Nat) (capacity : Nat) (key : CachedResourceKey)
    (rest : List (CachedResourceKey × Option CachedResource)) (storage : CacheStorage) : Prop where
  entries : storage.cachedResources.entries = (key, none) :: rest
  weighs : ∀ entry ∈ rest, Weighs size entry
  balance : storage.pool.availableCapacity.toNat + load size (rest.map Prod.fst) = capacity

theorem balanced_drop {gone : CachedResourceKey × Option CachedResource}
    (entries : storage.cachedResources.entries = (key, none) :: rest)
    (weighs : ∀ entry ∈ rest, Weighs size entry) (weight : Weighs size gone)
    (balance : storage.pool.availableCapacity.toNat +
      (load size (rest.map Prod.fst) + size gone.1) = capacity)
    (bounded : capacity < 2^64) : Balanced size capacity key rest (storage.drop gone.2) := by
  rcases weight with ⟨resource, filled, weight⟩
  have given : storage.pool.availableCapacity.toNat + resource.reservation.reserved.toNat < 2^64 := by
    omega
  refine ⟨by rw [drop_cachedResources, entries], weighs, ?_⟩
  rw [filled, drop_available given, weight]
  omega

theorem reserve_granted {bytes : UInt64} (rounds : Nat)
    (room : bytes.toNat ≤ storage.pool.availableCapacity.toNat) :
    ∃ pool reservation, reserveLoop bytes (rounds + 1) storage =
        some ({ storage with pool := pool }, reservation) ∧ reservation.reserved = bytes ∧
      storage.pool.availableCapacity.toNat = pool.availableCapacity.toNat + bytes.toNat := by
  rcases CapacityPool.reserve_succeeds room with ⟨pool, reservation, granted⟩
  rcases CapacityPool.reserve_some.mp granted with ⟨reserved, balance⟩
  exact ⟨pool, reservation, by simp only [reserveLoop, granted], reserved, balance⟩

theorem reserve_pops {bytes : UInt64} (rounds : Nat)
    {kept : List (CachedResourceKey × Option CachedResource)}
    {last : CachedResourceKey × Option CachedResource}
    (entries : storage.cachedResources.entries = kept ++ [last])
    (short : storage.pool.availableCapacity.toNat < bytes.toNat) :
    ∃ map : LruCache CachedResourceKey (Option CachedResource), map.entries = kept ∧
      map.capacity = storage.cachedResources.capacity ∧
      reserveLoop bytes (rounds + 1) storage = reserveLoop bytes rounds
        ({ storage with
          cachedResources := map
          metrics := storage.evictionMetrics last.2 }.drop last.2) := by
  rcases LruCache.pop_last entries with ⟨map, popped, left, slots⟩
  have refused := CapacityPool.reserve_none.mpr short
  exact ⟨map, left, slots, by simp only [reserveLoop, refused, popped]⟩

theorem reserve_exhausted {bytes : UInt64} (rounds : Nat)
    (empty : storage.cachedResources.entries = [])
    (short : storage.pool.availableCapacity.toNat < bytes.toNat) :
    ∃ pool reservation, reserveLoop bytes (rounds + 1) storage =
      some ({ storage with pool := pool }, reservation) := by
  have refused := CapacityPool.reserve_none.mpr short
  have popped := LruCache.pop_none.mpr empty
  rcases CapacityPool.reserve_up_to_grants storage.pool bytes with
    ⟨pool, reservation, granted, -, -⟩
  exact ⟨pool, reservation, by simp only [reserveLoop, refused, popped, granted, Option.map_some]⟩

theorem reserve_round {bytes : UInt64} (rounds : Nat)
    {last : CachedResourceKey × Option CachedResource}
    (balanced : Balanced size capacity key (rest ++ [last]) storage) (bounded : capacity < 2^64)
    (short : storage.pool.availableCapacity.toNat < bytes.toNat) :
    ∃ evicted, reserveLoop bytes (rounds + 1) storage = reserveLoop bytes rounds evicted ∧
      evicted.cachedResources.capacity = storage.cachedResources.capacity ∧
      Balanced size capacity key rest evicted := by
  have shape : storage.cachedResources.entries = ((key, none) :: rest) ++ [last] := by
    rw [balanced.entries, List.cons_append]
  rcases reserve_pops rounds shape short with ⟨map, entries, slots, round⟩
  have balance := balanced.balance
  simp only [List.map_append, load_append, List.map_cons, List.map_nil, load_cons, load_nil]
    at balance
  refine ⟨_, round, ?_, ?_⟩
  · rw [drop_cachedResources]
    exact slots
  · apply balanced_drop
    · exact entries
    · intro entry member
      exact balanced.weighs entry (List.mem_append_left _ member)
    · exact balanced.weighs last (by simp)
    · exact balance
    · exact bounded

/-- The loop evicts the least recent entries until the rest fits next to the file. -/
theorem reserve_evicts {bytes : UInt64} {slots rounds : Nat}
    (balanced : Balanced size capacity key rest storage) (bounded : capacity < 2^64)
    (fits : bytes.toNat ≤ capacity) (short : rest.length ≤ slots) (enough : rest.length < rounds) :
    ∃ next reservation kept, reserveLoop bytes rounds storage = some (next, reservation) ∧
      reservation.reserved = bytes ∧ kept <+: rest ∧
      kept.map Prod.fst = fit size slots (capacity - bytes.toNat) (rest.map Prod.fst) ∧
      next.cachedResources.entries = (key, none) :: kept ∧
      next.cachedResources.capacity = storage.cachedResources.capacity ∧
      next.pool.availableCapacity.toNat + load size (kept.map Prod.fst) + bytes.toNat =
        capacity := by
  have balance := balanced.balance
  induction rounds generalizing rest storage with
  | zero => exact absurd enough (Nat.not_lt_zero _)
  | succ rounds ih =>
      by_cases room : bytes.toNat ≤ storage.pool.availableCapacity.toNat
      · rcases reserve_granted rounds room with ⟨pool, reservation, granted, reserved, taken⟩
        have whole : fit size slots (capacity - bytes.toNat) (rest.map Prod.fst) =
            rest.map Prod.fst := fit_whole (by simpa using short) (by omega)
        exact ⟨_, reservation, rest, granted, reserved, List.prefix_rfl, whole.symm,
          balanced.entries, rfl, by simp only; omega⟩
      · rcases List.eq_nil_or_concat' rest with rfl | ⟨front, last, rfl⟩
        · simp only [List.map_nil, load_nil] at balance
          omega
        · rcases reserve_round rounds balanced bounded (Nat.lt_of_not_le room) with
            ⟨evicted, round, slots', lighter⟩
          rw [List.length_append, List.length_singleton] at short enough
          rcases ih lighter (by omega) (by omega) lighter.balance with
            ⟨next, reservation, kept, done, reserved, front', fitted, entries, same, total⟩
          refine ⟨next, reservation, kept, round.trans done, reserved,
            front'.trans (List.prefix_append _ _), ?_, entries, same.trans slots', total⟩
          have heavy : capacity - bytes.toNat < load size (front.map Prod.fst ++ [last.1]) := by
            simp only [List.map_append, List.map_cons, List.map_nil] at balance
            omega
          rw [fitted, List.map_append, List.map_cons, List.map_nil, fit_overweight heavy]

def Holds (size : CachedResourceKey → Nat) (latest : CachedResourceKey → Option (Call T))
    (entry : CachedResourceKey × Option CachedResource) : Prop :=
  ∃ fetch resource, latest entry.1 = some fetch ∧ entry.2 = some resource ∧
    fetch.Stored resource ∧ resource.reservation.reserved.toNat = size entry.1

theorem holds_weighs {latest : CachedResourceKey → Option (Call T)}
    {entry : CachedResourceKey × Option CachedResource} (holds : Holds size latest entry) :
    Weighs size entry := by
  rcases holds with ⟨_, resource, _, filled, _, weight⟩
  exact ⟨resource, filled, weight⟩

/-- After a sequence of gets the map holds the most recently requested keys that fit,
each with what was fetched for it last. -/
structure Retains (size : CachedResourceKey → Nat) (capacity slots : Nat)
    (requests : List CachedResourceKey) (latest : CachedResourceKey → Option (Call T))
    (storage : CacheStorage) : Prop where
  keys : storage.keys = fit size slots capacity (recent requests)
  limit : storage.cachedResources.capacity = slots
  holds : ∀ entry ∈ storage.cachedResources.entries, Holds size latest entry
  balance : storage.pool.availableCapacity.toNat + load size storage.keys = capacity

theorem fresh_not_expired {fetch : Call T} {resource : CachedResource}
    (stored : fetch.Stored resource) {now : Instant} :
    fetch.Fresh now ↔ resource.isExpired now = false := by
  rw [CachedResource.not_expired, Call.Fresh, stored.plan]
  simp only [Plan.cached.injEq]

section Lookups

variable {slots : Nat} {requests : List CachedResourceKey}
  {latest : CachedResourceKey → Option (Call T)} {now : Instant}

theorem others_erase : (LruCache.others storage.cachedResources.entries key).map Prod.fst =
    storage.keys.erase key := by
  rw [LruCache.others_keys, keys, storage.cachedResources.distinct.erase_eq_filter]
  congr 1
  funext other
  simp [bne, beq_eq_decide]

/-- A lookup left an empty cell at the front, and behind it all that the requested key
may be kept with. -/
structure Missed (size : CachedResourceKey → Nat) (capacity slots : Nat)
    (requests : List CachedResourceKey) (key : CachedResourceKey)
    (rest : List (CachedResourceKey × Option CachedResource)) (storage missed : CacheStorage) :
    Prop where
  limit : missed.cachedResources.capacity = slots
  balanced : Balanced size capacity key rest missed
  kept : ∀ entry ∈ rest, entry ∈ storage.cachedResources.entries ∧ entry.1 ≠ key
  short : rest.length ≤ slots - 1
  fitted : fit size slots capacity (recent (key :: requests)) =
    key :: fit size (slots - 1) (capacity - size key) (rest.map Prod.fst)

theorem expired_missed (retains : Retains size capacity slots requests latest storage)
    (bounded : capacity < 2^64) {resource : CachedResource}
    {map : LruCache CachedResourceKey (Option CachedResource)}
    (member : (key, some resource) ∈ storage.cachedResources.entries)
    (entries : map.entries = (key, none) :: LruCache.others storage.cachedResources.entries key)
    (same : map.capacity = storage.cachedResources.capacity) :
    Missed size capacity slots requests key (LruCache.others storage.cachedResources.entries key)
      storage ({ storage with cachedResources := map }.drop (some resource)) := by
  have present : key ∈ storage.keys := List.mem_map_of_mem member
  have weighs := holds_weighs (retains.holds _ member)
  have balance := retains.balance
  rw [← load_erase present] at balance
  have length : (LruCache.others storage.cachedResources.entries key).length <
      storage.cachedResources.entries.length :=
    List.length_filter_lt_length_iff_exists.mpr ⟨_, member, by simp⟩
  have bound := storage.cachedResources.bounded
  rw [retains.limit] at bound
  constructor
  · rw [drop_cachedResources]
    exact same.trans retains.limit
  · have kept : ∀ entry ∈ LruCache.others storage.cachedResources.entries key,
        Weighs size entry := by
      intro entry kept
      exact holds_weighs (retains.holds entry (LruCache.mem_others.mp kept).1)
    rw [← others_erase] at balance
    have dropped : Balanced size capacity key _ (drop { storage with cachedResources := map } _) :=
      balanced_drop entries kept weighs balance bounded
    exact dropped
  · intro entry kept
    exact LruCache.mem_others.mp kept
  · omega
  · rw [others_erase, retains.keys, recent]
    exact fit_renew (retains.keys ▸ present)

theorem absent_missed (retains : Retains size capacity slots requests latest storage)
    (bounded : capacity < 2^64) (light : size key ≤ capacity)
    {map : LruCache CachedResourceKey (Option CachedResource)} (absent : key ∉ storage.keys)
    (entries : map.entries = (key, none) ::
      storage.cachedResources.entries.take (storage.cachedResources.capacity - 1))
    (same : map.capacity = storage.cachedResources.capacity) :
    Missed size capacity slots requests key
      (storage.cachedResources.entries.take (storage.cachedResources.capacity - 1)) storage
      ({ storage with cachedResources := map }.drop
        (storage.cachedResources.displaced.bind Prod.snd)) := by
  have positive := storage.cachedResources.positive
  have balance := retains.balance
  rw [retains.limit] at positive
  constructor
  · rw [drop_cachedResources]
    exact same.trans retains.limit
  · have weighs : ∀ entry ∈ storage.cachedResources.entries, Weighs size entry := by
      intro entry member
      exact holds_weighs (retains.holds entry member)
    have kept : ∀ entry ∈ storage.cachedResources.entries.take
        (storage.cachedResources.capacity - 1), Weighs size entry := by
      intro entry member
      exact weighs entry (List.mem_of_mem_take member)
    rcases storage.cachedResources.displaced_cases with ⟨last, gone, full, split⟩ | ⟨gone, room, whole⟩
    · rw [keys, split, List.map_append, load_append, List.map_singleton, load_cons, load_nil,
        Nat.add_zero] at balance
      have weight := weighs last (split ▸ List.mem_append_right _ (List.mem_singleton_self last))
      rw [gone, Option.bind_some]
      have dropped : Balanced size capacity key _ (drop { storage with cachedResources := map } _) :=
        balanced_drop entries kept weight balance bounded
      exact dropped
    · rw [gone, Option.bind_none]
      rw [whole] at entries kept ⊢
      exact ⟨entries, kept, balance⟩
  · intro entry kept
    have member := List.mem_of_mem_take kept
    refine ⟨member, ?_⟩
    rintro rfl
    exact absent (List.mem_map_of_mem member)
  · rw [retains.limit]
    exact List.length_take_le _ _
  · rw [List.map_take, retains.limit, fit_take, ← keys, retains.keys, recent]
    exact fit_admit (retains.keys ▸ absent) positive light

theorem retains_lookup (retains : Retains size capacity slots requests latest storage)
    (bounded : capacity < 2^64) (light : size key ≤ capacity) (now : Instant) :
    (∃ fetch resource map, latest key = some fetch ∧ fetch.Stored resource ∧ fetch.Fresh now ∧
      (key, some resource) ∈ storage.cachedResources.entries ∧
      map.entries = (key, some resource) :: LruCache.others storage.cachedResources.entries key ∧
      map.capacity = storage.cachedResources.capacity ∧
      storage.lookup key now = ({ storage with cachedResources := map }, some resource)) ∨
    ((∀ fetch, latest key = some fetch → fetch.Fresh now → key ∉ storage.keys) ∧
      ∃ missed rest, storage.lookup key now = (missed, none) ∧
        Missed size capacity slots requests key rest storage missed) := by
  rcases storage.cell_cases key now with
    ⟨cell, member, unexpired⟩ | ⟨resource, member, expired⟩ | absent
  · left
    rcases lookup_kept member unexpired with ⟨map, entries, same, found⟩
    rcases retains.holds _ member with ⟨fetch, resource, known, filled, stored, _⟩
    cases filled
    have fresh := (fresh_not_expired stored).mpr (unexpired resource rfl)
    exact ⟨fetch, resource, map, known, stored, fresh, member, entries, same, found⟩
  · right
    rcases lookup_expired member expired with ⟨map, entries, same, found⟩
    rcases retains.holds _ member with ⟨fetch, _, known, filled, stored, _⟩
    cases filled
    refine ⟨?_, _, _, found, expired_missed retains bounded member entries same⟩
    intro other again fresh
    obtain rfl := Option.some.inj (known.symm.trans again)
    rw [fresh_not_expired stored, expired] at fresh
    cases fresh
  · right
    rcases lookup_absent now absent with ⟨map, entries, same, found⟩
    refine ⟨?_, _, _, found, absent_missed retains bounded light absent entries same⟩
    intro _ _ _
    exact absent

theorem retains_hit (retains : Retains size capacity slots requests latest storage)
    {resource : CachedResource} {map : LruCache CachedResourceKey (Option CachedResource)}
    (member : (key, some resource) ∈ storage.cachedResources.entries)
    (entries : map.entries =
      (key, some resource) :: LruCache.others storage.cachedResources.entries key)
    (same : map.capacity = storage.cachedResources.capacity) :
    Retains size capacity slots (key :: requests) latest
      { storage with cachedResources := map } := by
  have present : key ∈ storage.keys := List.mem_map_of_mem member
  have keys' : map.entries.map Prod.fst = key :: storage.keys.erase key := by
    rw [entries, List.map_cons, others_erase]
  constructor
  · rw [keys, keys', recent, fit_promote (retains.keys ▸ present), retains.keys]
  · exact same.trans retains.limit
  · intro entry kept
    simp only [entries] at kept
    rcases List.mem_cons.mp kept with rfl | older
    · exact retains.holds _ member
    · exact retains.holds _ (LruCache.mem_others.mp older).1
  · rw [keys, keys', load_cons, Nat.add_comm (size key), load_erase present]
    exact retains.balance

theorem keep_front {resource : CachedResource}
    (entries : storage.cachedResources.entries = (key, none) :: rest)
    (others : ∀ entry ∈ rest, entry.1 ≠ key) :
    (storage.keep key resource).cachedResources.entries = (key, some resource) :: rest ∧
      (storage.keep key resource).cachedResources.capacity = storage.cachedResources.capacity ∧
      (storage.keep key resource).pool = storage.pool := by
  have present : key ∈ storage.keys := by
    rw [keys, entries]
    exact List.mem_cons_self
  have absent : key ∉ rest.map Prod.fst := by
    intro member
    rcases List.mem_map.mp member with ⟨entry, kept, same⟩
    exact others entry kept same
  have front := entries
  rw [← LruCache.others_absent absent] at front
  rw [keep, if_pos present]
  refine ⟨?_, rfl, rfl⟩
  rw [LruCache.replace_front (some resource) front, LruCache.others_absent absent]

theorem fetch_keeps {call : Call T} {missed next : CacheStorage} (expiresAfter : Option Instant)
    {found : UpstreamResource} {file : File} {reservation : CacheCapacityReservation}
    (answered : call.answer = .ok (some found))
    (stored : store found.body call.diskError = .ok file)
    (reserved : missed.reserve file.size = some (next, reservation)) :
    ∃ counted : CacheStorage, counted.cachedResources = next.cachedResources ∧
      counted.pool = next.pool ∧ missed.getOrTryInit call expiresAfter =
        (counted.keep call.key (call.resource expiresAfter found.headers file reservation),
          ⟨call.respond (call.resource expiresAfter found.headers file reservation), 1⟩) := by
  let resource := call.resource expiresAfter found.headers file reservation
  refine ⟨({ next with metrics := next.metrics.created call.cache.hostKey file.size } :
    CacheStorage).count call (CacheRouteMetrics.served resource call.initId), rfl, rfl, ?_⟩
  simp only [getOrTryInit, answered, stored, reserved, resource]

/-- The fetch then leaves what the requests so far retain. -/
theorem fetch_fills {call : Call T} {expiresAfter : Option Instant} {missed : CacheStorage}
    (left : Missed size capacity slots requests call.key rest storage missed)
    (retains : Retains size capacity slots requests latest storage)
    (bounded : capacity < 2^64) (light : size call.key ≤ capacity)
    (planned : call.plan = .cached expiresAfter) (succeeds : call.Succeeds size) :
    ∃ resource, call.Stored resource ∧
      (missed.getOrTryInit call expiresAfter).2 = ⟨call.respond resource, 1⟩ ∧
      Retains size capacity slots (call.key :: requests)
        (Function.update latest call.key (some call))
        (missed.getOrTryInit call expiresAfter).1 := by
  rcases succeeds with ⟨noDisk, found, answered, complete, length⟩
  let file : File := ⟨found.body.content, by omega⟩
  have stored : store found.body call.diskError = .ok file := by
    simp only [store, noDisk, complete]
    exact dif_pos _
  have bytes : file.size.toNat = size call.key := (file_size file).trans length
  have enough : rest.length < missed.cachedResources.entries.length + 1 := by
    rw [left.balanced.entries, List.length_cons]
    omega
  rcases reserve_evicts left.balanced bounded (bytes ▸ light) left.short enough with
    ⟨next, reservation, kept, reserved, granted, front, fitted, entries, same, balance⟩
  rw [bytes] at fitted balance
  have others : ∀ entry ∈ kept, entry.1 ≠ call.key := by
    intro entry member
    exact (left.kept entry (front.subset member)).2
  let resource := call.resource expiresAfter found.headers file reservation
  rcases fetch_keeps expiresAfter answered stored reserved with ⟨counted, map, pool, ended⟩
  rw [← map] at entries same
  rw [← pool] at balance
  rcases keep_front entries others with ⟨entries', slots', pool'⟩
  have keys' : (counted.keep call.key resource).keys =
      fit size slots capacity (recent (call.key :: requests)) := by
    rw [keys, entries', left.fitted, ← fitted, List.map_cons]
  rw [ended]
  refine ⟨resource, ⟨rfl, planned, found, answered, rfl, rfl⟩, rfl, keys', ?_, ?_, ?_⟩
  · exact slots'.trans (same.trans left.limit)
  · intro entry member
    rw [entries'] at member
    rcases List.mem_cons.mp member with rfl | older
    · refine ⟨call, resource, Function.update_self .., rfl, ⟨rfl, planned, found, answered, rfl, rfl⟩, ?_⟩
      exact (congrArg UInt64.toNat granted).trans bytes
    · rw [Holds, Function.update_of_ne (others entry older)]
      exact retains.holds entry (left.kept entry (front.subset older)).1
  · rw [pool', keys, entries', List.map_cons, load_cons]
    change _ + (size call.key + _) = capacity
    omega

theorem try_init_calls (storage : CacheStorage) (call : Call T) (expiresAfter : Option Instant) :
    (storage.getOrTryInit call expiresAfter).2.upstreamCalls = 1 := by
  unfold getOrTryInit
  cases call.answer with
  | error failure => rfl
  | ok answer =>
      cases answer with
      | none => rfl
      | some found =>
          cases stored : store found.body call.diskError with
          | error failure => simp only [stored]
          | ok file => cases reserved : storage.reserve file.size <;> simp only [stored, reserved]

theorem get_retains {call : Call T} (retains : Retains size capacity slots requests latest storage)
    (bounded : capacity < 2^64) (light : size call.key ≤ capacity) (cacheable : call.Cacheable) :
    (∃ fetch resource, latest call.key = some fetch ∧ fetch.Stored resource ∧
      fetch.Fresh call.now ∧ call.key ∈ storage.keys ∧
      (storage.get call).2 = ⟨call.respond resource, 0⟩ ∧
      Retains size capacity slots (call.key :: requests) latest (storage.get call).1) ∨
    ((∀ fetch, latest call.key = some fetch → fetch.Fresh call.now → call.key ∉ storage.keys) ∧
      (storage.get call).2.upstreamCalls = 1 ∧
      (call.Succeeds size → ∃ resource, call.Stored resource ∧
        (storage.get call).2 = ⟨call.respond resource, 1⟩ ∧
        Retains size capacity slots (call.key :: requests)
          (Function.update latest call.key (some call)) (storage.get call).1)) := by
  rcases Call.cacheable_plan cacheable with ⟨expiresAfter, planned⟩
  let requested := storage.count call CacheRouteMetrics.requested
  have counted : Retains size capacity slots requests latest requested :=
    ⟨retains.keys, retains.limit, retains.holds, retains.balance⟩
  rcases retains_lookup counted bounded light call.now with
    ⟨fetch, resource, map, known, stored, fresh, member, entries, same, found⟩ |
    ⟨stale, missed, rest, found, left⟩
  · left
    have hit : storage.get call =
        ({ requested with cachedResources := map }.count call
          (CacheRouteMetrics.served resource call.initId), ⟨call.respond resource, 0⟩) := by
      simp only [get, planned]
      rw [show storage.count call CacheRouteMetrics.requested = requested from rfl, found]
    have kept := retains_hit counted member entries same
    refine ⟨fetch, resource, known, stored, fresh, List.mem_map_of_mem member, ?_, ?_⟩
    · rw [hit]
    · rw [hit]
      exact ⟨kept.keys, kept.limit, kept.holds, kept.balance⟩
  · right
    have miss : storage.get call = missed.getOrTryInit call expiresAfter := by
      simp only [get, planned]
      rw [show storage.count call CacheRouteMetrics.requested = requested from rfl, found]
    rw [miss]
    exact ⟨stale, missed.try_init_calls call expiresAfter,
      fetch_fills left counted bounded light planned⟩

end Lookups

section Runs

variable {calls : List (Call T)} {call : Call T}

theorem latest_unchanged (hit : ((storage.serve calls).get call).2.upstreamCalls = 0) :
    storage.latestFetch (calls ++ [call]) = storage.latestFetch calls := by
  funext key
  simp only [latestFetch, fetches_snoc, hit, Nat.lt_irrefl, if_false, List.append_nil]

theorem latest_updated (missed : ((storage.serve calls).get call).2.upstreamCalls = 1) :
    storage.latestFetch (calls ++ [call]) =
      Function.update (storage.latestFetch calls) call.key (some call) := by
  funext key
  simp only [latestFetch, fetches_snoc, missed, Nat.zero_lt_one, if_true, List.filter_append,
    List.filter_singleton]
  by_cases same : call.key = key
  · subst key
    simp
  · rw [Function.update_of_ne (Ne.symm same)]
    simp [same, latestFetch]

theorem fetches_subset : storage.fetches calls ⊆ calls := by
  induction calls using List.reverseRecOn with
  | nil => exact List.Subset.refl []
  | append_singleton calls call ih =>
      rw [fetches_snoc]
      apply List.append_subset.mpr
      constructor
      · exact List.subset_append_of_subset_left _ ih
      · split
        · exact List.subset_append_right _ _
        · exact List.nil_subset _

theorem latest_member {fetch : Call T} {key : CachedResourceKey}
    (latest : storage.latestFetch calls key = some fetch) : fetch ∈ calls ∧ fetch.key = key := by
  have member := List.mem_of_getLast? latest
  obtain ⟨fetched, same⟩ := List.mem_filter.mp member
  exact ⟨fetches_subset fetched, by simpa using same⟩

variable {slots : Nat} {positive : 0 < slots} {capacity : UInt64}

theorem serve_retains (cacheable : ∀ each ∈ calls, each.Cacheable)
    (light : ∀ each ∈ calls, size each.key ≤ capacity.toNat)
    (succeeds : ∀ fetch ∈ (new capacity slots positive).fetches calls, fetch.Succeeds size) :
    Retains size capacity.toNat slots (calls.reverse.map Call.key)
      ((new capacity slots positive).latestFetch calls)
      ((new capacity slots positive).serve calls) := by
  induction calls using List.reverseRecOn with
  | nil =>
      refine ⟨rfl, rfl, ?_, rfl⟩
      intro entry member
      cases member
  | append_singleton calls call ih =>
      have earlier := ih (fun each member => cacheable each (List.mem_append_left _ member))
        (fun each member => light each (List.mem_append_left _ member))
        (fun fetch member => succeeds fetch (by
          rw [fetches_snoc]
          exact List.mem_append_left _ member))
      have last : call ∈ calls ++ [call] := by simp
      rw [serve_snoc, List.reverse_append, List.reverse_singleton, List.singleton_append,
        List.map_cons]
      rcases get_retains earlier capacity.toNat_lt (light call last) (cacheable call last) with
        ⟨_, _, _, _, _, _, answered, retains⟩ | ⟨_, fetched, filled⟩
      · rw [latest_unchanged (by rw [answered])]
        exact retains
      · have fetch : call ∈ (new capacity slots positive).fetches (calls ++ [call]) := by
          rw [fetches_snoc, fetched]
          simp
        rcases filled (succeeds call fetch) with ⟨_, _, _, retains⟩
        rw [latest_updated fetched]
        exact retains

end Runs

end CacheStorage

omit [PathTree T] in
theorem reported_response {call : Call T} {resource : CachedResource} {calls : Nat}
    (readable : call.cloneError = none) :
    Outcome.response ⟨call.respond resource, calls⟩ = some (resource.response call.initId) := by
  simp only [Outcome.response, Call.respond, readable]

omit [PathTree T] in
theorem reported_outcome {call : Call T} {resource : CachedResource} {calls : Nat}
    (readable : call.cloneError = none) :
    Outcome.reported ⟨call.respond resource, calls⟩ =
      some (if call.initId = resource.id then .miss else .hit) := by
  rw [Outcome.reported, reported_response readable]
  rfl

open CacheStorage in
/-- A get is a hit exactly when its key was requested before, fits in the limits together
with the keys requested since, and its latest fetch has not expired. The ids are those of
`Uuid::new_v4`, and the get can clone the handle of the file it reports. -/
theorem hits_characterised (size : CachedResourceKey → Nat) (capacity : UInt64) (slots : Nat)
    (positive : 0 < slots) (calls : List (Call T)) (call : Call T)
    (cacheable : ∀ each ∈ calls ++ [call], each.Cacheable)
    (light : ∀ each ∈ calls ++ [call], size each.key ≤ capacity.toNat)
    (succeeds : ∀ fetch ∈ (new capacity slots positive).fetches (calls ++ [call]),
      fetch.Succeeds size)
    (unique : ((calls ++ [call]).map Call.initId).Nodup) (readable : call.cloneError = none) :
    let storage := (new capacity slots positive).serve calls
    let latest := (new capacity slots positive).latestFetch calls call.key
    let outcome := (storage.get call).2
    (outcome.reported = some .hit ↔
      call.key ∈ calls.map Call.key ∧ (requestedSince calls call.key).card < slots ∧
        size call.key + ∑ other ∈ requestedSince calls call.key, size other ≤ capacity.toNat ∧
        ∃ fetch, latest = some fetch ∧ fetch.Fresh call.now) ∧
    (outcome.reported = some .hit → outcome.upstreamCalls = 0 ∧
      ∃ fetch found response file, latest = some fetch ∧ fetch.answer = .ok (some found) ∧
        outcome.response = some response ∧ response.headers = found.headers ∧
        response.body = .file file ∧ file.content = found.body.content) ∧
    (outcome.reported ≠ some .hit →
      outcome.upstreamCalls = 1 ∧ outcome.reported = some .miss) := by
  intro storage latest outcome
  have last : call ∈ calls ++ [call] := by simp
  have retains : Retains size capacity.toNat slots _ _ storage :=
    serve_retains (fun each member => cacheable each (List.mem_append_left _ member))
      (fun each member => light each (List.mem_append_left _ member))
      (fun fetch member => succeeds fetch (by
        rw [fetches_snoc]
        exact List.mem_append_left _ member))
  have held : call.key ∈ storage.keys ↔ call.key ∈ calls.map Call.key ∧
      (requestedSince calls call.key).card < slots ∧
        size call.key + ∑ other ∈ requestedSince calls call.key, size other ≤ capacity.toNat := by
    rw [retains.keys, mem_fit_recent, List.map_reverse, List.mem_reverse, requestedSince,
      List.map_reverse]
  rcases get_retains retains capacity.toNat_lt (light call last) (cacheable call last) with
    ⟨fetch, resource, known, stored, fresh, present, answered, _⟩ | ⟨stale, fetched, filled⟩
  · have other : call.initId ≠ resource.id := by
      rw [List.map_append, List.nodup_append] at unique
      rw [stored.id]
      intro same
      exact unique.2.2 _ (List.mem_map_of_mem (latest_member known).1) _ (by simp) same.symm
    have hit : outcome.reported = some .hit := by
      rw [show outcome = ⟨call.respond resource, 0⟩ from answered, reported_outcome readable,
        if_neg other]
    rcases stored.body with ⟨found, body, headers, content⟩
    refine ⟨⟨fun _ => ?_, fun _ => hit⟩, fun _ => ⟨by rw [show outcome = _ from answered], ?_⟩,
      fun missed => absurd hit missed⟩
    · rcases held.mp present with ⟨requested, count, room⟩
      exact ⟨requested, count, room, fetch, known, fresh⟩
    · refine ⟨fetch, found, resource.response call.initId, resource.file, known, body, ?_, headers,
        rfl, content⟩
      rw [show outcome = _ from answered, reported_response readable]
  · have fetch : call ∈ (new capacity slots positive).fetches (calls ++ [call]) := by
      rw [fetches_snoc, fetched]
      simp
    rcases filled (succeeds call fetch) with ⟨resource, stored, answered, _⟩
    have miss : outcome.reported = some .miss := by
      rw [show outcome = ⟨call.respond resource, 1⟩ from answered, reported_outcome readable,
        if_pos stored.id.symm]
    have notHit : outcome.reported ≠ some .hit := by
      rw [miss]
      decide
    refine ⟨⟨fun hit => absurd hit notHit, ?_⟩, fun hit => absurd hit notHit,
      fun _ => ⟨fetched, miss⟩⟩
    rintro ⟨requested, count, room, fetch, known, fresh⟩
    exact absurd (held.mpr ⟨requested, count, room⟩) (stale fetch known fresh)

theorem plain_cacheable (path : String) (initId : Uuid) (content : Bytes) :
    (plainCall path initId content).Cacheable := Or.inl rfl

open CacheStorage in
/-- Five bytes in two files are within the limits, so the first file is still there. -/
theorem hits_characterised_pair :
    (((new 5 2 (by decide)).serve [plainCall "/a" 0 [1, 2], plainCall "/b" 1 [3, 4, 5]]).get
      (plainCall "/a" 2 [])).2.reported = some .hit := by
  let size : CachedResourceKey → Nat := fun key => if key.path = "/a" then 2 else 3
  have fetched : (new 5 2 (by decide)).fetches
      ([plainCall "/a" 0 [1, 2], plainCall "/b" 1 [3, 4, 5]] ++ [plainCall "/a" 2 []]) =
        [plainCall "/a" 0 [1, 2], plainCall "/b" 1 [3, 4, 5]] := rfl
  have characterised := hits_characterised size 5 2 (by decide)
    [plainCall "/a" 0 [1, 2], plainCall "/b" 1 [3, 4, 5]] (plainCall "/a" 2 [])
    (by simp [plain_cacheable]) (by decide)
    (by
      rw [fetched]
      simp [Call.Succeeds, plainCall, plainBody]
      decide)
    (by decide) rfl
  refine characterised.1.mpr ⟨by decide, by decide, by decide, plainCall "/a" 0 [1, 2], rfl, ?_⟩
  intro expiresAt planned
  cases planned

end Server3.Sequential
