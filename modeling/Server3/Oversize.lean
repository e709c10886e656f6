import Server3.Classification
import Server3.LiveFiles
import Server3.Retention
import Server3.SequentialView

/-! Whether a get leaves its resource cached. The reservation loop of a file that is larger
than the capacity evicts all there is, and with it the cell that the file is for. -/

namespace Server3.Sequential

open Clock Routes Upstream Resource Recency

variable {T : Type → Type} [PathTree T]

namespace CacheStorage

variable {storage : CacheStorage} {capacity bytes : UInt64} {key : CachedResourceKey}
  {rest : List (CachedResourceKey × Option CachedResource)}

def entryReserved (entry : CachedResourceKey × Option CachedResource) : Nat :=
  match entry.2 with
  | some resource => resource.reservation.reserved.toNat
  | none => 0

/-- What is available and what the map has reserved make up the capacity. -/
def Whole (capacity : UInt64) (storage : CacheStorage) : Prop :=
  storage.pool.availableCapacity.toNat +
    Arena.total entryReserved storage.cachedResources.entries = capacity.toNat

theorem whole_drop (gone : CachedResourceKey × Option CachedResource)
    (balance : storage.pool.availableCapacity.toNat + (entryReserved gone +
      Arena.total entryReserved storage.cachedResources.entries) = capacity.toNat) :
    Whole capacity (storage.drop gone.2) := by
  rw [Whole, drop_cachedResources]
  rcases gone with ⟨owner, none | resource⟩
  · rw [show entryReserved (owner, none) = 0 from rfl, Nat.zero_add] at balance
    exact balance
  · have reserved : entryReserved (owner, some resource) =
        resource.reservation.reserved.toNat := rfl
    have small := capacity.toNat_lt
    rw [reserved] at balance
    rw [drop_available (by omega)]
    omega

theorem total_others {entries : List (CachedResourceKey × Option CachedResource)}
    {cell : Option CachedResource} (distinct : (entries.map Prod.fst).Nodup)
    (member : (key, cell) ∈ entries) :
    entryReserved (key, cell) + Arena.total entryReserved (LruCache.others entries key) =
      Arena.total entryReserved entries := by
  induction entries with
  | nil => cases member
  | cons head rest ih =>
      rw [List.map_cons, List.nodup_cons] at distinct
      rcases List.mem_cons.mp member with rfl | behind
      · have same : LruCache.others ((key, cell) :: rest) key = rest := by
          rw [LruCache.others, List.filter_cons_of_neg (by simp)]
          exact LruCache.others_absent distinct.1
        rw [same, Arena.total_cons]
      · have different : head.1 ≠ key := by
          intro same
          exact distinct.1 (List.mem_map.mpr ⟨_, behind, same.symm⟩)
        have split : LruCache.others (head :: rest) key = head :: LruCache.others rest key :=
          List.filter_cons_of_pos (by simpa using different)
        rw [split, Arena.total_cons, Arena.total_cons, ← ih distinct.2 behind]
        omega

structure LookedUp (capacity : UInt64) (storage : CacheStorage) (key : CachedResourceKey)
    (now : Instant) (after : CacheStorage) (found : Option CachedResource) : Prop where
  front : ∃ rest, after.cachedResources.entries = (key, found) :: rest ∧ ∀ entry ∈ rest, entry.1 ≠ key
  whole : Whole capacity storage → Whole capacity after
  held : ∀ resource, found = some resource →
    (key, some resource) ∈ storage.cachedResources.entries ∧ resource.isExpired now = false
  missed : found = none → ∀ resource, (key, some resource) ∈ storage.cachedResources.entries →
    resource.isExpired now = true

theorem looked_up (capacity : UInt64) (storage : CacheStorage) (key : CachedResourceKey)
    (now : Instant) :
    LookedUp capacity storage key now (storage.lookup key now).1 (storage.lookup key now).2 := by
  have others (entry) (member : entry ∈ LruCache.others storage.cachedResources.entries key) :
      entry.1 ≠ key := (LruCache.mem_others.mp member).2
  have sum {cell : Option CachedResource} (member : (key, cell) ∈ storage.cachedResources.entries) :=
    total_others storage.cachedResources.distinct member
  rcases storage.cell_cases key now with
    ⟨cell, member, unexpired⟩ | ⟨resource, member, expired⟩ | absent
  · rcases lookup_kept member unexpired with ⟨map, entries, -, found⟩
    rw [found]
    refine ⟨⟨_, entries, others⟩, ?_, ?_, ?_⟩
    · intro whole
      rw [Whole, entries, Arena.total_cons, sum member]
      exact whole
    · rintro resource rfl
      exact ⟨member, unexpired resource rfl⟩
    · rintro rfl resource again
      cases LruCache.entry_unique member again
  · rcases lookup_expired member expired with ⟨map, entries, -, found⟩
    rw [found]
    refine ⟨⟨_, by rw [drop_cachedResources]; exact entries, others⟩, ?_, nofun, ?_⟩
    · intro whole
      refine whole_drop (key, some resource) ?_
      simp only [entries, Arena.total_cons]
      rw [show entryReserved (key, none) = 0 from rfl, Nat.zero_add, sum member]
      exact whole
    · intro _ other again
      cases LruCache.entry_unique member again
      exact expired
  · rcases lookup_absent now absent with ⟨map, entries, -, found⟩
    rw [found]
    refine ⟨⟨_, by rw [drop_cachedResources]; exact entries, ?_⟩, ?_, nofun, ?_⟩
    · rintro entry kept rfl
      exact absent (List.mem_map_of_mem (List.mem_of_mem_take kept))
    · intro whole
      rcases storage.cachedResources.displaced_cases with ⟨last, gone, -, split⟩ | ⟨gone, -, same⟩
      · rw [gone]
        refine whole_drop last ?_
        rw [Whole, split, Arena.total_append, Arena.total_cons, Arena.total_nil] at whole
        simp only [entries, Arena.total_cons]
        rw [show entryReserved (key, none) = 0 from rfl]
        omega
      · rw [gone]
        change Whole capacity { storage with cachedResources := map }
        rw [Whole, entries, same, Arena.total_cons]
        exact (congrArg _ (Nat.zero_add _)).trans whole
    · intro _ resource member
      exact absurd (List.mem_map_of_mem member) absent

theorem whole_round (rounds : Nat) {last : CachedResourceKey × Option CachedResource}
    (entries : storage.cachedResources.entries = rest ++ [last]) (whole : Whole capacity storage)
    (short : storage.pool.availableCapacity.toNat < bytes.toNat) :
    ∃ evicted, reserveLoop bytes (rounds + 1) storage = reserveLoop bytes rounds evicted ∧
      evicted.cachedResources.entries = rest ∧ Whole capacity evicted := by
  rcases reserve_pops rounds entries short with ⟨map, left, -, round⟩
  refine ⟨_, round, ?_, ?_⟩
  · rw [drop_cachedResources]
    exact left
  · refine whole_drop last ?_
    rw [Whole, entries, Arena.total_append, Arena.total_cons, Arena.total_nil] at whole
    simp only [left]
    omega

theorem reserve_spares {first : CachedResourceKey × Option CachedResource} {rounds : Nat}
    (entries : storage.cachedResources.entries = first :: rest)
    (vacant : entryReserved first = 0) (whole : Whole capacity storage)
    (fits : bytes.toNat ≤ capacity.toNat) (enough : rest.length < rounds) :
    ∃ next reservation kept, reserveLoop bytes rounds storage = some (next, reservation) ∧
      next.cachedResources.entries = first :: kept ∧ kept <+: rest := by
  induction rounds generalizing rest storage with
  | zero => exact absurd enough (Nat.not_lt_zero _)
  | succ rounds ih =>
      by_cases room : bytes.toNat ≤ storage.pool.availableCapacity.toNat
      · rcases reserve_granted rounds room with ⟨pool, reservation, granted, -, -⟩
        exact ⟨_, reservation, rest, granted, entries, List.prefix_rfl⟩
      · rcases List.eq_nil_or_concat' rest with rfl | ⟨front, last, rfl⟩
        · rw [Whole, entries, Arena.total_cons, Arena.total_nil, vacant] at whole
          omega
        · rw [← List.cons_append] at entries
          rcases whole_round rounds entries whole (Nat.lt_of_not_le room) with
            ⟨evicted, round, left, lighter⟩
          rw [List.length_append, List.length_singleton] at enough
          rcases ih left lighter (by omega) with ⟨next, reservation, kept, done, front', shorter⟩
          exact ⟨next, reservation, kept, round.trans done, front',
            shorter.trans (List.prefix_append _ _)⟩

theorem reserve_empties {rounds : Nat} (whole : Whole capacity storage)
    (heavy : capacity.toNat < bytes.toNat)
    (enough : storage.cachedResources.entries.length < rounds) :
    ∃ next reservation, reserveLoop bytes rounds storage = some (next, reservation) ∧
      next.cachedResources.entries = [] := by
  induction rounds generalizing storage with
  | zero => exact absurd enough (Nat.not_lt_zero _)
  | succ rounds ih =>
      have short : storage.pool.availableCapacity.toNat < bytes.toNat := by
        rw [Whole] at whole
        omega
      rcases List.eq_nil_or_concat' storage.cachedResources.entries with
        empty | ⟨front, last, entries⟩
      · rcases reserve_exhausted rounds empty short with ⟨pool, reservation, granted⟩
        exact ⟨{ storage with pool := pool }, reservation, granted, empty⟩
      · rcases whole_round rounds entries whole short with ⟨evicted, round, left, lighter⟩
        rw [entries, List.length_append, List.length_singleton] at enough
        rcases ih lighter (by rw [left]; omega) with ⟨next, reservation, done, empty⟩
        exact ⟨next, reservation, round.trans done, empty⟩

/-- What a get that fetches leaves in the map: its resource at the front, or nothing. -/
theorem fetch_leaves {missed : CacheStorage} {call : Call T} (expiresAfter : Option Instant)
    {found : UpstreamResource} {file : File} (whole : Whole capacity missed)
    (entries : missed.cachedResources.entries = (call.key, none) :: rest)
    (others : ∀ entry ∈ rest, entry.1 ≠ call.key) (answered : call.answer = .ok (some found))
    (stored : store found.body call.diskError = .ok file) :
    ∃ resource : CachedResource, resource.id = call.initId ∧ resource.expiresAt = expiresAfter ∧
      if file.size.toNat ≤ capacity.toNat then
        (call.key, some resource) ∈
          (missed.getOrTryInit call expiresAfter).1.cachedResources.entries
      else (missed.getOrTryInit call expiresAfter).1.cachedResources.entries = [] := by
  by_cases fits : file.size.toNat ≤ capacity.toNat
  · have enough : rest.length < missed.cachedResources.entries.length + 1 := by
      rw [entries, List.length_cons]
      omega
    rcases reserve_spares entries rfl whole fits enough with
      ⟨next, reservation, kept, granted, front, shorter⟩
    rcases fetch_keeps expiresAfter answered stored granted with ⟨counted, same, -, ended⟩
    refine ⟨call.resource expiresAfter found.headers file reservation, rfl, rfl, ?_⟩
    rw [← same] at front
    rw [if_pos fits, ended, (keep_front front fun entry member =>
      others entry (shorter.subset member)).1]
    exact List.mem_cons_self
  · rcases reserve_empties whole (Nat.lt_of_not_le fits) (Nat.lt_succ_self _) with
      ⟨next, reservation, granted, empty⟩
    rcases fetch_keeps expiresAfter answered stored granted with ⟨counted, same, -, ended⟩
    refine ⟨call.resource expiresAfter found.headers file reservation, rfl, rfl, ?_⟩
    have absent : call.key ∉ counted.keys := by
      rw [keys, same, empty]
      exact List.not_mem_nil
    rw [if_neg fits, ended, keep, if_neg absent, drop_cachedResources, same]
    exact empty

section Next

variable {call next : Call T} {expiresAfter : Option Instant}

theorem get_cached (capacity : UInt64) (caches : call.plan = .cached expiresAfter) :
    (∃ resource, (call.key, some resource) ∈ storage.cachedResources.entries ∧
      resource.isExpired call.now = false ∧ (storage.get call).2 = ⟨call.respond resource, 0⟩ ∧
      (call.key, some resource) ∈ (storage.get call).1.cachedResources.entries) ∨
    ((∀ resource, (call.key, some resource) ∈ storage.cachedResources.entries →
        resource.isExpired call.now = true) ∧
      ∃ missed rest, storage.get call = missed.getOrTryInit call expiresAfter ∧
        (Whole capacity storage → Whole capacity missed) ∧
        missed.cachedResources.entries = (call.key, none) :: rest ∧
        ∀ entry ∈ rest, entry.1 ≠ call.key) := by
  have looked := looked_up capacity (storage.count call CacheRouteMetrics.requested) call.key call.now
  cases shape : (storage.count call CacheRouteMetrics.requested).lookup call.key call.now with
  | mk after found =>
      rw [shape] at looked
      rcases looked.front with ⟨rest, entries, others⟩
      cases found with
      | some resource =>
          have held := looked.held resource rfl
          have ended : storage.get call = (after.count call
              (CacheRouteMetrics.served resource call.initId), ⟨call.respond resource, 0⟩) := by
            simp only [get, caches, shape]
          refine Or.inl ⟨resource, held.1, held.2, by rw [ended], ?_⟩
          rw [ended]
          change (call.key, some resource) ∈ after.cachedResources.entries
          rw [entries]
          exact List.mem_cons_self
      | none =>
          have ended : storage.get call = after.getOrTryInit call expiresAfter := by
            simp only [get, caches, shape]
          exact Or.inr ⟨looked.missed rfl, after, rest, ended, looked.whole, entries, others⟩

def Hits (storage : CacheStorage) (call : Call T) : Prop :=
  (storage.get call).2.reported = some .hit ∧ (storage.get call).2.upstreamCalls = 0

theorem hits_iff (caches : call.plan = .cached expiresAfter) (readable : call.cloneError = none)
    (strange : ∀ resource, (call.key, some resource) ∈ storage.cachedResources.entries →
      call.initId ≠ resource.id) :
    storage.Hits call ↔ ∃ resource, (call.key, some resource) ∈ storage.cachedResources.entries ∧
      resource.isExpired call.now = false := by
  rcases storage.get_cached 0 caches with
    ⟨resource, member, unexpired, answered, -⟩ | ⟨missed, after, rest, ended, -⟩
  · refine iff_of_true ?_ ⟨resource, member, unexpired⟩
    rw [Hits, answered, reported_outcome readable, if_neg (strange resource member)]
    exact ⟨rfl, rfl⟩
  · refine iff_of_false ?_ ?_
    · rintro ⟨-, silent⟩
      rw [ended, try_init_calls] at silent
      cases silent
    · rintro ⟨resource, member, unexpired⟩
      rw [missed resource member] at unexpired
      cases unexpired

/-- After the get its key is resident and filled, and the next get of it is a hit. -/
def Kept (storage : CacheStorage) (call next : Call T) : Prop :=
  (∃ resource, (call.key, some resource) ∈ (storage.get call).1.cachedResources.entries) ∧
    (storage.get call).1.Hits next

/-- A resource that the key has already lasts until the next get, and a body that is fetched
is no larger than the capacity. -/
structure KeptWhen (capacity : UInt64) (storage : CacheStorage) (call next : Call T) : Prop where
  lasts : ∀ resource, (call.key, some resource) ∈ storage.cachedResources.entries →
    resource.isExpired call.now = false → resource.isExpired next.now = false
  fits : (∀ resource, (call.key, some resource) ∈ storage.cachedResources.entries →
    resource.isExpired call.now = true) → ∀ found, call.answer = .ok (some found) →
      found.body.content.length ≤ capacity.toNat

theorem fetch_succeeded {missed : CacheStorage} {response : CachedResourceResponse}
    (succeeded : (missed.getOrTryInit call expiresAfter).2.reply = .returned (.ok (some response))) :
    ∃ found file, call.answer = .ok (some found) ∧
      store found.body call.diskError = .ok file ∧ file.content = found.body.content := by
  unfold getOrTryInit at succeeded
  cases answered : call.answer with
  | error failure =>
      rw [answered] at succeeded
      cases succeeded
  | ok answer =>
      cases answer with
      | none =>
          rw [answered] at succeeded
          cases succeeded
      | some found =>
          cases stored : store found.body call.diskError with
          | error failure =>
              simp only [answered, stored] at succeeded
              cases succeeded
          | ok file => exact ⟨found, file, rfl, stored, (store_ok stored).1⟩

theorem kept_left {resource : CachedResource} (same : next.key = call.key)
    (caches : next.plan = .cached expiresAfter) (readable : next.cloneError = none)
    (left : (call.key, some resource) ∈ (storage.get call).1.cachedResources.entries)
    (different : next.initId ≠ resource.id) :
    storage.Kept call next ↔ resource.isExpired next.now = false := by
  have sole (other) (again : (call.key, some other) ∈ (storage.get call).1.cachedResources.entries) :
      other = resource := Option.some.inj (LruCache.entry_unique again left)
  have own : ∀ other, (next.key, some other) ∈ (storage.get call).1.cachedResources.entries →
      next.initId ≠ other.id := by
    rw [same]
    intro other again
    rw [sole other again]
    exact different
  rw [Kept, hits_iff caches readable own, same]
  constructor
  · rintro ⟨-, other, again, lasting⟩
    rw [sole other again] at lasting
    exact lasting
  · intro lasting
    exact ⟨⟨resource, left⟩, resource, left, lasting⟩

theorem kept_iff {response : CachedResourceResponse} (whole : Whole capacity storage)
    (forever : call.plan = .cached none)
    (succeeded : (storage.get call).2.reply = .returned (.ok (some response)))
    (same : next.key = call.key) (caches : next.plan = .cached expiresAfter)
    (readable : next.cloneError = none) (different : next.initId ≠ call.initId)
    (strange : ∀ resource, (call.key, some resource) ∈ storage.cachedResources.entries →
      next.initId ≠ resource.id) :
    storage.Kept call next ↔ KeptWhen capacity storage call next := by
  rcases storage.get_cached capacity forever with
    ⟨resource, member, unexpired, answered, kept⟩ |
    ⟨missed, after, rest, ended, balanced, entries, others⟩
  · rw [kept_left same caches readable kept (strange resource member)]
    constructor
    · intro lasting
      refine ⟨?_, ?_⟩
      · intro old present _
        cases LruCache.entry_unique present member
        exact lasting
      · intro expired
        rw [expired resource member] at unexpired
        cases unexpired
    · intro when
      exact when.lasts resource member unexpired
  · rw [ended] at succeeded
    rcases fetch_succeeded succeeded with ⟨found, file, given, stored, content⟩
    rcases fetch_leaves none (balanced whole) entries others given stored with
      ⟨resource, id, expires, left⟩
    rw [← ended] at left
    have size : file.size.toNat = found.body.content.length := by
      rw [file_size, content]
    by_cases fits : found.body.content.length ≤ capacity.toNat
    · rw [if_pos (size ▸ fits)] at left
      have lasting : resource.isExpired next.now = false := by
        rw [CachedResource.not_expired, expires]
        nofun
      rw [kept_left same caches readable left (id ▸ different)]
      refine iff_of_true lasting ⟨?_, ?_⟩
      · intro old present unexpired
        rw [missed old present] at unexpired
        cases unexpired
      · intro _ other again
        rw [given] at again
        cases again
        exact fits
    · rw [if_neg (size ▸ fits)] at left
      refine iff_of_false ?_ ?_
      · rintro ⟨⟨resource, member⟩, -⟩
        rw [left] at member
        cases member
      · intro when
        exact fits (when.fits missed found given)

end Next

end CacheStorage

end Server3.Sequential

namespace Server3.Machine

open Clock Routes Upstream Resource Recency
open Server3.Sequential (Call CacheStorage plainCall)

variable {T : Type → Type} [PathTree T] {capacity : UInt64} {state : State}
  {actions : List (Action T)} {slots : Nat} {positive : 0 < slots}

theorem content_resource (state : State) (cell : CellId) :
    state.contentAt cell = state.resourceAt cell := by
  rw [State.contentAt, State.resourceAt]
  cases state.cellAt cell with
  | none => rfl
  | some content => cases content <;> rfl

theorem entries_reserved (entries : List (CachedResourceKey × CellId))
    (covered : ∀ entry ∈ entries, ∀ resource, state.resourceAt entry.2 = some resource →
      resource.reservation.reserved = resource.size) :
    Arena.total CacheStorage.entryReserved
        (entries.map fun entry => (entry.1, state.contentAt entry.2)) =
      ((entries.filterMap fun entry => state.resourceAt entry.2).map
        fun resource => resource.size.toNat).sum := by
  induction entries with
  | nil => rfl
  | cons entry rest ih =>
      have tail := ih fun other member => covered other (List.mem_cons_of_mem _ member)
      rw [List.map_cons, Arena.total_cons, tail, content_resource]
      cases found : state.resourceAt entry.2 with
      | none => simp [found, CacheStorage.entryReserved]
      | some resource =>
          have full := covered entry List.mem_cons_self resource found
          simp [found, CacheStorage.entryReserved, full]

theorem quiet_whole
    (reached : Transition.run step (initial capacity slots positive) actions = some state)
    (quiet : state.Quiet) : CacheStorage.Whole capacity state.storage := by
  have inv := run_inv reached
  have held := run_held reached
  have available := quiet_available inv held quiet
  have live := ((live_residents inv held quiet).map fun resource => resource.size.toNat).sum_eq
  rw [live] at available
  have reserved := entries_reserved state.map.entries fun entry member resource found =>
    (inv.entries entry.1 entry.2 member).covered resource (resourceAt_some.mp found)
  rw [CacheStorage.Whole, State.storage, LruCache.map_values_entries, reserved]
  exact available

theorem filled_started
    (reached : Transition.run step (initial capacity slots positive) actions = some state)
    {cell : CellId} {resource : CachedResource}
    (filled : state.cellAt cell = some (.filled resource)) : resource.id < state.tasks.length := by
  have classified := run_classified reached
  by_contra beyond
  have known := classified.cells cell resource filled
  rw [(classified.unborn resource.id (Nat.le_of_not_lt beyond)).2.1] at known
  cases known

/-- From every state without a get in flight, a get under `CacheForever` that succeeds leaves
its resource cached exactly if a body that it fetches fits the capacity. -/
theorem forever_kept {response : CachedResourceResponse} {call next : Call T}
    {expiresAfter : Option Instant}
    (reached : Transition.run step (initial capacity slots positive) actions = some state)
    (quiet : state.Quiet)
    (forever : (call.cache.rules.matchRoute call.path).1 = .enabled ⟨.cacheForever⟩)
    (named : call.initId = state.tasks.length)
    (succeeded : (state.storage.get call).2.reply = .returned (.ok (some response)))
    (same : next.key = call.key) (caches : next.plan = .cached expiresAfter)
    (readable : next.cloneError = none) (later : next.initId = state.tasks.length + 1) :
    state.storage.Kept call next ↔ CacheStorage.KeptWhen capacity state.storage call next := by
  have planned : call.plan = .cached none := by
    rw [Call.plan, forever]
    rfl
  refine CacheStorage.kept_iff (quiet_whole reached quiet) planned succeeded same caches readable
    ?_ ?_
  · rw [named, later]
    exact Nat.succ_ne_self _
  · intro resource member
    rw [State.storage, LruCache.map_values_entries] at member
    rcases List.mem_map.mp member with ⟨entry, -, equal⟩
    have filled := content_filled.mp (Prod.mk.inj equal).2
    have born := filled_started reached filled
    rw [later]
    exact (Nat.lt_succ_of_lt born).ne'

/-- A body of four bytes under a capacity of three: the get succeeds, and the next one asks
the upstream again. -/
theorem oversized_fetched_again :
    ∃ state response, Transition.run step (initial 3 2 (by decide)) ([] : List (Action LiteralTree)) =
        some state ∧ state.Quiet ∧
      (state.storage.get (plainCall "/big" 0 [1, 2, 3, 4])).2.reply =
        .returned (.ok (some response)) ∧
      (((state.storage.get (plainCall "/big" 0 [1, 2, 3, 4])).1.get
        (plainCall "/big" 1 [1, 2, 3, 4])).2.reported,
        ((state.storage.get (plainCall "/big" 0 [1, 2, 3, 4])).1.get
          (plainCall "/big" 1 [1, 2, 3, 4])).2.upstreamCalls) = (some .miss, 1) ∧
      ¬ state.storage.Kept (plainCall "/big" 0 [1, 2, 3, 4]) (plainCall "/big" 1 [1, 2, 3, 4]) := by
  refine ⟨_, _, rfl, nofun, rfl, rfl, ?_⟩
  rintro ⟨-, hit, -⟩
  cases hit

theorem forever_kept_small :
    (initial 3 2 (by decide)).storage.Kept (plainCall "/a" 0 [1, 2, 3]) (plainCall "/a" 1 []) := by
  have reached : Transition.run step (initial 3 2 (by decide)) ([] : List (Action LiteralTree)) =
    some (initial 3 2 (by decide)) := rfl
  have forever : ((plainCall "/a" 0 [1, 2, 3]).cache.rules.matchRoute
    (plainCall "/a" 0 [1, 2, 3]).path).1 = .enabled ⟨.cacheForever⟩ := rfl
  obtain ⟨response, succeeded⟩ : ∃ response, ((initial 3 2 (by decide)).storage.get
    (plainCall "/a" 0 [1, 2, 3])).2.reply = .returned (.ok (some response)) := ⟨_, rfl⟩
  have same : (plainCall "/a" 1 []).key = (plainCall "/a" 0 [1, 2, 3]).key := rfl
  have caches : (plainCall "/a" 1 []).plan = .cached none := rfl
  have kept := forever_kept reached nofun forever rfl succeeded same caches rfl rfl
  refine kept.mpr ⟨nofun, ?_⟩
  intro _ found given
  cases given
  decide

end Server3.Machine
