import Server3.MachineInvariant

/-! Every rule keeps the invariant, so it holds in every reachable state. -/

namespace Server3.Machine

open Clock Routes Upstream Resource Recency
open CapacityPool (CacheCapacityPool CacheCapacityReservation)

inductive LookupCase (state : State) (key : CachedResourceKey) (now : Instant)
    (found : Lookup) : Prop where
  | absent (missing : key ∉ state.map.entries.map Prod.fst)
      (entries : found.map.entries =
        (key, state.slots.length) :: state.map.entries.take (state.map.capacity - 1))
      (own : found.own = state.slots.length) (allocates : found.allocates = true)
      (unlinked : found.unlinked = state.map.displaced.map Prod.snd)
  | expired (old : CellId) (resource : CachedResource) (mapped : (key, old) ∈ state.map.entries)
      (filled : state.cellAt old = some (.filled resource))
      (expired : resource.isExpired now = true)
      (entries : found.map.entries =
        (key, state.slots.length) :: LruCache.others state.map.entries key)
      (own : found.own = state.slots.length) (allocates : found.allocates = true)
      (unlinked : found.unlinked = some old)
  | shared (old : CellId) (mapped : (key, old) ∈ state.map.entries)
      (fresh : ∀ resource, state.cellAt old = some (.filled resource) →
        resource.isExpired now = false)
      (entries : found.map.entries = (key, old) :: LruCache.others state.map.entries key)
      (own : found.own = old) (allocates : found.allocates = false)
      (unlinked : found.unlinked = none)

variable {T : Type → Type} {capacity : UInt64} {state next : State} {id : TaskId} {task : Task}
  {pc : Pc}

theorem lookup_cases {key : CachedResourceKey} (now : Instant)
    (known : ∀ cell, (key, cell) ∈ state.map.entries → cell < state.slots.length) :
    LookupCase state key now (state.lookupKey key now) := by
  by_cases present : key ∈ state.map.entries.map Prod.fst
  · rcases List.mem_map.mp present with ⟨⟨owner, old⟩, mapped, same⟩
    change owner = key at same
    subst owner
    have inserted := LruCache.get_or_insert_present state.slots.length mapped
    have different : old ≠ state.slots.length := (known old mapped).ne
    simp only [State.lookupKey, inserted.2.1, if_neg different]
    split
    · rename_i resource filled
      split
      · rename_i expired
        exact .expired old resource mapped filled expired
          (LruCache.replace_front _ inserted.1) rfl rfl rfl
      · rename_i unexpired
        apply LookupCase.shared old mapped ?_ inserted.1 rfl rfl rfl
        intro other filled'
        rw [filled, Option.some.injEq, Cell.filled.injEq] at filled'
        exact filled' ▸ by simpa using unexpired
    · rename_i notFilled
      apply LookupCase.shared old mapped ?_ inserted.1 rfl rfl rfl
      intro resource filled
      exact absurd filled (notFilled resource)
  · have inserted := LruCache.get_or_insert_absent state.slots.length present
    simp only [State.lookupKey, inserted.2.1, if_true]
    exact .absent present inserted.1 rfl rfl (by rw [inserted.2.2])

theorem entry_known (inv : Inv capacity state) {key : CachedResourceKey} {cell : CellId}
    (member : (key, cell) ∈ state.map.entries) : cell < state.slots.length := by
  have known := (inv.entries key cell member).key
  rcases Option.map_eq_some_iff.mp known with ⟨slot, present, _⟩
  exact Arena.get_lt present

theorem task_lookup_cases (inv : Inv capacity state) (key : CachedResourceKey) (now : Instant) :
    LookupCase state key now (state.lookupKey key now) :=
  lookup_cases now fun _ => entry_known inv

section LookupFacts

variable {key : CachedResourceKey} {now : Instant} {found : Lookup}

theorem LookupCase.member (result : LookupCase state key now found) {other : CachedResourceKey}
    {cell : CellId} (member : (other, cell) ∈ found.map.entries) :
    (other = key ∧ cell = found.own) ∨ (other, cell) ∈ state.map.entries := by
  cases result with
  | absent missing entries own allocates unlinked =>
      rw [entries] at member
      rcases List.mem_cons.mp member with front | older
      · exact Or.inl ⟨congrArg Prod.fst front, (congrArg Prod.snd front).trans own.symm⟩
      · exact Or.inr (List.mem_of_mem_take older)
  | expired old resource mapped filled expired entries own allocates unlinked =>
      rw [entries] at member
      rcases List.mem_cons.mp member with front | older
      · exact Or.inl ⟨congrArg Prod.fst front, (congrArg Prod.snd front).trans own.symm⟩
      · exact Or.inr (LruCache.mem_others.mp older).1
  | shared old mapped fresh entries own allocates unlinked =>
      rw [entries] at member
      rcases List.mem_cons.mp member with front | older
      · exact Or.inl ⟨congrArg Prod.fst front, (congrArg Prod.snd front).trans own.symm⟩
      · exact Or.inr (LruCache.mem_others.mp older).1

theorem LookupCase.owned (result : LookupCase state key now found) :
    (found.allocates = true ∧ found.own = state.slots.length) ∨
      (found.allocates = false ∧ (key, found.own) ∈ state.map.entries) := by
  cases result with
  | absent missing entries own allocates unlinked => exact Or.inl ⟨allocates, own⟩
  | expired old resource mapped filled expired entries own allocates unlinked =>
      exact Or.inl ⟨allocates, own⟩
  | shared old mapped fresh entries own allocates unlinked =>
      exact Or.inr ⟨allocates, own ▸ mapped⟩

theorem LookupCase.stored (result : LookupCase state key now found) :
    (key, found.own) ∈ found.map.entries := by
  cases result with
  | absent missing entries own allocates unlinked =>
      rw [entries, own]
      exact List.mem_cons_self
  | expired old resource mapped filled expired entries own allocates unlinked =>
      rw [entries, own]
      exact List.mem_cons_self
  | shared old mapped fresh entries own allocates unlinked =>
      rw [entries, own]
      exact List.mem_cons_self

/-- An entry survives the lookup, unless it is displaced by a key that was not
there or is the expired one of the key itself. -/
theorem LookupCase.keeps (result : LookupCase state key now found) {other : CachedResourceKey}
    {cell : CellId} (member : (other, cell) ∈ state.map.entries) :
    (other, cell) ∈ found.map.entries ∨ (found.unlinked = some cell ∧
      ((key ∉ state.map.entries.map Prod.fst ∧ state.map.displaced = some (other, cell) ∧
        ∀ someKey, (someKey, cell) ∈ found.map.entries → someKey ≠ other) ∨
      (other = key ∧ ∃ resource, state.cellAt cell = some (.filled resource) ∧
        resource.isExpired now = true))) := by
  cases result with
  | absent missing entries own allocates unlinked =>
      rw [entries]
      rcases LruCache.take_keeps member with kept | gone
      · exact Or.inl (List.mem_cons_of_mem _ kept)
      · refine Or.inr ⟨by rw [unlinked, gone]; rfl, Or.inl ⟨missing, gone, ?_⟩⟩
        intro someKey again same
        subst someKey
        rcases List.mem_cons.mp again with front | kept
        · have same : other = key := congrArg Prod.fst front
          exact missing (same ▸ List.mem_map_of_mem member)
        · exact LruCache.displaced_not_kept gone (List.mem_map_of_mem kept)
  | expired old resource mapped filled expired entries own allocates unlinked =>
      by_cases same : other = key
      · subst other
        rw [LruCache.entry_unique member mapped]
        exact Or.inr ⟨unlinked, Or.inr ⟨rfl, resource, filled, expired⟩⟩
      · rw [entries]
        exact Or.inl (List.mem_cons_of_mem _ (LruCache.mem_others.mpr ⟨member, same⟩))
  | shared old mapped fresh entries own allocates unlinked =>
      left
      rw [entries]
      by_cases same : other = key
      · subst other
        rw [LruCache.entry_unique member mapped]
        exact List.mem_cons_self
      · exact List.mem_cons_of_mem _ (LruCache.mem_others.mpr ⟨member, same⟩)

end LookupFacts

theorem afterLookup_slots : (state.afterLookup id task).slots =
    if (state.lookupKey task.key task.now).allocates then
      state.slots ++ [Slot.mk task.key .empty] else state.slots := rfl

theorem afterLookup_slot {cell : CellId} {slot : Slot}
    (present : (state.afterLookup id task).slots[cell]? = some slot) :
    state.slots[cell]? = some slot ∨
      ((state.lookupKey task.key task.now).allocates = true ∧ cell = state.slots.length ∧
        slot = ⟨task.key, .empty⟩) := by
  rw [afterLookup_slots] at present
  split at present
  · rename_i allocates
    exact (Arena.get_append_cases present).imp_right fun fresh => ⟨allocates, fresh⟩
  · exact Or.inl present

theorem afterLookup_kept {cell : CellId} {slot : Slot} (present : state.slots[cell]? = some slot) :
    (state.afterLookup id task).slots[cell]? = some slot := by
  rw [afterLookup_slots]
  split
  · exact Arena.get_append_old _ present
  · exact present

theorem afterLookup_keyAt {cell : CellId} {key : CachedResourceKey}
    (known : state.keyAt cell = some key) : (state.afterLookup id task).keyAt cell = some key := by
  rcases Option.map_eq_some_iff.mp known with ⟨slot, present, same⟩
  exact Option.map_eq_some_iff.mpr ⟨slot, afterLookup_kept present, same⟩

theorem afterLookup_cellAt {cell : CellId} (known : (state.keyAt cell).isSome) :
    (state.afterLookup id task).cellAt cell = state.cellAt cell := by
  rcases Option.isSome_iff_exists.mp known with ⟨key, known⟩
  rcases Option.map_eq_some_iff.mp known with ⟨slot, present, _⟩
  simp only [State.cellAt, present, afterLookup_kept present]

theorem afterLookup_cell {cell : CellId} {content : Cell}
    (found : (state.afterLookup id task).cellAt cell = some content) :
    state.cellAt cell = some content ∨ content = .empty := by
  rcases Option.map_eq_some_iff.mp found with ⟨slot, present, rfl⟩
  rcases afterLookup_slot present with old | ⟨_, _, rfl⟩
  · exact Or.inl (by simp [State.cellAt, old])
  · exact Or.inr rfl

theorem afterLookup_fresh (allocates : (state.lookupKey task.key task.now).allocates = true) :
    (state.afterLookup id task).slots[state.slots.length]? = some ⟨task.key, .empty⟩ := by
  rw [afterLookup_slots, if_pos allocates]
  exact Arena.get_append_new _ _

theorem afterLookup_own (inv : Inv capacity state) :
    (state.afterLookup id task).keyAt (state.lookupKey task.key task.now).own = some task.key ∧
      (state.afterLookup id task).cellAt (state.lookupKey task.key task.now).own ≠ some .freed := by
  rcases (task_lookup_cases inv task.key task.now).owned with ⟨allocates, own⟩ | ⟨_, member⟩
  · rw [own]
    have fresh : (state.afterLookup id task).slots[state.slots.length]? = _ :=
      afterLookup_fresh allocates
    simp [State.keyAt, State.cellAt, fresh]
  · have valid := inv.entries task.key _ member
    refine ⟨afterLookup_keyAt valid.key, ?_⟩
    rw [afterLookup_cellAt (by simp [valid.key])]
    exact valid.live

theorem afterLookup_total :
    Arena.total Slot.reserved (state.afterLookup id task).slots =
      Arena.total Slot.reserved state.slots := by
  rw [afterLookup_slots]
  split
  · rw [Arena.total_append]
    rfl
  · rfl

theorem inv_lookup (inv : Inv capacity state) (present : state.tasks[id]? = some task)
    (stage : task.pc = .lookup) : Inv capacity (state.afterLookup id task) := by
  have before := inv.tasks id task present
  have holder : state.lock = some id := before.lock (by rw [stage]; rfl)
  have idle : task.pc.initializes = none := by rw [stage]; rfl
  have result := task_lookup_cases inv task.key task.now
  have unclaimed (cell : CellId) (other : TaskId)
      (initializing : (state.afterLookup id task).cellAt cell = some (.initializing other)) :
      state.cellAt cell = some (.initializing other) := by
    rcases afterLookup_cell initializing with old | fresh
    · exact old
    · cases fresh
  refine inv_moved (.joining (state.lookupKey task.key task.now).own) inv present rfl
    ?_ ?_ ?_ ?_ ?_ ?_ ?_ ?_ rfl
  · refine ⟨fun _ _ => afterLookup_keyAt, fun _ known => Or.inl (afterLookup_cellAt known), ?_, ?_⟩
    · intro other different held
      rw [holder, Option.some.injEq] at held
      exact absurd held.symm different
    · intro key cell member
      rcases result.member member with ⟨rfl, rfl⟩ | older
      · rcases result.owned with ⟨_, own⟩ | ⟨_, mapped⟩
        · right
          rw [own]
          simp [State.keyAt]
        · exact Or.inl mapped
      · exact Or.inl older
  · refine ⟨?_, ?_, ?_, ?_, trivial⟩
    · intro cell own
      cases own
      exact afterLookup_own inv
    · intro cell victim
      cases victim
    · intro cell permit
      cases permit
    · intro holds
      cases holds
  · intro key cell member
    rcases result.member member with ⟨rfl, rfl⟩ | older
    · obtain ⟨keyed, live⟩ := afterLookup_own inv
      refine ⟨keyed, live, ?_⟩
      intro resource filled
      rcases afterLookup_cell filled with old | fresh
      · rcases result.owned with ⟨_, new⟩ | ⟨_, mapped⟩
        · simp [State.cellAt, new] at old
        · exact (inv.entries _ _ mapped).covered resource old
      · cases fresh
    · have valid := inv.entries key cell older
      have same : (state.afterLookup id task).cellAt cell = state.cellAt cell :=
        afterLookup_cellAt (by simp [valid.key])
      exact ⟨afterLookup_keyAt valid.key, same ▸ valid.live, same ▸ valid.covered⟩
  · intro cell initializing
    rcases inv.permits cell id (unclaimed cell id initializing) with ⟨holder, found, permit⟩
    rw [present, Option.some.injEq] at found
    rw [← found, idle] at permit
    cases permit
  · intro cell other _ initializing
    exact unclaimed cell other initializing
  · intro held
    cases held
  · intro other _ held
    cases held
  · have pool : (state.afterLookup id task).pool = state.pool := rfl
    rw [afterLookup_total, pool, stage]
    rfl

theorem inv_pop {cell victim : CellId} {fetched : Fetched} {key : CachedResourceKey}
    {rest : LruCache CachedResourceKey CellId} (inv : Inv capacity state)
    (present : state.tasks[id]? = some task) (stage : task.pc = .popping cell fetched)
    (popped : state.map.popLru = some ((key, victim), rest)) :
    Inv capacity ({ state with map := rest }.setPc id task (.evicting cell fetched victim)) := by
  have before := inv.tasks id task present
  have holder : state.lock = some id := before.lock (by rw [stage]; rfl)
  have split := (LruCache.pop_some popped).1
  have older {other : CachedResourceKey × CellId} (member : other ∈ rest.entries) :
      other ∈ state.map.entries := by
    rw [split]
    exact List.mem_append_left _ member
  have last : (key, victim) ∈ state.map.entries := by
    rw [split]
    simp
  refine inv_moved (.evicting cell fetched victim) inv present rfl
    ?_ ?_ ?_ ?_ ?_ ?_ ?_ ?_ rfl
  · refine ⟨fun _ _ known => known, fun _ _ => Or.inl rfl, ?_, fun _ _ member => Or.inl (older member)⟩
    intro other different held
    rw [holder, Option.some.injEq] at held
    exact absurd held.symm different
  · refine ⟨?_, ?_, ?_, fun _ => holder, trivial⟩
    · intro other own
      exact before.own other (by rw [stage]; exact own)
    · intro other evicted
      cases evicted
      have valid := inv.entries key victim last
      exact ⟨Option.isSome_iff_exists.mpr ⟨key, valid.key⟩, valid.live⟩
    · intro other permit
      exact before.permit other (by rw [stage]; exact permit)
  · intro other otherCell member
    exact entry_congr (inv.entries other otherCell (older member)) rfl
  · intro other initializing
    rcases inv.permits other id initializing with ⟨holder, found, permit⟩
    rw [present, Option.some.injEq] at found
    rw [← found, stage] at permit
    exact permit
  · intro other _ _ initializing
    exact initializing
  · intro _
    rfl
  · intro other _ held
    exact held
  · rw [stage]
    rfl

theorem inv_lock {lock : Option TaskId} {old : Pc} (inv : Inv capacity state)
    (present : state.tasks[id]? = some task) (place : task.pc = old)
    (mine : state.lock = none ∨ state.lock = some id)
    (lock_eq : lock = if pc.holdsLock then some id else none)
    (own : pc.own = old.own) (victim : pc.victim = none)
    (initializes : pc.initializes = old.initializes)
    (reserved : pc.reserved = old.reserved)
    (stage : StageOk state old → StageOk state pc) :
    Inv capacity ({ state with lock := lock }.setPc id task pc) := by
  subst place
  have before := inv.tasks id task present
  have notForeign (other : TaskId) (different : other ≠ id) (held : state.lock = some other) :
      False := by
    rcases mine with none | some
    · rw [none] at held
      cases held
    · rw [some, Option.some.injEq] at held
      exact different held.symm
  refine inv_moved pc inv present rfl ?_ ?_ ?_ ?_ ?_ ?_ ?_ ?_ rfl
  · exact ⟨fun _ _ known => known, fun _ _ => Or.inl rfl,
      fun other different held => (notForeign other different held).elim,
      fun _ _ member => Or.inl member⟩
  · refine ⟨?_, ?_, ?_, ?_, ?_⟩
    · intro cell owned
      exact before.own cell (own ▸ owned)
    · intro cell evicted
      rw [show ({ task with pc := pc } : Task).pc.victim = none from victim] at evicted
      cases evicted
    · intro cell permit
      exact before.permit cell (initializes ▸ permit)
    · intro holds
      exact lock_eq.trans (if_pos holds)
    · have allowed := stage before.stage
      cases pc <;> exact allowed
  · intro key cell member
    exact entry_congr (inv.entries key cell member) rfl
  · intro cell initializing
    rcases inv.permits cell id initializing with ⟨holder, found, permit⟩
    rw [present, Option.some.injEq] at found
    exact initializes.trans (found ▸ permit)
  · intro cell other _ initializing
    exact initializing
  · intro held
    by_contra idle
    rw [if_neg idle] at lock_eq
    exact Option.some_ne_none id (held.symm.trans lock_eq)
  · intro other different held
    change lock = some other at held
    rw [lock_eq] at held
    split at held
    · rw [Option.some.injEq] at held
      exact absurd held.symm different
    · cases held
  · rw [reserved]
    rfl

theorem inv_cell {cell : CellId} {before content : Cell} {old : Pc} (inv : Inv capacity state)
    (present : state.tasks[id]? = some task) (place : task.pc = old)
    (found : state.cellAt cell = some before)
    (mine : before = .empty ∨ before = .initializing id)
    (tasks : next.tasks = state.tasks.set id { task with pc := pc })
    (slots : next.slots = (state.setCell cell content).slots)
    (pool : next.pool = state.pool) (map : next.map = state.map) (lock : next.lock = state.lock)
    (sound : next.poolPanicked = state.poolPanicked)
    (unlocked : old.holdsLock = false) (stillUnlocked : pc.holdsLock = false)
    (live : content ≠ .freed)
    (permit : ∀ other, content = .initializing other ↔ other = id ∧ pc.initializes = some cell)
    (only : ∀ other, pc.initializes = some other → other = cell)
    (onlyBefore : ∀ other, old.initializes = some other → other = cell)
    (own : ∀ other, pc.own = some other → old.own = some other) (victim : pc.victim = none)
    (covered : ∀ resource, content = .filled resource → state.mapped cell = true →
      resource.reservation.reserved = resource.size)
    (reserved : content.reserved + pc.reserved = old.reserved)
    (stage : StageOk next pc) : Inv capacity next := by
  subst place
  have valid := inv.tasks id task present
  have keys (other : CellId) : next.keyAt other = state.keyAt other := by
    simp only [State.keyAt, slots]
    exact state.setCell_keyAt cell content other
  have cells (other : CellId) : next.cellAt other =
      if cell = other then some content else state.cellAt other := by
    have after := state.setCell_cellAt cell content other
    simp only [State.cellAt, slots] at after ⊢
    rw [after]
    split
    · rename_i same
      subst other
      change (state.cellAt cell).map _ = _
      rw [found]
      rfl
    · rfl
  have stays (other : CellId) (alive : state.cellAt other ≠ some .freed) :
      next.cellAt other ≠ some .freed := by
    rw [cells]
    split
    · simpa using live
    · exact alive
  refine inv_moved pc inv present tasks ?_ ?_ ?_ ?_ ?_ ?_ ?_ ?_ sound
  · refine ⟨fun other key known => (keys other).trans known, ?_,
      fun other _ held => ⟨lock.trans held, map⟩, fun key other member => Or.inl (map ▸ member)⟩
    intro other known
    by_cases same : cell = other
    · subst other
      right
      refine ⟨?_, stays cell ?_⟩
      · rw [found]
        exact mine.imp (congrArg some) (congrArg some)
      · rw [found]
        rcases mine with rfl | rfl <;> simp
    · exact Or.inl (by rw [cells, if_neg same])
  · refine ⟨?_, ?_, ?_, ?_, stage⟩
    · intro other owned
      have earlier := valid.own other (own other owned)
      exact ⟨(keys other).trans earlier.1, stays other earlier.2⟩
    · intro other evicted
      rw [show ({ task with pc := pc } : Task).pc.victim = none from victim] at evicted
      cases evicted
    · intro other holds
      have same := only other holds
      subst other
      rw [cells, if_pos rfl, Option.some.injEq]
      exact (permit id).mpr ⟨rfl, holds⟩
    · intro holds
      rw [show ({ task with pc := pc } : Task).pc.holdsLock = false from stillUnlocked] at holds
      cases holds
  · intro key other member
    rw [map] at member
    have valid := inv.entries key other member
    refine ⟨(keys other).trans valid.key, stays other valid.live, ?_⟩
    intro resource filled
    rw [cells] at filled
    split at filled
    · rename_i same
      subst other
      exact covered resource (Option.some.inj filled) (mapped_iff.mpr ⟨key, member⟩)
    · exact valid.covered resource filled
  · intro other initializing
    rw [cells] at initializing
    split at initializing
    · rename_i same
      subst other
      exact ((permit id).mp (Option.some.inj initializing)).2
    · rename_i different
      rcases inv.permits other id initializing with ⟨holder, taken, holds⟩
      rw [present, Option.some.injEq] at taken
      exact absurd (onlyBefore other (taken ▸ holds)).symm different
  · intro other someone different initializing
    rw [cells] at initializing
    split at initializing
    · exact absurd ((permit someone).mp (Option.some.inj initializing)).1 different
    · exact initializing
  · intro held
    rw [lock] at held
    rcases inv.locks id held with ⟨holder, taken, holds⟩
    rw [present, Option.some.injEq] at taken
    rw [← taken, unlocked] at holds
    cases holds
  · intro other _ held
    exact lock.symm.trans held
  · have total := total_setCell content found
    have empty : before.reserved = 0 := by rcases mine with rfl | rfl <;> rfl
    rw [slots, pool]
    omega

theorem inv_abandon {cell : CellId} {old : Pc} (inv : Inv capacity state)
    (present : state.tasks[id]? = some task) (place : task.pc = old)
    (initializes : old.initializes = some cell) (unlocked : old.holdsLock = false)
    (nothing : old.reserved = 0)
    (own : pc.own = none) (victim : pc.victim = none) (idle : pc.initializes = none)
    (stillUnlocked : pc.holdsLock = false) (stillNothing : pc.reserved = 0)
    (stage : ∀ after : State, StageOk after pc) :
    Inv capacity (state.abandon id task cell pc) := by
  have permit := (inv.tasks id task present).permit cell (place ▸ initializes)
  apply inv_release
  refine inv_cell inv present place permit (Or.inr rfl) rfl rfl rfl rfl rfl rfl unlocked
    stillUnlocked (by simp) ?_ ?_ ?_ ?_ victim (by simp) ?_ (stage _)
  · intro other
    simp [idle]
  · intro other holds
    rw [idle] at holds
    cases holds
  · intro other holds
    rw [initializes, Option.some.injEq] at holds
    exact holds.symm
  · intro other owned
    rw [own] at owned
    cases owned
  · rw [stillNothing, nothing]
    rfl

theorem inv_countRoute (change : CacheRouteMetrics → CacheRouteMetrics)
    (inv : Inv capacity state) : Inv capacity (state.countRoute task change) :=
  ⟨fun key cell member => entry_congr (inv.entries key cell member) rfl,
    fun id other present => by
      have valid := inv.tasks id other present
      exact ⟨valid.own, valid.victim, valid.permit, valid.lock, by
        have stage := valid.stage
        cases shape : other.pc <;> rw [shape] at stage <;> exact stage⟩,
    inv.permits, inv.locks, inv.balance, inv.sound⟩

theorem inv_start [PathTree T] (inv : Inv capacity state) (cache : Cache T) (path : String)
    (now : Instant) : Inv capacity (state.start cache path now) := by
  rcases start_started state cache path now with ⟨fresh, started⟩
  have keys := started.keyAt
  have cells := started.cellAt
  have older {id : TaskId} {task : Task} (present : state.tasks[id]? = some task) :
      (state.start cache path now).tasks[id]? = some task := by
    rw [started.tasks]
    exact Arena.get_append_old _ present
  have idle : fresh.pc.own = none ∧ fresh.pc.victim = none ∧ fresh.pc.initializes = none ∧
      fresh.pc.holdsLock = false ∧ fresh.pc.reserved = 0 ∧
      StageOk (state.start cache path now) fresh.pc := by
    rcases started.stage with ⟨stage, _⟩ | ⟨stage, _⟩ | ⟨stage, _⟩ | ⟨stage, _⟩ <;> rw [stage] <;>
      exact ⟨rfl, rfl, rfl, rfl, rfl, trivial⟩
  obtain ⟨own, victim, initializes, unlocked, reserved, stage⟩ := idle
  refine ⟨?_, ?_, ?_, ?_, ?_, started.sound.trans inv.sound⟩
  · intro key cell member
    rw [started.map] at member
    exact entry_congr (inv.entries key cell member) started.slots
  · intro id task present
    rw [started.tasks] at present
    rcases Arena.get_append_cases present with before | ⟨_, rfl⟩
    · have valid := inv.tasks id task before
      refine ⟨?_, ?_, ?_, ?_, ?_⟩
      · intro cell owned
        rw [keys, cells]
        exact valid.own cell owned
      · intro cell evicted
        rw [keys, cells]
        exact valid.victim cell evicted
      · intro cell permit
        rw [cells]
        exact valid.permit cell permit
      · rw [started.lock]
        exact valid.lock
      · have stage := valid.stage
        cases shape : task.pc <;> rw [shape] at stage <;>
          simp only [StageOk, State.mapped, cells, started.map] at stage ⊢ <;> exact stage
    · refine ⟨?_, ?_, ?_, ?_, stage⟩
      · intro cell owned
        rw [own] at owned
        cases owned
      · intro cell evicted
        rw [victim] at evicted
        cases evicted
      · intro cell permit
        rw [initializes] at permit
        cases permit
      · intro holds
        rw [unlocked] at holds
        cases holds
  · intro cell id initializing
    rw [cells] at initializing
    rcases inv.permits cell id initializing with ⟨holder, found, permit⟩
    exact ⟨holder, older found, permit⟩
  · intro id held
    rw [started.lock] at held
    rcases inv.locks id held with ⟨holder, found, holds⟩
    exact ⟨holder, older found, holds⟩
  · have before := inv.balance
    simp only [State.reservedTotal, started.tasks, started.slots, started.pool,
      Arena.total_append, Arena.total_cons, Arena.total_nil, Task.reserved, reserved] at before ⊢
    omega

theorem move_inv {action : Action T} (inv : Inv capacity state)
    (present : state.tasks[id]? = some task) (move : Move state id task action next) :
    Inv capacity next := by
  have before := inv.tasks id task present
  cases move with
  | acquireLookup stage unlocked =>
      exact inv_lock inv present stage (Or.inl unlocked) rfl rfl rfl rfl rfl (fun _ => trivial)
  | acquireEvict cell fetched stage unlocked =>
      exact inv_lock inv present stage (Or.inl unlocked) rfl rfl rfl rfl rfl (fun _ => trivial)
  | lookup stage => exact inv_releaseOption (inv_lookup inv present stage) _
  | joinFilled cell resource stage found =>
      exact inv_quiet inv present stage rfl (fun _ own => own) rfl rfl rfl found
  | joinEmpty cell stage found =>
      refine inv_cell inv present stage found (Or.inl rfl) rfl rfl rfl rfl rfl rfl rfl rfl
        (by simp) ?_ (fun _ holds => by cases holds; rfl) (fun _ holds => by cases holds)
        (fun _ own => own) rfl (by simp) rfl trivial
      intro other
      simp [Pc.initializes, eq_comm]
  | answerNever answer stage =>
      exact inv_quiet inv present stage rfl (fun _ own => by cases own) rfl rfl rfl trivial
  | answerFound cell resource stage =>
      exact inv_quiet inv present stage rfl (fun _ own => own) rfl rfl rfl trivial
  | answerNone cell stage =>
      exact inv_abandon (inv_countRoute _ inv) present stage rfl rfl rfl rfl rfl rfl rfl rfl
        (fun _ => trivial)
  | answerError cell failure stage =>
      exact inv_abandon (inv_countRoute _ inv) present stage rfl rfl rfl rfl rfl rfl rfl rfl
        (fun _ => trivial)
  | storeOk cell resource diskError file stage stored =>
      exact inv_quiet inv present stage rfl (fun _ own => own) rfl rfl rfl trivial
  | storeError cell resource diskError failure stage stored =>
      exact inv_abandon (inv_countRoute _ inv) present stage rfl rfl rfl rfl rfl rfl rfl rfl
        (fun _ => trivial)
  | reserveGranted cell fetched locked pool reservation stage granted =>
      obtain ⟨full, taken⟩ := CapacityPool.reserve_some.mp granted
      refine inv_quiet inv present stage ?_ (fun _ own => own) rfl rfl rfl (Or.inl full)
      simp only [Pc.reserved, full]
      omega
  | reserveFailed cell fetched locked stage refused =>
      cases locked with
      | false => exact inv_quiet inv present stage rfl (fun _ own => own) rfl rfl rfl trivial
      | true => exact inv_quiet inv present stage rfl (fun _ own => own) rfl rfl rfl trivial
  | popEntry cell fetched key victim rest stage popped => exact inv_pop inv present stage popped
  | popNothing cell fetched stage exhausted =>
      exact inv_quiet inv present stage rfl (fun _ own => own) rfl rfl rfl
        (LruCache.pop_none.mp exhausted)
  | evict cell fetched victim stage =>
      apply inv_release
      exact inv_quiet inv present stage rfl (fun _ own => own) rfl rfl rfl trivial
  | reserveUpTo cell fetched pool reservation stage granted =>
      rcases CapacityPool.reserve_up_to_grants state.pool fetched.file.size with
        ⟨_, _, found, _, taken⟩
      rw [granted, Option.some.injEq, Prod.mk.injEq] at found
      obtain ⟨rfl, rfl⟩ := found
      -- the map is empty, so the cell of this get is not in it
      have empty := before.stage
      rw [stage] at empty
      refine inv_quiet inv present stage ?_ (fun _ own => own) rfl rfl rfl (Or.inr ?_)
      · simp only [Pc.reserved]
        omega
      · simp [State.mapped, show state.map.entries = [] from empty]
  | unlock cell fetched reservation stage =>
      have holder : state.lock = some id := before.lock (by rw [stage]; rfl)
      exact inv_lock inv present stage (Or.inr holder) rfl rfl rfl rfl rfl (fun full => full)
  | fill cell fetched reservation clock stage =>
      have permit := before.permit cell (by rw [stage]; rfl)
      have covered := before.stage
      rw [stage] at covered
      refine inv_cell inv present stage permit (Or.inr rfl) rfl rfl rfl rfl rfl rfl rfl rfl
        (by simp) (fun other => by simp [Pc.initializes]) (fun _ holds => by cases holds)
        (fun _ holds => by cases holds; rfl) (fun _ own => own) rfl ?_ rfl ?_
      · intro resource same mapped
        rw [Cell.filled.injEq] at same
        subst same
        exact covered.resolve_right (by simp [mapped])
      · exact State.setCell_self { state with metrics := _ } cell _ permit
  | count cell resource stage =>
      have filled := before.stage
      rw [stage] at filled
      exact inv_quiet inv present stage rfl (fun _ own => own) rfl rfl rfl filled
  | respond cell resource cloneError result stage shape =>
      apply inv_release
      exact inv_quiet inv present stage rfl (fun _ own => by cases own) rfl rfl rfl trivial
  | cancelIdle stage =>
      rcases stage with stage | stage <;>
        exact inv_quiet inv present stage rfl (fun _ own => by cases own) rfl rfl rfl trivial
  | cancelJoined cell stage =>
      apply inv_release
      rcases stage with stage | ⟨_, stage⟩ <;>
        exact inv_quiet inv present stage rfl (fun _ own => by cases own) rfl rfl rfl trivial
  | cancelInit cell stage =>
      rcases stage with stage | ⟨_, stage⟩ | ⟨_, stage⟩ <;>
        exact inv_abandon inv present stage rfl rfl rfl rfl rfl rfl rfl rfl (fun _ => trivial)

theorem initial_inv (slots : Nat) (positive : 0 < slots) :
    Inv capacity (initial capacity slots positive) where
  entries := by
    intro key cell member
    cases member
  tasks := by
    intro id task present
    simp [initial] at present
  permits := by
    intro cell id initializing
    simp [initial, State.cellAt] at initializing
  locks := by
    intro id held
    cases held
  balance := rfl
  sound := rfl

theorem step_inv [PathTree T] {action : Action T} (inv : Inv capacity state)
    (taken : step state action = some next) : Inv capacity next := by
  rcases step_moves taken with ⟨cache, path, now, rfl, rfl⟩ | ⟨id, task, present, move⟩
  · exact inv_start inv cache path now
  · exact move_inv inv present move

theorem run_inv [PathTree T] {slots : Nat} {positive : 0 < slots} {actions : List (Action T)}
    (reached : Transition.run step (initial capacity slots positive) actions = some state) :
    Inv capacity state :=
  Transition.run_induction (fun _ state => Inv capacity state) (initial_inv slots positive)
    (fun _ _ _ _ _ inv taken => step_inv inv taken) reached

end Server3.Machine
