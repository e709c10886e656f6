import Server3.LiveFiles
import Server3.SingleFlight

/-! What the eviction counters count. The reservation loop counts what it pops; an
insertion into a full map displaces an entry and counts nothing. -/

namespace Server3.Machine

open Clock Routes Upstream Resource Recency
open CapacityPool (CacheCapacityPool CacheCapacityReservation)

/-- A counter that is bumped for an evicted resource and by nothing else. -/
structure EvictionCounter where
  read : Metrics → Nat
  weight : CachedResource → Nat
  evicted : ∀ (metrics : Metrics) (resource : CachedResource),
    read (metrics.evicted resource) = read metrics + weight resource
  created : ∀ (metrics : Metrics) (host : String) (size : UInt64),
    read (metrics.created host size) = read metrics
  dropped : ∀ (metrics : Metrics) (resource : CachedResource),
    read (metrics.dropped resource) = read metrics
  route : ∀ (metrics : Metrics) (host path : String) change,
    read (metrics.updateRoute host path change) = read metrics

/-- `server3_cache_eviction_count` of a host. -/
def evictionCount (host : String) : EvictionCounter where
  read := fun metrics => metrics.evictionCount host
  weight := fun resource => if resource.host = host then 1 else 0
  evicted := fun metrics resource => raised metrics.evictionCount resource.host host 1
  created := fun _ _ _ => rfl
  dropped := fun _ _ => rfl
  route := fun _ _ _ _ => rfl

/-- `server3_cache_eviction_bytes` of a host. -/
def evictionBytes (host : String) : EvictionCounter where
  read := fun metrics => metrics.evictionBytes host
  weight := fun resource => if resource.host = host then resource.size.toNat else 0
  evicted := fun metrics resource =>
    raised metrics.evictionBytes resource.host host resource.size.toNat
  created := fun _ _ _ => rfl
  dropped := fun _ _ => rfl
  route := fun _ _ _ _ => rfl

def weigh (weight : CachedResource → Nat) (found : Option CachedResource) : Nat :=
  (found.map weight).getD 0

/-- The cell that the reservation loop has popped and not looked at yet. -/
def State.inHand (state : State) : Option CellId :=
  (state.lock.bind fun holder => state.tasks[holder]?).bind fun task => task.pc.victim

def State.handed (state : State) : Option CachedResource := state.inHand.bind state.resourceAt

def State.ended (state : State) : Nat :=
  Arena.total (fun task => if task.pc.ended then 1 else 0) state.tasks

section Observers

variable {T : Type → Type}

/-- The filled resource that the insertion of a new key displaces. -/
def displaces (state : State) : Action T → Option CachedResource
  | .lookup id => (state.tasks[id]?).bind fun task =>
      if task.key ∈ state.map.entries.map Prod.fst then none
      else state.map.displaced.bind fun entry => state.resourceAt entry.2
  | _ => none

def pops (state : State) : Action T → Option CachedResource
  | .pop _ => state.map.popLru.bind fun popped => state.resourceAt popped.1.2
  | _ => none

def makesRoom (state : State) (action : Action T) : Option CachedResource :=
  (displaces state action).or (pops state action)

def counts (state : State) : Action T → Option CachedResource
  | .evict _ => state.handed
  | _ => none

variable [PathTree T]

def removals (start : State) (actions : List (Action T)) : List CachedResource :=
  Transition.observed step makesRoom start actions

/-- The step displaces no filled resource, fills no cell that is in another get's
hand, and ends no get while another has a filled one in hand. -/
def RemovalsCounted (state : State) (action : Action T) : Prop :=
  displaces state action = none ∧
    (∀ cell ∈ filledCell state action, state.inHand ≠ some cell) ∧
      ∀ next ∈ step state action, state.ended < next.ended → state.handed = none

instance (state : State) (action : Action T) : Decidable (RemovalsCounted state action) :=
  inferInstanceAs (Decidable (_ ∧ _ ∧ ∀ next ∈ step state action, _))

end Observers

variable {T : Type → Type} {capacity : UInt64} {state next : State} {id : TaskId} {task : Task}
  {action : Action T} {cell : CellId} {counter : EvictionCounter} {pc : Pc}

theorem inHand_iff : state.inHand = some cell ↔ ∃ holder other, state.lock = some holder ∧
    state.tasks[holder]? = some other ∧ other.pc.victim = some cell := by
  simp only [State.inHand, Option.bind_eq_some_iff]
  constructor
  · rintro ⟨other, ⟨holder, held, found⟩, victim⟩
    exact ⟨holder, other, held, found, victim⟩
  · rintro ⟨holder, other, held, found, victim⟩
    exact ⟨other, ⟨holder, held, found⟩, victim⟩

theorem counter_free : counter.read (state.free cell).metrics = counter.read state.metrics := by
  unfold State.free
  split
  · rw [State.setCell, State.giveBack_metrics]
    exact counter.dropped _ _
  · rfl

theorem counter_release :
    counter.read (state.release cell).metrics = counter.read state.metrics := by
  unfold State.release
  split
  · rfl
  · exact counter_free

theorem counter_abandon {change : CacheRouteMetrics → CacheRouteMetrics} :
    counter.read ((state.countRoute task change).abandon id task cell pc).metrics =
      counter.read state.metrics :=
  counter_release.trans (counter.route _ _ _ _)

theorem counter_evictionMetrics (victim : CellId) : counter.read (state.evictionMetrics victim) =
    counter.read state.metrics + weigh counter.weight (state.resourceAt victim) := by
  unfold State.evictionMetrics
  split
  · rename_i resource found
    rw [resourceAt_some.mpr found]
    exact counter.evicted _ _
  · rename_i notFilled
    cases found : state.resourceAt victim with
    | none => rfl
    | some resource => exact absurd (resourceAt_some.mp found) (notFilled resource)

theorem move_counter (inv : Inv capacity state) (present : state.tasks[id]? = some task)
    (move : Move state id task action next) : counter.read next.metrics =
      counter.read state.metrics + weigh counter.weight (counts state action) := by
  cases move with
  | evict own fetched victim stage =>
      have hand : state.inHand = some victim :=
        inHand_iff.mpr ⟨id, task, (inv.tasks id task present).lock (by rw [stage]; rfl), present,
          by rw [stage]; rfl⟩
      have handed : state.handed = state.resourceAt victim := by
        rw [State.handed, hand]
        rfl
      rw [counter_release, counts, handed]
      exact counter_evictionMetrics victim
  | lookup stage =>
      cases unlinked : (state.lookupKey task.key task.now).unlinked with
      | none => rfl
      | some gone => exact counter_release
  | answerNone own stage => exact counter_abandon
  | answerError own failure stage => exact counter_abandon
  | storeError own body diskError failure stage stored => exact counter_abandon
  | cancelInit own stage => exact counter_release
  | respond own resource cloneError result stage shape => exact counter_release
  | cancelJoined own stage => exact counter_release
  | fill own fetched reservation clock stage => exact counter.created _ _ _
  | count own resource stage => exact counter.route _ _ _ _
  | _ => rfl

theorem inHand_same (present : state.tasks[id]? = some task)
    (tasks : next.tasks = state.tasks.set id { task with pc := pc })
    (before : task.pc.victim = none) (after : pc.victim = none)
    (lock : ∀ other, other ≠ id → (next.lock = some other ↔ state.lock = some other)) :
    next.inHand = state.inHand := by
  have moved (other : TaskId) (different : other ≠ id) :
      next.tasks[other]? = state.tasks[other]? := by
    rw [tasks, Arena.get_set_other _ _ (Ne.symm different)]
  apply Option.ext
  intro cell
  rw [inHand_iff, inHand_iff]
  constructor
  · rintro ⟨holder, other, held, found, victim⟩
    by_cases same : holder = id
    · subst holder
      rw [tasks, Arena.get_set_self _ present, Option.some.injEq] at found
      rw [← found, after] at victim
      cases victim
    · exact ⟨holder, other, (lock holder same).mp held, (moved holder same).symm.trans found, victim⟩
  · rintro ⟨holder, other, held, found, victim⟩
    by_cases same : holder = id
    · subst holder
      rw [present, Option.some.injEq] at found
      rw [← found, before] at victim
      cases victim
    · exact ⟨holder, other, (lock holder same).mpr held, (moved holder same).trans found, victim⟩

theorem move_other_lock {other : TaskId} (inv : Inv capacity state)
    (present : state.tasks[id]? = some task) (move : Move state id task action next)
    (different : other ≠ id) : next.lock = some other ↔ state.lock = some other := by
  have mine : ¬ (some id = some other) := fun same => different (Option.some.inj same).symm
  rcases move_lock move with ⟨pc, -, effect, -⟩
  cases effect with
  | kept same lock => rw [lock]
  | taken before after free lock =>
      rw [lock, free]
      exact iff_of_false mine nofun
  | released before after lock =>
      rw [lock, (inv.tasks id task present).lock before]
      exact iff_of_false nofun mine

theorem move_inHand (inv : Inv capacity state) (present : state.tasks[id]? = some task)
    (move : Move state id task action next) :
    (next.inHand = state.inHand ∧ pops state action = none ∧ counts state action = none) ∨
      (∃ victim, state.inHand = none ∧ next.inHand = some victim ∧ next.slots = state.slots ∧
        pops state action = state.resourceAt victim ∧ counts state action = none ∧
          next.ended = state.ended) ∨
      (next.inHand = none ∧ pops state action = none ∧ counts state action = state.handed) := by
  have valid := inv.tasks id task present
  have lock (other : TaskId) (different : other ≠ id) :=
    move_other_lock inv present move different
  cases move with
  | popEntry own fetched key victim rest stage popped =>
      right
      left
      have held := valid.lock (by rw [stage]; rfl)
      refine ⟨victim, ?_, ?_, rfl, ?_, rfl, ?_⟩
      · rw [Option.eq_none_iff_forall_ne_some]
        intro cell hand
        rcases inHand_iff.mp hand with ⟨holder, other, locked, found, evicted⟩
        rw [held, Option.some.injEq] at locked
        subst holder
        rw [present, Option.some.injEq] at found
        rw [← found, stage] at evicted
        cases evicted
      · exact inHand_iff.mpr ⟨id, _, held, Arena.get_set_self _ present, rfl⟩
      · simp only [pops, popped, Option.bind_some]
      · have total := Arena.total_set (fun task : Task => if task.pc.ended then 1 else 0)
          { task with pc := .evicting own fetched victim } present
        simp only [stage, Pc.ended] at total
        exact total
  | evict own fetched victim stage =>
      right
      right
      have held := valid.lock (by rw [stage]; rfl)
      refine ⟨?_, rfl, rfl⟩
      rw [Option.eq_none_iff_forall_ne_some]
      intro cell hand
      rcases inHand_iff.mp hand with ⟨holder, other, locked, found, evicted⟩
      rw [State.release_lock] at locked
      obtain rfl := Option.some.inj (held.symm.trans locked)
      rw [State.release_tasks, State.setPc_tasks, Arena.get_set_self _ present,
        Option.some.injEq] at found
      rw [← found] at evicted
      cases evicted
  | popNothing own fetched stage exhausted =>
      left
      refine ⟨inHand_same present rfl (by rw [stage]; rfl) rfl lock, ?_, rfl⟩
      rw [pops, exhausted]
      rfl
  | lookup stage =>
      exact Or.inl ⟨inHand_same present (State.releaseOption_tasks _) (by rw [stage]; rfl) rfl lock,
        rfl, rfl⟩
  | answerNone own stage | answerError own _ stage | storeError own _ _ _ stage
  | respond own _ _ _ stage =>
      exact Or.inl ⟨inHand_same present (State.release_tasks _ _) (by rw [stage]; rfl) rfl lock,
        rfl, rfl⟩
  | cancelJoined own stage =>
      rcases stage with stage | ⟨_, stage⟩ <;>
        exact Or.inl ⟨inHand_same present (State.release_tasks _ _) (by rw [stage]; rfl) rfl lock,
        rfl, rfl⟩
  | cancelInit own stage =>
      rcases stage with stage | ⟨_, stage⟩ | ⟨_, stage⟩ <;>
        exact Or.inl ⟨inHand_same present (State.release_tasks _ _) (by rw [stage]; rfl) rfl lock,
        rfl, rfl⟩
  | cancelIdle stage =>
      rcases stage with stage | stage <;>
        exact Or.inl ⟨inHand_same present rfl (by rw [stage]; rfl) rfl lock, rfl, rfl⟩
  | reserveFailed own fetched locked stage refused =>
      cases locked <;> exact Or.inl ⟨inHand_same present rfl (by rw [stage]; rfl) rfl lock, rfl, rfl⟩
  | acquireLookup stage | acquireEvict _ _ stage | joinFilled _ _ stage | joinEmpty _ stage
  | answerNever _ stage | answerFound _ _ stage | storeOk _ _ _ _ stage
  | reserveGranted _ _ _ _ _ stage | reserveUpTo _ _ _ _ stage
  | unlock _ _ _ stage | fill _ _ _ _ stage | count _ _ stage =>
      exact Or.inl ⟨inHand_same present rfl (by rw [stage]; rfl) rfl lock, rfl, rfl⟩

theorem hand_resource (inv : Inv capacity state) (alive : Inv capacity next)
    (present : state.tasks[id]? = some task) (move : Move state id task action next)
    (still : next.inHand = some cell)
    (unfilled : filledCell state action ≠ some cell) :
    next.resourceAt cell = state.resourceAt cell := by
  have older (resource : CachedResource) (filled : next.cellAt cell = some (.filled resource)) :
      state.cellAt cell = some (.filled resource) := by
    rcases move_filled move filled with before | ⟨fetched, reservation, clock, rfl, stage, -⟩
    · exact before
    · refine absurd ?_ unfilled
      simp [filledCell, present, stage, Pc.own]
  rcases inHand_iff.mp still with ⟨holder, other, -, found, victim⟩
  have live := ((alive.tasks holder other found).victim cell victim).2
  apply Option.ext
  intro resource
  rw [resourceAt_some, resourceAt_some]
  refine ⟨older resource, ?_⟩
  intro filled
  have settled : ∀ content, state.cellAt cell = some content → content.pending = false := by
    intro content known
    rw [filled, Option.some.injEq] at known
    rw [← known]
    rfl
  have after := settled_move inv present move ⟨known_of_cell filled, settled⟩
  rcases Option.isSome_iff_exists.mp after.1 with ⟨key, keyed⟩
  rcases Option.map_eq_some_iff.mp keyed with ⟨slot, slotPresent, -⟩
  have content : next.cellAt cell = some slot.cell := by
    rw [State.cellAt, slotPresent]
    rfl
  have pending := after.2 slot.cell content
  cases shape : slot.cell with
  | empty | initializing => simp [shape, Cell.pending] at pending
  | freed => exact absurd (shape ▸ content) live
  | filled again =>
      rw [shape] at content
      rw [older again content] at filled
      exact content.trans filled

theorem move_removals [PathTree T] (inv : Inv capacity state)
    (present : state.tasks[id]? = some task) (move : Move state id task action next)
    (counted : RemovalsCounted state action) :
    counter.read next.metrics + weigh counter.weight next.handed =
      counter.read state.metrics + weigh counter.weight state.handed +
        weigh counter.weight (makesRoom state action) := by
  obtain ⟨kept, unfilled, -⟩ := counted
  have alive := move_inv inv present move
  rw [move_counter inv present move, makesRoom, kept, Option.none_or]
  rcases move_inHand inv present move with ⟨same, popped, counted⟩ |
      ⟨victim, empty, taken, slots, popped, counted, -⟩ | ⟨empty, popped, counted⟩
  · have handed : next.handed = state.handed := by
      cases hand : state.inHand with
      | none => rw [State.handed, State.handed, same, hand]; rfl
      | some cell =>
          have still := same.trans hand
          have elsewhere : filledCell state action ≠ some cell :=
            fun filled => unfilled cell filled hand
          rw [State.handed, State.handed, still, hand]
          exact hand_resource inv alive present move still elsewhere
    rw [handed, popped, counted]
    rfl
  · have before : state.handed = none := by
      rw [State.handed, empty]
      rfl
    have after : next.handed = state.resourceAt victim := by
      rw [State.handed, taken]
      simp only [Option.bind_some, State.resourceAt, State.cellAt, slots]
    rw [before, after, popped, counted]
  · have after : next.handed = none := by
      rw [State.handed, empty]
      rfl
    rw [after, popped, counted]

theorem start_handed [PathTree T] (inv : Inv capacity state) (cache : Cache T) (path : String)
    (now : Instant) : (state.start cache path now).handed = state.handed := by
  rcases start_started state cache path now with ⟨fresh, started⟩
  have hand : (state.start cache path now).inHand = state.inHand := by
    simp only [State.inHand, started.lock, started.tasks]
    cases held : state.lock with
    | none => rfl
    | some holder =>
        rcases inv.locks holder held with ⟨task, present, -⟩
        simp only [Option.bind_some, present, Arena.get_append_old _ present]
  have cells : (state.start cache path now).resourceAt = state.resourceAt := by
    funext cell
    simp only [State.resourceAt, State.cellAt, started.slots]
  rw [State.handed, State.handed, hand, cells]

theorem start_counter [PathTree T] (cache : Cache T) (path : String) (now : Instant) :
    counter.read (state.start cache path now).metrics = counter.read state.metrics := by
  simp only [State.start]
  split
  · exact (counter.route _ _ _ _).trans (counter.route _ _ _ _)
  · exact (counter.route _ _ _ _).trans (counter.route _ _ _ _)
  · exact counter.route _ _ _ _
  · exact counter.route _ _ _ _

/-- What the counters read and what is in hand is all that left the map to make room. -/
theorem run_removals [PathTree T] (counter : EvictionCounter) {slots : Nat} {positive : 0 < slots}
    {actions : List (Action T)} (zero : counter.read Metrics.zero = 0)
    (reached : Transition.run step (initial capacity slots positive) actions = some state)
    (counted : Transition.Along step RemovalsCounted (initial capacity slots positive) actions) :
    counter.read state.metrics + weigh counter.weight state.handed =
      ((removals (initial capacity slots positive) actions).map counter.weight).sum := by
  refine Transition.run_induction (fun actions state =>
    Transition.Along step RemovalsCounted (initial capacity slots positive) actions →
      counter.read state.metrics + weigh counter.weight state.handed =
        ((removals (initial capacity slots positive) actions).map counter.weight).sum)
    (fun _ => by exact zero) ?_ reached counted
  intro earlier state action next prefixRun before taken along
  rw [Transition.along_snoc prefixRun] at along
  have inv := run_inv prefixRun
  have sum : ((removals (initial capacity slots positive) (earlier ++ [action])).map
      counter.weight).sum = counter.read state.metrics + weigh counter.weight state.handed +
        weigh counter.weight (makesRoom state action) := by
    rw [removals, Transition.observed_snoc prefixRun, List.map_append, List.sum_append,
      before along.1, removals]
    cases makesRoom state action <;> rfl
  rw [sum]
  rcases step_moves taken with ⟨cache, path, now, rfl, rfl⟩ | ⟨id, task, present, move⟩
  · rw [start_counter, start_handed inv]
    rfl
  · exact move_removals inv present move along.2

theorem ending_handed [PathTree T] (inv : Inv capacity state) (taken : step state action = some next)
    (counted : RemovalsCounted state action) (ends : state.ended < next.ended) :
    next.handed = none := by
  obtain ⟨-, unfilled, free⟩ := counted
  have before := free next taken ends
  rcases step_moves taken with ⟨cache, path, now, rfl, rfl⟩ | ⟨id, task, present, move⟩
  · rw [start_handed inv]
    exact before
  · rcases move_inHand inv present move with ⟨same, -⟩ | ⟨_, _, _, _, _, _, still⟩ | ⟨empty, -⟩
    · cases hand : next.inHand with
      | none =>
          rw [State.handed, hand]
          rfl
      | some cell =>
          have old := same.symm.trans hand
          have kept := hand_resource inv (move_inv inv present move) present move hand
            fun filled => unfilled cell filled old
          rw [State.handed, old] at before
          rw [State.handed, hand]
          exact kept.trans before
    · exact absurd ends (by omega)
    · rw [State.handed, empty]
      rfl

theorem weigh_of_host (host : String) (resources : List CachedResource)
    (weight : CachedResource → Nat) :
    (resources.map fun resource => if resource.host = host then weight resource else 0).sum =
      ((ofHost host resources).map weight).sum :=
  Arena.total_filter weight (fun resource => resource.host = host) resources

/-- At the end of each get of a run whose steps meet the condition, the eviction counters
of each host count the filled resources that left the map to make room, and their
bytes. -/
theorem evictions_counted [PathTree T] {slots : Nat} {positive : 0 < slots}
    {actions : List (Action T)}
    (reached : Transition.run step (initial capacity slots positive) actions = some state)
    (taken : step state action = some next) (ends : state.ended < next.ended)
    (counted : Transition.Along step RemovalsCounted (initial capacity slots positive)
      (actions ++ [action])) (host : String) :
    next.metrics.evictionCount host =
        (ofHost host (removals (initial capacity slots positive) (actions ++ [action]))).length ∧
      next.metrics.evictionBytes host =
        totalSize (ofHost host (removals (initial capacity slots positive) (actions ++ [action]))) := by
  have whole := Transition.run_snoc.mpr ⟨state, reached, taken⟩
  have last := ((Transition.along_snoc reached).mp counted).2
  have empty := ending_handed (run_inv reached) taken last ends
  have count := run_removals (evictionCount host) rfl whole counted
  have bytes := run_removals (evictionBytes host) rfl whole counted
  rw [empty] at count bytes
  constructor
  · calc
      _ = _ := count
      _ = _ := weigh_of_host host _ fun _ => 1
      _ = _ := by simp
  · exact bytes.trans (weigh_of_host host _ fun resource => resource.size.toNat)

def twoFiles : List (Action LiteralTree) :=
  fetchActions plainCache "/a" epoch 0 (plainBody [1, 2]) ++ fillActions 0 ⟨epoch, ⟨0⟩⟩ ++
    respondActions 0 ++ fetchActions plainCache "/b" epoch 1 (plainBody [3, 4]) ++
      fillActions 1 ⟨epoch, ⟨0⟩⟩ ++ [.count 1]

/-- With one slot the second file displaces the first, which is not counted. -/
theorem displaced_uncounted :
    ∃ state next, Transition.run step (initial 8 1 (by decide)) twoFiles = some state ∧
      step state (.respond 1 none : Action LiteralTree) = some next ∧ state.ended < next.ended ∧
      next.metrics.evictionCount "files" = 0 ∧
      (ofHost "files" (removals (initial 8 1 (by decide))
        (twoFiles ++ [.respond 1 none]))).length = 1 := by
  have seen : (Transition.run step (initial 8 1 (by decide)) twoFiles).bind (fun state =>
      (step state (.respond 1 none : Action LiteralTree)).map fun next =>
        (state.ended, next.ended, next.metrics.evictionCount "files")) = some (1, 2, 0) := rfl
  rcases Option.bind_eq_some_iff.mp seen with ⟨state, reached, seen⟩
  rcases Option.map_eq_some_iff.mp seen with ⟨next, taken, same⟩
  simp only [Prod.mk.injEq] at same
  exact ⟨state, next, reached, taken, by omega, same.2.2, rfl⟩

/-- With three bytes of room the first file is popped for the second. -/
def makingRoom : List (Action LiteralTree) :=
  fetchActions plainCache "/a" epoch 0 (plainBody [1, 2]) ++ fillActions 0 ⟨epoch, ⟨0⟩⟩ ++
    respondActions 0 ++ fetchActions plainCache "/b" epoch 1 (plainBody [3, 4]) ++
      [.store 1 none, .reserve 1, .acquire 1, .pop 1, .evict 1, .reserve 1, .unlock 1,
        .fill 1 ⟨epoch, ⟨0⟩⟩, .count 1]

theorem evictions_counted_popped :
    ∃ next, Transition.run step (initial 3 2 (by decide)) (makingRoom ++ [.respond 1 none]) =
        some next ∧ next.metrics.evictionCount "files" = 1 ∧
      next.metrics.evictionBytes "files" = 2 := by
  have seen : (Transition.run step (initial 3 2 (by decide)) makingRoom).bind (fun state =>
      (step state (.respond 1 none : Action LiteralTree)).map fun next =>
        (state.ended, next.ended)) = some (1, 2) := rfl
  rcases Option.bind_eq_some_iff.mp seen with ⟨state, reached, seen⟩
  rcases Option.map_eq_some_iff.mp seen with ⟨next, taken, same⟩
  simp only [Prod.mk.injEq] at same
  have counted : Transition.Along step RemovalsCounted (initial 3 2 (by decide))
      (makingRoom ++ [.respond 1 none]) := by decide
  have counts := evictions_counted reached taken (by omega) counted "files"
  exact ⟨next, Transition.run_snoc.mpr ⟨state, reached, taken⟩, counts.1, counts.2⟩

end Server3.Machine
