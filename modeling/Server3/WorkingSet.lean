import Server3.SingleFlight
import Server3.Provenance

/-! A working set that fits: all rules cache forever, there is a slot for every key
and room for the largest body of every key. Then every cell stays where it is, and
the reservations of a key never exceed its bound. -/

namespace Server3.Machine

open Clock Routes Upstream Resource Recency
open CapacityPool (CacheCapacityPool CacheCapacityReservation)

variable {T : Type → Type} {capacity : UInt64} {slots : Nat} {keys : Finset CachedResourceKey}
  {bound : CachedResourceKey → Nat} {state next : State} {id : TaskId} {task : Task}
  {action : Action T} {actions : List (Action T)}

def PcFits (bound : CachedResourceKey → Nat) (state : State) (id : TaskId)
    (key : CachedResourceKey) : Pc → Prop
  | .storing _ resource => resource.body.content.length ≤ bound key
  | .reserving _ fetched locked => locked = false ∧ fetched.file.size.toNat ≤ bound key
  | .granted _ fetched reservation locked => locked = false ∧
      reservation.reserved = fetched.file.size ∧ fetched.file.size.toNat ≤ bound key
  | .neverFetch | .evictLock _ _ | .popping _ _ | .evicting _ _ _ | .reservingUpTo _ _ => False
  | .finished (.ok (some response)) => ∃ cell resource, state.keyAt cell = some key ∧
      state.cellAt cell = some (.filled resource) ∧ response = resource.response id
  | _ => True

structure Fits (slots : Nat) (keys : Finset CachedResourceKey) (bound : CachedResourceKey → Nat)
    (state : State) : Prop where
  tasks : ∀ (id : TaskId) task, state.tasks[id]? = some task →
    task.key ∈ keys ∧ task.expiresAfter = none ∧ PcFits bound state id task.key task.pc
  mapped : ∀ cell key, state.keyAt cell = some key →
    key ∈ keys ∧ (key, cell) ∈ state.map.entries
  filled : ∀ cell key resource, state.keyAt cell = some key →
    state.cellAt cell = some (.filled resource) →
      resource.expiresAt = none ∧ resource.size.toNat ≤ bound key
  capacity : state.map.capacity = slots

section Accounting

theorem one_cell {one two : CellId} {key : CachedResourceKey} (fits : Fits slots keys bound state)
    (first : state.keyAt one = some key) (second : state.keyAt two = some key) : one = two :=
  LruCache.entry_unique (fits.mapped one key first).2 (fits.mapped two key second).2

theorem one_initialiser {one two : TaskId} {oneTask twoTask : Task} {oneCell twoCell : CellId}
    (inv : Inv capacity state) (fits : Fits slots keys bound state)
    (first : state.tasks[one]? = some oneTask) (second : state.tasks[two]? = some twoTask)
    (same : oneTask.key = twoTask.key) (oneHolds : oneTask.pc.initializes = some oneCell)
    (twoHolds : twoTask.pc.initializes = some twoCell) : one = two := by
  have oneKey := ((inv.tasks one oneTask first).own oneCell (own_of_initializes oneHolds)).1
  have twoKey := ((inv.tasks two twoTask second).own twoCell (own_of_initializes twoHolds)).1
  have sameCell := one_cell fits oneKey (twoKey.trans (congrArg some same.symm))
  subst sameCell
  exact permit_unique inv first second oneHolds twoHolds

theorem reserved_task (fits : Fits slots keys bound state) (present : state.tasks[id]? = some task)
    (holds : task.reserved ≠ 0) :
    ∃ cell, task.pc.initializes = some cell ∧ task.reserved ≤ bound task.key := by
  have place := (fits.tasks id task present).2.2
  unfold Task.reserved at holds ⊢
  cases stage : task.pc with
  | granted cell fetched reservation locked =>
      rw [stage] at place
      refine ⟨cell, rfl, ?_⟩
      simp only [Pc.reserved, place.2.1]
      exact place.2.2
  | _ =>
      rw [stage] at holds
      exact absurd rfl holds

theorem reserved_slot {cell : CellId} {slot : Slot} (present : state.slots[cell]? = some slot)
    (holds : slot.reserved ≠ 0) :
    ∃ resource, state.cellAt cell = some (.filled resource) ∧
      slot.reserved = resource.reservation.reserved.toNat := by
  unfold Slot.reserved at holds ⊢
  cases content : slot.cell with
  | filled resource => exact ⟨resource, by simp [State.cellAt, present, content], rfl⟩
  | _ =>
      rw [content] at holds
      exact absurd rfl holds

theorem slot_keyAt {cell : CellId} {slot : Slot} (present : state.slots[cell]? = some slot) :
    state.keyAt cell = some slot.key := by simp [State.keyAt, present]

theorem slots_share_le (inv : Inv capacity state) (fits : Fits slots keys bound state)
    (key : CachedResourceKey) :
    Arena.share Slot.reserved Slot.key key state.slots ≤ bound key := by
  apply Arena.share_le
  · intro one two slot other first second same alsoSame _ _
    have firstKey := slot_keyAt first
    have secondKey := slot_keyAt second
    rw [same] at firstKey
    rw [alsoSame] at secondKey
    exact one_cell fits firstKey secondKey
  · intro cell slot present same
    by_cases nothing : slot.reserved = 0
    · omega
    · rcases reserved_slot present nothing with ⟨resource, filled, amount⟩
      have keyed := slot_keyAt present
      rw [same] at keyed
      have full := (inv.entries key cell (fits.mapped cell key keyed).2).covered resource filled
      rw [amount, full]
      exact (fits.filled cell key resource keyed filled).2

theorem tasks_share_le (inv : Inv capacity state) (fits : Fits slots keys bound state)
    (key : CachedResourceKey) :
    Arena.share Task.reserved Task.key key state.tasks ≤ bound key := by
  apply Arena.share_le
  · intro one two oneTask twoTask first second same alsoSame oneHolds twoHolds
    rcases reserved_task fits first oneHolds with ⟨oneCell, oneInitializes, _⟩
    rcases reserved_task fits second twoHolds with ⟨twoCell, twoInitializes, _⟩
    exact one_initialiser inv fits first second (same.trans alsoSame.symm) oneInitializes
      twoInitializes
  · intro id task present same
    by_cases nothing : task.reserved = 0
    · omega
    · rcases reserved_task fits present nothing with ⟨_, _, limit⟩
      exact same ▸ limit

theorem slots_share_zero {cell : CellId} (inv : Inv capacity state)
    (fits : Fits slots keys bound state) (present : state.tasks[id]? = some task)
    (holds : task.pc.initializes = some cell) :
    Arena.share Slot.reserved Slot.key task.key state.slots = 0 := by
  have valid := inv.tasks id task present
  have permit := valid.permit cell holds
  have own := (valid.own cell (own_of_initializes holds)).1
  apply Arena.share_zero
  intro other slot found same
  by_contra positive
  rcases reserved_slot found positive with ⟨resource, filled, _⟩
  have keyed := slot_keyAt found
  rw [same] at keyed
  rw [one_cell fits own keyed, filled] at permit
  cases permit

/-- The cell of a key and the get that fills it never both hold a reservation. -/
theorem key_share_le (inv : Inv capacity state) (fits : Fits slots keys bound state)
    (key : CachedResourceKey) :
    Arena.share Slot.reserved Slot.key key state.slots +
      Arena.share Task.reserved Task.key key state.tasks ≤ bound key := by
  have slotsShare := slots_share_le inv fits key
  have tasksShare := tasks_share_le inv fits key
  by_cases nothing : ∀ (id : TaskId) task, state.tasks[id]? = some task → task.key = key →
      task.reserved = 0
  · rw [Arena.share_zero nothing]
    exact slotsShare
  · simp only [not_forall] at nothing
    rcases nothing with ⟨id, task, present, same, holds⟩
    rcases reserved_task fits present holds with ⟨cell, initializes, _⟩
    rw [← same, slots_share_zero inv fits present initializes, Nat.zero_add, same]
    exact tasksShare

theorem reserve_granted {cell : CellId} {fetched : Fetched} {locked : Bool}
    (inv : Inv capacity state) (fits : Fits slots keys bound state)
    (enough : ∑ key ∈ keys, bound key ≤ capacity.toNat)
    (present : state.tasks[id]? = some task) (stage : task.pc = .reserving cell fetched locked) :
    ∃ pool reservation, state.pool.reserve fetched.file.size = some (pool, reservation) := by
  have place := fits.tasks id task present
  rw [stage] at place
  have initializes : task.pc.initializes = some cell := by rw [stage]; rfl
  have noSlot := slots_share_zero inv fits present initializes
  -- of its own key no other get holds anything either
  have noTask : Arena.share Task.reserved Task.key task.key state.tasks = 0 := by
    apply Arena.share_zero
    intro other otherTask found same
    by_contra holds
    rcases reserved_task fits found holds with ⟨otherCell, otherInitializes, _⟩
    have equal := one_initialiser inv fits found present same otherInitializes initializes
    subst equal
    rw [present, Option.some.injEq] at found
    rw [← found, Task.reserved, stage] at holds
    exact holds rfl
  have bySlot : Arena.total Slot.reserved state.slots =
      ∑ key ∈ keys, Arena.share Slot.reserved Slot.key key state.slots := by
    apply Arena.total_by_key
    intro slot member
    rcases List.getElem?_of_mem member with ⟨index, found⟩
    exact (fits.mapped index slot.key (slot_keyAt found)).1
  have byTask : Arena.total Task.reserved state.tasks =
      ∑ key ∈ keys, Arena.share Task.reserved Task.key key state.tasks := by
    apply Arena.total_by_key
    intro other member
    rcases List.getElem?_of_mem member with ⟨index, found⟩
    exact (fits.tasks index other found).1
  have others : ∑ key ∈ keys.erase task.key, (Arena.share Slot.reserved Slot.key key state.slots +
      Arena.share Task.reserved Task.key key state.tasks) ≤
        ∑ key ∈ keys.erase task.key, bound key :=
    Finset.sum_le_sum fun key _ => key_share_le inv fits key
  have balance := inv.balance
  rw [State.reservedTotal, bySlot, byTask, ← Finset.sum_add_distrib,
    ← Finset.add_sum_erase keys _ place.1, noSlot, noTask] at balance
  rw [← Finset.add_sum_erase keys _ place.1] at enough
  apply CapacityPool.reserve_succeeds
  have limit := place.2.2.2
  omega

end Accounting

/-- With a slot for every key, a new key never displaces an entry. -/
theorem nothing_displaced {key : CachedResourceKey} (inv : Inv capacity state)
    (fits : Fits slots keys bound state) (few : keys.card ≤ slots) (known : key ∈ keys)
    (missing : key ∉ state.map.entries.map Prod.fst) : state.map.displaced = none := by
  have inside : (state.map.entries.map Prod.fst).toFinset ⊆ keys.erase key := by
    intro other member
    rw [List.mem_toFinset] at member
    rcases List.mem_map.mp member with ⟨⟨_, cell⟩, stored, rfl⟩
    have keyed := (inv.entries _ cell stored).key
    refine Finset.mem_erase.mpr ⟨?_, (fits.mapped cell _ keyed).1⟩
    rintro rfl
    exact missing member
  have size := Finset.card_le_card inside
  rw [List.toFinset_card_of_nodup state.map.distinct, List.length_map,
    Finset.card_erase_of_mem known] at size
  have positive := state.map.positive
  rw [fits.capacity] at positive
  rw [LruCache.displaced, if_neg]
  rw [fits.capacity]
  omega

theorem never_expired {cell : CellId} {resource : CachedResource} {now : Instant}
    (fits : Fits slots keys bound state) (filled : state.cellAt cell = some (.filled resource)) :
    resource.isExpired now = false := by
  rcases Option.isSome_iff_exists.mp (known_of_cell filled) with ⟨key, keyed⟩
  rw [CachedResource.isExpired, (fits.filled cell key resource keyed filled).1]

/-- What the working set asks of a step: gets of its keys under rules that cache
forever, and bodies within the bounds. -/
def ActionFits [PathTree T] (keys : Finset CachedResourceKey) (bound : CachedResourceKey → Nat)
    (state : State) : Action T → Prop
  | .start cache path _ => cache.key path ∈ keys ∧
      (cache.rules.matchRoute path).1 = .enabled ⟨.cacheForever⟩
  | .answer id (.ok (some resource)) => ∀ task, state.tasks[id]? = some task →
      resource.body.content.length ≤ bound task.key
  | _ => True

theorem entry_stays {key : CachedResourceKey} {cell : CellId} (inv : Inv capacity state)
    (fits : Fits slots keys bound state) (few : keys.card ≤ slots)
    (present : state.tasks[id]? = some task) (move : Move state id task action next)
    (member : (key, cell) ∈ state.map.entries) : (key, cell) ∈ next.map.entries := by
  rcases move_entry inv present move member with kept | evicts | ⟨resource, filled, expired⟩
  · exact kept
  · rcases evicts.how with ⟨popper, rest, rfl, popped⟩ | ⟨other, found, rfl, foundAt, missing, gone⟩
    · have place := (fits.tasks id task present).2.2
      cases move with
      | popEntry own fetched poppedKey victim remaining stage _ =>
          rw [stage] at place
          exact place.elim
      | popNothing own fetched stage _ =>
          rw [stage] at place
          exact place.elim
    · rw [nothing_displaced inv fits few (fits.tasks other found foundAt).1 missing] at gone
      cases gone
  · rw [never_expired fits filled] at expired
    cases expired

theorem filled_stays {cell : CellId} {resource : CachedResource} (inv : Inv capacity state)
    (fits : Fits slots keys bound state) (few : keys.card ≤ slots)
    (present : state.tasks[id]? = some task) (move : Move state id task action next)
    (filled : state.cellAt cell = some (.filled resource)) :
    next.cellAt cell = some (.filled resource) := by
  rcases Option.isSome_iff_exists.mp (known_of_cell filled) with ⟨key, keyed⟩
  have stays := entry_stays inv fits few present move (fits.mapped cell key keyed).2
  rcases move_keeps_filled inv present move filled with kept | lost
  · exact kept
  · rw [not_mapped_iff] at lost
    exact absurd stays (lost key)

theorem pc_fits_later {key : CachedResourceKey} {pc : Pc}
    (keeps : ∀ cell key, state.keyAt cell = some key → next.keyAt cell = some key)
    (filled : ∀ cell resource, state.cellAt cell = some (.filled resource) →
      next.cellAt cell = some (.filled resource))
    (before : PcFits bound state id key pc) : PcFits bound next id key pc := by
  cases pc with
  | finished result =>
      match result with
      | .error _ => trivial
      | .ok none => trivial
      | .ok (some response) =>
          rcases before with ⟨cell, resource, keyed, content, shape⟩
          exact ⟨cell, resource, keeps cell key keyed, filled cell resource content, shape⟩
  | _ => exact before

theorem move_fits [PathTree T] (inv : Inv capacity state) (fits : Fits slots keys bound state)
    (enough : ∑ key ∈ keys, bound key ≤ capacity.toNat)
    (allowed : ActionFits keys bound state action) (present : state.tasks[id]? = some task)
    (move : Move state id task action next) :
    ∃ pc, next.tasks = state.tasks.set id { task with pc := pc } ∧
      PcFits bound state id task.key pc := by
  have place := (fits.tasks id task present).2.2
  cases move with
  | acquireEvict cell fetched stage unlocked =>
      rw [stage] at place
      exact place.elim
  | answerNever answer stage =>
      rw [stage] at place
      exact place.elim
  | answerFound cell resource stage => exact ⟨_, rfl, allowed task present⟩
  | storeOk cell resource diskError file stage stored =>
      rw [stage] at place
      refine ⟨_, rfl, rfl, ?_⟩
      change file.size.toNat ≤ bound task.key
      rw [file_size, (store_ok stored).1]
      exact place
  | reserveGranted cell fetched locked pool reservation stage granted =>
      rw [stage] at place
      exact ⟨_, rfl, place.1, (CapacityPool.reserve_some.mp granted).1, place.2⟩
  | reserveFailed cell fetched locked stage refused =>
      rcases reserve_granted inv fits enough present stage with ⟨pool, reservation, granted⟩
      rw [granted] at refused
      cases refused
  | popEntry cell fetched key victim rest stage popped =>
      rw [stage] at place
      exact place.elim
  | popNothing cell fetched stage exhausted =>
      rw [stage] at place
      exact place.elim
  | evict cell fetched victim stage =>
      rw [stage] at place
      exact place.elim
  | reserveUpTo cell fetched pool reservation stage granted =>
      rw [stage] at place
      exact place.elim
  | unlock cell fetched reservation stage =>
      rw [stage] at place
      cases place.1
  | respond cell resource cloneError result stage shape =>
      refine ⟨_, State.release_tasks _ _, ?_⟩
      subst shape
      cases cloneError with
      | some message => trivial
      | none =>
          have valid := inv.tasks id task present
          have filled := valid.stage
          have own := (valid.own cell (by rw [stage]; rfl)).1
          rw [stage] at filled
          exact ⟨cell, resource, own, filled, rfl⟩
  | _ =>
      first
      | exact ⟨_, rfl, trivial⟩
      | exact ⟨_, State.release_tasks _ _, trivial⟩
      | exact ⟨_, State.releaseOption_tasks _, trivial⟩

theorem fits_move [PathTree T] (inv : Inv capacity state) (fits : Fits slots keys bound state)
    (few : keys.card ≤ slots) (enough : ∑ key ∈ keys, bound key ≤ capacity.toNat)
    (allowed : ActionFits keys bound state action) (present : state.tasks[id]? = some task)
    (move : Move state id task action next) : Fits slots keys bound next := by
  have keeps : ∀ cell key, state.keyAt cell = some key → next.keyAt cell = some key :=
    fun _ _ => move_keeps_key move
  have filled : ∀ cell resource, state.cellAt cell = some (.filled resource) →
      next.cellAt cell = some (.filled resource) :=
    fun _ _ => filled_stays inv fits few present move
  have known := fits.tasks id task present
  rcases move_fits inv fits enough allowed present move with ⟨pc, tasks, place⟩
  refine ⟨?_, ?_, ?_, ?_⟩
  · intro other found after
    rcases task_after present tasks after with ⟨rfl, rfl⟩ | ⟨_, unchanged⟩
    · exact ⟨known.1, known.2.1, pc_fits_later keeps filled place⟩
    · have before := fits.tasks other found unchanged
      exact ⟨before.1, before.2.1, pc_fits_later keeps filled before.2.2⟩
  · intro cell key keyed
    rcases move_keyAt inv move keyed with older | ⟨_, rfl, member⟩
    · have before := fits.mapped cell key older
      exact ⟨before.1, entry_stays inv fits few present move before.2⟩
    · exact ⟨known.1, member⟩
  · intro cell key resource keyed content
    rcases move_filled move content with old | ⟨fetched, reservation, clock, _, stage, rfl⟩
    · rcases move_keyAt inv move keyed with older | ⟨fresh, _, _⟩
      · exact fits.filled cell key resource older old
      · have impossible := known_of_cell old
        rw [fresh] at impossible
        cases impossible
    · have own := ((inv.tasks id task present).own cell (by rw [stage]; rfl)).1
      have same := (keeps cell task.key own).symm.trans keyed
      rw [Option.some.injEq] at same
      have limit := known.2.2
      rw [stage] at limit
      exact ⟨known.2.1, same ▸ limit.2.2⟩
  · exact (move_capacity move).trans fits.capacity

theorem fits_start [PathTree T] {cache : Cache T} {path : String} {now : Instant}
    (fits : Fits slots keys bound state)
    (allowed : ActionFits keys bound state (.start cache path now)) :
    Fits slots keys bound (state.start cache path now) := by
  rcases start_started state cache path now with ⟨fresh, started⟩
  have planned : plan (cache.rules.matchRoute path).1 now = .cached none := by
    rw [allowed.2]
    rfl
  have keys := started.keyAt
  have cells := started.cellAt
  refine ⟨?_, ?_, ?_, ?_⟩
  · intro id task present
    rw [started.tasks] at present
    rcases Arena.get_append_cases present with old | ⟨_, rfl⟩
    · have before := fits.tasks id task old
      exact ⟨before.1, before.2.1, pc_fits_later (fun cell _ => (keys cell).trans)
        (fun cell _ => (cells cell).trans) before.2.2⟩
    · have key : task.key = cache.key path := by
        rw [Task.key, started.host, started.requested]
        rfl
      rcases started.stage with ⟨stage, cached⟩ | ⟨_, other⟩ | ⟨_, other⟩ | ⟨_, other⟩
      · rw [planned, Plan.cached.injEq] at cached
        rw [stage, key]
        exact ⟨allowed.1, cached.symm, trivial⟩
      all_goals
        rw [planned] at other
        cases other
  · intro cell key keyed
    rw [keys] at keyed
    rw [started.map]
    exact fits.mapped cell key keyed
  · intro cell key resource keyed content
    rw [keys] at keyed
    rw [cells] at content
    exact fits.filled cell key resource keyed content
  · rw [started.map]
    exact fits.capacity

/-- What is assumed of a run: all rules cache forever, there is a slot for
every key requested, and the bounds of their bodies fit the capacity together. -/
structure WorkingSetFits [PathTree T] (capacity : UInt64) (slots : Nat)
    (bound : CachedResourceKey → Nat) (actions : List (Action T)) : Prop where
  forever : ∀ request ∈ requests actions,
    (request.cache.rules.matchRoute request.path).1 = .enabled ⟨.cacheForever⟩
  few : ((requests actions).map Request.key).toFinset.card ≤ slots
  bounded : ∀ (source : TaskId) resource request,
    .answer source (.ok (some resource)) ∈ actions → (requests actions)[source]? = some request →
      resource.body.content.length ≤ bound request.key
  enough : ∑ key ∈ ((requests actions).map Request.key).toFinset, bound key ≤ capacity.toNat

theorem request_of_start {cache : Cache T} {path : String} {now : Instant}
    (member : .start cache path now ∈ actions) : ⟨cache, path, now⟩ ∈ requests actions :=
  List.mem_filterMap.mpr ⟨_, member, rfl⟩

theorem action_fits [PathTree T] {positive : 0 < slots} {whole : List (Action T)}
    (working : WorkingSetFits capacity slots bound whole) (part : actions ++ [action] <+: whole)
    (reached : Transition.run step (initial capacity slots positive) actions = some state) :
    ActionFits ((requests whole).map Request.key).toFinset bound state action := by
  have member : action ∈ whole := part.subset (by simp)
  unfold ActionFits
  split
  · rename_i cache path now
    have asked := request_of_start member
    refine ⟨?_, working.forever _ asked⟩
    rw [List.mem_toFinset]
    exact List.mem_map.mpr ⟨_, asked, rfl⟩
  · rename_i source resource
    intro task present
    rcases task_request reached present with ⟨request, asked, key, _⟩
    have longer : requests actions <+: requests whole :=
      ((List.prefix_append actions _).trans part).filterMap _
    rcases longer with ⟨rest, same⟩
    rw [← key]
    apply working.bounded source resource request member
    rw [← same]
    exact Arena.get_append_old rest asked
  · trivial

theorem run_fits [PathTree T] {positive : 0 < slots} {whole : List (Action T)}
    (working : WorkingSetFits capacity slots bound whole) (part : actions <+: whole)
    (reached : Transition.run step (initial capacity slots positive) actions = some state) :
    Fits slots ((requests whole).map Request.key).toFinset bound state := by
  refine Transition.run_induction (fun actions state => actions <+: whole →
    Fits slots ((requests whole).map Request.key).toFinset bound state) ?_ ?_ reached part
  · intro _
    refine ⟨?_, ?_, ?_, rfl⟩
    · intro id task present
      simp [initial] at present
    · intro cell key keyed
      simp [initial, State.keyAt] at keyed
    · intro cell key resource keyed
      simp [initial, State.keyAt] at keyed
  · intro actions state action next earlier before taken longer
    have fits := before ((List.prefix_append actions [action]).trans longer)
    have allowed := action_fits working longer earlier
    rcases step_moves taken with ⟨cache, path, now, rfl, rfl⟩ | ⟨id, task, present, move⟩
    · exact fits_start fits allowed
    · exact fits_move (run_inv earlier) fits working.few working.enough allowed present move

def filledKey (state : State) : Action T → Option CachedResourceKey
  | .fill id _ => (state.tasks[id]?).map Task.key
  | _ => none

def filledKeys [PathTree T] (start : State) (actions : List (Action T)) : List CachedResourceKey :=
  Transition.observed step filledKey start actions

theorem filled_keys [PathTree T] {positive : 0 < slots}
    (reached : Transition.run step (initial capacity slots positive) actions = some state) :
    (filledKeys (initial capacity slots positive) actions).map some =
      (filledCells (initial capacity slots positive) actions).map state.keyAt := by
  refine Transition.run_induction (fun actions state =>
    (filledKeys (initial capacity slots positive) actions).map some =
      (filledCells (initial capacity slots positive) actions).map state.keyAt) rfl ?_ reached
  intro actions state action next earlier before taken
  have inv := run_inv earlier
  have settled := (run_tracked earlier).2.settled
  have more : filledKeys (initial capacity slots positive) (actions ++ [action]) =
      filledKeys _ actions ++ (filledKey state action).toList := Transition.observed_snoc earlier
  -- the cells filled so far keep their keys
  have older (keeps : ∀ cell key, state.keyAt cell = some key → next.keyAt cell = some key) :
      (filledCells (initial capacity slots positive) actions).map next.keyAt =
        (filledCells (initial capacity slots positive) actions).map state.keyAt := by
    apply List.map_congr_left
    intro cell member
    rcases Option.isSome_iff_exists.mp (settled cell member).1 with ⟨key, known⟩
    rw [known, keeps cell key known]
  rw [more, filled_snoc earlier, List.map_append, List.map_append, before]
  rcases step_moves taken with ⟨cache, path, now, rfl, rfl⟩ | ⟨id, task, present, move⟩
  · rcases start_started state cache path now with ⟨fresh, started⟩
    rw [older fun cell key known => by simpa only [State.keyAt, started.slots] using known]
    rfl
  · have keeps : ∀ cell key, state.keyAt cell = some key → next.keyAt cell = some key :=
      fun _ _ => move_keeps_key move
    rw [older keeps]
    congr 1
    cases move with
    | fill own fetched reservation clock stage =>
        have known := ((inv.tasks id task present).own own (by rw [stage]; rfl)).1
        simp only [filledKey, filledCell, present, Option.map_some, Option.bind_some, stage, Pc.own,
          Option.toList_some, List.map_cons, List.map_nil, keeps own _ known]
    | _ => rfl

def EntriesStay [PathTree T] (state : State) (action : Action T) : Prop :=
  ∀ next, step state action = some next → ∀ entry ∈ state.map.entries, entry ∈ next.map.entries

/-- A call of `reserve` is the first of its get, and it is granted. -/
def FirstReserveGranted (state : State) (action : Action T) : Prop :=
  ∀ (id : TaskId) task cell fetched locked, action = .reserve id →
    state.tasks[id]? = some task → task.pc = .reserving cell fetched locked →
      locked = false ∧ (state.pool.reserve fetched.file.size).isSome

/-- A working set that fits is never evicted, each of its keys is filled at most
once and missed at most once, and all successful gets of a key agree. -/
theorem working_set_fetched_once [PathTree T] {positive : 0 < slots}
    (working : WorkingSetFits capacity slots bound actions)
    (reached : Transition.run step (initial capacity slots positive) actions = some state) :
    Transition.Along step EntriesStay (initial capacity slots positive) actions ∧
      Transition.Along step FirstReserveGranted (initial capacity slots positive) actions ∧
      (filledKeys (initial capacity slots positive) actions).Nodup ∧
      ∀ (one two : TaskId) oneTask twoTask oneResponse twoResponse,
        state.tasks[one]? = some oneTask → state.tasks[two]? = some twoTask →
        oneTask.key = twoTask.key → oneTask.pc = .finished (.ok (some oneResponse)) →
        twoTask.pc = .finished (.ok (some twoResponse)) →
          oneResponse.headers = twoResponse.headers ∧ oneResponse.body = twoResponse.body ∧
          (oneResponse.outcome = .miss ∨ oneResponse.outcome = .hit) ∧
          (oneResponse.outcome = .miss → twoResponse.outcome = .miss → one = two) := by
  have fits := run_fits working (List.prefix_refl actions) reached
  refine ⟨?_, ?_, ?_, ?_⟩
  · intro before action after middle split earlier next taken entry member
    have shape : actions = (before ++ [action]) ++ after := by simp [split]
    have part : before <+: actions := ⟨action :: after, split.symm⟩
    rcases step_moves taken with ⟨cache, path, now, rfl, rfl⟩ | ⟨id, task, present, move⟩
    · rcases start_started middle cache path now with ⟨fresh, started⟩
      rw [started.map]
      exact member
    · exact entry_stays (run_inv earlier) (run_fits working part earlier) working.few present move
        member
  · intro before action after middle split earlier id task cell fetched locked _ present stage
    have fits := run_fits working ⟨action :: after, split.symm⟩ earlier
    have place := (fits.tasks id task present).2.2
    rw [stage] at place
    rcases reserve_granted (run_inv earlier) fits working.enough present stage with
      ⟨pool, reservation, granted⟩
    exact ⟨place.1, by rw [granted]; rfl⟩
  · have distinct := (run_tracked reached).2.distinct
    have settled := (run_tracked reached).2.settled
    refine List.Nodup.of_map some ?_
    rw [filled_keys reached]
    apply List.Nodup.map_on _ distinct
    intro first firstMember second secondMember same
    rcases Option.isSome_iff_exists.mp (settled first firstMember).1 with ⟨key, known⟩
    exact one_cell fits known (same ▸ known)
  · intro one two oneTask twoTask oneResponse twoResponse first second same oneStage twoStage
    have onePlace := (fits.tasks one oneTask first).2.2
    have twoPlace := (fits.tasks two twoTask second).2.2
    rw [oneStage] at onePlace
    rw [twoStage, ← same] at twoPlace
    rcases onePlace with ⟨oneCell, resource, oneKeyed, oneFilled, rfl⟩
    rcases twoPlace with ⟨twoCell, other, twoKeyed, twoFilled, rfl⟩
    rw [one_cell fits twoKeyed oneKeyed, oneFilled, Option.some.injEq, Cell.filled.injEq] at twoFilled
    subst twoFilled
    refine ⟨rfl, rfl, ?_, ?_⟩
    · by_cases own : one = resource.id
      · exact Or.inl (if_pos own)
      · exact Or.inr (if_neg own)
    · intro oneMisses twoMisses
      simp only [CachedResource.response, ite_eq_left_iff, reduceCtorEq, imp_false, not_not]
        at oneMisses twoMisses
      exact oneMisses.trans twoMisses.symm

/-- Two keys of two and three bytes in a cache of two files and five bytes: the
first get fails, the next two fill their cells, the last is a hit. -/
def workingActions : List (Action LiteralTree) :=
  fetchActions plainCache "/a" epoch 0 (.error (.reqwest "timeout")) ++
    fetchActions plainCache "/a" epoch 1 (plainBody [1, 2]) ++ fillActions 1 ⟨epoch, ⟨0⟩⟩ ++
    respondActions 1 ++
    fetchActions plainCache "/b" epoch 2 (plainBody [3, 4, 5]) ++ fillActions 2 ⟨epoch, ⟨0⟩⟩ ++
    respondActions 2 ++
    [.start plainCache "/a" epoch, .acquire 3, .lookup 3, .join 3] ++ respondActions 3

def workingBound (key : CachedResourceKey) : Nat := if key.path = "/a" then 2 else 3

theorem workingActions_fit : WorkingSetFits 5 2 workingBound workingActions where
  forever := by decide
  few := by decide
  bounded := by
    intro source resource request answered asked
    simp only [workingActions, fetchActions, fillActions, respondActions, plainBody,
      List.cons_append, List.nil_append, List.mem_cons, reduceCtorEq, Action.answer.injEq,
      Except.ok.injEq, Option.some.injEq, false_or, or_false, and_false, List.not_mem_nil]
      at answered
    rcases answered with ⟨rfl, rfl⟩ | ⟨rfl, rfl⟩ <;> cases asked <;> decide
  enough := by decide

theorem working_set_fetched_once_twice :
    filledKeys (initial 5 2 (by decide)) workingActions =
        [⟨"files", "/a"⟩, ⟨"files", "/b"⟩] ∧
      Transition.Along step EntriesStay (initial 5 2 (by decide)) workingActions := by
  have ends : (Transition.run step (initial 5 2 (by decide)) workingActions).map
      (fun state => state.tasks.length) = some 4 := rfl
  rcases Option.map_eq_some_iff.mp ends with ⟨state, reached, _⟩
  exact ⟨rfl, (working_set_fetched_once workingActions_fit reached).1⟩

end Server3.Machine
