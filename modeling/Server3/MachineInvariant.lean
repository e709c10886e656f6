import Server3.MachineSteps

/-! The invariant of the machine: who may be where, which cells are reachable,
and how the reservations of cells and gets account for the capacity pool. -/

namespace Server3.Machine

open Clock Routes Upstream Resource Recency
open CapacityPool (CacheCapacityPool CacheCapacityReservation)

namespace State

def keyAt (state : State) (id : CellId) : Option CachedResourceKey :=
  (state.slots[id]?).map Slot.key

variable (state : State) (id : TaskId) (task : Task) (pc : Pc) (cell : CellId) (content : Cell)

@[simp] theorem setPc_pool : (state.setPc id task pc).pool = state.pool := rfl
@[simp] theorem setPc_map : (state.setPc id task pc).map = state.map := rfl
@[simp] theorem setPc_lock : (state.setPc id task pc).lock = state.lock := rfl
@[simp] theorem setPc_slots : (state.setPc id task pc).slots = state.slots := rfl
@[simp] theorem setPc_panicked : (state.setPc id task pc).poolPanicked = state.poolPanicked := rfl
@[simp] theorem setPc_tasks :
    (state.setPc id task pc).tasks = state.tasks.set id { task with pc := pc } := rfl

@[simp] theorem setCell_pool : (state.setCell cell content).pool = state.pool := rfl
@[simp] theorem setCell_map : (state.setCell cell content).map = state.map := rfl
@[simp] theorem setCell_lock : (state.setCell cell content).lock = state.lock := rfl
@[simp] theorem setCell_tasks : (state.setCell cell content).tasks = state.tasks := rfl
@[simp] theorem setCell_panicked :
    (state.setCell cell content).poolPanicked = state.poolPanicked := rfl

variable (change : CacheRouteMetrics → CacheRouteMetrics)

@[simp] theorem countRoute_pool : (state.countRoute task change).pool = state.pool := rfl
@[simp] theorem countRoute_map : (state.countRoute task change).map = state.map := rfl
@[simp] theorem countRoute_lock : (state.countRoute task change).lock = state.lock := rfl
@[simp] theorem countRoute_slots : (state.countRoute task change).slots = state.slots := rfl
@[simp] theorem countRoute_tasks : (state.countRoute task change).tasks = state.tasks := rfl
@[simp] theorem countRoute_panicked :
    (state.countRoute task change).poolPanicked = state.poolPanicked := rfl

@[simp] theorem setCell_keyAt (other : CellId) :
    (state.setCell cell content).keyAt other = state.keyAt other := by
  simp only [keyAt, setCell, List.getElem?_modify]
  cases state.slots[other]? with
  | none => rfl
  | some slot => by_cases same : cell = other <;> simp [same]

theorem setCell_cellAt (other : CellId) :
    (state.setCell cell content).cellAt other =
      if cell = other then (state.cellAt other).map fun _ => content else state.cellAt other := by
  simp only [cellAt, setCell, List.getElem?_modify]
  cases state.slots[other]? with
  | none => simp
  | some slot => by_cases same : cell = other <;> simp [same]

theorem setCell_self {before : Cell} (found : state.cellAt cell = some before) :
    (state.setCell cell content).cellAt cell = some content := by
  rw [setCell_cellAt, if_pos rfl, found]
  rfl

end State

def Cell.reserved : Cell → Nat
  | .filled resource => resource.reservation.reserved.toNat
  | _ => 0

def Slot.reserved (slot : Slot) : Nat := slot.cell.reserved

def Task.reserved (task : Task) : Nat := task.pc.reserved

def State.reservedTotal (state : State) : Nat :=
  Arena.total Slot.reserved state.slots + Arena.total Task.reserved state.tasks

/-- An entry of the map names a live cell of its own key, and a resource in it is
fully reserved. -/
structure EntryOk (state : State) (key : CachedResourceKey) (cell : CellId) : Prop where
  key : state.keyAt cell = some key
  live : state.cellAt cell ≠ some .freed
  covered : ∀ resource, state.cellAt cell = some (.filled resource) →
    resource.reservation.reserved = resource.size

def StageOk (state : State) : Pc → Prop
  | .reservingUpTo _ _ => state.map.entries = []
  | .granted cell fetched reservation _ =>
      reservation.reserved = fetched.file.size ∨ state.mapped cell = false
  | .initialized cell resource | .cloning cell resource =>
      state.cellAt cell = some (.filled resource)
  | _ => True

structure TaskOk (state : State) (id : TaskId) (task : Task) : Prop where
  own : ∀ cell, task.pc.own = some cell →
    state.keyAt cell = some task.key ∧ state.cellAt cell ≠ some .freed
  victim : ∀ cell, task.pc.victim = some cell →
    (state.keyAt cell).isSome ∧ state.cellAt cell ≠ some .freed
  permit : ∀ cell, task.pc.initializes = some cell →
    state.cellAt cell = some (.initializing id)
  lock : task.pc.holdsLock = true → state.lock = some id
  stage : StageOk state task.pc

structure Inv (capacity : UInt64) (state : State) : Prop where
  entries : ∀ key cell, (key, cell) ∈ state.map.entries → EntryOk state key cell
  tasks : ∀ (id : TaskId) task, state.tasks[id]? = some task → TaskOk state id task
  permits : ∀ cell id, state.cellAt cell = some (.initializing id) →
    ∃ task, state.tasks[id]? = some task ∧ task.pc.initializes = some cell
  locks : ∀ id, state.lock = some id →
    ∃ task, state.tasks[id]? = some task ∧ task.pc.holdsLock = true
  balance : state.pool.availableCapacity.toNat + state.reservedTotal = capacity.toNat
  sound : state.poolPanicked = false

/-- What a move of one get leaves to the others: their cells keep their keys and
change only at the hands of their initialiser, the map is the holder's alone, and
no cell comes back into it. -/
structure Frame (mover : TaskId) (state next : State) : Prop where
  keys : ∀ cell key, state.keyAt cell = some key → next.keyAt cell = some key
  cells : ∀ cell, (state.keyAt cell).isSome → next.cellAt cell = state.cellAt cell ∨
    ((state.cellAt cell = some .empty ∨ state.cellAt cell = some (.initializing mover)) ∧
      next.cellAt cell ≠ some .freed)
  locked : ∀ other, other ≠ mover → state.lock = some other →
    next.lock = some other ∧ next.map = state.map
  map : ∀ key cell, (key, cell) ∈ next.map.entries →
    (key, cell) ∈ state.map.entries ∨ state.keyAt cell = none

variable {capacity : UInt64} {state next : State} {id mover : TaskId} {task : Task} {pc : Pc}

theorem mapped_iff {cell : CellId} :
    state.mapped cell = true ↔ ∃ key, (key, cell) ∈ state.map.entries := by
  simp only [State.mapped, List.any_eq_true, decide_eq_true_eq]
  constructor
  · intro found
    rcases found with ⟨⟨key, other⟩, member, same⟩
    exact ⟨key, same ▸ member⟩
  · intro found
    rcases found with ⟨key, member⟩
    exact ⟨(key, cell), member, rfl⟩

theorem not_mapped_iff {cell : CellId} :
    state.mapped cell = false ↔ ∀ key, (key, cell) ∉ state.map.entries := by
  rw [← Bool.not_eq_true, mapped_iff, not_exists]

theorem own_of_initializes {cell : CellId} (permit : pc.initializes = some cell) :
    pc.own = some cell := by
  cases pc <;> simp_all [Pc.initializes, Pc.own]

theorem initializes_of_cancel {cell : CellId}
    (stage : pc = .fetching cell ∨ (∃ resource, pc = .storing cell resource) ∨
      ∃ fetched, pc = .evictLock cell fetched) : pc.initializes = some cell := by
  rcases stage with stage | ⟨_, stage⟩ | ⟨_, stage⟩ <;> rw [stage] <;> rfl

theorem permit_unique {one two : TaskId} {oneTask twoTask : Task} {cell : CellId}
    (inv : Inv capacity state) (first : state.tasks[one]? = some oneTask)
    (second : state.tasks[two]? = some twoTask) (oneHolds : oneTask.pc.initializes = some cell)
    (twoHolds : twoTask.pc.initializes = some cell) : one = two := by
  have onePermit := (inv.tasks one oneTask first).permit cell oneHolds
  have twoPermit := (inv.tasks two twoTask second).permit cell twoHolds
  rw [twoPermit, Option.some.injEq, Cell.initializing.injEq] at onePermit
  exact onePermit.symm

section Start

variable {T : Type → Type} [PathTree T] {cache : Cache T} {path : String} {now : Instant}

theorem Started.keyAt (started : Started state cache path now task next) (cell : CellId) :
    next.keyAt cell = state.keyAt cell := by
  rw [State.keyAt, State.keyAt, started.slots]

theorem Started.cellAt (started : Started state cache path now task next) (cell : CellId) :
    next.cellAt cell = state.cellAt cell := by
  rw [State.cellAt, State.cellAt, started.slots]

end Start

theorem frame_kept {cell : CellId} {content : Cell} (frame : Frame mover state next)
    (known : (state.keyAt cell).isSome) (found : state.cellAt cell = some content)
    (filled : content ≠ .empty) (foreign : content ≠ .initializing mover) :
    next.cellAt cell = some content := by
  rcases frame.cells cell known with same | ⟨changed | changed, -⟩
  · exact same.trans found
  · rw [changed, Option.some.injEq] at found
    exact absurd found.symm filled
  · rw [changed, Option.some.injEq] at found
    exact absurd found.symm foreign

theorem frame_live {cell : CellId} (frame : Frame mover state next)
    (known : (state.keyAt cell).isSome) (live : state.cellAt cell ≠ some .freed) :
    next.cellAt cell ≠ some .freed := by
  rcases frame.cells cell known with same | ⟨_, kept⟩
  · rw [same]
    exact live
  · exact kept

theorem known_of_cell {cell : CellId} {content : Cell} (found : state.cellAt cell = some content) :
    (state.keyAt cell).isSome := by
  simp only [State.cellAt, Option.map_eq_some_iff] at found
  rcases found with ⟨slot, present, _⟩
  simp [State.keyAt, present]

theorem stage_frame (frame : Frame mover state next) (different : id ≠ mover)
    (valid : TaskOk state id task) : StageOk next task.pc := by
  have stage := valid.stage
  cases shape : task.pc with
  | reservingUpTo cell fetched =>
      rw [shape] at stage
      have holder := valid.lock (by rw [shape]; rfl)
      simp only [StageOk, (frame.locked id different holder).2]
      exact stage
  | granted cell fetched reservation locked =>
      rw [shape] at stage
      rcases stage with full | outside
      · exact Or.inl full
      · right
        rw [not_mapped_iff] at outside ⊢
        intro key member
        have own := valid.own cell (by rw [shape]; rfl)
        rcases frame.map key cell member with before | unknown
        · exact outside key before
        · rw [own.1] at unknown
          cases unknown
  | initialized cell resource =>
      rw [shape] at stage
      exact frame_kept frame (known_of_cell stage) stage (by simp) (by simp)
  | cloning cell resource =>
      rw [shape] at stage
      exact frame_kept frame (known_of_cell stage) stage (by simp) (by simp)
  | _ => trivial

/-- A get that is not the mover keeps everything it relies on. -/
theorem task_frame (frame : Frame mover state next) (different : id ≠ mover)
    (valid : TaskOk state id task) : TaskOk next id task where
  own := by
    intro cell own
    have before := valid.own cell own
    exact ⟨frame.keys cell _ before.1, frame_live frame (by simp [before.1]) before.2⟩
  victim := by
    intro cell victim
    have before := valid.victim cell victim
    rcases Option.isSome_iff_exists.mp before.1 with ⟨key, known⟩
    exact ⟨by simp [frame.keys cell key known], frame_live frame before.1 before.2⟩
  permit := by
    intro cell permit
    have before := valid.permit cell permit
    exact frame_kept frame (known_of_cell before) before (by simp) (by simpa using different)
  lock := fun holds => (frame.locked id different (valid.lock holds)).1
  stage := stage_frame frame different valid

theorem inv_moved (pc : Pc) (inv : Inv capacity state) (present : state.tasks[id]? = some task)
    (tasks : next.tasks = state.tasks.set id { task with pc := pc })
    (frame : Frame id state next) (own : TaskOk next id { task with pc := pc })
    (entries : ∀ key cell, (key, cell) ∈ next.map.entries → EntryOk next key cell)
    (permits : ∀ cell, next.cellAt cell = some (.initializing id) → pc.initializes = some cell)
    (foreign : ∀ cell other, other ≠ id → next.cellAt cell = some (.initializing other) →
      state.cellAt cell = some (.initializing other))
    (locked : next.lock = some id → pc.holdsLock = true)
    (unlocked : ∀ other, other ≠ id → next.lock = some other → state.lock = some other)
    (balance : next.pool.availableCapacity.toNat + Arena.total Slot.reserved next.slots +
      pc.reserved = state.pool.availableCapacity.toNat + Arena.total Slot.reserved state.slots +
        task.pc.reserved)
    (sound : next.poolPanicked = state.poolPanicked) : Inv capacity next := by
  have moved (other : TaskId) : next.tasks[other]? =
      if id = other then some { task with pc := pc } else state.tasks[other]? := by
    rw [tasks]
    exact Arena.get_set _ present other
  have kept (other : TaskId) (different : other ≠ id) :
      next.tasks[other]? = state.tasks[other]? := by
    rw [moved, if_neg (Ne.symm different)]
  refine ⟨entries, ?_, ?_, ?_, ?_, sound.trans inv.sound⟩
  · intro other otherTask found
    by_cases same : other = id
    · subst other
      rw [moved, if_pos rfl, Option.some.injEq] at found
      exact found ▸ own
    · rw [kept other same] at found
      exact task_frame frame same (inv.tasks other otherTask found)
  · intro cell other initializing
    by_cases same : other = id
    · subst other
      exact ⟨_, by rw [moved, if_pos rfl], permits cell initializing⟩
    · rcases inv.permits cell other (foreign cell other same initializing) with
        ⟨holder, found, permit⟩
      exact ⟨holder, (kept other same).trans found, permit⟩
  · intro other held
    by_cases same : other = id
    · subst other
      exact ⟨_, by rw [moved, if_pos rfl], locked held⟩
    · rcases inv.locks other (unlocked other same held) with ⟨holder, found, holds⟩
      exact ⟨holder, (kept other same).trans found, holds⟩
  · have before := inv.balance
    have total := Arena.total_set Task.reserved { task with pc := pc } present
    simp only [State.reservedTotal, tasks, Task.reserved] at before total ⊢
    omega

theorem entry_congr {key : CachedResourceKey} {cell : CellId} (valid : EntryOk state key cell)
    (slots : next.slots = state.slots) : EntryOk next key cell := by
  have keys : next.keyAt cell = state.keyAt cell := by simp only [State.keyAt, slots]
  have cells : next.cellAt cell = state.cellAt cell := by simp only [State.cellAt, slots]
  exact ⟨keys.trans valid.key, cells ▸ valid.live, cells ▸ valid.covered⟩

theorem inv_quiet {pool : CacheCapacityPool} {metrics : Metrics} {old : Pc}
    (inv : Inv capacity state) (present : state.tasks[id]? = some task) (place : task.pc = old)
    (balance : pool.availableCapacity.toNat + pc.reserved =
      state.pool.availableCapacity.toNat + old.reserved)
    (own : ∀ cell, pc.own = some cell → old.own = some cell)
    (victim : pc.victim = none)
    (initializes : pc.initializes = old.initializes)
    (holdsLock : pc.holdsLock = old.holdsLock)
    (stage : StageOk state pc) :
    Inv capacity ({ state with pool := pool, metrics := metrics }.setPc id task pc) := by
  subst place
  have before := inv.tasks id task present
  refine inv_moved pc inv present rfl ?_ ?_ ?_ ?_ ?_ ?_ ?_ ?_ rfl
  · exact ⟨fun _ _ known => known, fun _ _ => Or.inl rfl, fun _ _ held => ⟨held, rfl⟩,
      fun _ _ member => Or.inl member⟩
  · refine ⟨?_, ?_, ?_, ?_, ?_⟩
    · intro cell owned
      exact before.own cell (own cell owned)
    · intro cell evicted
      simp only [victim, reduceCtorEq] at evicted
    · intro cell permit
      exact before.permit cell (initializes ▸ permit)
    · intro holds
      exact before.lock (holdsLock ▸ holds)
    · cases pc <;> exact stage
  · intro key cell member
    exact entry_congr (inv.entries key cell member) rfl
  · intro cell initializing
    rcases inv.permits cell id initializing with ⟨holder, found, permit⟩
    rw [present, Option.some.injEq] at found
    exact initializes.trans (found ▸ permit)
  · intro cell other _ initializing
    exact initializing
  · intro held
    rcases inv.locks id held with ⟨holder, found, holds⟩
    rw [present, Option.some.injEq] at found
    exact holdsLock.trans (found ▸ holds)
  · intro other _ held
    exact held
  · simp only [State.setPc_pool, State.setPc_slots]
    omega

theorem total_setCell {cell : CellId} {old : Cell} (content : Cell)
    (found : state.cellAt cell = some old) :
    Arena.total Slot.reserved (state.setCell cell content).slots + old.reserved =
      Arena.total Slot.reserved state.slots + content.reserved := by
  rcases Option.map_eq_some_iff.mp found with ⟨slot, present, rfl⟩
  have total := Arena.total_set Slot.reserved { slot with cell := content } present
  rw [State.setCell, Arena.modify_present _ present]
  exact total

theorem setCell_absent {cell : CellId} {content : Cell} (absent : state.cellAt cell = none) :
    (state.setCell cell content).slots = state.slots := by
  have outside : state.slots[cell]? = none := by simpa [State.cellAt] using absent
  apply List.ext_getElem?
  intro other
  simp only [State.setCell, List.getElem?_modify]
  by_cases same : cell = other
  · subst other
    simp [outside]
  · simp [same]

/-- What freeing a cell does when nobody holds it. -/
structure Frees (cell : CellId) (state next : State) : Prop where
  map : next.map = state.map
  lock : next.lock = state.lock
  tasks : next.tasks = state.tasks
  keys : ∀ other, next.keyAt other = state.keyAt other
  others : ∀ other, other ≠ cell → next.cellAt other = state.cellAt other
  freed : ∀ content, next.cellAt cell = some content → content = .freed
  balance : next.pool.availableCapacity.toNat + Arena.total Slot.reserved next.slots =
    state.pool.availableCapacity.toNat + Arena.total Slot.reserved state.slots
  sound : next.poolPanicked = state.poolPanicked

theorem setCell_frees {cell : CellId} (nothing : ∀ content, state.cellAt cell = some content →
    content.reserved = 0) : Frees cell state (state.setCell cell .freed) where
  map := rfl
  lock := rfl
  tasks := rfl
  keys := fun other => state.setCell_keyAt cell .freed other
  others := by
    intro other different
    rw [State.setCell_cellAt, if_neg (Ne.symm different)]
  freed := by
    intro content found
    rw [State.setCell_cellAt, if_pos rfl] at found
    cases before : state.cellAt cell with
    | none => simp [before] at found
    | some old => simpa [before] using found.symm
  balance := by
    cases before : state.cellAt cell with
    | none => simp [setCell_absent before]
    | some old =>
        have total := total_setCell .freed before
        have zero : Cell.reserved .freed = 0 := rfl
        rw [nothing old before, zero] at total
        rw [State.setCell_pool]
        omega
  sound := rfl

/-- The reservation of a freed resource goes back without an overflow: it is part
of the balance. -/
theorem free_frees {cell : CellId} (bounded : state.pool.availableCapacity.toNat +
    Arena.total Slot.reserved state.slots < 2^64) : Frees cell state (state.free cell) := by
  unfold State.free
  split
  · rename_i resource found
    rcases Option.map_eq_some_iff.mp found with ⟨slot, present, content⟩
    have share := Arena.weight_le_total Slot.reserved present
    simp only [Slot.reserved, content, Cell.reserved] at share
    have fits : ∃ pool, state.pool.returnToPool resource.reservation = some pool :=
      CapacityPool.return_succeeds (by omega)
    rcases fits with ⟨pool, returned⟩
    have amount := CapacityPool.return_some.mp returned
    have total := total_setCell .freed found
    have given : ({ state with metrics := state.metrics.dropped resource }).giveBack
        resource.reservation =
          { state with metrics := state.metrics.dropped resource, pool := pool } := by
      simp [State.giveBack, returned]
    rw [given]
    refine ⟨rfl, rfl, rfl, fun other => State.setCell_keyAt _ cell .freed other, ?_, ?_, ?_, rfl⟩
    · intro other different
      rw [State.setCell_cellAt, if_neg (Ne.symm different)]
      rfl
    · intro after freed
      rw [State.setCell_cellAt, if_pos rfl] at freed
      have unchanged : ({ state with metrics := state.metrics.dropped resource, pool := pool } :
          State).cellAt cell = some (.filled resource) := found
      simpa [unchanged] using freed.symm
    · simp only [Cell.reserved, State.setCell_pool] at total ⊢
      have slots : ({ state with metrics := state.metrics.dropped resource, pool := pool }.setCell
          cell .freed).slots = (state.setCell cell .freed).slots := rfl
      rw [slots]
      omega
  · rename_i notFilled
    apply setCell_frees
    intro content found
    cases content with
    | filled resource => exact absurd found (notFilled resource)
    | _ => rfl

theorem inv_frees {cell : CellId} (inv : Inv capacity state) (frees : Frees cell state next)
    (unheld : state.held cell = false) : Inv capacity next := by
  simp only [State.held, Bool.or_eq_false_iff, not_mapped_iff] at unheld
  have outside (key : CachedResourceKey) (other : CellId)
      (member : (key, other) ∈ state.map.entries) : other ≠ cell := by
    rintro rfl
    exact unheld.1 key member
  have unused (id : TaskId) (task : Task) (present : state.tasks[id]? = some task) :
      task.pc.own ≠ some cell ∧ task.pc.victim ≠ some cell := by
    have free := List.any_eq_false.mp unheld.2 task (List.mem_of_getElem? present)
    simpa using free
  refine ⟨?_, ?_, ?_, ?_, ?_, frees.sound.trans inv.sound⟩
  · intro key other member
    rw [frees.map] at member
    have different := outside key other member
    have before := inv.entries key other member
    have content := frees.others other different
    exact ⟨(frees.keys other).trans before.key, content ▸ before.live, content ▸ before.covered⟩
  · intro id task present
    rw [frees.tasks] at present
    have before := inv.tasks id task present
    have free := unused id task present
    have kept (other : CellId) (owned : task.pc.own = some other) :
        next.cellAt other = state.cellAt other := by
      apply frees.others
      rintro rfl
      exact free.1 owned
    refine ⟨?_, ?_, ?_, ?_, ?_⟩
    · intro other owned
      rw [kept other owned, frees.keys]
      exact before.own other owned
    · intro other evicted
      rw [frees.keys, frees.others other (by rintro rfl; exact free.2 evicted)]
      exact before.victim other evicted
    · intro other permit
      rw [kept other (own_of_initializes permit)]
      exact before.permit other permit
    · rw [frees.lock]
      exact before.lock
    · have stage := before.stage
      cases shape : task.pc with
      | reservingUpTo other fetched =>
          rw [shape] at stage
          simpa only [StageOk, frees.map] using stage
      | granted other fetched reservation locked =>
          rw [shape] at stage
          simpa only [StageOk, State.mapped, frees.map] using stage
      | initialized other resource =>
          rw [shape] at stage
          exact (kept other (by rw [shape]; rfl)).trans stage
      | cloning other resource =>
          rw [shape] at stage
          exact (kept other (by rw [shape]; rfl)).trans stage
      | _ => trivial
  · intro other id initializing
    by_cases same : other = cell
    · subst other
      cases frees.freed _ initializing
    · rw [frees.others other same] at initializing
      rw [frees.tasks]
      exact inv.permits other id initializing
  · rw [frees.lock, frees.tasks]
    exact inv.locks
  · have before := inv.balance
    have balance := frees.balance
    simp only [State.reservedTotal, frees.tasks] at before ⊢
    omega

theorem slots_bounded (inv : Inv capacity state) :
    state.pool.availableCapacity.toNat + Arena.total Slot.reserved state.slots < 2^64 := by
  have balance := inv.balance
  have bound := capacity.toNat_lt
  simp only [State.reservedTotal] at balance
  omega

theorem inv_release (inv : Inv capacity state) (cell : CellId) :
    Inv capacity (state.release cell) := by
  unfold State.release
  split
  · exact inv
  · rename_i unheld
    exact inv_frees inv (free_frees (slots_bounded inv)) (by simpa using unheld)

theorem inv_releaseOption (inv : Inv capacity state) (cell : Option CellId) :
    Inv capacity (state.releaseOption cell) := by
  cases cell with
  | none => exact inv
  | some cell => exact inv_release inv cell

end Server3.Machine
