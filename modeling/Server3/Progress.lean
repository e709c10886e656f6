import Server3.MachineEffects

/-! Who waits for whom. A get waits for the lock of the map, for the permit of a
cell, or for the outside; what it waits for inside is always in the hands of a get
that is closer to its next step. -/

namespace Server3.Machine

open Clock Routes Upstream Resource Recency
open CapacityPool (CacheCapacityPool CacheCapacityReservation)

namespace Pc

def ended : Pc → Bool
  | finished _ | panicked | cancelled => true
  | _ => false

/-- The get waits for its upstream or for the disk. -/
def outside : Pc → Bool
  | neverFetch | fetching _ | storing _ _ | cloning _ _ => true
  | _ => false

def wantsLock : Pc → Bool
  | lookupLock | evictLock _ _ => true
  | _ => false

def wantsPermit : Pc → Option CellId
  | joining cell => some cell
  | _ => none

/-- How many gets can stand between a get and its next step. -/
def distance : Pc → Nat
  | joining _ => 2
  | lookupLock | evictLock _ _ => 1
  | _ => 0

end Pc

/-- The get of the first index waits for what the other get holds. -/
inductive WaitsFor (state : State) (task : Task) (holder : TaskId) : Prop where
  | lock (wanted : task.pc.wantsLock = true) (held : state.lock = some holder)
  | permit (cell : CellId) (wanted : task.pc.wantsPermit = some cell)
      (held : state.cellAt cell = some (.initializing holder))

/-- The get takes this step of its own; to be cancelled is not one. -/
def Action.advances {T : Type → Type} : Action T → Option TaskId
  | .start _ _ _ | .cancel _ => none
  | .acquire id | .lookup id | .join id | .answer id _ | .store id _ | .reserve id | .pop id
  | .evict id | .reserveUpTo id | .unlock id | .fill id _ | .count id | .respond id _ => some id

def Ready (T : Type → Type) [PathTree T] (state : State) (id : TaskId) : Prop :=
  ∃ (action : Action T) (next : State), action.advances = some id ∧ step state action = some next

variable {T : Type → Type} [PathTree T] {capacity : UInt64} {state : State} {id : TaskId}
  {task : Task}

theorem ready_move {action : Action T} {next : State} (present : state.tasks[id]? = some task)
    (own : action.advances = some id) (move : Move state id task action next) :
    Ready T state id := ⟨action, next, own, move_taken present move⟩

omit [PathTree T] in
theorem move_unended {action : Action T} {next : State} (move : Move state id task action next) :
    task.pc.ended = false := by
  cases move with
  | cancelIdle stage => rcases stage with stage | stage <;> rw [stage] <;> rfl
  | cancelJoined _ stage => rcases stage with stage | ⟨_, stage⟩ <;> rw [stage] <;> rfl
  | cancelInit _ stage => rcases stage with stage | ⟨_, stage⟩ | ⟨_, stage⟩ <;> rw [stage] <;> rfl
  | acquireLookup stage | acquireEvict _ _ stage | joinFilled _ _ stage | joinEmpty _ stage
  | answerFound _ _ stage | storeOk _ _ _ _ stage | reserveGranted _ _ _ _ _ stage
  | popEntry _ _ _ _ _ stage | popNothing _ _ stage | reserveUpTo _ _ _ _ stage
  | unlock _ _ _ stage | fill _ _ _ _ stage | lookup stage | answerNever _ stage
  | answerNone _ stage | answerError _ _ stage | storeError _ _ _ _ stage
  | reserveFailed _ _ _ stage | evict _ _ _ stage | count _ _ stage | respond _ _ _ _ stage =>
      rw [stage]
      rfl

theorem step_ended {action : Action T} {next : State} (taken : step state action = some next)
    (present : state.tasks[id]? = some task) (ended : task.pc.ended = true) :
    next.tasks[id]? = some task := by
  rcases step_moves taken with ⟨cache, path, now, rfl, rfl⟩ | ⟨mover, found, among, move⟩
  · rcases start_started state cache path now with ⟨fresh, started⟩
    rw [started.tasks]
    exact Arena.get_append_old _ present
  · have different : mover ≠ id := by
      intro same
      subst same
      rw [present, Option.some.injEq] at among
      rw [among, move_unended move] at ended
      cases ended
    rcases move_task move with ⟨pc, tasks⟩
    rw [tasks]
    exact (Arena.get_set_other _ _ different).trans present

omit [PathTree T] in
theorem joining_of_wants {pc : Pc} {cell : CellId} (wanted : pc.wantsPermit = some cell) :
    pc = .joining cell := by
  cases pc <;> simp_all [Pc.wantsPermit]

omit [PathTree T] in
theorem unended_of_initializes {pc : Pc} {cell : CellId} (permit : pc.initializes = some cell) :
    pc.ended = false := by
  cases pc <;> simp_all [Pc.initializes, Pc.ended]

theorem ready_of_near (present : state.tasks[id]? = some task) (unfinished : task.pc.ended = false)
    (inside : task.pc.outside = false) (near : task.pc.distance = 0) : Ready T state id := by
  cases stage : task.pc with
  | lookup => exact ready_move present rfl (.lookup stage)
  | reserving cell fetched locked =>
      cases granted : state.pool.reserve fetched.file.size with
      | none => exact ready_move present rfl (.reserveFailed cell fetched locked stage granted)
      | some grant =>
          exact ready_move present rfl
            (.reserveGranted cell fetched locked grant.1 grant.2 stage granted)
  | popping cell fetched =>
      cases popped : state.map.popLru with
      | none => exact ready_move present rfl (.popNothing cell fetched stage popped)
      | some entry =>
          exact ready_move present rfl
            (.popEntry cell fetched entry.1.1 entry.1.2 entry.2 stage popped)
  | evicting cell fetched victim =>
      exact ready_move present rfl (.evict cell fetched victim stage)
  | reservingUpTo cell fetched =>
      rcases CapacityPool.reserve_up_to_grants state.pool fetched.file.size with
        ⟨pool, reservation, granted, -, -⟩
      exact ready_move present rfl (.reserveUpTo cell fetched pool reservation stage granted)
  | granted cell fetched reservation locked =>
      cases locked with
      | true => exact ready_move present rfl (.unlock cell fetched reservation stage)
      | false =>
          exact ready_move present rfl
            (.fill cell fetched reservation ⟨epoch, ⟨0⟩⟩ stage)
  | initialized cell resource => exact ready_move present rfl (.count cell resource stage)
  | neverFetch | fetching | storing | cloning => simp [stage, Pc.outside] at inside
  | finished | panicked | cancelled => simp [stage, Pc.ended] at unfinished
  | joining | lookupLock | evictLock => simp [stage, Pc.distance] at near

theorem lock_holder (inv : Inv capacity state) (held : state.lock = some id) :
    ∃ task, state.tasks[id]? = some task ∧ task.pc.ended = false ∧ task.pc.outside = false ∧
      task.pc.distance = 0 := by
  rcases inv.locks id held with ⟨task, present, holds⟩
  refine ⟨task, present, ?_⟩
  cases stage : task.pc <;> simp_all [Pc.holdsLock, Pc.ended, Pc.outside, Pc.distance]

theorem permit_holder {cell : CellId} (inv : Inv capacity state)
    (held : state.cellAt cell = some (.initializing id)) :
    ∃ task, state.tasks[id]? = some task ∧ task.pc.ended = false ∧ task.pc.distance ≤ 1 := by
  rcases inv.permits cell id held with ⟨task, present, permit⟩
  refine ⟨task, present, ?_⟩
  cases stage : task.pc <;> simp_all [Pc.initializes, Pc.ended, Pc.distance]

/-- What a get waits for is held by an unfinished get that is nearer to its next step,
so the gets do not wait for each other in a circle. -/
theorem waits_nearer {holder : TaskId} (inv : Inv capacity state)
    (waits : WaitsFor state task holder) : ∃ other, state.tasks[holder]? = some other ∧
      other.pc.ended = false ∧ other.pc.distance < task.pc.distance := by
  cases waits with
  | lock wanted held =>
      rcases lock_holder inv held with ⟨other, found, busy, -, near⟩
      refine ⟨other, found, busy, ?_⟩
      rw [near]
      cases stage : task.pc <;> simp_all [Pc.wantsLock, Pc.distance]
  | permit cell wanted held =>
      rcases permit_holder inv held with ⟨other, found, busy, near⟩
      refine ⟨other, found, busy, ?_⟩
      cases stage : task.pc with
      | joining own => exact Nat.lt_succ_of_le near
      | _ => simp [stage, Pc.wantsPermit] at wanted

variable (T) in
theorem ready_or_waits (inv : Inv capacity state) (present : state.tasks[id]? = some task)
    (unfinished : task.pc.ended = false) (inside : task.pc.outside = false) :
    Ready T state id ∨ ∃ holder, WaitsFor state task holder := by
  cases stage : task.pc with
  | lookupLock =>
      cases held : state.lock with
      | none => exact Or.inl (ready_move present rfl (.acquireLookup stage held))
      | some holder => exact Or.inr ⟨holder, .lock (by rw [stage]; rfl) held⟩
  | evictLock cell fetched =>
      cases held : state.lock with
      | none => exact Or.inl (ready_move present rfl (.acquireEvict cell fetched stage held))
      | some holder => exact Or.inr ⟨holder, .lock (by rw [stage]; rfl) held⟩
  | joining cell =>
      have own := (inv.tasks id task present).own cell (by rw [stage]; rfl)
      rcases Option.map_eq_some_iff.mp own.1 with ⟨slot, found, -⟩
      have content : state.cellAt cell = some slot.cell := by
        rw [State.cellAt, found]
        rfl
      cases shape : slot.cell with
      | empty => exact Or.inl (ready_move present rfl (.joinEmpty cell stage (shape ▸ content)))
      | filled resource =>
          exact Or.inl (ready_move present rfl (.joinFilled cell resource stage (shape ▸ content)))
      | freed => exact absurd (shape ▸ content) own.2
      | initializing holder =>
          exact Or.inr ⟨holder, .permit cell (by rw [stage]; rfl) (shape ▸ content)⟩
  | _ =>
      left
      exact ready_of_near present unfinished inside (by rw [stage]; rfl)

variable (T) in
/-- Behind every get is one that can take a step or waits for the outside. -/
theorem some_ready (inv : Inv capacity state) (present : state.tasks[id]? = some task)
    (unfinished : task.pc.ended = false) :
    (∃ holder, Ready T state holder) ∨
      ∃ other ∈ state.tasks, other.pc.ended = false ∧ other.pc.outside = true := by
  induction distance : task.pc.distance using Nat.strong_induction_on generalizing id task with
  | _ far ih =>
      cases inside : task.pc.outside with
      | true => exact Or.inr ⟨task, List.mem_of_getElem? present, unfinished, inside⟩
      | false =>
          rcases ready_or_waits T inv present unfinished inside with ready | ⟨holder, waits⟩
          · exact Or.inl ⟨id, ready⟩
          · rcases waits_nearer inv waits with ⟨other, found, busy, nearer⟩
            exact ih _ (distance ▸ nearer) found busy rfl

/-- The gets never block each other for good: if one is unfinished and none waits for
the outside, one can take a step. Who has the lock of the map waits for nothing. -/
theorem deadlock_free {slots : Nat} {positive : 0 < slots} {actions : List (Action T)}
    (reached : Transition.run step (initial capacity slots positive) actions = some state) :
    ((∃ task ∈ state.tasks, task.pc.ended = false) →
      (∀ task ∈ state.tasks, task.pc.ended = false → task.pc.outside = false) →
        ∃ id, Ready T state id) ∧
    ∀ (id : TaskId) task, state.tasks[id]? = some task → state.lock = some id →
      task.pc.outside = false ∧ ∀ holder, ¬ WaitsFor state task holder := by
  have inv := run_inv reached
  refine ⟨?_, ?_⟩
  · rintro ⟨task, member, unfinished⟩ inside
    rcases List.getElem?_of_mem member with ⟨id, present⟩
    rcases some_ready T inv present unfinished with ready | ⟨other, member, busy, waiting⟩
    · exact ready
    · rw [inside other member busy] at waiting
      cases waiting
  · intro id task present held
    rcases lock_holder inv held with ⟨holder, found, -, inside, near⟩
    rw [present, Option.some.injEq] at found
    subst holder
    refine ⟨inside, ?_⟩
    intro other waits
    rcases waits_nearer inv waits with ⟨_, -, -, nearer⟩
    rw [near] at nearer
    exact Nat.not_lt_zero _ nearer

/-- The first get wants the lock to make room; the second waits for its permit. -/
def waitingForRoom : List (Action LiteralTree) :=
  fetchActions plainCache "/a" epoch 0 (plainBody [1, 2, 3]) ++
    [.store 0 none, .reserve 0, .start plainCache "/a" epoch, .acquire 1, .lookup 1]

theorem deadlock_free_waiting :
    ∃ state, Transition.run step (initial 2 2 (by decide)) waitingForRoom = some state ∧
      state.tasks.map (fun task => (task.pc.ended, task.pc.outside)) =
        [(false, false), (false, false)] ∧ ∃ id, Ready LiteralTree state id := by
  have places : (Transition.run step (initial 2 2 (by decide)) waitingForRoom).map
      (fun state => state.tasks.map fun task => (task.pc.ended, task.pc.outside)) =
        some [(false, false), (false, false)] := rfl
  rcases Option.map_eq_some_iff.mp places with ⟨state, reached, places⟩
  have busy (task : Task) (member : task ∈ state.tasks) :
      task.pc.ended = false ∧ task.pc.outside = false := by
    have seen : (task.pc.ended, task.pc.outside) ∈
        state.tasks.map fun task => (task.pc.ended, task.pc.outside) :=
      List.mem_map.mpr ⟨task, member, rfl⟩
    rw [places] at seen
    simpa using seen
  refine ⟨state, reached, places, (deadlock_free reached).1 ?_ fun task member _ =>
    (busy task member).2⟩
  cases tasks : state.tasks with
  | nil => simp [tasks] at places
  | cons task rest => exact ⟨task, List.mem_cons_self, (busy task (by simp [tasks])).1⟩

end Server3.Machine
