import Server3.ReservationLoop

/-! What the reservation loop knows of the pool when it pops an entry: what its last call
of `reserve` saw, and no more. -/

namespace Server3.Machine

open Clock Routes Upstream Resource Recency
open CapacityPool (CacheCapacityPool CacheCapacityReservation)

variable {T : Type → Type} {state next start final : State} {id mover : TaskId} {task : Task}
  {action : Action T} {actions : List (Action T)} {size : UInt64}

/-- The get itself does nothing in this step but to take the lock of the map. -/
def Action.awaits (id : TaskId) (action : Action T) : Prop :=
  action = .acquire id ∨ (action.advances ≠ some id ∧ action ≠ .cancel id)

def GivenBack [PathTree T] (start : State) (earlier later : List (Action T)) : Prop :=
  ∃ first action second before after, later = first ++ action :: second ∧
    Transition.run step start (earlier ++ first) = some before ∧ step before action = some after ∧
    before.pool.availableCapacity < after.pool.availableCapacity

/-- The last call of `reserve` found too little capacity. Since then the get has at most
taken the lock, and what is available has only grown if capacity was given back. -/
def Checked [PathTree T] (id : TaskId) (size : UInt64) (start : State)
    (actions : List (Action T)) (final : State) : Prop :=
  ∃ earlier later checked, actions = earlier ++ .reserve id :: later ∧
    Transition.run step start earlier = some checked ∧
    checked.pool.availableCapacity < size ∧ (∀ action ∈ later, action.awaits id) ∧
    (final.pool.availableCapacity < size ∨ GivenBack start (earlier ++ [.reserve id]) later)

def Pc.wantsRoom (fetched : Fetched) (pc : Pc) : Prop :=
  ∃ cell, pc = .evictLock cell fetched ∨ pc = .popping cell fetched

theorem move_wants (move : Move state id task action next) :
    ∃ pc, next.tasks = state.tasks.set id { task with pc := pc } ∧
      ∀ fetched, pc.wantsRoom fetched → next.pool = state.pool ∧
        ((action = .reserve id ∧ state.pool.reserve fetched.file.size = none) ∨
          (action = .acquire id ∧ task.pc.wantsRoom fetched)) := by
  cases move with
  | acquireEvict cell fetched stage unlocked =>
      refine ⟨_, rfl, ?_⟩
      rintro other ⟨_, shape | shape⟩
      · cases shape
      · cases shape
        exact ⟨rfl, Or.inr ⟨rfl, cell, Or.inl stage⟩⟩
  | reserveFailed cell fetched locked stage refused =>
      refine ⟨_, rfl, ?_⟩
      rintro other ⟨_, shape⟩
      refine ⟨rfl, Or.inl ⟨rfl, ?_⟩⟩
      cases locked with
      | false =>
          rcases shape with shape | shape <;> cases shape
          exact refused
      | true =>
          rcases shape with shape | shape <;> cases shape
          exact refused
  | _ =>
      first
      | exact ⟨_, rfl, by simp [Pc.wantsRoom]⟩
      | exact ⟨_, State.release_tasks _ _, by simp [Pc.wantsRoom]⟩
      | exact ⟨_, State.releaseOption_tasks _, by simp [Pc.wantsRoom]⟩

theorem awaits_other (move : Move state mover task action next) (different : mover ≠ id) :
    action.awaits id := by
  cases move <;> exact Or.inr ⟨by simp [Action.advances, different], by simp [different]⟩

variable [PathTree T]

theorem checked_now (reached : Transition.run step start actions = some state)
    (refused : state.pool.reserve size = none) (same : next.pool = state.pool) :
    Checked id size start (actions ++ [.reserve id]) next := by
  have short := UInt64.lt_iff_toNat_lt.mpr (CapacityPool.reserve_none.mp refused)
  exact ⟨actions, [], state, rfl, reached, short, by simp, Or.inl (same ▸ short)⟩

theorem checked_later (reached : Transition.run step start actions = some state)
    (checked : Checked id size start actions state) (taken : step state action = some next)
    (awaits : action.awaits id) : Checked id size start (actions ++ [action]) next := by
  rcases checked with ⟨earlier, later, seen, rfl, before, short, quiet, room⟩
  refine ⟨earlier, later ++ [action], seen, by simp, before, short, ?_, ?_⟩
  · intro other member
    rcases List.mem_append.mp member with inside | last
    · exact quiet other inside
    · rw [List.mem_singleton] at last
      exact last ▸ awaits
  · rcases room with less | ⟨first, back, second, old, new, split, run, given, more⟩
    · by_cases grown : state.pool.availableCapacity < next.pool.availableCapacity
      · refine Or.inr ⟨later, action, [], state, next, by simp, ?_, taken, grown⟩
        rw [← reached]
        simp
      · left
        rw [UInt64.lt_iff_toNat_lt] at less grown ⊢
        omega
    · exact Or.inr ⟨first, back, second ++ [action], old, new, by simp [split], run, given, more⟩

theorem run_checked {capacity : UInt64} {slots : Nat} {positive : 0 < slots}
    (reached : Transition.run step (initial capacity slots positive) actions = some final) :
    ∀ task fetched, final.tasks[id]? = some task → task.pc.wantsRoom fetched →
      Checked id fetched.file.size (initial capacity slots positive) actions final := by
  refine Transition.run_induction (fun actions state => ∀ task fetched,
    state.tasks[id]? = some task → task.pc.wantsRoom fetched →
      Checked id fetched.file.size (initial capacity slots positive) actions state) ?_ ?_ reached
  · intro task fetched present
    cases present
  · intro actions state action next earlier before taken task fetched after wants
    rcases step_moves taken with ⟨cache, path, now, rfl, rfl⟩ | ⟨mover, moving, present, move⟩
    · rcases start_started state cache path now with ⟨fresh, started⟩
      rw [started.tasks] at after
      rcases Arena.get_append_cases after with old | ⟨_, rfl⟩
      · exact checked_later earlier (before task fetched old wants) taken (Or.inr ⟨nofun, nofun⟩)
      · rcases wants with ⟨cell, wants⟩
        rcases started.stage with ⟨stage, _⟩ | ⟨stage, _⟩ | ⟨stage, _⟩ | ⟨stage, _⟩ <;>
          simp [stage] at wants
    · rcases move_wants move with ⟨pc, tasks, wanting⟩
      rcases task_after present tasks after with ⟨rfl, rfl⟩ | ⟨different, unchanged⟩
      · rcases wanting fetched wants with ⟨same, ⟨rfl, refused⟩ | ⟨rfl, waited⟩⟩
        · exact checked_now earlier refused same
        · exact checked_later earlier (before moving fetched present waited) taken (Or.inl rfl)
      · exact checked_later earlier (before task fetched unchanged wants) taken
          (awaits_other move (Ne.symm different))

/-- When a loop pops, its last call of `reserve` found too little capacity, and so would
another one now unless some other get has given capacity back since. -/
theorem pops_after_check {capacity : UInt64} {slots : Nat} {positive : 0 < slots}
    (reached : Transition.run step (initial capacity slots positive) actions = some state)
    (taken : step state (.pop id : Action T) = some next) :
    ∃ task cell fetched, state.tasks[id]? = some task ∧ task.pc = .popping cell fetched ∧
      Checked id fetched.file.size (initial capacity slots positive) actions state := by
  rcases step_moves taken with ⟨_, _, _, start, -⟩ | ⟨mover, task, present, move⟩
  · cases start
  · cases move with
    | popEntry cell fetched key victim rest stage popped =>
        exact ⟨task, cell, fetched, present, stage,
          run_checked reached task fetched present ⟨cell, Or.inr stage⟩⟩
    | popNothing cell fetched stage exhausted =>
        exact ⟨task, cell, fetched, present, stage,
          run_checked reached task fetched present ⟨cell, Or.inr stage⟩⟩

omit [PathTree T]

/-- While /b waits for the lock, the insertion of /c displaces /a, and both bytes of the
pool are free again when /b gets the lock. -/
def freedMeanwhile : List (Action LiteralTree) :=
  fetchActions plainCache "/a" epoch 0 (plainBody [1, 2]) ++ fillActions 0 ⟨epoch, ⟨0⟩⟩ ++
    respondActions 0 ++ fetchActions plainCache "/b" epoch 1 (plainBody [3, 4]) ++
    [.store 1 none, .reserve 1, .start plainCache "/c" epoch, .acquire 2, .lookup 2, .acquire 1]

/-- An entry is popped with as much capacity available as is needed. -/
theorem pops_with_room :
    ¬ ∀ (capacity : UInt64) (slots : Nat) (positive : 0 < slots)
      (actions : List (Action LiteralTree)) (state : State) (id : TaskId) (task : Task)
      (cell : CellId) (fetched : Fetched) (entry : MapEntry),
      Transition.run step (initial capacity slots positive) actions = some state →
      state.tasks[id]? = some task → task.pc = .popping cell fetched →
      poppedBy id state (.pop id : Action LiteralTree) = some entry →
        state.pool.availableCapacity < fetched.file.size := by
  intro needed
  have popping : ∃ state task cell fetched entry,
      Transition.run step (initial 2 2 (by decide)) freedMeanwhile = some state ∧
      state.tasks[1]? = some task ∧ task.pc = .popping cell fetched ∧
      poppedBy 1 state (.pop 1 : Action LiteralTree) = some entry ∧
      state.pool.availableCapacity = 2 ∧ fetched.file.size = 2 :=
    ⟨_, _, _, _, _, rfl, rfl, rfl, rfl, rfl, rfl⟩
  rcases popping with
    ⟨state, task, cell, fetched, entry, reached, present, stage, popped, room, size⟩
  have short := needed 2 2 (by decide) freedMeanwhile state 1 task cell fetched entry reached
    present stage popped
  rw [room, size] at short
  exact absurd short (by decide)

theorem pops_after_check_freed :
    ∃ state next, Transition.run step (initial 2 2 (by decide)) freedMeanwhile = some state ∧
      step state (.pop 1 : Action LiteralTree) = some next ∧
      ∃ task cell fetched, state.tasks[1]? = some task ∧ task.pc = .popping cell fetched ∧
        Checked 1 fetched.file.size (initial 2 2 (by decide)) freedMeanwhile state := by
  have popping : ∃ state next,
      Transition.run step (initial 2 2 (by decide)) freedMeanwhile = some state ∧
      step state (.pop 1 : Action LiteralTree) = some next := ⟨_, _, rfl, rfl⟩
  rcases popping with ⟨state, next, reached, taken⟩
  exact ⟨state, next, reached, taken, pops_after_check reached taken⟩

end Server3.Machine
