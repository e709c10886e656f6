import Server3.MachinePreservation

/-! What the moves leave of tasks, keys and contents of cells, for invariants that
follow a get or a cell through a run. -/

namespace Server3.Machine

open Clock Routes Upstream Resource Recency
open CapacityPool (CacheCapacityPool CacheCapacityReservation)

namespace State

variable (state : State) (id : TaskId) (task : Task) (pc : Pc) (cell : CellId)

@[simp] theorem giveBack_map (reservation : CacheCapacityReservation) :
    (state.giveBack reservation).map = state.map := by
  unfold giveBack
  split <;> rfl

@[simp] theorem giveBack_lock (reservation : CacheCapacityReservation) :
    (state.giveBack reservation).lock = state.lock := by
  unfold giveBack
  split <;> rfl

@[simp] theorem giveBack_tasks (reservation : CacheCapacityReservation) :
    (state.giveBack reservation).tasks = state.tasks := by
  unfold giveBack
  split <;> rfl

@[simp] theorem giveBack_slots (reservation : CacheCapacityReservation) :
    (state.giveBack reservation).slots = state.slots := by
  unfold giveBack
  split <;> rfl

@[simp] theorem giveBack_metrics (reservation : CacheCapacityReservation) :
    (state.giveBack reservation).metrics = state.metrics := by
  unfold giveBack
  split <;> rfl

@[simp] theorem free_map : (state.free cell).map = state.map := by
  unfold free
  split <;> simp

@[simp] theorem free_lock : (state.free cell).lock = state.lock := by
  unfold free
  split <;> simp

@[simp] theorem free_tasks : (state.free cell).tasks = state.tasks := by
  unfold free
  split <;> simp

@[simp] theorem free_route : (state.free cell).metrics.route = state.metrics.route := by
  unfold free
  split
  · rw [setCell, giveBack_metrics]
    rfl
  · rfl

theorem free_slots : (state.free cell).slots = (state.setCell cell .freed).slots := by
  unfold free
  split
  · simp only [setCell, giveBack_slots]
  · rfl

@[simp] theorem release_map : (state.release cell).map = state.map := by
  unfold release
  split <;> simp

@[simp] theorem release_lock : (state.release cell).lock = state.lock := by
  unfold release
  split <;> simp

@[simp] theorem release_tasks : (state.release cell).tasks = state.tasks := by
  unfold release
  split <;> simp

@[simp] theorem release_route : (state.release cell).metrics.route = state.metrics.route := by
  unfold release
  split <;> simp

@[simp] theorem release_keyAt (other : CellId) :
    (state.release cell).keyAt other = state.keyAt other := by
  unfold release
  split
  · rfl
  · simp only [keyAt, free_slots]
    exact state.setCell_keyAt cell .freed other

variable {state cell}

theorem release_cellAt {other : CellId} {content : Cell}
    (found : (state.release cell).cellAt other = some content) :
    state.cellAt other = some content ∨
      (other = cell ∧ content = .freed ∧ state.held cell = false) := by
  unfold release at found
  split at found
  · exact Or.inl found
  · rename_i unheld
    simp only [cellAt, free_slots] at found
    have after := state.setCell_cellAt cell .freed other
    simp only [cellAt] at after
    rw [after] at found
    split at found
    · rename_i same
      rcases Option.map_eq_some_iff.mp found with ⟨_, _, freed⟩
      exact Or.inr ⟨same.symm, freed.symm, by simpa using unheld⟩
    · exact Or.inl found

theorem release_filled {other : CellId} {resource : CachedResource}
    (found : (state.release cell).cellAt other = some (.filled resource)) :
    state.cellAt other = some (.filled resource) := by
  rcases release_cellAt found with kept | ⟨_, freed, _⟩
  · exact kept
  · cases freed

@[simp] theorem releaseOption_map (freed : Option CellId) :
    (state.releaseOption freed).map = state.map := by
  cases freed <;> simp [releaseOption]

@[simp] theorem releaseOption_lock (freed : Option CellId) :
    (state.releaseOption freed).lock = state.lock := by
  cases freed <;> simp [releaseOption]

@[simp] theorem releaseOption_tasks (freed : Option CellId) :
    (state.releaseOption freed).tasks = state.tasks := by
  cases freed <;> simp [releaseOption]

@[simp] theorem releaseOption_keyAt (freed : Option CellId) (other : CellId) :
    (state.releaseOption freed).keyAt other = state.keyAt other := by
  cases freed <;> simp [releaseOption]

theorem releaseOption_filled {freed : Option CellId} {other : CellId} {resource : CachedResource}
    (found : (state.releaseOption freed).cellAt other = some (.filled resource)) :
    state.cellAt other = some (.filled resource) := by
  cases freed with
  | none => exact found
  | some cell => exact release_filled found

@[simp] theorem abandon_map : (state.abandon id task cell pc).map = state.map := by
  simp [abandon]

@[simp] theorem abandon_lock : (state.abandon id task cell pc).lock = state.lock := by
  simp [abandon]

@[simp] theorem abandon_tasks : (state.abandon id task cell pc).tasks =
    state.tasks.set id { task with pc := pc } := by
  simp [abandon]

@[simp] theorem abandon_keyAt (other : CellId) :
    (state.abandon id task cell pc).keyAt other = state.keyAt other := by
  unfold abandon
  rw [release_keyAt]
  exact state.setCell_keyAt cell .empty other

theorem abandon_filled {other : CellId} {resource : CachedResource}
    (found : (state.abandon id task cell pc).cellAt other = some (.filled resource)) :
    state.cellAt other = some (.filled resource) := by
  have before := release_filled found
  change (state.setCell cell .empty).cellAt other = some (.filled resource) at before
  rw [setCell_cellAt] at before
  split at before
  · rcases Option.map_eq_some_iff.mp before with ⟨_, _, impossible⟩
    cases impossible
  · exact before

end State

variable {T : Type → Type} {action : Action T} {capacity : UInt64} {state next : State}
  {id : TaskId} {task : Task} {pc : Pc}

theorem task_after {other : TaskId} {found : Task} (present : state.tasks[id]? = some task)
    (tasks : next.tasks = state.tasks.set id { task with pc := pc })
    (after : next.tasks[other]? = some found) :
    (other = id ∧ found = { task with pc := pc }) ∨
      (other ≠ id ∧ state.tasks[other]? = some found) := by
  rw [tasks, Arena.get_set _ present] at after
  split at after
  · rename_i same
    exact Or.inl ⟨same.symm, (Option.some.inj after).symm⟩
  · rename_i different
    exact Or.inr ⟨Ne.symm different, after⟩

theorem move_task (move : Move state id task action next) :
    ∃ pc, next.tasks = state.tasks.set id { task with pc := pc } := by
  cases move <;> first
    | exact ⟨_, rfl⟩
    | exact ⟨_, State.release_tasks _ _⟩
    | exact ⟨_, State.releaseOption_tasks _⟩

theorem moved_task (present : state.tasks[id]? = some task)
    (tasks : next.tasks = state.tasks.set id { task with pc := pc }) :
    next.tasks[id]? = some { task with pc := pc } := by
  rw [tasks]
  exact Arena.get_set_self _ present

theorem move_kept {other : TaskId} {found : Task} (present : state.tasks[id]? = some task)
    (move : Move state id task action next) (before : state.tasks[other]? = some found) :
    ∃ pc, next.tasks[other]? = some { found with pc := pc } := by
  rcases move_task move with ⟨pc, tasks⟩
  rw [tasks, Arena.get_set _ present]
  split
  · rename_i same
    subst other
    rw [present, Option.some.injEq] at before
    exact ⟨pc, by rw [before]⟩
  · exact ⟨found.pc, before⟩

theorem fresh_mapped (inv : Inv capacity state)
    (allocates : (state.lookupKey task.key task.now).allocates = true) :
    (task.key, state.slots.length) ∈ (state.afterLookup id task).map.entries := by
  have result := task_lookup_cases inv task.key task.now
  have stored := result.stored
  rcases result.owned with ⟨_, own⟩ | ⟨shared, _⟩
  · rw [own] at stored
    exact stored
  · rw [shared] at allocates
    cases allocates

theorem move_keyAt {cell : CellId} {key : CachedResourceKey} (inv : Inv capacity state)
    (move : Move state id task action next) (known : next.keyAt cell = some key) :
    state.keyAt cell = some key ∨
      (state.keyAt cell = none ∧ key = task.key ∧ (key, cell) ∈ next.map.entries) := by
  cases move with
  | lookup stage =>
      rw [State.releaseOption_keyAt] at known
      rcases Option.map_eq_some_iff.mp known with ⟨slot, present, same⟩
      rcases afterLookup_slot present with old | ⟨allocates, fresh, shape⟩
      · exact Or.inl (Option.map_eq_some_iff.mpr ⟨slot, old, same⟩)
      · right
        subst fresh shape same
        refine ⟨by simp [State.keyAt], rfl, ?_⟩
        rw [State.releaseOption_map]
        exact fresh_mapped inv allocates
  | fill cell fetched reservation clock stage =>
      left
      exact (State.setCell_keyAt _ _ _ _).symm.trans known
  | joinEmpty cell stage found =>
      left
      exact (State.setCell_keyAt _ _ _ _).symm.trans known
  | _ =>
      left
      first
      | exact known
      | simp only [State.release_keyAt, State.abandon_keyAt] at known
        exact known

theorem move_keeps_key {cell : CellId} {key : CachedResourceKey}
    (move : Move state id task action next) (known : state.keyAt cell = some key) :
    next.keyAt cell = some key := by
  cases move with
  | lookup stage =>
      rw [State.releaseOption_keyAt]
      exact afterLookup_keyAt known
  | fill own fetched reservation clock stage =>
      exact (State.setCell_keyAt _ _ _ _).trans known
  | joinEmpty own stage found => exact (State.setCell_keyAt _ _ _ _).trans known
  | _ =>
      first
      | exact known
      | simp only [State.release_keyAt, State.abandon_keyAt]
        exact known

theorem move_filled {cell : CellId} {resource : CachedResource}
    (move : Move state id task action next)
    (found : next.cellAt cell = some (.filled resource)) :
    state.cellAt cell = some (.filled resource) ∨
      ∃ fetched reservation clock, action = .fill id clock ∧
        task.pc = .granted cell fetched reservation false ∧
        resource = task.resource id fetched reservation clock := by
  cases move with
  | lookup stage =>
      rcases afterLookup_cell (State.releaseOption_filled found) with old | fresh
      · exact Or.inl old
      · cases fresh
  | fill own fetched reservation clock stage =>
      have after := State.setCell_cellAt state own
        (.filled (task.resource id fetched reservation clock)) cell
      change (state.setCell own _).cellAt cell = _ at found
      rw [after] at found
      split at found
      · rename_i same
        subst same
        rcases Option.map_eq_some_iff.mp found with ⟨_, _, shape⟩
        exact Or.inr ⟨fetched, reservation, clock, rfl, stage, (Cell.filled.inj shape).symm⟩
      · exact Or.inl found
  | joinEmpty own stage empty =>
      change (state.setCell own _).cellAt cell = _ at found
      rw [State.setCell_cellAt] at found
      split at found
      · rcases Option.map_eq_some_iff.mp found with ⟨_, _, impossible⟩
        cases impossible
      · exact Or.inl found
  | answerNone own stage =>
      have kept := State.abandon_filled _ _ _ found
      exact Or.inl kept
  | answerError own failure stage =>
      have kept := State.abandon_filled _ _ _ found
      exact Or.inl kept
  | storeError own body diskError failure stage stored =>
      have kept := State.abandon_filled _ _ _ found
      exact Or.inl kept
  | cancelInit own stage => exact Or.inl (State.abandon_filled _ _ _ found)
  | evict own fetched victim stage =>
      have kept := State.release_filled found
      exact Or.inl kept
  | respond own body cloneError result stage shape =>
      have kept := State.release_filled found
      exact Or.inl kept
  | cancelJoined own stage =>
      have kept := State.release_filled found
      exact Or.inl kept
  | _ => exact Or.inl found

def Cell.pending : Cell → Bool
  | .empty | .initializing _ => true
  | _ => false

theorem release_pending {cell other : CellId} {content : Cell} (pending : content.pending = true)
    (found : (state.release cell).cellAt other = some content) :
    state.cellAt other = some content := by
  rcases State.release_cellAt found with kept | ⟨_, rfl, _⟩
  · exact kept
  · cases pending

theorem setCell_pending {cell other : CellId} {before content new : Cell}
    (known : state.cellAt cell = some before) (unsettled : before.pending = true)
    (pending : content.pending = true)
    (found : (state.setCell cell new).cellAt other = some content) :
    ∃ old, state.cellAt other = some old ∧ old.pending = true := by
  rw [State.setCell_cellAt] at found
  split at found
  · rename_i same
    subst same
    exact ⟨before, known, unsettled⟩
  · exact ⟨content, found, pending⟩

theorem abandon_pending {cell other : CellId} {before content : Cell}
    (found : (state.abandon id task cell pc).cellAt other = some content)
    (known : state.cellAt cell = some before) (unsettled : before.pending = true)
    (pending : content.pending = true) :
    ∃ old, state.cellAt other = some old ∧ old.pending = true := by
  have inner := release_pending pending found
  exact setCell_pending known unsettled pending inner

theorem move_pending {cell : CellId} {content : Cell} (inv : Inv capacity state)
    (present : state.tasks[id]? = some task) (move : Move state id task action next)
    (found : next.cellAt cell = some content) (pending : content.pending = true) :
    (∃ old, state.cellAt cell = some old ∧ old.pending = true) ∨ state.keyAt cell = none := by
  have permit := (inv.tasks id task present).permit
  cases move with
  | lookup stage =>
      have kept : (state.afterLookup id task).cellAt cell = some content := by
        cases unlinked : (state.lookupKey task.key task.now).unlinked with
        | none => simpa only [unlinked, State.releaseOption] using found
        | some old =>
            rw [unlinked] at found
            exact release_pending pending found
      rcases Option.map_eq_some_iff.mp kept with ⟨slot, slotPresent, same⟩
      rcases afterLookup_slot slotPresent with old | ⟨_, rfl, _⟩
      · exact Or.inl ⟨content, Option.map_eq_some_iff.mpr ⟨slot, old, same⟩, pending⟩
      · exact Or.inr (by simp [State.keyAt])
  | joinEmpty own stage empty => exact Or.inl (setCell_pending empty rfl pending found)
  | fill own fetched reservation clock stage =>
      exact Or.inl (setCell_pending (permit own (by rw [stage]; rfl)) rfl pending found)
  | answerNone own stage =>
      have held := permit own (by rw [stage]; rfl)
      have kept := abandon_pending found held rfl pending
      exact Or.inl kept
  | answerError own failure stage =>
      have held := permit own (by rw [stage]; rfl)
      have kept := abandon_pending found held rfl pending
      exact Or.inl kept
  | storeError own body diskError failure stage stored =>
      have held := permit own (by rw [stage]; rfl)
      have kept := abandon_pending found held rfl pending
      exact Or.inl kept
  | cancelInit own stage =>
      have held := permit own (initializes_of_cancel stage)
      have kept := abandon_pending found held rfl pending
      exact Or.inl kept
  | evict own fetched victim stage =>
      have kept := release_pending pending found
      exact Or.inl ⟨content, kept, pending⟩
  | respond own body cloneError result stage shape =>
      have kept := release_pending pending found
      exact Or.inl ⟨content, kept, pending⟩
  | cancelJoined own stage =>
      have kept := release_pending pending found
      exact Or.inl ⟨content, kept, pending⟩
  | _ => exact Or.inl ⟨content, found, pending⟩

/-- An eviction: the entry is popped for its bytes, or displaced for its slot by a
key that was not there. -/
structure Evicts (state : State) (action : Action T) (next : State) (key : CachedResourceKey)
    (cell : CellId) : Prop where
  before : (key, cell) ∈ state.map.entries
  after : next.mapped cell = false
  how : (∃ id rest, action = .pop id ∧ state.map.popLru = some ((key, cell), rest)) ∨
    ∃ id task, action = .lookup id ∧ state.tasks[id]? = some task ∧
      task.key ∉ state.map.entries.map Prod.fst ∧ state.map.displaced = some (key, cell)

theorem move_entry {key : CachedResourceKey} {cell : CellId} (inv : Inv capacity state)
    (present : state.tasks[id]? = some task) (move : Move state id task action next)
    (member : (key, cell) ∈ state.map.entries) :
    (key, cell) ∈ next.map.entries ∨ Evicts state action next key cell ∨
      ∃ resource, state.cellAt cell = some (.filled resource) ∧
        resource.isExpired task.now = true := by
  have alive := move_inv inv present move
  -- an entry of the cell could only be one of its own key
  have gone (lost : (key, cell) ∉ next.map.entries)
      (keyed : next.keyAt cell = some key) : next.mapped cell = false := by
    rw [not_mapped_iff]
    intro other again
    have same := (alive.entries other cell again).key
    rw [keyed, Option.some.injEq] at same
    exact lost (same ▸ again)
  have keyed := (inv.entries key cell member).key
  cases move with
  | lookup stage =>
      have result := task_lookup_cases inv task.key task.now
      rw [State.releaseOption_map] at gone ⊢
      rcases result.keeps member with kept | ⟨-, ⟨missing, displaced, lost⟩ | ⟨_, expired⟩⟩
      · exact Or.inl kept
      · right
        left
        refine ⟨member, gone (fun again => lost key again rfl) ?_,
          Or.inr ⟨id, task, rfl, present, missing, displaced⟩⟩
        rw [State.releaseOption_keyAt]
        exact afterLookup_keyAt keyed
      · exact Or.inr (Or.inr expired)
  | popEntry own fetched poppedKey victim rest stage popped =>
      have split := (LruCache.pop_some popped).1
      have distinct := state.map.distinct
      rw [split] at member
      rcases List.mem_append.mp member with kept | last
      · exact Or.inl kept
      · right
        left
        rw [List.mem_singleton] at last
        rw [← last] at popped split
        refine ⟨by simp [split], gone ?_ keyed, Or.inl ⟨id, rest, rfl, popped⟩⟩
        intro again
        rw [split, List.map_append, List.nodup_append] at distinct
        exact distinct.2.2 key (List.mem_map_of_mem again) key (by simp) rfl
  | _ =>
      left
      first
      | exact member
      | simp only [State.release_map, State.abandon_map]
        exact member

theorem release_keeps {cell other : CellId} {content : Cell}
    (found : state.cellAt other = some content) :
    (state.release cell).cellAt other = some content ∨
      (state.release cell).mapped other = false := by
  by_cases same : other = cell
  · subst other
    unfold State.release
    split
    · exact Or.inl found
    · rename_i unheld
      right
      simp only [State.held, Bool.or_eq_true, not_or, Bool.not_eq_true] at unheld
      simp only [State.mapped, State.free_map]
      exact unheld.1
  · left
    unfold State.release
    split
    · exact found
    · simp only [State.cellAt, State.free_slots]
      exact (state.setCell_cellAt cell .freed other).trans (by rw [if_neg (Ne.symm same), found])

theorem setCell_keeps {cell other : CellId} {before content new : Cell}
    (known : state.cellAt cell = some before) (found : state.cellAt other = some content)
    (different : before ≠ content) : (state.setCell cell new).cellAt other = some content := by
  rw [State.setCell_cellAt, if_neg, found]
  rintro rfl
  rw [known, Option.some.injEq] at found
  exact different found

theorem abandon_keeps {cell other : CellId} {before content : Cell}
    (known : state.cellAt cell = some before) (found : state.cellAt other = some content)
    (different : before ≠ content) :
    (state.abandon id task cell pc).cellAt other = some content ∨
      (state.abandon id task cell pc).mapped other = false := by
  have inner : ((state.setCell cell .empty).setPc id task pc).cellAt other = some content :=
    setCell_keeps known found different
  exact release_keeps inner

/-- A filled cell stays as it is, at least while it is mapped. -/
theorem move_keeps_filled {cell : CellId} {resource : CachedResource} (inv : Inv capacity state)
    (present : state.tasks[id]? = some task) (move : Move state id task action next)
    (filled : state.cellAt cell = some (.filled resource)) :
    next.cellAt cell = some (.filled resource) ∨ next.mapped cell = false := by
  have permit := (inv.tasks id task present).permit
  cases move with
  | lookup stage =>
      have kept : (state.afterLookup id task).cellAt cell = some (.filled resource) :=
        (afterLookup_cellAt (known_of_cell filled)).trans filled
      cases (state.lookupKey task.key task.now).unlinked with
      | none => exact Or.inl kept
      | some old => exact release_keeps kept
  | joinEmpty own stage empty => exact Or.inl (setCell_keeps empty filled (by simp))
  | fill own fetched reservation clock stage =>
      exact Or.inl (setCell_keeps (permit own (by rw [stage]; rfl)) filled (by simp))
  | answerNone own stage =>
      have held := permit own (by rw [stage]; rfl)
      exact abandon_keeps held filled (by simp)
  | answerError own failure stage =>
      have held := permit own (by rw [stage]; rfl)
      exact abandon_keeps held filled (by simp)
  | storeError own body diskError failure stage stored =>
      have held := permit own (by rw [stage]; rfl)
      exact abandon_keeps held filled (by simp)
  | cancelInit own stage =>
      have held := permit own (initializes_of_cancel stage)
      exact abandon_keeps held filled (by simp)
  | evict own fetched victim stage => exact release_keeps filled
  | respond own body cloneError result stage shape => exact release_keeps filled
  | cancelJoined own stage => exact release_keeps filled
  | _ => exact Or.inl filled

inductive LockMove (state next : State) (id : TaskId) (old new : Pc) : Prop where
  | kept (same : new.holdsLock = old.holdsLock) (lock : next.lock = state.lock)
  | taken (before : old.holdsLock = false) (after : new.holdsLock = true)
      (free : state.lock = none) (lock : next.lock = some id)
  | released (before : old.holdsLock = true) (after : new.holdsLock = false)
      (lock : next.lock = none)

/-- The map changes only under its lock. -/
theorem move_lock (move : Move state id task action next) :
    ∃ pc, next.tasks = state.tasks.set id { task with pc := pc } ∧
      LockMove state next id task.pc pc ∧
      (task.pc.holdsLock = false → next.map = state.map) := by
  cases move with
  | acquireLookup stage unlocked =>
      exact ⟨_, rfl, .taken (by rw [stage]; rfl) rfl unlocked rfl, fun _ => rfl⟩
  | acquireEvict cell fetched stage unlocked =>
      exact ⟨_, rfl, .taken (by rw [stage]; rfl) rfl unlocked rfl, fun _ => rfl⟩
  | lookup stage =>
      refine ⟨_, State.releaseOption_tasks _, .released (by rw [stage]; rfl) rfl ?_, ?_⟩
      · rw [State.releaseOption_lock]
        rfl
      · rw [stage]
        nofun
  | joinFilled cell resource stage found =>
      exact ⟨_, rfl, .kept (by rw [stage]; rfl) rfl, fun _ => rfl⟩
  | joinEmpty cell stage found => exact ⟨_, rfl, .kept (by rw [stage]; rfl) rfl, fun _ => rfl⟩
  | answerNever answer stage => exact ⟨_, rfl, .kept (by rw [stage]; rfl) rfl, fun _ => rfl⟩
  | answerFound cell resource stage =>
      exact ⟨_, rfl, .kept (by rw [stage]; rfl) rfl, fun _ => rfl⟩
  | answerNone cell stage =>
      exact ⟨_, State.abandon_tasks _ _ _, .kept (by rw [stage]; rfl) (by simp), fun _ => by simp⟩
  | answerError cell failure stage =>
      exact ⟨_, State.abandon_tasks _ _ _, .kept (by rw [stage]; rfl) (by simp), fun _ => by simp⟩
  | storeOk cell resource diskError file stage stored =>
      exact ⟨_, rfl, .kept (by rw [stage]; rfl) rfl, fun _ => rfl⟩
  | storeError cell resource diskError failure stage stored =>
      exact ⟨_, State.abandon_tasks _ _ _, .kept (by rw [stage]; rfl) (by simp), fun _ => by simp⟩
  | reserveGranted cell fetched locked pool reservation stage granted =>
      exact ⟨_, rfl, .kept (by rw [stage]; rfl) rfl, fun _ => rfl⟩
  | reserveFailed cell fetched locked stage refused =>
      refine ⟨_, rfl, .kept ?_ rfl, fun _ => rfl⟩
      rw [stage]
      cases locked <;> rfl
  | popEntry cell fetched key victim rest stage popped =>
      refine ⟨_, rfl, .kept (by rw [stage]; rfl) rfl, ?_⟩
      rw [stage]
      nofun
  | popNothing cell fetched stage exhausted =>
      exact ⟨_, rfl, .kept (by rw [stage]; rfl) rfl, fun _ => rfl⟩
  | evict cell fetched victim stage =>
      exact ⟨_, State.release_tasks _ _, .kept (by rw [stage]; rfl) (by simp), fun _ => by simp⟩
  | reserveUpTo cell fetched pool reservation stage granted =>
      exact ⟨_, rfl, .kept (by rw [stage]; rfl) rfl, fun _ => rfl⟩
  | unlock cell fetched reservation stage =>
      exact ⟨_, rfl, .released (by rw [stage]; rfl) rfl rfl, fun _ => rfl⟩
  | fill cell fetched reservation clock stage =>
      exact ⟨_, rfl, .kept (by rw [stage]; rfl) rfl, fun _ => rfl⟩
  | count cell resource stage => exact ⟨_, rfl, .kept (by rw [stage]; rfl) rfl, fun _ => rfl⟩
  | respond cell resource cloneError result stage shape =>
      exact ⟨_, State.release_tasks _ _, .kept (by rw [stage]; rfl) (by simp), fun _ => by simp⟩
  | cancelIdle stage =>
      refine ⟨_, rfl, .kept ?_ rfl, fun _ => rfl⟩
      rcases stage with stage | stage <;> rw [stage] <;> rfl
  | cancelJoined cell stage =>
      refine ⟨_, State.release_tasks _ _, .kept ?_ (by simp), fun _ => by simp⟩
      rcases stage with stage | ⟨_, stage⟩ <;> rw [stage] <;> rfl
  | cancelInit cell stage =>
      refine ⟨_, State.abandon_tasks _ _ _, .kept ?_ (by simp), fun _ => by simp⟩
      rcases stage with stage | ⟨_, stage⟩ | ⟨_, stage⟩ <;> rw [stage] <;> rfl

theorem lookupKey_capacity (key : CachedResourceKey) (now : Instant) :
    (state.lookupKey key now).map.capacity = state.map.capacity := by
  simp only [State.lookupKey]
  split
  · simp
  · split
    · split <;> simp
    · simp

theorem move_capacity (move : Move state id task action next) :
    next.map.capacity = state.map.capacity := by
  cases move with
  | lookup stage =>
      rw [State.releaseOption_map]
      exact lookupKey_capacity task.key task.now
  | popEntry own fetched key victim rest stage popped => exact (LruCache.pop_some popped).2
  | _ =>
      first
      | rfl
      | simp

structure Request (T : Type → Type) where
  cache : Cache T
  path : String
  now : Instant

def Request.key (request : Request T) : CachedResourceKey := request.cache.key request.path

def Action.request : Action T → Option (Request T)
  | .start cache path now => some ⟨cache, path, now⟩
  | _ => none

/-- The gets of a run in the order they start, which is the order of their indices. -/
def requests (actions : List (Action T)) : List (Request T) := actions.filterMap Action.request

def Action.fills : Action T → Option TaskId
  | .fill id _ => some id
  | _ => none

theorem move_request (move : Move state id task action next) : action.request = none := by
  cases move <;> rfl

theorem run_requests [PathTree T] {slots : Nat} {positive : 0 < slots} {actions : List (Action T)}
    (reached : Transition.run step (initial capacity slots positive) actions = some state) :
    state.tasks.map (fun task => (task.key, task.now)) =
      (requests actions).map fun request => (request.key, request.now) := by
  refine Transition.run_induction (fun actions state =>
    state.tasks.map (fun task => (task.key, task.now)) =
      (requests actions).map fun request => (request.key, request.now)) rfl ?_ reached
  intro actions state action next _ before taken
  rw [requests, List.filterMap_append, List.map_append]
  rcases step_moves taken with ⟨cache, path, now, rfl, rfl⟩ | ⟨id, task, present, move⟩
  · rcases start_started state cache path now with ⟨fresh, started⟩
    rw [started.tasks, List.map_append, before]
    simp [Action.request, Request.key, Task.key, Cache.key, started.host, started.requested,
      started.time, requests]
  · rcases move_task move with ⟨pc, tasks⟩
    have same : (state.tasks.map fun task => (task.key, task.now))[id]? =
        some (task.key, task.now) := by simp [present]
    rw [tasks, List.map_set]
    simp only [List.filterMap_cons, move_request move, List.filterMap_nil, List.map_nil,
      List.append_nil]
    exact (Arena.set_same same).trans before

theorem run_count [PathTree T] {slots : Nat} {positive : 0 < slots} {actions : List (Action T)}
    (reached : Transition.run step (initial capacity slots positive) actions = some state) :
    state.tasks.length = (requests actions).length := by
  have lengths := congrArg List.length (run_requests reached)
  simpa using lengths

theorem task_request [PathTree T] {slots : Nat} {positive : 0 < slots} {actions : List (Action T)}
    (reached : Transition.run step (initial capacity slots positive) actions = some state)
    (present : state.tasks[id]? = some task) :
    ∃ request, (requests actions)[id]? = some request ∧ request.key = task.key ∧
      request.now = task.now := by
  have found := congrArg (fun items => items[id]?) (run_requests reached)
  simp only [List.getElem?_map, present, Option.map_some] at found
  rcases Option.map_eq_some_iff.mp found.symm with ⟨request, asked, same⟩
  exact ⟨request, asked, congrArg Prod.fst same, congrArg Prod.snd same⟩

end Server3.Machine
