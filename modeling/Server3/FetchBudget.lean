import Server3.Freshness

/-! How often the upstream is asked for a key: once, and once more for each time that the
key was evicted or found expired, or that a fetch of it was given up. -/

namespace Server3.Machine

open Clock Routes Upstream Resource Recency

/-- What a step can mean to a key: a fetch begins, fills its cell or is given up, and the
entry is evicted or replaced as expired. -/
inductive KeyEvent where
  | began
  | filled
  | gaveUp
  | evicted
  | expired
  deriving DecidableEq

variable {T : Type → Type} {capacity : UInt64} {state next : State} {id : TaskId} {task : Task}
  {action : Action T} {cell : CellId} {key : CachedResourceKey} {pc : Pc}

def keyEvent (state : State) : Action T → Option (CachedResourceKey × KeyEvent)
  | .lookup id => (state.tasks[id]?).bind fun task =>
      if task.key ∈ state.map.entries.map Prod.fst then
        if (state.lookupKey task.key task.now).allocates then some (task.key, .expired) else none
      else state.map.displaced.map fun entry => (entry.1, .evicted)
  | .join id => (state.tasks[id]?).bind fun task =>
      match task.pc with
      | .joining cell =>
          if state.cellAt cell = some .empty then some (task.key, .began) else none
      | _ => none
  | .answer id answer => (state.tasks[id]?).bind fun task =>
      match task.pc, answer with
      | .fetching _, .ok (some _) => none
      | .fetching _, _ => some (task.key, .gaveUp)
      | _, _ => none
  | .store id diskError => (state.tasks[id]?).bind fun task =>
      match task.pc with
      | .storing _ resource =>
          match Upstream.store resource.body diskError with
          | .ok _ => none
          | .error _ => some (task.key, .gaveUp)
      | _ => none
  | .pop _ => state.map.popLru.map fun popped => (popped.1.1, .evicted)
  | .fill id _ => (state.tasks[id]?).map fun task => (task.key, .filled)
  | .cancel id => (state.tasks[id]?).bind fun task =>
      if task.pc.initializes.isSome then some (task.key, .gaveUp) else none
  | _ => none

def timesOf [PathTree T] (start : State) (actions : List (Action T)) (key : CachedResourceKey)
    (kind : KeyEvent) : Nat :=
  (Transition.observed step keyEvent start actions).count (key, kind)

def State.underWay (state : State) (key : CachedResourceKey) : Nat :=
  state.tasks.countP fun task => task.key = key && task.pc.initializes.isSome

def State.cellsOf (state : State) (key : CachedResourceKey) : Nat :=
  state.slots.countP fun slot => slot.key = key

def State.emptyOf (state : State) (key : CachedResourceKey) : Nat :=
  state.slots.countP fun slot => slot.key = key && slot.cell = .empty

def State.mappedOf (state : State) (key : CachedResourceKey) : Nat :=
  if key ∈ state.map.entries.map Prod.fst then 1 else 0

def hits (event : Option (CachedResourceKey × KeyEvent)) (key : CachedResourceKey)
    (kind : KeyEvent) : Nat :=
  if event = some (key, kind) then 1 else 0

section Cells

theorem emptyOf_setCell {old : Cell} {owner : CachedResourceKey} (content : Cell)
    (found : state.cellAt cell = some old) (keyed : state.keyAt cell = some owner) :
    (state.setCell cell content).emptyOf key + (owner = key && old = .empty).toNat =
      state.emptyOf key + (owner = key && content = .empty).toNat := by
  rcases Option.map_eq_some_iff.mp found with ⟨slot, present, rfl⟩
  rw [State.keyAt, present, Option.map_some, Option.some.injEq] at keyed
  subst keyed
  rw [State.emptyOf, State.setCell, Arena.modify_present _ present]
  exact Arena.countP_set _ { slot with cell := content } present

theorem cellsOf_setCell (content : Cell) :
    (state.setCell cell content).cellsOf key = state.cellsOf key := by
  cases found : state.slots[cell]? with
  | none =>
      have same : (state.setCell cell content).slots = state.slots :=
        setCell_absent (by rw [State.cellAt, found]; rfl)
      rw [State.cellsOf, same]
      rfl
  | some slot =>
      have counts := Arena.countP_set (fun slot : Slot => slot.key = key)
        { slot with cell := content } found
      rw [State.cellsOf, State.setCell, Arena.modify_present _ found]
      exact Nat.add_right_cancel counts

theorem emptyOf_release : (state.release cell).emptyOf key ≤ state.emptyOf key := by
  unfold State.release
  split
  · exact le_rfl
  · have slots : (state.free cell).emptyOf key = (state.setCell cell .freed).emptyOf key := by
      rw [State.emptyOf, State.free_slots]
      rfl
    rw [slots]
    cases found : state.slots[cell]? with
    | none =>
        have same : (state.setCell cell .freed).slots = state.slots :=
          setCell_absent (by rw [State.cellAt, found]; rfl)
        rw [State.emptyOf, same]
        exact le_rfl
    | some slot =>
        have counts : (state.setCell cell .freed).emptyOf key + _ = _ :=
          emptyOf_setCell .freed
            (by rw [State.cellAt, found]; rfl : state.cellAt cell = some slot.cell)
            (by rw [State.keyAt, found]; rfl : state.keyAt cell = some slot.key)
        simp only [reduceCtorEq, decide_false, Bool.and_false, Bool.toNat_false] at counts
        omega

theorem cellsOf_release : (state.release cell).cellsOf key = state.cellsOf key := by
  unfold State.release
  split
  · rfl
  · rw [State.cellsOf, State.free_slots]
    exact cellsOf_setCell .freed

theorem cellsOf_abandon :
    (state.abandon id task cell pc).cellsOf key = state.cellsOf key := by
  rw [State.abandon, cellsOf_release]
  exact cellsOf_setCell .empty

theorem emptyOf_abandon (held : state.cellAt cell = some (.initializing id))
    (keyed : state.keyAt cell = some task.key) :
    (state.abandon id task cell pc).emptyOf key ≤
      state.emptyOf key + if task.key = key then 1 else 0 := by
  have counts : (state.setCell cell .empty).emptyOf key + _ = _ :=
    emptyOf_setCell .empty held keyed
  simp only [reduceCtorEq, decide_false, Bool.and_false, Bool.toNat_false, decide_true,
    Bool.and_true] at counts
  have fewer : (state.abandon id task cell pc).emptyOf key ≤
      (state.setCell cell .empty).emptyOf key := emptyOf_release
  by_cases own : task.key = key
  · simp only [own, decide_true, Bool.toNat_true] at counts
    rw [if_pos own]
    omega
  · simp only [own, decide_false, Bool.toNat_false] at counts
    rw [if_neg own]
    omega

theorem afterLookup_counts :
    (state.afterLookup id task).emptyOf key + state.cellsOf key =
      state.emptyOf key + (state.afterLookup id task).cellsOf key := by
  rw [State.emptyOf, State.cellsOf, State.cellsOf, afterLookup_slots]
  split
  · simp only [List.countP_append, List.countP_singleton, decide_true, Bool.and_true]
    rw [State.emptyOf]
    omega
  · rfl

theorem cellsOf_releaseOption {freed : Option CellId} :
    (state.releaseOption freed).cellsOf key = state.cellsOf key := by
  cases freed with
  | none => rfl
  | some cell => exact cellsOf_release

/-- No old cell comes to be empty. -/
def NoneEmptied (state next : State) : Prop :=
  ∀ key, next.emptyOf key + state.cellsOf key ≤ state.emptyOf key + next.cellsOf key

theorem same_slots (same : next.slots = state.slots) : NoneEmptied state next := by
  intro key
  rw [State.emptyOf, State.cellsOf, State.emptyOf, State.cellsOf, same]

theorem released_slots {before : State} (same : before.slots = state.slots) :
    NoneEmptied state (before.release cell) := by
  intro key
  have fewer : (before.release cell).emptyOf key ≤ before.emptyOf key := emptyOf_release
  have kept := same_slots same key
  rw [cellsOf_release]
  omega

theorem lookup_slots : NoneEmptied state ((state.afterLookup id task).releaseOption
    (state.lookupKey task.key task.now).unlinked) := by
  intro key
  have counts : (state.afterLookup id task).emptyOf key + state.cellsOf key = _ :=
    afterLookup_counts
  cases (state.lookupKey task.key task.now).unlinked with
  | none => exact counts.le
  | some gone =>
      have fewer : ((state.afterLookup id task).release gone).emptyOf key ≤ _ := emptyOf_release
      rw [State.releaseOption, cellsOf_release]
      omega

end Cells

section Permits

/-- What a step does to the permit of its get, and to the cells that wait for one. -/
inductive PermitMove (state next : State) (task : Task) (pc : Pc) :
    Option (CachedResourceKey × KeyEvent) → Prop where
  | kept (same : pc.initializes.isSome = task.pc.initializes.isSome)
      (cells : NoneEmptied state next) : PermitMove state next task pc none
  | map (same : pc.initializes.isSome = task.pc.initializes.isSome)
      (cells : NoneEmptied state next) (key : CachedResourceKey) (kind : KeyEvent)
      (lost : kind = .evicted ∨ kind = .expired) : PermitMove state next task pc (some (key, kind))
  | began (before : task.pc.initializes.isSome = false) (after : pc.initializes.isSome = true)
      (cells : ∀ key, next.emptyOf key + (if task.key = key then 1 else 0) + state.cellsOf key ≤
        state.emptyOf key + next.cellsOf key) :
      PermitMove state next task pc (some (task.key, .began))
  | filled (before : task.pc.initializes.isSome = true) (after : pc.initializes.isSome = false)
      (cells : NoneEmptied state next) : PermitMove state next task pc (some (task.key, .filled))
  | gaveUp (before : task.pc.initializes.isSome = true) (after : pc.initializes.isSome = false)
      (cells : ∀ key, next.emptyOf key + state.cellsOf key ≤
        state.emptyOf key + (if task.key = key then 1 else 0) + next.cellsOf key) :
      PermitMove state next task pc (some (task.key, .gaveUp))

theorem abandon_permit {before : State} (slots : before.slots = state.slots)
    (held : state.cellAt cell = some (.initializing id))
    (keyed : state.keyAt cell = some task.key) (busy : task.pc.initializes.isSome = true)
    (done : pc.initializes.isSome = false) :
    PermitMove state (before.abandon id task cell pc) task pc (some (task.key, .gaveUp)) := by
  refine .gaveUp busy done ?_
  intro key
  have more : (before.abandon id task cell pc).emptyOf key ≤ before.emptyOf key + _ :=
    emptyOf_abandon (by rw [State.cellAt, slots]; exact held)
      (by rw [State.keyAt, slots]; exact keyed)
  have kept := same_slots slots key
  rw [cellsOf_abandon]
  omega

theorem move_permit (inv : Inv capacity state) (present : state.tasks[id]? = some task)
    (move : Move state id task action next) :
    ∃ pc, next.tasks = state.tasks.set id { task with pc := pc } ∧
      PermitMove state next task pc (keyEvent state action) := by
  have valid := inv.tasks id task present
  have keyed (own : CellId) (permit : task.pc.initializes = some own) :=
    (valid.own own (own_of_initializes permit)).1
  cases move with
  | lookup stage =>
      refine ⟨_, State.releaseOption_tasks _, ?_⟩
      have same : (Pc.joining (state.lookupKey task.key task.now).own).initializes.isSome =
          task.pc.initializes.isSome := by rw [stage]; rfl
      simp only [keyEvent, present, Option.bind_some]
      split
      · split
        · exact .map same lookup_slots _ _ (Or.inr rfl)
        · exact .kept same lookup_slots
      · cases state.map.displaced with
        | none => exact .kept same lookup_slots
        | some entry => exact .map same lookup_slots entry.1 _ (Or.inl rfl)
  | popEntry own fetched victimKey victim rest stage popped =>
      refine ⟨_, rfl, ?_⟩
      simp only [keyEvent, popped, Option.map_some]
      have same : (Pc.evicting own fetched victim).initializes.isSome =
          task.pc.initializes.isSome := by rw [stage]; rfl
      refine .map same ?_ _ _ (Or.inl rfl)
      exact same_slots rfl
  | popNothing own fetched stage exhausted =>
      refine ⟨_, rfl, ?_⟩
      simp only [keyEvent, exhausted, Option.map_none]
      exact .kept (by rw [stage]; rfl) (same_slots rfl)
  | joinFilled own resource stage found =>
      refine ⟨_, rfl, ?_⟩
      simp only [keyEvent, present, Option.bind_some, stage, found, Option.some.injEq, reduceCtorEq,
        if_false]
      exact .kept (by rw [stage]; rfl) (same_slots rfl)
  | joinEmpty own stage found =>
      refine ⟨_, rfl, ?_⟩
      simp only [keyEvent, present, Option.bind_some, stage, found, if_true]
      refine .began (by rw [stage]; rfl) rfl ?_
      intro key
      have keyed := (valid.own own (by rw [stage]; rfl)).1
      have counts : (state.setCell own (.initializing id)).emptyOf key + _ = _ :=
        emptyOf_setCell (.initializing id) found keyed
      simp only [reduceCtorEq, decide_false, Bool.and_false, Bool.toNat_false, decide_true,
        Bool.and_true] at counts
      have same : (state.setCell own (.initializing id)).cellsOf key = state.cellsOf key :=
        cellsOf_setCell _
      change (state.setCell own (.initializing id)).emptyOf key + _ + _ ≤
        _ + (state.setCell own (.initializing id)).cellsOf key
      rw [same]
      by_cases mine : task.key = key
      · rw [if_pos mine]
        simp only [mine, decide_true, Bool.toNat_true] at counts
        omega
      · rw [if_neg mine]
        simp only [mine, decide_false, Bool.toNat_false] at counts
        omega
  | answerNever answer stage =>
      refine ⟨_, rfl, ?_⟩
      simp only [keyEvent, present, Option.bind_some, stage]
      exact .kept (by rw [stage]; rfl) (same_slots rfl)
  | answerFound own resource stage =>
      refine ⟨_, rfl, ?_⟩
      simp only [keyEvent, present, Option.bind_some, stage]
      exact .kept (by rw [stage]; rfl) (same_slots rfl)
  | answerNone own stage =>
      refine ⟨_, State.abandon_tasks _ _ _, ?_⟩
      simp only [keyEvent, present, Option.bind_some, stage]
      have permit : task.pc.initializes = some own := by rw [stage]; rfl
      have busy : task.pc.initializes.isSome = true := by rw [permit]; rfl
      exact abandon_permit rfl (valid.permit own permit) (keyed own permit) busy rfl
  | answerError own failure stage =>
      refine ⟨_, State.abandon_tasks _ _ _, ?_⟩
      simp only [keyEvent, present, Option.bind_some, stage]
      have permit : task.pc.initializes = some own := by rw [stage]; rfl
      have busy : task.pc.initializes.isSome = true := by rw [permit]; rfl
      exact abandon_permit rfl (valid.permit own permit) (keyed own permit) busy rfl
  | storeOk own resource diskError file stage stored =>
      refine ⟨_, rfl, ?_⟩
      simp only [keyEvent, present, Option.bind_some, stage, stored]
      exact .kept (by rw [stage]; rfl) (same_slots rfl)
  | storeError own resource diskError failure stage stored =>
      refine ⟨_, State.abandon_tasks _ _ _, ?_⟩
      simp only [keyEvent, present, Option.bind_some, stage, stored]
      have permit : task.pc.initializes = some own := by rw [stage]; rfl
      have busy : task.pc.initializes.isSome = true := by rw [permit]; rfl
      exact abandon_permit rfl (valid.permit own permit) (keyed own permit) busy rfl
  | fill own fetched reservation clock stage =>
      refine ⟨_, rfl, ?_⟩
      simp only [keyEvent, present, Option.map_some]
      have permit : task.pc.initializes = some own := by rw [stage]; rfl
      refine .filled (by rw [permit]; rfl) rfl ?_
      intro key
      have counts : (state.setCell own
          (.filled (task.resource id fetched reservation clock))).emptyOf key + _ = _ :=
        emptyOf_setCell _ (valid.permit own permit) (keyed own permit)
      simp only [reduceCtorEq, decide_false, Bool.and_false, Bool.toNat_false] at counts
      have same : (state.setCell own
          (.filled (task.resource id fetched reservation clock))).cellsOf key =
            state.cellsOf key := cellsOf_setCell _
      exact Nat.add_le_add counts.le same.ge
  | cancelIdle stage =>
      refine ⟨_, rfl, ?_⟩
      have idle : task.pc.initializes = none := by
        rcases stage with stage | stage <;> rw [stage] <;> rfl
      simp only [keyEvent, present, Option.bind_some, idle, Option.isSome_none, Bool.false_eq_true,
        if_false]
      exact .kept (by rw [idle]; rfl) (same_slots rfl)
  | cancelJoined own stage =>
      refine ⟨_, State.release_tasks _ _, ?_⟩
      have idle : task.pc.initializes = none := by
        rcases stage with stage | ⟨_, stage⟩ <;> rw [stage] <;> rfl
      simp only [keyEvent, present, Option.bind_some, idle, Option.isSome_none, Bool.false_eq_true,
        if_false]
      exact .kept (by rw [idle]; rfl) (released_slots rfl)
  | cancelInit own stage =>
      refine ⟨_, State.abandon_tasks _ _ _, ?_⟩
      have busy := initializes_of_cancel stage
      simp only [keyEvent, present, Option.bind_some, busy, Option.isSome_some, if_true]
      exact abandon_permit rfl (valid.permit own busy) (keyed own busy) (by rw [busy]; rfl) rfl
  | reserveFailed own fetched locked stage refused =>
      refine ⟨_, rfl, .kept ?_ (same_slots rfl)⟩
      rw [stage]
      cases locked <;> rfl
  | evict own fetched victim stage =>
      exact ⟨_, State.release_tasks _ _, .kept (by rw [stage]; rfl) (released_slots rfl)⟩
  | respond own resource cloneError result stage shape =>
      exact ⟨_, State.release_tasks _ _, .kept (by rw [stage]; rfl) (released_slots rfl)⟩
  | acquireLookup stage | acquireEvict _ _ stage | reserveGranted _ _ _ _ _ stage
  | reserveUpTo _ _ _ _ stage | unlock _ _ _ stage | count _ _ stage =>
      exact ⟨_, rfl, .kept (by rw [stage]; rfl) (same_slots rfl)⟩

theorem move_underWay (present : state.tasks[id]? = some task)
    (tasks : next.tasks = state.tasks.set id { task with pc := pc })
    {event : Option (CachedResourceKey × KeyEvent)}
    (change : PermitMove state next task pc event) (key : CachedResourceKey) :
    hits event key .began + state.underWay key =
      next.underWay key + hits event key .filled + hits event key .gaveUp := by
  have counts := Arena.countP_set
    (fun task : Task => task.key = key && task.pc.initializes.isSome) { task with pc := pc } present
  have named : ({ task with pc := pc } : Task).key = task.key := rfl
  rw [← tasks] at counts
  change next.underWay key + _ = state.underWay key + _ at counts
  simp only [named] at counts
  cases change with
  | kept same =>
      rw [same] at counts
      simp only [hits, reduceCtorEq, if_false]
      omega
  | map same _ other kind lost =>
      rw [same] at counts
      rcases lost with rfl | rfl <;>
      · simp only [hits, Option.some.injEq, Prod.mk.injEq, reduceCtorEq, and_false, if_false]
        omega
  | began before after | filled before after | gaveUp before after =>
      rw [before, after] at counts
      by_cases own : task.key = key
      · simp [hits, own] at counts ⊢
        omega
      · simp [hits, own] at counts ⊢
        omega

/-- A fetch takes an empty cell, which is new or was left by a fetch that was given up. -/
theorem move_empty {event : Option (CachedResourceKey × KeyEvent)}
    (change : PermitMove state next task pc event) (key : CachedResourceKey) :
    hits event key .began + next.emptyOf key + state.cellsOf key ≤
      state.emptyOf key + hits event key .gaveUp + next.cellsOf key := by
  cases change with
  | kept _ cells =>
      have fewer := cells key
      simp only [hits, reduceCtorEq, if_false]
      omega
  | map _ cells other kind lost =>
      have fewer := cells key
      rcases lost with rfl | rfl <;>
      · simp only [hits, Option.some.injEq, Prod.mk.injEq, reduceCtorEq, and_false, if_false]
        omega
  | began _ _ cells | filled _ _ cells | gaveUp _ _ cells =>
      have fewer := cells key
      by_cases own : task.key = key
      · simp [hits, own] at fewer ⊢
        omega
      · simp [hits, own] at fewer ⊢
        omega

end Permits

section Entries

theorem mappedOf_some (member : (key, cell) ∈ state.map.entries) : state.mappedOf key = 1 :=
  if_pos (List.mem_map_of_mem member)

theorem mappedOf_le : state.mappedOf key ≤ 1 := by
  unfold State.mappedOf
  split
  · exact le_rfl
  · exact Nat.zero_le 1

theorem mappedOf_kept {event : Option (CachedResourceKey × KeyEvent)}
    (keeps : ∀ cell, (key, cell) ∈ state.map.entries →
      (∃ other, (key, other) ∈ next.map.entries) ∨ event = some (key, .evicted)) :
    state.mappedOf key ≤ next.mappedOf key + hits event key .evicted := by
  by_cases mapped : key ∈ state.map.entries.map Prod.fst
  · rcases List.mem_map.mp mapped with ⟨⟨owner, cell⟩, member, same⟩
    change owner = key at same
    subst owner
    rcases keeps cell member with ⟨other, kept⟩ | evicted
    · rw [mappedOf_some member, mappedOf_some kept]
      exact Nat.le_add_right 1 _
    · rw [mappedOf_some member, hits, if_pos evicted]
      exact Nat.le_add_left 1 _
  · rw [State.mappedOf, if_neg mapped]
    exact Nat.zero_le _

theorem lookup_mapped (inv : Inv capacity state) (present : state.tasks[id]? = some task)
    (key : CachedResourceKey) :
    ((state.afterLookup id task).releaseOption
        (state.lookupKey task.key task.now).unlinked).cellsOf key + state.mappedOf key ≤
      state.cellsOf key + ((state.afterLookup id task).releaseOption
        (state.lookupKey task.key task.now).unlinked).mappedOf key +
        hits (keyEvent state (.lookup id : Action T)) key .evicted +
          hits (keyEvent state (.lookup id : Action T)) key .expired := by
  have result := task_lookup_cases inv task.key task.now
  have cells : ((state.afterLookup id task).releaseOption
      (state.lookupKey task.key task.now).unlinked).cellsOf key = state.cellsOf key +
        if (state.lookupKey task.key task.now).allocates ∧ task.key = key then 1 else 0 := by
    rw [cellsOf_releaseOption, State.cellsOf, afterLookup_slots, State.cellsOf]
    by_cases allocates : (state.lookupKey task.key task.now).allocates = true
    · simp [allocates, List.countP_append, List.countP_singleton]
    · simp [allocates]
  have map : ((state.afterLookup id task).releaseOption
      (state.lookupKey task.key task.now).unlinked).map =
        (state.lookupKey task.key task.now).map := State.releaseOption_map _
  by_cases own : task.key = key
  · subst own
    have after : ((state.afterLookup id task).releaseOption
        (state.lookupKey task.key task.now).unlinked).mappedOf task.key = 1 :=
      mappedOf_some (by rw [map]; exact result.stored)
    rw [cells, after]
    cases result with
    | absent missing entries own allocates unlinked =>
        rw [State.mappedOf, if_neg missing]
        split <;> omega
    | expired old resource mapped filled expired entries own allocates unlinked =>
        have event : keyEvent state (.lookup id : Action T) = some (task.key, .expired) := by
          simp only [keyEvent, present, Option.bind_some, allocates, if_true]
          exact if_pos (List.mem_map_of_mem mapped)
        have most : state.mappedOf task.key ≤ 1 := mappedOf_le
        rw [event]
        simp only [hits, allocates, and_self, if_true]
        omega
    | shared old mapped fresh entries own allocates unlinked =>
        have most : state.mappedOf task.key ≤ 1 := mappedOf_le
        simp only [allocates, Bool.false_eq_true, false_and, if_false]
        omega
  · have kept : state.mappedOf key ≤ ((state.afterLookup id task).releaseOption
        (state.lookupKey task.key task.now).unlinked).mappedOf key +
          hits (keyEvent state (.lookup id : Action T)) key .evicted := by
      apply mappedOf_kept
      intro cell member
      rw [map]
      rcases result.keeps member with kept | ⟨-, ⟨missing, displaced, -⟩ | ⟨same, -⟩⟩
      · exact Or.inl ⟨cell, kept⟩
      · right
        simp only [keyEvent, present, Option.bind_some, if_neg missing, displaced, Option.map_some]
      · exact absurd same.symm own
    rw [cells, if_neg (fun both => own both.2)]
    omega

theorem cells_kept (map : next.map = state.map) (cells : next.cellsOf key = state.cellsOf key)
    (event : Option (CachedResourceKey × KeyEvent)) :
    next.cellsOf key + state.mappedOf key ≤ state.cellsOf key + next.mappedOf key +
      hits event key .evicted + hits event key .expired := by
  rw [cells, State.mappedOf, State.mappedOf, map]
  omega

theorem move_mapped (inv : Inv capacity state) (present : state.tasks[id]? = some task)
    (move : Move state id task action next) (key : CachedResourceKey) :
    next.cellsOf key + state.mappedOf key ≤ state.cellsOf key + next.mappedOf key +
      hits (keyEvent state action) key .evicted + hits (keyEvent state action) key .expired := by
  cases move with
  | lookup stage => exact lookup_mapped inv present key
  | popEntry own fetched victimKey victim rest stage popped =>
      have split := (LruCache.pop_some popped).1
      have kept : state.mappedOf key ≤
          ({ state with map := rest }.setPc id task (.evicting own fetched victim)).mappedOf key +
            hits (keyEvent state (.pop id : Action T)) key .evicted := by
        apply mappedOf_kept
        intro cell member
        rw [split] at member
        rcases List.mem_append.mp member with kept | last
        · exact Or.inl ⟨cell, kept⟩
        · right
          rw [List.mem_singleton] at last
          simp only [keyEvent, popped, Option.map_some, ← last]
      have cells : ({ state with map := rest }.setPc id task
          (.evicting own fetched victim)).cellsOf key = state.cellsOf key := rfl
      omega
  | joinEmpty own stage found => exact cells_kept (by rfl) (cellsOf_setCell _) _
  | fill own fetched reservation clock stage => exact cells_kept (by rfl) (cellsOf_setCell _) _
  | answerNone own stage => exact cells_kept (by simp) cellsOf_abandon _
  | answerError own failure stage => exact cells_kept (by simp) cellsOf_abandon _
  | storeError own resource diskError failure stage stored =>
      exact cells_kept (by simp) cellsOf_abandon _
  | cancelInit own stage => exact cells_kept (by simp) cellsOf_abandon _
  | evict own fetched victim stage => exact cells_kept (by simp) cellsOf_release _
  | respond own resource cloneError result stage shape =>
      exact cells_kept (by simp) cellsOf_release _
  | cancelJoined own stage => exact cells_kept (by simp) cellsOf_release _
  | _ => exact cells_kept rfl rfl _

end Entries

section Runs

variable [PathTree T] {slots : Nat} {positive : 0 < slots} {actions : List (Action T)}

theorem times_of_snoc {start : State} (kind : KeyEvent)
    (reached : Transition.run step start actions = some state) :
    timesOf start (actions ++ [action]) key kind =
      timesOf start actions key kind + hits (keyEvent state action) key kind := by
  rw [timesOf, timesOf, Transition.observed_snoc reached, List.count_append, hits]
  cases keyEvent state action with
  | none => simp
  | some event => simp [List.count_singleton]

/-- The books of a key: fetches against their ends, against the cells of the key, and these
against its entry. -/
structure Budget (start : State) (actions : List (Action T)) (state : State)
    (key : CachedResourceKey) : Prop where
  fetches : timesOf start actions key .began = state.underWay key +
    timesOf start actions key .filled + timesOf start actions key .gaveUp
  cells : timesOf start actions key .began + state.emptyOf key ≤
    timesOf start actions key .gaveUp + state.cellsOf key
  entries : state.cellsOf key ≤ state.mappedOf key +
    timesOf start actions key .evicted + timesOf start actions key .expired

theorem budget_start {start : State} (budget : Budget start actions state key)
    (reached : Transition.run step start actions = some state) (cache : Cache T) (path : String)
    (now : Instant) : Budget start (actions ++ [.start cache path now])
      (state.start cache path now) key := by
  rcases start_started state cache path now with ⟨fresh, started⟩
  have idle : fresh.pc.initializes.isSome = false := by
    rcases started.stage with ⟨stage, -⟩ | ⟨stage, -⟩ | ⟨stage, -⟩ | ⟨stage, -⟩ <;>
      rw [stage] <;> rfl
  have same (kind : KeyEvent) : timesOf start (actions ++ [.start cache path now]) key kind =
      timesOf start actions key kind := times_of_snoc kind reached
  have underWay : (state.start cache path now).underWay key = state.underWay key := by
    rw [State.underWay, started.tasks, List.countP_append, List.countP_singleton, idle]
    simp [State.underWay]
  have empty : (state.start cache path now).emptyOf key = state.emptyOf key := by
    rw [State.emptyOf, started.slots, State.emptyOf]
  have cells : (state.start cache path now).cellsOf key = state.cellsOf key := by
    rw [State.cellsOf, started.slots, State.cellsOf]
  have mapped : (state.start cache path now).mappedOf key = state.mappedOf key := by
    rw [State.mappedOf, started.map, State.mappedOf]
  constructor
  · rw [same, same, same, underWay]
    exact budget.fetches
  · rw [same, same, empty, cells]
    exact budget.cells
  · rw [same, same, cells, mapped]
    exact budget.entries

theorem budget_move {start : State} (inv : Inv capacity state)
    (budget : Budget start actions state key)
    (reached : Transition.run step start actions = some state)
    (present : state.tasks[id]? = some task) (move : Move state id task action next) :
    Budget start (actions ++ [action]) next key := by
  rcases move_permit inv present move with ⟨pc, tasks, change⟩
  have fetches := move_underWay present tasks change key
  have cells := move_empty change key
  have entries := move_mapped inv present move key
  have before := budget.fetches
  have room := budget.cells
  have left := budget.entries
  constructor
  · rw [times_of_snoc _ reached, times_of_snoc _ reached, times_of_snoc _ reached]
    omega
  · rw [times_of_snoc _ reached, times_of_snoc _ reached]
    omega
  · rw [times_of_snoc _ reached, times_of_snoc _ reached]
    omega

theorem run_budget
    (reached : Transition.run step (initial capacity slots positive) actions = some state)
    (key : CachedResourceKey) : Budget (initial capacity slots positive) actions state key := by
  refine Transition.run_induction
    (fun actions state => Budget (initial capacity slots positive) actions state key) ?_ ?_ reached
  · constructor <;> simp [timesOf, Transition.observed, State.underWay, State.emptyOf, State.cellsOf,
      initial]
  · intro actions state action next earlier budget taken
    rcases step_moves taken with ⟨cache, path, now, rfl, rfl⟩ | ⟨id, task, present, move⟩
    · exact budget_start budget earlier cache path now
    · exact budget_move (run_inv earlier) budget earlier present move

/-- Every fetch for a key fills a cell, is given up or is under way, and there are no more of
them than one, and one for each time that the entry of the key was evicted or found expired
or that a fetch for the key was given up. -/
theorem fetches_budgeted
    (reached : Transition.run step (initial capacity slots positive) actions = some state)
    (key : CachedResourceKey) :
    timesOf (initial capacity slots positive) actions key .began =
        state.underWay key + timesOf (initial capacity slots positive) actions key .filled +
          timesOf (initial capacity slots positive) actions key .gaveUp ∧
      timesOf (initial capacity slots positive) actions key .began ≤
        1 + timesOf (initial capacity slots positive) actions key .evicted +
          timesOf (initial capacity slots positive) actions key .expired +
          timesOf (initial capacity slots positive) actions key .gaveUp := by
  have budget := run_budget reached key
  have room := budget.cells
  have left := budget.entries
  have most : state.mappedOf key ≤ 1 := mappedOf_le
  exact ⟨budget.fetches, by omega⟩

end Runs

/-- The first fetch fails, the second fills its cell, the third refreshes it. -/
def thriceFetched : List (Action LiteralTree) :=
  fetchActions shortCache "/a" epoch 0 (.ok none) ++
    fetchActions shortCache "/a" epoch 1 (plainBody [1]) ++ fillActions 1 ⟨epoch, ⟨0⟩⟩ ++
    [.start shortCache "/a" fiveSeconds, .acquire 2, .lookup 2, .join 2]

theorem fetches_budgeted_thrice :
    timesOf (initial 10 2 (by decide)) thriceFetched ⟨"files", "/a"⟩ .began = 3 ∧
      3 ≤ 1 + timesOf (initial 10 2 (by decide)) thriceFetched ⟨"files", "/a"⟩ .evicted +
        timesOf (initial 10 2 (by decide)) thriceFetched ⟨"files", "/a"⟩ .expired +
        timesOf (initial 10 2 (by decide)) thriceFetched ⟨"files", "/a"⟩ .gaveUp := by
  have ran : (Transition.run step (initial 10 2 (by decide)) thriceFetched).isSome := rfl
  rcases Option.isSome_iff_exists.mp ran with ⟨state, reached⟩
  have count : timesOf (initial 10 2 (by decide)) thriceFetched ⟨"files", "/a"⟩ .began = 3 := rfl
  have budget := (fetches_budgeted reached ⟨"files", "/a"⟩).2
  rw [count] at budget
  exact ⟨count, budget⟩

end Server3.Machine
