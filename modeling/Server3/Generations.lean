import Server3.Freshness
import Server3.Progress
import Server3.SingleFlight

/-! The cells of a key follow one another: a new one comes only when the one before has
left the map, by an eviction or by its expiry. -/

namespace Server3.Machine

open Clock Routes Upstream Resource Recency

variable {T : Type → Type} {capacity : UInt64} {state next : State} {id : TaskId} {task : Task}
  {action : Action T} {actions : List (Action T)} {key : CachedResourceKey} {cell : CellId}

section Moves

theorem move_entry_back (inv : Inv capacity state) (move : Move state id task action next)
    (member : (key, cell) ∈ next.map.entries) :
    (key, cell) ∈ state.map.entries ∨ state.keyAt cell = none := by
  cases move with
  | lookup stage =>
      have result := task_lookup_cases inv task.key task.now
      rw [State.releaseOption_map] at member
      rcases result.member member with ⟨rfl, rfl⟩ | older
      · rcases result.owned with ⟨-, own⟩ | ⟨-, mapped⟩
        · exact Or.inr (by simp [State.keyAt, own])
        · exact Or.inl mapped
      · exact Or.inl older
  | popEntry own fetched popped victim rest stage taken =>
      left
      rw [(LruCache.pop_some taken).1]
      exact List.mem_append_left _ member
  | _ =>
      left
      first
      | exact member
      | simp only [State.release_map, State.abandon_map] at member
        exact member

theorem move_own (inv : Inv capacity state) (move : Move state id task action next) :
    ∃ pc, next.tasks = state.tasks.set id { task with pc := pc } ∧
      (∀ cell, task.pc.own = some cell → pc.own = some cell ∨ pc.ended = true) ∧
      ∀ cell, pc.own = some cell → task.pc.own = some cell ∨
        (action = .lookup id ∧ task.pc = .lookup ∧ (task.key, cell) ∈ next.map.entries) := by
  cases move with
  | lookup stage =>
      refine ⟨_, State.releaseOption_tasks _, ?_, ?_⟩
      · intro cell own
        rw [stage] at own
        cases own
      · intro cell own
        cases own
        rw [State.releaseOption_map]
        exact Or.inr ⟨rfl, stage, (task_lookup_cases inv task.key task.now).stored⟩
  | answerNone own stage | answerError own _ stage | storeError own _ _ _ stage
  | cancelInit own stage =>
      exact ⟨_, State.abandon_tasks _ _ _, fun _ _ => Or.inr rfl, by rintro _ ⟨⟩⟩
  | respond own resource cloneError result stage shape =>
      exact ⟨_, State.release_tasks _ _, fun _ _ => Or.inr rfl, by rintro _ ⟨⟩⟩
  | cancelJoined own stage =>
      exact ⟨_, State.release_tasks _ _, fun _ _ => Or.inr rfl, by rintro _ ⟨⟩⟩
  | cancelIdle stage => exact ⟨_, rfl, fun _ _ => Or.inr rfl, by rintro _ ⟨⟩⟩
  | answerNever answer stage => exact ⟨_, rfl, fun _ _ => Or.inr rfl, by rintro _ ⟨⟩⟩
  | acquireLookup stage => exact ⟨_, rfl, by rw [stage]; rintro _ ⟨⟩, by rintro _ ⟨⟩⟩
  | evict own fetched victim stage =>
      exact ⟨_, State.release_tasks _ _, fun _ held => Or.inl (by rw [stage] at held; exact held),
        fun _ held => Or.inl (by rw [stage]; exact held)⟩
  | reserveFailed own fetched locked stage refused =>
      refine ⟨_, rfl, ?_, ?_⟩
      · intro cell held
        rw [stage] at held
        cases locked <;> exact Or.inl held
      · intro cell held
        rw [stage]
        cases locked <;> exact Or.inl held
  | acquireEvict _ _ stage | joinFilled _ _ stage | joinEmpty _ stage | answerFound _ _ stage
  | storeOk _ _ _ _ stage | reserveGranted _ _ _ _ _ stage | popEntry _ _ _ _ _ stage
  | popNothing _ _ stage | reserveUpTo _ _ _ _ stage | unlock _ _ _ stage | fill _ _ _ _ stage
  | count _ _ stage =>
      exact ⟨_, rfl, fun _ held => Or.inl (by rw [stage] at held; exact held),
        fun _ held => Or.inl (by rw [stage]; exact held)⟩

theorem unmapped_of_gone (inv : Inv capacity state) (known : state.keyAt cell = some key)
    (gone : (key, cell) ∉ state.map.entries) : state.mapped cell = false := by
  rw [not_mapped_iff]
  intro other again
  have same := (inv.entries other cell again).key
  rw [known, Option.some.injEq] at same
  exact gone (same ▸ again)

/-- An entry leaves the map by an eviction, or as the expired one of the key that is looked
up. -/
theorem move_unlinks (inv : Inv capacity state) (present : state.tasks[id]? = some task)
    (move : Move state id task action next) (member : (key, cell) ∈ state.map.entries)
    (gone : (key, cell) ∉ next.map.entries) :
    Evicts state action next key cell ∨ (action = .lookup id ∧ task.key = key ∧
      ∃ resource, state.cellAt cell = some (.filled resource) ∧
        resource.isExpired task.now = true) := by
  have known := move_keeps_key move (inv.entries key cell member).key
  have unmapped := unmapped_of_gone (move_inv inv present move) known gone
  cases move with
  | lookup stage =>
      rw [State.releaseOption_map] at gone
      rcases (task_lookup_cases inv task.key task.now).keeps member with
        kept | ⟨-, ⟨missing, displaced, -⟩ | ⟨same, found⟩⟩
      · exact absurd kept gone
      · exact Or.inl ⟨member, unmapped, Or.inr ⟨id, task, rfl, present, missing, displaced⟩⟩
      · exact Or.inr ⟨rfl, same.symm, found⟩
  | popEntry own fetched poppedKey victim rest stage popped =>
      have split := (LruCache.pop_some popped).1
      have last := member
      rw [split] at last
      rcases List.mem_append.mp last with kept | last
      · exact absurd kept gone
      · rw [List.mem_singleton] at last
        rw [← last] at popped
        exact Or.inl ⟨member, unmapped, Or.inl ⟨id, rest, rfl, popped⟩⟩
  | _ =>
      first
      | exact absurd member gone
      | simp only [State.release_map, State.abandon_map] at gone
        exact absurd member gone

theorem move_allocates (move : Move state id task action next)
    (unknown : state.keyAt cell = none) (known : next.keyAt cell = some key) :
    action = .lookup id := by
  cases move with
  | lookup stage => rfl
  | fill own fetched reservation clock stage =>
      have same := (State.setCell_keyAt _ _ _ _).symm.trans known
      exact absurd (unknown.symm.trans same) nofun
  | joinEmpty own stage found =>
      have same := (State.setCell_keyAt _ _ _ _).symm.trans known
      exact absurd (unknown.symm.trans same) nofun
  | _ =>
      exfalso
      first
      | exact absurd (unknown.symm.trans known) nofun
      | simp only [State.release_keyAt, State.abandon_keyAt] at known
        exact absurd (unknown.symm.trans known) nofun

theorem newest_move (inv : Inv capacity state) (present : state.tasks[id]? = some task)
    (newest : ∀ key cell other, (key, cell) ∈ state.map.entries →
      state.keyAt other = some key → other ≤ cell)
    (move : Move state id task action next) {other : CellId}
    (member : (key, cell) ∈ next.map.entries) (known : next.keyAt other = some key) :
    other ≤ cell := by
  have alive := move_inv inv present move
  rcases move_keyAt inv move known with older | ⟨-, -, mapped⟩
  · rcases move_entry_back inv move member with entry | fresh
    · exact newest key cell other entry older
    · -- a new cell has an index past all others
      rcases Option.map_eq_some_iff.mp older with ⟨slot, found, -⟩
      have bound := Arena.get_lt found
      rw [State.keyAt, Option.map_eq_none_iff, List.getElem?_eq_none_iff] at fresh
      exact (Nat.lt_of_lt_of_le bound fresh).le
  · exact (LruCache.entry_unique mapped member).le

end Moves

section History

variable [PathTree T] {start : State}

def Evicted (start : State) (actions : List (Action T)) (key : CachedResourceKey)
    (cell : CellId) : Prop :=
  ∃ before action after middle next, actions = before ++ action :: after ∧
    Transition.run step start before = some middle ∧ step middle action = some next ∧
    Evicts middle action next key cell

def Outlived (start : State) (actions : List (Action T)) (key : CachedResourceKey)
    (cell : CellId) : Prop :=
  ∃ before id after middle task resource, actions = before ++ .lookup id :: after ∧
    Transition.run step start before = some middle ∧ middle.tasks[id]? = some task ∧
    task.key = key ∧ middle.cellAt cell = some (.filled resource) ∧
    resource.isExpired task.now = true

theorem evicted_snoc (evicted : Evicted start actions key cell) (action : Action T) :
    Evicted start (actions ++ [action]) key cell := by
  rcases evicted with ⟨before, earlier, after, middle, next, split, rest⟩
  exact ⟨before, earlier, after ++ [action], middle, next, by simp [split], rest⟩

theorem outlived_snoc (outlived : Outlived start actions key cell) (action : Action T) :
    Outlived start (actions ++ [action]) key cell := by
  rcases outlived with ⟨before, id, after, middle, task, resource, split, rest⟩
  exact ⟨before, id, after ++ [action], middle, task, resource, by simp [split], rest⟩

/-- The mapped cell of a key is its newest, and all others of the key have been evicted or
were found expired. -/
structure Generations (start : State) (actions : List (Action T)) (state : State) : Prop where
  newest : ∀ key cell other, (key, cell) ∈ state.map.entries →
    state.keyAt other = some key → other ≤ cell
  left : ∀ key cell, state.keyAt cell = some key → (key, cell) ∉ state.map.entries →
    Evicted start actions key cell ∨ Outlived start actions key cell

theorem generations_move (inv : Inv capacity state)
    (reached : Transition.run step start actions = some state)
    (before : Generations start actions state) (present : state.tasks[id]? = some task)
    (move : Move state id task action next) : Generations start (actions ++ [action]) next := by
  constructor
  · intro key cell other member known
    exact newest_move inv present before.newest move member known
  · intro key cell known gone
    rcases move_keyAt inv move known with older | ⟨-, -, mapped⟩
    · by_cases member : (key, cell) ∈ state.map.entries
      · rcases move_unlinks inv present move member gone with evicts | ⟨shape, same, found⟩
        · exact Or.inl ⟨actions, action, [], state, next, rfl, reached, move_taken present move,
            evicts⟩
        · rcases found with ⟨resource, filled, expired⟩
          subst shape
          exact Or.inr ⟨actions, id, [], state, task, resource, rfl, reached, present, same,
            filled, expired⟩
      · exact (before.left key cell older member).imp (fun evicted => evicted_snoc evicted action)
          fun outlived => outlived_snoc outlived action
    · exact absurd mapped gone

theorem run_generations {slots : Nat} {positive : 0 < slots}
    (reached : Transition.run step (initial capacity slots positive) actions = some state) :
    Generations (initial capacity slots positive) actions state := by
  refine Transition.run_induction (Generations (initial capacity slots positive)) ?_ ?_ reached
  · constructor
    · intro key cell other member
      simp [initial, LruCache.new] at member
    · intro key cell known
      simp [initial, State.keyAt] at known
  · intro actions state action next earlier before taken
    rcases step_moves taken with ⟨cache, path, now, rfl, rfl⟩ | ⟨id, task, present, move⟩
    · rcases start_started state cache path now with ⟨fresh, started⟩
      constructor
      · intro key cell other member known
        rw [started.map] at member
        rw [started.keyAt] at known
        exact before.newest key cell other member known
      · intro key cell known gone
        rw [started.map] at gone
        rw [started.keyAt] at known
        exact (before.left key cell known gone).imp (fun evicted => evicted_snoc evicted _)
          fun outlived => outlived_snoc outlived _
    · exact generations_move (run_inv earlier) earlier before present move

/-- A get that asks its upstream for a key that has been cached before does so because the
cached copy was evicted or found expired, or because the cell that it fetches for was itself
evicted before it was filled. -/
theorem refetch_justified {slots : Nat} {positive : 0 < slots} {other : CellId}
    (reached : Transition.run step (initial capacity slots positive) actions = some state)
    (present : state.tasks[id]? = some task) (asks : task.pc.initializes = some cell)
    (cached : other ∈ filledCells (initial capacity slots positive) actions)
    (same : state.keyAt other = some task.key) :
    Evicted (initial capacity slots positive) actions task.key other ∨
      Outlived (initial capacity slots positive) actions task.key other ∨
      EvictedUnfilled (initial capacity slots positive) actions task.key cell := by
  have valid := (run_inv reached).tasks id task present
  have permit := valid.permit cell asks
  have known := (valid.own cell (own_of_initializes asks)).1
  rcases run_tracked reached with ⟨tracked, once⟩
  have different : other ≠ cell := by
    rintro rfl
    cases (once.settled other cached).2 _ permit
  rcases tracked cell task.key _ known permit rfl with mapped | evicted
  · have gone : (task.key, other) ∉ state.map.entries :=
      fun member => different (LruCache.entry_unique member mapped)
    exact ((run_generations reached).left task.key other same gone).imp_right Or.inl
  · exact Or.inr (Or.inr evicted)

end History

/-- The first get caches its resource for two seconds; the second comes after five. -/
def refreshing : List (Action LiteralTree) :=
  fetchActions shortCache "/a" epoch 0 (plainBody [1]) ++ fillActions 0 ⟨epoch, ⟨0⟩⟩ ++
    [.start shortCache "/a" fiveSeconds, .acquire 1, .lookup 1, .join 1]

theorem refetch_justified_refreshing :
    Evicted (initial 10 2 (by decide)) refreshing ⟨"files", "/a"⟩ 0 ∨
      Outlived (initial 10 2 (by decide)) refreshing ⟨"files", "/a"⟩ 0 ∨
      EvictedUnfilled (initial 10 2 (by decide)) refreshing ⟨"files", "/a"⟩ 1 := by
  have shape : (Transition.run step (initial 10 2 (by decide)) refreshing).bind
      (fun state => (state.tasks[1]?).map fun task =>
        (task.key, task.pc.initializes, state.keyAt 0)) =
        some (⟨"files", "/a"⟩, some 1, some ⟨"files", "/a"⟩) := rfl
  rcases Option.bind_eq_some_iff.mp shape with ⟨state, reached, found⟩
  rcases Option.map_eq_some_iff.mp found with ⟨task, present, place⟩
  obtain ⟨key, rest⟩ := Prod.mk.inj place
  obtain ⟨asks, known⟩ := Prod.mk.inj rest
  have cached : 0 ∈ filledCells (initial 10 2 (by decide)) refreshing := by
    have cells : filledCells (initial 10 2 (by decide)) refreshing = [0] := rfl
    rw [cells]
    exact List.mem_singleton_self 0
  exact key ▸ refetch_justified reached present asks cached (key ▸ known)

end Server3.Machine
