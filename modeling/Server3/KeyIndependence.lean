import Server3.Termination

/-! How far a get depends on the gets of other keys. It shares the lock of the map with
them, and who has the lock waits for nothing; their upstreams and files may stall for
ever without holding it up. -/

namespace Server3.Machine

open Clock Routes Upstream Resource Recency
open CapacityPool (CacheCapacityPool CacheCapacityReservation)

/-- A step of a get that waits neither for an upstream nor for the disk. -/
def Action.inside {T : Type → Type} : Action T → Bool
  | .acquire _ | .lookup _ | .join _ | .reserve _ | .pop _ | .evict _ | .reserveUpTo _
  | .unlock _ | .fill _ _ | .count _ => true
  | .start _ _ _ | .answer _ _ | .store _ _ | .respond _ _ | .cancel _ => false

/-- The get waits for no other key: it has ended, waits for its own upstream or the disk,
or for the get of its key that fetches for both. -/
inductive Unhindered (state : State) (id : TaskId) (key : CachedResourceKey) : Prop where
  | ended (task : Task) (present : state.tasks[id]? = some task) (own : task.key = key)
      (done : task.pc.ended = true)
  | outside (task : Task) (present : state.tasks[id]? = some task) (own : task.key = key)
      (waits : task.pc.outside = true)
  | joined (task other : Task) (cell : CellId) (holder : TaskId)
      (present : state.tasks[id]? = some task) (own : task.key = key)
      (stage : task.pc = .joining cell) (found : state.tasks[holder]? = some other)
      (same : other.key = key) (permit : other.pc.initializes = some cell)

def Action.Within {T : Type → Type} (gets : List TaskId) (action : Action T) : Prop :=
  action.inside = true ∧ ∃ id ∈ gets, action.advances = some id

def Action.acquires {T : Type → Type} : Action T → Option TaskId
  | .acquire id => some id
  | _ => none

/-- The gets that the lock is handed to, in this order. -/
def handovers {T : Type → Type} (actions : List (Action T)) : List TaskId :=
  actions.filterMap Action.acquires

/-- How often the get can still take the lock before it waits for the outside. -/
def Pc.locks : Pc → Nat
  | .lookupLock | .evictLock _ _ | .reserving _ _ false => 1
  | _ => 0

variable {T : Type → Type} {capacity : UInt64} {state next : State} {id : TaskId} {task : Task}
  {action : Action T}

theorem inside_request (inside : action.inside = true) : action.request = none := by
  cases action with
  | start => cases inside
  | _ => rfl

theorem within_one : action.Within [id] ↔ action.inside = true ∧ action.advances = some id := by
  simp [Action.Within]

theorem within_subset {gets more : List TaskId} (among : gets ⊆ more)
    (within : action.Within gets) : action.Within more := by
  rcases within with ⟨inside, other, member, own⟩
  exact ⟨inside, other, among member, own⟩

theorem move_advances {mover : TaskId} (move : Move state mover task action next)
    (own : action.advances = some id) : mover = id := by
  cases move with
  | cancelIdle | cancelJoined | cancelInit => cases own
  | _ => exact Option.some.inj own

theorem move_inside (move : Move state id task action next) (inside : task.pc.outside = false)
    (own : action.advances = some id) : action.inside = true := by
  cases move with
  | answerNever _ stage | answerFound _ _ stage | answerNone _ stage | answerError _ _ stage
  | storeOk _ _ _ _ stage | storeError _ _ _ _ stage | respond _ _ _ _ stage =>
      rw [stage] at inside
      cases inside
  | cancelIdle | cancelJoined | cancelInit => cases own
  | _ => rfl

section Steps

variable [PathTree T]

theorem ready_inside (present : state.tasks[id]? = some task) (inside : task.pc.outside = false)
    (ready : Ready T state id) : ∃ (action : Action T) (next : State), action.inside = true ∧
      action.advances = some id ∧ step state action = some next := by
  rcases ready with ⟨action, next, own, taken⟩
  rcases step_moves taken with ⟨cache, path, now, rfl, rfl⟩ | ⟨mover, found, among, move⟩
  · cases own
  · have same := move_advances move own
    subst mover
    rw [present, Option.some.injEq] at among
    subst found
    exact ⟨action, next, move_inside move inside own, own, taken⟩

variable (T) in
theorem holder_inside {other : TaskId} (inv : Inv capacity state)
    (held : state.lock = some other) : ∃ (action : Action T) (next : State),
      action.inside = true ∧ action.advances = some other ∧ step state action = some next := by
  rcases lock_holder inv held with ⟨found, present, busy, inside, near⟩
  have ready : Ready T state other := ready_of_near present busy inside near
  exact ready_inside present inside ready

omit [PathTree T] in
theorem joined_unhindered {cell : CellId} {other : TaskId} (inv : Inv capacity state)
    (present : state.tasks[id]? = some task) (stage : task.pc = .joining cell)
    (held : state.cellAt cell = some (.initializing other)) : Unhindered state id task.key := by
  rcases inv.permits cell other held with ⟨found, among, permit⟩
  have mine := ((inv.tasks id task present).own cell (by rw [stage]; rfl)).1
  have theirs := ((inv.tasks other found among).own cell (own_of_initializes permit)).1
  rw [mine, Option.some.injEq] at theirs
  exact .joined task found cell other present rfl stage among theirs.symm permit

variable (T) in
/-- A get that is held up is one step of its own, or of who has the lock, away from going on. -/
theorem unhindered_or_steps (inv : Inv capacity state) (present : state.tasks[id]? = some task) :
    Unhindered state id task.key ∨ ∃ (other : TaskId) (action : Action T) (next : State),
      (other = id ∨ state.lock = some other) ∧ action.Within [other] ∧
        step state action = some next := by
  cases ended : task.pc.ended with
  | true => exact Or.inl (.ended task present rfl ended)
  | false =>
      cases inside : task.pc.outside with
      | true => exact Or.inl (.outside task present rfl inside)
      | false =>
          rcases ready_or_waits T inv present ended inside with ready | ⟨other, waits⟩
          · right
            rcases ready_inside present inside ready with ⟨action, next, inner, own, taken⟩
            exact ⟨id, action, next, Or.inl rfl, within_one.mpr ⟨inner, own⟩, taken⟩
          · cases waits with
            | lock wanted held =>
                right
                rcases holder_inside T inv held with ⟨action, next, inner, own, taken⟩
                exact ⟨other, action, next, Or.inr held, within_one.mpr ⟨inner, own⟩, taken⟩
            | permit cell wanted held =>
                left
                exact joined_unhindered inv present (joining_of_wants wanted) held

omit [PathTree T] in
theorem move_locks (move : Move state id task action next) (inside : action.inside = true) :
    ∃ pc, next.tasks = state.tasks.set id { task with pc := pc } ∧
      (handovers [action]).length + pc.locks ≤ task.pc.locks := by
  cases move with
  | acquireLookup stage unlocked => exact ⟨_, rfl, by rw [stage]; exact le_rfl⟩
  | acquireEvict cell fetched stage unlocked => exact ⟨_, rfl, by rw [stage]; exact le_rfl⟩
  | reserveFailed cell fetched locked stage refused =>
      refine ⟨_, rfl, ?_⟩
      rw [stage]
      cases locked <;> exact le_rfl
  | lookup stage => exact ⟨_, State.releaseOption_tasks _, Nat.zero_le _⟩
  | evict cell fetched victim stage => exact ⟨_, State.release_tasks _ _, Nat.zero_le _⟩
  | joinFilled | joinEmpty | reserveGranted | popEntry | popNothing | reserveUpTo | unlock | fill
  | count => exact ⟨_, rfl, Nat.zero_le _⟩
  | answerNever | answerFound | answerNone | answerError | storeOk | storeError | respond
  | cancelIdle | cancelJoined | cancelInit => cases inside

theorem step_within (present : state.tasks[id]? = some task) (own : action.Within [id])
    (taken : step state action = some next) :
    ∃ pc, next.tasks = state.tasks.set id { task with pc := pc } ∧
      (handovers [action]).length + pc.locks ≤ task.pc.locks ∧
      next.map.capacity = state.map.capacity ∧
      (state.lock = none ∨ state.lock = some id → next.lock = none ∨ next.lock = some id) := by
  rcases within_one.mp own with ⟨inside, advances⟩
  rcases step_moves taken with ⟨cache, path, now, rfl, rfl⟩ | ⟨mover, found, among, move⟩
  · cases inside
  · obtain rfl := move_advances move advances
    obtain rfl : found = task := Option.some.inj (among.symm.trans present)
    rcases move_locks move inside with ⟨pc, tasks, fewer⟩
    refine ⟨pc, tasks, fewer, move_capacity move, ?_⟩
    intro free
    rcases move_lock move with ⟨_, -, change, -⟩
    cases change with
    | kept _ lock =>
        rw [lock]
        exact free
    | taken _ _ _ lock => exact Or.inr lock
    | released _ _ lock => exact Or.inl lock

/-- Steps inside of the gets, with the lock handed out in the order. -/
structure Passage (capacity : UInt64) (gets order : List TaskId) (state : State)
    (later : List (Action T)) (final : State) : Prop where
  within : ∀ action ∈ later, action.Within gets
  handed : handovers later = order
  ran : Transition.run step state later = some final
  inv : Inv capacity final
  slots : final.map.capacity = state.map.capacity
  others : ∀ other, other ∉ gets → final.tasks[other]? = state.tasks[other]?
  keys : ∀ (other : TaskId) task, state.tasks[other]? = some task →
    ∃ after, final.tasks[other]? = some after ∧ after.key = task.key
  short : later.length ≤ gets.length * stepBound state.map.capacity

variable {gets more order rest : List TaskId} {middle final : State}
  {first second later : List (Action T)}

variable (T) in
theorem passage_nil (inv : Inv capacity state) :
    Passage capacity [] [] state ([] : List (Action T)) state where
  within := by simp
  handed := rfl
  ran := rfl
  inv := inv
  slots := rfl
  others := fun _ _ => rfl
  keys := fun _ task present => ⟨task, present, rfl⟩
  short := Nat.zero_le _

theorem passage_append (one : Passage capacity gets order state first middle)
    (two : Passage capacity more rest middle second final) :
    Passage capacity (gets ++ more) (order ++ rest) state (first ++ second) final where
  within := by
    intro action member
    rcases List.mem_append.mp member with early | late
    · exact within_subset (List.subset_append_left _ _) (one.within action early)
    · exact within_subset (List.subset_append_right _ _) (two.within action late)
  handed := by
    rw [← one.handed, ← two.handed]
    exact List.filterMap_append
  ran := by
    rw [Transition.run_append, one.ran]
    exact two.ran
  inv := two.inv
  slots := two.slots.trans one.slots
  others := by
    intro other outside
    rw [List.mem_append, not_or] at outside
    exact (two.others other outside.2).trans (one.others other outside.1)
  keys := by
    intro other task present
    rcases one.keys other task present with ⟨between, there, same⟩
    rcases two.keys other between there with ⟨after, found, again⟩
    exact ⟨after, found, again.trans same⟩
  short := by
    have early := one.short
    have late := two.short
    rw [one.slots] at late
    rw [List.length_append, List.length_append, Nat.add_mul]
    omega

theorem within_run (inv : Inv capacity state) (present : state.tasks[id]? = some task)
    (own : ∀ action ∈ later, action.Within [id])
    (ran : Transition.run step state later = some final) :
    Inv capacity final ∧ final.map.capacity = state.map.capacity ∧
      (∀ other, other ≠ id → final.tasks[other]? = state.tasks[other]?) ∧
      (∃ after, final.tasks[id]? = some after ∧ after.key = task.key) ∧
      (handovers later).length ≤ task.pc.locks := by
  induction later generalizing state task with
  | nil =>
      cases ran
      exact ⟨inv, rfl, fun _ _ => rfl, ⟨task, present, rfl⟩, Nat.zero_le _⟩
  | cons action later ih =>
      rcases Option.bind_eq_some_iff.mp ran with ⟨next, taken, onward⟩
      rcases step_within present (own action List.mem_cons_self) taken with
        ⟨pc, tasks, fewer, slots, -⟩
      have moved : next.tasks[id]? = some { task with pc := pc } := by
        rw [tasks]
        exact Arena.get_set_self _ present
      rcases ih (step_inv inv taken) moved
          (fun other member => own other (List.mem_cons_of_mem _ member)) onward with
        ⟨kept, same, others, key, few⟩
      refine ⟨kept, same.trans slots, ?_, key, ?_⟩
      · intro other different
        rw [others other different, tasks]
        exact Arena.get_set_other _ _ (Ne.symm different)
      · have split : handovers (action :: later) = handovers [action] ++ handovers later :=
          List.filterMap_append (l := [action])
        rw [split, List.length_append]
        have few : (handovers later).length ≤ pc.locks := few
        omega

theorem own_passage (inv : Inv capacity state) (present : state.tasks[id]? = some task)
    (own : ∀ action ∈ later, action.Within [id])
    (ran : Transition.run step state later = some final) (short : later.length ≤ state.left id) :
    Passage capacity [id] (handovers later) state later final := by
  rcases within_run inv present own ran with ⟨kept, slots, others, key, -⟩
  refine ⟨own, rfl, ran, kept, slots, ?_, ?_, ?_⟩
  · intro other outside
    exact others other (by simpa using outside)
  · intro other found among
    by_cases same : other = id
    · subst same
      obtain rfl : task = found := Option.some.inj (present.symm.trans among)
      exact key
    · exact ⟨found, (others other same).trans among, rfl⟩
  · rw [List.length_singleton, Nat.one_mul]
    exact short.trans left_bounded

theorem step_spends (inv : Inv capacity state) (own : action.Within [id])
    (taken : step state action = some next) : next.left id < state.left id := by
  have spent : _ + next.left id ≤ state.left id := step_left inv taken
  rcases within_one.mp own with ⟨inside, advances⟩
  rcases step_moves taken with ⟨cache, path, now, rfl, rfl⟩ | ⟨mover, found, among, move⟩
  · cases inside
  · rw [move_taskId move, move_advances move advances, if_pos rfl] at spent
    omega

variable (T) in
theorem lock_released (inv : Inv capacity state) (held : state.lock = some id) :
    ∃ (later : List (Action T)) (final : State), (∀ action ∈ later, action.Within [id]) ∧
      handovers later = [] ∧ Transition.run step state later = some final ∧ final.lock = none ∧
      later.length ≤ state.left id := by
  let holds (middle : State) : Prop :=
    Inv capacity middle ∧ (middle.lock = none ∨ middle.lock = some id)
  have progress (middle : State) (kept : holds middle) (locked : ¬ middle.lock = none) :
      ∃ (action : Action T) (next : State), (action.Within [id] ∧ action.acquires = none) ∧
        step middle action = some next ∧ holds next ∧ next.left id < middle.left id := by
    rcases kept with ⟨inv, unlocked | held⟩
    · exact absurd unlocked locked
    · rcases holder_inside T inv held with ⟨action, next, inside, advances, taken⟩
      rcases lock_holder inv held with ⟨task, present, -⟩
      have own := within_one.mpr ⟨inside, advances⟩
      rcases step_within present own taken with ⟨_, -, -, -, lock⟩
      refine ⟨action, next, ⟨own, ?_⟩, taken, ⟨step_inv inv taken, lock (Or.inr held)⟩,
        step_spends inv own taken⟩
      cases action with
      | acquire other =>
          -- The lock is not free.
          rcases Option.bind_eq_some_iff.mp taken with ⟨found, -, acquired⟩
          rw [State.acquire, held] at acquired
          cases acquired
      | _ => rfl
  rcases Transition.drains (fun middle => middle.left id) holds (fun middle => middle.lock = none)
    (fun action : Action T => action.Within [id] ∧ action.acquires = none) progress state
    ⟨inv, Or.inr held⟩ with ⟨later, final, allowed, ran, -, unlocked, short⟩
  refine ⟨later, final, fun action member => (allowed action member).1, ?_, ran, unlocked, short⟩
  exact List.filterMap_eq_nil_iff.mpr fun action member => (allowed action member).2

variable (T) in
theorem turn_taken (inv : Inv capacity state) (unlocked : state.lock = none)
    (present : state.tasks[id]? = some task) (wants : task.pc.wantsLock = true) :
    ∃ (later : List (Action T)) (final : State),
      Passage capacity [id] [id] state later final ∧ final.lock = none := by
  have acquired : ∃ next, step state (.acquire id : Action T) = some next ∧
      next.lock = some id := by
    cases stage : task.pc with
    | lookupLock => exact ⟨_, move_taken present (.acquireLookup stage unlocked), rfl⟩
    | evictLock cell fetched =>
        exact ⟨_, move_taken present (.acquireEvict cell fetched stage unlocked), rfl⟩
    | _ =>
        rw [stage] at wants
        cases wants
  rcases acquired with ⟨next, taken, held⟩
  have own : (Action.acquire id : Action T).Within [id] := within_one.mpr ⟨rfl, rfl⟩
  have spent := step_spends inv own taken
  rcases lock_released T (step_inv inv taken) held with
    ⟨later, final, within, none, ran, free, short⟩
  have whole : Transition.run step state (.acquire id :: later) = some final := by
    rw [Transition.run, taken]
    exact ran
  have all : ∀ action ∈ (.acquire id :: later : List (Action T)), action.Within [id] := by
    intro action member
    rcases List.mem_cons.mp member with rfl | member
    · exact own
    · exact within action member
  have passage := own_passage inv present all whole (by rw [List.length_cons]; omega)
  have order : handovers (.acquire id :: later : List (Action T)) = [id] :=
    congrArg (List.cons id) none
  rw [order] at passage
  exact ⟨_, final, passage, free⟩

variable (T) in
theorem turns_taken (inv : Inv capacity state) (unlocked : state.lock = none)
    {ahead : List TaskId} (distinct : ahead.Nodup)
    (waiting : ∀ other ∈ ahead, ∃ waiter, state.tasks[other]? = some waiter ∧
      waiter.pc.wantsLock = true) :
    ∃ (later : List (Action T)) (final : State),
      Passage capacity ahead ahead state later final ∧ final.lock = none := by
  induction ahead generalizing state with
  | nil => exact ⟨[], state, passage_nil T inv, unlocked⟩
  | cons other ahead ih =>
      rcases List.nodup_cons.mp distinct with ⟨fresh, distinct⟩
      rcases waiting other List.mem_cons_self with ⟨waiter, present, wants⟩
      rcases turn_taken T inv unlocked present wants with ⟨first, middle, turn, free⟩
      have still : ∀ waits ∈ ahead, ∃ waiter, middle.tasks[waits]? = some waiter ∧
          waiter.pc.wantsLock = true := by
        intro waits member
        have outside : waits ∉ [other] := by
          rintro same
          exact fresh (List.mem_singleton.mp same ▸ member)
        rw [turn.others waits outside]
        exact waiting waits (List.mem_cons_of_mem _ member)
      rcases ih turn.inv free distinct still with ⟨second, final, turns, free⟩
      exact ⟨first ++ second, final, passage_append turn turns, free⟩

variable (T) in
/-- A get that nobody keeps from the lock comes through by itself, and takes it once at most. -/
theorem comes_through (inv : Inv capacity state) (present : state.tasks[id]? = some task)
    (free : state.lock = none ∨ state.lock = some id) :
    ∃ (later : List (Action T)) (final : State) (order : List TaskId),
      Passage capacity [id] order state later final ∧ order <+: [id] ∧
        Unhindered final id task.key := by
  let holds (middle : State) : Prop :=
    Inv capacity middle ∧ (middle.lock = none ∨ middle.lock = some id) ∧
      ∃ found, middle.tasks[id]? = some found ∧ found.key = task.key
  have progress (middle : State) (held : holds middle)
      (hindered : ¬ Unhindered middle id task.key) : ∃ (action : Action T) (next : State),
      action.Within [id] ∧ step middle action = some next ∧ holds next ∧
        next.left id < middle.left id := by
    rcases held with ⟨inv, free, found, among, key⟩
    rcases unhindered_or_steps T inv among with through | ⟨other, action, next, who, own, taken⟩
    · exact absurd (key ▸ through) hindered
    · obtain rfl : other = id := by
        rcases who with same | held
        · exact same
        · rcases free with unlocked | mine
          · rw [unlocked] at held
            cases held
          · exact Option.some.inj (held.symm.trans mine)
      rcases step_within among own taken with ⟨pc, tasks, -, -, lock⟩
      refine ⟨action, next, own, taken, ⟨step_inv inv taken, lock free, ?_⟩,
        step_spends inv own taken⟩
      exact ⟨{ found with pc := pc }, by rw [tasks]; exact Arena.get_set_self _ among, key⟩
  rcases Transition.drains (fun middle => middle.left id) holds
    (fun middle => Unhindered middle id task.key) (Action.Within [id]) progress state
    ⟨inv, free, task, present, rfl⟩ with ⟨later, final, own, ran, -, through, short⟩
  refine ⟨later, final, handovers later, own_passage inv present own ran short, ?_, through⟩
  rcases within_run inv present own ran with ⟨-, -, -, -, few⟩
  have once : task.pc.locks ≤ 1 := by
    unfold Pc.locks
    split <;> simp
  have mine : ∀ other ∈ handovers later, other = id := by
    intro other member
    rcases List.mem_filterMap.mp member with ⟨action, among, acquires⟩
    have advances := (within_one.mp (own action among)).2
    cases action <;> simp_all [Action.acquires, Action.advances]
  match handed : handovers later with
  | [] => exact List.nil_prefix
  | [other] =>
      rw [mine other (by rw [handed]; exact List.mem_cons_self)]
  | _ :: _ :: _ =>
      rw [handed] at few
      simp only [List.length_cons] at few
      omega

/-- The gets of other keys cannot hold a get up by what they wait for outside. The lock is
handed to those who wait for it in their order: from every reachable state, and whoever waits
ahead of the get, it comes through with steps inside of who has the lock, of those ahead and
of its own, boundedly many for each; and any steps inside, of whatever gets, come to an end
with no get held up. -/
theorem keys_unhindered {slots : Nat} {positive : 0 < slots} {actions : List (Action T)}
    (reached : Transition.run step (initial capacity slots positive) actions = some state) :
    (∀ (id : TaskId) task ahead, state.tasks[id]? = some task → (id :: ahead).Nodup →
      (∀ other ∈ ahead, ∃ waiter, state.tasks[other]? = some waiter ∧
        waiter.pc.wantsLock = true) →
      ∃ later final,
        (∀ action ∈ later,
          (action : Action T).Within (state.lock.toList ++ ahead ++ [id])) ∧
        handovers later <+: ahead ++ [id] ∧
        Transition.run step state later = some final ∧ Unhindered final id task.key ∧
        later.length ≤ (ahead.length + 2) * stepBound slots) ∧
    ∀ later final, (∀ action ∈ later, (action : Action T).inside = true) →
      Transition.run step state later = some final →
        later.length + final.rankTotal ≤ state.rankTotal ∧
        ((∀ action : Action T, action.inside = true → step final action = none) →
          ∀ (id : TaskId) task, final.tasks[id]? = some task → Unhindered final id task.key) := by
  constructor
  · intro id task ahead present distinct waiting
    have inv := run_inv reached
    rcases List.nodup_cons.mp distinct with ⟨behind, distinct⟩
    -- First the lock comes free.
    have freed : ∃ (first : List (Action T)) (middle : State),
        Passage capacity state.lock.toList [] state first middle ∧ middle.lock = none ∧
          ∀ other ∈ ahead, other ∉ state.lock.toList := by
      cases held : state.lock with
      | none => exact ⟨[], state, passage_nil T inv, held, fun _ _ => List.not_mem_nil⟩
      | some holder =>
          rcases lock_holder inv held with ⟨found, among, -, -, near⟩
          rcases lock_released T inv held with ⟨first, middle, own, none, ran, free, short⟩
          have passage := own_passage inv among own ran short
          rw [none] at passage
          refine ⟨first, middle, passage, free, ?_⟩
          intro other member same
          obtain rfl : other = holder := by simpa using same
          rcases waiting other member with ⟨waiter, there, wants⟩
          obtain rfl : found = waiter := Option.some.inj (among.symm.trans there)
          cases stage : found.pc <;> simp_all [Pc.wantsLock, Pc.distance]
    rcases freed with ⟨first, middle, opening, free, apart⟩
    have still : ∀ other ∈ ahead, ∃ waiter, middle.tasks[other]? = some waiter ∧
        waiter.pc.wantsLock = true := by
      intro other member
      rw [opening.others other (apart other member)]
      exact waiting other member
    -- Then those ahead have it, and the get is the next.
    rcases turns_taken T opening.inv free distinct still with ⟨second, nearly, turns, free⟩
    have both := passage_append opening turns
    rcases both.keys id task present with ⟨found, among, key⟩
    rcases comes_through T both.inv among (Or.inl free) with
      ⟨third, final, order, last, once, through⟩
    have all := passage_append both last
    rw [key] at through
    refine ⟨_, final, all.within, ?_, all.ran, through, ?_⟩
    · rw [all.handed, List.nil_append]
      exact (List.prefix_append_right_inj ahead).mpr once
    · refine all.short.trans ?_
      rw [run_capacity reached]
      apply Nat.mul_le_mul_right
      have one : state.lock.toList.length ≤ 1 := by
        cases state.lock <;> simp
      simp only [List.length_append, List.length_singleton]
      omega
  · intro later final inside onward
    constructor
    · exact silent_length reached onward fun action member => inside_request (inside action member)
    · intro stuck id task present
      have whole : Transition.run step (initial capacity slots positive) (actions ++ later) =
          some final := by
        rw [Transition.run_append, reached]
        exact onward
      rcases unhindered_or_steps T (run_inv whole) present with free |
        ⟨other, action, next, -, within, taken⟩
      · exact free
      · rw [stuck action within.1] at taken
        cases taken

end Steps

/-- The upstream of the first get stalls; the third has the lock, and the fourth waits for it
ahead of the second. -/
def stalledUpstream : List (Action LiteralTree) :=
  [.start plainCache "/a" epoch, .acquire 0, .lookup 0, .join 0, .start plainCache "/b" epoch,
    .start plainCache "/c" epoch, .acquire 2, .start plainCache "/d" epoch]

theorem keys_unhindered_stalled :
    ∃ state, Transition.run step (initial 2 2 (by decide)) stalledUpstream = some state ∧
      ∃ later final, (∀ action ∈ later, (action : Action LiteralTree).Within [2, 3, 1]) ∧
        handovers later <+: [3, 1] ∧ Transition.run step state later = some final ∧
        Unhindered final 1 ⟨plainCache.hostKey, "/b"⟩ ∧ later.length ≤ 3 * stepBound 2 := by
  have places : (Transition.run step (initial 2 2 (by decide)) stalledUpstream).map
      (fun state => (state.lock, (state.tasks[1]?).map Task.key,
        (state.tasks[3]?).map fun task => task.pc.wantsLock)) =
        some (some 2, some ⟨plainCache.hostKey, "/b"⟩, some true) := rfl
  rcases Option.map_eq_some_iff.mp places with ⟨state, reached, places⟩
  rcases Prod.mk.inj places with ⟨locked, places⟩
  rcases Prod.mk.inj places with ⟨asked, waits⟩
  rcases Option.map_eq_some_iff.mp asked with ⟨task, present, key⟩
  rcases Option.map_eq_some_iff.mp waits with ⟨waiter, there, wants⟩
  have ahead : ∀ other ∈ [3], ∃ waiter, state.tasks[other]? = some waiter ∧
      waiter.pc.wantsLock = true := by
    intro other member
    obtain rfl := List.mem_singleton.mp member
    exact ⟨waiter, there, wants⟩
  rcases (keys_unhindered reached).1 1 task [3] present (by decide) ahead with
    ⟨later, final, within, handed, onward, free, short⟩
  rw [locked] at within
  rw [key] at free
  exact ⟨state, reached, later, final, within, handed, onward, free, short⟩

end Server3.Machine
