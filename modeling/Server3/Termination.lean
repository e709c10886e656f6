import Server3.LiveFiles
import Server3.Potential

/-! Every get comes to its end: it takes boundedly many steps whatever the others do,
and whatever the upstreams and the disk answer, there is always a step to take. -/

namespace Server3.Machine

open Clock Routes Upstream Resource Recency
open CapacityPool (CacheCapacityPool CacheCapacityReservation)

/-- The steps a get can still take, from the entries in the map and its slots. Only
under the lock do the entries count: they cannot grow then. -/
def Pc.rank (entries slots : Nat) : Pc → Nat
  | .lookupLock => 3 * slots + 13
  | .lookup => 3 * slots + 12
  | .joining _ => 3 * slots + 11
  | .fetching _ => 3 * slots + 10
  | .storing _ _ => 3 * slots + 9
  | .reserving _ _ locked => if locked then 3 * entries + 7 else 3 * slots + 8
  | .evictLock _ _ => 3 * slots + 7
  | .popping _ _ => 3 * entries + 6
  | .evicting _ _ _ => 3 * entries + 8
  | .reservingUpTo _ _ => 5
  | .granted _ _ _ locked => if locked then 4 else 3
  | .initialized _ _ => 2
  | .cloning _ _ | .neverFetch => 1
  | .finished _ | .panicked | .cancelled => 0

def stepBound (slots : Nat) : Nat := 3 * slots + 13

def State.rank (state : State) (task : Task) : Nat :=
  task.pc.rank state.map.entries.length state.map.capacity

def Action.taskId {T : Type → Type} : Action T → Option TaskId
  | .start _ _ _ => none
  | .acquire id | .lookup id | .join id | .answer id _ | .store id _ | .reserve id | .pop id
  | .evict id | .reserveUpTo id | .unlock id | .fill id _ | .count id | .respond id _
  | .cancel id => some id

section Rank

variable {T : Type → Type} {capacity : UInt64} {state next : State} {id other : TaskId}
  {task found : Task} {action : Action T} {entries fewer slots : Nat} {pc : Pc}

theorem rank_idle (idle : pc.holdsLock = false) :
    pc.rank entries slots = pc.rank fewer slots := by
  cases pc <;> simp_all [Pc.rank, Pc.holdsLock]

theorem move_taskId (move : Move state id task action next) : action.taskId = some id := by
  cases move <;> rfl

theorem move_rank (move : Move state id task action next) :
    ∃ pc, next.tasks = state.tasks.set id { task with pc := pc } ∧
      pc.rank next.map.entries.length next.map.capacity + 1 ≤ state.rank task := by
  have bounded := state.map.bounded
  have kept := move_capacity move
  rw [State.rank, kept]
  cases move with
  | acquireEvict cell fetched stage unlocked =>
      refine ⟨_, rfl, ?_⟩
      rw [stage]
      simp only [Pc.rank, State.setPc_map]
      omega
  | popEntry cell fetched key victim rest stage popped =>
      refine ⟨_, rfl, ?_⟩
      have split := congrArg List.length (LruCache.pop_some popped).1
      rw [List.length_append, List.length_singleton] at split
      rw [stage]
      simp only [Pc.rank, State.setPc_map, split]
      omega
  | reserveGranted cell fetched locked pool reservation stage granted =>
      refine ⟨_, rfl, ?_⟩
      rw [stage]
      simp only [Pc.rank]
      split <;> omega
  | reserveFailed cell fetched locked stage refused =>
      refine ⟨_, rfl, ?_⟩
      rw [stage]
      cases locked with
      | true => exact le_rfl
      | false => exact le_rfl
  | evict cell fetched victim stage =>
      refine ⟨_, State.release_tasks _ _, ?_⟩
      rw [stage]
      simp [Pc.rank]
  | popNothing cell fetched stage exhausted =>
      refine ⟨_, rfl, ?_⟩
      rw [stage]
      simp only [Pc.rank]
      omega
  | lookup stage =>
      refine ⟨_, State.releaseOption_tasks _, ?_⟩
      rw [stage]
      simp only [Pc.rank]
      omega
  | answerNone cell stage | answerError cell _ stage | storeError cell _ _ _ stage =>
      refine ⟨_, State.abandon_tasks _ _ _, ?_⟩
      rw [stage]
      simp only [Pc.rank]
      omega
  | respond cell resource cloneError result stage shape =>
      refine ⟨_, State.release_tasks _ _, ?_⟩
      rw [stage]
      exact le_rfl
  | cancelIdle stage =>
      refine ⟨_, rfl, ?_⟩
      rcases stage with stage | stage <;> rw [stage] <;> simp only [Pc.rank] <;> omega
  | cancelJoined cell stage =>
      refine ⟨_, State.release_tasks _ _, ?_⟩
      rcases stage with stage | ⟨_, stage⟩ <;> rw [stage] <;> simp only [Pc.rank] <;> omega
  | cancelInit cell stage =>
      refine ⟨_, State.abandon_tasks _ _ _, ?_⟩
      rcases stage with stage | ⟨_, stage⟩ | ⟨_, stage⟩ <;> rw [stage] <;> simp only [Pc.rank] <;>
        omega
  | acquireLookup stage | joinFilled _ _ stage | joinEmpty _ stage | answerNever _ stage
  | answerFound _ _ stage | storeOk _ _ _ _ stage | reserveUpTo _ _ _ _ stage
  | unlock _ _ _ stage | fill _ _ _ _ stage | count _ _ stage =>
      refine ⟨_, rfl, ?_⟩
      rw [stage]
      simp [Pc.rank]

/-- The entries grow only in a lookup, and then no other get has the lock. -/
theorem move_rank_other (inv : Inv capacity state) (present : state.tasks[id]? = some task)
    (move : Move state id task action next) (different : other ≠ id)
    (among : state.tasks[other]? = some found) : next.rank found ≤ state.rank found := by
  rw [State.rank, State.rank, move_capacity move]
  cases holds : found.pc.holdsLock with
  | false => rw [rank_idle holds]
  | true =>
      have held := (inv.tasks other found among).lock holds
      have idle : task.pc.holdsLock = false := by
        cases mine : task.pc.holdsLock with
        | false => rfl
        | true =>
            have own := (inv.tasks id task present).lock mine
            rw [held, Option.some.injEq] at own
            exact absurd own different
      rcases move_lock move with ⟨_, -, -, same⟩
      rw [same idle]

def State.rankTotal (state : State) : Nat := Arena.total state.rank state.tasks

theorem move_rank_total (inv : Inv capacity state) (present : state.tasks[id]? = some task)
    (move : Move state id task action next) : next.rankTotal + 1 ≤ state.rankTotal := by
  rcases move_rank move with ⟨pc, tasks, lower⟩
  rw [State.rankTotal, tasks]
  exact Arena.total_spent present lower fun other found different among =>
    move_rank_other inv present move different among

theorem rank_bounded : state.rank task ≤ stepBound state.map.capacity := by
  have bounded := state.map.bounded
  rw [State.rank, stepBound]
  cases task.pc with
  | reserving | granted =>
      simp only [Pc.rank]
      split <;> omega
  | _ =>
      simp only [Pc.rank]
      omega

end Rank

section Steps

variable {T : Type → Type} [PathTree T] {capacity : UInt64} {slots : Nat} {positive : 0 < slots}
  {state next : State} {id : TaskId} {task : Task} {action : Action T} {actions : List (Action T)}

theorem start_rank {cache : Cache T} {path : String} {now : Instant} {fresh : Task}
    (started : Started state cache path now fresh next) (task : Task) :
    next.rank task = state.rank task := by
  rw [State.rank, State.rank, started.map]

/-- What the get with this index can still do, also before it starts. -/
def State.left (state : State) (id : TaskId) : Nat :=
  ((state.tasks[id]?).map state.rank).getD (stepBound state.map.capacity)

omit [PathTree T] in
theorem left_bounded : state.left id ≤ stepBound state.map.capacity := by
  rw [State.left]
  cases state.tasks[id]? with
  | none => exact le_rfl
  | some task => exact rank_bounded

theorem step_left (inv : Inv capacity state) (taken : step state action = some next) :
    (if action.taskId = some id then 1 else 0) + next.left id ≤ state.left id := by
  rcases step_moves taken with ⟨cache, path, now, rfl, rfl⟩ | ⟨mover, task, present, move⟩
  · rcases start_started state cache path now with ⟨fresh, started⟩
    have idle : ¬ (Action.start cache path now).taskId = some id := nofun
    rw [if_neg idle, Nat.zero_add, State.left, State.left, started.map, started.tasks]
    cases known : state.tasks[id]? with
    | some task =>
        rw [Arena.get_append_old _ known, Option.map_some, Option.map_some, start_rank started]
    | none =>
        cases found : (state.tasks ++ [fresh])[id]? with
        | none => exact le_rfl
        | some task =>
            simp only [Option.map_some, Option.getD_some, start_rank started, Option.map_none,
              Option.getD_none]
            exact rank_bounded
  · rcases move_rank move with ⟨pc, tasks, lower⟩
    rw [move_taskId move]
    by_cases same : mover = id
    · subst same
      rw [if_pos rfl, State.left, State.left, present, tasks, Arena.get_set_self _ present,
        Option.map_some, Option.map_some, Option.getD_some, Option.getD_some, Nat.add_comm]
      exact lower
    · rw [if_neg (by simpa using same), Nat.zero_add, State.left, State.left, tasks,
        Arena.get_set_other _ _ same, move_capacity move]
      cases known : state.tasks[id]? with
      | none => exact le_rfl
      | some found => exact move_rank_other inv present move (Ne.symm same) known

theorem step_rank_total (inv : Inv capacity state) (taken : step state action = some next) :
    1 + next.rankTotal ≤ state.rankTotal +
      if action.request.isSome then stepBound state.map.capacity + 1 else 0 := by
  rcases step_moves taken with ⟨cache, path, now, rfl, rfl⟩ | ⟨mover, task, present, move⟩
  · rcases start_started state cache path now with ⟨fresh, started⟩
    have bounded : state.rank fresh ≤ stepBound state.map.capacity := rank_bounded
    have same : (state.start cache path now).rank = state.rank := by
      funext task
      exact start_rank started task
    have grants : (Action.start cache path now).request.isSome = true := rfl
    rw [if_pos grants, State.rankTotal, State.rankTotal, same, started.tasks, Arena.total_append,
      Arena.total_cons, Arena.total_nil]
    omega
  · rw [move_request move]
    have lower := move_rank_total inv present move
    simp only [Option.isSome_none, Bool.false_eq_true, if_false]
    omega

/-- In every run each get takes boundedly many steps, whatever the others do, and all
of them no more than their number allows. -/
theorem steps_bounded
    (reached : Transition.run step (initial capacity slots positive) actions = some state) :
    (∀ id, actions.countP (fun action => action.taskId = some id) ≤ stepBound slots) ∧
      actions.length ≤ (requests actions).length * (stepBound slots + 1) := by
  constructor
  · intro id
    have bound := Transition.count_bounded (fun state => state.left id)
      (fun action : Action T => action.taskId = some id) (fun _ => false) 0 ?_ reached
    · have start : (initial capacity slots positive).left id = stepBound slots := rfl
      simp only [start] at bound
      omega
    · intro state action next earlier taken
      rcases earlier with ⟨_, earlier⟩
      have spent : _ + next.left id ≤ state.left id := step_left (run_inv earlier) taken
      simpa using spent
  · have bound := Transition.count_bounded State.rankTotal (fun _ : Action T => true)
      (fun action => action.request.isSome) (stepBound slots + 1) ?_ reached
    · have start : (initial capacity slots positive).rankTotal = 0 := rfl
      have counted : (requests actions).length =
          actions.countP fun action => action.request.isSome := List.length_filterMap_eq_countP
      rw [counted]
      simp only [start, List.countP_true] at bound
      omega
    · intro state action next earlier taken
      rcases earlier with ⟨_, earlier⟩
      have spent := step_rank_total (run_inv earlier) taken
      rwa [run_capacity earlier] at spent

theorem steps_bounded_oversized :
    oversizedActions.length ≤ 2 * (stepBound 2 + 1) ∧
      oversizedActions.countP (fun action => action.taskId = some 0) ≤ stepBound 2 := by
  have ran : (Transition.run step (initial 3 2 (by decide)) oversizedActions).isSome := rfl
  rcases Option.isSome_iff_exists.mp ran with ⟨state, reached⟩
  exact ⟨(steps_bounded reached).2, (steps_bounded reached).1 0⟩

/-- What the upstreams, the disk and the clocks have in store for each get. -/
structure World where
  answer : TaskId → Answer
  diskError : TaskId → Option String
  clock : TaskId → ClockReading
  cloneError : TaskId → Option String

/-- The steps of gets that are under way, with what the world has in store for them. -/
def World.Allows (world : World) : Action T → Prop
  | .start _ _ _ | .cancel _ => False
  | .answer id answer => answer = world.answer id
  | .store id diskError => diskError = world.diskError id
  | .fill id clock => clock = world.clock id
  | .respond id cloneError => cloneError = world.cloneError id
  | _ => True

theorem outside_ready (world : World) (present : state.tasks[id]? = some task)
    (outside : task.pc.outside = true) :
    ∃ (action : Action T) (next : State), world.Allows action ∧ step state action = some next := by
  cases stage : task.pc with
  | neverFetch =>
      exact ⟨.answer id (world.answer id), _, rfl,
        move_taken present (.answerNever (world.answer id) stage)⟩
  | fetching cell =>
      refine ⟨.answer id (world.answer id), ?_⟩
      match known : world.answer id with
      | .ok (some resource) =>
          exact ⟨_, known.symm, move_taken present (.answerFound cell resource stage)⟩
      | .ok none => exact ⟨_, known.symm, move_taken present (.answerNone cell stage)⟩
      | .error failure =>
          exact ⟨_, known.symm, move_taken present (.answerError cell failure stage)⟩
  | storing cell resource =>
      refine ⟨.store id (world.diskError id), ?_⟩
      cases stored : Upstream.store resource.body (world.diskError id) with
      | ok file => exact ⟨_, rfl, move_taken present (.storeOk cell resource _ file stage stored)⟩
      | error failure =>
          exact ⟨_, rfl, move_taken present (.storeError cell resource _ failure stage stored)⟩
  | cloning cell resource =>
      exact ⟨.respond id (world.cloneError id), _, rfl,
        move_taken present (.respond cell resource (world.cloneError id) _ stage rfl)⟩
  | _ => simp [stage, Pc.outside] at outside

/-- A step that some get can take can also be taken with what the world has in store. -/
theorem steered (world : World) (ready : Ready T state id) :
    ∃ (action : Action T) (next : State), world.Allows action ∧ step state action = some next := by
  rcases ready with ⟨action, next, own, taken⟩
  rcases step_moves taken with ⟨cache, path, now, rfl, rfl⟩ | ⟨mover, task, present, move⟩
  · cases own
  · cases move with
    | answerNever _ stage | answerFound _ _ stage | answerNone _ stage | answerError _ _ stage
    | storeOk _ _ _ _ stage | storeError _ _ _ _ stage | respond _ _ _ _ stage =>
        exact outside_ready world present (by rw [stage]; rfl)
    | fill cell fetched reservation clock stage =>
        exact ⟨.fill mover (world.clock mover), _, rfl,
          move_taken present (.fill cell fetched reservation (world.clock mover) stage)⟩
    | cancelIdle | cancelJoined | cancelInit => cases own
    | _ =>
        refine ⟨_, _, ?_, taken⟩
        exact trivial

variable (T) in
theorem unquiet_steps (world : World) (inv : Inv capacity state) (busy : ¬ state.Quiet) :
    ∃ (action : Action T) (next : State), world.Allows action ∧ step state action = some next := by
  simp only [State.Quiet, not_forall] at busy
  rcases busy with ⟨task, member, unfinished⟩
  rcases List.getElem?_of_mem member with ⟨id, present⟩
  rcases some_ready T inv present (Bool.eq_false_of_not_eq_true unfinished) with
    ⟨holder, ready⟩ | ⟨other, among, -, outside⟩
  · exact steered world ready
  · rcases List.getElem?_of_mem among with ⟨other, found⟩
    exact outside_ready world found outside

omit [PathTree T] in
theorem allowed_request {world : World} (allows : world.Allows action) : action.request = none := by
  cases action with
  | start => exact allows.elim
  | _ => rfl

/-- With no get in flight nothing is left behind of those that failed or were cancelled:
lock and permits are free, the files are those of the residents, and the pool lacks what
they weigh and no more. -/
structure Settled (capacity : UInt64) (state : State) : Prop where
  quiet : state.Quiet
  files : state.live.Perm state.residents
  unlocked : state.lock = none
  permits : ∀ cell id, state.cellAt cell ≠ some (.initializing id)
  available : state.pool.availableCapacity.toNat + totalSize state.residents = capacity.toNat

omit [PathTree T] in
theorem quiet_settled (inv : Inv capacity state) (held : Held state) (quiet : state.Quiet) :
    Settled capacity state where
  quiet := quiet
  files := live_residents inv held quiet
  unlocked := by
    cases locked : state.lock with
    | none => rfl
    | some id =>
        rcases inv.locks id locked with ⟨task, present, holds⟩
        have ended := quiet task (List.mem_of_getElem? present)
        cases stage : task.pc <;> simp_all [Pc.ended, Pc.holdsLock]
  permits := by
    intro cell id initializing
    rcases inv.permits cell id initializing with ⟨task, present, permit⟩
    have ended := quiet task (List.mem_of_getElem? present)
    cases stage : task.pc <;> simp_all [Pc.ended, Pc.initializes]
  available := by
    have sizes := (live_residents inv held quiet).map fun resource => resource.size.toNat
    rw [totalSize, ← sizes.sum_eq]
    exact quiet_available inv held quiet

theorem silent_length {later : List (Action T)} {final : State}
    (reached : Transition.run step (initial capacity slots positive) actions = some state)
    (onward : Transition.run step state later = some final)
    (silent : ∀ action ∈ later, action.request = none) :
    later.length + final.rankTotal ≤ state.rankTotal := by
  have bound := Transition.count_bounded State.rankTotal (fun _ : Action T => true)
    (fun action => action.request.isSome) (stepBound slots + 1) ?_ onward
  · have none : later.countP (fun action => action.request.isSome) = 0 := by
      apply List.countP_eq_zero.mpr
      intro action member
      rw [silent action member]
      exact Bool.false_ne_true
    rw [List.countP_true, none] at bound
    omega
  · intro middle action next earlier taken
    rcases earlier with ⟨before, earlier⟩
    have joined : Transition.run step (initial capacity slots positive) (actions ++ before) =
        some middle := by
      rw [Transition.run_append, reached]
      exact earlier
    have spent := step_rank_total (run_inv joined) taken
    rwa [run_capacity joined] at spent

/-- Whatever the world has in store, from every reachable state the gets that are under
way can be brought to their ends, every step of theirs brings them nearer, and they are
stuck only when they have all ended and left nothing behind. -/
theorem gets_end (world : World)
    (reached : Transition.run step (initial capacity slots positive) actions = some state) :
    (∃ later final, (∀ action ∈ later, world.Allows (action : Action T)) ∧
      Transition.run step state later = some final ∧ Settled capacity final ∧
      later.length ≤ state.rankTotal) ∧
    ∀ later final, (∀ action ∈ later, world.Allows (action : Action T)) →
      Transition.run step state later = some final →
        later.length + final.rankTotal ≤ state.rankTotal ∧
        ((∀ action : Action T, world.Allows action → step final action = none) →
          Settled capacity final) := by
  constructor
  · have progress (middle : State) (inv : Inv capacity middle) (busy : ¬ middle.Quiet) :
        ∃ (action : Action T) (next : State), world.Allows action ∧
          step middle action = some next ∧ Inv capacity next ∧
            next.rankTotal < middle.rankTotal := by
      rcases unquiet_steps T world inv busy with ⟨action, next, allows, taken⟩
      have spent := step_rank_total inv taken
      rw [allowed_request allows] at spent
      refine ⟨action, next, allows, taken, step_inv inv taken, ?_⟩
      simp only [Option.isSome_none, Bool.false_eq_true, if_false] at spent
      omega
    rcases Transition.drains State.rankTotal (Inv capacity) State.Quiet world.Allows progress state
      (run_inv reached) with ⟨later, final, allowed, onward, -, quiet, short⟩
    have whole : Transition.run step (initial capacity slots positive) (actions ++ later) =
        some final := by
      rw [Transition.run_append, reached]
      exact onward
    exact ⟨later, final, allowed, onward,
      quiet_settled (run_inv whole) (run_held whole) quiet, short⟩
  · intro later final allowed onward
    have whole : Transition.run step (initial capacity slots positive) (actions ++ later) =
        some final := by
      rw [Transition.run_append, reached]
      exact onward
    constructor
    · exact silent_length reached onward fun action member => allowed_request (allowed action member)
    · intro stuck
      apply quiet_settled (run_inv whole) (run_held whole)
      by_contra busy
      rcases unquiet_steps T world (run_inv whole) busy with ⟨action, next, allows, taken⟩
      rw [stuck action allows] at taken
      cases taken

end Steps

def oneWorld : World where
  answer := fun _ => plainBody [1, 2, 3]
  diskError := fun _ => none
  clock := fun _ => ⟨epoch, ⟨0⟩⟩
  cloneError := fun _ => none

/-- One get waits for room and another for its permit; both come to their ends. -/
theorem gets_end_waiting :
    ∃ state, Transition.run step (initial 2 2 (by decide)) waitingForRoom = some state ∧
      ∃ later final, Transition.run step state (later : List (Action LiteralTree)) = some final ∧
        Settled 2 final := by
  have ran : (Transition.run step (initial 2 2 (by decide)) waitingForRoom).isSome := rfl
  rcases Option.isSome_iff_exists.mp ran with ⟨state, reached⟩
  rcases (gets_end oneWorld reached).1 with ⟨later, final, -, onward, settled, -⟩
  exact ⟨state, reached, later, final, onward, settled⟩

end Server3.Machine
