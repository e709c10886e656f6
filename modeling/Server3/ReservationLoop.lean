import Server3.MachineEffects
import Server3.Progress

/-! The reservation loop of `create_cached_resource`, from its first call of `reserve` to
its grant, in any state in which the lock of the map has one holder. -/

namespace Server3.Machine

open Clock Routes Upstream Resource Recency
open CapacityPool (CacheCapacityPool CacheCapacityReservation)

abbrev MapEntry := CachedResourceKey × CellId

/-- The lock of the map is with the get whose place says so, if there is one. -/
structure Exclusive (state : State) : Prop where
  holder : ∀ (id : TaskId) task, state.tasks[id]? = some task → task.pc.holdsLock = true →
    state.lock = some id
  held : ∀ id, state.lock = some id →
    ∃ task, state.tasks[id]? = some task ∧ task.pc.holdsLock = true

namespace Pc

def inLoop : Pc → Bool
  | reserving _ _ _ | evictLock _ _ | popping _ _ | evicting _ _ _ | reservingUpTo _ _ => true
  | _ => false

def pastLoop : Pc → Bool
  | granted _ _ _ _ | initialized _ _ | cloning _ _ | finished _ | panicked | cancelled => true
  | _ => false

end Pc

section Observers

variable {T : Type → Type}

def Action.calls (id : TaskId) : Action T → Bool
  | .reserve other | .reserveUpTo other => other = id
  | _ => false

def Action.loops (id : TaskId) : Action T → Bool
  | .reserve other | .acquire other | .pop other | .evict other | .reserveUpTo other => other = id
  | _ => false

def poppedBy (id : TaskId) (state : State) : Action T → Option MapEntry
  | .pop other => if other = id then state.map.popLru.map Prod.fst else none
  | _ => none

end Observers

variable {T : Type → Type} {state next start final : State} {id mover : TaskId} {task : Task}
  {action : Action T} {actions : List (Action T)} {pc : Pc}

theorem move_exclusive (exclusive : Exclusive state) (present : state.tasks[id]? = some task)
    (move : Move state id task action next) : Exclusive next := by
  rcases move_lock move with ⟨pc, tasks, effect, -⟩
  have own := moved_task present tasks
  have others {other : TaskId} {found : Task} (different : other ≠ id)
      (before : state.tasks[other]? = some found) : next.tasks[other]? = some found := by
    rw [tasks, Arena.get_set _ present, if_neg different.symm]
    exact before
  cases effect with
  | kept same lock =>
      refine ⟨?_, ?_⟩
      · intro other found after holds
        rw [lock]
        rcases task_after present tasks after with ⟨rfl, rfl⟩ | ⟨_, before⟩
        · exact exclusive.holder other task present (same ▸ holds)
        · exact exclusive.holder other found before holds
      · intro other held
        rw [lock] at held
        rcases exclusive.held other held with ⟨found, before, holds⟩
        by_cases different : other = id
        · subst other
          rw [present, Option.some.injEq] at before
          subst found
          exact ⟨_, own, same.trans holds⟩
        · exact ⟨found, others different before, holds⟩
  | taken before after free lock =>
      refine ⟨?_, ?_⟩
      · intro other found later holds
        rcases task_after present tasks later with ⟨rfl, rfl⟩ | ⟨_, earlier⟩
        · exact lock
        · have taken := exclusive.holder other found earlier holds
          rw [free] at taken
          cases taken
      · intro other held
        rw [lock, Option.some.injEq] at held
        subst other
        exact ⟨_, own, after⟩
  | released before after lock =>
      have holder := exclusive.holder id task present before
      refine ⟨?_, ?_⟩
      · intro other found later holds
        rcases task_after present tasks later with ⟨rfl, rfl⟩ | ⟨different, earlier⟩
        · rw [after] at holds
          cases holds
        · have taken := exclusive.holder other found earlier holds
          rw [holder, Option.some.injEq] at taken
          exact absurd taken.symm different
      · intro other held
        rw [lock] at held
        cases held

theorem start_exclusive [PathTree T] (exclusive : Exclusive state) (cache : Cache T)
    (path : String) (now : Instant) : Exclusive (state.start cache path now) := by
  rcases start_started state cache path now with ⟨fresh, started⟩
  refine ⟨?_, ?_⟩
  · intro other found after holds
    rw [started.lock]
    rw [started.tasks] at after
    rcases Arena.get_append_cases after with before | ⟨_, rfl⟩
    · exact exclusive.holder other found before holds
    · rcases started.stage with ⟨stage, _⟩ | ⟨stage, _⟩ | ⟨stage, _⟩ | ⟨stage, _⟩ <;>
        rw [stage] at holds <;> cases holds
  · intro other held
    rw [started.lock] at held
    rcases exclusive.held other held with ⟨found, before, holds⟩
    rw [started.tasks]
    exact ⟨found, Arena.get_append_old _ before, holds⟩

theorem step_exclusive [PathTree T] (exclusive : Exclusive state)
    (taken : step state action = some next) : Exclusive next := by
  rcases step_moves taken with ⟨cache, path, now, rfl, rfl⟩ | ⟨id, task, present, move⟩
  · exact start_exclusive exclusive cache path now
  · exact move_exclusive exclusive present move

theorem move_aside {found : Task} (exclusive : Exclusive state)
    (present : state.tasks[mover]? = some found) (move : Move state mover found action next)
    (different : mover ≠ id) (held : state.lock = some id) :
    next.lock = some id ∧ next.map = state.map := by
  have idle : found.pc.holdsLock = false := by
    rw [← Bool.not_eq_true]
    intro holds
    have holder := exclusive.holder mover found present holds
    rw [held, Option.some.injEq] at holder
    exact different holder.symm
  rcases move_lock move with ⟨pc, -, effect, map⟩
  refine ⟨?_, map idle⟩
  cases effect with
  | kept _ lock => exact lock.trans held
  | taken _ _ free _ =>
      rw [held] at free
      cases free
  | released before _ _ =>
      rw [idle] at before
      cases before

/-- Where the loop is before it takes the lock, with its calls so far. -/
inductive Unlocked (fetched : Fetched) (calls : Nat) : Pc → Prop where
  | reserving (cell : CellId) (none : calls = 0) :
      Unlocked fetched calls (.reserving cell fetched false)
  | wanting (cell : CellId) (one : calls = 1) : Unlocked fetched calls (.evictLock cell fetched)
  | past (pc : Pc) (left : pc.pastLoop = true) (few : calls ≤ 1) : Unlocked fetched calls pc

/-- Where the loop is once it has the lock: what it found in the map, from the last entry
on, is what it popped and what is left. It calls once for every entry that it popped. -/
inductive Locked (id : TaskId) (fetched : Fetched) (found : List MapEntry) (state : State)
    (popped : List MapEntry) (calls steps : Nat) : Pc → Prop where
  | popping (cell : CellId) (held : state.lock = some id)
      (rest : found.reverse = popped ++ state.map.entries.reverse)
      (called : calls = popped.length) (stepped : steps = 3 * calls) :
      Locked id fetched found state popped calls steps (.popping cell fetched)
  | evicting (cell victim : CellId) (held : state.lock = some id)
      (rest : found.reverse = popped ++ state.map.entries.reverse)
      (called : calls + 1 = popped.length) (stepped : steps = 3 * calls + 1) :
      Locked id fetched found state popped calls steps (.evicting cell fetched victim)
  | reserving (cell : CellId) (held : state.lock = some id)
      (rest : found.reverse = popped ++ state.map.entries.reverse)
      (called : calls + 1 = popped.length) (stepped : steps = 3 * calls + 2) :
      Locked id fetched found state popped calls steps (.reserving cell fetched true)
  | reservingUpTo (cell : CellId) (held : state.lock = some id)
      (rest : found.reverse = popped) (empty : state.map.entries = [])
      (called : calls = popped.length) (stepped : steps = 3 * calls + 1) :
      Locked id fetched found state popped calls steps (.reservingUpTo cell fetched)
  | past (pc : Pc) (left : pc.pastLoop = true) (rest : popped <+: found.reverse)
      (called : calls ≤ found.length + 1) (stepped : steps ≤ 3 * found.length + 2) :
      Locked id fetched found state popped calls steps pc

theorem past_move (move : Move state id task action next) (past : task.pc.pastLoop = true) :
    action.loops id = false ∧
      ∃ pc, next.tasks = state.tasks.set id { task with pc := pc } ∧ pc.pastLoop = true := by
  cases move with
  | unlock cell fetched reservation stage => exact ⟨rfl, _, rfl, rfl⟩
  | fill cell fetched reservation clock stage => exact ⟨rfl, _, rfl, rfl⟩
  | count cell resource stage => exact ⟨rfl, _, rfl, rfl⟩
  | respond cell resource cloneError result stage shape =>
      exact ⟨rfl, _, State.release_tasks _ _, rfl⟩
  | cancelIdle stage => exact ⟨rfl, _, rfl, rfl⟩
  | cancelJoined cell stage => exact ⟨rfl, _, State.release_tasks _ _, rfl⟩
  | cancelInit cell stage => exact ⟨rfl, _, State.abandon_tasks _ _ _, rfl⟩
  | acquireLookup stage | acquireEvict _ _ stage | lookup stage | joinFilled _ _ stage
  | joinEmpty _ stage | answerNever _ stage | answerFound _ _ stage | answerNone _ stage
  | answerError _ _ stage | storeOk _ _ _ _ stage | storeError _ _ _ _ stage
  | reserveGranted _ _ _ _ _ stage | reserveFailed _ _ _ stage | popEntry _ _ _ _ _ stage
  | popNothing _ _ stage | evict _ _ _ stage | reserveUpTo _ _ _ _ stage =>
      rw [stage] at past
      cases past

theorem loops_other (move : Move state mover task action next) (different : mover ≠ id) :
    action.loops id = false := by
  cases move <;> simp [Action.loops, different]

theorem quiet_step (quiet : action.loops id = false) :
    action.calls id = false ∧ (∀ state, poppedBy id state action = none) ∧
      action ≠ .acquire id := by
  cases action <;> simp_all [Action.loops, Action.calls, poppedBy]

/-- What a step of a get in its loop does, from place to place. -/
inductive LoopMove (state next : State) (id : TaskId) : Action T → Pc → Pc → Prop where
  | granted (cell : CellId) (fetched : Fetched) (locked : Bool)
      (reservation : CacheCapacityReservation)
      (enough : state.pool.reserve fetched.file.size = some (next.pool, reservation)) :
      LoopMove state next id (.reserve id) (.reserving cell fetched locked)
        (.granted cell fetched reservation locked)
  | refused (cell : CellId) (fetched : Fetched)
      (short : state.pool.reserve fetched.file.size = none) :
      LoopMove state next id (.reserve id) (.reserving cell fetched false) (.evictLock cell fetched)
  | refusedLocked (cell : CellId) (fetched : Fetched)
      (short : state.pool.reserve fetched.file.size = none) (lock : next.lock = state.lock)
      (map : next.map = state.map) :
      LoopMove state next id (.reserve id) (.reserving cell fetched true) (.popping cell fetched)
  | acquired (cell : CellId) (fetched : Fetched) (lock : next.lock = some id)
      (map : next.map = state.map) :
      LoopMove state next id (.acquire id) (.evictLock cell fetched) (.popping cell fetched)
  | cancelled (cell : CellId) (fetched : Fetched) :
      LoopMove state next id (.cancel id) (.evictLock cell fetched) .cancelled
  | popped (cell : CellId) (fetched : Fetched) (entry : MapEntry)
      (last : state.map.popLru = some (entry, next.map)) (lock : next.lock = state.lock) :
      LoopMove state next id (.pop id) (.popping cell fetched) (.evicting cell fetched entry.2)
  | exhausted (cell : CellId) (fetched : Fetched) (empty : state.map.popLru = none)
      (lock : next.lock = state.lock) (map : next.map = state.map) :
      LoopMove state next id (.pop id) (.popping cell fetched) (.reservingUpTo cell fetched)
  | evicted (cell : CellId) (fetched : Fetched) (victim : CellId) (lock : next.lock = state.lock)
      (map : next.map = state.map) :
      LoopMove state next id (.evict id) (.evicting cell fetched victim)
        (.reserving cell fetched true)
  | grantedUpTo (cell : CellId) (fetched : Fetched) (reservation : CacheCapacityReservation)
      (rest : state.pool.reserveUpTo fetched.file.size = some (next.pool, reservation)) :
      LoopMove state next id (.reserveUpTo id) (.reservingUpTo cell fetched)
        (.granted cell fetched reservation true)

theorem loop_move (move : Move state id task action next) (inside : task.pc.inLoop = true) :
    ∃ pc, next.tasks = state.tasks.set id { task with pc := pc } ∧
      LoopMove state next id action task.pc pc := by
  cases move with
  | reserveGranted cell fetched locked pool reservation stage granted =>
      exact ⟨_, rfl, stage ▸ .granted cell fetched locked reservation granted⟩
  | reserveFailed cell fetched locked stage refused =>
      cases locked with
      | false => exact ⟨_, rfl, stage ▸ .refused cell fetched refused⟩
      | true => exact ⟨_, rfl, stage ▸ .refusedLocked cell fetched refused rfl rfl⟩
  | acquireEvict cell fetched stage unlocked =>
      exact ⟨_, rfl, stage ▸ .acquired cell fetched rfl rfl⟩
  | cancelInit cell stage =>
      rcases stage with stage | ⟨_, stage⟩ | ⟨fetched, stage⟩
      · rw [stage] at inside
        cases inside
      · rw [stage] at inside
        cases inside
      · exact ⟨_, State.abandon_tasks _ _ _, stage ▸ .cancelled cell fetched⟩
  | popEntry cell fetched key victim rest stage popped =>
      exact ⟨_, rfl, stage ▸ .popped cell fetched (key, victim) popped rfl⟩
  | popNothing cell fetched stage exhausted =>
      exact ⟨_, rfl, stage ▸ .exhausted cell fetched exhausted rfl rfl⟩
  | evict cell fetched victim stage =>
      exact ⟨_, State.release_tasks _ _, stage ▸ .evicted cell fetched victim (by simp) (by simp)⟩
  | reserveUpTo cell fetched pool reservation stage granted =>
      exact ⟨_, rfl, stage ▸ .grantedUpTo cell fetched reservation granted⟩
  | cancelIdle stage => rcases stage with stage | stage <;> rw [stage] at inside <;> cases inside
  | cancelJoined cell stage =>
      rcases stage with stage | ⟨_, stage⟩ <;> rw [stage] at inside <;> cases inside
  | acquireLookup stage | lookup stage | joinFilled _ _ stage | joinEmpty _ stage
  | answerNever _ stage | answerFound _ _ stage | answerNone _ stage | answerError _ _ stage
  | storeOk _ _ _ _ stage | storeError _ _ _ _ stage | unlock _ _ _ stage | fill _ _ _ _ stage
  | count _ _ stage | respond _ _ _ _ stage =>
      rw [stage] at inside
      cases inside

theorem unlocked_move {fetched : Fetched} {calls : Nat} (move : Move state id task action next)
    (place : Unlocked fetched calls task.pc) (fresh : action ≠ .acquire id) :
    action.loops id = action.calls id ∧ poppedBy id state action = none ∧
      ∃ pc, next.tasks = state.tasks.set id { task with pc := pc } ∧
        Unlocked fetched (calls + if action.calls id then 1 else 0) pc := by
  generalize stage : task.pc = pc at place
  cases place with
  | past pc left few =>
      rcases past_move move (stage ▸ left) with ⟨quiet, after, tasks, later⟩
      rcases quiet_step quiet with ⟨silent, nothing, -⟩
      refine ⟨quiet.trans silent.symm, nothing state, after, tasks, ?_⟩
      rw [silent]
      exact .past after later few
  | reserving cell none =>
      rcases loop_move move (by rw [stage]; rfl) with ⟨after, tasks, effect⟩
      rw [stage] at effect
      cases effect with
      | granted _ _ _ reservation enough =>
          exact ⟨rfl, rfl, _, tasks, .past _ rfl (by simp [Action.calls, none])⟩
      | refused _ _ short =>
          exact ⟨rfl, rfl, _, tasks, .wanting cell (by simp [Action.calls, none])⟩
  | wanting cell one =>
      rcases loop_move move (by rw [stage]; rfl) with ⟨after, tasks, effect⟩
      rw [stage] at effect
      cases effect with
      | acquired _ _ lock map => exact absurd rfl fresh
      | cancelled _ _ => exact ⟨rfl, rfl, _, tasks, .past _ rfl (by simp [Action.calls, one])⟩

/-- With the lock, the loop pops the last entries of what it found, one for each call. -/
theorem locked_move {fetched : Fetched} {found popped : List MapEntry} {calls steps : Nat}
    (move : Move state id task action next)
    (place : Locked id fetched found state popped calls steps task.pc) :
    ∃ pc, next.tasks = state.tasks.set id { task with pc := pc } ∧
      Locked id fetched found next (popped ++ (poppedBy id state action).toList)
        (calls + if action.calls id then 1 else 0) (steps + if action.loops id then 1 else 0) pc := by
  generalize stage : task.pc = pc at place
  cases place with
  | past pc left rest called stepped =>
      rcases past_move move (stage ▸ left) with ⟨quiet, after, tasks, later⟩
      rcases quiet_step quiet with ⟨silent, nothing, -⟩
      refine ⟨after, tasks, ?_⟩
      rw [silent, quiet, nothing state, Option.toList_none, List.append_nil]
      exact .past after later rest called stepped
  | popping cell held rest called stepped =>
      rcases loop_move move (by rw [stage]; rfl) with ⟨after, tasks, effect⟩
      rw [stage] at effect
      refine ⟨after, tasks, ?_⟩
      cases effect with
      | popped _ _ entry last lock =>
          have split := (LruCache.pop_some last).1
          have taken : poppedBy id state (.pop id : Action T) = some entry := by
            simp [poppedBy, last]
          rw [taken]
          refine .evicting cell entry.2 (lock.trans held) ?_ ?_ ?_
          · rw [rest, split]
            simp
          · simp [Action.calls, called]
          · simp [Action.calls, Action.loops, stepped]
      | exhausted _ _ empty lock map =>
          have vacant := LruCache.pop_none.mp empty
          have taken : poppedBy id state (.pop id : Action T) = none := by simp [poppedBy, empty]
          rw [taken]
          refine .reservingUpTo cell (lock.trans held) ?_ (map ▸ vacant) ?_ ?_
          · rw [rest, vacant]
            simp
          · simp [Action.calls, called]
          · simp [Action.calls, Action.loops, stepped]
  | evicting cell victim held rest called stepped =>
      rcases loop_move move (by rw [stage]; rfl) with ⟨after, tasks, effect⟩
      rw [stage] at effect
      refine ⟨after, tasks, ?_⟩
      cases effect with
      | evicted _ _ _ lock map =>
          refine .reserving cell (lock.trans held) ?_ ?_ ?_
          · simp [poppedBy, map, rest]
          · simpa [Action.calls, poppedBy] using called
          · simp [Action.calls, Action.loops, stepped]
  | reserving cell held rest called stepped =>
      rcases loop_move move (by rw [stage]; rfl) with ⟨after, tasks, effect⟩
      rw [stage] at effect
      refine ⟨after, tasks, ?_⟩
      have lengths := congrArg List.length rest
      simp only [List.length_reverse, List.length_append] at lengths
      cases effect with
      | granted _ _ _ reservation enough =>
          refine .past _ rfl ?_ ?_ ?_
          · simp [poppedBy, rest]
          · simp only [Action.calls, decide_true, if_true]
            omega
          · simp only [Action.loops, decide_true, if_true]
            omega
      | refusedLocked _ _ short lock map =>
          refine .popping cell (lock.trans held) ?_ ?_ ?_
          · simp [poppedBy, map, rest]
          · simpa [Action.calls, poppedBy] using called
          · simp only [Action.calls, Action.loops, decide_true, if_true]
            omega
  | reservingUpTo cell held rest empty called stepped =>
      rcases loop_move move (by rw [stage]; rfl) with ⟨after, tasks, effect⟩
      rw [stage] at effect
      refine ⟨after, tasks, ?_⟩
      have lengths := congrArg List.length rest
      simp only [List.length_reverse] at lengths
      cases effect with
      | grantedUpTo _ _ reservation granted =>
          refine .past _ rfl ?_ ?_ ?_
          · simp [poppedBy, rest]
          · simp only [Action.calls, decide_true, if_true]
            omega
          · simp only [Action.loops, decide_true, if_true]
            omega

theorem locked_aside {fetched : Fetched} {found popped : List MapEntry} {calls steps : Nat}
    (place : Locked id fetched found state popped calls steps pc)
    (aside : state.lock = some id → next.lock = some id ∧ next.map = state.map) :
    Locked id fetched found next popped calls steps pc := by
  cases place with
  | popping cell held rest called stepped =>
      have same := aside held
      exact .popping cell same.1 (same.2 ▸ rest) called stepped
  | evicting cell victim held rest called stepped =>
      have same := aside held
      exact .evicting cell victim same.1 (same.2 ▸ rest) called stepped
  | reserving cell held rest called stepped =>
      have same := aside held
      exact .reserving cell same.1 (same.2 ▸ rest) called stepped
  | reservingUpTo cell held rest empty called stepped =>
      have same := aside held
      exact .reservingUpTo cell same.1 rest (same.2 ▸ empty) called stepped
  | past pc left rest called stepped => exact .past pc left rest called stepped

section Runs

variable [PathTree T] {fetched : Fetched} {cell : CellId}

theorem step_own (exclusive : Exclusive state) (present : state.tasks[id]? = some task)
    (taken : step state action = some next) :
    Move state id task action next ∨
      (action.loops id = false ∧ next.tasks[id]? = some task ∧
        (state.lock = some id → next.lock = some id ∧ next.map = state.map)) := by
  rcases step_moves taken with ⟨cache, path, now, rfl, rfl⟩ | ⟨mover, found, other, move⟩
  · rcases start_started state cache path now with ⟨fresh, started⟩
    refine Or.inr ⟨rfl, ?_, fun held => ⟨started.lock.trans held, started.map⟩⟩
    rw [started.tasks]
    exact Arena.get_append_old _ present
  · by_cases same : mover = id
    · subst mover
      rw [present, Option.some.injEq] at other
      exact Or.inl (other ▸ move)
    · refine Or.inr ⟨loops_other move same, ?_, move_aside exclusive other move same⟩
      rcases move_task move with ⟨pc, tasks⟩
      rw [tasks, Arena.get_set _ other, if_neg same]
      exact present

theorem run_exclusive (exclusive : Exclusive start)
    (reached : Transition.run step start actions = some final) : Exclusive final :=
  Transition.run_induction (fun _ state => Exclusive state) exclusive
    (fun _ _ _ _ _ before taken => step_exclusive before taken) reached

theorem run_unlocked (exclusive : Exclusive start) (present : start.tasks[id]? = some task)
    (entered : task.pc = .reserving cell fetched false)
    (reached : Transition.run step start actions = some final)
    (fresh : .acquire id ∉ actions) :
    actions.countP (Action.loops id) = actions.countP (Action.calls id) ∧
      Transition.observed step (poppedBy id) start actions = [] ∧
      ∃ task, final.tasks[id]? = some task ∧
        Unlocked fetched (actions.countP (Action.calls id)) task.pc := by
  refine Transition.run_induction (fun actions state => .acquire id ∉ actions →
    actions.countP (Action.loops id) = actions.countP (Action.calls id) ∧
      Transition.observed step (poppedBy id) start actions = [] ∧
      ∃ task, state.tasks[id]? = some task ∧
        Unlocked fetched (actions.countP (Action.calls id)) task.pc) ?_ ?_ reached fresh
  · intro _
    exact ⟨rfl, rfl, task, present, entered ▸ .reserving cell rfl⟩
  · intro actions state action next earlier before taken fresh
    rw [List.mem_append, List.mem_singleton, not_or] at fresh
    rcases before fresh.1 with ⟨same, nothing, task, found, place⟩
    rw [Transition.observed_snoc earlier, nothing, List.countP_append, List.countP_append, same,
      List.countP_singleton, List.countP_singleton, List.nil_append]
    rcases step_own (run_exclusive exclusive earlier) found taken with
      move | ⟨quiet, kept, -⟩
    · rcases unlocked_move move place (Ne.symm fresh.2) with ⟨counted, silent, pc, tasks, later⟩
      exact ⟨by rw [counted], by rw [silent]; rfl, _, moved_task found tasks, later⟩
    · rcases quiet_step quiet with ⟨silent, none, -⟩
      rw [silent, quiet, none state]
      exact ⟨rfl, rfl, task, kept, place⟩

theorem run_locked {entries : List MapEntry} (exclusive : Exclusive start)
    (present : start.tasks[id]? = some task)
    (entered : Locked id fetched entries start [] 0 0 task.pc)
    (reached : Transition.run step start actions = some final) :
    ∃ task, final.tasks[id]? = some task ∧
      Locked id fetched entries final (Transition.observed step (poppedBy id) start actions)
        (actions.countP (Action.calls id)) (actions.countP (Action.loops id)) task.pc := by
  refine Transition.run_induction (fun actions state => ∃ task, state.tasks[id]? = some task ∧
      Locked id fetched entries state (Transition.observed step (poppedBy id) start actions)
        (actions.countP (Action.calls id)) (actions.countP (Action.loops id)) task.pc) ?_ ?_ reached
  · exact ⟨task, present, entered⟩
  · rintro actions state action next earlier ⟨task, found, place⟩ taken
    rw [Transition.observed_snoc earlier, List.countP_append, List.countP_append,
      List.countP_singleton, List.countP_singleton]
    rcases step_own (run_exclusive exclusive earlier) found taken with
      move | ⟨quiet, kept, aside⟩
    · rcases locked_move move place with ⟨pc, tasks, later⟩
      exact ⟨_, moved_task found tasks, later⟩
    · rcases quiet_step quiet with ⟨silent, none, -⟩
      rw [silent, quiet, none state, Option.toList_none, List.append_nil]
      exact ⟨task, kept, locked_aside place aside⟩

theorem acquire_locks {calls : Nat} (exclusive : Exclusive state)
    (present : state.tasks[id]? = some task) (place : Unlocked fetched calls task.pc)
    (taken : step state (.acquire id : Action T) = some next) :
    calls = 1 ∧ ∃ task, next.tasks[id]? = some task ∧
      Locked id fetched state.map.entries next [] 0 0 task.pc := by
  rcases step_own exclusive present taken with move | ⟨quiet, -⟩
  · generalize stage : task.pc = pc at place
    cases place with
    | past pc left few => cases (past_move move (stage ▸ left)).1.symm.trans (decide_eq_true rfl)
    | reserving cell none =>
        rcases loop_move move (by rw [stage]; rfl) with ⟨after, tasks, effect⟩
        rw [stage] at effect
        cases effect
    | wanting cell one =>
        rcases loop_move move (by rw [stage]; rfl) with ⟨after, tasks, effect⟩
        rw [stage] at effect
        cases effect with
        | acquired _ _ lock map =>
            have rest : state.map.entries.reverse = [] ++ next.map.entries.reverse := by
              rw [map, List.nil_append]
            exact ⟨one, _, moved_task present tasks, .popping cell lock rest rfl rfl⟩
  · cases quiet.symm.trans (decide_eq_true rfl)

/-- Every loop is before its lock, or has what it found accounted for. -/
theorem loop_place (exclusive : Exclusive start) (present : start.tasks[id]? = some task)
    (entered : task.pc = .reserving cell fetched false)
    (reached : Transition.run step start actions = some final) :
    ∃ task, final.tasks[id]? = some task ∧ ((∃ calls, Unlocked fetched calls task.pc) ∨
      ∃ found popped calls steps, Locked id fetched found final popped calls steps task.pc) := by
  by_cases locks : .acquire id ∈ actions
  · rcases List.eq_append_cons_of_mem locks with ⟨before, after, rfl, fresh⟩
    rw [Transition.run_append, Option.bind_eq_some_iff] at reached
    rcases reached with ⟨state, earlier, later⟩
    rcases Option.bind_eq_some_iff.mp later with ⟨held, taken, rest⟩
    rcases run_unlocked exclusive present entered earlier fresh with ⟨-, -, task, found, place⟩
    have exclusive := run_exclusive exclusive earlier
    rcases acquire_locks exclusive found place taken with ⟨-, task, found, place⟩
    rcases run_locked (step_exclusive exclusive taken) found place rest with ⟨task, found, place⟩
    exact ⟨task, found, Or.inr ⟨_, _, _, _, place⟩⟩
  · rcases run_unlocked exclusive present entered reached locks with ⟨-, -, task, found, place⟩
    exact ⟨task, found, Or.inl ⟨_, place⟩⟩

theorem loop_ready (exclusive : Exclusive state) (present : state.tasks[id]? = some task)
    (inside : task.pc.inLoop = true) :
    Ready T state id ∨ ∃ holder, holder ≠ id ∧ state.lock = some holder ∧ Ready T state holder := by
  cases stage : task.pc with
  | evictLock cell fetched =>
      cases held : state.lock with
      | none => exact Or.inl (ready_move present rfl (.acquireEvict cell fetched stage held))
      | some holder =>
          rcases exclusive.held holder held with ⟨other, found, holds⟩
          refine Or.inr ⟨holder, ?_, rfl, ?_⟩
          · rintro rfl
            rw [present, Option.some.injEq] at found
            rw [← found, stage] at holds
            cases holds
          · refine ready_of_near found ?_ ?_ ?_ <;>
              cases place : other.pc <;> simp_all [Pc.holdsLock, Pc.ended, Pc.outside, Pc.distance]
  | reserving | popping | evicting | reservingUpTo =>
      left
      refine ready_of_near present ?_ ?_ ?_ <;> rw [stage] <;> rfl
  | neverFetch | lookupLock | lookup | joining | fetching | storing | granted | initialized
  | cloning | finished | panicked | cancelled =>
      rw [stage] at inside
      cases inside

theorem loop_grant {old new : Task} {own : CellId} {fetched' : Fetched}
    {reservation : CacheCapacityReservation} {locked : Bool} (exclusive : Exclusive state)
    (present : state.tasks[id]? = some old)
    (place : (∃ calls, Unlocked fetched calls old.pc) ∨
      ∃ found popped calls steps, Locked id fetched found state popped calls steps old.pc)
    (inside : old.pc.inLoop = true) (taken : step state action = some next)
    (after : next.tasks[id]? = some new)
    (granted : new.pc = .granted own fetched' reservation locked) :
    reservation.reserved = fetched.file.size ∨ (state.map.entries = [] ∧
      reservation.reserved = state.pool.availableCapacity) := by
  rcases step_own exclusive present taken with move | ⟨-, kept, -⟩
  · rcases loop_move move inside with ⟨pc, tasks, effect⟩
    rw [moved_task present tasks, Option.some.injEq] at after
    subst after
    simp only at granted
    subst granted
    generalize stage : old.pc = pc at place effect
    cases effect with
    | granted _ _ _ _ enough =>
        left
        have reserved := (CapacityPool.reserve_some.mp enough).1
        rcases place with ⟨calls, place⟩ | ⟨found, popped, calls, steps, place⟩
        · cases place with
          | reserving _ none => exact reserved
          | past _ left few => cases left
        · cases place with
          | reserving _ held rest called stepped => exact reserved
          | past _ left rest called stepped => cases left
    | grantedUpTo _ _ _ rest =>
        rcases CapacityPool.reserve_up_to_grants state.pool fetched'.file.size with
          ⟨pool, grant, again, amount, -⟩
        rw [rest, Option.some.injEq, Prod.mk.injEq] at again
        rw [← again.2] at amount
        rcases place with ⟨calls, place⟩ | ⟨found, popped, calls, steps, place⟩
        · cases place with
          | past _ left few => cases left
        · cases place with
          | reservingUpTo _ held all empty called stepped =>
              by_cases enough : fetched.file.size.toNat ≤ state.pool.availableCapacity.toNat
              · left
                exact UInt64.toNat_inj.mp (amount.trans (Nat.min_eq_left enough))
              · right
                exact ⟨empty, UInt64.toNat_inj.mp
                  (amount.trans (Nat.min_eq_right (Nat.le_of_not_le enough)))⟩
          | past _ left rest called stepped => cases left
  · rw [kept, Option.some.injEq] at after
    rw [after, granted] at inside
    cases inside

theorem loop_exit {old new : Task} (exclusive : Exclusive state)
    (present : state.tasks[id]? = some old) (inside : old.pc.inLoop = true)
    (taken : step state action = some next) (after : next.tasks[id]? = some new) :
    new.pc.inLoop = true ∨
      (∃ cell fetched reservation locked, new.pc = .granted cell fetched reservation locked) ∨
        (action = .cancel id ∧ new.pc = .cancelled) := by
  rcases step_own exclusive present taken with move | ⟨-, kept, -⟩
  · rcases loop_move move inside with ⟨pc, tasks, effect⟩
    rw [moved_task present tasks, Option.some.injEq] at after
    subst after
    generalize old.pc = place at effect
    cases effect with
    | granted cell fetched locked reservation =>
        exact Or.inr (Or.inl ⟨cell, fetched, reservation, locked, rfl⟩)
    | grantedUpTo cell fetched reservation =>
        exact Or.inr (Or.inl ⟨cell, fetched, reservation, true, rfl⟩)
    | cancelled => exact Or.inr (Or.inr ⟨rfl, rfl⟩)
    | refused | refusedLocked | acquired | popped | exhausted | evicted => exact Or.inl rfl
  · rw [kept, Option.some.injEq] at after
    exact Or.inl (after ▸ inside)

/-- From the moment the lock is taken, with these entries in the map: the loop pops some
of them, least recent first, and its calls and its steps are bounded. -/
structure LockedBounds (id : TaskId) (entries : List MapEntry) (held : State)
    (after : List (Action T)) : Prop where
  pops : (Transition.observed step (poppedBy id) held after).length ≤ entries.length
  order : Transition.observed step (poppedBy id) held after <+: entries.reverse
  calls : after.countP (Action.calls id) ≤ entries.length + 1
  steps : after.countP (Action.loops id) ≤ 3 * entries.length + 2

/-- What is promised of the loop of a get for a body of this size, along any run that
begins with the loop. -/
structure LoopSound (id : TaskId) (size : UInt64) (start : State) (actions : List (Action T))
    (final : State) : Prop where
  /-- Without the lock there is one call, and nothing is popped. -/
  unlocked : .acquire id ∉ actions → actions.countP (Action.loops id) ≤ 1 ∧
    Transition.observed step (poppedBy id) start actions = []
  locked : ∀ before after state held, actions = before ++ .acquire id :: after →
    .acquire id ∉ before → Transition.run step start before = some state →
      step state (.acquire id : Action T) = some held →
        before.countP (Action.loops id) = 1 ∧
        Transition.observed step (poppedBy id) start before = [] ∧
        LockedBounds id state.map.entries held after
  /-- What is popped is the least recently used entry of that moment. -/
  recent : ∀ before after state entry, actions = before ++ .pop id :: after →
    Transition.run step start before = some state →
      poppedBy id state (.pop id : Action T) = some entry →
        state.map.entries.getLast? = some entry
  /-- The loop is never stuck but for the lock, whose holder is not stuck. -/
  ready : ∀ task, final.tasks[id]? = some task → task.pc.inLoop = true →
    Ready T final id ∨ ∃ holder, holder ≠ id ∧ final.lock = some holder ∧ Ready T final holder
  /-- It ends by a grant, or because the get is cancelled while it waits for the lock. -/
  exit : ∀ before action after state next old new, actions = before ++ action :: after →
    Transition.run step start before = some state → step state action = some next →
      state.tasks[id]? = some old → old.pc.inLoop = true → next.tasks[id]? = some new →
        new.pc.inLoop = true ∨
          (∃ cell fetched reservation locked, new.pc = .granted cell fetched reservation locked) ∨
            (action = .cancel id ∧ new.pc = .cancelled)
  /-- The grant with which it ends. -/
  grant : ∀ before action after state next old new cell fetched reservation locked,
    actions = before ++ action :: after → Transition.run step start before = some state →
      step state action = some next → state.tasks[id]? = some old → old.pc.inLoop = true →
        next.tasks[id]? = some new → new.pc = .granted cell fetched reservation locked →
          reservation.reserved = size ∨ (state.map.entries = [] ∧
            reservation.reserved = state.pool.availableCapacity)

theorem locked_bounds {entries : List MapEntry} (exclusive : Exclusive start)
    (present : start.tasks[id]? = some task)
    (entered : Locked id fetched entries start [] 0 0 task.pc)
    (reached : Transition.run step start actions = some final) :
    LockedBounds id entries start actions := by
  rcases run_locked exclusive present entered reached with ⟨task, -, place⟩
  have total {popped : List MapEntry} (rest : popped <+: entries.reverse) :
      popped.length ≤ entries.length := by
    have shorter := rest.length_le
    rwa [List.length_reverse] at shorter
  generalize task.pc = pc at place
  cases place with
  | popping cell held rest called stepped =>
      have few := total ⟨_, rest.symm⟩
      exact ⟨few, ⟨_, rest.symm⟩, by omega, by omega⟩
  | evicting cell victim held rest called stepped =>
      have few := total ⟨_, rest.symm⟩
      exact ⟨few, ⟨_, rest.symm⟩, by omega, by omega⟩
  | reserving cell held rest called stepped =>
      have few := total ⟨_, rest.symm⟩
      exact ⟨few, ⟨_, rest.symm⟩, by omega, by omega⟩
  | reservingUpTo cell held rest empty called stepped =>
      have all : Transition.observed step (poppedBy id) start actions <+: entries.reverse :=
        ⟨[], by rw [List.append_nil, rest]⟩
      have few := total all
      exact ⟨few, all, by omega, by omega⟩
  | past pc left rest called stepped => exact ⟨total rest, rest, called, stepped⟩

/-- The loop ends with a sound grant, in any state with one holder of the lock and
whatever the other gets do. -/
theorem reservation_loop_sound (exclusive : Exclusive start)
    (present : start.tasks[id]? = some task) (entered : task.pc = .reserving cell fetched false)
    (reached : Transition.run step start actions = some final) :
    LoopSound id fetched.file.size start actions final := by
  constructor
  · intro fresh
    rcases run_unlocked exclusive present entered reached fresh with
      ⟨same, nothing, task, -, place⟩
    refine ⟨?_, nothing⟩
    rw [same]
    generalize task.pc = pc at place
    cases place <;> omega
  · intro before after state held split fresh earlier taken
    rcases run_unlocked exclusive present entered earlier fresh with
      ⟨same, nothing, task, found, place⟩
    have exclusive := run_exclusive exclusive earlier
    rcases acquire_locks exclusive found place taken with ⟨one, task, found, place⟩
    rw [split, Transition.run_append, earlier, Option.bind_some] at reached
    rcases Option.bind_eq_some_iff.mp reached with ⟨again, taken', rest⟩
    rw [taken, Option.some.injEq] at taken'
    subst again
    exact ⟨same.trans one, nothing,
      locked_bounds (step_exclusive exclusive taken) found place rest⟩
  · intro before after state entry _ _ popped
    simp only [poppedBy, if_true, LruCache.popLru, Option.map_map, Option.map_eq_some_iff,
      Function.comp_apply] at popped
    rcases popped with ⟨last, same, rfl⟩
    exact same
  · intro task found inside
    exact loop_ready (run_exclusive exclusive reached) found inside
  · intro before action after state next old new _ earlier taken found inside later
    exact loop_exit (run_exclusive exclusive earlier) found inside taken later
  · intro before action after state next old new own fetched' reservation locked split earlier
      taken found inside later granted
    rcases loop_place exclusive present entered earlier with ⟨task, found', place⟩
    rw [found, Option.some.injEq] at found'
    subst found'
    exact loop_grant (run_exclusive exclusive earlier) found place inside taken later granted

end Runs

theorem inv_exclusive {capacity : UInt64} (inv : Inv capacity state) : Exclusive state :=
  ⟨fun id task present => (inv.tasks id task present).lock, inv.locks⟩

/-- /a is cached, and /b is written to its file and does not fit next to it. -/
def secondStored : List (Action LiteralTree) :=
  fetchActions plainCache "/a" epoch 0 (plainBody [1, 2]) ++ fillActions 0 ⟨epoch, ⟨0⟩⟩ ++
    respondActions 0 ++ fetchActions plainCache "/b" epoch 1 (plainBody [3, 4, 5]) ++
    [.store 1 none]

theorem reservation_loop_sound_evicting :
    ∃ start final, Transition.run step (initial 3 2 (by decide)) secondStored = some start ∧
      Transition.run step start
        ([.reserve 1, .acquire 1, .pop 1, .evict 1, .reserve 1] : List (Action LiteralTree)) =
          some final ∧
      LoopSound 1 3 start
        ([.reserve 1, .acquire 1, .pop 1, .evict 1, .reserve 1] : List (Action LiteralTree)) final := by
  have begun : ∃ start task cell fetched,
      Transition.run step (initial 3 2 (by decide)) secondStored = some start ∧
      start.tasks[1]? = some task ∧ task.pc = .reserving cell fetched false ∧
      fetched.file.size = 3 ∧ (Transition.run step start
        ([.reserve 1, .acquire 1, .pop 1, .evict 1, .reserve 1] : List (Action LiteralTree))).isSome :=
    ⟨_, _, _, _, rfl, rfl, rfl, rfl, rfl⟩
  rcases begun with ⟨start, task, cell, fetched, reached, present, entered, size, ran⟩
  rcases Option.isSome_iff_exists.mp ran with ⟨final, later⟩
  exact ⟨start, final, reached, later,
    size ▸ reservation_loop_sound (inv_exclusive (run_inv reached)) present entered later⟩

end Server3.Machine
