import Mathlib.Order.Filter.AtTopBot.Basic
import Mathlib.Order.Filter.Finite
import Server3.Fairness
import Server3.Termination

/-! Every get ends, in every run that goes on for ever under a fair schedule, however many
gets keep coming. -/

namespace Server3.Machine

open Clock Routes Upstream Resource Recency
open CapacityPool (CacheCapacityPool CacheCapacityReservation)
open Transition (Course)
open Filter (atTop eventually_atTop eventually_all_finset)

section Moves

variable {T : Type → Type} {capacity : UInt64} {state next : State} {id : TaskId} {task : Task}
  {action : Action T}

theorem move_own_or_ended (present : state.tasks[id]? = some task)
    (move : Move state id task action next) :
    action.advances = some id ∨
      ∃ last, next.tasks[id]? = some last ∧ last.pc.ended = true := by
  cases move with
  | cancelIdle stage => exact Or.inr ⟨_, Arena.get_set_self _ present, rfl⟩
  | cancelJoined cell stage =>
      right
      rw [State.release_tasks]
      exact ⟨_, Arena.get_set_self _ present, rfl⟩
  | cancelInit cell stage =>
      right
      rw [State.abandon_tasks]
      exact ⟨_, Arena.get_set_self _ present, rfl⟩
  | _ => exact Or.inl rfl

theorem move_initializes (move : Move state id task action next) :
    ∃ pc, next.tasks = state.tasks.set id { task with pc := pc } ∧
      ∀ cell, pc.initializes = some cell →
        task.pc.initializes = some cell ∨ state.cellAt cell = some .empty := by
  cases move with
  | joinEmpty own stage found =>
      refine ⟨_, rfl, ?_⟩
      intro cell permit
      cases permit
      exact Or.inr found
  | lookup stage => exact ⟨_, State.releaseOption_tasks _, by simp [Pc.initializes]⟩
  | answerNone own stage | answerError own _ stage | storeError own _ _ _ stage
  | cancelInit own stage => exact ⟨_, State.abandon_tasks _ _ _, by simp [Pc.initializes]⟩
  | evict own fetched victim stage =>
      exact ⟨_, State.release_tasks _ _, by simp [stage, Pc.initializes]⟩
  | respond own resource cloneError result stage shape =>
      exact ⟨_, State.release_tasks _ _, by simp [Pc.initializes]⟩
  | cancelJoined own stage => exact ⟨_, State.release_tasks _ _, by simp [Pc.initializes]⟩
  | reserveFailed own fetched locked stage refused =>
      refine ⟨_, rfl, ?_⟩
      cases locked <;> simp [stage, Pc.initializes]
  | acquireLookup stage | acquireEvict _ _ stage | joinFilled _ _ stage | answerNever _ stage
  | answerFound _ _ stage | storeOk _ _ _ _ stage | reserveGranted _ _ _ _ _ stage
  | popEntry _ _ _ _ _ stage | popNothing _ _ stage | reserveUpTo _ _ _ _ stage
  | unlock _ _ _ stage | fill _ _ _ _ stage | count _ _ stage =>
      exact ⟨_, rfl, by simp [stage, Pc.initializes]⟩
  | cancelIdle stage => exact ⟨_, rfl, by simp [Pc.initializes]⟩

end Moves

section Steps

variable {T : Type → Type} [PathTree T] {capacity : UInt64} {state next : State} {id : TaskId}
  {task : Task} {action : Action T}

variable (T) in
theorem ready_of_outside (present : state.tasks[id]? = some task)
    (outside : task.pc.outside = true) : Ready T state id := by
  cases stage : task.pc with
  | neverFetch => exact ready_move present rfl (.answerNever (.ok none) stage)
  | fetching cell => exact ready_move present rfl (.answerNone cell stage)
  | storing cell resource =>
      cases stored : Upstream.store resource.body none with
      | ok file => exact ready_move present rfl (.storeOk cell resource none file stage stored)
      | error failure =>
          exact ready_move present rfl (.storeError cell resource none failure stage stored)
  | cloning cell resource =>
      exact ready_move present rfl (.respond cell resource none _ stage rfl)
  | _ => simp [stage, Pc.outside] at outside

theorem quiet_unready (quiet : state.Quiet) : ¬ Ready T state id := by
  intro ready
  rcases ready with ⟨action, next, own, taken⟩
  rcases step_moves taken with ⟨cache, path, now, rfl, -⟩ | ⟨mover, task, present, move⟩
  · cases own
  · have ended := quiet task (List.mem_of_getElem? present)
    rw [move_unended move] at ended
    cases ended

theorem step_unready (taken : step state action = some next)
    (present : state.tasks[id]? = some task) (unready : ¬ Ready T state id) :
    next.tasks[id]? = some task ∨ ∃ last, next.tasks[id]? = some last ∧ last.pc.ended = true := by
  rcases step_moves taken with ⟨cache, path, now, rfl, rfl⟩ | ⟨mover, found, among, move⟩
  · rcases start_started state cache path now with ⟨fresh, started⟩
    rw [started.tasks]
    exact Or.inl (Arena.get_append_old _ present)
  · by_cases same : mover = id
    · subst same
      rcases move_own_or_ended among move with own | ended
      · exact absurd ⟨action, next, own, taken⟩ unready
      · exact Or.inr ended
    · rcases move_task move with ⟨pc, tasks⟩
      rw [tasks]
      exact Or.inl ((Arena.get_set_other _ _ same).trans present)

theorem step_lock {holder : TaskId} (taken : step state action = some next)
    (held : state.lock = some holder) : next.lock = some holder ∨ next.lock = none := by
  rcases step_moves taken with ⟨cache, path, now, rfl, rfl⟩ | ⟨mover, found, among, move⟩
  · rcases start_started state cache path now with ⟨fresh, started⟩
    exact Or.inl (started.lock.trans held)
  · rcases move_lock move with ⟨pc, -, change, -⟩
    cases change with
    | kept _ lock => exact Or.inl (lock.trans held)
    | taken _ _ free _ =>
        rw [held] at free
        cases free
    | released _ _ lock => exact Or.inr lock

theorem step_permit {cell : CellId} {holder other : TaskId} (inv : Inv capacity state)
    (taken : step state action = some next)
    (before : state.cellAt cell = some (.initializing holder))
    (after : next.cellAt cell = some (.initializing other)) : other = holder := by
  rcases (step_inv inv taken).permits cell other after with ⟨task, present, permit⟩
  have unchanged (old : state.tasks[other]? = some task) : other = holder := by
    have held := (inv.tasks other task old).permit cell permit
    rw [before, Option.some.injEq, Cell.initializing.injEq] at held
    exact held.symm
  rcases step_moves taken with ⟨cache, path, now, rfl, rfl⟩ | ⟨mover, found, among, move⟩
  · rcases start_started state cache path now with ⟨fresh, started⟩
    rw [started.tasks] at present
    rcases Arena.get_append_cases present with old | ⟨-, new⟩
    · exact unchanged old
    · rw [new] at permit
      rcases started.stage with ⟨stage, -⟩ | ⟨stage, -⟩ | ⟨stage, -⟩ | ⟨stage, -⟩ <;>
        rw [stage] at permit <;> cases permit
  · rcases move_initializes move with ⟨pc, tasks, came⟩
    rcases task_after among tasks present with ⟨same, moved⟩ | ⟨-, old⟩
    · rw [moved] at permit
      rcases came cell permit with kept | empty
      · have held := (inv.tasks mover found among).permit cell kept
        rw [before, Option.some.injEq, Cell.initializing.injEq] at held
        exact same.trans held.symm
      · rw [before] at empty
        cases empty
    · exact unchanged old

end Steps

section Runs

variable {T : Type → Type} [PathTree T] {capacity : UInt64} {slots : Nat} {positive : 0 < slots}
  {id : TaskId} {task : Task}
  {course : Course (step : State → Action T → Option State) (initial capacity slots positive)}

/-- Whatever get could take a step again and again takes one again and again. For one
that waits for its upstream or the disk this says that they answer at last. -/
def FairToGets (course : Course (step : State → Action T → Option State)
    (initial capacity slots positive)) : Prop :=
  course.Fair Action.advances (Ready T)

theorem course_inv (time : Nat) : Inv capacity (course.state time) := by
  rcases course.reachable time with ⟨actions, reached⟩
  exact run_inv reached

theorem unready_at_last (fair : FairToGets course) (id : TaskId) :
    ∃ time, ∀ later, time ≤ later → ¬ Ready T (course.state later) id := by
  refine course.rests fair id (fun state => state.left id) ?_
  intro state action next earlier taken
  rcases earlier with ⟨actions, reached⟩
  have spent : _ + next.left id ≤ state.left id := step_left (run_inv reached) taken
  constructor
  · exact (Nat.le_add_left _ _).trans spent
  · intro own
    have mine : action.taskId = some id := by
      cases action <;> first | exact own | cases own
    rw [if_pos mine] at spent
    omega

theorem lock_comes_free (fair : FairToGets course) (since : Nat) :
    ∃ time, since ≤ time ∧ (course.state time).lock = none := by
  by_contra never
  have held (time : Nat) (after : since ≤ time) : (course.state time).lock ≠ none := by
    intro free
    exact never ⟨time, after, free⟩
  rcases Option.ne_none_iff_exists'.mp (held since le_rfl) with ⟨holder, begun⟩
  have stays : ∀ time, since ≤ time → (course.state time).lock = some holder := by
    apply course.onwards (fun state => state.lock = some holder) begun
    intro time action after moved same
    rcases step_lock (course.advances time action moved) same with kept | free
    · exact kept
    · exact absurd free (held (time + 1) (Nat.le_succ_of_le after))
  rcases unready_at_last fair holder with ⟨time, unready⟩
  have locked := stays (max since time) (le_max_left since time)
  rcases lock_holder (course_inv _) locked with ⟨task, present, busy, inside, near⟩
  exact unready (max since time) (le_max_right since time) (ready_of_near present busy inside near)

theorem get_kept {since : Nat} (present : (course.state since).tasks[id]? = some task) :
    ∀ time, since ≤ time → ∃ pc, (course.state time).tasks[id]? = some { task with pc := pc } := by
  apply course.onwards (fun state => ∃ pc, state.tasks[id]? = some { task with pc := pc })
    ⟨task.pc, present⟩
  intro time action _ moved before
  rcases before with ⟨pc, found⟩
  rcases step_moves (course.advances time action moved) with
    ⟨cache, path, now, -, same⟩ | ⟨mover, mine, among, move⟩
  · rcases start_started (course.state time) cache path now with ⟨fresh, started⟩
    rw [same, started.tasks]
    exact ⟨pc, Arena.get_append_old _ found⟩
  · rcases move_kept among move found with ⟨place, after⟩
    exact ⟨place, after⟩

/-- A get that never ends can only wait for a permit that is never given back. -/
theorem parked (fair : FairToGets course) {since : Nat}
    (present : (course.state since).tasks[id]? = some task)
    (going : ∀ time, since ≤ time → ∀ last, (course.state time).tasks[id]? = some last →
      last.pc.ended = false) :
    ∃ moment cell last, since ≤ moment ∧ last.pc = .joining cell ∧ ∀ time, moment ≤ time →
      (course.state time).tasks[id]? = some last ∧
        ∃ holder, (course.state time).cellAt cell = some (.initializing holder) := by
  rcases unready_at_last fair id with ⟨quiet, unready⟩
  rcases get_kept present (max since quiet) (le_max_left since quiet) with ⟨pc, begun⟩
  let last : Task := { task with pc := pc }
  have stays : ∀ time, max since quiet ≤ time → (course.state time).tasks[id]? = some last := by
    apply course.onwards (fun state => state.tasks[id]? = some last) begun
    intro time action after moved found
    have taken := course.advances time action moved
    rcases step_unready taken found (unready time (le_of_max_le_right after)) with
      kept | ⟨gone, among, ended⟩
    · exact kept
    · have busy := going (time + 1) (Nat.le_succ_of_le (le_of_max_le_left after)) gone among
      rw [ended] at busy
      cases busy
  have waits (time : Nat) (after : max since quiet ≤ time) :
      ∃ holder, WaitsFor (course.state time) last holder := by
    have among := stays time after
    have busy := going time (le_of_max_le_left after) last among
    have unable := unready time (le_of_max_le_right after)
    cases inside : last.pc.outside with
    | true => exact absurd (ready_of_outside T among inside) unable
    | false =>
        rcases ready_or_waits T (course_inv time) among busy inside with ready | waits
        · exact absurd ready unable
        · exact waits
  -- when the lock is free, what is waited for is a permit
  rcases lock_comes_free fair (max since quiet) with ⟨free, after, unlocked⟩
  rcases waits free after with ⟨holder, wait⟩
  cases wait with
  | lock wanted held =>
      rw [unlocked] at held
      cases held
  | permit cell wanted held =>
      have stage : last.pc = .joining cell := joining_of_wants wanted
      refine ⟨max since quiet, cell, last, le_max_left since quiet, stage, ?_⟩
      intro time after
      refine ⟨stays time after, ?_⟩
      rcases waits time after with ⟨other, wait⟩
      cases wait with
      | lock wanted held =>
          rw [stage] at wanted
          cases wanted
      | permit own wanted held =>
          rw [stage, Pc.wantsPermit, Option.some.injEq] at wanted
          rw [wanted]
          exact ⟨other, held⟩

theorem permit_comes_free (fair : FairToGets course) (cell : CellId) (since : Nat) :
    ∃ time, since ≤ time ∧
      ∀ holder, (course.state time).cellAt cell ≠ some (.initializing holder) := by
  by_contra never
  have held (time : Nat) (after : since ≤ time) :
      ∃ holder, (course.state time).cellAt cell = some (.initializing holder) := by
    by_contra free
    exact never ⟨time, after, fun holder same => free ⟨holder, same⟩⟩
  rcases held since le_rfl with ⟨holder, begun⟩
  have stays : ∀ time, since ≤ time →
      (course.state time).cellAt cell = some (.initializing holder) := by
    apply course.onwards (fun state => state.cellAt cell = some (.initializing holder)) begun
    intro time action after moved same
    rcases held (time + 1) (Nat.le_succ_of_le after) with ⟨other, found⟩
    rw [found, step_permit (course_inv time) (course.advances time action moved) same found]
  have busy (time : Nat) (after : since ≤ time) :
      ∃ task, (course.state time).tasks[holder]? = some task ∧ task.pc.initializes = some cell :=
    (course_inv time).permits cell holder (stays time after)
  rcases busy since le_rfl with ⟨task, present, -⟩
  have going (time : Nat) (after : since ≤ time) (last : Task)
      (among : (course.state time).tasks[holder]? = some last) : last.pc.ended = false := by
    rcases busy time after with ⟨found, there, permit⟩
    rw [among, Option.some.injEq] at there
    rw [there]
    exact unended_of_initializes permit
  rcases parked fair present going with ⟨moment, own, last, after, stage, waits⟩
  rcases busy moment after with ⟨found, there, permit⟩
  rw [(waits moment le_rfl).1, Option.some.injEq] at there
  rw [← there, stage] at permit
  cases permit

theorem get_ends (fair : FairToGets course) {since : Nat}
    (present : (course.state since).tasks[id]? = some task) :
    ∃ moment pc, since ≤ moment ∧ pc.ended = true ∧ ∀ time, moment ≤ time →
      (course.state time).tasks[id]? = some { task with pc := pc } := by
  by_contra never
  have going (time : Nat) (after : since ≤ time) (last : Task)
      (among : (course.state time).tasks[id]? = some last) : last.pc.ended = false := by
    apply Bool.eq_false_of_not_eq_true
    intro ended
    rcases get_kept present time after with ⟨pc, kept⟩
    rw [kept, Option.some.injEq] at among
    subst last
    refine never ⟨time, pc, after, ended, ?_⟩
    apply course.onwards (fun state => state.tasks[id]? = some { task with pc := pc }) kept
    intro later action _ moved found
    exact step_ended (course.advances later action moved) found ended
  rcases parked fair present going with ⟨moment, cell, last, -, -, waits⟩
  rcases permit_comes_free fair cell moment with ⟨time, after, free⟩
  rcases (waits time after).2 with ⟨holder, held⟩
  exact free holder held

theorem count_kept {since : Nat} (silent : ∀ time action, since ≤ time →
    course.move time = some action → action.request = none) :
    ∀ time, since ≤ time →
      (course.state time).tasks.length = (course.state since).tasks.length := by
  apply course.onwards (fun state => state.tasks.length = (course.state since).tasks.length) rfl
  intro time action after moved before
  rcases step_moves (course.advances time action moved) with
    ⟨cache, path, now, starts, -⟩ | ⟨mover, mine, among, move⟩
  · have none := silent time action after moved
    rw [starts] at none
    cases none
  · rcases move_task move with ⟨pc, tasks⟩
    rw [tasks, List.length_set]
    exact before

theorem settled_at_last (fair : FairToGets course) {since : Nat}
    (silent : ∀ time action, since ≤ time → course.move time = some action →
      action.request = none) :
    ∃ moment, ∀ time, moment ≤ time → Settled capacity (course.state time) := by
  have ends (id : TaskId) (known : id ∈ Finset.range (course.state since).tasks.length) :
      ∀ᶠ time in atTop, ∀ task ∈ (course.state time).tasks[id]?, task.pc.ended = true := by
    rcases get_ends fair (List.getElem?_eq_getElem (Finset.mem_range.mp known)) with
      ⟨moment, pc, -, ended, there⟩
    apply eventually_atTop.mpr
    refine ⟨moment, ?_⟩
    intro time after task present
    rw [there time after, Option.mem_some_iff] at present
    rw [← present]
    exact ended
  rcases eventually_atTop.mp ((eventually_all_finset _).mpr ends) with ⟨moment, ended⟩
  refine ⟨max since moment, ?_⟩
  intro time after
  have count := count_kept silent time (le_of_max_le_left after)
  have quiet : (course.state time).Quiet := by
    intro task member
    rcases List.getElem?_of_mem member with ⟨id, present⟩
    have known : id ∈ Finset.range (course.state since).tasks.length := by
      rw [Finset.mem_range, ← count]
      exact Arena.get_lt present
    exact ended time (le_of_max_le_right after) id known task present
  rcases course.reachable time with ⟨actions, reached⟩
  exact quiet_settled (run_inv reached) (run_held reached) quiet

theorem fair_idling {actions : List (Action T)} {final : State}
    (reached : Transition.run step (initial capacity slots positive) actions = some final)
    (quiet : final.Quiet) : FairToGets (Transition.idling actions reached) := by
  intro id again
  rcases again actions.length with ⟨time, after, ready⟩
  rw [Transition.idling_final reached after] at ready
  exact absurd ready (quiet_unready quiet)

/-- In every fair run each get ends, whatever gets keep coming, and once no more of them
come the cache is settled at last. -/
theorem fair_gets_end (course : Course (step : State → Action T → Option State)
    (initial capacity slots positive)) (fair : FairToGets course) :
    (∀ since (id : TaskId) task, (course.state since).tasks[id]? = some task →
      ∃ moment pc, since ≤ moment ∧ pc.ended = true ∧ ∀ time, moment ≤ time →
        (course.state time).tasks[id]? = some { task with pc := pc }) ∧
    ∀ since, (∀ time action, since ≤ time → course.move time = some action →
        action.request = none) →
      ∃ moment, ∀ time, moment ≤ time → Settled capacity (course.state time) := by
  constructor
  · intro since id task present
    exact get_ends fair present
  · intro since silent
    exact settled_at_last fair silent

end Runs

def twoServed : List (Action LiteralTree) :=
  fetchActions plainCache "/a" epoch 0 (plainBody [1, 2, 3]) ++
    [.start plainCache "/a" epoch, .acquire 1, .lookup 1] ++ fillActions 0 ⟨epoch, ⟨0⟩⟩ ++
      respondActions 0 ++ [.join 1] ++ respondActions 1

theorem fair_gets_end_served :
    ∃ course : Course (step : State → Action LiteralTree → Option State)
        (initial 3 2 (by decide)),
      (course.state 0).tasks = [] ∧ (∃ task, (course.state 8).tasks[1]? = some task ∧
        ∃ moment pc, 8 ≤ moment ∧ pc.ended = true ∧ ∀ time, moment ≤ time →
          (course.state time).tasks[1]? = some { task with pc := pc }) ∧
      ∃ moment, ∀ time, moment ≤ time → Settled 3 (course.state time) := by
  have places : (Transition.run step (initial 3 2 (by decide)) twoServed).map
      (fun state => state.tasks.all fun task => task.pc.ended) = some true := rfl
  rcases Option.map_eq_some_iff.mp places with ⟨final, reached, ended⟩
  have quiet : final.Quiet := List.all_eq_true.mp ended
  have fair := fair_idling reached quiet
  have ends := fair_gets_end (Transition.idling twoServed reached) fair
  have present : (((Transition.idling twoServed reached).state 8).tasks[1]?).isSome := rfl
  rcases Option.isSome_iff_exists.mp present with ⟨task, present⟩
  refine ⟨Transition.idling twoServed reached, rfl, ⟨task, present, ends.1 8 1 task present⟩, ?_⟩
  apply ends.2 twoServed.length
  intro time action after moved
  have none := (List.getElem?_eq_none_iff.mpr after).symm.trans moved
  cases none

end Server3.Machine
