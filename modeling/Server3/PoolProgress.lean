import Server3.Counting
import Server3.PoolConservation
import Server3.Potential

/-! The loops of the pool go on without locks: an exchange only fails because another one
succeeded, so that all loops together come to their ends. -/

namespace Server3.CapacityPool

open Word64

def Pc.loaded : Pc → Option UInt64
  | .reserveExchange _ loaded _ | .reserveUpToExchange _ loaded _ | .returnExchange _ loaded _ =>
      some loaded
  | _ => none

def Pc.loading : Pc → Bool
  | .reserveLoad _ | .reserveUpToLoad _ | .returnLoad _ => true
  | _ => false

/-- The steps that a task of so many may still take: two more where its exchange will fail,
and two for each of the others that its exchange can make fail. -/
def Pc.work (tasks : Nat) (available : UInt64) (pc : Pc) : Nat :=
  match pc.loaded with
  | some loaded => if available = loaded then 2 * tasks - 1 else 2 * tasks + 1
  | none => if pc.loading then 2 * tasks else 0

def Action.enters : Action → Bool
  | .advance _ => false
  | _ => true

variable {capacity : UInt64} {state next : State} {task : TaskId} {action : Action}
  {tasks : Finset TaskId}

/-- What a task has left to do rises by two at most when the pool changes under it. -/
theorem work_interfered (count : Nat) (before after : UInt64) (pc : Pc) :
    pc.work count after ≤ pc.work count before + 2 := by
  unfold Pc.work
  cases pc.loaded with
  | none => simp
  | some loaded =>
      simp only
      split <;> split <;> omega

theorem work_loading {count : Nat} {available : UInt64} {pc : Pc} (loading : pc.loading = true) :
    pc.work count available = 2 * count := by
  cases pc <;> simp [Pc.work, Pc.loaded, Pc.loading] at loading ⊢

theorem work_fresh {count : Nat} {available : UInt64} {pc : Pc} (loaded : pc.loaded = some available) :
    pc.work count available = 2 * count - 1 := by
  simp [Pc.work, loaded]

theorem work_stale {count : Nat} {available value : UInt64} {pc : Pc}
    (loaded : pc.loaded = some value) (changed : available ≠ value) :
    pc.work count available = 2 * count + 1 := by
  simp [Pc.work, loaded, changed]

theorem work_ended {count : Nat} {available : UInt64} {pc : Pc} (loaded : pc.loaded = none)
    (loading : pc.loading = false) : pc.work count available = 0 := by
  simp [Pc.work, loaded, loading]

/-- What a step of a loop comes to: a load, after which the task exchanges what it has loaded
or leaves the loop, a failed exchange, or one that succeeds and ends the loop. -/
inductive Advance (state : State) (task : TaskId) (next : State) : Prop where
  | loads (pc : Pc) (own : next.pc = Function.update state.pc task pc)
      (pool : next.pool = state.pool) (loading : (state.pc task).loading = true)
      (fresh : ∀ value ∈ pc.loaded, value = state.pool.availableCapacity) (on : pc.loading = false)
  | fails (pc : Pc) (value : UInt64) (own : next.pc = Function.update state.pc task pc)
      (pool : next.pool = state.pool) (loaded : (state.pc task).loaded = some value)
      (changed : state.pool.availableCapacity ≠ value) (loading : pc.loading = true)
  | exchanges (pc : Pc) (own : next.pc = Function.update state.pc task pc)
      (ready : (state.pc task).loaded = some state.pool.availableCapacity)
      (loaded : pc.loaded = none) (loading : pc.loading = false)

theorem advance_cases (taken : state.advance task = some next) : Advance state task next := by
  unfold State.advance at taken
  cases stage : state.pc task with
  | idle | panicked => simp [stage] at taken
  | reserveLoad size =>
      simp only [stage] at taken
      split at taken <;> cases taken
      · exact .loads .idle rfl rfl (by rw [stage]; rfl) (by simp [Pc.loaded]) rfl
      · exact .loads _ rfl rfl (by rw [stage]; rfl) (by simp [Pc.loaded]) rfl
  | reserveUpToLoad size =>
      simp only [stage] at taken
      cases taken
      exact .loads _ rfl rfl (by rw [stage]; rfl) (by simp [Pc.loaded]) rfl
  | returnLoad id =>
      simp only [stage] at taken
      split at taken
      · cases taken
      · split at taken <;> cases taken
        · exact .loads .panicked rfl rfl (by rw [stage]; rfl) (by simp [Pc.loaded]) rfl
        · exact .loads _ rfl rfl (by rw [stage]; rfl) (by simp [Pc.loaded]) rfl
  | reserveExchange size loaded remaining =>
      simp only [stage] at taken
      split at taken <;> cases taken
      · rename_i same
        exact .exchanges .idle rfl (by rw [stage, same]; rfl) rfl rfl
      · rename_i changed
        exact .fails _ loaded rfl rfl (by rw [stage]; rfl) changed rfl
  | reserveUpToExchange size loaded remaining =>
      simp only [stage] at taken
      split at taken
      · rename_i same
        split at taken <;> cases taken
        · exact .exchanges .panicked rfl (by rw [stage, same]; rfl) rfl rfl
        · exact .exchanges .idle rfl (by rw [stage, same]; rfl) rfl rfl
      · rename_i changed
        cases taken
        exact .fails _ loaded rfl rfl (by rw [stage]; rfl) changed rfl
  | returnExchange id current new =>
      simp only [stage] at taken
      split at taken
      · cases taken
      · split at taken <;> cases taken
        · rename_i same
          exact .exchanges .idle rfl (by rw [stage, same]; rfl) rfl rfl
        · rename_i changed
          exact .fails _ current rfl rfl (by rw [stage]; rfl) changed rfl

/-- What each of the tasks counts for, by its place and the pool. -/
def State.tally (count : UInt64 → Pc → Nat) (tasks : Finset TaskId) (state : State) : Nat :=
  ∑ task ∈ tasks, count state.pool.availableCapacity (state.pc task)

theorem tally_update (count : UInt64 → Pc → Nat) {pc : Pc} (among : task ∈ tasks)
    (own : next.pc = Function.update state.pc task pc) (rise : Nat)
    (raised : ∀ other, count next.pool.availableCapacity other ≤
      count state.pool.availableCapacity other + rise) :
    next.tally count tasks + count state.pool.availableCapacity (state.pc task) ≤
      state.tally count tasks + count next.pool.availableCapacity pc + (tasks.card - 1) * rise := by
  have others : ∀ one ∈ tasks.erase task, count next.pool.availableCapacity (next.pc one) ≤
      count state.pool.availableCapacity (state.pc one) + rise := by
    intro one member
    rw [own, Function.update_of_ne (Finset.ne_of_mem_erase member)]
    exact raised _
  have total := Counting.sum_interfered (fun one => count state.pool.availableCapacity (state.pc one))
    (fun one => count next.pool.availableCapacity (next.pc one)) among rise others
  have moved : next.pc task = pc := by rw [own, Function.update_self]
  simp only [moved] at total
  exact total

theorem tally_still (count : UInt64 → Pc → Nat) {pc : Pc} (among : task ∈ tasks)
    (own : next.pc = Function.update state.pc task pc) (pool : next.pool = state.pool) :
    next.tally count tasks + count state.pool.availableCapacity (state.pc task) ≤
      state.tally count tasks + count state.pool.availableCapacity pc := by
  have total := tally_update count among own 0 (by
    intro other
    rw [pool]
    exact Nat.le_refl _)
  rwa [pool, Nat.mul_zero, Nat.add_zero] at total

def Pc.stale (available : UInt64) (pc : Pc) : Nat :=
  match pc.loaded with
  | some loaded => if available = loaded then 0 else 1
  | none => 0

theorem stale_none {available : UInt64} {pc : Pc} (loaded : pc.loaded = none) :
    pc.stale available = 0 := by
  simp [Pc.stale, loaded]

theorem loading_loaded {pc : Pc} (loading : pc.loading = true) : pc.loaded = none := by
  cases pc <;> simp [Pc.loaded, Pc.loading] at loading ⊢

def State.work (tasks : Finset TaskId) (state : State) : Nat :=
  state.tally (fun available pc => pc.work tasks.card available) tasks

def State.stale (tasks : Finset TaskId) (state : State) : Nat :=
  state.tally (fun available pc => pc.stale available) tasks

theorem advance_work (among : task ∈ tasks) (taken : state.advance task = some next) :
    1 + next.work tasks ≤ state.work tasks := by
  have several : 0 < tasks.card := Finset.card_pos.mpr ⟨task, among⟩
  cases advance_cases taken with
  | loads pc own pool loading fresh on =>
      have total := tally_still (fun available pc => pc.work tasks.card available) among own pool
      have less : pc.work tasks.card state.pool.availableCapacity < 2 * tasks.card := by
        cases loaded : pc.loaded with
        | none =>
            rw [work_ended loaded on]
            omega
        | some value =>
            obtain rfl := fresh value (by rw [loaded]; rfl)
            rw [work_fresh loaded]
            omega
      simp only [work_loading loading] at total
      simp only [State.work]
      omega
  | fails pc value own pool loaded changed loading =>
      have total := tally_still (fun available pc => pc.work tasks.card available) among own pool
      simp only [work_stale loaded changed, work_loading loading] at total
      simp only [State.work]
      omega
  | exchanges pc own ready loaded loading =>
      have total := tally_update (fun available pc => pc.work tasks.card available) among own 2
        (work_interfered _ _ _)
      simp only [work_fresh ready, work_ended loaded loading] at total
      simp only [State.work]
      omega

theorem enter_cases (entering : action.enters = true) (taken : step state action = some next) :
    next.pool = state.pool ∧ state.pc action.task = .idle ∧
      ∃ pc, next.pc = Function.update state.pc action.task pc ∧ pc.loaded = none := by
  have same {one : TaskId} (idle : state.pc one = .idle) :
      state.pc = Function.update state.pc one .idle := by
    rw [← idle, Function.update_eq_self]
  cases action with
  | advance task => cases entering
  | reserve task size =>
      simp only [step] at taken
      split at taken
      · rename_i idle
        split at taken <;> cases taken
        · exact ⟨rfl, idle, .idle, rfl, rfl⟩
        · exact ⟨rfl, idle, _, rfl, rfl⟩
      · cases taken
  | reserveUpTo task size =>
      simp only [step] at taken
      split at taken
      · rename_i idle
        split at taken <;> cases taken
        · exact ⟨rfl, idle, .idle, rfl, rfl⟩
        · exact ⟨rfl, idle, _, rfl, rfl⟩
      · cases taken
  | returnToPool task id | drop task id =>
      simp only [step] at taken
      split at taken
      · cases taken
      · split at taken
        · rename_i handle present free
          cases taken
          unfold State.enterReturn
          split
          · exact ⟨rfl, free.1, .idle, same free.1, rfl⟩
          · exact ⟨rfl, free.1, _, rfl, rfl⟩
        · cases taken

/-- An operation has no more than this to do when it is entered, with its entry. -/
def operationBound (tasks : Finset TaskId) : Nat := 2 * tasks.card + 1

theorem step_work (among : action.task ∈ tasks) (taken : step state action = some next) :
    1 + next.work tasks ≤ state.work tasks + if action.enters then operationBound tasks else 0 := by
  cases entering : action.enters with
  | false =>
      cases action with
      | advance task => exact advance_work among taken
      | _ => cases entering
  | true =>
      rcases enter_cases entering taken with ⟨pool, idle, pc, own, loaded⟩
      have total := tally_still (fun available pc => pc.work tasks.card available) among own pool
      have bound : pc.work tasks.card state.pool.availableCapacity ≤ 2 * tasks.card := by
        simp only [Pc.work, loaded]
        split <;> omega
      simp only [State.work, if_pos, operationBound]
      omega

def State.exchange (state : State) : Action → Option Bool
  | .advance task => (state.pc task).loaded.map fun loaded => state.pool.availableCapacity = loaded
  | _ => none

theorem stale_interfered (before after : UInt64) (pc : Pc) :
    pc.stale after ≤ pc.stale before + 1 := by
  unfold Pc.stale
  cases pc.loaded with
  | none => exact Nat.zero_le _
  | some loaded =>
      simp only
      split <;> split <;> omega

/-- An exchange makes those of the other tasks fail, at most. A failed one makes no other
fail. -/
theorem step_stale (among : action.task ∈ tasks) (taken : step state action = some next) :
    (state.exchange action).toList.count false + next.stale tasks ≤
      state.stale tasks + (state.exchange action).toList.count true * (tasks.card - 1) := by
  cases entering : action.enters with
  | true =>
      rcases enter_cases entering taken with ⟨pool, idle, pc, own, loaded⟩
      have total := tally_still (fun available pc => pc.stale available) among own pool
      have silent : state.exchange action = none := by
        cases action <;> first | rfl | cases entering
      simp only [stale_none loaded] at total
      simp only [silent, State.stale, Option.toList_none, List.count_nil]
      omega
  | false =>
      cases action with
      | advance task =>
          cases advance_cases taken with
          | loads pc own pool loading fresh on =>
              have total := tally_still (fun available pc => pc.stale available) among own pool
              have nothing : pc.stale state.pool.availableCapacity = 0 := by
                cases loaded : pc.loaded with
                | none => exact stale_none loaded
                | some value =>
                    obtain rfl := fresh value (by rw [loaded]; rfl)
                    simp [Pc.stale, loaded]
              simp only [nothing] at total
              simp only [State.exchange, loading_loaded loading, State.stale, Option.map_none,
                Option.toList_none, List.count_nil]
              omega
          | fails pc value own pool loaded changed loading =>
              have total := tally_still (fun available pc => pc.stale available) among own pool
              have before : (state.pc (Action.advance task).task).stale
                  state.pool.availableCapacity = 1 := by
                change (state.pc task).stale _ = 1
                simp [Pc.stale, loaded, changed]
              simp only [before, stale_none (loading_loaded loading)] at total
              simp only [State.exchange, loaded, Option.map_some, changed, decide_false,
                Option.toList_some, State.stale, List.count_singleton_self]
              omega
          | exchanges pc own ready loaded loading =>
              have total := tally_update (fun available pc => pc.stale available) among own 1
                (stale_interfered _ _)
              simp only [stale_none loaded] at total
              simp only [State.exchange, ready, Option.map_some, decide_true, Option.toList_some,
                State.stale, List.count_singleton_self]
              have other : [true].count false = 0 := rfl
              omega
      | _ => cases entering

theorem loops_ready (inv : Inv capacity state) (busy : state.pc task ≠ .idle) :
    (state.advance task).isSome := by
  have valid := inv.tasks task
  unfold State.advance
  cases stage : state.pc task with
  | idle => exact absurd stage busy
  | panicked =>
      rw [stage] at valid
      exact valid.elim
  | reserveLoad size =>
      simp only
      split <;> rfl
  | reserveUpToLoad size => rfl
  | reserveExchange size loaded remaining =>
      simp only
      split <;> rfl
  | reserveUpToExchange size loaded remaining =>
      simp only
      split
      · split <;> rfl
      · rfl
  | returnLoad id =>
      rw [stage] at valid
      rcases valid with ⟨handle, present, -⟩
      simp only [present]
      split <;> rfl
  | returnExchange id current new =>
      rw [stage] at valid
      rcases valid with ⟨handle, present, -⟩
      simp only [present]
      split <;> rfl

theorem exchanges_fail {actions : List Action}
    (reached : Transition.run step (initial capacity) actions = some state)
    (among : ∀ action ∈ actions, action.task ∈ tasks) :
    (Transition.observed step State.exchange (initial capacity) actions).count false +
        state.stale tasks ≤
      (Transition.observed step State.exchange (initial capacity) actions).count true *
        (tasks.card - 1) := by
  induction actions using List.reverseRecOn generalizing state with
  | nil =>
      obtain rfl : initial capacity = state := Option.some.inj reached
      simp [State.stale, State.tally, initial, Pc.stale, Pc.loaded, Transition.observed]
  | append_singleton actions action ih =>
      rcases Transition.run_snoc.mp reached with ⟨middle, earlier, taken⟩
      have before := ih earlier fun other member => among other (List.mem_append_left _ member)
      have last := step_stale (among action (by simp)) taken
      rw [Transition.observed_snoc earlier, List.count_append, List.count_append, Nat.add_mul]
      omega

/-- Without locks the tasks in the loops of the pool bring each other on: each can always
take its next step, all their steps are no more than the operations that they enter pay for,
and an exchange that succeeds makes at most one of each of the other tasks fail. -/
theorem loops_lock_free {actions : List Action}
    (reached : Transition.run step (initial capacity) actions = some state)
    (among : ∀ action ∈ actions, action.task ∈ tasks) :
    (∀ task, state.pc task ≠ .idle → (state.advance task).isSome) ∧
      actions.length + state.work tasks ≤
        actions.countP Action.enters * operationBound tasks ∧
      (Transition.observed step State.exchange (initial capacity) actions).count false ≤
        (Transition.observed step State.exchange (initial capacity) actions).count true *
          (tasks.card - 1) := by
  refine ⟨fun task => loops_ready (reachable_inv ⟨actions, reached⟩), ?_, ?_⟩
  · induction actions using List.reverseRecOn generalizing state with
    | nil =>
        obtain rfl : initial capacity = state := Option.some.inj reached
        simp [State.work, State.tally, initial, Pc.work, Pc.loaded, Pc.loading]
    | append_singleton actions action ih =>
        rcases Transition.run_snoc.mp reached with ⟨middle, earlier, taken⟩
        have before := ih earlier fun other member => among other (List.mem_append_left _ member)
        have last := step_work (among action (by simp)) taken
        rw [List.countP_append, List.countP_singleton, List.length_append, List.length_singleton,
          Nat.add_mul, ite_mul, Nat.one_mul, Nat.zero_mul]
        omega
  · exact Nat.le_of_add_right_le (exchanges_fail reached among)

/-- In the race of two tasks one exchange fails, and the bound has two steps to spare. -/
theorem loops_lock_free_race :
    Transition.observed step State.exchange (initial 10) raceActions = [true, false, true] ∧
      raceActions.length ≤ raceActions.countP Action.enters * operationBound {0, 1} := by
  have ran : (Transition.run step (initial 10) raceActions).isSome := rfl
  rcases Option.isSome_iff_exists.mp ran with ⟨state, reached⟩
  have among : ∀ action ∈ raceActions, action.task ∈ ({0, 1} : Finset TaskId) := by decide
  have bound := (loops_lock_free reached among).2.1
  exact ⟨rfl, by omega⟩

end Server3.CapacityPool
