import Server3.CapacityPool

/-! Capacity is neither lost nor made: whatever the tasks do in the loops of the
pool, what is available and what is reserved add up to the initial capacity. -/

namespace Server3.CapacityPool

open Word64

def Handle.held (handle : Handle) : Nat := handle.reservation.reserved.toNat

def State.reservedTotal (state : State) : Nat := Arena.total Handle.held state.handles

/-- What a task inside a loop may rely on, whatever the others have done since
its load: the computed value still fits the loaded one, and the reservation it
is returning is its own. -/
def PcOk (handles : List Handle) (task : TaskId) : Pc → Prop
  | .idle | .reserveLoad _ | .reserveUpToLoad _ => True
  | .reserveExchange size loaded remaining => loaded.toNat = remaining.toNat + size.toNat
  | .reserveUpToExchange size loaded remaining => remaining.toNat = loaded.toNat - size.toNat
  | .returnLoad id => ∃ handle, handles[id]? = some handle ∧ handle.user = some task
  | .returnExchange id current new =>
      ∃ handle, handles[id]? = some handle ∧ handle.user = some task ∧
        new.toNat = current.toNat + handle.held
  | .panicked => False

structure Inv (capacity : UInt64) (state : State) : Prop where
  balance : state.pool.availableCapacity.toNat + state.reservedTotal = capacity.toNat
  tasks : ∀ task, PcOk state.handles task (state.pc task)

def Action.task : Action → TaskId
  | .reserve task _ | .reserveUpTo task _ | .returnToPool task _ | .drop task _ | .advance task => task

variable {capacity : UInt64} {state next : State} {task : TaskId}

theorem pc_ok_frame {before after : List Handle} {pc : Pc}
    (kept : ∀ (id : ReservationId) (handle : Handle), before[id]? = some handle →
      handle.user = some task → after[id]? = some handle)
    (valid : PcOk before task pc) : PcOk after task pc := by
  cases pc with
  | returnLoad id =>
      obtain ⟨handle, present, owner⟩ := valid
      exact ⟨handle, kept id handle present owner, owner⟩
  | returnExchange id current new =>
      obtain ⟨handle, present, owner, fits⟩ := valid
      exact ⟨handle, kept id handle present owner, owner, fits⟩
  | _ => exact valid

theorem tasks_update {before after : List Handle} {pc : Pc}
    (kept : ∀ (id : ReservationId) (handle : Handle) other, other ≠ task → before[id]? = some handle →
      handle.user = some other → after[id]? = some handle)
    (valid : ∀ other, PcOk before other (state.pc other)) (own : PcOk after task pc) :
    ∀ other, PcOk after other (Function.update state.pc task pc other) := by
  intro other
  by_cases same : other = task
  · subst other
    rw [Function.update_self]
    exact own
  · rw [Function.update_of_ne same]
    exact pc_ok_frame (fun id handle => kept id handle other same) (valid other)

theorem goto_inv {pc : Pc} (inv : Inv capacity state) (own : PcOk state.handles task pc) :
    Inv capacity (state.goto task pc) :=
  ⟨inv.balance, tasks_update (fun _ _ _ _ present _ => present) inv.tasks own⟩

theorem grant_inv {pool : CacheCapacityPool} {reserved : UInt64} (inv : Inv capacity state)
    (taken : state.pool.availableCapacity.toNat = pool.availableCapacity.toNat + reserved.toNat) :
    Inv capacity (state.grant task pool reserved) := by
  refine ⟨?_, tasks_update ?_ inv.tasks trivial⟩
  · have balance := inv.balance
    simp only [State.reservedTotal, State.grant, Arena.total_append, Arena.total_cons,
      Arena.total_nil, Handle.held] at balance ⊢
    omega
  · intro id handle other _ present _
    exact Arena.get_append_old _ present

/-- Overwriting one reservation leaves those that another task is using. -/
theorem set_keeps {handles : List Handle} {id : ReservationId} {handle : Handle} (new : Handle)
    (present : handles[id]? = some handle) (free : handle.user ≠ some task) :
    ∀ (index : ReservationId) (used : Handle), handles[index]? = some used → used.user = some task →
      (handles.set id new)[index]? = some used := by
  intro index used stored owned
  rw [Arena.get_set_other]
  · exact stored
  · rintro rfl
    rw [present, Option.some.injEq] at stored
    exact free (stored ▸ owned)

theorem enter_return_inv {id : ReservationId} {handle : Handle} (dropped : Bool)
    (inv : Inv capacity state) (present : state.handles[id]? = some handle)
    (unused : handle.user = none) :
    Inv capacity (state.enterReturn task id handle dropped) := by
  have free (owner : TaskId) : handle.user ≠ some owner := by simp [unused]
  have balance := inv.balance
  unfold State.enterReturn
  split
  · have total := Arena.total_set Handle.held { handle with dropped := dropped } present
    refine ⟨?_, fun other => pc_ok_frame (set_keeps _ present (free other)) (inv.tasks other)⟩
    simp only [State.reservedTotal, Handle.held] at total balance ⊢
    omega
  · have total := Arena.total_set Handle.held
      { handle with user := some task, dropped := dropped } present
    refine ⟨?_, tasks_update ?_ inv.tasks ⟨_, Arena.get_set_self _ present, rfl⟩⟩
    · simp only [State.reservedTotal, Handle.held] at total balance ⊢
      omega
    · intro index used other _
      exact set_keeps _ present (free other) index used

inductive Operation where
  | reserve (size : UInt64)
  | reserveUpTo (size : UInt64)
  | returnToPool (handle : ReservationId)
  deriving DecidableEq, Repr

def Pc.operation : Pc → Option Operation
  | .idle | .panicked => none
  | .reserveLoad size | .reserveExchange size _ _ => some (.reserve size)
  | .reserveUpToLoad size | .reserveUpToExchange size _ _ => some (.reserveUpTo size)
  | .returnLoad id | .returnExchange id _ _ => some (.returnToPool id)

def State.operation (state : State) : Action → Option Operation
  | .reserve _ size => some (.reserve size)
  | .reserveUpTo _ size => some (.reserveUpTo size)
  | .returnToPool _ id | .drop _ id => some (.returnToPool id)
  | .advance task => (state.pc task).operation

/-- What a step of a task comes to: it carries its operation on, it completes it on the state
the step is taken in, or it enters a reservation that no task uses. -/
inductive Turn (state : State) (task : TaskId) : Operation → State → Prop where
  | goes {operation : Operation} (pc : Pc) (own : PcOk state.handles task pc)
      (same : pc.operation = some operation) : Turn state task operation (state.goto task pc)
  | gaveUp (size : UInt64) (short : state.pool.reserve size = none) :
      Turn state task (.reserve size) (state.goto task .idle)
  | reserved (size : UInt64) (pool : CacheCapacityPool) (reservation : CacheCapacityReservation)
      (granted : state.pool.reserve size = some (pool, reservation)) :
      Turn state task (.reserve size) (state.grant task pool reservation.reserved)
  | reservedUpTo (size : UInt64) (pool : CacheCapacityPool)
      (reservation : CacheCapacityReservation)
      (granted : state.pool.reserveUpTo size = some (pool, reservation)) :
      Turn state task (.reserveUpTo size) (state.grant task pool reservation.reserved)
  | entered (id : ReservationId) (handle : Handle) (dropped : Bool)
      (idle : state.pc task = .idle) (present : state.handles[id]? = some handle)
      (unused : handle.user = none) :
      Turn state task (.returnToPool id) (state.enterReturn task id handle dropped)
  | returned (id : ReservationId) (handle : Handle) (pool : CacheCapacityPool)
      (present : state.handles[id]? = some handle) (owner : handle.user = some task)
      (given : state.pool.returnToPool handle.reservation = some pool) :
      Turn state task (.returnToPool id)
        { pool := pool
          handles := state.handles.set id { handle with reservation := ⟨0⟩, user := none }
          pc := Function.update state.pc task .idle }

theorem reserve_up_to_exchange {pool : CacheCapacityPool} {size remaining reserved : UInt64}
    (computed : remaining.toNat = pool.availableCapacity.toNat - size.toNat)
    (difference : checkedSub pool.availableCapacity remaining = some reserved) :
    pool.reserveUpTo size = some (⟨remaining⟩, ⟨reserved⟩) := by
  have value := (checked_sub_some _ _ _).mp difference
  obtain ⟨⟨left⟩, ⟨given⟩, granted, amount, balance⟩ := reserve_up_to_grants pool size
  simp only at amount balance
  have sameReserved : given = reserved := value_injective _ _ (by omega)
  have samePool : left = remaining := value_injective _ _ (by omega)
  rw [granted, sameReserved, samePool]

theorem advance_turn (inv : Inv capacity state) (taken : state.advance task = some next) :
    ∃ operation, (state.pc task).operation = some operation ∧ Turn state task operation next := by
  have valid := inv.tasks task
  have balance := inv.balance
  unfold State.advance at taken
  cases stage : state.pc task with
  | idle => simp [stage] at taken
  | panicked => simp [stage] at taken
  | reserveLoad size =>
      refine ⟨.reserve size, rfl, ?_⟩
      simp only [stage] at taken
      cases difference : checkedSub state.pool.availableCapacity size with
      | none =>
          rw [difference] at taken
          cases taken
          exact .gaveUp size (reserve_none.mpr ((checked_sub_none _ _).mp difference))
      | some remaining =>
          rw [difference] at taken
          cases taken
          exact .goes _ ((checked_sub_some _ _ _).mp difference) rfl
  | reserveExchange size loaded remaining =>
      refine ⟨.reserve size, rfl, ?_⟩
      simp only [stage, PcOk] at taken valid
      split at taken
      · rename_i unchanged
        cases taken
        exact .reserved size _ ⟨size⟩ (reserve_some.mpr ⟨rfl, unchanged ▸ valid⟩)
      · cases taken
        exact .goes (.reserveLoad size) trivial rfl
  | reserveUpToLoad size =>
      simp only [stage] at taken
      cases taken
      exact ⟨.reserveUpTo size, rfl, .goes _ (saturating_sub_value _ _) rfl⟩
  | reserveUpToExchange size loaded remaining =>
      refine ⟨.reserveUpTo size, rfl, ?_⟩
      simp only [stage, PcOk] at taken valid
      split at taken
      · rename_i unchanged
        -- The loaded value is still there, so the exchange is the whole operation.
        subst unchanged
        cases difference : checkedSub state.pool.availableCapacity remaining with
        | none =>
            have short := (checked_sub_none _ _).mp difference
            omega
        | some reserved =>
            rw [difference] at taken
            cases taken
            exact .reservedUpTo size _ ⟨reserved⟩ (reserve_up_to_exchange valid difference)
      · cases taken
        exact .goes (.reserveUpToLoad size) trivial rfl
  | returnLoad id =>
      refine ⟨.returnToPool id, rfl, ?_⟩
      obtain ⟨handle, present, owner⟩ : ∃ handle, state.handles[id]? = some handle ∧
          handle.user = some task := by simpa only [stage, PcOk] using valid
      simp only [stage, present] at taken
      cases sum : checkedAdd state.pool.availableCapacity handle.reservation.reserved with
      | none =>
          -- The reservation is still counted, so the sum stays below the capacity.
          have overflow := (checked_add_none _ _).mp sum
          have share := Arena.weight_le_total Handle.held present
          have bound := capacity.toNat_lt
          simp only [State.reservedTotal, Handle.held] at balance share
          omega
      | some new =>
          rw [sum] at taken
          cases taken
          exact .goes _ ⟨handle, present, owner, (checked_add_some _ _ _).mp sum⟩ rfl
  | returnExchange id current new =>
      refine ⟨.returnToPool id, rfl, ?_⟩
      obtain ⟨handle, present, owner, fits⟩ : ∃ handle, state.handles[id]? = some handle ∧
          handle.user = some task ∧ new.toNat = current.toNat + handle.held := by
        simpa only [stage, PcOk] using valid
      simp only [stage, present] at taken
      split at taken
      · rename_i unchanged
        cases taken
        exact .returned id handle _ present owner (return_some.mpr (unchanged ▸ fits))
      · cases taken
        exact .goes (.returnLoad id) ⟨handle, present, owner⟩ rfl

theorem step_turn {action : Action} (inv : Inv capacity state)
    (taken : step state action = some next) :
    ∃ operation, state.operation action = some operation ∧
      Turn state action.task operation next := by
  cases action with
  | reserve task size =>
      refine ⟨.reserve size, rfl, ?_⟩
      simp only [step] at taken
      split at taken
      · split at taken
        · rename_i empty
          cases taken
          exact .reserved size _ ⟨0⟩ (reserve_some.mpr ⟨empty.symm, by simp [empty]⟩)
        · cases taken
          exact .goes (.reserveLoad size) trivial rfl
      · cases taken
  | reserveUpTo task size =>
      refine ⟨.reserveUpTo size, rfl, ?_⟩
      simp only [step] at taken
      split at taken
      · split at taken
        · rename_i empty
          cases taken
          exact .reservedUpTo size _ ⟨size⟩ (by simp [CacheCapacityPool.reserveUpTo, empty])
        · cases taken
          exact .goes (.reserveUpToLoad size) trivial rfl
      · cases taken
  | returnToPool task id | drop task id =>
      simp only [step] at taken
      cases present : state.handles[id]? with
      | none => simp [present] at taken
      | some handle =>
          simp only [present] at taken
          split at taken
          · rename_i free
            cases taken
            exact ⟨_, rfl, .entered id handle _ free.1 present free.2.1⟩
          · cases taken
  | advance task => exact advance_turn inv taken

theorem turn_inv {operation : Operation} (inv : Inv capacity state)
    (turn : Turn state task operation next) : Inv capacity next := by
  cases turn with
  | goes pc own same => exact goto_inv inv own
  | gaveUp size short => exact goto_inv inv trivial
  | reserved size pool reservation granted =>
      have taken := reserve_some.mp granted
      exact grant_inv inv (taken.1 ▸ taken.2)
  | reservedUpTo size pool reservation granted =>
      obtain ⟨_, _, again, -, balance⟩ := reserve_up_to_grants state.pool size
      rw [granted, Option.some.injEq, Prod.mk.injEq] at again
      rw [← again.1, ← again.2] at balance
      exact grant_inv inv balance
  | entered id handle dropped idle present unused =>
      exact enter_return_inv dropped inv present unused
  | returned id handle pool present owner given =>
      have balance := inv.balance
      have added := return_some.mp given
      have total := Arena.total_set Handle.held { handle with reservation := ⟨0⟩, user := none } present
      refine ⟨?_, tasks_update ?_ inv.tasks trivial⟩
      · simp only [State.reservedTotal, Handle.held, zero_value] at balance total ⊢
        omega
      · intro index used other different
        refine set_keeps _ present ?_ index used
        rw [owner]
        exact fun same => different (Option.some.inj same).symm

theorem step_inv {action : Action} (inv : Inv capacity state)
    (taken : step state action = some next) : Inv capacity next := by
  obtain ⟨operation, -, turn⟩ := step_turn inv taken
  exact turn_inv inv turn

theorem initial_inv (capacity : UInt64) : Inv capacity (initial capacity) :=
  ⟨by simp [initial, State.reservedTotal], fun _ => trivial⟩

theorem reachable_inv (reached : Transition.Reachable step (initial capacity) state) :
    Inv capacity state :=
  Transition.reachable_induction (Inv capacity) (initial_inv capacity)
    (fun _ _ _ inv taken => step_inv inv taken) reached

def State.reservations (state : State) : List CacheCapacityReservation :=
  state.handles.map Handle.reservation

theorem reservations_set {handles : List Handle} {id : ReservationId} {handle new : Handle}
    (present : handles[id]? = some handle) (same : new.reservation = handle.reservation) :
    (handles.set id new).map Handle.reservation = handles.map Handle.reservation := by
  have stored : (handles.map Handle.reservation)[id]? = some new.reservation := by
    simp [List.getElem?_map, present, same]
  rw [List.map_set, Arena.set_same stored]

theorem reservations_get {id : ReservationId} {handle : Handle}
    (present : state.handles[id]? = some handle) :
    state.reservations[id]? = some handle.reservation := by
  simp [State.reservations, List.getElem?_map, present]

/-- The pool and the reservations, as an operation that nothing interrupts finds them. -/
structure Ledger where
  pool : CacheCapacityPool
  reservations : List CacheCapacityReservation
  deriving DecidableEq, Repr

def State.ledger (state : State) : Ledger := ⟨state.pool, state.reservations⟩

/-- A `reserve` that finds too little leaves everything as it is. -/
def Ledger.step (ledger : Ledger) : Operation → Option Ledger
  | .reserve size =>
      match ledger.pool.reserve size with
      | none => some ledger
      | some granted => some ⟨granted.1, ledger.reservations ++ [granted.2]⟩
  | .reserveUpTo size =>
      (ledger.pool.reserveUpTo size).map fun granted =>
        ⟨granted.1, ledger.reservations ++ [granted.2]⟩
  | .returnToPool id =>
      (ledger.reservations[id]?).bind fun reservation =>
        (ledger.pool.returnToPool reservation).map fun pool =>
          ⟨pool, ledger.reservations.set id ⟨0⟩⟩

theorem enter_return_ledger {id : ReservationId} {handle : Handle} (dropped : Bool)
    (present : state.handles[id]? = some handle) :
    (state.enterReturn task id handle dropped).ledger = state.ledger := by
  unfold State.enterReturn State.ledger
  split
  · exact congrArg (Ledger.mk _) (reservations_set present rfl)
  · exact congrArg (Ledger.mk _) (reservations_set present rfl)

/-- A task that is done with a step has taken its operation in one; until then the ledger
stays as it is. -/
theorem turn_settles {operation : Operation} (turn : Turn state task operation next) :
    (next.pc task).operation = some operation ∧ next.ledger = state.ledger ∨
      next.pc task = .idle ∧ state.ledger.step operation = some next.ledger := by
  cases turn with
  | goes pc own same => exact Or.inl ⟨by simpa [State.goto] using same, rfl⟩
  | gaveUp size short =>
      exact Or.inr ⟨by simp [State.goto], by simp [Ledger.step, State.ledger, short, State.goto,
        State.reservations]⟩
  | reserved size pool reservation granted | reservedUpTo size pool reservation granted =>
      exact Or.inr ⟨by simp [State.grant], by simp [Ledger.step, State.ledger, granted,
        State.reservations, State.grant]⟩
  | entered id handle dropped idle present unused =>
      rw [enter_return_ledger dropped present]
      by_cases empty : handle.reservation.reserved = 0
      · -- Nothing is reserved, so returning it changes nothing.
        have cleared : handle.reservation = ⟨0⟩ := congrArg CacheCapacityReservation.mk empty
        refine Or.inr ⟨by simp [State.enterReturn, empty, idle], ?_⟩
        have stored := reservations_get present
        rw [cleared] at stored
        simp [Ledger.step, State.ledger, stored, CacheCapacityPool.returnToPool,
          Arena.set_same stored]
      · exact Or.inl ⟨by simp [State.enterReturn, empty, Pc.operation], rfl⟩
  | returned id handle pool present owner given =>
      refine Or.inr ⟨by simp, ?_⟩
      simp [Ledger.step, State.ledger, reservations_get present, given]
      simp [State.reservations, List.map_set]

theorem step_reservations {action : Action} (inv : Inv capacity state)
    (taken : step state action = some next) :
    ∃ operation, state.operation action = some operation ∧
      (next.ledger = state.ledger ∨ state.ledger.step operation = some next.ledger) := by
  obtain ⟨operation, running, turn⟩ := step_turn inv taken
  rcases turn_settles turn with ⟨-, still⟩ | ⟨-, moved⟩
  · exact ⟨operation, running, Or.inl still⟩
  · exact ⟨operation, running, Or.inr moved⟩

/-- The amount that a granting operation is entitled to in this state. -/
def State.entitled (state : State) : Option Operation → Option Nat
  | some (.reserve size) => some size.toNat
  | some (.reserveUpTo size) => some (min size.toNat state.pool.availableCapacity.toNat)
  | _ => none

theorem granted_entitled {operation : Operation} {after : Ledger}
    {reservation : CacheCapacityReservation} (moved : state.ledger.step operation = some after)
    (grown : after.reservations = state.reservations ++ [reservation]) :
    state.entitled (some operation) = some reservation.reserved.toNat := by
  cases operation with
  | reserve size =>
      simp only [Ledger.step, State.ledger] at moved
      cases granted : state.pool.reserve size with
      | none =>
          rw [granted] at moved
          cases moved
          simp at grown
      | some grant =>
          rw [granted] at moved
          cases moved
          obtain rfl : grant.2 = reservation := by simpa using grown
          exact congrArg (some ∘ UInt64.toNat) (reserve_some.mp granted).1.symm
  | reserveUpTo size =>
      simp only [Ledger.step, State.ledger, Option.map_eq_some_iff] at moved
      obtain ⟨grant, granted, rfl⟩ := moved
      obtain rfl : grant.2 = reservation := by simpa using grown
      obtain ⟨pool, other, same, amount, -⟩ := reserve_up_to_grants state.pool size
      rw [granted, Option.some.injEq] at same
      rw [same]
      exact congrArg some amount.symm
  | returnToPool id =>
      simp only [Ledger.step, State.ledger, Option.bind_eq_some_iff, Option.map_eq_some_iff] at moved
      obtain ⟨held, -, pool, -, rfl⟩ := moved
      have lengths := congrArg List.length grown
      simp at lengths

theorem reservation_kept {operation : Operation} {after : Ledger} {id : ReservationId}
    {held later : CacheCapacityReservation} (moved : state.ledger.step operation = some after)
    (present : state.reservations[id]? = some held) (stored : after.reservations[id]? = some later) :
    later = held ∨ (later.reserved = 0 ∧ operation = .returnToPool id ∧
      after.pool.availableCapacity.toNat =
        state.pool.availableCapacity.toNat + held.reserved.toNat) := by
  cases operation with
  | reserve size =>
      simp only [Ledger.step, State.ledger] at moved
      cases granted : state.pool.reserve size with
      | none =>
          rw [granted] at moved
          cases moved
          exact Or.inl (Option.some.inj (stored.symm.trans present))
      | some grant =>
          rw [granted] at moved
          cases moved
          rw [Arena.get_append_old _ present] at stored
          exact Or.inl (Option.some.inj stored.symm)
  | reserveUpTo size =>
      simp only [Ledger.step, State.ledger, Option.map_eq_some_iff] at moved
      obtain ⟨grant, -, rfl⟩ := moved
      rw [Arena.get_append_old _ present] at stored
      exact Or.inl (Option.some.inj stored.symm)
  | returnToPool other =>
      simp only [Ledger.step, State.ledger, Option.bind_eq_some_iff, Option.map_eq_some_iff] at moved
      obtain ⟨given, found, pool, result, rfl⟩ := moved
      rw [Arena.get_set _ found] at stored
      split at stored
      · rename_i same
        subst other
        cases stored
        obtain rfl : given = held := Option.some.inj (found.symm.trans present)
        exact Or.inr ⟨rfl, rfl, return_some.mp result⟩
      · exact Or.inl (Option.some.inj (stored.symm.trans present))

theorem returned_empty {id : ReservationId} {ledger after : Ledger}
    (moved : ledger.step (.returnToPool id) = some after) :
    after.reservations[id]? = some ⟨0⟩ := by
  simp only [Ledger.step, Option.bind_eq_some_iff, Option.map_eq_some_iff] at moved
  obtain ⟨given, found, pool, -, rfl⟩ := moved
  exact Arena.get_set_self _ found

/-- Whatever the tasks do, available and reserved capacity add up to the initial
capacity, no task reaches the overflow `expect` or the `unwrap`, every grant is
exactly what its operation is entitled to at its exchange, and a reservation
keeps its amount until the one exchange that returns it and leaves nothing of it. -/
theorem capacity_conserved (capacity : UInt64) (state : State)
    (reached : Transition.Reachable step (initial capacity) state) :
    state.pool.availableCapacity.toNat + state.reservedTotal = capacity.toNat ∧
    (∀ task, state.pc task ≠ .panicked) ∧
    (∀ action next reservation, step state action = some next →
      next.reservations = state.reservations ++ [reservation] →
      state.entitled (state.operation action) = some reservation.reserved.toNat) ∧
    (∀ action next id before after, step state action = some next →
      state.reservations[id]? = some before → next.reservations[id]? = some after →
      after = before ∨
        (after.reserved = 0 ∧ state.operation action = some (.returnToPool id) ∧
          next.pool.availableCapacity.toNat =
            state.pool.availableCapacity.toNat + before.reserved.toNat)) ∧
    (∀ action next id, step state action = some next →
      state.operation action = some (.returnToPool id) → next.pc action.task = .idle →
      next.reservations[id]? = some ⟨0⟩) := by
  have inv := reachable_inv reached
  refine ⟨inv.balance, ?_, ?_, ?_, ?_⟩
  · intro task panicked
    have valid := inv.tasks task
    rw [panicked] at valid
    exact valid
  · intro action next reservation taken grown
    obtain ⟨operation, running, still | moved⟩ := step_reservations inv taken
    · have same : next.reservations = state.reservations := congrArg Ledger.reservations still
      rw [same] at grown
      simp at grown
    · rw [running]
      exact granted_entitled moved grown
  · intro action next id before after taken present later
    obtain ⟨operation, running, still | moved⟩ := step_reservations inv taken
    · have same : next.reservations = state.reservations := congrArg Ledger.reservations still
      rw [same] at later
      exact Or.inl (Option.some.inj (later.symm.trans present))
    · rw [running, Option.some.injEq]
      exact reservation_kept moved present later
  · intro action next id taken returning idle
    obtain ⟨operation, running, turn⟩ := step_turn inv taken
    obtain rfl : operation = .returnToPool id := Option.some.inj (running.symm.trans returning)
    rcases turn_settles turn with ⟨inside, -⟩ | ⟨-, moved⟩
    · rw [idle] at inside
      cases inside
    · exact returned_empty moved

/-- Two tasks race for ten bytes: the second exchange fails, and the grants of
seven and three bytes leave nothing. The first task returns its bytes while the other
drops its own, and returns them once more when it drops its empty reservation. -/
def raceActions : List Action :=
  [.reserve 0 7, .reserveUpTo 1 5, .advance 0, .advance 1, .advance 0, .advance 1, .advance 1,
   .advance 1]

def returnActions : List Action :=
  [.returnToPool 0 0, .drop 1 1, .advance 0, .advance 1, .advance 1, .advance 0, .advance 0,
   .advance 0, .drop 0 0]

theorem capacity_conserved_race :
    ∃ granted returned,
      Transition.run step (initial 10) raceActions = some granted ∧
      granted.pool.availableCapacity.toNat + granted.reservedTotal = 10 ∧
      granted.reservations = [⟨7⟩, ⟨3⟩] ∧
      Transition.run step granted returnActions = some returned ∧
      returned.pool.availableCapacity.toNat + returned.reservedTotal = 10 ∧
      returned.reservations = [⟨0⟩, ⟨0⟩] :=
  ⟨_, _, rfl, (capacity_conserved 10 _ ⟨raceActions, rfl⟩).1, rfl, rfl,
    (capacity_conserved 10 _ ⟨raceActions ++ returnActions, rfl⟩).1, rfl⟩

end Server3.CapacityPool
