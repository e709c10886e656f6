import Server3.Word64
import Server3.Arena
import Server3.Transition
import Mathlib.Logic.Function.Basic

/-! The disk capacity pool. The operations of `CacheCapacityPool` are retry loops
over one atomic word; here every load and every compare-exchange is a step of
its own, taken by any task at any time. -/

namespace Server3.CapacityPool

open Word64

structure CacheCapacityPool where
  availableCapacity : UInt64
  deriving DecidableEq, Repr

structure CacheCapacityReservation where
  reserved : UInt64
  deriving DecidableEq, Repr

/-- The effect of `reserve` when no other task runs inside its loop. -/
def CacheCapacityPool.reserve (pool : CacheCapacityPool) (size : UInt64) :
    Option (CacheCapacityPool × CacheCapacityReservation) :=
  if size = 0 then some (pool, ⟨0⟩)
  else (checkedSub pool.availableCapacity size).map fun remaining => (⟨remaining⟩, ⟨size⟩)

/-- The effect of `reserve_up_to`; `none` is its `unwrap` on an underflow. -/
def CacheCapacityPool.reserveUpTo (pool : CacheCapacityPool) (size : UInt64) :
    Option (CacheCapacityPool × CacheCapacityReservation) :=
  if size = 0 then some (pool, ⟨size⟩)
  else
    let remaining := saturatingSub pool.availableCapacity size
    (checkedSub pool.availableCapacity remaining).map fun reserved => (⟨remaining⟩, ⟨reserved⟩)

/-- The effect of `return_to_pool`; `none` is its `expect` on an overflow. -/
def CacheCapacityPool.returnToPool (pool : CacheCapacityPool)
    (reservation : CacheCapacityReservation) : Option CacheCapacityPool :=
  if reservation.reserved = 0 then some pool
  else (checkedAdd pool.availableCapacity reservation.reserved).map fun capacity => ⟨capacity⟩

theorem zero_value : (0 : UInt64).toNat = 0 := rfl

theorem reserve_some {pool next : CacheCapacityPool} {size : UInt64}
    {reservation : CacheCapacityReservation} :
    pool.reserve size = some (next, reservation) ↔
      reservation.reserved = size ∧
        pool.availableCapacity.toNat = next.availableCapacity.toNat + size.toNat := by
  obtain ⟨available⟩ := pool
  obtain ⟨remaining⟩ := next
  obtain ⟨reserved⟩ := reservation
  unfold CacheCapacityPool.reserve
  by_cases empty : size = 0
  · subst empty
    simp only [if_true, Option.some.injEq, Prod.mk.injEq, CacheCapacityPool.mk.injEq,
      CacheCapacityReservation.mk.injEq, zero_value, Nat.add_zero]
    constructor
    · rintro ⟨rfl, rfl⟩
      exact ⟨rfl, rfl⟩
    · rintro ⟨rfl, same⟩
      exact ⟨value_injective _ _ same, rfl⟩
  · simp only [if_neg empty, Option.map_eq_some_iff, Prod.mk.injEq, CacheCapacityPool.mk.injEq,
      CacheCapacityReservation.mk.injEq]
    constructor
    · rintro ⟨_, found, rfl, rfl⟩
      exact ⟨rfl, (checked_sub_some _ _ _).mp found⟩
    · rintro ⟨rfl, balance⟩
      exact ⟨remaining, (checked_sub_some _ _ _).mpr balance, rfl, rfl⟩

theorem reserve_none {pool : CacheCapacityPool} {size : UInt64} :
    pool.reserve size = none ↔ pool.availableCapacity.toNat < size.toNat := by
  unfold CacheCapacityPool.reserve
  by_cases empty : size = 0
  · subst empty
    simp
  · simp only [if_neg empty, Option.map_eq_none_iff]
    exact checked_sub_none _ _

theorem reserve_succeeds {pool : CacheCapacityPool} {size : UInt64}
    (enough : size.toNat ≤ pool.availableCapacity.toNat) :
    ∃ next reservation, pool.reserve size = some (next, reservation) := by
  cases result : pool.reserve size with
  | none =>
      have short := reserve_none.mp result
      omega
  | some granted => exact ⟨granted.1, granted.2, rfl⟩

/-- `reserve_up_to` always grants: the smaller of the size and what is available. -/
theorem reserve_up_to_grants (pool : CacheCapacityPool) (size : UInt64) :
    ∃ next reservation, pool.reserveUpTo size = some (next, reservation) ∧
      reservation.reserved.toNat = min size.toNat pool.availableCapacity.toNat ∧
      pool.availableCapacity.toNat =
        next.availableCapacity.toNat + reservation.reserved.toNat := by
  unfold CacheCapacityPool.reserveUpTo
  by_cases empty : size = 0
  · subst empty
    exact ⟨pool, ⟨0⟩, by simp, by simp, by simp⟩
  · simp only [if_neg empty]
    have remaining := saturating_sub_value pool.availableCapacity size
    cases taken : checkedSub pool.availableCapacity
        (saturatingSub pool.availableCapacity size) with
    | none =>
        have short := (checked_sub_none _ _).mp taken
        omega
    | some reserved =>
        have balance := (checked_sub_some _ _ _).mp taken
        exact ⟨_, _, rfl, by simp only; omega, by simp only; omega⟩

theorem return_some {pool next : CacheCapacityPool} {reservation : CacheCapacityReservation} :
    pool.returnToPool reservation = some next ↔
      next.availableCapacity.toNat =
        pool.availableCapacity.toNat + reservation.reserved.toNat := by
  obtain ⟨available⟩ := pool
  obtain ⟨capacity⟩ := next
  obtain ⟨reserved⟩ := reservation
  unfold CacheCapacityPool.returnToPool
  by_cases empty : reserved = 0
  · subst empty
    simp only [if_true, Option.some.injEq, CacheCapacityPool.mk.injEq, zero_value, Nat.add_zero]
    constructor
    · rintro rfl
      rfl
    · intro same
      exact (value_injective _ _ same).symm
  · simp only [if_neg empty, Option.map_eq_some_iff, CacheCapacityPool.mk.injEq, exists_eq_right]
    exact checked_add_some _ _ _

theorem return_succeeds {pool : CacheCapacityPool} {reservation : CacheCapacityReservation}
    (fits : pool.availableCapacity.toNat + reservation.reserved.toNat < 2^64) :
    ∃ next, pool.returnToPool reservation = some next := by
  have value : (UInt64.ofNat (pool.availableCapacity.toNat + reservation.reserved.toNat)).toNat =
      pool.availableCapacity.toNat + reservation.reserved.toNat := UInt64.toNat_ofNat_of_lt' fits
  exact ⟨⟨_⟩, return_some.mpr value⟩

abbrev TaskId := Nat
abbrev ReservationId := Nat

/-- Where a task is inside an operation. Between the load and the exchange it
holds the loaded value and the value it computed from it. -/
inductive Pc where
  | idle
  | reserveLoad (size : UInt64)
  | reserveExchange (size available remaining : UInt64)
  | reserveUpToLoad (size : UInt64)
  | reserveUpToExchange (size available remaining : UInt64)
  | returnLoad (handle : ReservationId)
  | returnExchange (handle : ReservationId) (current new : UInt64)
  | panicked
  deriving DecidableEq, Repr

/-- A granted reservation. While `return_to_pool` runs on it, explicitly or from
`Drop`, the task running it is its only user. -/
structure Handle where
  reservation : CacheCapacityReservation
  user : Option TaskId
  dropped : Bool
  deriving DecidableEq, Repr

structure State where
  pool : CacheCapacityPool
  handles : List Handle
  pc : TaskId → Pc

def initial (capacity : UInt64) : State := ⟨⟨capacity⟩, [], fun _ => .idle⟩

inductive Action where
  | reserve (task : TaskId) (size : UInt64)
  | reserveUpTo (task : TaskId) (size : UInt64)
  | returnToPool (task : TaskId) (handle : ReservationId)
  | drop (task : TaskId) (handle : ReservationId)
  | advance (task : TaskId)
  deriving DecidableEq, Repr

namespace State

def goto (state : State) (task : TaskId) (pc : Pc) : State :=
  { state with pc := Function.update state.pc task pc }

def grant (state : State) (task : TaskId) (pool : CacheCapacityPool) (reserved : UInt64) : State :=
  { pool := pool, handles := state.handles ++ [⟨⟨reserved⟩, none, false⟩],
    pc := Function.update state.pc task .idle }

/-- `return_to_pool` is entered; nothing is left to do when nothing is reserved. -/
def enterReturn (state : State) (task : TaskId) (id : ReservationId) (handle : Handle)
    (dropped : Bool) : State :=
  if handle.reservation.reserved = 0 then
    { state with handles := state.handles.set id { handle with dropped := dropped } }
  else
    { state with
      handles := state.handles.set id { handle with user := some task, dropped := dropped }
      pc := Function.update state.pc task (.returnLoad id) }

/-- One load or one compare-exchange of the task. -/
def advance (state : State) (task : TaskId) : Option State :=
  let available := state.pool.availableCapacity
  match state.pc task with
  | .idle | .panicked => none
  | .reserveLoad size =>
      match checkedSub available size with
      | none => some (state.goto task .idle)
      | some remaining => some (state.goto task (.reserveExchange size available remaining))
  | .reserveExchange size loaded remaining =>
      if available = loaded then some (state.grant task ⟨remaining⟩ size)
      else some (state.goto task (.reserveLoad size))
  | .reserveUpToLoad size =>
      some (state.goto task (.reserveUpToExchange size available (saturatingSub available size)))
  | .reserveUpToExchange size loaded remaining =>
      if available = loaded then
        match checkedSub loaded remaining with
        | none => some ({ state with pool := ⟨remaining⟩ }.goto task .panicked)
        | some reserved => some (state.grant task ⟨remaining⟩ reserved)
      else some (state.goto task (.reserveUpToLoad size))
  | .returnLoad id =>
      match state.handles[id]? with
      | none => none
      | some handle =>
          match checkedAdd available handle.reservation.reserved with
          | none => some (state.goto task .panicked)
          | some new => some (state.goto task (.returnExchange id available new))
  | .returnExchange id current new =>
      match state.handles[id]? with
      | none => none
      | some handle =>
          if available = current then
            some { pool := ⟨new⟩,
                   handles := state.handles.set id { handle with reservation := ⟨0⟩, user := none },
                   pc := Function.update state.pc task .idle }
          else some (state.goto task (.returnLoad id))

end State

open State in
/-- A task enters an operation when it is in none; a reservation is entered by
one task at a time and not after it was dropped. -/
def step (state : State) : Action → Option State
  | .reserve task size =>
      if state.pc task = .idle then
        if size = 0 then some (state.grant task state.pool 0)
        else some (state.goto task (.reserveLoad size))
      else none
  | .reserveUpTo task size =>
      if state.pc task = .idle then
        if size = 0 then some (state.grant task state.pool size)
        else some (state.goto task (.reserveUpToLoad size))
      else none
  | .returnToPool task id =>
      match state.handles[id]? with
      | none => none
      | some handle =>
          if state.pc task = .idle ∧ handle.user = none ∧ handle.dropped = false then
            some (state.enterReturn task id handle false)
          else none
  | .drop task id =>
      match state.handles[id]? with
      | none => none
      | some handle =>
          if state.pc task = .idle ∧ handle.user = none ∧ handle.dropped = false then
            some (state.enterReturn task id handle true)
          else none
  | .advance task => state.advance task

end Server3.CapacityPool
