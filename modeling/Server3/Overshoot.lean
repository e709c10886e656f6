import Mathlib.Algebra.Order.BigOperators.Group.List
import Server3.FileLimit

/-! How far the cache can go beyond its limits while gets are in flight: by what has left
the map and is still in the hands of a get, and no further. -/

namespace Server3.Machine

open Clock Routes Upstream Resource Recency

def State.unfinished (state : State) : List Task :=
  state.tasks.filter fun task => !task.pc.ended

/-- The bytes of a resource that its reservation does not cover. -/
def shortfall (resource : CachedResource) : Nat :=
  resource.size.toNat - resource.reservation.reserved.toNat

def State.filledHand (state : State) (task : Task) : Option CellId :=
  (task.pc.victim.toList ++ task.pc.own.toList).find? fun cell => (state.resourceAt cell).isSome

variable {T : Type → Type} {capacity : UInt64} {state : State} {id : TaskId} {task : Task}
  {cell : CellId}

theorem hand_unended (found : state.filledHand task = some cell) : task.pc.ended = false := by
  have member := List.mem_of_find?_eq_some found
  cases stage : task.pc <;> simp_all [Pc.ended, Pc.victim, Pc.own]

/-- A get that evicts has not filled its own cell yet, so it has one filled cell in hand
at most. -/
theorem hand_of_held (inv : Inv capacity state) (present : state.tasks[id]? = some task)
    (holds : task.pc.own = some cell ∨ task.pc.victim = some cell)
    (filled : (state.resourceAt cell).isSome) : state.filledHand task = some cell := by
  have permit := (inv.tasks id task present).permit
  rw [State.filledHand]
  cases stage : task.pc with
  | evicting own fetched victim =>
      rw [stage] at holds permit
      rcases holds with same | same
      · cases same
        rw [State.resourceAt, permit cell rfl] at filled
        cases filled
      · cases same
        simp [Pc.victim, filled]
  | _ =>
      rw [stage] at holds
      rcases holds with same | same
      · simp_all [Pc.own, Pc.victim]
      · simp_all [Pc.victim]

theorem orphans_in_hand (inv : Inv capacity state) (held : Held state) :
    state.orphans.length ≤ state.tasks.countP fun task => (state.filledHand task).isSome := by
  have covered : state.orphanCells ⊆ state.tasks.filterMap state.filledHand := by
    intro cell member
    rcases List.mem_filter.mp member with ⟨outside, filled⟩
    have unmapped := (List.mem_filter.mp outside).2
    rcases Option.isSome_iff_exists.mp filled with ⟨resource, found⟩
    rcases held_iff.mp (held.holder cell resource (resourceAt_some.mp found)) with
      mapped | ⟨holder, task, present, holds⟩
    · rw [mapped] at unmapped
      cases unmapped
    · exact List.mem_filterMap.mpr ⟨task, List.mem_of_getElem? present,
        hand_of_held inv present holds filled⟩
  have distinct : state.orphanCells.Nodup := (List.nodup_range.filter _).filter _
  calc
    state.orphans.length = state.orphanCells.length := orphans_cells
    _ ≤ (state.tasks.filterMap state.filledHand).length :=
      (List.subperm_of_subset distinct covered).length_le
    _ = state.tasks.countP fun task => (state.filledHand task).isSome :=
      List.length_filterMap_eq_countP

theorem hands_unfinished :
    state.tasks.countP (fun task => (state.filledHand task).isSome) ≤ state.unfinished.length := by
  rw [State.unfinished, ← List.countP_eq_length_filter]
  apply List.countP_mono_left
  intro task _ found
  rcases Option.isSome_iff_exists.mp found with ⟨cell, found⟩
  rw [hand_unended found]
  rfl

theorem residents_slots [PathTree T] {slots : Nat} {positive : 0 < slots}
    {actions : List (Action T)}
    (reached : Transition.run step (initial capacity slots positive) actions = some state) :
    state.residents.length ≤ slots := by
  have entries := state.map.bounded
  rw [run_capacity reached] at entries
  exact (List.length_filterMap_le _ _).trans entries

theorem live_reserved (inv : Inv capacity state) :
    (state.live.map fun resource => resource.reservation.reserved.toNat).sum ≤
      capacity.toNat := by
  have slots : Arena.total Slot.reserved state.slots =
      state.liveTotal fun resource => resource.reservation.reserved.toNat := by
    rw [State.liveTotal, Arena.total, Arena.total]
    congr 1
    apply List.map_congr_left
    intro slot _
    rw [Slot.reserved, Slot.weigh, Cell.weigh]
    cases slot.cell <;> rfl
  have balance := inv.balance
  rw [State.reservedTotal, slots] at balance
  rw [live_total]
  omega

theorem residents_covered (inv : Inv capacity state) :
    (state.residents.map shortfall).sum = 0 := by
  apply List.sum_eq_zero
  intro amount member
  rcases List.mem_map.mp member with ⟨resource, resident, rfl⟩
  rcases List.mem_filterMap.mp resident with ⟨entry, mapped, found⟩
  have full := (inv.entries entry.1 entry.2 mapped).covered resource (resourceAt_some.mp found)
  rw [shortfall, full, Nat.sub_self]

theorem sizes_split (resources : List CachedResource) : totalSize resources ≤
    (resources.map fun resource => resource.reservation.reserved.toNat).sum +
      (resources.map shortfall).sum := by
  induction resources with
  | nil => exact Nat.zero_le _
  | cons resource rest ih =>
      simp only [totalSize, List.map_cons, List.sum_cons, shortfall] at ih ⊢
      omega

/-- In every reachable state there are at most as many cache files over the limit as
there are unfinished gets, and the bytes over the limit are bytes of resources that have
left the map and were never covered by a reservation. -/
theorem overshoot_bounded [PathTree T] {slots : Nat} {positive : 0 < slots}
    {actions : List (Action T)}
    (reached : Transition.run step (initial capacity slots positive) actions = some state) :
    state.live.length ≤ slots + state.unfinished.length ∧
      totalSize state.live ≤ capacity.toNat + (state.orphans.map shortfall).sum := by
  have inv := run_inv reached
  have split := live_split inv
  constructor
  · have residents := residents_slots reached
    have few := (orphans_in_hand inv (run_held reached)).trans hands_unfinished
    rw [split.length_eq, List.length_append]
    omega
  · have short := (split.map shortfall).sum_eq
    rw [List.map_append, List.sum_append, residents_covered inv, Nat.zero_add] at short
    have sizes := sizes_split state.live
    have reserved := live_reserved inv
    omega

/-- A get pops its own entry to make room for three bytes where one is allowed, and has
its resource in hand while another get fetches. -/
def overshooting : List (Action LiteralTree) :=
  fetchActions plainCache "/a" epoch 0 (plainBody [1, 2, 3]) ++
    [.store 0 none, .reserve 0, .acquire 0, .pop 0, .evict 0, .reserve 0, .pop 0, .reserveUpTo 0,
      .unlock 0, .fill 0 ⟨epoch, ⟨0⟩⟩] ++
    fetchActions plainCache "/b" epoch 1 (plainBody [4]) ++ [.store 1 none]

theorem overshoot_bounded_oversized :
    ∃ state, Transition.run step (initial 1 1 (by decide)) overshooting = some state ∧
      state.live.length ≤ 1 + state.unfinished.length ∧
      totalSize state.live ≤ (1 : UInt64).toNat + (state.orphans.map shortfall).sum ∧
      totalSize state.live = 3 ∧ (state.orphans.map shortfall).sum = 2 := by
  have shape : (Transition.run step (initial 1 1 (by decide)) overshooting).map
      (fun state => (totalSize state.live, (state.orphans.map shortfall).sum)) = some (3, 2) := rfl
  rcases Option.map_eq_some_iff.mp shape with ⟨state, reached, shape⟩
  simp only [Prod.mk.injEq] at shape
  have bounds := overshoot_bounded reached
  exact ⟨state, reached, bounds.1, bounds.2, shape.1, shape.2⟩

end Server3.Machine
