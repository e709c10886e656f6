import Server3.MachinePreservation

/-! What the map holds fits the byte limit. -/

namespace Server3.Machine

open Clock Routes Upstream Resource Recency

def Cell.resource : Cell → Option CachedResource
  | .filled resource => some resource
  | _ => none

def State.resourceAt (state : State) (cell : CellId) : Option CachedResource :=
  (state.cellAt cell).bind Cell.resource

def State.residents (state : State) : List CachedResource :=
  state.map.entries.filterMap fun entry => state.resourceAt entry.2

def State.reservedAt (state : State) (cell : CellId) : Nat :=
  ((state.slots[cell]?).map Slot.reserved).getD 0

variable {T : Type → Type} {capacity : UInt64} {state : State}

theorem resourceAt_some {cell : CellId} {resource : CachedResource} :
    state.resourceAt cell = some resource ↔ state.cellAt cell = some (.filled resource) := by
  rw [State.resourceAt, Option.bind_eq_some_iff]
  constructor
  · intro found
    rcases found with ⟨content, present, same⟩
    cases content with
    | filled other =>
        cases same
        exact present
    | _ => cases same
  · intro found
    exact ⟨_, found, rfl⟩

theorem reservedAt_filled {cell : CellId} {resource : CachedResource}
    (found : state.cellAt cell = some (.filled resource)) :
    state.reservedAt cell = resource.reservation.reserved.toNat := by
  rcases Option.map_eq_some_iff.mp found with ⟨slot, present, content⟩
  simp [State.reservedAt, present, Slot.reserved, content, Cell.reserved]

theorem mapped_distinct (inv : Inv capacity state) : (state.map.entries.map Prod.snd).Nodup := by
  apply List.Nodup.map_on _ state.map.distinct.of_map
  intro first one second two same
  have left := (inv.entries first.1 first.2 one).key
  have right := (inv.entries second.1 second.2 two).key
  rw [same, right, Option.some.injEq] at left
  exact Prod.ext left.symm same

theorem residents_reserved (entries : List (CachedResourceKey × CellId))
    (covered : ∀ entry ∈ entries, ∀ resource, state.cellAt entry.2 = some (.filled resource) →
      resource.reservation.reserved = resource.size) :
    ((entries.filterMap fun entry => state.resourceAt entry.2).map
        fun resource => resource.size.toNat).sum ≤
      ((entries.map Prod.snd).map state.reservedAt).sum := by
  induction entries with
  | nil => simp
  | cons entry rest ih =>
      have tail := ih fun other member => covered other (List.mem_cons_of_mem _ member)
      rw [List.map_cons, List.map_cons, List.sum_cons]
      cases found : state.resourceAt entry.2 with
      | none =>
          simp only [List.filterMap_cons, found]
          omega
      | some resource =>
          have filled := resourceAt_some.mp found
          have full := covered entry List.mem_cons_self resource filled
          simp only [List.filterMap_cons, found, List.map_cons, List.sum_cons,
            reservedAt_filled filled, full]
          omega

theorem residents_bounded (inv : Inv capacity state) :
    (state.residents.map fun resource => resource.size.toNat).sum ≤ capacity.toNat := by
  have covered := residents_reserved state.map.entries fun entry member resource filled =>
    (inv.entries entry.1 entry.2 member).covered resource filled
  have part : ((state.map.entries.map Prod.snd).map state.reservedAt).sum ≤
      Arena.total Slot.reserved state.slots :=
    Arena.picked_le_total Slot.reserved (mapped_distinct inv)
  have balance := inv.balance
  calc
    (state.residents.map fun resource => resource.size.toNat).sum
      ≤ ((state.map.entries.map Prod.snd).map state.reservedAt).sum := covered
    _ ≤ Arena.total Slot.reserved state.slots := part
    _ ≤ state.reservedTotal := Nat.le_add_right _ _
    _ ≤ capacity.toNat := by omega

/-- In every state that any run reaches, each filled cell of the map holds a fully
reserved resource, and all of them together fit the capacity. -/
theorem residents_fit [PathTree T] {slots : Nat} {positive : 0 < slots}
    {actions : List (Action T)}
    (reached : Transition.run step (initial capacity slots positive) actions = some state) :
    (∀ key cell resource, (key, cell) ∈ state.map.entries →
      state.cellAt cell = some (.filled resource) →
        resource.reservation.reserved = resource.size) ∧
      (state.residents.map fun resource => resource.size.toNat).sum ≤ capacity.toNat := by
  have inv := run_inv reached
  refine ⟨?_, residents_bounded inv⟩
  intro key cell resource member
  exact (inv.entries key cell member).covered resource

/-- A file of four bytes empties the map, its own cell included, and takes the
three bytes there are; a file of two bytes is then fetched and stays. -/
def oversizedActions : List (Action LiteralTree) :=
  fetchActions plainCache "/big" epoch 0 (plainBody [1, 2, 3, 4]) ++
    [.store 0 none, .reserve 0, .acquire 0, .pop 0, .evict 0, .reserve 0, .pop 0, .reserveUpTo 0,
      .unlock 0, .fill 0 ⟨epoch, ⟨0⟩⟩] ++ respondActions 0 ++
    fetchActions plainCache "/small" epoch 1 (plainBody [5, 6]) ++ fillActions 1 ⟨epoch, ⟨0⟩⟩

theorem residents_fit_oversized :
    ∃ state, Transition.run step (initial 3 2 (by decide)) oversizedActions = some state ∧
      (state.residents.map fun resource => resource.size.toNat).sum ≤ (3 : UInt64).toNat ∧
      state.residents.map CachedResource.size = [2] := by
  have sizes : (Transition.run step (initial 3 2 (by decide)) oversizedActions).map
      (fun state => state.residents.map CachedResource.size) = some [2] := rfl
  rcases Option.map_eq_some_iff.mp sizes with ⟨state, reached, two⟩
  exact ⟨state, reached, (residents_fit reached).2, two⟩

end Server3.Machine
