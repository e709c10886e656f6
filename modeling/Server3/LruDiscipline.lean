import Server3.LastUse
import Server3.MachineEffects

/-! Evictions go by last use: whatever the gets do at the same time, what leaves the map
for room was looked up before everything that stays. -/

namespace Server3.Machine

open Clock Routes Upstream Resource Recency

variable {T : Type → Type} {capacity : UInt64} {state next : State} {id : TaskId} {task : Task}
  {action : Action T} {actions : List (Action T)} {uses : List CachedResourceKey}
  {key : CachedResourceKey} {cell : CellId}

def lookedUp (state : State) : Action T → Option CachedResourceKey
  | .lookup id => (state.tasks[id]?).map Task.key
  | _ => none

def lookups [PathTree T] (start : State) (actions : List (Action T)) : List CachedResourceKey :=
  (Transition.observed step lookedUp start actions).reverse

theorem lookups_snoc [PathTree T] {start : State}
    (reached : Transition.run step start actions = some state) :
    lookups start (actions ++ [action]) =
      (lookedUp state action).toList ++ lookups start actions := by
  rw [lookups, Transition.observed_snoc reached, List.reverse_append]
  cases lookedUp state action <;> rfl

theorem lookup_ordered (ordered : state.map.Ordered uses) (key : CachedResourceKey)
    (now : Instant) : (state.lookupKey key now).map.Ordered (key :: uses) := by
  have inserted := LruCache.ordered_get_or_insert ordered key state.slots.length
  simp only [State.lookupKey]
  split
  · exact inserted
  · split
    · split
      · exact LruCache.ordered_replace inserted key state.slots.length
      · exact inserted
    · exact inserted

theorem lookup_absent_map (absent : key ∉ state.map.entries.map Prod.fst) (now : Instant) :
    (state.lookupKey key now).map =
      (state.map.getOrInsertMutRef key state.slots.length).cache := by
  have fresh := (LruCache.get_or_insert_absent state.slots.length absent).2.1
  simp only [State.lookupKey, fresh, if_true]

theorem move_ordered (present : state.tasks[id]? = some task)
    (move : Move state id task action next) (ordered : state.map.Ordered uses) :
    next.map.Ordered ((lookedUp state action).toList ++ uses) := by
  cases move with
  | lookup stage =>
      have used : lookedUp state (.lookup id : Action T) = some task.key := by
        rw [lookedUp, present]
        rfl
      rw [used, State.releaseOption_map]
      exact lookup_ordered ordered task.key task.now
  | popEntry own fetched popped victim rest stage taken => exact LruCache.ordered_pop ordered taken
  | _ =>
      first
      | exact ordered
      | simp only [State.release_map, State.abandon_map]
        exact ordered

/-- The entries of the map are always in the order of the last lookups of their keys. -/
theorem run_ordered [PathTree T] {slots : Nat} {positive : 0 < slots}
    (reached : Transition.run step (initial capacity slots positive) actions = some state) :
    state.map.Ordered (lookups (initial capacity slots positive) actions) := by
  refine Transition.run_induction (fun actions state =>
    state.map.Ordered (lookups (initial capacity slots positive) actions))
    (LruCache.ordered_new slots positive) ?_ reached
  intro actions state action next earlier ordered taken
  rw [lookups_snoc earlier]
  rcases step_moves taken with ⟨cache, path, now, rfl, rfl⟩ | ⟨id, task, present, move⟩
  · rcases start_started state cache path now with ⟨fresh, started⟩
    rw [started.map]
    exact ordered
  · exact move_ordered present move ordered

/-- An entry that leaves the map for room, popped or displaced, is of a key whose last
lookup came before those of all keys that are in the map afterwards. -/
theorem evicts_least_recent [PathTree T] {slots : Nat} {positive : 0 < slots}
    (reached : Transition.run step (initial capacity slots positive) actions = some state)
    (taken : step state action = some next) (evicts : Evicts state action next key cell) :
    key ∈ lookups (initial capacity slots positive) actions ∧
      ∀ other otherCell, (other, otherCell) ∈ next.map.entries →
        (lookups (initial capacity slots positive) (actions ++ [action])).idxOf other <
          (lookups (initial capacity slots positive) (actions ++ [action])).idxOf key := by
  have ordered := run_ordered reached
  rw [lookups_snoc reached]
  rcases step_moves taken with ⟨cache, path, now, rfl, -⟩ | ⟨id, task, present, move⟩
  · rcases evicts.how with ⟨_, _, shape, -⟩ | ⟨_, _, shape, -⟩ <;> cases shape
  · rcases evicts.how with ⟨mover, rest, shape, popped⟩ | ⟨mover, asker, shape, asking, absent, gone⟩
    · subst shape
      have oldest := LruCache.popped_oldest ordered popped
      refine ⟨oldest.1, ?_⟩
      intro other otherCell member
      cases move with
      | popNothing cell fetched stage exhausted => simp [popped] at exhausted
      | popEntry cell fetched poppedKey victim kept stage same =>
          obtain ⟨-, rfl⟩ := Prod.mk.inj (Option.some.inj (popped.symm.trans same))
          exact oldest.2 other (List.mem_map_of_mem member)
    · subst shape
      cases move with
      | lookup stage =>
          rw [present, Option.some.injEq] at asking
          subst asker
          have oldest := LruCache.displaced_oldest ordered absent gone state.slots.length
          refine ⟨oldest.1, ?_⟩
          intro other otherCell member
          have used : lookedUp state (.lookup id : Action T) = some task.key := by
            rw [lookedUp, present]
            rfl
          rw [State.releaseOption_map] at member
          change (other, otherCell) ∈ (state.lookupKey task.key task.now).map.entries at member
          rw [lookup_absent_map absent] at member
          rw [used]
          exact oldest.2 other (List.mem_map_of_mem member)

/-- With room for two files /a is looked up again before /c comes, so /b leaves. -/
def thirdKey : List (Action LiteralTree) :=
  fetchActions plainCache "/a" epoch 0 (plainBody [1]) ++
    fetchActions plainCache "/b" epoch 1 (plainBody [2]) ++
    [.start plainCache "/a" epoch, .acquire 2, .lookup 2, .start plainCache "/c" epoch, .acquire 3]

theorem evicts_least_recent_third :
    ∃ state next, Transition.run step (initial 9 2 (by decide)) thirdKey = some state ∧
      step state (.lookup 3 : Action LiteralTree) = some next ∧
      Evicts state (.lookup 3 : Action LiteralTree) next ⟨"files", "/b"⟩ 1 ∧
      ∀ other otherCell, (other, otherCell) ∈ next.map.entries →
        (lookups (initial 9 2 (by decide)) (thirdKey ++ [.lookup 3])).idxOf other <
          (lookups (initial 9 2 (by decide)) (thirdKey ++ [.lookup 3])).idxOf ⟨"files", "/b"⟩ := by
  have ran : ∃ state next, Transition.run step (initial 9 2 (by decide)) thirdKey = some state ∧
      step state (.lookup 3 : Action LiteralTree) = some next ∧
      Evicts state (.lookup 3 : Action LiteralTree) next ⟨"files", "/b"⟩ 1 := by
    refine ⟨_, _, rfl, rfl, ?_, rfl, Or.inr ⟨3, _, rfl, rfl, ?_, rfl⟩⟩
    · exact List.mem_cons_of_mem _ List.mem_cons_self
    · decide
  rcases ran with ⟨state, next, reached, taken, evicts⟩
  exact ⟨state, next, reached, taken, evicts, (evicts_least_recent reached taken evicts).2⟩

end Server3.Machine
