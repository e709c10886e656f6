import Server3.Residency
import Server3.MachineEffects

/-! A key is fetched by one get at a time, as long as the cell being filled is not
evicted: expiry replaces filled cells only. -/

namespace Server3.Machine

open Clock Routes Upstream Resource Recency

variable {T : Type → Type} [PathTree T] {capacity : UInt64} {start state next : State}
  {id : TaskId} {task : Task} {action : Action T} {actions : List (Action T)}

def EvictedUnfilled (start : State) (actions : List (Action T)) (key : CachedResourceKey)
    (cell : CellId) : Prop :=
  ∃ before action after middle next, actions = before ++ action :: after ∧
    Transition.run step start before = some middle ∧ step middle action = some next ∧
    Evicts middle action next key cell ∧
    ∃ content, middle.cellAt cell = some content ∧ content.pending = true

/-- A pending cell is in the map under its key or was evicted. -/
def Tracked (start : State) (actions : List (Action T)) (state : State) : Prop :=
  ∀ cell key content, state.keyAt cell = some key → state.cellAt cell = some content →
    content.pending = true →
      (key, cell) ∈ state.map.entries ∨ EvictedUnfilled start actions key cell

theorem evicted_later {key : CachedResourceKey} {cell : CellId}
    (evicted : EvictedUnfilled start actions key cell) (action : Action T) :
    EvictedUnfilled start (actions ++ [action]) key cell := by
  rcases evicted with ⟨before, earlier, after, middle, next, split, rest⟩
  exact ⟨before, earlier, after ++ [action], middle, next, by simp [split], rest⟩

theorem tracked_start (before : Tracked start actions state) (cache : Cache T) (path : String)
    (now : Instant) :
    Tracked start (actions ++ [.start cache path now]) (state.start cache path now) := by
  rcases start_started state cache path now with ⟨fresh, started⟩
  intro cell key content known found pending
  rw [started.keyAt] at known
  rw [started.cellAt] at found
  rw [started.map]
  exact (before cell key content known found pending).imp_right fun evicted =>
    evicted_later evicted _

theorem tracked_move (inv : Inv capacity state) (before : Tracked start actions state)
    (reached : Transition.run step start actions = some state)
    (taken : step state action = some next) (present : state.tasks[id]? = some task)
    (move : Move state id task action next) : Tracked start (actions ++ [action]) next := by
  intro cell key content known found pending
  rcases move_keyAt inv move known with older | ⟨_, _, mapped⟩
  · rcases move_pending inv present move found pending with ⟨old, earlier, unsettled⟩ | fresh
    · rcases before cell key old older earlier unsettled with member | evicted
      · rcases move_entry inv present move member with kept | evicts | ⟨resource, filled, _⟩
        · exact Or.inl kept
        · exact Or.inr ⟨actions, action, [], state, next, rfl, reached, taken, evicts, old,
            earlier, unsettled⟩
        · -- what expires is filled, so it is not this cell
          rw [filled, Option.some.injEq] at earlier
          rw [← earlier] at unsettled
          cases unsettled
      · exact Or.inr (evicted_later evicted action)
    · rw [fresh] at older
      cases older
  · exact Or.inl mapped

def filledCell (state : State) : Action T → Option CellId
  | .fill id _ => (state.tasks[id]?).bind fun task => task.pc.own
  | _ => none

def filledCells (start : State) (actions : List (Action T)) : List CellId :=
  Transition.observed step filledCell start actions

/-- No cell was filled twice, and what was filled is pending no more. -/
structure FilledOnce (start : State) (actions : List (Action T)) (state : State) : Prop where
  distinct : (filledCells start actions).Nodup
  settled : ∀ cell ∈ filledCells start actions, (state.keyAt cell).isSome ∧
    ∀ content, state.cellAt cell = some content → content.pending = false

omit [PathTree T] in
theorem settled_move {cell : CellId} (inv : Inv capacity state)
    (present : state.tasks[id]? = some task) (move : Move state id task action next)
    (settled : (state.keyAt cell).isSome ∧
      ∀ content, state.cellAt cell = some content → content.pending = false) :
    (next.keyAt cell).isSome ∧
      ∀ content, next.cellAt cell = some content → content.pending = false := by
  rcases Option.isSome_iff_exists.mp settled.1 with ⟨key, known⟩
  refine ⟨Option.isSome_iff_exists.mpr ⟨key, move_keeps_key move known⟩, ?_⟩
  intro content found
  by_contra pending
  rcases move_pending inv present move found (by simpa using pending) with
    ⟨old, earlier, unsettled⟩ | fresh
  · rw [settled.2 old earlier] at unsettled
    cases unsettled
  · rw [fresh] at known
    cases known

theorem filled_snoc (reached : Transition.run step start actions = some state) :
    filledCells start (actions ++ [action]) =
      filledCells start actions ++ (filledCell state action).toList :=
  Transition.observed_snoc reached

theorem filled_once_move (inv : Inv capacity state) (before : FilledOnce start actions state)
    (reached : Transition.run step start actions = some state)
    (present : state.tasks[id]? = some task) (move : Move state id task action next) :
    FilledOnce start (actions ++ [action]) next := by
  have older (cell : CellId) (member : cell ∈ filledCells start actions) :=
    settled_move inv present move (before.settled cell member)
  cases filling : filledCell state action with
  | none =>
      have same : filledCells start (actions ++ [action]) = filledCells start actions := by
        rw [filled_snoc reached, filling]
        exact List.append_nil _
      exact ⟨same ▸ before.distinct, fun cell member => older cell (same ▸ member)⟩
  | some cell =>
      have more : filledCells start (actions ++ [action]) = filledCells start actions ++ [cell] := by
        rw [filled_snoc reached, filling]
        rfl
      have keeps {cell : CellId} {key : CachedResourceKey} (known : state.keyAt cell = some key) :
          next.keyAt cell = some key := move_keeps_key move known
      cases move with
      | fill own fetched reservation clock stage =>
          simp only [filledCell, present, stage, Pc.own, Option.bind_some, Option.some.injEq]
            at filling
          subst filling
          have valid := inv.tasks id task present
          have permit := valid.permit own (by rw [stage]; rfl)
          have known := (valid.own own (by rw [stage]; rfl)).1
          constructor
          · rw [more, List.nodup_append]
            refine ⟨before.distinct, List.nodup_singleton own, ?_⟩
            intro other member last single same
            subst same
            rw [List.mem_singleton.mp single] at member
            cases (before.settled own member).2 _ permit
          · intro other member
            rw [more] at member
            rcases List.mem_append.mp member with earlier | last
            · exact older other earlier
            · rw [List.mem_singleton] at last
              subst last
              have full : _ = some (Cell.filled _) := State.setCell_self state other
                (.filled (task.resource id fetched reservation clock)) permit
              refine ⟨Option.isSome_iff_exists.mpr ⟨task.key, keeps known⟩, ?_⟩
              intro content found
              have same := full.symm.trans found
              rw [Option.some.injEq] at same
              rw [← same]
              rfl
      | _ => cases filling

theorem run_tracked {slots : Nat} {positive : 0 < slots}
    (reached : Transition.run step (initial capacity slots positive) actions = some state) :
    Tracked (initial capacity slots positive) actions state ∧
      FilledOnce (initial capacity slots positive) actions state := by
  refine Transition.run_induction (fun actions state =>
    Tracked (initial capacity slots positive) actions state ∧
      FilledOnce (initial capacity slots positive) actions state) ?_ ?_ reached
  · refine ⟨?_, List.nodup_nil, ?_⟩
    · intro cell key content known
      simp [initial, State.keyAt] at known
    · intro cell member
      cases member
  · intro actions state action next earlier before taken
    have inv := run_inv earlier
    rcases step_moves taken with ⟨cache, path, now, rfl, rfl⟩ | ⟨id, task, present, move⟩
    · rcases start_started state cache path now with ⟨fresh, started⟩
      have same : filledCells (initial capacity slots positive)
          (actions ++ [.start cache path now]) = filledCells _ actions :=
        (filled_snoc earlier).trans (List.append_nil _)
      refine ⟨tracked_start before.1 cache path now, same ▸ before.2.distinct, ?_⟩
      intro cell member
      simp only [started.keyAt, started.cellAt]
      exact before.2.settled cell (same ▸ member)
    · exact ⟨tracked_move inv before.1 earlier taken present move,
        filled_once_move inv before.2 earlier present move⟩

/-- Two gets that fetch one key at the same time fetch for different cells, one of
which was evicted unfilled. No cell is filled twice. -/
theorem single_flight {slots : Nat} {positive : 0 < slots}
    (reached : Transition.run step (initial capacity slots positive) actions = some state) :
    (∀ (one two : TaskId) oneTask twoTask oneCell twoCell, one ≠ two →
      state.tasks[one]? = some oneTask → state.tasks[two]? = some twoTask →
      oneTask.key = twoTask.key → oneTask.pc.initializes = some oneCell →
      twoTask.pc.initializes = some twoCell →
        EvictedUnfilled (initial capacity slots positive) actions oneTask.key oneCell ∨
          EvictedUnfilled (initial capacity slots positive) actions twoTask.key twoCell) ∧
      (filledCells (initial capacity slots positive) actions).Nodup := by
  have inv := run_inv reached
  have history := run_tracked reached
  refine ⟨?_, history.2.distinct⟩
  intro one two oneTask twoTask oneCell twoCell different onePresent twoPresent sameKey oneHolds
    twoHolds
  have oneValid := inv.tasks one oneTask onePresent
  have twoValid := inv.tasks two twoTask twoPresent
  have onePermit := oneValid.permit oneCell oneHolds
  have twoPermit := twoValid.permit twoCell twoHolds
  have oneKey := (oneValid.own oneCell (own_of_initializes oneHolds)).1
  have twoKey := (twoValid.own twoCell (own_of_initializes twoHolds)).1
  rcases history.1 oneCell _ _ oneKey onePermit rfl with oneMapped | oneEvicted
  · rcases history.1 twoCell _ _ twoKey twoPermit rfl with twoMapped | twoEvicted
    · -- one key has one cell in the map, and a cell one initialiser
      rw [← sameKey] at twoMapped
      have sameCell := LruCache.entry_unique oneMapped twoMapped
      subst sameCell
      exact absurd (permit_unique inv onePresent twoPresent oneHolds twoHolds) different
    · exact Or.inr twoEvicted
  · exact Or.inl oneEvicted

/-- With one slot, a get of another key displaces the cell that is being filled,
and the key is fetched a second time. -/
def refetchedActions : List (Action LiteralTree) :=
  [.start plainCache "/a" epoch, .acquire 0, .lookup 0, .join 0,
    .start plainCache "/b" epoch, .acquire 1, .lookup 1,
    .start plainCache "/a" epoch, .acquire 2, .lookup 2, .join 2]

theorem single_flight_refetched :
    ∃ cell, EvictedUnfilled (initial 10 1 (by decide)) refetchedActions ⟨"files", "/a"⟩ cell := by
  have tasks : (Transition.run step (initial 10 1 (by decide)) refetchedActions).map
      (fun state => state.tasks.map fun task => (task.key, task.pc.initializes)) =
        some [(⟨"files", "/a"⟩, some 0), (⟨"files", "/b"⟩, none), (⟨"files", "/a"⟩, some 2)] := rfl
  rcases Option.map_eq_some_iff.mp tasks with ⟨state, reached, places⟩
  have place (id : TaskId) := congrArg (fun items => items[id]?) places
  simp only [List.getElem?_map] at place
  rcases Option.map_eq_some_iff.mp (place 0) with ⟨first, firstPresent, firstPlace⟩
  rcases Option.map_eq_some_iff.mp (place 2) with ⟨last, lastPresent, lastPlace⟩
  obtain ⟨firstKey, firstHolds⟩ := Prod.mk.inj firstPlace
  obtain ⟨lastKey, lastHolds⟩ := Prod.mk.inj lastPlace
  rcases (single_flight reached).1 0 2 first last 0 2 (by decide) firstPresent lastPresent
    (firstKey.trans lastKey.symm) firstHolds lastHolds with evicted | evicted
  · exact ⟨0, firstKey ▸ evicted⟩
  · exact ⟨2, lastKey ▸ evicted⟩

end Server3.Machine
