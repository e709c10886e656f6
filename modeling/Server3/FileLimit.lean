import Server3.Generations
import Server3.LiveFiles

/-! The limit on cache files. The map bounds its cells, not the resources that have
left it and are still in the hands of a get. -/

namespace Server3.Machine

open Clock Routes Upstream Resource Recency

/-- The live resources that have left the map. -/
def State.orphans (state : State) : List CachedResource :=
  ((List.range state.slots.length).filter fun cell => !state.mapped cell).filterMap
    state.resourceAt

def State.orphanCells (state : State) : List CellId :=
  ((List.range state.slots.length).filter fun cell => !state.mapped cell).filter
    fun cell => (state.resourceAt cell).isSome

def State.claimed (state : State) (cell : CellId) : Bool :=
  state.tasks.any fun task => task.pc.own = some cell

section Condition

variable {T : Type → Type}

/-- The cell that a step takes out of the map: displaced, expired or popped. -/
def unlinks (state : State) : Action T → Option CellId
  | .lookup id => (state.tasks[id]?).bind fun task =>
      (state.lookupKey task.key task.now).unlinked
  | .pop _ => state.map.popLru.map fun popped => popped.1.2
  | _ => none

/-- No cell leaves the map while a get has it in hand. -/
def HandsKept (state : State) (action : Action T) : Prop :=
  (unlinks state action).all (fun cell => !state.claimed cell) = true

instance (state : State) (action : Action T) : Decidable (HandsKept state action) :=
  inferInstanceAs (Decidable (_ = _))

end Condition

variable {T : Type → Type} {capacity : UInt64} {state next : State} {id : TaskId} {task : Task}
  {action : Action T} {cell : CellId} {key : CachedResourceKey}

theorem live_range : state.live = (List.range state.slots.length).filterMap state.resourceAt := by
  rw [State.live, Arena.filterMap_range]
  apply List.filterMap_congr
  intro cell _
  rw [State.resourceAt, State.cellAt]
  cases state.slots[cell]? <;> rfl

theorem live_split (inv : Inv capacity state) :
    state.live.Perm (state.residents ++ state.orphans) := by
  have inside : (((List.range state.slots.length).filter state.mapped).filterMap
      state.resourceAt).Perm ((state.map.entries.map Prod.snd).filterMap state.resourceAt) := by
    apply Arena.filterMap_perm _ (List.nodup_range.filter _) (mapped_distinct inv)
    intro cell found
    rw [List.mem_filter, mapped_iff, List.mem_map]
    constructor
    · rintro ⟨-, key, member⟩
      exact ⟨(key, cell), member, rfl⟩
    · rintro ⟨entry, member, rfl⟩
      exact ⟨List.mem_range.mpr (entry_known inv member), entry.1, member⟩
  rw [List.filterMap_map] at inside
  have parts := (List.filter_append_perm state.mapped (List.range state.slots.length)).symm
  have split := parts.filterMap state.resourceAt
  rw [← live_range, List.filterMap_append] at split
  exact split.trans (inside.append_right _)

theorem orphans_cells : state.orphans.length = state.orphanCells.length := by
  rw [State.orphans, State.orphanCells, List.length_filterMap_eq_countP,
    ← List.countP_eq_length_filter]

theorem evicting_alone (inv : Inv capacity state) :
    state.tasks.countP (fun task => task.pc.victim.isSome) ≤ 1 := by
  apply Arena.countP_single (state.lock.getD 0)
  intro id task present evicts
  have holds : task.pc.holdsLock = true := by
    cases stage : task.pc <;> simp_all [Pc.victim, Pc.holdsLock]
  rw [(inv.tasks id task present).lock holds]
  rfl

/-- What gets have in hand is in the map, and a get that evicts has made room. -/
structure Anchored (state : State) : Prop where
  own : ∀ (id : TaskId) task cell, state.tasks[id]? = some task → task.pc.own = some cell →
    state.mapped cell = true
  room : ∀ (id : TaskId) task, state.tasks[id]? = some task → task.pc.victim.isSome →
    state.map.entries.length < state.map.capacity

theorem kept_claimed {other : TaskId} {found : Task} (kept : HandsKept state action)
    (present : state.tasks[other]? = some found) (own : found.pc.own = some cell) :
    unlinks state action ≠ some cell := by
  intro gone
  have held : state.claimed cell = true :=
    List.any_eq_true.mpr ⟨found, List.mem_of_getElem? present, decide_eq_true own⟩
  rw [HandsKept, gone, Option.all_some, held] at kept
  cases kept

theorem move_lost (inv : Inv capacity state) (present : state.tasks[id]? = some task)
    (move : Move state id task action next) (member : (key, cell) ∈ state.map.entries)
    (gone : (key, cell) ∉ next.map.entries) : unlinks state action = some cell := by
  rcases move_unlinks inv present move member gone with evicted | ⟨rfl, -⟩
  · rcases evicted.how with ⟨mover, rest, rfl, popped⟩ | ⟨mover, asker, rfl, -, -, -⟩
    · rw [unlinks, popped]
      rfl
    · cases move with
      | lookup stage =>
          rw [State.releaseOption_map] at gone
          rcases (task_lookup_cases inv task.key task.now).keeps member with stays | ⟨lost, -⟩
          · exact absurd stays gone
          · rw [unlinks, present]
            exact lost
  · cases move with
    | lookup stage =>
        rw [State.releaseOption_map] at gone
        rcases (task_lookup_cases inv task.key task.now).keeps member with stays | ⟨lost, -⟩
        · exact absurd stays gone
        · rw [unlinks, present]
          exact lost

theorem move_evicts (move : Move state id task action next) :
    ∃ pc, next.tasks = state.tasks.set id { task with pc := pc } ∧
      (pc.victim.isSome → next.map.entries.length < next.map.capacity) := by
  cases move with
  | popEntry own fetched popped victim rest stage taken =>
      refine ⟨_, rfl, fun _ => ?_⟩
      rcases LruCache.pop_some taken with ⟨split, same⟩
      have bounded := state.map.bounded
      rw [split, List.length_append, List.length_singleton] at bounded
      have room : rest.entries.length < rest.capacity := same ▸ bounded
      exact room
  | answerNone | answerError | storeError | cancelInit =>
      exact ⟨_, State.abandon_tasks _ _ _, nofun⟩
  | lookup => exact ⟨_, State.releaseOption_tasks _, nofun⟩
  | evict | respond | cancelJoined => exact ⟨_, State.release_tasks _ _, nofun⟩
  | reserveFailed own fetched locked =>
      refine ⟨_, rfl, ?_⟩
      cases locked <;> nofun
  | _ => exact ⟨_, rfl, nofun⟩

theorem move_anchored (inv : Inv capacity state) (kept : HandsKept state action)
    (anchored : Anchored state) (present : state.tasks[id]? = some task)
    (move : Move state id task action next) : Anchored next := by
  have stays {other : TaskId} {found : Task} {cell : CellId}
      (before : state.tasks[other]? = some found) (own : found.pc.own = some cell) :
      next.mapped cell = true := by
    rcases mapped_iff.mp (anchored.own other found cell before own) with ⟨key, member⟩
    by_contra gone
    have lost : (key, cell) ∉ next.map.entries :=
      fun again => gone (mapped_iff.mpr ⟨key, again⟩)
    exact kept_claimed kept before own (move_lost inv present move member lost)
  constructor
  · intro other found cell after own
    rcases move_own inv move with ⟨pc, tasks, -, came⟩
    rcases task_after present tasks after with ⟨rfl, rfl⟩ | ⟨-, before⟩
    · rcases came cell own with same | ⟨-, -, member⟩
      · exact stays present same
      · exact mapped_iff.mpr ⟨_, member⟩
    · exact stays before own
  · intro other found after evicts
    rcases move_evicts move with ⟨pc, tasks, room⟩
    rcases task_after present tasks after with ⟨rfl, rfl⟩ | ⟨different, before⟩
    · exact room evicts
    · -- the one that evicts has the lock, so the mover leaves the map as it is
      have holds : found.pc.holdsLock = true := by
        cases stage : found.pc <;> simp_all [Pc.victim, Pc.holdsLock]
      have locked := (inv.tasks other found before).lock holds
      rcases move_lock move with ⟨-, -, -, same⟩
      have idle : task.pc.holdsLock = false := by
        apply Bool.eq_false_of_not_eq_true
        intro mine
        have again := (inv.tasks id task present).lock mine
        rw [locked, Option.some.injEq] at again
        exact different again
      rw [same idle]
      exact anchored.room other found before evicts

theorem start_anchored [PathTree T] (anchored : Anchored state) (cache : Cache T) (path : String)
    (now : Instant) : Anchored (state.start cache path now) := by
  rcases start_started state cache path now with ⟨fresh, started⟩
  have idle : fresh.pc.own = none ∧ fresh.pc.victim = none := by
    rcases started.stage with ⟨stage, -⟩ | ⟨stage, -⟩ | ⟨stage, -⟩ | ⟨stage, -⟩ <;>
      rw [stage] <;> exact ⟨rfl, rfl⟩
  constructor
  · intro id task cell after own
    rw [started.tasks] at after
    rcases Arena.get_append_cases after with before | ⟨-, rfl⟩
    · rw [State.mapped, started.map]
      exact anchored.own id task cell before own
    · rw [idle.1] at own
      cases own
  · intro id task after evicts
    rw [started.tasks] at after
    rcases Arena.get_append_cases after with before | ⟨-, rfl⟩
    · rw [started.map]
      exact anchored.room id task before evicts
    · rw [idle.2] at evicts
      cases evicts

theorem run_anchored [PathTree T] {slots : Nat} {positive : 0 < slots}
    {actions : List (Action T)}
    (reached : Transition.run step (initial capacity slots positive) actions = some state)
    (kept : Transition.Along step HandsKept (initial capacity slots positive) actions) :
    Anchored state := by
  revert kept
  refine Transition.run_induction (fun actions state => Transition.Along step HandsKept
    (initial capacity slots positive) actions → Anchored state) ?_ ?_ reached
  · intro _
    exact ⟨by simp [initial], by simp [initial]⟩
  · intro actions state action next earlier before taken along
    rcases (Transition.along_snoc earlier).mp along with ⟨front, kept⟩
    have anchored := before front
    rcases step_moves taken with ⟨cache, path, now, rfl, rfl⟩ | ⟨id, task, present, move⟩
    · exact start_anchored anchored cache path now
    · exact move_anchored (run_inv earlier) kept anchored present move

/-- The only orphan is then what a get evicts. -/
theorem orphans_evicted (held : Held state) (anchored : Anchored state) :
    state.orphans.length ≤ state.tasks.countP fun task => task.pc.victim.isSome := by
  have covered : state.orphanCells ⊆ state.tasks.filterMap fun task => task.pc.victim := by
    intro cell member
    rcases List.mem_filter.mp member with ⟨outside, filled⟩
    have unmapped := (List.mem_filter.mp outside).2
    rcases Option.isSome_iff_exists.mp filled with ⟨resource, found⟩
    rcases held_iff.mp (held.holder cell resource (resourceAt_some.mp found)) with
      mapped | ⟨holder, task, present, own | evicts⟩
    · rw [mapped] at unmapped
      cases unmapped
    · rw [anchored.own holder task cell present own] at unmapped
      cases unmapped
    · exact List.mem_filterMap.mpr ⟨task, List.mem_of_getElem? present, evicts⟩
  have distinct : state.orphanCells.Nodup := (List.nodup_range.filter _).filter _
  calc
    state.orphans.length = state.orphanCells.length := orphans_cells
    _ ≤ (state.tasks.filterMap fun task => task.pc.victim).length :=
      (List.subperm_of_subset distinct covered).length_le
    _ = state.tasks.countP fun task => task.pc.victim.isSome := List.length_filterMap_eq_countP

theorem live_anchored (inv : Inv capacity state) (held : Held state) (anchored : Anchored state) :
    state.live.length ≤ state.map.capacity := by
  have split := (live_split inv).length_eq
  have residents : state.residents.length ≤ state.map.entries.length :=
    List.length_filterMap_le _ _
  have bounded := state.map.bounded
  have few := orphans_evicted held anchored
  rw [List.length_append] at split
  by_cases evicting : ∃ task ∈ state.tasks, task.pc.victim.isSome
  · rcases evicting with ⟨task, member, evicts⟩
    rcases List.getElem?_of_mem member with ⟨id, present⟩
    have room := anchored.room id task present evicts
    have alone := evicting_alone inv
    omega
  · have none : state.tasks.countP (fun task => task.pc.victim.isSome) = 0 :=
      List.countP_eq_zero.mpr fun task member evicts => evicting ⟨task, member, evicts⟩
    omega

/-- The limit on cache files holds in every state of a run in which no cell leaves the map
while a get has it in hand. -/
theorem file_limit_kept [PathTree T] {slots : Nat} {positive : 0 < slots}
    {actions : List (Action T)}
    (kept : Transition.Along step HandsKept (initial capacity slots positive) actions) :
    Transition.Throughout step (fun state => state.live.length ≤ slots)
      (initial capacity slots positive) actions := by
  intro before after state split reached
  have along := Transition.along_prefix (split ▸ kept)
  have limit := live_anchored (run_inv reached) (run_held reached) (run_anchored reached along)
  rwa [run_capacity reached] at limit

/-- The get of /b takes the only slot while /a is still being fetched; both fill. -/
def displacedInFlight : List (Action LiteralTree) :=
  fetchActions plainCache "/a" epoch 0 (plainBody [1]) ++
    fetchActions plainCache "/b" epoch 1 (plainBody [2]) ++ fillActions 1 ⟨epoch, ⟨0⟩⟩ ++
      fillActions 0 ⟨epoch, ⟨0⟩⟩

/-- With one cache file allowed there are two. -/
theorem file_limit_exceeded :
    ∃ state, Transition.run step (initial 8 1 (by decide)) displacedInFlight = some state ∧
      state.live.length = 2 ∧ state.metrics.diskFileCount "files" = 2 := by
  have counts : (Transition.run step (initial 8 1 (by decide)) displacedInFlight).map
      (fun state => (state.live.length, state.metrics.diskFileCount "files")) = some (2, 2) := rfl
  rcases Option.map_eq_some_iff.mp counts with ⟨state, reached, same⟩
  simp only [Prod.mk.injEq] at same
  exact ⟨state, reached, same.1, same.2⟩

/-- With a slot for each of them no cell is displaced. -/
theorem file_limit_kept_in_flight :
    ∃ state, Transition.run step (initial 8 2 (by decide)) displacedInFlight = some state ∧
      state.live.length = 2 ∧
      Transition.Throughout step (fun state => state.live.length ≤ 2)
        (initial 8 2 (by decide)) displacedInFlight := by
  have kept : Transition.Along step HandsKept (initial 8 2 (by decide)) displacedInFlight := by
    decide
  have ran : (Transition.run step (initial 8 2 (by decide)) displacedInFlight).map
      (fun state => state.live.length) = some 2 := rfl
  rcases Option.map_eq_some_iff.mp ran with ⟨state, reached, two⟩
  exact ⟨state, reached, two, file_limit_kept kept⟩

end Server3.Machine
