import Mathlib.Algebra.BigOperators.Ring.Finset
import Server3.MachineEffects
import Server3.Progress
import Server3.Residency

/-! The resources that are alive: who holds them, how many there are, and the disk
gauges that count them. -/

namespace Server3.Machine

open Clock Routes Upstream Resource Recency
open CapacityPool (CacheCapacityPool CacheCapacityReservation)

/-- A resource lives from the filling of its cell until its cell is freed. -/
def State.live (state : State) : List CachedResource :=
  state.slots.filterMap fun slot => slot.cell.resource

def Cell.weigh (weight : CachedResource → Nat) (cell : Cell) : Nat :=
  (cell.resource.map weight).getD 0

def Slot.weigh (weight : CachedResource → Nat) (slot : Slot) : Nat := slot.cell.weigh weight

def State.liveTotal (state : State) (weight : CachedResource → Nat) : Nat :=
  Arena.total (Slot.weigh weight) state.slots

/-- A gauge that a handle raises when it makes a resource and the drop of the
resource lowers again. -/
structure Gauge where
  read : Metrics → Int
  weight : CachedResource → Nat
  created : ∀ (metrics : Metrics) (resource : CachedResource),
    read (metrics.created resource.host resource.size) = read metrics + weight resource
  dropped : ∀ (metrics : Metrics) (resource : CachedResource),
    read (metrics.dropped resource) = read metrics - weight resource
  evicted : ∀ (metrics : Metrics) (resource : CachedResource),
    read (metrics.evicted resource) = read metrics
  route : ∀ (metrics : Metrics) (host path : String) change,
    read (metrics.updateRoute host path change) = read metrics

theorem raised {M : Type} [AddZeroClass M] (gauge : String → M) (owner host : String)
    (amount : M) :
    Function.update gauge owner (gauge owner + amount) host =
      gauge host + if owner = host then amount else 0 := by
  rw [Function.update_apply]
  by_cases same : owner = host
  · simp [same]
  · simp [same, Ne.symm same]

/-- `server3_cache_disk_file_count` of a host. -/
def diskFileCount (host : String) : Gauge where
  read := fun metrics => metrics.diskFileCount host
  weight := fun resource => if resource.host = host then 1 else 0
  created := by
    intro metrics resource
    simp only [Metrics.created, raised]
    split <;> simp
  dropped := by
    intro metrics resource
    have lowered := raised metrics.diskFileCount resource.host host (-1)
    simp only [Metrics.dropped, sub_eq_add_neg, lowered]
    split <;> simp
  evicted := fun _ _ => rfl
  route := fun _ _ _ _ => rfl

/-- `server3_cache_disk_bytes` of a host. -/
def diskBytes (host : String) : Gauge where
  read := fun metrics => metrics.diskBytes host
  weight := fun resource => if resource.host = host then resource.size.toNat else 0
  created := by
    intro metrics resource
    simp only [Metrics.created, raised]
    split <;> simp
  dropped := by
    intro metrics resource
    have lowered := raised metrics.diskBytes resource.host host (-resource.size.toNat)
    simp only [Metrics.dropped, sub_eq_add_neg, lowered]
    split <;> simp
  evicted := fun _ _ => rfl
  route := fun _ _ _ _ => rfl

def Gauge.Exact (gauge : Gauge) (state : State) : Prop :=
  gauge.read state.metrics = (state.liveTotal gauge.weight : Int)

variable {T : Type → Type} {capacity : UInt64} {state next : State} {id : TaskId} {task : Task}
  {action : Action T} {cell : CellId} {resource : CachedResource} {weight : CachedResource → Nat}
  {gauge : Gauge}

theorem live_total : (state.live.map weight).sum = state.liveTotal weight := by
  rw [State.live, State.liveTotal, Arena.total]
  induction state.slots with
  | nil => rfl
  | cons slot rest ih =>
      cases found : slot.cell.resource with
      | none => simp [found, Slot.weigh, Cell.weigh, ih]
      | some resource => simp [found, Slot.weigh, Cell.weigh, ih]

theorem liveTotal_setCell (weight : CachedResource → Nat) {old : Cell} (content : Cell)
    (found : state.cellAt cell = some old) :
    (state.setCell cell content).liveTotal weight + old.weigh weight =
      state.liveTotal weight + content.weigh weight := by
  rcases Option.map_eq_some_iff.mp found with ⟨slot, present, rfl⟩
  have total := Arena.total_set (Slot.weigh weight) { slot with cell := content } present
  rw [State.liveTotal, State.setCell, Arena.modify_present _ present]
  exact total

theorem liveTotal_pending {old : Cell} (content : Cell) (found : state.cellAt cell = some old)
    (before : old.resource = none) (after : content.resource = none) :
    (state.setCell cell content).liveTotal weight = state.liveTotal weight := by
  have total := liveTotal_setCell weight content found
  simpa [Cell.weigh, before, after] using total

theorem liveTotal_afterLookup :
    (state.afterLookup id task).liveTotal weight = state.liveTotal weight := by
  rw [State.liveTotal, afterLookup_slots]
  split
  · rw [Arena.total_append]
    rfl
  · rfl

theorem setCell_absent_slots (absent : state.cellAt cell = none) (content : Cell) :
    (state.setCell cell content).liveTotal weight = state.liveTotal weight := by
  rw [State.liveTotal, setCell_absent absent]
  rfl

theorem gauge_free (exact : gauge.Exact state) : gauge.Exact (state.free cell) := by
  rw [Gauge.Exact] at exact ⊢
  unfold State.free
  split
  · rename_i resource found
    have total := liveTotal_setCell gauge.weight .freed found
    have given : ((({ state with metrics := state.metrics.dropped resource } : State).giveBack
        resource.reservation).setCell cell .freed).metrics = state.metrics.dropped resource := by
      rw [State.setCell, State.giveBack_metrics]
    have slots : ((({ state with metrics := state.metrics.dropped resource } : State).giveBack
        resource.reservation).setCell cell .freed).liveTotal gauge.weight =
          (state.setCell cell .freed).liveTotal gauge.weight := by
      simp only [State.liveTotal, State.setCell, State.giveBack_slots]
    rw [given, slots, gauge.dropped, exact]
    simp only [Cell.weigh, Cell.resource, Option.map_some, Option.getD_some, Option.map_none,
      Option.getD_none] at total
    omega
  · rename_i notFilled
    cases found : state.cellAt cell with
    | none => exact exact.trans (by rw [setCell_absent_slots found])
    | some content =>
        have nothing : content.resource = none := by
          cases content with
          | filled resource => exact absurd found (notFilled resource)
          | _ => rfl
        exact exact.trans (by rw [liveTotal_pending .freed found nothing rfl])

theorem gauge_release (exact : gauge.Exact state) : gauge.Exact (state.release cell) := by
  unfold State.release
  split
  · exact exact
  · exact gauge_free exact

theorem gauge_releaseOption {freed : Option CellId} (exact : gauge.Exact state) :
    gauge.Exact (state.releaseOption freed) := by
  cases freed with
  | none => exact exact
  | some cell => exact gauge_release exact

theorem gauge_countRoute {change : CacheRouteMetrics → CacheRouteMetrics}
    (exact : gauge.Exact state) : gauge.Exact (state.countRoute task change) :=
  (gauge.route _ _ _ _).trans exact

theorem gauge_abandon {pc : Pc} (exact : gauge.Exact state)
    (permit : state.cellAt cell = some (.initializing id)) :
    gauge.Exact (state.abandon id task cell pc) := by
  apply gauge_release
  exact exact.trans (by rw [← liveTotal_pending .empty permit rfl rfl]; rfl)

theorem move_gauge (inv : Inv capacity state) (present : state.tasks[id]? = some task)
    (exact : gauge.Exact state) (move : Move state id task action next) : gauge.Exact next := by
  have permit := (inv.tasks id task present).permit
  cases move with
  | lookup stage =>
      apply gauge_releaseOption
      exact exact.trans (by rw [liveTotal_afterLookup])
  | joinEmpty cell stage found =>
      exact exact.trans (by rw [← liveTotal_pending (.initializing id) found rfl rfl]; rfl)
  | answerNone cell stage =>
      exact gauge_abandon (gauge_countRoute exact) (permit cell (by rw [stage]; rfl))
  | answerError cell failure stage =>
      exact gauge_abandon (gauge_countRoute exact) (permit cell (by rw [stage]; rfl))
  | storeError cell body diskError failure stage stored =>
      exact gauge_abandon (gauge_countRoute exact) (permit cell (by rw [stage]; rfl))
  | cancelInit cell stage =>
      apply gauge_abandon exact
      exact permit cell (initializes_of_cancel stage)
  | evict cell fetched victim stage =>
      apply gauge_release
      have same : gauge.read (state.evictionMetrics victim) = gauge.read state.metrics := by
        unfold State.evictionMetrics
        split
        · exact gauge.evicted _ _
        · rfl
      exact same.trans exact
  | fill cell fetched reservation clock stage =>
      have total := liveTotal_setCell gauge.weight
        (.filled (task.resource id fetched reservation clock)) (permit cell (by rw [stage]; rfl))
      have created := gauge.created state.metrics (task.resource id fetched reservation clock)
      have before : gauge.read state.metrics = _ := exact
      simp only [Cell.weigh, Cell.resource, Option.map_some, Option.getD_some, Option.map_none,
        Option.getD_none] at total
      calc
        _ = gauge.read state.metrics + gauge.weight (task.resource id fetched reservation clock) :=
          created
        _ = ((state.setCell cell _).liveTotal gauge.weight : Int) := by
          rw [before]
          omega
  | count cell resource stage => exact gauge_countRoute exact
  | respond cell resource cloneError result stage shape => exact gauge_release exact
  | cancelJoined cell stage => exact gauge_release exact
  | _ => exact exact

theorem start_gauge [PathTree T] (exact : gauge.Exact state) (cache : Cache T) (path : String)
    (now : Instant) : gauge.Exact (state.start cache path now) := by
  simp only [State.start]
  split
  · exact gauge_countRoute (gauge_countRoute exact)
  · exact gauge_countRoute (gauge_countRoute exact)
  · exact gauge_countRoute exact
  · exact gauge_countRoute exact

theorem run_gauge [PathTree T] (gauge : Gauge) {slots : Nat} {positive : 0 < slots}
    {actions : List (Action T)} (zero : gauge.read Metrics.zero = 0)
    (reached : Transition.run step (initial capacity slots positive) actions = some state) :
    gauge.Exact state := by
  refine Transition.run_induction (fun _ state => gauge.Exact state) (by exact zero) ?_
    reached
  intro earlier state action next reached exact taken
  rcases step_moves taken with ⟨cache, path, now, rfl, rfl⟩ | ⟨id, task, present, move⟩
  · exact start_gauge exact cache path now
  · exact move_gauge (run_inv reached) present exact move

/-- Every live resource is in a cell that the map or a get holds, and has the host of
the key its cell was allocated for. -/
structure Held (state : State) : Prop where
  holder : ∀ cell resource, state.cellAt cell = some (.filled resource) → state.held cell = true
  host : ∀ cell resource key, state.cellAt cell = some (.filled resource) →
    state.keyAt cell = some key → resource.host = key.host

theorem held_iff : state.held cell = true ↔ state.mapped cell = true ∨
    ∃ (holder : TaskId) (other : Task), state.tasks[holder]? = some other ∧
      (other.pc.own = some cell ∨ other.pc.victim = some cell) := by
  rw [State.held, Bool.or_eq_true, List.any_eq_true]
  constructor
  · rintro (mapped | ⟨other, member, holds⟩)
    · exact Or.inl mapped
    · rcases List.getElem?_of_mem member with ⟨holder, found⟩
      exact Or.inr ⟨holder, other, found, by simpa using holds⟩
  · rintro (mapped | ⟨holder, other, found, holds⟩)
    · exact Or.inl mapped
    · exact Or.inr ⟨other, List.mem_of_getElem? found, by simpa using holds⟩

theorem held_moved {pc : Pc} (present : state.tasks[id]? = some task)
    (tasks : next.tasks = state.tasks.set id { task with pc := pc })
    (entry : state.mapped cell = true → next.held cell = true)
    (own : task.pc.own = some cell → next.held cell = true)
    (victim : task.pc.victim = some cell → next.held cell = true)
    (held : state.held cell = true) : next.held cell = true := by
  rcases held_iff.mp held with mapped | ⟨holder, other, found, holds⟩
  · exact entry mapped
  · by_cases same : holder = id
    · subst holder
      rw [present, Option.some.injEq] at found
      subst other
      exact holds.elim own victim
    · refine held_iff.mpr (Or.inr ⟨holder, other, ?_, holds⟩)
      rw [tasks, Arena.get_set_other _ _ (Ne.symm same)]
      exact found

theorem held_by_mover {pc : Pc} (present : state.tasks[id]? = some task)
    (tasks : next.tasks = state.tasks.set id { task with pc := pc })
    (holds : pc.own = some cell ∨ pc.victim = some cell) : next.held cell = true := by
  refine held_iff.mpr (Or.inr ⟨id, { task with pc := pc }, ?_, holds⟩)
  rw [tasks]
  exact Arena.get_set_self _ present

theorem held_mapped (mapped : state.mapped cell = true) : state.held cell = true :=
  held_iff.mpr (Or.inl mapped)

theorem held_kept {pc : Pc} (present : state.tasks[id]? = some task)
    (tasks : next.tasks = state.tasks.set id { task with pc := pc })
    (map : next.map = state.map) (own : ∀ cell, task.pc.own = some cell → pc.own = some cell)
    (victim : task.pc.victim = none) (held : state.held cell = true) : next.held cell = true := by
  refine held_moved present tasks ?_ ?_ ?_ held
  · intro mapped
    apply held_mapped
    rw [State.mapped, map]
    exact mapped
  · exact fun owned => held_by_mover present tasks (Or.inl (own cell owned))
  · intro evicted
    rw [victim] at evicted
    cases evicted

theorem release_holder {gone : CellId}
    (others : ∀ cell resource, cell ≠ gone → state.cellAt cell = some (.filled resource) →
      state.held cell = true) (filled : (state.release gone).cellAt cell = some (.filled resource)) :
    (state.release gone).held cell = true := by
  have same : (state.release gone).held cell = state.held cell := by
    simp only [State.held, State.mapped, State.release_map, State.release_tasks]
  rw [same]
  by_cases again : cell = gone
  · subst again
    cases held : state.held cell with
    | true => rfl
    | false =>
        exfalso
        have before := State.release_filled filled
        rw [State.release, held, if_neg Bool.false_ne_true] at filled
        simp only [State.cellAt, State.free_slots] at filled
        have freed := State.setCell_self state cell .freed before
        simp only [State.cellAt] at freed
        rw [freed] at filled
        cases filled
  · exact others cell resource again (State.release_filled filled)

theorem lookup_holder (inv : Inv capacity state) (held : Held state)
    (present : state.tasks[id]? = some task) (stage : task.pc = .lookup)
    (filled : ((state.afterLookup id task).releaseOption
      (state.lookupKey task.key task.now).unlinked).cellAt cell = some (.filled resource)) :
    ((state.afterLookup id task).releaseOption
      (state.lookupKey task.key task.now).unlinked).held cell = true := by
  have result := task_lookup_cases inv task.key task.now
  have kept (other : CellId) (content : CachedResource)
      (linked : (state.lookupKey task.key task.now).unlinked ≠ some other)
      (found : (state.afterLookup id task).cellAt other = some (.filled content)) :
      (state.afterLookup id task).held other = true := by
    rcases afterLookup_cell found with before | fresh
    · refine held_moved present rfl ?_ ?_ ?_ (held.holder other content before)
      · intro mapped
        rcases mapped_iff.mp mapped with ⟨key, member⟩
        rcases result.keeps member with stays | ⟨gone, -⟩
        · exact held_mapped (mapped_iff.mpr ⟨key, stays⟩)
        · exact absurd gone linked
      · intro owned
        rw [stage] at owned
        cases owned
      · intro evicted
        rw [stage] at evicted
        cases evicted
    · cases fresh
  cases unlinked : (state.lookupKey task.key task.now).unlinked with
  | none =>
      rw [unlinked] at filled kept
      exact kept cell resource (by simp) filled
  | some gone =>
      rw [unlinked] at filled kept
      refine release_holder ?_ filled
      intro other content different found
      exact kept other content (by simpa using Ne.symm different) found

theorem let_go_holder {gone : CellId} {middle : State} {pc : Pc} (held : Held state)
    (present : state.tasks[id]? = some task)
    (tasks : middle.tasks = state.tasks.set id { task with pc := pc })
    (map : middle.map = state.map)
    (cells : ∀ other content, other ≠ gone → middle.cellAt other = some (.filled content) →
      state.cellAt other = some (.filled content))
    (kept : ∀ other, other ≠ gone → task.pc.own = some other ∨ task.pc.victim = some other →
      pc.own = some other ∨ pc.victim = some other)
    (filled : (middle.release gone).cellAt cell = some (.filled resource)) :
    (middle.release gone).held cell = true := by
  apply release_holder ?_ filled
  intro other content different found
  have before := held.holder other content (cells other content different found)
  refine held_moved present tasks ?_ ?_ ?_ before
  · intro mapped
    apply held_mapped
    rw [State.mapped, map]
    exact mapped
  · exact fun same => held_by_mover present tasks (kept other different (Or.inl same))
  · exact fun evicted => held_by_mover present tasks (kept other different (Or.inr evicted))

theorem holds_only {own other : CellId} (owned : task.pc.own = some own)
    (victim : task.pc.victim = none) (different : other ≠ own) :
    ¬ (task.pc.own = some other ∨ task.pc.victim = some other) := by
  rw [owned, victim, Option.some.injEq]
  rintro (same | evicted)
  · exact different same.symm
  · cases evicted

/-- The get gives its permit back and lets go of its cell; it held no other. -/
theorem abandon_holder {own : CellId} {pc : Pc} (held : Held state)
    (present : state.tasks[id]? = some task) (owned : task.pc.own = some own)
    (victim : task.pc.victim = none)
    (filled : (state.abandon id task own pc).cellAt cell = some (.filled resource)) :
    (state.abandon id task own pc).held cell = true := by
  refine let_go_holder held present rfl rfl ?_ ?_ filled
  · intro other content different found
    change (state.setCell own .empty).cellAt other = some (.filled content) at found
    rw [State.setCell_cellAt, if_neg (Ne.symm different)] at found
    exact found
  · exact fun other different holds => absurd holds (holds_only owned victim different)

theorem release_own_holder {own : CellId} {pc : Pc} (held : Held state)
    (present : state.tasks[id]? = some task) (owned : task.pc.own = some own)
    (victim : task.pc.victim = none)
    (filled : ((state.setPc id task pc).release own).cellAt cell = some (.filled resource)) :
    ((state.setPc id task pc).release own).held cell = true :=
  let_go_holder held present rfl rfl (fun _ _ _ found => found)
    (fun _ different holds => absurd holds (holds_only owned victim different)) filled

theorem held_counted {change : CacheRouteMetrics → CacheRouteMetrics} (held : Held state) :
    Held (state.countRoute task change) := ⟨held.holder, held.host⟩

theorem move_holder (inv : Inv capacity state) (held : Held state)
    (present : state.tasks[id]? = some task) (move : Move state id task action next)
    (filled : next.cellAt cell = some (.filled resource)) : next.held cell = true := by
  cases move with
  | lookup stage => exact lookup_holder inv held present stage filled
  | answerNone own stage =>
      exact abandon_holder (held_counted held) present (by rw [stage]; rfl) (by rw [stage]; rfl)
        filled
  | answerError own failure stage =>
      exact abandon_holder (held_counted held) present (by rw [stage]; rfl) (by rw [stage]; rfl)
        filled
  | storeError own body diskError failure stage stored =>
      exact abandon_holder (held_counted held) present (by rw [stage]; rfl) (by rw [stage]; rfl)
        filled
  | cancelInit own stage =>
      rcases stage with stage | ⟨_, stage⟩ | ⟨_, stage⟩ <;>
        exact abandon_holder held present (by rw [stage]; rfl) (by rw [stage]; rfl) filled
  | respond own body cloneError result stage shape =>
      exact release_own_holder held present (by rw [stage]; rfl) (by rw [stage]; rfl) filled
  | cancelJoined own stage =>
      rcases stage with stage | ⟨_, stage⟩ <;>
        exact release_own_holder held present (by rw [stage]; rfl) (by rw [stage]; rfl) filled
  | evict own fetched victim stage =>
      refine let_go_holder held present rfl rfl (fun _ _ _ found => found) ?_ filled
      rw [stage]
      rintro other different (same | evicted)
      · exact Or.inl same
      · exact absurd (Option.some.inj evicted).symm different
  | popEntry own fetched key victim rest stage popped =>
      refine held_moved present rfl ?_ ?_ ?_ (held.holder cell resource filled)
      · intro mapped
        rcases mapped_iff.mp mapped with ⟨other, member⟩
        rw [(LruCache.pop_some popped).1] at member
        rcases List.mem_append.mp member with kept | last
        · exact held_mapped (mapped_iff.mpr ⟨other, kept⟩)
        · obtain ⟨-, rfl⟩ := Prod.mk.inj (List.mem_singleton.mp last)
          exact held_by_mover present rfl (Or.inr rfl)
      · intro same
        rw [stage] at same
        exact held_by_mover present rfl (Or.inl same)
      · intro evicted
        rw [stage] at evicted
        cases evicted
  | fill own fetched reservation clock stage =>
      by_cases same : cell = own
      · exact held_by_mover present rfl (Or.inl (congrArg some same.symm))
      · change (state.setCell own _).cellAt cell = some (.filled resource) at filled
        rw [State.setCell_cellAt, if_neg (Ne.symm same)] at filled
        refine held_kept present rfl rfl ?_ (by rw [stage]; rfl) (held.holder cell resource filled)
        intro other owned
        rw [stage] at owned
        exact owned
  | joinEmpty own stage found =>
      have before : state.cellAt cell = some (.filled resource) := by
        change (state.setCell own (.initializing id)).cellAt cell = some (.filled resource) at filled
        rw [State.setCell_cellAt] at filled
        split at filled
        · rcases Option.map_eq_some_iff.mp filled with ⟨_, _, impossible⟩
          cases impossible
        · exact filled
      refine held_kept present rfl rfl ?_ (by rw [stage]; rfl) (held.holder cell resource before)
      intro other owned
      rw [stage] at owned
      exact owned
  | reserveFailed own fetched locked stage refused =>
      refine held_kept present rfl rfl ?_ (by rw [stage]; rfl) (held.holder cell resource filled)
      intro other owned
      rw [stage] at owned
      split <;> exact owned
  | cancelIdle stage =>
      rcases stage with stage | stage <;>
      · refine held_kept present rfl rfl ?_ (by rw [stage]; rfl) (held.holder cell resource filled)
        intro other owned
        rw [stage] at owned
        cases owned
  | acquireLookup stage | acquireEvict _ _ stage | joinFilled _ _ stage | answerNever _ stage
  | answerFound _ _ stage | storeOk _ _ _ _ stage | reserveGranted _ _ _ _ _ stage
  | popNothing _ _ stage | reserveUpTo _ _ _ _ stage | unlock _ _ _ stage | count _ _ stage =>
      refine held_kept present rfl rfl ?_ (by rw [stage]; rfl) (held.holder cell resource filled)
      intro other owned
      rw [stage] at owned
      exact owned

theorem move_held (inv : Inv capacity state) (held : Held state)
    (present : state.tasks[id]? = some task) (move : Move state id task action next) :
    Held next where
  holder := fun _ _ filled => move_holder inv held present move filled
  host := by
    intro cell resource key filled keyed
    rcases move_filled move filled with before | ⟨fetched, reservation, clock, -, stage, rfl⟩
    · rcases move_keyAt inv move keyed with known | ⟨unknown, -, -⟩
      · exact held.host cell resource key before known
      · have known := known_of_cell before
        rw [unknown] at known
        cases known
    · have own := ((inv.tasks id task present).own cell (by rw [stage]; rfl)).1
      have same := (move_keeps_key move own).symm.trans keyed
      rw [← Option.some.inj same]
      rfl

theorem start_held [PathTree T] (held : Held state) (cache : Cache T) (path : String)
    (now : Instant) : Held (state.start cache path now) := by
  rcases start_started state cache path now with ⟨fresh, started⟩
  have cells := started.cellAt
  have keys := started.keyAt
  refine ⟨?_, ?_⟩
  · intro cell resource filled
    rw [cells] at filled
    have before := held.holder cell resource filled
    simp only [State.held, State.mapped, started.map, started.tasks, List.any_append,
      Bool.or_eq_true] at before ⊢
    exact before.imp_right Or.inl
  · intro cell resource key filled keyed
    rw [cells] at filled
    rw [keys] at keyed
    exact held.host cell resource key filled keyed

theorem run_held [PathTree T] {slots : Nat} {positive : 0 < slots} {actions : List (Action T)}
    (reached : Transition.run step (initial capacity slots positive) actions = some state) :
    Held state := by
  refine Transition.run_induction (fun _ state => Held state) ?_ ?_ reached
  · exact ⟨fun cell resource filled => by simp [State.cellAt, initial] at filled,
      fun cell resource key filled => by simp [State.cellAt, initial] at filled⟩
  · intro earlier state action next reached held taken
    rcases step_moves taken with ⟨cache, path, now, rfl, rfl⟩ | ⟨id, task, present, move⟩
    · exact start_held held cache path now
    · exact move_held (run_inv reached) held present move

theorem run_capacity [PathTree T] {slots : Nat} {positive : 0 < slots} {actions : List (Action T)}
    (reached : Transition.run step (initial capacity slots positive) actions = some state) :
    state.map.capacity = slots := by
  refine Transition.run_induction (fun _ state => state.map.capacity = slots) rfl ?_ reached
  intro earlier state action next _ before taken
  rcases step_moves taken with ⟨cache, path, now, rfl, rfl⟩ | ⟨id, task, present, move⟩
  · rcases start_started state cache path now with ⟨fresh, started⟩
    rw [started.map]
    exact before
  · exact (move_capacity move).trans before

/-- No get is in flight. Bodies of earlier responses may still be read: they have
their own clone of the file. -/
def State.Quiet (state : State) : Prop := ∀ task ∈ state.tasks, task.pc.ended = true

def State.filledKeys (state : State) : List CachedResourceKey :=
  (state.map.entries.filter fun entry => (state.resourceAt entry.2).isSome).map Prod.fst

theorem quiet_mapped (quiet : state.Quiet) (held : state.held cell = true) :
    state.mapped cell = true := by
  rcases held_iff.mp held with mapped | ⟨holder, other, found, holds⟩
  · exact mapped
  · have ended := quiet other (List.mem_of_getElem? found)
    exfalso
    cases stage : other.pc <;> simp_all [Pc.ended, Pc.own, Pc.victim]

theorem live_residents (inv : Inv capacity state) (held : Held state) (quiet : state.Quiet) :
    state.live.Perm state.residents := by
  have cells (index : CellId) : state.resourceAt index =
      (state.slots[index]?).bind fun slot => slot.cell.resource := by
    rw [State.resourceAt, State.cellAt]
    cases state.slots[index]? <;> rfl
  have covers (index : CellId) (slot : Slot) (present : state.slots[index]? = some slot)
      (found : slot.cell.resource.isSome) : index ∈ state.map.entries.map Prod.snd := by
    rcases Option.isSome_iff_exists.mp found with ⟨resource, filled⟩
    have content : state.cellAt index = some (.filled resource) :=
      resourceAt_some.mp (by rw [cells, present]; exact filled)
    rcases mapped_iff.mp (quiet_mapped quiet (held.holder index resource content)) with
      ⟨key, member⟩
    exact List.mem_map.mpr ⟨(key, index), member, rfl⟩
  have picked := Arena.picked_perm (fun slot : Slot => slot.cell.resource) (mapped_distinct inv)
    covers
  rw [State.live, State.residents]
  simpa only [List.filterMap_map, Function.comp_def, cells] using picked

theorem residents_hosts (inv : Inv capacity state) (held : Held state) :
    state.residents.map CachedResource.host = state.filledKeys.map CachedResourceKey.host := by
  have hosts (entries : List (CachedResourceKey × CellId))
      (known : ∀ entry ∈ entries, entry ∈ state.map.entries) :
      (entries.filterMap fun entry => state.resourceAt entry.2).map CachedResource.host =
        (entries.filter fun entry => (state.resourceAt entry.2).isSome).map
          fun entry => entry.1.host := by
    induction entries with
    | nil => rfl
    | cons entry rest ih =>
        have tail := ih fun other member => known other (List.mem_cons_of_mem _ member)
        cases found : state.resourceAt entry.2 with
        | none => simpa [found] using tail
        | some resource =>
            have keyed := (inv.entries entry.1 entry.2 (known entry List.mem_cons_self)).key
            have same := held.host entry.2 resource entry.1 (resourceAt_some.mp found) keyed
            simpa [found, same] using tail
  rw [State.residents, State.filledKeys, hosts _ fun _ member => member]
  simp

theorem quiet_available (inv : Inv capacity state) (held : Held state) (quiet : state.Quiet) :
    state.pool.availableCapacity.toNat +
      (state.live.map fun resource => resource.size.toNat).sum = capacity.toNat := by
  have tasks : Arena.total Task.reserved state.tasks = 0 := by
    apply Arena.total_zero
    intro task member
    have ended := quiet task member
    rw [Task.reserved]
    cases stage : task.pc <;> simp_all [Pc.ended, Pc.reserved]
  have slots : Arena.total Slot.reserved state.slots =
      state.liveTotal fun resource => resource.reservation.reserved.toNat := by
    rw [State.liveTotal, Arena.total, Arena.total]
    congr 1
    apply List.map_congr_left
    intro slot _
    rw [Slot.reserved, Slot.weigh, Cell.weigh]
    cases slot.cell <;> rfl
  have sizes : (state.live.map fun resource => resource.reservation.reserved.toNat) =
      state.live.map fun resource => resource.size.toNat := by
    apply List.map_congr_left
    intro resource member
    have resident := (live_residents inv held quiet).subset member
    rcases List.mem_filterMap.mp resident with ⟨entry, mapped, found⟩
    rw [(inv.entries entry.1 entry.2 mapped).covered resource (resourceAt_some.mp found)]
  have balance := inv.balance
  rw [State.reservedTotal, tasks, slots, ← live_total, sizes] at balance
  exact balance

theorem live_by_host (weight : CachedResource → Nat) :
    (state.live.map weight).sum = ∑ host ∈ (state.live.map CachedResource.host).toFinset,
      state.liveTotal fun resource => if resource.host = host then weight resource else 0 := by
  have known : ∀ resource ∈ state.live,
      resource.host ∈ (state.live.map CachedResource.host).toFinset :=
    fun resource member => List.mem_toFinset.mpr (List.mem_map_of_mem member)
  have split := Arena.total_by_key weight known
  simpa only [Arena.share, Arena.total, live_total] using split

def ofHost (host : String) (resources : List CachedResource) : List CachedResource :=
  resources.filter fun resource => resource.host = host

theorem live_of_host (host : String) :
    (((ofHost host state.live).map weight).sum : Int) =
      (state.liveTotal fun resource => if resource.host = host then weight resource else 0 : Nat) := by
  have chosen := Arena.total_filter weight (fun resource => resource.host = host) state.live
  rw [← live_total]
  exact congrArg Nat.cast chosen.symm

def totalSize (resources : List CachedResource) : Nat :=
  (resources.map fun resource => resource.size.toNat).sum

theorem ofHost_length (host : String) (resources : List CachedResource) :
    (ofHost host resources).length = (resources.map CachedResource.host).count host := by
  rw [ofHost, ← List.countP_eq_length_filter, List.count, List.countP_map]
  rfl

/-- In every reachable state the disk gauges of each host count its live resources and
their bytes. With no get in flight the live resources are those in the map, there are
no more of them than it has slots, and what is left of the capacity is what the
gauges leave of it. -/
theorem disk_gauges_exact [PathTree T] {slots : Nat} {positive : 0 < slots}
    {actions : List (Action T)}
    (reached : Transition.run step (initial capacity slots positive) actions = some state) :
    (∀ host, state.metrics.diskFileCount host = (ofHost host state.live).length ∧
      state.metrics.diskBytes host = totalSize (ofHost host state.live)) ∧
    (state.Quiet → state.live.Perm state.residents ∧
      (∀ host, state.metrics.diskFileCount host =
        (state.filledKeys.filter fun key => key.host = host).length) ∧
      ∃ hosts : Finset String,
        (∀ host ∉ hosts, state.metrics.diskFileCount host = 0 ∧ state.metrics.diskBytes host = 0) ∧
        ∑ host ∈ hosts, state.metrics.diskFileCount host ≤ slots ∧
        (state.pool.availableCapacity.toNat : Int) =
          capacity.toNat - ∑ host ∈ hosts, state.metrics.diskBytes host) := by
  have inv := run_inv reached
  have held := run_held reached
  have files (host : String) : state.metrics.diskFileCount host =
      (state.liveTotal (diskFileCount host).weight : Int) :=
    run_gauge (diskFileCount host) rfl reached
  have bytes (host : String) : state.metrics.diskBytes host =
      (state.liveTotal (diskBytes host).weight : Int) :=
    run_gauge (diskBytes host) rfl reached
  have counted (host : String) :
      state.metrics.diskFileCount host = (ofHost host state.live).length := by
    have ones : ((ofHost host state.live).map fun _ => 1).sum = (ofHost host state.live).length := by
      simp
    rw [← ones]
    exact (files host).trans (live_of_host host).symm
  have sized (host : String) :
      state.metrics.diskBytes host = totalSize (ofHost host state.live) :=
    (bytes host).trans (live_of_host host).symm
  refine ⟨fun host => ⟨counted host, sized host⟩, fun quiet => ⟨live_residents inv held quiet, ?_, ?_⟩⟩
  · intro host
    have same := ((live_residents inv held quiet).map CachedResource.host).count_eq host
    rw [counted, ofHost_length, same, residents_hosts inv held, List.count, List.countP_map,
      List.countP_eq_length_filter]
    rfl
  · refine ⟨(state.live.map CachedResource.host).toFinset, ?_, ?_, ?_⟩
    · intro host absent
      have none : ofHost host state.live = [] := by
        rw [ofHost, List.filter_eq_nil_iff]
        intro resource member same
        simp only [decide_eq_true_eq] at same
        exact absent (List.mem_toFinset.mpr (List.mem_map.mpr ⟨resource, member, same⟩))
      rw [counted, sized, none]
      exact ⟨rfl, rfl⟩
    · have total : (state.live.map fun _ => 1).sum = _ := live_by_host fun _ => 1
      have fits : state.residents.length ≤ state.map.entries.length :=
        List.length_filterMap_le _ _
      have bounded := state.map.bounded
      rw [run_capacity reached] at bounded
      have ones : (state.live.map fun _ => 1).sum = state.live.length := by simp
      rw [ones,
        (live_residents inv held quiet).length_eq] at total
      calc
        _ = ((state.residents.length : Nat) : Int) := by
          rw [total, Nat.cast_sum]
          exact Finset.sum_congr rfl fun host _ => files host
        _ ≤ slots := by
          exact_mod_cast fits.trans bounded
    · have total : (state.live.map fun resource => resource.size.toNat).sum = _ :=
        live_by_host fun resource => resource.size.toNat
      have available := quiet_available inv held quiet
      have gauges : ∑ host ∈ (state.live.map CachedResource.host).toFinset,
          state.metrics.diskBytes host =
            (((state.live.map fun resource => resource.size.toNat).sum : Nat) : Int) := by
        rw [total, Nat.cast_sum]
        exact Finset.sum_congr rfl fun host _ => bytes host
      omega

def storedActions : List (Action LiteralTree) :=
  fetchActions plainCache "/a" epoch 0 (plainBody [1, 2, 3]) ++ fillActions 0 ⟨epoch, ⟨0⟩⟩ ++
    respondActions 0

theorem disk_gauges_exact_stored :
    ∃ state, Transition.run step (initial 8 2 (by decide)) storedActions = some state ∧
      state.live.Perm state.residents ∧ state.metrics.diskFileCount "files" = 1 ∧
      state.metrics.diskBytes "files" = 3 := by
  have shape : (Transition.run step (initial 8 2 (by decide)) storedActions).map (fun state =>
      (state.tasks.map fun task => task.pc.ended, (ofHost "files" state.live).length,
        totalSize (ofHost "files" state.live))) = some ([true], 1, 3) := by rfl
  rcases Option.map_eq_some_iff.mp shape with ⟨state, reached, shape⟩
  simp only [Prod.mk.injEq] at shape
  rcases shape with ⟨ended, files, bytes⟩
  have quiet : state.Quiet := by
    intro task member
    have seen : task.pc.ended ∈ state.tasks.map fun task => task.pc.ended :=
      List.mem_map_of_mem member
    rw [ended] at seen
    simpa using seen
  have gauges := disk_gauges_exact reached
  refine ⟨state, reached, (gauges.2 quiet).1, ?_, ?_⟩
  · rw [(gauges.1 "files").1, files]
    rfl
  · rw [(gauges.1 "files").2, bytes]
    rfl

end Server3.Machine
