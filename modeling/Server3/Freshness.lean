import Server3.Residency
import Server3.MachineEffects

/-! Expiry is checked when a get finds a filled cell. A get that waits for a cell is
served whatever its initialiser puts there, with the expiry of the initialiser. -/

namespace Server3.Machine

open Clock Routes Upstream Resource Recency

variable {T : Type → Type} {capacity : UInt64} {state next : State} {id : TaskId} {task : Task}
  {action : Action T} {actions : List (Action T)}

def HitUnexpired (state : State) (action : Action T) : Prop :=
  ∀ (id : TaskId) cloneError task cell resource, action = .respond id cloneError →
    state.tasks[id]? = some task → task.pc = .cloning cell resource →
      (resource.response id).outcome = .hit →
        ∀ expiresAt, resource.expiresAt = some expiresAt → task.now < expiresAt

def Pc.waits : Pc → Option CellId
  | .joining cell => some cell
  | _ => none

/-- When a cell is filled, the gets that wait for it are all from before the expiry
of the get that fills it. -/
def WaitersInTime (state : State) (action : Action T) : Prop :=
  ∀ filler ∈ action.fills, ∀ task ∈ state.tasks[filler]?, ∀ cell ∈ task.pc.own,
    ∀ waiter ∈ state.tasks, waiter.pc.waits = some cell →
      ∀ expiresAt ∈ task.expiresAfter, waiter.now < expiresAt

instance (state : State) (action : Action T) : Decidable (WaitersInTime state action) :=
  inferInstanceAs (Decidable (∀ filler ∈ action.fills, ∀ task ∈ state.tasks[filler]?,
    ∀ cell ∈ task.pc.own, ∀ waiter ∈ state.tasks, waiter.pc.waits = some cell →
      ∀ expiresAt ∈ task.expiresAfter, waiter.now < expiresAt))

def lookupTime (state : State) : Action T → Option Instant
  | .acquire id => (state.tasks[id]?).bind fun task =>
      match task.pc with
      | .lookupLock => some task.now
      | _ => none
  | _ => none

/-- What a get has in hand, or would find in its cell, is its own or unexpired. -/
def PcFresh (state : State) (id : TaskId) (now : Instant) : Pc → Prop
  | .joining cell => ∀ resource, state.cellAt cell = some (.filled resource) →
      resource.isExpired now = false
  | .initialized _ resource | .cloning _ resource =>
      resource.id = id ∨ resource.isExpired now = false
  | _ => True

def Fresh (state : State) : Prop :=
  ∀ (id : TaskId) task, state.tasks[id]? = some task → PcFresh state id task.now task.pc

theorem move_fresh (inv : Inv capacity state) (earlier : PcFresh state id task.now task.pc)
    (move : Move state id task action next) :
    ∃ pc, next.tasks = state.tasks.set id { task with pc := pc } ∧
      PcFresh next id task.now pc := by
  cases move with
  | lookup stage =>
      refine ⟨_, State.releaseOption_tasks _, ?_⟩
      intro resource filled
      have kept := afterLookup_cell (State.releaseOption_filled filled)
      simp only [reduceCtorEq, or_false] at kept
      have known := known_of_cell kept
      have result := task_lookup_cases inv task.key task.now
      rcases result.owned with ⟨_, own⟩ | ⟨shared, _⟩
      · rw [own] at known
        simp [State.keyAt] at known
      · cases result with
        | absent missing entries own allocates unlinked =>
            rw [shared] at allocates
            cases allocates
        | expired old stale mapped filled expired entries own allocates unlinked =>
            rw [shared] at allocates
            cases allocates
        | shared old mapped fresh entries own allocates unlinked =>
            exact fresh resource (own ▸ kept)
  | joinFilled cell resource stage found =>
      rw [stage] at earlier
      exact ⟨_, rfl, Or.inr (earlier resource found)⟩
  | fill cell fetched reservation clock stage => exact ⟨_, rfl, Or.inl rfl⟩
  | count cell resource stage =>
      rw [stage] at earlier
      exact ⟨_, rfl, earlier⟩
  | reserveFailed cell fetched locked stage refused => cases locked <;> exact ⟨_, rfl, trivial⟩
  | _ =>
      first
      | exact ⟨_, rfl, trivial⟩
      | exact ⟨_, State.release_tasks _ _, trivial⟩

theorem waiter_fresh {waiter : TaskId} {other : Task} (present : state.tasks[id]? = some task)
    (inTime : WaitersInTime state action) (waiting : state.tasks[waiter]? = some other)
    (earlier : PcFresh state waiter other.now other.pc) (move : Move state id task action next) :
    PcFresh next waiter other.now other.pc := by
  cases shape : other.pc with
  | joining cell =>
      rw [shape] at earlier
      intro resource filled
      rcases move_filled move filled with old | ⟨fetched, reservation, clock, rfl, stage, rfl⟩
      · exact earlier resource old
      · rw [CachedResource.not_expired]
        intro expiresAt expires
        exact inTime id rfl task present cell (by rw [stage]; rfl) other
          (List.mem_of_getElem? waiting) (by rw [shape]; rfl) expiresAt expires
  | initialized cell resource =>
      rw [shape] at earlier
      exact earlier
  | cloning cell resource =>
      rw [shape] at earlier
      exact earlier
  | _ => trivial

theorem fresh_move (inv : Inv capacity state) (present : state.tasks[id]? = some task)
    (before : Fresh state) (inTime : WaitersInTime state action)
    (move : Move state id task action next) : Fresh next := by
  rcases move_fresh inv (before id task present) move with ⟨pc, tasks, fresh⟩
  intro other found after
  rcases task_after present tasks after with ⟨rfl, rfl⟩ | ⟨_, unchanged⟩
  · exact fresh
  · exact waiter_fresh present inTime unchanged (before other found unchanged) move

theorem fresh_start [PathTree T] (before : Fresh state) (cache : Cache T) (path : String)
    (now : Instant) : Fresh (state.start cache path now) := by
  rcases start_started state cache path now with ⟨fresh, started⟩
  have cells := started.cellAt
  intro id task present
  rw [started.tasks] at present
  rcases Arena.get_append_cases present with old | ⟨_, rfl⟩
  · have earlier := before id task old
    cases shape : task.pc <;> rw [shape] at earlier <;> simp only [PcFresh, cells] at earlier ⊢ <;>
      exact earlier
  · rcases started.stage with ⟨stage, _⟩ | ⟨stage, _⟩ | ⟨stage, _⟩ | ⟨stage, _⟩ <;> rw [stage] <;> trivial

theorem run_fresh [PathTree T] {slots : Nat} {positive : 0 < slots}
    (reached : Transition.run step (initial capacity slots positive) actions = some state)
    (inTime : Transition.Along step WaitersInTime (initial capacity slots positive) actions) :
    Fresh state := by
  refine Transition.run_induction (fun actions state =>
    Transition.Along step WaitersInTime (initial capacity slots positive) actions → Fresh state)
    ?_ ?_ reached inTime
  · intro _ id task present
    simp [initial] at present
  · intro actions state action next earlier before taken whole
    obtain ⟨along, last⟩ := (Transition.along_snoc earlier).mp whole
    rcases step_moves taken with ⟨cache, path, now, rfl, rfl⟩ | ⟨id, task, present, move⟩
    · exact fresh_start (before along) cache path now
    · exact fresh_move (run_inv earlier) present (before along) last move

/-- In a run that fills cells only while their waiters are in time, every hit is
unexpired for the get it answers. -/
theorem hits_unexpired [PathTree T] {slots : Nat} {positive : 0 < slots}
    (inTime : Transition.Along step WaitersInTime (initial capacity slots positive) actions) :
    Transition.Along step HitUnexpired (initial capacity slots positive) actions := by
  intro before action after state split reached id cloneError task cell resource answers present
    stage hit expiresAt expires
  have along : Transition.Along step WaitersInTime (initial capacity slots positive) before := by
    intro earlier middle later someState parts
    exact inTime earlier middle (later ++ action :: after) someState (by simp [split, parts])
  have fresh := run_fresh reached along id task present
  rw [stage] at fresh
  rcases fresh with own | unexpired
  · simp [CachedResource.response, own] at hit
  · exact CachedResource.not_expired.mp unexpired expiresAt expires

theorem cell_of_waits {pc : Pc} {cell : CellId} (waits : pc.waits = some cell) :
    pc = .joining cell := by
  cases pc with
  | joining own =>
      cases waits
      rfl
  | _ => cases waits

theorem waiter_joins (T : Type → Type) [PathTree T] {waiter : TaskId} {other : Task} {cell : CellId}
    {resource : CachedResource} (waiting : state.tasks[waiter]? = some other)
    (stage : other.pc = .joining cell) (filled : state.cellAt cell = some (.filled resource)) :
    ∃ final, Transition.run step state ([.join waiter, .count waiter] : List (Action T)) =
        some final ∧ final.tasks[waiter]? = some { other with pc := .cloning cell resource } := by
  let moved : Task := { other with pc := .initialized cell resource }
  let middle := state.setPc waiter other (.initialized cell resource)
  have present : middle.tasks[waiter]? = some moved := Arena.get_set_self moved waiting
  have joined : step state (.join waiter : Action T) = some middle :=
    move_taken waiting (.joinFilled cell resource stage filled)
  let final := (middle.countRoute moved (CacheRouteMetrics.served resource waiter)).setPc waiter
    moved (.cloning cell resource)
  have counted : step middle (.count waiter : Action T) = some final :=
    move_taken present (.count cell resource rfl)
  exact ⟨final, by simp only [Transition.run, joined, counted, Option.bind_some],
    Arena.get_set_self _ present⟩

theorem filled_after {clock : ClockReading} (inv : Inv capacity state)
    (present : state.tasks[id]? = some task)
    (move : Move state id task (.fill id clock : Action T) next) :
    ∃ cell fetched reservation, task.pc = .granted cell fetched reservation false ∧
      next.cellAt cell = some (.filled (task.resource id fetched reservation clock)) ∧
        ∀ other, other ≠ id → next.tasks[other]? = state.tasks[other]? := by
  cases move with
  | fill cell fetched reservation clock stage =>
      have permit := (inv.tasks id task present).permit cell (by rw [stage]; rfl)
      exact ⟨cell, fetched, reservation, stage, State.setCell_self state cell _ permit,
        fun other different => Arena.get_set_other _ _ different.symm⟩

/-- The condition is exact: from a step that fails it, a waiter goes on to a hit
that is expired for it. -/
theorem stale_hit_ahead [PathTree T] (inv : Inv capacity state)
    (late : ¬ WaitersInTime state action) (taken : step state action = some next) :
    ∃ waiter final, Transition.run step next ([.join waiter, .count waiter] : List (Action T)) =
        some final ∧ ¬ HitUnexpired final (.respond waiter none : Action T) := by
  simp only [WaitersInTime, Option.mem_def, not_forall] at late
  rcases late with ⟨filler, fills, task, present, cell, own, other, member, waits, expiresAt,
    expires, late⟩
  rcases List.getElem?_of_mem member with ⟨waiter, waiting⟩
  have waiterStage := cell_of_waits waits
  cases action with
  | fill id clock =>
      cases fills
      rcases Option.bind_eq_some_iff.mp taken with ⟨mover, found, filling⟩
      rw [present, Option.some.injEq] at found
      subst mover
      rcases filled_after inv present (fill_move filling : Move state filler task
        (.fill filler clock : Action T) next) with ⟨place, fetched, reservation, stage, filled, others⟩
      rw [stage] at own
      cases own
      have different : waiter ≠ filler := by
        rintro rfl
        rw [present, Option.some.injEq] at waiting
        rw [waiting, waiterStage] at stage
        cases stage
      rcases waiter_joins T ((others waiter different).trans waiting) waiterStage filled with
        ⟨final, reached, answering⟩
      refine ⟨waiter, final, reached, ?_⟩
      intro unexpired
      have hit : ((task.resource filler fetched reservation clock).response waiter).outcome =
          .hit := if_neg different
      exact late (unexpired waiter none _ cell _ rfl answering rfl hit expiresAt expires)
  | _ => cases fills

def shortCache : Cache LiteralTree :=
  ⟨"files", CacheRoutes.new (.enabled ⟨.cacheFor ⟨2 * 10^9, by decide⟩⟩)⟩

/-- The first get fetches from the epoch on for two seconds; the second waits for
the same cell with its own later time. -/
def waitingActions (later : Instant) : List (Action LiteralTree) :=
  fetchActions shortCache "/a" epoch 0 (plainBody [1]) ++
    [.start shortCache "/a" later, .acquire 1, .lookup 1] ++ fillActions 0 ⟨epoch, ⟨0⟩⟩ ++
    [.join 1] ++ respondActions 1

def oneSecond : Instant := ⟨10^9, by decide⟩

def fiveSeconds : Instant := ⟨5 * 10^9, by decide⟩

/-- Not every hit is unexpired: the waiter from five seconds is answered with what expired
at two. -/
theorem stale_hit_served :
    ¬ ∀ (capacity : UInt64) (slots : Nat) (positive : 0 < slots)
      (actions : List (Action LiteralTree)) (state : State),
      Transition.run step (initial capacity slots positive) actions = some state →
      (Transition.observed step lookupTime (initial capacity slots positive) actions).Pairwise
        (· ≤ ·) →
      Transition.Along step HitUnexpired (initial capacity slots positive) actions := by
  intro claim
  let resource : CachedResource :=
    newResource 0 (some ⟨2 * 10^9, by decide⟩) "files" ⟨some "text/plain"⟩ ⟨[1], by decide⟩ ⟨1⟩
      ⟨epoch, ⟨0⟩⟩
  let before := fetchActions shortCache "/a" epoch 0 (plainBody [1]) ++
    [.start shortCache "/a" fiveSeconds, .acquire 1, .lookup 1] ++ fillActions 0 ⟨epoch, ⟨0⟩⟩ ++
    [.join 1, .count 1]
  have answering : (Transition.run step (initial 10 2 (by decide)) before).bind
      (fun state => (state.tasks[1]?).map fun task => (task.pc, task.now)) =
        some (.cloning 0 resource, fiveSeconds) := rfl
  have ends : (Transition.run step (initial 10 2 (by decide)) (waitingActions fiveSeconds)).map
      (fun state => state.tasks.length) = some 2 := rfl
  rcases Option.bind_eq_some_iff.mp answering with ⟨state, reached, found⟩
  rcases Option.map_eq_some_iff.mp found with ⟨task, present, place⟩
  rcases Option.map_eq_some_iff.mp ends with ⟨final, run, _⟩
  obtain ⟨stage, time⟩ := Prod.mk.inj place
  have ordered : (Transition.observed step lookupTime (initial 10 2 (by decide))
      (waitingActions fiveSeconds)).Pairwise (· ≤ ·) := by
    change [epoch, fiveSeconds].Pairwise (· ≤ ·)
    decide
  have late := claim 10 2 (by decide) (waitingActions fiveSeconds) final run ordered before
    (.respond 1 none) [] state rfl reached 1 none task 0 resource rfl present stage rfl
    ⟨2 * 10^9, by decide⟩ rfl
  rw [time] at late
  exact absurd late (by decide)

theorem hits_unexpired_waiting :
    Transition.Along step HitUnexpired (initial 10 2 (by decide)) (waitingActions oneSecond) :=
  hits_unexpired (by decide)

end Server3.Machine
