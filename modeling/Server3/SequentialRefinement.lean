import Server3.SequentialView

/-! A get with no other get in flight: the machine can run it to its end, and what
it leaves and answers is what the sequential `get` says. -/

namespace Server3.Machine

open Clock Routes Upstream Resource Recency
open CapacityPool (CacheCapacityPool CacheCapacityReservation)
open Server3.Sequential (CacheStorage Call Outcome Reply)

def Action.answers {T : Type → Type} : Action T → Bool
  | .answer _ _ => true
  | _ => false

structure HoldsNothing (task : Task) : Prop where
  own : task.pc.own = none
  victim : task.pc.victim = none
  lock : task.pc.holdsLock = false

/-- The get is the last that was started, and the earlier ones are over. -/
structure Alone (earlier : List Task) (state : State) (id : TaskId) (task : Task) : Prop where
  tasks : state.tasks = earlier ++ [task]
  index : id = earlier.length
  idle : ∀ other ∈ earlier, HoldsNothing other

structure Solo (capacity : UInt64) (earlier : List Task) (state : State) (id : TaskId)
    (task : Task) : Prop extends Alone earlier state id task where
  inv : Inv capacity state

theorem Alone.present {earlier : List Task} {state : State} {id : TaskId} {task : Task}
    (alone : Alone earlier state id task) : state.tasks[id]? = some task := by
  rw [alone.tasks, alone.index]
  simp

theorem Alone.others {earlier : List Task} {state : State} {id : TaskId} {task : Task}
    (alone : Alone earlier state id task) (other : Nat) (idle : Task) (different : other ≠ id)
    (found : state.tasks[other]? = some idle) : HoldsNothing idle := by
  rw [alone.index] at different
  rw [alone.tasks, List.getElem?_append] at found
  split at found
  · exact alone.idle idle (List.mem_of_getElem? found)
  · have beyond : [task].length ≤ other - earlier.length := by
      simp only [List.length_singleton]
      omega
    rw [List.getElem?_eq_none beyond] at found
    cases found

variable {T : Type → Type} [PathTree T] {capacity : UInt64} {earlier : List Task}
  {state next final : State}
  {id : TaskId} {task : Task} {pc : Pc} {cell : CellId} {fetched : Fetched}

/-- A step of the get, with what the outside does at its call. -/
def Action.Serves (call : Call T) : Action T → Prop
  | .start _ _ _ | .cancel _ => False
  | .answer id given => id = call.initId ∧ given = call.answer
  | .store id diskError => id = call.initId ∧ diskError = call.diskError
  | .fill id clock => id = call.initId ∧ clock = call.clock
  | .respond id cloneError => id = call.initId ∧ cloneError = call.cloneError
  | .acquire id | .lookup id | .join id | .reserve id | .pop id | .evict id | .reserveUpTo id
  | .unlock id | .count id => id = call.initId

/-- The machine can go from one state to the other by steps of the get alone, with so many
upstream answers. -/
def Runs (call : Call T) (state next : State) (answers : Nat) : Prop :=
  ∃ actions : List (Action T), Transition.run step state actions = some next ∧
    (∀ action ∈ actions, action.Serves call) ∧ actions.countP Action.answers = answers

theorem runs_refl {call : Call T} (state : State) : Runs call state state 0 :=
  ⟨[], rfl, by simp, rfl⟩

theorem runs_step {call : Call T} {action : Action T} (taken : step state action = some next)
    (serves : action.Serves call) {answers : Nat} (later : Runs call next final answers) :
    Runs call state final (answers + if action.answers then 1 else 0) := by
  rcases later with ⟨actions, reached, all, count⟩
  refine ⟨action :: actions, ?_, List.forall_mem_cons.mpr ⟨serves, all⟩, ?_⟩
  · rw [Transition.run, taken, Option.bind_some, reached]
  · rw [List.countP_cons, count]

omit [PathTree T] in
theorem alone_moved (alone : Alone earlier state id task)
    (tasks : next.tasks = state.tasks.set id { task with pc := pc }) :
    Alone earlier next id { task with pc := pc } where
  tasks := by
    rw [tasks, alone.tasks, alone.index, List.set_append_right _ _ (Nat.le_refl _)]
    simp
  index := alone.index
  idle := alone.idle

theorem solo_moved (solo : Solo capacity earlier state id task) {action : Action T}
    (taken : step state action = some next)
    (tasks : next.tasks = state.tasks.set id { task with pc := pc }) :
    Solo capacity earlier next id { task with pc := pc } :=
  ⟨alone_moved solo.toAlone tasks, step_inv solo.inv taken⟩

theorem alone_held (alone : Alone earlier state id task) (unmapped : state.mapped cell = false)
    (held : state.held cell = true) : task.pc.own = some cell ∨ task.pc.victim = some cell := by
  rw [State.held, unmapped, Bool.false_or, List.any_eq_true] at held
  rcases held with ⟨holder, member, holds⟩
  rcases List.mem_iff_getElem?.mp member with ⟨other, found⟩
  by_cases same : other = id
  · subst other
    rw [alone.present, Option.some.injEq] at found
    subst holder
    simpa using holds
  · have nothing := alone.others other holder same found
    simp [nothing.own, nothing.victim] at holds

theorem solo_cell (solo : Solo capacity earlier state id task) (idle : task.pc.initializes = none)
    {key : CachedResourceKey} (member : (key, cell) ∈ state.map.entries) :
    state.cellAt cell = some .empty ∨ ∃ resource, state.cellAt cell = some (.filled resource) := by
  have valid := solo.inv.entries key cell member
  rcases Option.map_eq_some_iff.mp valid.key with ⟨slot, present, _⟩
  have content : state.cellAt cell = some slot.cell := by rw [State.cellAt, present]; rfl
  cases found : slot.cell with
  | empty => exact Or.inl (content.trans (congrArg some found))
  | filled resource => exact Or.inr ⟨resource, content.trans (congrArg some found)⟩
  | freed => exact absurd (content.trans (congrArg some found)) valid.live
  | initializing holder =>
      rcases solo.inv.permits cell holder (content.trans (congrArg some found)) with
        ⟨other, present, permit⟩
      by_cases same : holder = id
      · subst holder
        rw [solo.present, Option.some.injEq] at present
        rw [← present, idle] at permit
        cases permit
      · have own := (solo.others holder other same present).own
        rw [own_of_initializes permit] at own
        cases own

theorem solo_unlocked (solo : Solo capacity earlier state id task)
    (unlocked : task.pc.holdsLock = false) : state.lock = none := by
  cases held : state.lock with
  | none => rfl
  | some holder =>
      rcases solo.inv.locks holder held with ⟨other, present, holds⟩
      by_cases same : holder = id
      · subst holder
        rw [solo.present, Option.some.injEq] at present
        rw [← present, unlocked] at holds
        cases holds
      · rw [(solo.others holder other same present).lock] at holds
        cases holds

theorem solo_holding (solo : Solo capacity earlier state id task)
    (idle : task.pc.initializes = none) {key : CachedResourceKey}
    (member : (key, cell) ∈ state.map.entries) :
    state.cellAt cell = some (Cell.holding (state.contentAt cell)) := by
  rcases solo_cell solo idle member with empty | ⟨resource, filled⟩
  · simp [State.contentAt, empty, Cell.content, Cell.holding]
  · simp [State.contentAt, filled, Cell.content, Cell.holding]

theorem lookup_storage (inv : Inv capacity state)
    (alone : Alone earlier (state.afterLookup id task) id
      { task with pc := .joining (state.lookupKey task.key task.now).own }) :
    ((state.afterLookup id task).releaseOption
        (state.lookupKey task.key task.now).unlinked).storage =
      (state.afterLookup id task).storage.drop
        ((state.lookupKey task.key task.now).unlinked.bind state.contentAt) := by
  cases unlinked : (state.lookupKey task.key task.now).unlinked with
  | none => rfl
  | some cell =>
      rcases unlinked_unmapped id inv unlinked with ⟨unmapped, different⟩
      have loose : (state.afterLookup id task).held cell = true →
          (state.afterLookup id task).contentAt cell = none := by
        intro held
        rcases alone_held alone unmapped held with own | victim
        · exact absurd (Option.some.inj own).symm different
        · cases victim
      rw [State.releaseOption, storage_release unmapped loose, afterLookup_content]
      rfl

variable (T) in
theorem lookup_step (solo : Solo capacity earlier state id task) (stage : task.pc = .lookup) :
    ∃ next own, step state (.lookup id : Action T) = some next ∧
      Solo capacity earlier next id { task with pc := .joining own } ∧
      state.storage.lookup task.key task.now = (next.storage, next.contentAt own) ∧
      next.cellAt own = some (Cell.holding (next.contentAt own)) ∧
      (task.key, own) ∈ next.map.entries := by
  let found := state.lookupKey task.key task.now
  let after := state.afterLookup id task
  have taken : step state (.lookup id : Action T) = some (after.releaseOption found.unlinked) :=
    move_taken solo.present (.lookup stage)
  have before : Alone earlier after id { task with pc := .joining found.own } :=
    alone_moved solo.toAlone rfl
  have tasks : (after.releaseOption found.unlinked).tasks =
      state.tasks.set id { task with pc := .joining found.own } := State.releaseOption_tasks _
  have joining : Solo capacity earlier (after.releaseOption found.unlinked) id
      { task with pc := .joining found.own } :=
    solo_moved solo taken tasks
  have stored : (task.key, found.own) ∈ (after.releaseOption found.unlinked).map.entries := by
    rw [State.releaseOption_map]
    exact (task_lookup_cases solo.inv task.key task.now).stored
  have content : (after.releaseOption found.unlinked).contentAt found.own =
      state.contentAt found.own := by
    cases unlinked : found.unlinked with
    | none => exact afterLookup_content _
    | some cell =>
        have different := (unlinked_unmapped id solo.inv unlinked).2
        exact (release_content different).trans (afterLookup_content _)
  refine ⟨_, found.own, taken, joining, ?_, solo_holding joining rfl stored, stored⟩
  rw [lookup_matches id solo.inv, content, lookup_storage solo.inv before]

def getTask (call : Call T) (expiresAfter : Option Instant) (pc : Pc) : Task where
  host := call.cache.hostKey
  path := call.path
  now := call.now
  label := call.label
  expiresAfter := expiresAfter
  pc := pc

def replyPc : Reply → Pc
  | .returned result => .finished result
  | .panicked => .panicked

/-- The machine can run the get from here to the storage and the reply of the outcome. -/
def Ends (capacity : UInt64) (earlier : List Task) (state : State) (call : Call T)
    (expiresAfter : Option Instant) (result : CacheStorage × Outcome) : Prop :=
  ∃ next, Runs call state next result.2.upstreamCalls ∧
    Solo capacity earlier next call.initId (getTask call expiresAfter (replyPc result.2.reply)) ∧
    next.storage = result.1

section Steps

variable {call : Call T} {expiresAfter : Option Instant} {own : CellId}
  {resource : CachedResource}

theorem respond_runs
    (solo : Solo capacity earlier state call.initId
      (getTask call expiresAfter (.initialized own resource))) :
    ∃ next, Runs call state next 0 ∧
      Solo capacity earlier next call.initId
        (getTask call expiresAfter (replyPc (call.respond resource))) ∧
      next.storage =
        if state.mapped own then
          state.storage.count call (CacheRouteMetrics.served resource call.initId)
        else
          (state.storage.count call (CacheRouteMetrics.served resource call.initId)).drop
            (some resource) := by
  let counted := (state.countRoute (getTask call expiresAfter (.initialized own resource))
    (CacheRouteMetrics.served resource call.initId)).setPc call.initId
      (getTask call expiresAfter (.initialized own resource)) (.cloning own resource)
  have counts : step state (.count call.initId : Action T) = some counted :=
    move_taken solo.present (.count own resource rfl)
  have cloning : Solo capacity earlier counted call.initId
      (getTask call expiresAfter (.cloning own resource)) :=
    solo_moved solo counts rfl
  let ended := counted.setPc call.initId (getTask call expiresAfter (.cloning own resource))
    (replyPc (call.respond resource))
  have responds : step counted (.respond call.initId call.cloneError : Action T) =
      some (ended.release own) := by
    simp only [step, cloning.present, Option.bind_some, State.respond, getTask, ended,
      Call.respond]
    cases call.cloneError <;> rfl
  have finished : Solo capacity earlier (ended.release own) call.initId
      (getTask call expiresAfter (replyPc (call.respond resource))) :=
    solo_moved cloning responds (State.release_tasks ended own)
  refine ⟨_, runs_step counts rfl (runs_step responds ⟨rfl, rfl⟩ (runs_refl _)), finished, ?_⟩
  have filled : ended.contentAt own = some resource :=
    content_filled.mpr (cloning.inv.tasks _ _ cloning.present).stage
  by_cases mapped : state.mapped own = true
  · rw [if_pos mapped, release_mapped]
    · rfl
    · exact mapped
  · have answered : Alone earlier ended call.initId
        (getTask call expiresAfter (replyPc (call.respond resource))) :=
      alone_moved cloning.toAlone rfl
    have unmapped : ended.mapped own = false := Bool.eq_false_iff.mpr mapped
    have unheld : ended.held own = true → ended.contentAt own = none := by
      intro held
      cases shape : call.respond resource <;>
        rcases alone_held answered unmapped held with holds | holds <;>
          simp [getTask, shape, replyPc, Pc.own, Pc.victim] at holds
    rw [if_neg mapped, storage_release unmapped unheld, filled]
    rfl

variable {reservation : CacheCapacityReservation} {locked : Bool}

theorem runs_trans {first second : Nat} (earlier : Runs call state next first)
    (later : Runs call next final second) : Runs call state final (first + second) := by
  rcases earlier with ⟨actions, reached, all, count⟩
  rcases later with ⟨more, ended, all', count'⟩
  refine ⟨actions ++ more, ?_, List.forall_mem_append.mpr ⟨all, all'⟩, ?_⟩
  · rw [Transition.run_append, reached, Option.bind_some, ended]
  · rw [List.countP_append, count, count']

theorem unlock_runs (solo : Solo capacity earlier state call.initId
      (getTask call expiresAfter (.granted own fetched reservation locked))) :
    ∃ next, Runs call state next 0 ∧ Solo capacity earlier next call.initId
        (getTask call expiresAfter (.granted own fetched reservation false)) ∧
      next.storage = state.storage ∧ next.map = state.map := by
  cases locked with
  | false => exact ⟨state, runs_refl state, solo, rfl, rfl⟩
  | true =>
      let unlocked := { state with lock := none }.setPc call.initId
        (getTask call expiresAfter (.granted own fetched reservation true))
        (.granted own fetched reservation false)
      have taken : step state (.unlock call.initId : Action T) = some unlocked :=
        move_taken solo.present (.unlock own fetched reservation rfl)
      exact ⟨unlocked, runs_step taken rfl (runs_refl _), solo_moved solo taken rfl, rfl, rfl⟩

theorem fill_runs (solo : Solo capacity earlier state call.initId
      (getTask call expiresAfter (.granted own fetched reservation locked)))
    (only : state.Sole call.key own) :
    let resource := call.resource expiresAfter fetched.headers fetched.file reservation
    ∃ next, Runs call state next 0 ∧
      Solo capacity earlier next call.initId
        (getTask call expiresAfter (replyPc (call.respond resource))) ∧
      next.storage =
        ({ state.storage with
          metrics := state.storage.metrics.created call.cache.hostKey fetched.file.size }.count call
            (CacheRouteMetrics.served resource call.initId)).keep call.key resource := by
  intro resource
  rcases unlock_runs solo with ⟨middle, unlocks, unlocked, same, map⟩
  rw [← same]
  rw [State.Sole, ← map] at only
  have valid := unlocked.inv.tasks _ _ unlocked.present
  have keyed : middle.keyAt own = some call.key := (valid.own own rfl).1
  have found : middle.cellAt own = some (.initializing call.initId) := valid.permit own rfl
  let created := { middle with
    metrics := middle.metrics.created call.cache.hostKey fetched.file.size }
  let filled := (created.setCell own (.filled resource)).setPc call.initId
    (getTask call expiresAfter (.granted own fetched reservation false)) (.initialized own resource)
  have taken : step middle (.fill call.initId call.clock : Action T) = some filled :=
    move_taken unlocked.present (.fill own fetched reservation call.clock rfl)
  have initialized : Solo capacity earlier filled call.initId
      (getTask call expiresAfter (.initialized own resource)) := solo_moved unlocked taken rfl
  rcases respond_runs initialized with ⟨next, runs, ended, storage⟩
  refine ⟨next, runs_trans unlocks (runs_step taken ⟨rfl, rfl⟩ runs), ended, ?_⟩
  have keys : created.Keyed := unlocked.inv.keyed
  have stored : filled.storage = _ := fill_storage keys keyed found only
  have present : call.key ∈ created.storage.keys ↔ middle.mapped own = true :=
    (mapped_key keys keyed only).symm
  rw [storage, CacheStorage.keep]
  by_cases mapped : middle.mapped own = true
  · have kept := stored.trans (if_pos mapped)
    rw [if_pos (show filled.mapped own = true from mapped), kept]
    exact (if_pos (present.mpr mapped)).symm
  · have kept := stored.trans (if_neg mapped)
    rw [if_neg (show ¬ filled.mapped own = true from mapped), kept]
    exact (if_neg fun found => mapped (present.mp found)).symm

theorem refused_runs (solo : Solo capacity earlier state call.initId
      (getTask call expiresAfter (.reserving own fetched locked)))
    (refused : state.pool.reserve fetched.file.size = none) :
    ∃ next, Runs call state next 0 ∧ Solo capacity earlier next call.initId
        (getTask call expiresAfter (.popping own fetched)) ∧
      next.storage = state.storage ∧ next.map = state.map := by
  have taken : step state (.reserve call.initId : Action T) = some _ :=
    move_taken solo.present (.reserveFailed own fetched locked rfl refused)
  cases locked with
  | true => exact ⟨_, runs_step taken rfl (runs_refl _), solo_moved solo taken rfl, rfl, rfl⟩
  | false =>
      let waiting := state.setPc call.initId
        (getTask call expiresAfter (.reserving own fetched false)) (.evictLock own fetched)
      have evictLock : Solo capacity earlier waiting call.initId
          (getTask call expiresAfter (.evictLock own fetched)) := solo_moved solo taken rfl
      let locked := { waiting with lock := some call.initId }.setPc call.initId
        (getTask call expiresAfter (.evictLock own fetched)) (.popping own fetched)
      have acquires : step waiting (.acquire call.initId : Action T) = some locked :=
        move_taken evictLock.present (.acquireEvict own fetched rfl (solo_unlocked evictLock rfl))
      exact ⟨locked, runs_step taken rfl (runs_step acquires rfl (runs_refl _)),
        solo_moved evictLock acquires rfl, rfl, rfl⟩

theorem evict_runs {key : CachedResourceKey} {rest : LruCache CachedResourceKey CellId}
    (solo : Solo capacity earlier state call.initId
      (getTask call expiresAfter (.popping own fetched)))
    (popped : state.map.popLru = some ((key, cell), rest)) :
    ∃ next, Runs call state next 0 ∧ Solo capacity earlier next call.initId
        (getTask call expiresAfter (.reserving own fetched true)) ∧
      next.map = rest ∧
      next.storage = { state.storage with
        cachedResources := rest.mapValues state.contentAt
        metrics := state.storage.evictionMetrics (state.contentAt cell) }.drop
          (state.contentAt cell) := by
  let removed := { state with map := rest }.setPc call.initId
    (getTask call expiresAfter (.popping own fetched)) (.evicting own fetched cell)
  have pops : step state (.pop call.initId : Action T) = some removed :=
    move_taken solo.present (.popEntry own fetched key cell rest rfl popped)
  have evicting : Solo capacity earlier removed call.initId
      (getTask call expiresAfter (.evicting own fetched cell)) := solo_moved solo pops rfl
  let evicted := { removed with metrics := removed.evictionMetrics cell }.setPc call.initId
    (getTask call expiresAfter (.evicting own fetched cell)) (.reserving own fetched true)
  have evicts : step removed (.evict call.initId : Action T) = some (evicted.release cell) :=
    move_taken evicting.present (.evict own fetched cell rfl)
  have reserving : Solo capacity earlier (evicted.release cell) call.initId
      (getTask call expiresAfter (.reserving own fetched true)) :=
    solo_moved evicting evicts (State.release_tasks evicted cell)
  refine ⟨_, runs_step pops rfl (runs_step evicts rfl (runs_refl _)), reserving,
    State.release_map evicted cell, ?_⟩
  have unmapped : evicted.mapped cell = false := popped_unmapped solo.inv.keyed popped
  have own_empty : state.contentAt own = none := by
    have permit : state.cellAt own = some (.initializing call.initId) :=
      (solo.inv.tasks _ _ solo.present).permit own rfl
    rw [State.contentAt, permit]
    rfl
  have loose : evicted.held cell = true → evicted.contentAt cell = none := by
    intro held
    have alone : Alone earlier evicted call.initId
        (getTask call expiresAfter (.reserving own fetched true)) :=
      alone_moved evicting.toAlone rfl
    rcases alone_held alone unmapped held with holds | holds
    · obtain rfl : own = cell := Option.some.inj holds
      exact own_empty
    · cases holds
  have metrics : removed.evictionMetrics cell =
      state.storage.evictionMetrics (state.contentAt cell) := storage_evictionMetrics
  have storage : evicted.storage = { state.storage with
      cachedResources := rest.mapValues state.contentAt
      metrics := state.storage.evictionMetrics (state.contentAt cell) } := by
    rw [← metrics]
    rfl
  rw [storage_release unmapped loose, storage]
  rfl

theorem exhausted_runs
    (solo : Solo capacity earlier state call.initId
      (getTask call expiresAfter (.popping own fetched)))
    (exhausted : state.map.popLru = none) :
    ∃ next pool reservation, state.pool.reserveUpTo fetched.file.size = some (pool, reservation) ∧
      Runs call state next 0 ∧ Solo capacity earlier next call.initId
        (getTask call expiresAfter (.granted own fetched reservation true)) ∧
      next.map = state.map ∧ next.storage = { state.storage with pool := pool } := by
  rcases CapacityPool.reserve_up_to_grants state.pool fetched.file.size with
    ⟨pool, reservation, granted, -, -⟩
  let waiting := state.setPc call.initId (getTask call expiresAfter (.popping own fetched))
    (.reservingUpTo own fetched)
  have pops : step state (.pop call.initId : Action T) = some waiting :=
    move_taken solo.present (.popNothing own fetched rfl exhausted)
  have reserving : Solo capacity earlier waiting call.initId
      (getTask call expiresAfter (.reservingUpTo own fetched)) := solo_moved solo pops rfl
  let next := { waiting with pool := pool }.setPc call.initId
    (getTask call expiresAfter (.reservingUpTo own fetched))
    (.granted own fetched reservation true)
  have found : waiting.pool.reserveUpTo fetched.file.size = some (pool, reservation) := granted
  have reserves : step waiting (.reserveUpTo call.initId : Action T) = some next :=
    move_taken reserving.present (.reserveUpTo own fetched pool reservation rfl granted)
  exact ⟨next, pool, reservation, granted,
    runs_step pops rfl (runs_step reserves rfl (runs_refl _)), solo_moved reserving reserves rfl, rfl,
    rfl⟩

/-- The reservation loop ends with a grant, after as many rounds as it has entries to evict
and one more, and does what the sequential loop does. -/
theorem reserve_runs (rounds : Nat) (enough : state.map.entries.length < rounds)
    (solo : Solo capacity earlier state call.initId
      (getTask call expiresAfter (.reserving own fetched locked)))
    (only : state.Sole call.key own) :
    ∃ next reservation, ∃ held : Bool, Runs call state next 0 ∧
      Solo capacity earlier next call.initId
        (getTask call expiresAfter (.granted own fetched reservation held)) ∧
      CacheStorage.reserveLoop fetched.file.size rounds state.storage =
        some (next.storage, reservation) ∧ next.Sole call.key own := by
  induction rounds generalizing state locked with
  | zero => exact absurd enough (Nat.not_lt_zero _)
  | succ rounds ih =>
      cases granted : state.pool.reserve fetched.file.size with
      | some grant =>
          let next := { state with pool := grant.1 }.setPc call.initId
            (getTask call expiresAfter (.reserving own fetched locked))
            (.granted own fetched grant.2 locked)
          have taken : step state (.reserve call.initId : Action T) = some next :=
            move_taken solo.present (.reserveGranted own fetched locked grant.1 grant.2 rfl granted)
          refine ⟨next, grant.2, locked, runs_step taken rfl (runs_refl _),
            solo_moved solo taken rfl, ?_, only⟩
          have granted : state.storage.pool.reserve fetched.file.size = some grant := granted
          rw [CacheStorage.reserveLoop, granted]
          rfl
      | none =>
          rcases refused_runs solo granted with ⟨waiting, runs, popping, storage, map⟩
          have refused : state.storage.pool.reserve fetched.file.size = none := granted
          rw [CacheStorage.reserveLoop, refused, ← storage]
          cases popped : waiting.map.popLru with
          | some popped' =>
              obtain ⟨⟨key, cell⟩, rest⟩ := popped'
              rcases evict_runs popping popped with ⟨evicted, evicts, reserving, left, storage⟩
              have entries := (LruCache.pop_some popped).1
              have fewer : evicted.map.entries.length < rounds := by
                rw [← map, entries, List.length_append] at enough
                rw [left]
                simpa using enough
              have sole : evicted.Sole call.key own := by
                intro other member
                rw [left] at member
                apply only
                rw [← map, entries]
                exact List.mem_append_left _ member
              rcases ih fewer reserving sole with
                ⟨next, reservation, held, later, granted, same, sole⟩
              refine ⟨next, reservation, held, ?_, granted, ?_, sole⟩
              · exact runs_trans runs (runs_trans evicts later)
              · rw [storage_pop popped, ← same, storage]
          | none =>
              rcases exhausted_runs popping popped with
                ⟨next, pool, reservation, granted, later, ended, left, storage'⟩
              have empty : waiting.storage.cachedResources.popLru = none := by
                rw [State.storage, LruCache.map_values_pop, popped]
                rfl
              have granted : waiting.storage.pool.reserveUpTo fetched.file.size =
                some (pool, reservation) := granted
              refine ⟨next, reservation, true, runs_trans runs later, ended, ?_, ?_⟩
              · rw [empty, granted, storage']
                rfl
              · rw [State.Sole, left, map]
                exact only

theorem abandon_runs {action : Action T} {change : CacheRouteMetrics → CacheRouteMetrics}
    {result : Except UpstreamError (Option CachedResourceResponse)}
    (solo : Solo capacity earlier state call.initId (getTask call expiresAfter pc))
    (permit : pc.initializes = some own) (mapped : state.mapped own = true)
    (taken : step state action = some
      ((state.countRoute (getTask call expiresAfter pc) change).abandon call.initId
        (getTask call expiresAfter pc) own (.finished result)))
    (serves : action.Serves call) :
    ∃ next, Runs call state next (if action.answers then 1 else 0) ∧
      Solo capacity earlier next call.initId (getTask call expiresAfter (.finished result)) ∧
      next.storage = state.storage.count call change := by
  have found : state.cellAt own = some (.initializing call.initId) :=
    (solo.inv.tasks _ _ solo.present).permit own permit
  let counted := state.countRoute (getTask call expiresAfter pc) change
  have runs := runs_step taken serves (runs_refl _)
  rw [Nat.zero_add] at runs
  refine ⟨_, runs, solo_moved solo taken (State.abandon_tasks _ _ _), ?_⟩
  have found : counted.cellAt own = some (.initializing call.initId) := found
  exact abandon_storage found mapped

theorem store_runs {found : UpstreamResource} (answer : call.answer = .ok (some found))
    (solo : Solo capacity earlier state call.initId
      (getTask call expiresAfter (.storing own found)))
    (member : (call.key, own) ∈ state.map.entries) :
    ∃ next, Runs call state next 0 ∧
      Solo capacity earlier next call.initId (getTask call expiresAfter
        (replyPc (state.storage.getOrTryInit call expiresAfter).2.reply)) ∧
      next.storage = (state.storage.getOrTryInit call expiresAfter).1 ∧
      (state.storage.getOrTryInit call expiresAfter).2.upstreamCalls = 1 := by
  have mapped : state.mapped own = true := mapped_iff.mpr ⟨_, member⟩
  let storing := getTask call expiresAfter (.storing own found)
  cases stored : Upstream.store found.body call.diskError with
  | error failure =>
      have taken : step state (.store call.initId call.diskError : Action T) = some _ :=
        move_taken solo.present (.storeError own found _ failure rfl stored)
      rcases abandon_runs solo rfl mapped taken ⟨rfl, rfl⟩ with ⟨next, runs, ended, storage⟩
      simp only [CacheStorage.getOrTryInit, answer, stored]
      exact ⟨next, runs, ended, storage, trivial⟩
  | ok file =>
      let waiting := state.setPc call.initId storing (.reserving own ⟨found.headers, file⟩ false)
      have taken : step state (.store call.initId call.diskError : Action T) = some waiting :=
        move_taken solo.present (.storeOk own found _ file rfl stored)
      have reserving : Solo capacity earlier waiting call.initId
          (getTask call expiresAfter (.reserving own ⟨found.headers, file⟩ false)) :=
        solo_moved solo taken rfl
      have only : waiting.Sole call.key own :=
        fun other again => LruCache.entry_unique again member
      rcases reserve_runs _ (Nat.lt_succ_self _) reserving only with
        ⟨granted, reservation, held, reserves, holding, reserved, sole⟩
      rcases fill_runs holding sole with ⟨next, fills, ended, storage⟩
      have reserved : state.storage.reserve file.size = some (granted.storage, reservation) := by
        rw [CacheStorage.reserve, State.storage, LruCache.map_values_entries, List.length_map]
        exact reserved
      simp only [CacheStorage.getOrTryInit, answer, stored, reserved]
      exact ⟨next, runs_step taken ⟨rfl, rfl⟩ (runs_trans reserves fills), ended, storage, trivial⟩

theorem fetch_runs
    (solo : Solo capacity earlier state call.initId (getTask call expiresAfter (.fetching own)))
    (member : (call.key, own) ∈ state.map.entries) :
    Ends capacity earlier state call expiresAfter
      (state.storage.getOrTryInit call expiresAfter) := by
  have mapped : state.mapped own = true := mapped_iff.mpr ⟨_, member⟩
  let fetching := getTask call expiresAfter (.fetching own)
  cases answer : call.answer with
  | error failure =>
      have taken : step state (.answer call.initId (.error failure) : Action T) = some _ :=
        move_taken solo.present (.answerError own failure rfl)
      rcases abandon_runs solo rfl mapped taken ⟨rfl, answer.symm⟩ with ⟨next, runs, ended, storage⟩
      simp only [CacheStorage.getOrTryInit, answer]
      exact ⟨next, runs, ended, storage⟩
  | ok found =>
      cases found with
      | none =>
          have taken : step state (.answer call.initId (.ok none) : Action T) = some _ :=
            move_taken solo.present (.answerNone own rfl)
          rcases abandon_runs solo rfl mapped taken ⟨rfl, answer.symm⟩ with ⟨next, runs, ended, storage⟩
          simp only [CacheStorage.getOrTryInit, answer]
          exact ⟨next, runs, ended, storage⟩
      | some found =>
          let storing := state.setPc call.initId fetching (.storing own found)
          have taken : step state (.answer call.initId (.ok (some found)) : Action T) =
              some storing :=
            move_taken solo.present (.answerFound own found rfl)
          have received : Solo capacity earlier storing call.initId
              (getTask call expiresAfter (.storing own found)) := solo_moved solo taken rfl
          rcases store_runs answer received member with ⟨next, runs, ended, storage, asked⟩
          refine ⟨next, ?_, ended, storage⟩
          have runs := runs_step taken ⟨rfl, answer.symm⟩ runs
          exact asked ▸ runs

theorem cached_runs {storage : CacheStorage} (planned : call.plan = .cached expiresAfter)
    (solo : Solo capacity earlier state call.initId (getTask call expiresAfter .lookupLock))
    (requested : state.storage = storage.count call CacheRouteMetrics.requested) :
    Ends capacity earlier state call expiresAfter (storage.get call) := by
  let locked := { state with lock := some call.initId }.setPc call.initId
    (getTask call expiresAfter .lookupLock) .lookup
  have acquires : step state (.acquire call.initId : Action T) = some locked :=
    move_taken solo.present (.acquireLookup rfl (solo_unlocked solo rfl))
  have looking : Solo capacity earlier locked call.initId (getTask call expiresAfter .lookup) :=
    solo_moved solo acquires rfl
  rcases lookup_step T looking rfl with ⟨found, own, looks, joining, matched, cell, member⟩
  have matched : (storage.count call CacheRouteMetrics.requested).lookup call.key call.now =
      (found.storage, found.contentAt own) := requested ▸ matched
  simp only [CacheStorage.get, planned, matched]
  have start : Runs call state found 0 :=
    runs_step acquires rfl (runs_step looks rfl (runs_refl found))
  cases content : found.contentAt own with
  | some resource =>
      rw [content] at cell
      let held := found.setPc call.initId (getTask call expiresAfter (.joining own))
        (.initialized own resource)
      have joins : step found (.join call.initId : Action T) = some held :=
        move_taken joining.present (.joinFilled own resource rfl cell)
      have initialized : Solo capacity earlier held call.initId
          (getTask call expiresAfter (.initialized own resource)) := solo_moved joining joins rfl
      rcases respond_runs initialized with ⟨next, responds, ended, storage⟩
      have mapped : held.mapped own = true := mapped_iff.mpr ⟨_, member⟩
      rw [if_pos mapped] at storage
      exact ⟨next, runs_trans start (runs_step joins rfl responds), ended, storage⟩
  | none =>
      rw [content] at cell
      let permitted := found.setCell own (.initializing call.initId)
      let fetching := permitted.setPc call.initId (getTask call expiresAfter (.joining own))
        (.fetching own)
      have joins : step found (.join call.initId : Action T) = some fetching :=
        move_taken joining.present (.joinEmpty own rfl cell)
      have storage : fetching.storage = found.storage := storage_setCell cell rfl
      have fetches : Solo capacity earlier fetching call.initId
          (getTask call expiresAfter (.fetching own)) := solo_moved joining joins rfl
      rcases fetch_runs fetches member with ⟨next, runs, ended, served⟩
      rw [storage] at runs ended served
      have runs := runs_trans start (runs_step joins rfl runs)
      rw [Nat.zero_add] at runs
      exact ⟨next, runs, ended, served⟩

end Steps

theorem idle_reply (host path label : String) (now : Instant) (expiresAfter : Option Instant)
    (reply : Reply) : HoldsNothing ⟨host, path, now, label, expiresAfter, replyPc reply⟩ := by
  cases reply <;> exact ⟨rfl, rfl, rfl⟩

def State.begin (state : State) (call : Call T) (expiresAfter : Option Instant) (pc : Pc) : State :=
  { state with tasks := state.tasks ++ [getTask call expiresAfter pc] }.countRoute
    (getTask call expiresAfter pc) CacheRouteMetrics.requested

theorem start_begin (state : State) (call : Call T) :
    state.start call.cache call.path call.now =
      match call.plan with
      | .unrouted => (state.begin call none (.finished (.ok none))).countRoute
          (getTask call none (.finished (.ok none))) CacheRouteMetrics.unrouted
      | .never => (state.begin call none .neverFetch).countRoute
          (getTask call none .neverFetch) CacheRouteMetrics.never
      | .cached expiresAfter => state.begin call expiresAfter .lookupLock
      | .panicked => state.begin call none .panicked := rfl

theorem start_ends (inv : Inv capacity state) (idle : ∀ other ∈ state.tasks, HoldsNothing other)
    (call : Call T) (named : call.initId = state.tasks.length) :
    ∃ expiresAfter, Ends capacity state.tasks (state.start call.cache call.path call.now) call
      expiresAfter (state.storage.get call) := by
  have starts : step state (.start call.cache call.path call.now) =
      some (state.start call.cache call.path call.now) := rfl
  have inv : Inv capacity (state.start call.cache call.path call.now) := step_inv inv starts
  rw [start_begin] at inv ⊢
  cases planned : call.plan with
  | unrouted =>
      simp only [planned] at inv
      refine ⟨none, ?_⟩
      simp only [CacheStorage.get, planned]
      exact ⟨_, runs_refl _, ⟨⟨rfl, named, idle⟩, inv⟩, rfl⟩
  | never =>
      simp only [planned] at inv
      let waiting := (state.begin call none .neverFetch).countRoute
        (getTask call none .neverFetch) CacheRouteMetrics.never
      have solo : Solo capacity state.tasks waiting call.initId
        (getTask call none .neverFetch) := ⟨⟨rfl, named, idle⟩, inv⟩
      have answers : step waiting (.answer call.initId call.answer : Action T) = some
          (waiting.setPc call.initId (getTask call none .neverFetch) (replyPc call.passOn)) :=
        move_taken solo.present (.answerNever call.answer rfl)
      refine ⟨none, ?_⟩
      simp only [CacheStorage.get, planned]
      exact ⟨_, runs_step answers ⟨rfl, rfl⟩ (runs_refl _), solo_moved solo answers rfl, rfl⟩
  | cached expiresAfter =>
      simp only [planned] at inv
      exact ⟨expiresAfter, cached_runs planned ⟨⟨rfl, named, idle⟩, inv⟩ rfl⟩
  | panicked =>
      simp only [planned] at inv
      refine ⟨none, ?_⟩
      simp only [CacheStorage.get, planned]
      exact ⟨_, runs_refl _, ⟨⟨rfl, named, idle⟩, inv⟩, rfl⟩

/-- A get from its start, by its own steps and what its call has of the outside. -/
def Segment (served : Call T × Outcome) (segment : List (Action T)) : Prop :=
  ∃ later, segment = .start served.1.cache served.1.path served.1.now :: later ∧
    (∀ action ∈ later, action.Serves served.1) ∧
    later.countP Action.answers = served.2.upstreamCalls

def Call.request (call : Call T) : Request T := ⟨call.cache, call.path, call.now⟩

omit [PathTree T] in
theorem segment_requests {served : Call T × Outcome} {segment : List (Action T)}
    (own : Segment served segment) : requests segment = [Call.request served.1] := by
  rcases own with ⟨later, rfl, serves, -⟩
  have silent : later.filterMap Action.request = [] := by
    rw [List.filterMap_eq_nil_iff]
    intro action member
    have mine := serves action member
    cases action <;> first | rfl | cases mine
  rw [requests, List.filterMap_cons, silent]
  rfl

/-- With every earlier get over, the machine can run a get to its end, to the storage
and the reply of the sequential `get` and with as many answers from the upstream. -/
theorem get_refines (inv : Inv capacity state) (idle : ∀ other ∈ state.tasks, HoldsNothing other)
    (call : Call T) (named : call.initId = state.tasks.length) :
    ∃ segment next task, Segment (call, (state.storage.get call).2) segment ∧
      Transition.run step state segment = some next ∧
      next.tasks = state.tasks ++ [task] ∧ task.pc = replyPc (state.storage.get call).2.reply ∧
      HoldsNothing task ∧ Inv capacity next ∧ next.storage = (state.storage.get call).1 := by
  have starts : step state (.start call.cache call.path call.now) =
      some (state.start call.cache call.path call.now) := rfl
  rcases start_ends inv idle call named with
    ⟨expiresAfter, next, ⟨later, reached, serves, count⟩, solo, storage⟩
  refine ⟨_, next, _, ⟨later, rfl, serves, count⟩, ?_, solo.tasks, rfl,
    idle_reply _ _ _ _ _ _, solo.inv, storage⟩
  rw [Transition.run, starts, Option.bind_some, reached]

/-- What one get after the other does is what the machine does in a run that is made of
their steps, one get after the other. -/
theorem serve_refines (capacity : UInt64) (slots : Nat) (positive : 0 < slots)
    (calls : List (Call T)) (named : calls.map Call.initId = List.range calls.length) :
    ∃ (segments : List (List (Action T))) (next : State),
      List.Forall₂ Segment ((CacheStorage.new capacity slots positive).outcomes calls) segments ∧
      requests segments.flatten = calls.map Call.request ∧
      Transition.run step (initial capacity slots positive) segments.flatten = some next ∧
      next.tasks.map Task.pc = ((CacheStorage.new capacity slots positive).outcomes calls).map
        (fun served => replyPc served.2.reply) ∧
      (∀ task ∈ next.tasks, HoldsNothing task) ∧ Inv capacity next ∧
      next.storage = (CacheStorage.new capacity slots positive).serve calls := by
  induction calls using List.reverseRecOn with
  | nil =>
      refine ⟨[], initial capacity slots positive, .nil, rfl, rfl, rfl, ?_,
        initial_inv slots positive, rfl⟩
      intro task member
      cases member
  | append_singleton earlier call ih =>
      rw [List.map_append, List.length_append, List.length_singleton, List.range_succ] at named
      obtain ⟨before, last⟩ := List.append_inj' named rfl
      rcases ih before with
        ⟨segments, state, own, asked, reached, replies, idle, inv, storage⟩
      have count : state.tasks.length = earlier.length := by
        have lengths := congrArg List.length replies
        rwa [List.length_map, List.length_map, CacheStorage.outcomes_length] at lengths
      have fresh : call.initId = state.tasks.length := by
        rw [count]
        exact List.singleton_inj.mp last
      rcases get_refines inv idle call fresh with
        ⟨segment, next, task, mine, gets, tasks, reply, ended, inv, storage'⟩
      rw [storage] at mine reply storage'
      refine ⟨segments ++ [segment], next, ?_, ?_, ?_, ?_, ?_, inv, ?_⟩
      · rw [CacheStorage.outcomes_snoc]
        exact List.rel_append own (.cons mine .nil)
      · rw [List.flatten_append, List.map_append, ← asked, requests, List.filterMap_append]
        exact congrArg _ ((congrArg requests List.flatten_singleton).trans
          (segment_requests mine))
      · rw [List.flatten_append, Transition.run_append, reached, Option.bind_some]
        exact (congrArg _ List.flatten_singleton).trans gets
      · rw [CacheStorage.outcomes_snoc, tasks, List.map_append, List.map_append, replies]
        simp [reply]
      · intro other member
        rw [tasks] at member
        rcases List.mem_append.mp member with old | new
        · exact idle other old
        · rw [List.mem_singleton.mp new]
          exact ended
      · rw [CacheStorage.serve_snoc]
        exact storage'

/-- The second get of a page is served from the cache, so that the upstream is asked once. -/
def pageTwice : List (Call LiteralTree) :=
  [⟨plainCache, "/a", epoch, 0, plainBody [1, 2], none, none, ⟨epoch, ⟨0⟩⟩⟩,
    ⟨plainCache, "/a", epoch, 1, plainBody [1, 2], none, none, ⟨epoch, ⟨0⟩⟩⟩]

theorem serve_refines_twice :
    ∃ (segments : List (List (Action LiteralTree))) (next : State),
      List.Forall₂ Segment ((CacheStorage.new 9 2 (by decide)).outcomes pageTwice) segments ∧
      requests segments.flatten = pageTwice.map Call.request ∧
      Transition.run step (initial 9 2 (by decide)) segments.flatten = some next ∧
      ((CacheStorage.new 9 2 (by decide)).outcomes pageTwice).map
        (fun served => served.2.upstreamCalls) = [1, 0] := by
  rcases serve_refines 9 2 (by decide) pageTwice rfl with
    ⟨segments, next, own, asked, reached, -⟩
  exact ⟨segments, next, own, asked, reached, rfl⟩

end Server3.Machine
