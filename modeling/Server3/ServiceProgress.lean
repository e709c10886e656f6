import Server3.Service
import Server3.Termination

/-! Every request comes to its end: none is forgotten, and a run is no longer than its
requests allow. -/

namespace Server3.Machine

open Routes

variable {T : Type → Type} {state next : State} {id : TaskId} {task : Task} {action : Action T}

theorem move_going (move : Move state id task action next) (other : action ≠ .cancel id) :
    ∃ pc, next.tasks = state.tasks.set id { task with pc := pc } ∧ pc ≠ .cancelled := by
  cases move with
  | lookup => exact ⟨_, State.releaseOption_tasks _, by simp⟩
  | answerNone | answerError | storeError => exact ⟨_, State.abandon_tasks _ _ _, by simp⟩
  | evict | respond => exact ⟨_, State.release_tasks _ _, by simp⟩
  | reserveFailed cell fetched locked stage refused =>
      refine ⟨_, rfl, ?_⟩
      cases locked <;> simp
  | cancelIdle | cancelJoined | cancelInit => exact absurd rfl other
  | _ => exact ⟨_, rfl, by simp⟩

variable [PathTree T]

theorem step_going (taken : step state action = some next) (present : state.tasks[id]? = some task)
    (going : task.pc ≠ .cancelled) (other : action ≠ .cancel id) :
    ∃ after, next.tasks[id]? = some after ∧ after.pc ≠ .cancelled := by
  rcases step_moves taken with ⟨cache, path, now, rfl, rfl⟩ | ⟨mover, moving, moves, move⟩
  · rcases start_started state cache path now with ⟨fresh, started⟩
    rw [started.tasks]
    exact ⟨task, Arena.get_append_old _ present, going⟩
  · by_cases same : mover = id
    · subst same
      rcases move_going move other with ⟨pc, tasks, stays⟩
      exact ⟨_, moved_task moves tasks, stays⟩
    · rcases move_task move with ⟨pc, tasks⟩
      rw [tasks, Arena.get_set_other _ _ same]
      exact ⟨task, present, going⟩

end Server3.Machine

namespace Server3.Service

open Clock Server3.Configuration Routes Upstream Resource App
open Machine (TaskId Action World Settled stepBound Inv)

/-- No get has two requests, and only a request that was given up has its get cancelled. -/
structure Attended (state : State) : Prop where
  distinct : ∀ (one two : Nat) (first second : Exchange) id, state.exchanges[one]? = some first →
    state.exchanges[two]? = some second → first.get = some id → second.get = some id → one = two
  started : ∀ (index : Nat) (exchange : Exchange) id, state.exchanges[index]? = some exchange →
    exchange.get = some id → id < state.cache.tasks.length
  waiting : ∀ (index : Nat) (exchange : Exchange), state.exchanges[index]? = some exchange →
    exchange.place = .waiting → ∃ id task, exchange.get = some id ∧
      state.cache.tasks[id]? = some task ∧ task.pc ≠ .cancelled

def State.waitingCount (state : State) : Nat :=
  state.exchanges.countP fun exchange => exchange.place = .waiting

def State.left (state : State) : Nat := state.cache.rankTotal + state.waitingCount

/-- A request leads to no more events than this, with its arrival. -/
def eventBound (slots : Nat) : Nat := stepBound slots + 2

/-- No get is under way, and a request still waits only where its get panicked. -/
structure Drained (capacity : UInt64) (state : State) : Prop where
  settled : Settled capacity state.cache
  waiting : ∀ exchange ∈ state.exchanges, exchange.place = .waiting →
    ∃ id task, exchange.get = some id ∧ state.cache.tasks[id]? = some task ∧ task.pc = .panicked

variable {U : Type} {T : Type → Type}

def Event.arrives : Event T → Bool
  | .arrive _ _ _ _ => true
  | _ => false

/-- No request arrives and no client goes away, and the gets find what the world has in
store for them. -/
def Serves (world : World) : Event T → Prop
  | .advance action => world.Allows action
  | .reply _ => True
  | _ => False

section Attendance

variable {state next : State} {exchange : Exchange} {index : Nat} {place : Place}

theorem settled_at {other : Nat} {found : Exchange} (present : state.exchanges[index]? = some exchange)
    (there : (state.settle index exchange place).exchanges[other]? = some found) :
    ∃ old, state.exchanges[other]? = some old ∧ old.get = found.get ∧
      (old = found ∨ other = index ∧ found.place = place) := by
  by_cases same : index = other
  · subst same
    rw [State.settle, Arena.get_set_self _ present, Option.some.injEq] at there
    subst there
    exact ⟨exchange, present, rfl, Or.inr ⟨rfl, rfl⟩⟩
  · rw [State.settle, Arena.get_set_other _ _ same] at there
    exact ⟨found, there, rfl, Or.inl rfl⟩

theorem attended_settle (before : Attended state) (present : state.exchanges[index]? = some exchange)
    (ends : place ≠ .waiting) : Attended (state.settle index exchange place) := by
  constructor
  · intro one two first second id atOne atTwo own shared
    rcases settled_at present atOne with ⟨old, oldOne, oldGet, -⟩
    rcases settled_at present atTwo with ⟨other, otherTwo, otherGet, -⟩
    exact before.distinct one two old other id oldOne otherTwo (oldGet.trans own)
      (otherGet.trans shared)
  · intro other found id there own
    rcases settled_at present there with ⟨old, oldThere, oldGet, -⟩
    exact before.started other old id oldThere (oldGet.trans own)
  · intro other found there waits
    rcases settled_at present there with ⟨old, oldThere, oldGet, rfl | ⟨-, settled⟩⟩
    · exact before.waiting other old oldThere waits
    · exact absurd (settled.symm.trans waits) ends

end Attendance

section Progress

variable [PathTree T] {app : AppState U T} {showTimestamp : Timestamp → String}
  {metadata : MetadataConfig} {state next : State} {event : Event T} {capacity : UInt64}
  {slots : Nat} {positive : 0 < slots} {events : List (Event T)} {world : World}

theorem attended_cache {action : Action T} {cache : Machine.State} (before : Attended state)
    (own : action.request = none) (moved : Machine.step state.cache action = some cache)
    (spared : ∀ (index : Nat) (exchange : Exchange) id, state.exchanges[index]? = some exchange →
      exchange.place = .waiting → exchange.get = some id → action ≠ .cancel id) :
    Attended { state with cache := cache } := by
  refine ⟨before.distinct, ?_, ?_⟩
  · intro index exchange id present known
    rw [step_length own moved]
    exact before.started index exchange id present known
  · intro index exchange present waits
    rcases before.waiting index exchange present waits with ⟨id, task, known, there, going⟩
    rcases Machine.step_going moved there going (spared index exchange id present waits known) with
      ⟨after, found, stays⟩
    exact ⟨id, after, known, found, stays⟩

theorem attended_enter {method path : String} {headers : HeaderMap} {now : Instant}
    {cache : HostCache U T} (before : Attended state) :
    Attended (state.enter method headers path now cache) := by
  rcases Machine.start_started state.cache cache.toCache path now with ⟨fresh, started⟩
  have newest {index : Nat} {exchange : Exchange} {id : TaskId}
      (present : state.exchanges[index]? = some exchange) (own : exchange.get = some id) :
      some state.cache.tasks.length ≠ some id := by
    rintro ⟨⟩
    exact Nat.lt_irrefl _ (before.started index exchange _ present own)
  constructor
  · intro one two first second id atOne atTwo own shared
    rcases Arena.get_append_cases atOne with oldOne | ⟨rfl, rfl⟩ <;>
      rcases Arena.get_append_cases atTwo with oldTwo | ⟨rfl, rfl⟩
    · exact before.distinct one two first second id oldOne oldTwo own shared
    · exact absurd shared (newest oldOne own)
    · exact absurd own (newest oldTwo shared)
    · rfl
  · intro index exchange id present own
    rw [State.enter, started.tasks, List.length_append, List.length_singleton]
    rcases Arena.get_append_cases present with old | ⟨rfl, rfl⟩
    · exact Nat.lt_succ_of_lt (before.started index exchange id old own)
    · obtain rfl := Option.some.inj own
      exact Nat.lt_succ_self _
  · intro index exchange present waits
    rw [State.enter, started.tasks]
    rcases Arena.get_append_cases present with old | ⟨rfl, rfl⟩
    · rcases before.waiting index exchange old waits with ⟨id, task, own, there, going⟩
      exact ⟨id, task, own, Arena.get_append_old _ there, going⟩
    · refine ⟨_, fresh, rfl, Arena.get_append_new _ _, ?_⟩
      rcases started.stage with ⟨stage, -⟩ | ⟨stage, -⟩ | ⟨stage, -⟩ | ⟨stage, -⟩ <;>
        simp [stage]

theorem attended_refuse {method path : String} {headers : HeaderMap} {response : Response}
    (before : Attended state) : Attended (state.answerAtOnce app method headers path response) := by
  constructor
  · intro one two first second id atOne atTwo own shared
    rcases Arena.get_append_cases atOne with oldOne | ⟨rfl, rfl⟩
    · rcases Arena.get_append_cases atTwo with oldTwo | ⟨rfl, rfl⟩
      · exact before.distinct one two first second id oldOne oldTwo own shared
      · cases shared
    · cases own
  · intro index exchange id present own
    rcases Arena.get_append_cases present with old | ⟨rfl, rfl⟩
    · exact before.started index exchange id old own
    · cases own
  · intro index exchange present waits
    rcases Arena.get_append_cases present with old | ⟨rfl, rfl⟩
    · exact before.waiting index exchange old waits
    · cases waits

theorem attended_move {more : Option (App.Event T)} (before : Attended state)
    (move : Moves app showTimestamp metadata state event more next) : Attended next := by
  cases move with
  | enter method headers path now cache allowed selected => exact attended_enter before
  | refuse method headers path now response why => exact attended_refuse before
  | advance action own cache advances moved =>
      apply attended_cache before own moved
      rintro index exchange id - - - rfl
      cases advances
  | reply index exchange id task result response waits ended made =>
      rcases waits_some waits with ⟨present, -⟩
      have settled : Attended (state.settle index exchange (.answered response)) :=
        attended_settle before present (by simp)
      exact ⟨settled.distinct, settled.started, settled.waiting⟩
  | lose index exchange id task waits panicked =>
      rcases waits_some waits with ⟨present, -⟩
      exact attended_settle before present (by simp)
  | cancel index exchange id task cache waits moved =>
      rcases waits_some waits with ⟨present, -, own, there⟩
      have moved : Machine.step (state.settle index exchange .gone).cache (.cancel id : Action T) =
          some cache := moved
      have gone : Attended (state.settle index exchange .gone) :=
        attended_settle before present (by simp)
      apply attended_cache gone rfl moved
      rintro other found same atOther waiting known ⟨⟩
      rcases settled_at present atOther with ⟨old, oldOther, oldGet, kept⟩
      have alike : other = index :=
        before.distinct other index old exchange id oldOther present (oldGet.trans known) own
      rcases kept with rfl | ⟨-, settled⟩
      · subst alike
        rw [State.settle, Arena.get_set_self _ present, Option.some.injEq] at atOther
        subst atOther
        cases waiting
      · cases settled.symm.trans waiting

theorem settle_waiting {index : Nat} {exchange : Exchange} {place : Place}
    (present : state.exchanges[index]? = some exchange) (waits : exchange.place = .waiting)
    (ends : place ≠ .waiting) :
    1 + (state.settle index exchange place).waitingCount = state.waitingCount := by
  have among := List.mem_of_getElem? present
  have positive : 0 < state.waitingCount :=
    List.countP_pos_iff.mpr ⟨exchange, among, by simpa using waits⟩
  have counted : (state.settle index exchange place).waitingCount = state.waitingCount - 1 := by
    rw [State.waitingCount, settle_counted present]
    simp [waits, ends, State.waitingCount]
  omega

theorem move_left {more : Option (App.Event T)} (inv : Inv capacity state.cache)
    (move : Moves app showTimestamp metadata state event more next) :
    1 + next.left ≤ state.left +
      if event.arrives then eventBound state.cache.map.capacity else 0 := by
  cases move with
  | enter method headers path now cache allowed selected =>
      have taken : Machine.step state.cache (.start cache.toCache path now) =
          some (state.cache.start cache.toCache path now) := rfl
      have paid := Machine.step_rank_total inv taken
      have waits : (state.enter method headers path now cache).waitingCount =
          state.waitingCount + 1 := by
        simp [State.waitingCount, State.enter]
      have grants : (Action.start cache.toCache path now).request.isSome = true := rfl
      have arrives : (Event.arrive method headers path now : Event T).arrives = true := rfl
      rw [if_pos grants] at paid
      rw [if_pos arrives, State.left, State.left, waits, eventBound]
      change 1 + ((state.cache.start cache.toCache path now).rankTotal + _) ≤ _
      omega
  | refuse method headers path now response why =>
      have waits : (state.answerAtOnce app method headers path response).waitingCount =
          state.waitingCount := by
        simp [State.waitingCount, State.answerAtOnce, State.count]
      have arrives : (Event.arrive method headers path now : Event T).arrives = true := rfl
      rw [if_pos arrives, State.left, State.left, waits, eventBound]
      change 1 + (state.cache.rankTotal + _) ≤ _
      omega
  | advance action own cache advances moved =>
      have paid := Machine.step_rank_total inv moved
      rw [own] at paid
      simp only [Option.isSome_none, Bool.false_eq_true, if_false] at paid
      change 1 + (cache.rankTotal + state.waitingCount) ≤ state.cache.rankTotal + state.waitingCount
      omega
  | reply index exchange id task result response waits ended made =>
      rcases waits_some waits with ⟨present, waiting, -⟩
      have fewer : 1 + (state.settle index exchange (.answered response)).waitingCount =
          state.waitingCount := settle_waiting present waiting (by simp)
      change 1 + (state.cache.rankTotal +
        (state.settle index exchange (.answered response)).waitingCount) ≤
          state.cache.rankTotal + state.waitingCount
      omega
  | lose index exchange id task waits panicked =>
      rcases waits_some waits with ⟨present, waiting, -⟩
      have fewer : 1 + (state.settle index exchange .gone).waitingCount = state.waitingCount :=
        settle_waiting present waiting (by simp)
      change 1 + (state.cache.rankTotal + (state.settle index exchange .gone).waitingCount) ≤
        state.cache.rankTotal + state.waitingCount
      omega
  | cancel index exchange id task cache waits moved =>
      rcases waits_some waits with ⟨present, waiting, -⟩
      have fewer : 1 + (state.settle index exchange .gone).waitingCount = state.waitingCount :=
        settle_waiting present waiting (by simp)
      have paid := Machine.step_rank_total inv moved
      have silent : (Action.cancel id : Action T).request.isSome = false := rfl
      rw [silent] at paid
      simp only [Bool.false_eq_true, if_false] at paid
      change 1 + (cache.rankTotal + (state.settle index exchange .gone).waitingCount) ≤
        state.cache.rankTotal + state.waitingCount
      omega

/-- What a run of the server has of the facts about its caches. -/
structure Kept (capacity : UInt64) (slots : Nat) (state : State) : Prop where
  attended : Attended state
  inv : Inv capacity state.cache
  held : Machine.Held state.cache
  slots : state.cache.map.capacity = slots

theorem run_kept
    (reached : Transition.run (step app showTimestamp metadata) (initial capacity slots positive)
      events = some state) : Kept capacity slots state := by
  rcases run_traced reached with ⟨inner, traced⟩
  have ran := (run_actions app _ _).symm.trans traced.reached
  refine ⟨?_, Machine.run_inv ran, Machine.run_held ran, Machine.run_capacity ran⟩
  refine Transition.run_induction (fun (_ : List (Event T)) state => Attended state) ?_ ?_ reached
  · constructor <;> simp [initial]
  intro events state event next _ before taken
  rcases step_moves taken with ⟨more, move⟩
  exact attended_move before move

omit [PathTree T] in
theorem allowed_advances {action : Action T} (allows : world.Allows action) :
    action.advances.isSome := by
  cases action with
  | start | cancel => exact allows.elim
  | _ => rfl

omit [PathTree T] in
theorem serves_arrives (serves : Serves world event) : event.arrives = false := by
  cases event with
  | arrive => exact serves.elim
  | _ => rfl

/-- Where no get is under way, a request that waits can be answered or its get panicked. -/
theorem waiting_replies (kept : Kept capacity slots state) (quiet : state.cache.Quiet)
    {index : Nat} {exchange : Exchange} (present : state.exchanges[index]? = some exchange)
    (waits : exchange.place = .waiting) :
    (∃ next, step app showTimestamp metadata state (.reply index : Event T) = some next) ∨
      ∃ id task, exchange.get = some id ∧ state.cache.tasks[id]? = some task ∧
        task.pc = .panicked := by
  rcases kept.attended.waiting index exchange present waits with ⟨id, task, own, there, going⟩
  have ended := quiet task (List.mem_of_getElem? there)
  have found : state.waits index = some (exchange, id, task) := by
    simp [State.waits, present, waits, own, there]
  cases stage : task.pc with
  | finished result =>
      left
      simp [step, State.reply, found, stage]
  | panicked => exact Or.inr ⟨id, task, own, there, stage⟩
  | cancelled => exact absurd stage going
  | _ =>
      rw [stage] at ended
      cases ended

theorem undrained_steps (app : AppState U T) (showTimestamp : Timestamp → String)
    (metadata : MetadataConfig) (world : World) (kept : Kept capacity slots state)
    (busy : ¬ Drained capacity state) :
    ∃ (event : Event T) (next : State), Serves world event ∧
      step app showTimestamp metadata state event = some next := by
  by_cases quiet : state.cache.Quiet
  · by_contra stuck
    apply busy
    refine ⟨Machine.quiet_settled kept.inv kept.held quiet, ?_⟩
    intro exchange member waits
    rcases List.getElem?_of_mem member with ⟨index, present⟩
    rcases waiting_replies (T := T) kept quiet present waits with ⟨next, replies⟩ | panicked
    · exact absurd ⟨.reply index, next, trivial, replies⟩ stuck
    · exact panicked
  · rcases Machine.unquiet_steps T world kept.inv quiet with ⟨action, cache, allows, taken⟩
    refine ⟨.advance action, { state with cache := cache }, allows, ?_⟩
    simp [step, allowed_advances allows, taken]

/-- Every run of the server is bounded by its requests. From every state that it reaches
the requests under way can be brought to their ends, whatever the upstreams and the disk
do, every event brings them nearer, and nothing is stuck before all of them have ended. -/
theorem requests_end (world : World)
    (reached : Transition.run (step app showTimestamp metadata) (initial capacity slots positive)
      events = some state) :
    events.length + state.left ≤ events.countP Event.arrives * eventBound slots ∧
      (∃ later final, (∀ event ∈ later, Serves world (event : Event T)) ∧
        Transition.run (step app showTimestamp metadata) state later = some final ∧
        Drained capacity final ∧ later.length ≤ state.left) ∧
      ∀ later final, (∀ event ∈ later, Serves world (event : Event T)) →
        Transition.run (step app showTimestamp metadata) state later = some final →
          later.length + final.left ≤ state.left ∧
          ((∀ event : Event T, Serves world event →
            step app showTimestamp metadata final event = none) → Drained capacity final) := by
  have paid (middle : State) (event : Event T) (after : State)
      (earlier : Transition.Reachable (step app showTimestamp metadata)
        (initial capacity slots positive) middle)
      (taken : step app showTimestamp metadata middle event = some after) :
      1 + after.left ≤ middle.left + if event.arrives then eventBound slots else 0 := by
    rcases earlier with ⟨_, earlier⟩
    have kept := run_kept earlier
    rcases step_moves taken with ⟨more, move⟩
    rw [← kept.slots]
    exact move_left kept.inv move
  refine ⟨?_, ?_, ?_⟩
  · have bound := Transition.count_bounded State.left (fun _ : Event T => true) Event.arrives
      (eventBound slots) paid reached
    rw [List.countP_true] at bound
    exact bound.trans (Nat.le_of_eq (Nat.zero_add _))
  · have progress (middle : State)
        (earlier : Transition.Reachable (step app showTimestamp metadata)
          (initial capacity slots positive) middle) (busy : ¬ Drained capacity middle) :
        ∃ (event : Event T) (after : State), Serves world event ∧
          step app showTimestamp metadata middle event = some after ∧
          Transition.Reachable (step app showTimestamp metadata)
            (initial capacity slots positive) after ∧ after.left < middle.left := by
      have kept := earlier.elim fun _ earlier => run_kept earlier
      rcases undrained_steps app showTimestamp metadata world kept busy with
        ⟨event, after, serves, taken⟩
      have spent := paid middle event after earlier taken
      rw [serves_arrives serves] at spent
      simp only [Bool.false_eq_true, if_false] at spent
      exact ⟨event, after, serves, taken, Transition.reachable_step earlier taken, by omega⟩
    rcases Transition.drains State.left _ (Drained capacity) (Serves world) progress state
      ⟨events, reached⟩ with ⟨later, final, serves, onward, -, drained, short⟩
    exact ⟨later, final, serves, onward, drained, short⟩
  · intro later final serves onward
    have joined {before : List (Event T)} {middle : State}
        (earlier : Transition.run (step app showTimestamp metadata) state before = some middle) :
        Transition.run (step app showTimestamp metadata) (initial capacity slots positive)
          (events ++ before) = some middle := by
      rw [Transition.run_append, reached]
      exact earlier
    constructor
    · have bound := Transition.count_bounded State.left (fun _ : Event T => true) Event.arrives
        (eventBound slots) (fun middle event after earlier taken =>
          paid middle event after (earlier.elim fun _ earlier => ⟨_, joined earlier⟩) taken) onward
      have none : later.countP Event.arrives = 0 := by
        apply List.countP_eq_zero.mpr
        intro event member
        rw [serves_arrives (serves event member)]
        exact Bool.false_ne_true
      rw [List.countP_true, none] at bound
      omega
    · intro stuck
      by_contra busy
      rcases undrained_steps app showTimestamp metadata world (run_kept (joined onward)) busy with
        ⟨event, after, allowed, taken⟩
      rw [stuck event allowed] at taken
      cases taken

/-- Two clients ask for a page, and one has the lock of the map. -/
def arrivingEvents : List (Event LiteralTree) :=
  [.arrive "GET" [] "/a" epoch, .arrive "HEAD" [] "/a" epoch, .advance (.acquire 0)]

theorem requests_end_arriving :
    ∃ (app : AppState UpstreamConfig LiteralTree) (state final : State)
      (later : List (Event LiteralTree)),
      mainState some (twoBuckets "files") = some app ∧ state.waitingCount = 2 ∧
      Transition.run (step app (fun _ => "") ⟨true, true, none⟩) state later = some final ∧
      Drained 10 final := by
  have run : ∃ app : AppState UpstreamConfig LiteralTree,
      mainState some (twoBuckets "files") = some app ∧
      ∃ state, Transition.run (step app (fun _ => "") ⟨true, true, none⟩)
          (initial 10 2 (by decide)) arrivingEvents = some state ∧ state.waitingCount = 2 :=
    ⟨_, rfl, _, rfl, rfl⟩
  rcases run with ⟨app, accepted, state, reached, waiting⟩
  rcases (requests_end Machine.oneWorld reached).2.1 with ⟨later, final, -, onward, drained, -⟩
  exact ⟨app, state, final, later, accepted, waiting, onward, drained⟩

end Progress

end Server3.Service
