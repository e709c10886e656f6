import Server3.Classification
import Server3.Freshness

/-! What a response says about itself: every cached resource was made by one get, from the
rule of its own request, its own answer and the clocks when it filled its cell. -/

namespace Server3.Machine

open Clock Routes Upstream Resource Recency

variable {T : Type → Type} [PathTree T] {capacity : UInt64} {slots : Nat} {positive : 0 < slots}
  {state next : State} {id : TaskId} {task : Task} {action : Action T} {actions : List (Action T)}
  {key : CachedResourceKey} {resource : CachedResource} {response : CachedResourceResponse}

/-- The get that made the resource: its request, and the clocks when it filled its cell. -/
structure Birth (actions : List (Action T)) (key : CachedResourceKey) (resource : CachedResource)
    (request : Request T) (clock : ClockReading) : Prop where
  asked : (requests actions)[resource.id]? = some request
  key : request.key = key
  planned : request.plan = .cached resource.expiresAt
  clocked : .fill resource.id clock ∈ actions
  timestamp : resource.expiresAtTimestamp = expiresAtTimestamp resource.expiresAt clock
  answered : AnsweredWith actions resource.id resource.headers resource.file.content

def Born (actions : List (Action T)) (key : CachedResourceKey) (resource : CachedResource) : Prop :=
  ∃ request clock, Birth actions key resource request clock

def PlannedFor (actions : List (Action T)) (id : TaskId) (task : Task) : Prop :=
  ∃ request, (requests actions)[id]? = some request ∧ request.key = task.key ∧
    request.plan = .cached task.expiresAfter

structure Births (actions : List (Action T)) (state : State) : Prop where
  planned : ∀ (id : TaskId) task, state.tasks[id]? = some task → task.pc.caches = true →
    PlannedFor actions id task
  cells : ∀ cell key resource, state.keyAt cell = some key →
    state.cellAt cell = some (.filled resource) → Born actions key resource
  served : ∀ (id : TaskId) task response, state.tasks[id]? = some task →
    task.pc = .finished (.ok (some response)) → response.outcome ≠ .never →
      ∃ resource, Born actions task.key resource ∧ response = resource.response id

omit [PathTree T] in
theorem requested_later {request : Request T} (asked : (requests actions)[id]? = some request)
    (action : Action T) : (requests (actions ++ [action]))[id]? = some request := by
  rw [requests, List.filterMap_append]
  exact Arena.get_append_old _ asked

theorem planned_later (planned : PlannedFor actions id task) (action : Action T) :
    PlannedFor (actions ++ [action]) id task := by
  rcases planned with ⟨request, asked, rest⟩
  exact ⟨request, requested_later asked action, rest⟩

theorem born_later (born : Born actions key resource) (action : Action T) :
    Born (actions ++ [action]) key resource := by
  rcases born with ⟨request, clock, birth⟩
  exact ⟨request, clock, requested_later birth.asked action, birth.key, birth.planned,
    List.mem_append_left _ birth.clocked, birth.timestamp,
    answered_later (List.subset_append_left _ _) birth.answered⟩

theorem filled_born {cell : CellId} {fetched : Fetched} {clock : ClockReading}
    {reservation : CapacityPool.CacheCapacityReservation}
    (present : state.tasks[id]? = some task) (provenance : Provenance actions state)
    (births : Births actions state) (stage : task.pc = .granted cell fetched reservation false) :
    Born (actions ++ [.fill id clock]) task.key (task.resource id fetched reservation clock) := by
  have caches : task.pc.caches = true := by rw [stage]; rfl
  rcases births.planned id task present caches with ⟨request, asked, same, planned⟩
  have answered := provenance.tasks id task present
  rw [stage] at answered
  have last : .fill id clock ∈ actions ++ [.fill id clock] :=
    List.mem_append_right _ (List.mem_singleton_self _)
  exact ⟨request, clock, requested_later asked _, same, planned, last, rfl,
    answered_later (List.subset_append_left _ _) answered⟩

theorem births_move (inv : Inv capacity state) (present : state.tasks[id]? = some task)
    (provenance : Provenance actions state) (births : Births actions state)
    (move : Move state id task action next) : Births (actions ++ [action]) next := by
  rcases move_caches move with ⟨pc, tasks, caches, ends⟩
  constructor
  · intro other found after place
    rcases task_after present tasks after with ⟨rfl, rfl⟩ | ⟨-, before⟩
    · exact planned_later (births.planned other task present (caches place)) action
    · exact planned_later (births.planned other found before place) action
  · intro cell key resource known filled
    rcases move_filled move filled with old | ⟨fetched, reservation, clock, rfl, stage, rfl⟩
    · rcases move_keyAt inv move known with same | ⟨fresh, -, -⟩
      · exact born_later (births.cells cell key resource same old) action
      · have before := known_of_cell old
        rw [fresh] at before
        cases before
    · have own := ((inv.tasks id task present).own cell (by rw [stage]; rfl)).1
      have same : next.keyAt cell = some task.key := move_keeps_key move own
      rw [known, Option.some.injEq] at same
      rw [same]
      exact filled_born present provenance births stage
  · intro other found response after finished served
    rcases task_after present tasks after with ⟨rfl, rfl⟩ | ⟨-, before⟩
    · rcases ends response finished with ⟨answered, -, rfl⟩ | ⟨cell, resource, stage, rfl⟩
      · exact absurd rfl served
      · have valid := inv.tasks other task present
        have filled := valid.stage
        have own := (valid.own cell (by rw [stage]; rfl)).1
        rw [stage] at filled
        exact ⟨resource, born_later (births.cells cell task.key resource own filled) action, rfl⟩
    · rcases births.served other found response before finished served with ⟨resource, born, same⟩
      exact ⟨resource, born_later born action, same⟩

theorem births_start (births : Births actions state)
    (reached : Transition.run step (initial capacity slots positive) actions = some state)
    (cache : Cache T) (path : String) (now : Instant) :
    Births (actions ++ [.start cache path now]) (state.start cache path now) := by
  rcases start_started state cache path now with ⟨fresh, started⟩
  constructor
  · intro id task present place
    rw [started.tasks] at present
    rcases Arena.get_append_cases present with old | ⟨last, rfl⟩
    · exact planned_later (births.planned id task old place) _
    · have count := run_count reached
      refine ⟨⟨cache, path, now⟩, ?_, ?_, ?_⟩
      · rw [requests, List.filterMap_append, last, count]
        exact Arena.get_append_new _ _
      · rw [Request.key, Cache.key, Task.key, started.host, started.requested]
      · rcases started.stage with ⟨-, planned⟩ | ⟨stage, -⟩ | ⟨stage, -⟩ | ⟨stage, -⟩
        · exact planned
        · simp [stage, Pc.caches] at place
        · simp [stage, Pc.caches] at place
        · simp [stage, Pc.caches] at place
  · intro cell key resource known filled
    rw [started.keyAt] at known
    rw [started.cellAt] at filled
    exact born_later (births.cells cell key resource known filled) _
  · intro id task response present finished served
    rw [started.tasks] at present
    rcases Arena.get_append_cases present with old | ⟨-, rfl⟩
    · rcases births.served id task response old finished served with ⟨resource, born, same⟩
      exact ⟨resource, born_later born _, same⟩
    · rcases started.stage with ⟨stage, -⟩ | ⟨stage, -⟩ | ⟨stage, -⟩ | ⟨stage, -⟩ <;>
        rw [stage] at finished <;> cases finished

theorem run_births
    (reached : Transition.run step (initial capacity slots positive) actions = some state) :
    Births actions state := by
  refine Transition.run_induction Births ?_ ?_ reached
  · constructor
    · intro id task present
      simp [initial] at present
    · intro cell key resource known
      simp [initial, State.keyAt] at known
    · intro id task response present
      simp [initial] at present
  · intro actions state action next earlier before taken
    rcases step_moves taken with ⟨cache, path, now, rfl, rfl⟩ | ⟨id, task, present, move⟩
    · exact births_start before earlier cache path now
    · exact births_move (run_inv earlier) present (run_provenance earlier) before move

/-- The get named as the source of a response: it was asked for the same key, filled its
cell, and its answer is what the response delivers. -/
structure Source (actions : List (Action T)) (response : CachedResourceResponse)
    (key : CachedResourceKey) (source : TaskId) (request : Request T) (expiresAt : Option Instant)
    (clock : ClockReading) : Prop where
  asked : (requests actions)[source]? = some request
  key : request.key = key
  planned : request.plan = .cached expiresAt
  filled : .fill source clock ∈ actions
  answered : ∃ resource, .answer source (.ok (some resource)) ∈ actions ∧ Delivers response resource

omit [PathTree T] in
theorem response_delivers {source : TaskId}
    (answered : AnsweredWith actions source resource.headers resource.file.content) :
    ∃ upstream, .answer source (.ok (some upstream)) ∈ actions ∧
      Delivers (resource.response id) upstream := by
  rcases answered with ⟨upstream, member, whole, headers, content⟩
  exact ⟨upstream, member, delivers_of_answered headers whole rfl content⟩

theorem served_source
    (reached : Transition.run step (initial capacity slots positive) actions = some state)
    (present : state.tasks[id]? = some task)
    (finished : task.pc = .finished (.ok (some response))) (served : response.outcome ≠ .never) :
    ∃ source request expiresAt clock,
      Source actions response task.key source request expiresAt clock ∧
        response.outcome = (if source = id then .miss else .hit) ∧
        response.expiresAt = expiresAtTimestamp expiresAt clock := by
  rcases (run_births reached).served id task response present finished served with
    ⟨resource, ⟨request, clock, birth⟩, rfl⟩
  refine ⟨resource.id, request, resource.expiresAt, clock, ?_, ?_, birth.timestamp⟩
  · exact ⟨birth.asked, birth.key, birth.planned, birth.clocked, response_delivers birth.answered⟩
  · simp only [CachedResource.response, eq_comm]

theorem response_planned {request : Request T}
    (reached : Transition.run step (initial capacity slots positive) actions = some state)
    (present : state.tasks[id]? = some task) (asked : (requests actions)[id]? = some request)
    (finished : task.pc = .finished (.ok (some response))) :
    request.plan = .never ∧ response.outcome = .never ∨
      (∃ expiresAt, request.plan = .cached expiresAt) ∧ response.outcome ≠ .never := by
  have told := ((run_classified reached).gets id task request present asked).told
  rw [finished] at told
  cases planned : request.plan with
  | unrouted | panicked =>
      rw [planned] at told
      cases told
  | never =>
      rw [planned] at told
      rcases told with ⟨answer, -, given⟩
      rcases answer with failure | (_ | resource)
      · cases given
      · cases given
      · cases given
        exact Or.inl ⟨rfl, rfl⟩
  | cached expiresAt =>
      rw [planned] at told
      refine Or.inr ⟨⟨expiresAt, rfl⟩, ?_⟩
      intro never
      have outcome := told.2
      simp only [responseOutcome, never] at outcome
      split at outcome <;> cases outcome

theorem plan_never {rule : CacheRouteRule} {now : Instant} :
    Resource.plan rule now = .never ↔ rule = .enabled ⟨.cacheNever⟩ := by
  unfold Resource.plan
  split
  · simp
  · simp
  · split <;> simp
  · simp

/-- A response tells the truth about itself. Under `CacheNever` it is the answer to this get
passed on. Otherwise one get of the key made its headers, its body and the time it
expires, and it is called a miss exactly when that get is this one. -/
theorem responses_truthful
    (reached : Transition.run step (initial capacity slots positive) actions = some state)
    (present : state.tasks[id]? = some task)
    (finished : task.pc = .finished (.ok (some response))) :
    ∃ own, (requests actions)[id]? = some own ∧ own.key = task.key ∧
      (own.rule = .enabled ⟨.cacheNever⟩ ∧ response.outcome = .never ∧ (∃ resource,
          .answer id (.ok (some resource)) ∈ actions ∧ response = passedOn resource) ∨
        own.rule ≠ .enabled ⟨.cacheNever⟩ ∧ ∃ source request expiresAt clock,
          Source actions response task.key source request expiresAt clock ∧
            response.outcome = (if source = id then .miss else .hit) ∧
            response.expiresAt = expiresAtTimestamp expiresAt clock) := by
  rcases task_request reached present with ⟨own, asked, key, -⟩
  refine ⟨own, asked, key, ?_⟩
  rcases response_planned reached present asked finished with
    ⟨planned, never⟩ | ⟨⟨expiresAt, planned⟩, served⟩
  · exact Or.inl ⟨plan_never.mp planned, never,
      (run_origins reached).passed id task response present finished never⟩
  · refine Or.inr ⟨?_, served_source reached present finished served⟩
    intro ruled
    rw [Request.plan, plan_never.mpr ruled] at planned
    cases planned

def waitedResponse : CachedResourceResponse :=
  (newResource 0 (some ⟨2 * 10^9, by decide⟩) "files" ⟨some "text/plain"⟩ ⟨[1], by decide⟩ ⟨1⟩
    ⟨epoch, ⟨0⟩⟩).response 1

theorem waited_run : ((Transition.run step (initial 10 2 (by decide))
    (waitingActions oneSecond)).bind fun state => (state.tasks[1]?).map fun task =>
      (task.key, task.pc)) =
        some (⟨"files", "/a"⟩, .finished (.ok (some waitedResponse))) := rfl

theorem responses_truthful_waiting :
    ∃ source request expiresAt clock,
      Source (waitingActions oneSecond) waitedResponse ⟨"files", "/a"⟩ source request expiresAt
          clock ∧
        waitedResponse.outcome = (if source = 1 then .miss else .hit) ∧
        waitedResponse.expiresAt = expiresAtTimestamp expiresAt clock := by
  rcases Option.bind_eq_some_iff.mp waited_run with ⟨state, reached, ended⟩
  rcases Option.map_eq_some_iff.mp ended with ⟨task, present, place⟩
  obtain ⟨key, finished⟩ := Prod.mk.inj place
  rcases responses_truthful reached present finished with
    ⟨own, -, -, ⟨-, never, -⟩ | ⟨-, served⟩⟩
  · cases never
  · exact key ▸ served

/-- The wall clock runs with the monotonic clock, so many nanoseconds ahead. -/
def InStep (ahead : Int) (actions : List (Action T)) : Prop :=
  ∀ (id : TaskId) clock, .fill id clock ∈ actions →
    clock.timestamp.nanos = clock.instant.nanos + ahead

theorem timestamp_in_step {clock : ClockReading} {ahead : Int} (instant : Instant)
    (inStep : clock.timestamp.nanos = clock.instant.nanos + ahead) :
    expiresAtTimestamp (some instant) clock =
      if max (instant.nanos : Int) clock.instant.nanos + ahead < timestampLimit then
        some ⟨max (instant.nanos : Int) clock.instant.nanos + ahead⟩
      else none := by
  have sum : clock.timestamp.nanos + (instant.saturatingDurationSince clock.instant : Nat) =
      max (instant.nanos : Int) clock.instant.nanos + ahead := by
    rw [inStep, Instant.saturatingDurationSince]
    omega
  simp only [expiresAtTimestamp, Option.bind_some, Timestamp.checkedAdd, sum]

/-- With clocks in step, the time that a response announces is on the wall clock the end of
the life that the rule of its source gave it, or the time it was cached if that was later.
It announces none exactly if its life has no end, or one beyond the last timestamp. -/
theorem expiry_announced {ahead : Int}
    (reached : Transition.run step (initial capacity slots positive) actions = some state)
    (present : state.tasks[id]? = some task)
    (finished : task.pc = .finished (.ok (some response)))
    (served : response.outcome ≠ .never) (inStep : InStep ahead actions) :
    ∃ source request expiresAt clock,
      Source actions response task.key source request expiresAt clock ∧
        (∀ announced, response.expiresAt = some announced ↔ ∃ instant, expiresAt = some instant ∧
          announced.nanos = max (instant.nanos : Int) clock.instant.nanos + ahead ∧
          announced.nanos < timestampLimit) := by
  rcases served_source reached present finished served with
    ⟨source, request, expiresAt, clock, made, -, told⟩
  refine ⟨source, request, expiresAt, clock, made, ?_⟩
  intro announced
  rw [told]
  cases expiresAt with
  | none => simp [expiresAtTimestamp]
  | some instant =>
      rw [timestamp_in_step instant (inStep source clock made.filled)]
      obtain ⟨nanos⟩ := announced
      split <;> simp <;> omega

theorem expiry_announced_waiting :
    waitedResponse.expiresAt = some ⟨2 * 10^9⟩ ∧ ∃ source request expiresAt clock,
      Source (waitingActions oneSecond) waitedResponse ⟨"files", "/a"⟩ source request expiresAt
          clock ∧
        ∀ announced, waitedResponse.expiresAt = some announced ↔ ∃ instant : Instant,
          expiresAt = some instant ∧
            announced.nanos = max (instant.nanos : Int) clock.instant.nanos + 0 ∧
            announced.nanos < timestampLimit := by
  rcases Option.bind_eq_some_iff.mp waited_run with ⟨state, reached, ended⟩
  rcases Option.map_eq_some_iff.mp ended with ⟨task, present, place⟩
  obtain ⟨key, finished⟩ := Prod.mk.inj place
  have inStep : InStep 0 (waitingActions oneSecond) := by
    intro id clock member
    simp only [waitingActions, fetchActions, fillActions, respondActions, List.mem_append,
      List.mem_cons, List.not_mem_nil, or_false, reduceCtorEq, false_or, Action.fill.injEq] at member
    rw [member.2]
    rfl
  exact ⟨by decide, key ▸ expiry_announced reached present finished (by decide) inStep⟩

end Server3.Machine
