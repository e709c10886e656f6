import Server3.MachineEffects
import Server3.Residency

/-! Where served content comes from: every cell, resident or not, holds the whole
body and the headers of one answer for the key it was allocated for. -/

namespace Server3.Machine

open Clock Routes Upstream Resource Recency

variable {T : Type → Type} {capacity : UInt64} {state next : State} {id : TaskId} {task : Task}
  {action : Action T} {actions later : List (Action T)}

/-- The upstream answered the get with these headers and this whole body. -/
def AnsweredWith (actions : List (Action T)) (id : TaskId) (headers : UpstreamResourceHeaders)
    (content : Bytes) : Prop :=
  ∃ resource, .answer id (.ok (some resource)) ∈ actions ∧ resource.body.error = none ∧
    resource.headers = headers ∧ resource.body.content = content

def Sourced (actions : List (Action T)) (state : State) (key : CachedResourceKey)
    (headers : UpstreamResourceHeaders) (content : Bytes) : Prop :=
  ∃ source task, state.tasks[source]? = some task ∧ task.key = key ∧
    AnsweredWith actions source headers content

/-- What the place of a get says about where its content comes from. -/
def PcSourced (actions : List (Action T)) (state : State) (id : TaskId)
    (key : CachedResourceKey) : Pc → Prop
  | .storing _ resource => .answer id (.ok (some resource)) ∈ actions
  | .reserving _ fetched _ | .evictLock _ fetched | .popping _ fetched | .evicting _ fetched _
  | .reservingUpTo _ fetched | .granted _ fetched _ _ =>
      AnsweredWith actions id fetched.headers fetched.file.content
  | .finished (.ok (some response)) =>
      response.outcome = .never ∨ ∃ file, response.body = .file file ∧
        Sourced actions state key response.headers file.content
  | _ => True

structure Provenance (actions : List (Action T)) (state : State) : Prop where
  tasks : ∀ (id : TaskId) task, state.tasks[id]? = some task →
    PcSourced actions state id task.key task.pc
  cells : ∀ cell key resource, state.keyAt cell = some key →
    state.cellAt cell = some (.filled resource) →
      Sourced actions state key resource.headers resource.file.content

theorem answered_later {headers : UpstreamResourceHeaders} {content : Bytes}
    (longer : actions ⊆ later) (answered : AnsweredWith actions id headers content) :
    AnsweredWith later id headers content := by
  rcases answered with ⟨resource, member, rest⟩
  exact ⟨resource, longer member, rest⟩

def Keeps (state next : State) : Prop :=
  ∀ (id : TaskId) task, state.tasks[id]? = some task →
    ∃ pc, next.tasks[id]? = some { task with pc := pc }

theorem sourced_later {key : CachedResourceKey} {headers : UpstreamResourceHeaders}
    {content : Bytes} (keeps : Keeps state next) (longer : actions ⊆ later)
    (sourced : Sourced actions state key headers content) :
    Sourced later next key headers content := by
  rcases sourced with ⟨source, task, present, same, answered⟩
  rcases keeps source task present with ⟨pc, kept⟩
  exact ⟨source, _, kept, same, answered_later longer answered⟩

theorem pc_sourced_later {key : CachedResourceKey} {pc : Pc} (keeps : Keeps state next)
    (longer : actions ⊆ later) (sourced : PcSourced actions state id key pc) :
    PcSourced later next id key pc := by
  cases pc with
  | storing cell resource => exact longer sourced
  | reserving cell fetched locked => exact answered_later longer sourced
  | evictLock cell fetched => exact answered_later longer sourced
  | popping cell fetched => exact answered_later longer sourced
  | evicting cell fetched victim => exact answered_later longer sourced
  | reservingUpTo cell fetched => exact answered_later longer sourced
  | granted cell fetched reservation locked => exact answered_later longer sourced
  | finished result =>
      match result with
      | .error _ => trivial
      | .ok none => trivial
      | .ok (some response) =>
          rcases sourced with never | ⟨file, body, found⟩
          · exact Or.inl never
          · exact Or.inr ⟨file, body, sourced_later keeps longer found⟩
  | _ => trivial

theorem move_sourced (inv : Inv capacity state) (present : state.tasks[id]? = some task)
    (before : Provenance actions state) (move : Move state id task action next) :
    ∃ pc, next.tasks = state.tasks.set id { task with pc := pc } ∧
      PcSourced (actions ++ [action]) state id task.key pc := by
  have earlier := before.tasks id task present
  have last : action ∈ actions ++ [action] := by simp
  have longer : actions ⊆ actions ++ [action] := List.subset_append_left _ _
  cases move with
  | acquireLookup stage unlocked => exact ⟨_, rfl, trivial⟩
  | acquireEvict cell fetched stage unlocked =>
      rw [stage] at earlier
      exact ⟨_, rfl, answered_later longer earlier⟩
  | lookup stage => exact ⟨_, State.releaseOption_tasks _, trivial⟩
  | joinFilled cell resource stage found => exact ⟨_, rfl, trivial⟩
  | joinEmpty cell stage found => exact ⟨_, rfl, trivial⟩
  | answerNever answer stage =>
      refine ⟨_, rfl, ?_⟩
      match answer with
      | .error _ => trivial
      | .ok none => trivial
      | .ok (some resource) => exact Or.inl rfl
  | answerFound cell resource stage => exact ⟨_, rfl, last⟩
  | answerNone cell stage => exact ⟨_, State.abandon_tasks _ _ _, trivial⟩
  | answerError cell failure stage => exact ⟨_, State.abandon_tasks _ _ _, trivial⟩
  | storeOk cell resource diskError file stage stored =>
      rw [stage] at earlier
      have whole := store_ok stored
      exact ⟨_, rfl, resource, longer earlier, whole.2.1, rfl, whole.1.symm⟩
  | storeError cell resource diskError failure stage stored =>
      exact ⟨_, State.abandon_tasks _ _ _, trivial⟩
  | reserveGranted cell fetched locked pool reservation stage granted =>
      rw [stage] at earlier
      exact ⟨_, rfl, answered_later longer earlier⟩
  | reserveFailed cell fetched locked stage refused =>
      rw [stage] at earlier
      cases locked <;> exact ⟨_, rfl, answered_later longer earlier⟩
  | popEntry cell fetched key victim rest stage popped =>
      rw [stage] at earlier
      exact ⟨_, rfl, answered_later longer earlier⟩
  | popNothing cell fetched stage exhausted =>
      rw [stage] at earlier
      exact ⟨_, rfl, answered_later longer earlier⟩
  | evict cell fetched victim stage =>
      rw [stage] at earlier
      exact ⟨_, State.release_tasks _ _, answered_later longer earlier⟩
  | reserveUpTo cell fetched pool reservation stage granted =>
      rw [stage] at earlier
      exact ⟨_, rfl, answered_later longer earlier⟩
  | unlock cell fetched reservation stage =>
      rw [stage] at earlier
      exact ⟨_, rfl, answered_later longer earlier⟩
  | fill cell fetched reservation clock stage => exact ⟨_, rfl, trivial⟩
  | count cell resource stage => exact ⟨_, rfl, trivial⟩
  | respond cell resource cloneError result stage shape =>
      refine ⟨_, State.release_tasks _ _, ?_⟩
      subst shape
      cases cloneError with
      | some message => trivial
      | none =>
          have valid := inv.tasks id task present
          have filled := valid.stage
          have own := (valid.own cell (by rw [stage]; rfl)).1
          rw [stage] at filled
          -- the response is the content of the cell, which is of the key of the get
          have found := before.cells cell task.key resource own filled
          exact Or.inr ⟨resource.file, rfl,
            sourced_later (fun _ other kept => ⟨other.pc, kept⟩) longer found⟩
  | cancelIdle stage => exact ⟨_, rfl, trivial⟩
  | cancelJoined cell stage => exact ⟨_, State.release_tasks _ _, trivial⟩
  | cancelInit cell stage => exact ⟨_, State.abandon_tasks _ _ _, trivial⟩

theorem provenance_move (inv : Inv capacity state) (present : state.tasks[id]? = some task)
    (before : Provenance actions state) (move : Move state id task action next) :
    Provenance (actions ++ [action]) next := by
  have longer : actions ⊆ actions ++ [action] := List.subset_append_left _ _
  have keeps : Keeps state next := fun _ _ found => move_kept present move found
  rcases move_sourced inv present before move with ⟨pc, tasks, sourced⟩
  constructor
  · intro other found after
    rcases task_after present tasks after with ⟨rfl, rfl⟩ | ⟨_, unchanged⟩
    · exact pc_sourced_later keeps (List.Subset.refl _) sourced
    · exact pc_sourced_later keeps longer (before.tasks other found unchanged)
  · intro cell key resource known filled
    rcases move_filled move filled with old | ⟨fetched, reservation, clock, _, stage, rfl⟩
    · rcases move_keyAt inv move known with same | ⟨fresh, _, _⟩
      · exact sourced_later keeps longer (before.cells cell key resource same old)
      · have present := known_of_cell old
        rw [fresh] at present
        cases present
    · have valid := inv.tasks id task present
      have own := (valid.own cell (by rw [stage]; rfl)).1
      rcases move_keyAt inv move known with same | ⟨fresh, _, _⟩
      · rw [own, Option.some.injEq] at same
        have earlier := before.tasks id task present
        rw [stage] at earlier
        exact sourced_later keeps longer ⟨id, task, present, same, earlier⟩
      · rw [own] at fresh
        cases fresh

theorem provenance_start [PathTree T] (before : Provenance actions state) (cache : Cache T)
    (path : String) (now : Instant) :
    Provenance (actions ++ [.start cache path now]) (state.start cache path now) := by
  rcases start_started state cache path now with ⟨fresh, started⟩
  have longer : actions ⊆ actions ++ [.start cache path now] := List.subset_append_left _ _
  have keeps : Keeps state (state.start cache path now) := by
    intro id task present
    rw [started.tasks]
    exact ⟨task.pc, Arena.get_append_old _ present⟩
  constructor
  · intro id task present
    rw [started.tasks] at present
    rcases Arena.get_append_cases present with old | ⟨_, rfl⟩
    · exact pc_sourced_later keeps longer (before.tasks id task old)
    · rcases started.stage with ⟨stage, _⟩ | ⟨stage, _⟩ | ⟨stage, _⟩ | ⟨stage, _⟩ <;> rw [stage] <;> trivial
  · intro cell key resource known filled
    rw [started.keyAt] at known
    rw [started.cellAt] at filled
    exact sourced_later keeps longer (before.cells cell key resource known filled)

theorem run_provenance [PathTree T] {slots : Nat} {positive : 0 < slots}
    (reached : Transition.run step (initial capacity slots positive) actions = some state) :
    Provenance actions state := by
  refine Transition.run_induction Provenance ?_ ?_ reached
  · constructor
    · intro id task present
      simp [initial] at present
    · intro cell key resource known
      simp [initial, State.keyAt] at known
  · intro actions state action next earlier before taken
    rcases step_moves taken with ⟨cache, path, now, rfl, rfl⟩ | ⟨id, task, present, move⟩
    · exact provenance_start before cache path now
    · exact provenance_move (run_inv earlier) present before move

/-- The response has the headers of the upstream resource and its whole body. The reads that
exhaust the file end the body, and a client that takes it to its end gets every byte. -/
structure Delivers (response : CachedResourceResponse) (resource : UpstreamResource) : Prop where
  headers : response.headers = resource.headers
  whole : resource.body.error = none
  body : ∃ file, response.body = .file file ∧ file.content = resource.body.content ∧
    ∀ reads, ((streamFile file 0 reads).ended = true ↔
        Exhausts reads resource.body.content.length) ∧
      ((streamFile file 0 reads).ended = true →
        (streamFile file 0 reads).sent = resource.body.content)

theorem delivers_of_answered {response : CachedResourceResponse} {resource : UpstreamResource}
    {file : File} (headers : resource.headers = response.headers)
    (whole : resource.body.error = none) (body : response.body = .file file)
    (content : resource.body.content = file.content) : Delivers response resource := by
  refine ⟨headers.symm, whole, file, body, content.symm, ?_⟩
  intro reads
  rw [content]
  refine ⟨stream_ended file 0 reads, ?_⟩
  intro ended
  rw [stream_complete file 0 reads ended, List.drop_zero]

/-- Every successful answer of the run is what a fixed upstream has for its key. -/
def AnswersFrom (upstream : CachedResourceKey → UpstreamResource) (actions : List (Action T)) :
    Prop :=
  ∀ (source : TaskId) request resource, (requests actions)[source]? = some request →
    .answer source (.ok (some resource)) ∈ actions → resource = upstream request.key

/-- A hit or miss carries one successful answer to a get of the same host key and
path, and with a fixed upstream what that upstream has for them. -/
theorem served_content_sourced [PathTree T] {slots : Nat} {positive : 0 < slots}
    {response : CachedResourceResponse}
    (reached : Transition.run step (initial capacity slots positive) actions = some state)
    (present : state.tasks[id]? = some task) (finished : task.pc = .finished (.ok (some response)))
    (served : response.outcome = .hit ∨ response.outcome = .miss) :
    ∃ request, (requests actions)[id]? = some request ∧
      (∃ (source : TaskId) (asked : Request T) (resource : UpstreamResource),
        (requests actions)[source]? = some asked ∧
        asked.cache.hostKey = request.cache.hostKey ∧ asked.path = request.path ∧
        .answer source (.ok (some resource)) ∈ actions ∧ Delivers response resource) ∧
      ∀ upstream, AnswersFrom upstream actions → Delivers response (upstream request.key) := by
  rcases task_request reached present with ⟨request, requested, key, _⟩
  have provenance := (run_provenance reached).tasks id task present
  rw [finished] at provenance
  have found : ∃ file, response.body = .file file ∧
      Sourced actions state task.key response.headers file.content := by
    rcases provenance with never | found
    · rw [never] at served
      simp at served
    · exact found
  rcases found with ⟨file, body, source, asker, member, same, resource, answered, whole, headers,
    content⟩
  rcases task_request reached member with ⟨asked, askedFor, askedKey, _⟩
  have equal : asked.key = request.key := askedKey.trans (same.trans key.symm)
  have delivers : Delivers response resource :=
    delivers_of_answered headers whole body content
  refine ⟨request, requested, ⟨source, asked, resource, askedFor, congrArg CachedResourceKey.host equal,
    congrArg CachedResourceKey.path equal, answered, delivers⟩, ?_⟩
  intro upstream fixed
  rw [← equal, ← fixed source asked resource askedFor answered]
  exact delivers

/-- The body of the first answer breaks off; the waiting get fetches again, and the
third get is served from its file. -/
def retriedActions : List (Action LiteralTree) :=
  fetchActions plainCache "/a" epoch 0
      (.ok (some ⟨⟨none⟩, ⟨[[1, 2]], some "connection reset"⟩⟩)) ++
    [.start plainCache "/a" epoch, .acquire 1, .lookup 1, .store 0 none, .join 1,
      .answer 1 (plainBody [1, 2, 3])] ++ fillActions 1 ⟨epoch, ⟨0⟩⟩ ++
    [.start plainCache "/a" epoch, .acquire 2, .lookup 2, .join 2] ++ respondActions 2

def retriedResponse : CachedResourceResponse :=
  ⟨⟨some "text/plain"⟩, .file ⟨[1, 2, 3], by decide⟩, .hit, none⟩

theorem served_content_sourced_retried :
    ∃ source resource, .answer source (.ok (some resource)) ∈ retriedActions ∧
      Delivers retriedResponse resource := by
  have responses : ((Transition.run step (initial 10 2 (by decide)) retriedActions).bind
      fun state => (state.tasks[2]?).map Task.pc) =
        some (.finished (.ok (some retriedResponse))) := rfl
  rcases Option.bind_eq_some_iff.mp responses with ⟨state, reached, ended⟩
  rcases Option.map_eq_some_iff.mp ended with ⟨task, present, finished⟩
  rcases served_content_sourced reached present finished (Or.inl rfl) with
    ⟨_, _, ⟨source, _, resource, _, _, _, answered, delivers⟩, _⟩
  exact ⟨source, resource, answered, delivers⟩

end Server3.Machine
