import Server3.SharedFiles

/-! Cached bodies are reproduced exactly. In a run of the whole system each stream is a
run of its own over the file of one answer, whatever the cache and the other streams do. -/

namespace Server3.SharedFiles

open Clock Routes Upstream Resource Streaming
open Machine (State Task TaskId CellId Pc Cell Move Fetched)

variable {T : Type → Type} {actions : List (Action T)} {action : Action T}
  {system next : System} {id : StreamId} {stream : Stream}

@[simp] theorem cacheActions_snoc :
    cacheActions (actions ++ [action]) = cacheActions actions ++ action.cached.toList := by
  cases action <;> simp [cacheActions, Action.cached]

@[simp] theorem events_snoc :
    events id (actions ++ [action]) = events id actions ++ (action.eventOf id).toList := by
  rw [events, List.filterMap_append]
  cases found : action.eventOf id <;> simp [found, events]

theorem mem_cacheActions {cached : Machine.Action T} (member : cached ∈ cacheActions actions) :
    .cache cached ∈ actions := by
  rcases List.mem_filterMap.mp member with ⟨action, among, same⟩
  cases action with
  | cache other =>
      cases same
      exact among
  | stream other event => cases same

section Steps

variable [PathTree T]

theorem step_parts (taken : system.step action = some next) :
    (∃ cached cache, action = .cache cached ∧ Machine.step system.cache cached = some cache ∧
      next = (system.cacheStep cached cache).closeUnused) ∨
    ∃ id event stream after, action = .stream id event ∧ system.streams[id]? = some stream ∧
      stream.step (system.files stream.file) event = some after ∧
      next = { system with streams := system.streams.set id after }.closeUnused := by
  cases action with
  | cache cached =>
      rcases Option.map_eq_some_iff.mp taken with ⟨cache, moved, rfl⟩
      exact Or.inl ⟨cached, cache, rfl, moved, rfl⟩
  | stream id event =>
      rcases Option.bind_eq_some_iff.mp taken with ⟨stream, present, stepped⟩
      rcases Option.map_eq_some_iff.mp stepped with ⟨after, moved, rfl⟩
      exact Or.inr ⟨id, event, stream, after, rfl, present, moved, rfl⟩

variable {capacity : UInt64} {slots : Nat} {positive : 0 < slots}

theorem run_cache
    (reached : Transition.run System.step (System.initial capacity slots positive) actions =
      some system) :
    Transition.run Machine.step (Machine.initial capacity slots positive) (cacheActions actions) =
      some system.cache := by
  refine Transition.run_induction (fun actions system => Transition.run Machine.step
    (Machine.initial capacity slots positive) (cacheActions actions) = some system.cache)
    rfl ?_ reached
  intro actions system action next _ before taken
  rcases step_parts taken with
    ⟨cached, cache, rfl, moved, rfl⟩ | ⟨id, event, stream, after, rfl, -, -, rfl⟩
  · rw [cacheActions_snoc]
    exact Transition.run_snoc.mpr ⟨system.cache, before, moved⟩
  · rw [cacheActions_snoc]
    exact (congrArg _ (List.append_nil _)).trans before

theorem filed_step (provenance : Machine.Provenance (cacheActions actions) system.cache)
    (before : Filed (cacheActions actions) system) (taken : system.step action = some next) :
    Filed (cacheActions (actions ++ [action])) next := by
  rcases step_parts taken with
    ⟨cached, cache, rfl, moved, rfl⟩ | ⟨id, event, stream, after, rfl, -, -, rfl⟩
  · rw [cacheActions_snoc]
    rcases Machine.step_moves moved with
      ⟨handle, path, now, rfl, rfl⟩ | ⟨mover, task, present, move⟩
    · exact filed_close (filed_start before handle path now)
    · exact filed_close (filed_move provenance before present move)
  · rw [cacheActions_snoc]
    have same : Filed (cacheActions actions)
        { system with streams := system.streams.set id after } :=
      ⟨before.tasks, before.cells, before.stored, before.answered⟩
    simpa only [Action.cached, Option.toList_none, List.append_nil] using filed_close same

theorem run_filed
    (reached : Transition.run System.step (System.initial capacity slots positive) actions =
      some system) : Filed (cacheActions actions) system := by
  refine Transition.run_induction (fun actions system => Filed (cacheActions actions) system)
    ?_ ?_ reached
  · refine ⟨?_, ?_, nofun, nofun⟩
    · intro id task fetched present
      simp [System.initial, Machine.initial] at present
    · intro cell resource filled
      simp [System.initial, Machine.initial, State.cellAt] at filled
  · intro actions system action next earlier before taken
    exact filed_step (Machine.run_provenance (run_cache earlier)) before taken

theorem run_silent
    (reached : Transition.run System.step (System.initial capacity slots positive) actions =
      some system) (absent : system.streams.length ≤ id) : events id actions = [] := by
  revert absent
  refine Transition.run_induction (fun actions (system : System) =>
    system.streams.length ≤ id → events id actions = []) (fun _ => rfl) ?_ reached
  intro actions system action next _ before taken absent
  rcases step_parts taken with
    ⟨cached, cache, rfl, -, rfl⟩ | ⟨other, event, stream, after, rfl, present, -, rfl⟩
  · simp only [System.closeUnused, System.cacheStep, List.length_append] at absent
    rw [events_snoc, before (by omega)]
    rfl
  · simp only [System.closeUnused, List.length_set] at absent
    have known := Arena.get_lt present
    have different : other ≠ id := (Nat.lt_of_lt_of_le known absent).ne
    rw [events_snoc, before absent, Action.eventOf, if_neg different]
    rfl

end Steps

/-- The stream is a run of its own over the file of one answer, which its producer
has open until it stops, and it is the body of the response to its get. -/
structure Follows (actions : List (Action T)) (system : System) (id : StreamId) (stream : Stream)
    (resource : CachedResource) (opened : OpenFile UInt8) : Prop where
  alone : Transition.run (Stream.step (some opened)) (Stream.new stream.get resource)
    (events id actions) = some stream
  source : stream.file = resource.id
  handle : stream.live = true → system.files stream.file = some opened
  content : opened.content = resource.file.content
  answered : ∃ headers,
    Machine.AnsweredWith (cacheActions actions) stream.file headers opened.content
  response : ∃ task, system.cache.tasks[stream.get]? = some task ∧
    task.pc = .finished (.ok (some (resource.response stream.get)))

section Streams

variable {resource : CachedResource} {opened : OpenFile UInt8} {cache : State}
  {cached : Machine.Action T}

theorem spawned_cases (among : stream ∈ system.spawned cached) :
    ∃ get task cell resource, cached = .respond get none ∧ system.cache.tasks[get]? = some task ∧
      task.pc = .cloning cell resource ∧ stream = Stream.new get resource := by
  unfold System.spawned at among
  split at among
  · rename_i get
    split at among
    · rename_i cell resource stage
      rcases Option.map_eq_some_iff.mp stage with ⟨task, present, place⟩
      exact ⟨get, task, cell, resource, rfl, present, place, List.mem_singleton.mp among⟩
    · cases among
  · cases among

theorem follows_own {after : Stream} {event : Event} (present : system.streams[id]? = some stream)
    (taken : stream.step (system.files stream.file) event = some after)
    (before : Follows actions system id stream resource opened) :
    Follows (actions ++ [.stream id event])
      { system with streams := system.streams.set id after }.closeUnused id after resource
      opened := by
  rcases turn_frame (step_turns taken) with ⟨get, file, -, lives⟩
  refine ⟨?_, file.trans before.source, ?_, before.content, ?_, ?_⟩
  · rw [events_snoc, get]
    have own : (Action.stream id event : Action T).eventOf id = some event := if_pos rfl
    rw [own]
    exact Transition.run_snoc.mpr ⟨stream, before.alone, step_alone before.handle taken⟩
  · intro live
    have among : after ∈ system.streams.set id after :=
      List.mem_of_getElem? (Arena.get_set_self _ present)
    refine (OpenFile.retained_opened (opened_stream among live)).trans ?_
    rw [file]
    exact before.handle (lives live)
  · rw [cacheActions_snoc, file]
    simpa only [Action.cached, Option.toList_none, List.append_nil] using before.answered
  · rw [get]
    exact before.response

theorem follows_other {other : StreamId} {after : Stream} {event : Event} (different : other ≠ id)
    (present : system.streams[id]? = some stream)
    (before : Follows actions system id stream resource opened) :
    Follows (actions ++ [.stream other event])
      { system with streams := system.streams.set other after }.closeUnused id stream resource
      opened := by
  refine ⟨?_, before.source, ?_, before.content, ?_, before.response⟩
  · have silent : (Action.stream other event : Action T).eventOf id = none := if_neg different
    rw [events_snoc, silent]
    exact (congrArg _ (List.append_nil _)).trans before.alone
  · intro live
    have among : stream ∈ system.streams.set other after :=
      List.mem_of_getElem? ((Arena.get_set_other _ _ different).trans present)
    exact (OpenFile.retained_opened (opened_stream among live)).trans (before.handle live)
  · rw [cacheActions_snoc]
    simpa only [Action.cached, Option.toList_none, List.append_nil] using before.answered

variable [PathTree T]

theorem cache_keeps_file {file : TaskId} (filed : Filed (cacheActions actions) system)
    (moved : Machine.step system.cache cached = some cache)
    (found : system.files file = some opened) : system.written cached file = some opened := by
  rcases Machine.step_moves moved with ⟨handle, path, now, rfl, -⟩ | ⟨mover, task, present, move⟩
  · exact found
  · rcases move_files present move with ⟨pc, -, -, effect⟩
    exact written_kept filed present effect found

theorem cache_keeps_response {get : TaskId} {task : Task}
    (moved : Machine.step system.cache cached = some cache)
    (present : system.cache.tasks[get]? = some task) (ended : task.pc.ended = true) :
    cache.tasks[get]? = some task := by
  rcases Machine.step_moves moved with ⟨handle, path, now, rfl, rfl⟩ | ⟨mover, other, known, move⟩
  · rcases Machine.start_started system.cache handle path now with ⟨fresh, started⟩
    rw [started.tasks]
    exact Arena.get_append_old _ present
  · rcases Machine.move_task move with ⟨pc, tasks⟩
    have different : mover ≠ get := by
      intro same
      subst mover
      rw [known, Option.some.injEq] at present
      have unended := Machine.move_unended move
      rw [present, ended] at unended
      cases unended
    rw [tasks, Arena.get_set_other _ _ different, present]

theorem follows_cache (filed : Filed (cacheActions actions) system)
    (moved : Machine.step system.cache cached = some cache)
    (present : system.streams[id]? = some stream)
    (before : Follows actions system id stream resource opened) :
    Follows (actions ++ [.cache cached]) (system.cacheStep cached cache).closeUnused id stream
      resource opened := by
  refine ⟨?_, before.source, ?_, before.content, ?_, ?_⟩
  · rw [events_snoc]
    exact (congrArg _ (List.append_nil _)).trans before.alone
  · intro live
    have among : stream ∈ (system.cacheStep cached cache).streams :=
      List.mem_append_left _ (List.mem_of_getElem? present)
    exact (OpenFile.retained_opened (opened_stream among live)).trans
      (cache_keeps_file filed moved (before.handle live))
  · rcases before.answered with ⟨headers, answered⟩
    refine ⟨headers, Machine.answered_later ?_ answered⟩
    rw [cacheActions_snoc]
    exact List.subset_append_left _ _
  · rcases before.response with ⟨task, known, finished⟩
    exact ⟨task, cache_keeps_response moved known (by rw [finished]; rfl), finished⟩

/-- A new stream has the file of the resource, which was in its cell till now. -/
theorem follows_spawned {capacity : UInt64} (inv : Machine.Inv capacity system.cache)
    (filed : Filed (cacheActions actions) system) (silent : events id actions = [])
    (moved : Machine.step system.cache cached = some cache)
    (present : (system.cacheStep cached cache).streams[id]? = some stream)
    (among : stream ∈ system.spawned cached) :
    ∃ resource opened, Follows (actions ++ [.cache cached])
      (system.cacheStep cached cache).closeUnused id stream resource opened := by
  rcases spawned_cases among with ⟨get, task, cell, resource, rfl, known, stage, rfl⟩
  have filled := (inv.tasks get task known).stage
  rw [stage] at filled
  rcases filed.cells cell resource filled with ⟨opened, found, content⟩
  rcases filed.answered resource.id opened found with ⟨headers, answered⟩
  refine ⟨resource, opened, ?_, rfl, ?_, content, ⟨headers, Machine.answered_later ?_ answered⟩, ?_⟩
  · rw [events_snoc, silent]
    rfl
  · intro live
    exact (OpenFile.retained_opened (opened_stream (List.mem_of_getElem? present) live)).trans
      (cache_keeps_file filed moved found)
  · rw [cacheActions_snoc]
    exact List.subset_append_left _ _
  · simp only [Machine.step, known, Option.bind_some, State.respond, stage,
      Option.some.injEq] at moved
    subst moved
    refine ⟨{ task with pc := .finished (.ok (some (resource.response get))) }, ?_, rfl⟩
    simp only [System.closeUnused, System.cacheStep, State.release_tasks]
    exact Arena.get_set_self _ known

variable {capacity : UInt64} {slots : Nat} {positive : 0 < slots}

theorem run_follows
    (reached : Transition.run System.step (System.initial capacity slots positive) actions =
      some system) (present : system.streams[id]? = some stream) :
    ∃ resource opened, Follows actions system id stream resource opened := by
  revert id stream
  refine Transition.run_induction (fun actions (system : System) =>
    ∀ {id : StreamId} {stream : Stream}, system.streams[id]? = some stream →
      ∃ resource opened, Follows actions system id stream resource opened) ?_ ?_ reached
  · intro id stream present
    simp [System.initial] at present
  · intro actions system action next earlier before taken id stream present
    have filed := run_filed earlier
    rcases step_parts taken with
      ⟨cached, cache, rfl, moved, rfl⟩ | ⟨other, event, moving, after, rfl, known, moved, rfl⟩
    · rcases Arena.get_append_split present with old | ⟨fresh, among⟩
      · rcases before old with ⟨resource, opened, follows⟩
        exact ⟨resource, opened, follows_cache filed moved old follows⟩
      · exact follows_spawned (Machine.run_inv (run_cache earlier)) filed (run_silent earlier fresh)
          moved present among
    · by_cases same : other = id
      · subst same
        have stepped : after = stream := by
          have self := Arena.get_set_self after known
          exact Option.some.inj (self.symm.trans present)
        rcases before known with ⟨resource, opened, follows⟩
        exact ⟨resource, opened, stepped ▸ follows_own known moved follows⟩
      · have old : system.streams[id]? = some stream :=
          (Arena.get_set_other _ _ same).symm.trans present
        rcases before old with ⟨resource, opened, follows⟩
        exact ⟨resource, opened, follows_other same old follows⟩

/-- The responses that are read from a file, and nothing else, have a stream each. -/
structure Streamed (system : System) : Prop where
  distinct : (system.streams.map Stream.get).Nodup
  present : ∀ (get : TaskId) task response file, system.cache.tasks[get]? = some task →
    task.pc = .finished (.ok (some response)) → response.body = .file file →
      get ∈ system.streams.map Stream.get

omit [PathTree T] in
theorem move_responds {mover : TaskId} {task : Task} (present : system.cache.tasks[mover]? = some task)
    (move : Move system.cache mover task cached cache) :
    ∃ pc, cache.tasks = system.cache.tasks.set mover { task with pc := pc } ∧
      ((system.spawned cached = [] ∧ ∀ response file, pc = .finished (.ok (some response)) →
          response.body ≠ .file file) ∨
        ∃ cell resource, task.pc = .cloning cell resource ∧
          system.spawned cached = [Stream.new mover resource]) := by
  cases move with
  | respond cell resource cloneError result stage shape =>
      refine ⟨_, State.release_tasks _ _, ?_⟩
      cases cloneError with
      | none =>
          refine Or.inr ⟨cell, resource, stage, ?_⟩
          simp only [System.spawned, present, Option.map_some, stage]
      | some message =>
          subst shape
          exact Or.inl ⟨rfl, nofun⟩
  | answerNever answer stage =>
      refine ⟨_, rfl, Or.inl ⟨rfl, ?_⟩⟩
      intro response file ended
      cases answer with
      | error failure => cases ended
      | ok found =>
          cases found with
          | none => cases ended
          | some resource =>
              cases ended
              nofun
  | answerNone | answerError | storeError | cancelInit =>
      exact ⟨_, State.abandon_tasks _ _ _, Or.inl ⟨rfl, nofun⟩⟩
  | lookup => exact ⟨_, State.releaseOption_tasks _, Or.inl ⟨rfl, nofun⟩⟩
  | evict | cancelJoined => exact ⟨_, State.release_tasks _ _, Or.inl ⟨rfl, nofun⟩⟩
  | reserveFailed own fetched locked =>
      refine ⟨_, rfl, Or.inl ⟨rfl, ?_⟩⟩
      cases locked <;> nofun
  | _ => exact ⟨_, rfl, Or.inl ⟨rfl, nofun⟩⟩

theorem streamless {mover : TaskId} {task : Task} {cell : CellId}
    (reached : Transition.run System.step (System.initial capacity slots positive) actions =
      some system) (present : system.cache.tasks[mover]? = some task)
    (stage : task.pc = .cloning cell resource) : mover ∉ system.streams.map Stream.get := by
  intro member
  rcases List.mem_map.mp member with ⟨stream, among, rfl⟩
  rcases List.getElem?_of_mem among with ⟨id, found⟩
  rcases run_follows reached found with ⟨resource, opened, follows⟩
  rcases follows.response with ⟨other, known, finished⟩
  rw [present, Option.some.injEq] at known
  rw [← known, stage] at finished
  cases finished

theorem run_streamed
    (reached : Transition.run System.step (System.initial capacity slots positive) actions =
      some system) : Streamed system := by
  refine Transition.run_induction (fun (_ : List (Action T)) (system : System) => Streamed system)
    ?_ ?_ reached
  · refine ⟨List.nodup_nil, ?_⟩
    intro get task response file present
    simp [System.initial, Machine.initial] at present
  · intro actions system action next earlier before taken
    rcases step_parts taken with
      ⟨cached, cache, rfl, moved, rfl⟩ | ⟨id, event, stream, after, rfl, known, stepped, rfl⟩
    · have streams : (system.cacheStep cached cache).closeUnused.streams.map Stream.get =
          system.streams.map Stream.get ++ (system.spawned cached).map Stream.get :=
        List.map_append
      rcases Machine.step_moves moved with
        ⟨handle, path, now, rfl, rfl⟩ | ⟨mover, task, present, move⟩
      · rcases Machine.start_started system.cache handle path now with ⟨fresh, started⟩
        refine ⟨?_, ?_⟩
        · rw [streams]
          exact (List.append_nil _).symm ▸ before.distinct
        · intro get task response file found ended body
          change (system.cache.start handle path now).tasks[get]? = _ at found
          rw [started.tasks] at found
          rw [streams]
          apply List.mem_append_left
          rcases Arena.get_append_cases found with old | ⟨-, rfl⟩
          · exact before.present get task response file old ended body
          · rcases started.stage with ⟨stage, -⟩ | ⟨stage, -⟩ | ⟨stage, -⟩ | ⟨stage, -⟩ <;>
              rw [stage] at ended <;> cases ended
      · rcases move_responds present move with ⟨pc, tasks, effect⟩
        refine ⟨?_, ?_⟩
        · rw [streams]
          rcases effect with ⟨nothing, -⟩ | ⟨cell, resource, stage, one⟩
          · rw [nothing]
            exact (List.append_nil _).symm ▸ before.distinct
          · rw [one]
            exact before.distinct.append (List.nodup_singleton _)
              (List.disjoint_singleton.mpr (streamless earlier present stage))
        · intro get found response file after ended body
          rw [streams]
          rcases Machine.task_after present tasks after with ⟨rfl, rfl⟩ | ⟨-, old⟩
          · rcases effect with ⟨-, unread⟩ | ⟨cell, resource, -, one⟩
            · exact absurd body (unread response file ended)
            · rw [one]
              exact List.mem_append_right _ (List.mem_singleton_self _)
          · exact List.mem_append_left _ (before.present get found response file old ended body)
    · have same : (system.streams.set id after).map Stream.get = system.streams.map Stream.get := by
        have kept : (system.streams.map Stream.get)[id]? = some after.get := by
          rw [List.getElem?_map, known, Option.map_some, (turn_frame (step_turns stepped)).1]
        rw [List.map_set]
        exact Arena.set_same kept
      refine ⟨?_, ?_⟩
      · exact same ▸ before.distinct
      · intro get task response file found ended body
        exact same ▸ before.present get task response file found ended body

/-- Every response from a cache file has its one stream, at any schedule of the gets, the
evictions and the other streams. Its body is the whole body of the answer that was stored.
As long as the client waits for the end some party can move, and all they do is bounded. -/
theorem cached_body_reproduced
    (reached : Transition.run System.step (System.initial capacity slots positive) actions =
      some system) :
    (∀ (get : TaskId) task response file, system.cache.tasks[get]? = some task →
      task.pc = .finished (.ok (some response)) → response.body = .file file →
        ∃! id : StreamId, (system.streams[id]?).map Stream.get = some get) ∧
    ∀ (id : StreamId) stream, system.streams[id]? = some stream →
      (∀ event ∈ events id actions, event.fails = false) →
        ∃ resource : UpstreamResource,
          .cache (.answer stream.file (.ok (some resource))) ∈ actions ∧
          resource.body.error = none ∧
          (∃ task response file, system.cache.tasks[stream.get]? = some task ∧
            task.pc = .finished (.ok (some response)) ∧ response.body = .file file ∧
            file.content = resource.body.content) ∧
          Reproduces resource.body.content stream (events id actions) ∧
          (stream.body.body = .opened → ∃ event, event.drives = true ∧ event.fails = false ∧
            (system.step (.stream id event : Action T)).isSome = true) := by
  constructor
  · intro get task response file present ended body
    have streamed := run_streamed reached
    rcases List.getElem?_of_mem (streamed.present get task response file present ended body) with
      ⟨id, found⟩
    have spelled (other : StreamId) :
        (system.streams[other]?).map Stream.get = (system.streams.map Stream.get)[other]? :=
      List.getElem?_map.symm
    refine ⟨id, (spelled id).trans found, ?_⟩
    intro other again
    have known := Arena.get_lt ((spelled other).symm.trans again)
    exact (List.getElem?_inj known streamed.distinct).mp
      (((spelled other).symm.trans again).trans found.symm)
  · intro id stream present errorFree
    rcases run_follows reached present with ⟨cached, opened, follows⟩
    rcases follows.answered with ⟨headers, resource, answered, whole, -, content⟩
    rcases follows.response with ⟨task, known, finished⟩
    refine ⟨resource, mem_cacheActions answered, whole, ?_, ?_, ?_⟩
    · exact ⟨task, _, cached.file, known, finished, rfl, follows.content.symm.trans content.symm⟩
    · rw [content]
      exact run_reproduces follows.content errorFree follows.alone
    · intro waiting
      have handle (live : stream.live = true) : (system.files stream.file).isSome = true := by
        rw [follows.handle live]
        rfl
      rcases step_enabled waiting handle with ⟨event, drives, fails, enabled⟩
      refine ⟨event, drives, fails, ?_⟩
      simp only [System.step, present, Option.bind_some, Option.isSome_map, enabled]

end Streams

/-- Two responses stream one resource; its entry is displaced while they do. -/
def sharedGets : List (Machine.Action LiteralTree) :=
  Machine.fetchActions plainCache "/a" epoch 0 (.ok (some ⟨⟨none⟩, ⟨[[1, 2], [3]], none⟩⟩)) ++
    Machine.fillActions 0 ⟨epoch, ⟨0⟩⟩ ++ Machine.respondActions 0 ++
    [.start plainCache "/a" epoch, .acquire 1, .lookup 1, .join 1] ++ Machine.respondActions 1

def sharedActions : List (Action LiteralTree) :=
  sharedGets.map .cache ++
    [.stream 0 (.read (.bytes 1)), .stream 0 .send, .cache (.start plainCache "/b" epoch),
      .cache (.acquire 2), .cache (.lookup 2), .stream 1 (.read (.failed "input/output error")),
      .stream 0 .poll, .stream 0 (.read (.bytes 7)), .stream 0 .send, .stream 0 .poll,
      .stream 0 (.read (.bytes 0)), .stream 0 .poll]

theorem cached_body_reproduced_displaced :
    ∃ system, Transition.run System.step (System.initial 10 1 (by decide)) sharedActions =
        some system ∧
      (∃! id : StreamId, (system.streams[id]?).map Stream.get = some 1) ∧
      ∃ stream resource, system.streams[0]? = some stream ∧ stream.body.body = .ended ∧
        .cache (.answer stream.file (.ok (some resource))) ∈ sharedActions ∧
        Reproduces resource.body.content stream (events 0 sharedActions) := by
  have shape : ∃ system, Transition.run System.step (System.initial 10 1 (by decide))
      sharedActions = some system ∧
      (∃ stream, system.streams[0]? = some stream ∧ stream.body.body = .ended) ∧
      ∃ task response file, system.cache.tasks[1]? = some task ∧
        task.pc = .finished (.ok (some response)) ∧ response.body = .file file :=
    ⟨_, rfl, ⟨_, rfl, rfl⟩, _, _, _, rfl, rfl, rfl⟩
  rcases shape with
    ⟨system, reached, ⟨stream, present, ended⟩, task, response, file, known, finished, body⟩
  rcases cached_body_reproduced reached with ⟨streams, bodies⟩
  rcases bodies 0 stream present (by decide) with ⟨resource, answered, -, -, reproduces, -⟩
  exact ⟨system, reached, streams 1 task response file known finished body, stream, resource,
    present, ended, answered, reproduces⟩

end Server3.SharedFiles
