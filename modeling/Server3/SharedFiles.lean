import Mathlib.Logic.Function.Basic
import Server3.Provenance
import Server3.Progress
import Server3.Streaming

/-! The cache together with the files behind its resources and the streams that read
them. A file is unlinked when it is made, so it is gone when nobody has it open. -/

namespace Server3.Machine

open Clock Routes Upstream Resource Recency

/-- What the get has stored and not yet put into its cell. -/
def Pc.fetched : Pc → Option Fetched
  | .reserving _ fetched _ | .evictLock _ fetched | .popping _ fetched | .evicting _ fetched _
  | .reservingUpTo _ fetched | .granted _ fetched _ _ => some fetched
  | _ => none

def Pc.stored : Pc → Bool
  | .neverFetch | .lookupLock | .lookup | .joining _ | .fetching _ | .storing _ _ => false
  | _ => true

end Server3.Machine

namespace Server3.SharedFiles

open Clock Routes Upstream Resource Streaming
open Machine (State Task TaskId CellId Pc Cell Move Fetched)

abbrev StreamId := Nat

/-- Files go by the gets that store them. -/
structure System where
  cache : State
  files : TaskId → Option (OpenFile UInt8)
  streams : List Stream

inductive Action (T : Type → Type) where
  | cache (action : Machine.Action T)
  | stream (id : StreamId) (event : Event)

namespace Action

variable {T : Type → Type}

def cached : Action T → Option (Machine.Action T)
  | .cache action => some action
  | .stream _ _ => none

def eventOf (id : StreamId) : Action T → Option Event
  | .cache _ => none
  | .stream other event => if other = id then some event else none

end Action

variable {T : Type → Type}

def cacheActions (actions : List (Action T)) : List (Machine.Action T) :=
  actions.filterMap Action.cached

def events (id : StreamId) (actions : List (Action T)) : List Event :=
  actions.filterMap (Action.eventOf id)

namespace System

def initial (capacity : UInt64) (slots : Nat) (positive : 0 < slots) : System where
  cache := Machine.initial capacity slots positive
  files := fun _ => none
  streams := []

/-- The get that stores it, the resource in a cell, and the producers have a file open. -/
def opened (system : System) (id : TaskId) : Bool :=
  (system.cache.tasks[id]?).any (fun task => task.pc.fetched.isSome) ||
    system.cache.slots.any (fun slot => slot.cell.resource.any fun resource => resource.id = id) ||
    system.streams.any fun stream => stream.live && stream.file = id

def closeUnused (system : System) : System :=
  { system with files := OpenFile.retained system.files system.opened }

/-- Lines 450 to 458: the frames of the body are copied into a new file. -/
def written (system : System) : Machine.Action T → TaskId → Option (OpenFile UInt8)
  | .store id diskError =>
      match (system.cache.tasks[id]?).map Task.pc with
      | some (.storing _ resource) =>
          match Upstream.store resource.body diskError with
          | .ok _ => Function.update system.files id
              (some (OpenFile.empty.writeAll resource.body.chunks))
          | .error _ => system.files
      | _ => system.files
  | _ => system.files

/-- The body of a response from a resource has its own clone of the file. -/
def spawned (system : System) : Machine.Action T → List Stream
  | .respond id none =>
      match (system.cache.tasks[id]?).map Task.pc with
      | some (.cloning _ resource) => [Stream.new id resource]
      | _ => []
  | _ => []

def cacheStep (system : System) (action : Machine.Action T) (cache : State) : System where
  cache := cache
  files := system.written action
  streams := system.streams ++ system.spawned action

def step [PathTree T] (system : System) : Action T → Option System
  | .cache action =>
      (Machine.step system.cache action).map fun cache =>
        (system.cacheStep action cache).closeUnused
  | .stream id event =>
      (system.streams[id]?).bind fun stream =>
        (stream.step (system.files stream.file) event).map fun next =>
          { system with streams := system.streams.set id next }.closeUnused

end System

/-- What a move of the cache does to the files: the get stores its body, or goes on
with what it had. -/
inductive FileMove (system : System) (id : TaskId) (task : Task) :
    Machine.Action T → Pc → Prop where
  | kept (action : Machine.Action T) (pc : Pc) (files : system.written action = system.files)
      (fetched : ∀ fetched, pc.fetched = some fetched → task.pc.fetched = some fetched) :
      FileMove system id task action pc
  | stores (cell : CellId) (resource : UpstreamResource) (diskError : Option String) (file : File)
      (stage : task.pc = .storing cell resource)
      (stored : Upstream.store resource.body diskError = .ok file)
      (files : system.written (.store id diskError : Machine.Action T) =
        Function.update system.files id (some (OpenFile.empty.writeAll resource.body.chunks))) :
      FileMove system id task (.store id diskError)
        (.reserving cell ⟨resource.headers, file⟩ false)

section Files

variable {system : System} {id : TaskId} {task : Task} {next : State} {action : Machine.Action T}
  {actions : List (Machine.Action T)}

theorem move_files (present : system.cache.tasks[id]? = some task)
    (move : Move system.cache id task action next) :
    ∃ pc, next.tasks = system.cache.tasks.set id { task with pc := pc } ∧
      (task.pc.stored = true → pc.stored = true) ∧ FileMove system id task action pc := by
  cases move with
  | storeOk cell resource diskError file stage stored =>
      refine ⟨_, rfl, fun _ => rfl, .stores cell resource diskError file stage stored ?_⟩
      simp only [System.written, present, Option.map_some, stage, stored]
  | storeError cell resource diskError failure stage stored =>
      refine ⟨_, State.abandon_tasks _ _ _, fun _ => rfl, .kept _ _ ?_ nofun⟩
      simp only [System.written, present, Option.map_some, stage, stored]
  | reserveFailed cell fetched locked stage refused =>
      have carried (other : Fetched) (same : some fetched = some other) :
          task.pc.fetched = some other := by
        rw [stage]
        exact same
      cases locked <;> exact ⟨_, rfl, fun _ => rfl, .kept _ _ rfl carried⟩
  | reserveGranted _ _ _ _ _ stage | popEntry _ _ _ _ _ stage | popNothing _ _ stage
  | reserveUpTo _ _ _ _ stage | unlock _ _ _ stage | acquireEvict _ _ stage =>
      exact ⟨_, rfl, fun _ => rfl, .kept _ _ rfl fun _ same => by rw [stage]; exact same⟩
  | evict _ _ _ stage =>
      exact ⟨_, State.release_tasks _ _, fun _ => rfl, .kept _ _ rfl fun _ same => by
        rw [stage]
        exact same⟩
  | lookup stage =>
      exact ⟨_, State.releaseOption_tasks _, by rw [stage]; nofun, .kept _ _ rfl nofun⟩
  | acquireLookup stage | joinEmpty _ stage | answerFound _ _ stage =>
      exact ⟨_, rfl, by rw [stage]; nofun, .kept _ _ rfl nofun⟩
  | joinFilled | answerNever | fill | count | cancelIdle =>
      exact ⟨_, rfl, fun _ => rfl, .kept _ _ rfl nofun⟩
  | answerNone | answerError | cancelInit =>
      exact ⟨_, State.abandon_tasks _ _ _, fun _ => rfl, .kept _ _ rfl nofun⟩
  | respond | cancelJoined =>
      exact ⟨_, State.release_tasks _ _, fun _ => rfl, .kept _ _ rfl nofun⟩

def HasContent (system : System) (id : TaskId) (content : Bytes) : Prop :=
  ∃ file, system.files id = some file ∧ file.content = content

/-- What is stored and what is cached is in its file, and a file has the whole body
of an answer to its get. -/
structure Filed (actions : List (Machine.Action T)) (system : System) : Prop where
  tasks : ∀ (id : TaskId) task fetched, system.cache.tasks[id]? = some task →
    task.pc.fetched = some fetched → HasContent system id fetched.file.content
  cells : ∀ cell resource, system.cache.cellAt cell = some (.filled resource) →
    HasContent system resource.id resource.file.content
  stored : ∀ (id : TaskId) file, system.files id = some file →
    ∃ task, system.cache.tasks[id]? = some task ∧ task.pc.stored = true
  answered : ∀ (id : TaskId) file, system.files id = some file →
    ∃ headers, Machine.AnsweredWith actions id headers file.content

/-- A file of a get that is yet to store one cannot be there, so storing leaves the
files that are there. -/
theorem written_kept {other : TaskId} {file : OpenFile UInt8} {pc : Pc}
    (before : Filed actions system) (present : system.cache.tasks[id]? = some task)
    (effect : FileMove system id task action pc)
    (found : system.files other = some file) : system.written action other = some file := by
  cases effect with
  | kept action pc files fetched => rw [files, found]
  | stores cell resource diskError whole stage stored files =>
      rcases before.stored other file found with ⟨owner, known, past⟩
      have different : other ≠ id := by
        intro same
        subst other
        rw [present, Option.some.injEq] at known
        rw [← known, stage] at past
        cases past
      rw [files, Function.update_of_ne different, found]

theorem written_cases {other : TaskId} {file : OpenFile UInt8} {pc : Pc}
    (effect : FileMove system id task action pc) (found : system.written action other = some file) :
    system.files other = some file ∨
      ∃ cell resource, other = id ∧ task.pc = .storing cell resource ∧ pc.stored = true ∧
        resource.body.error = none ∧ file.content = resource.body.content := by
  cases effect with
  | kept action pc files fetched =>
      rw [files] at found
      exact Or.inl found
  | stores cell resource diskError whole stage stored files =>
      rw [files, Function.update_apply] at found
      split at found
      · rename_i same
        cases found
        exact Or.inr ⟨cell, resource, same, stage, rfl, (store_ok stored).2.1,
          OpenFile.writeAll_empty _⟩
      · exact Or.inl found

theorem filed_move (provenance : Machine.Provenance actions system.cache)
    (before : Filed actions system) (present : system.cache.tasks[id]? = some task)
    (move : Move system.cache id task action next) :
    Filed (actions ++ [action]) (system.cacheStep action next) := by
  have longer : actions ⊆ actions ++ [action] := List.subset_append_left _ _
  rcases move_files present move with ⟨pc, tasks, monotone, effect⟩
  have kept {other : TaskId} {content : Bytes} (has : HasContent system other content) :
      HasContent (system.cacheStep action next) other content := by
    rcases has with ⟨file, found, same⟩
    exact ⟨file, written_kept before present effect found, same⟩
  have mover : next.tasks[id]? = some { task with pc := pc } := by
    rw [tasks]
    exact Arena.get_set_self _ present
  refine ⟨?_, ?_, ?_, ?_⟩
  · intro other found fetched after holds
    rcases Machine.task_after present tasks after with ⟨rfl, rfl⟩ | ⟨-, unchanged⟩
    · cases effect with
      | kept action pc files carried =>
          exact kept (before.tasks other task fetched present (carried fetched holds))
      | stores cell resource diskError file stage stored files =>
          cases holds
          refine ⟨OpenFile.empty.writeAll resource.body.chunks, ?_, ?_⟩
          · exact (congrFun files other).trans (Function.update_self ..)
          · rw [OpenFile.writeAll_empty]
            exact (store_ok stored).1.symm
    · exact kept (before.tasks other found fetched unchanged holds)
  · intro cell resource filled
    rcases Machine.move_filled move filled with old | ⟨fetched, reservation, clock, -, stage, rfl⟩
    · exact kept (before.cells cell resource old)
    · exact kept (before.tasks id task fetched present (by rw [stage]; rfl))
  · intro other file found
    rcases written_cases effect found with old | ⟨cell, resource, rfl, stage, past, -, -⟩
    · rcases before.stored other file old with ⟨owner, known, past⟩
      by_cases same : other = id
      · subst other
        rw [present, Option.some.injEq] at known
        exact ⟨_, mover, monotone (known ▸ past)⟩
      · refine ⟨owner, ?_, past⟩
        simp only [System.cacheStep]
        rw [tasks, Arena.get_set_other _ _ (Ne.symm same), known]
    · exact ⟨_, mover, past⟩
  · intro other file found
    rcases written_cases effect found with old | ⟨cell, resource, rfl, stage, -, whole, content⟩
    · rcases before.answered other file old with ⟨headers, answered⟩
      exact ⟨headers, Machine.answered_later longer answered⟩
    · have answered := provenance.tasks other task present
      rw [stage] at answered
      exact ⟨resource.headers, resource, longer answered, whole, rfl, content.symm⟩

theorem filed_start [PathTree T] (before : Filed actions system) (cache : Cache T) (path : String)
    (now : Instant) :
    Filed (actions ++ [.start cache path now])
      (system.cacheStep (.start cache path now) (system.cache.start cache path now)) := by
  rcases Machine.start_started system.cache cache path now with ⟨fresh, started⟩
  refine ⟨?_, ?_, ?_, ?_⟩
  · intro id task fetched after holds
    simp only [System.cacheStep, started.tasks] at after
    rcases Arena.get_append_cases after with old | ⟨-, rfl⟩
    · exact before.tasks id task fetched old holds
    · rcases started.stage with ⟨stage, -⟩ | ⟨stage, -⟩ | ⟨stage, -⟩ | ⟨stage, -⟩ <;>
        rw [stage] at holds <;> cases holds
  · intro cell resource filled
    exact before.cells cell resource ((started.cellAt cell).symm.trans filled)
  · intro id file found
    rcases before.stored id file found with ⟨task, known, past⟩
    refine ⟨task, ?_, past⟩
    simp only [System.cacheStep, started.tasks]
    exact Arena.get_append_old _ known
  · intro id file found
    rcases before.answered id file found with ⟨headers, answered⟩
    exact ⟨headers, Machine.answered_later (List.subset_append_left _ _) answered⟩

theorem opened_task {fetched : Fetched} (present : system.cache.tasks[id]? = some task)
    (holds : task.pc.fetched = some fetched) : system.opened id = true := by
  simp [System.opened, present, holds]

theorem opened_cell {cell : CellId} {resource : CachedResource}
    (filled : system.cache.cellAt cell = some (.filled resource)) :
    system.opened resource.id = true := by
  rcases Option.map_eq_some_iff.mp filled with ⟨slot, present, content⟩
  have among : system.cache.slots.any
      (fun slot => slot.cell.resource.any fun other => other.id = resource.id) = true :=
    List.any_eq_true.mpr ⟨slot, List.mem_of_getElem? present, by
      simp [content, Machine.Cell.resource]⟩
  simp [System.opened, among]

theorem opened_stream {stream : Stream} (present : stream ∈ system.streams)
    (live : stream.live = true) : system.opened stream.file = true := by
  have among : (system.streams.any fun other => other.live && other.file = stream.file) = true :=
    List.any_eq_true.mpr ⟨stream, present, by simp [live]⟩
  simp [System.opened, among]

theorem filed_close (before : Filed actions system) : Filed actions system.closeUnused := by
  have kept {id : TaskId} {content : Bytes} (needed : system.opened id = true)
      (has : HasContent system id content) : HasContent system.closeUnused id content := by
    rcases has with ⟨file, found, same⟩
    exact ⟨file, (OpenFile.retained_opened needed).trans found, same⟩
  refine ⟨?_, ?_, ?_, ?_⟩
  · intro id task fetched present holds
    exact kept (opened_task present holds) (before.tasks id task fetched present holds)
  · intro cell resource filled
    exact kept (opened_cell filled) (before.cells cell resource filled)
  · intro id file found
    exact before.stored id file (OpenFile.retained_some found)
  · intro id file found
    exact before.answered id file (OpenFile.retained_some found)

end Files

end Server3.SharedFiles
