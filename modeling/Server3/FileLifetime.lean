import Server3.ExactBodies
import Server3.Overshoot

/-! How long files stay open, how many descriptors that takes, and what stops a producer
whose client is gone. -/

namespace Server3.Machine

open Routes

variable {T : Type → Type} {capacity : UInt64} {state : State} {task : Task} {id : TaskId}

/-- The get has a file that it has not put into its cell: it is still writing it, or has it
whole. -/
def Pc.hasFile : Pc → Bool
  | .storing _ _ => true
  | pc => pc.fetched.isSome

/-- The get is about to answer, and has a clone of its resource's file for the body. -/
def Pc.hasClone : Pc → Bool
  | .cloning _ _ => true
  | _ => false

theorem file_unended (has : task.pc.hasFile = true) : task.pc.ended = false := by
  cases stage : task.pc <;> simp_all [Pc.hasFile, Pc.fetched, Pc.ended]

/-- A get that has yet to put its file into its cell has no filled cell in hand but the one
that it evicts. -/
theorem file_hand (inv : Inv capacity state) (present : state.tasks[id]? = some task)
    (has : task.pc.hasFile = true) (hand : (state.filledHand task).isSome) :
    task.pc.victim.isSome := by
  have permit := (inv.tasks id task present).permit
  have unfilled {cell : CellId} (own : task.pc.initializes = some cell) :
      state.resourceAt cell = none := by
    rw [State.resourceAt, permit cell own]
    rfl
  rw [State.filledHand] at hand
  cases stage : task.pc with
  | evicting => rfl
  | storing cell | reserving cell | evictLock cell | popping cell | reservingUpTo cell
  | granted cell =>
      have empty := unfilled (by rw [stage]; rfl)
      simp [stage, Pc.victim, Pc.own, empty] at hand
  | _ => simp [stage, Pc.hasFile, Pc.fetched] at has

theorem clone_unended (has : task.pc.hasClone = true) : task.pc.ended = false := by
  cases stage : task.pc <;> simp_all [Pc.hasClone, Pc.ended]

theorem file_or_clone (file : task.pc.hasFile = true) : task.pc.hasClone = false := by
  cases stage : task.pc <;> simp_all [Pc.hasFile, Pc.fetched, Pc.hasClone]

theorem files_in_hand (inv : Inv capacity state) (held : Held state) :
    state.tasks.countP (fun task => task.pc.hasFile) + state.orphans.length ≤
      state.unfinished.length + 1 := by
  calc
    _ ≤ state.tasks.countP (fun task => task.pc.hasFile) +
        state.tasks.countP fun task => (state.filledHand task).isSome :=
      Nat.add_le_add_left (orphans_in_hand inv held) _
    _ ≤ (state.tasks.countP fun task => !task.pc.ended) +
        state.tasks.countP fun task => task.pc.victim.isSome := by
      apply Arena.countP_exchange
      · intro task _ has
        simp [file_unended has]
      · intro task _ hand
        rcases Option.isSome_iff_exists.mp hand with ⟨cell, found⟩
        simp [hand_unended found]
      · intro task member has hand
        rcases List.getElem?_of_mem member with ⟨id, present⟩
        exact file_hand inv present has hand
    _ ≤ state.unfinished.length + 1 := by
      rw [State.unfinished, ← List.countP_eq_length_filter]
      exact Nat.add_le_add_left (evicting_alone inv) _

theorem files_and_clones (state : State) :
    state.tasks.countP (fun task => task.pc.hasFile) +
      state.tasks.countP (fun task => task.pc.hasClone) ≤ state.unfinished.length := by
  calc
    _ ≤ (state.tasks.countP fun task => !task.pc.ended) + state.tasks.countP fun _ => false := by
      apply Arena.countP_exchange
      · intro task _ file
        simp [file_unended file]
      · intro task _ clone
        simp [clone_unended clone]
      · intro task _ file clone
        rw [file_or_clone file] at clone
        cases clone
    _ = state.unfinished.length := by
      rw [State.unfinished, ← List.countP_eq_length_filter]
      simp

end Server3.Machine

namespace Server3.SharedFiles

open Clock Routes Upstream Resource Streaming
open Machine (State Task TaskId CellId Pc Cell Held Inv totalSize)

variable {T : Type → Type} {actions : List (Action T)} {action : Action T}
  {system next : System} {id : StreamId} {stream : Stream}

/-- The descriptors of cache files: a get has one while it writes its file and until its cell
is filled, and one for the clone that it answers with; a live resource has one, and the
producer of a body has its own. What a blocking call of a cancelled get holds until the call
returns is not among them. -/
def System.descriptors (system : System) : Nat :=
  system.cache.tasks.countP (fun task => task.pc.hasFile) +
    system.cache.tasks.countP (fun task => task.pc.hasClone) + system.cache.live.length +
    system.streams.countP Stream.live

def System.fileSize (system : System) (id : TaskId) : Nat :=
  (system.files id).elim 0 fun file => file.content.length

structure System.AtRest (system : System) : Prop where
  quiet : system.cache.Quiet
  stopped : ∀ stream ∈ system.streams, stream.live = false

theorem opened_iff {file : TaskId} : system.opened file = true ↔
    (∃ task, system.cache.tasks[file]? = some task ∧ task.pc.fetched.isSome) ∨
      (∃ resource ∈ system.cache.live, resource.id = file) ∨
      ∃ stream ∈ system.streams, stream.live = true ∧ stream.file = file := by
  have cells : (system.cache.slots.any fun slot =>
      slot.cell.resource.any fun resource => resource.id = file) = true ↔
        ∃ resource ∈ system.cache.live, resource.id = file := by
    rw [List.any_eq_true]
    constructor
    · intro found
      rcases found with ⟨slot, member, holds⟩
      rcases (Option.any_eq_true _ _).mp holds with ⟨resource, filled, same⟩
      exact ⟨resource, List.mem_filterMap.mpr ⟨slot, member, filled⟩, of_decide_eq_true same⟩
    · intro found
      rcases found with ⟨resource, member, same⟩
      rcases List.mem_filterMap.mp member with ⟨slot, among, filled⟩
      exact ⟨slot, among, (Option.any_eq_true _ _).mpr ⟨resource, filled, decide_eq_true same⟩⟩
  rw [System.opened, Bool.or_eq_true, Bool.or_eq_true, or_assoc, cells, Option.any_eq_true,
    List.any_eq_true]
  simp only [Bool.and_eq_true, decide_eq_true_eq]

theorem live_cell {resource : CachedResource} (member : resource ∈ system.cache.live) :
    ∃ cell, system.cache.cellAt cell = some (.filled resource) := by
  rcases List.mem_filterMap.mp member with ⟨slot, among, filled⟩
  rcases List.getElem?_of_mem among with ⟨cell, present⟩
  refine ⟨cell, Machine.resourceAt_some.mp ?_⟩
  rw [State.resourceAt, State.cellAt, present]
  exact filled

theorem rest_opened {capacity : UInt64} (inv : Inv capacity system.cache) (held : Held system.cache)
    (rest : system.AtRest) (file : TaskId) : system.opened file = true ↔
      ∃ resource ∈ system.cache.residents, resource.id = file := by
  rw [opened_iff]
  constructor
  · intro needed
    rcases needed with ⟨task, present, stored⟩ | ⟨resource, member, same⟩ | ⟨stream, member, live, -⟩
    · have ended := rest.quiet task (List.mem_of_getElem? present)
      cases stage : task.pc <;> simp_all [Pc.fetched, Pc.ended]
    · exact ⟨resource, (Machine.live_residents inv held rest.quiet).subset member, same⟩
    · rw [rest.stopped stream member] at live
      cases live
  · intro resident
    rcases resident with ⟨resource, member, same⟩
    exact Or.inr (Or.inl ⟨resource,
      (Machine.live_residents inv held rest.quiet).symm.subset member, same⟩)

section Runs

variable [PathTree T] {capacity : UInt64} {slots : Nat} {positive : 0 < slots}

theorem closed_unneeded
    (reached : Transition.run System.step (System.initial capacity slots positive) actions =
      some system) : ∀ file, (system.files file).isSome → system.opened file = true := by
  refine Transition.run_induction (fun (_ : List (Action T)) (system : System) =>
    ∀ file, (system.files file).isSome → system.opened file = true) ?_ ?_ reached
  · intro file found
    cases found
  · intro actions system action next _ before taken file found
    have retained (before : System) (kept : (before.closeUnused.files file).isSome) :
        before.closeUnused.opened file = true := by
      change before.opened file = true
      by_contra unneeded
      simp [System.closeUnused, OpenFile.retained, unneeded] at kept
    rcases step_parts taken with ⟨cached, cache, -, -, rfl⟩ | ⟨id, event, stream, after, -, -, -, rfl⟩
    · exact retained _ found
    · exact retained _ found

/-- A file is open exactly while something needs it. -/
theorem files_open
    (reached : Transition.run System.step (System.initial capacity slots positive) actions =
      some system) (file : TaskId) : (system.files file).isSome ↔ system.opened file = true := by
  refine ⟨closed_unneeded reached file, ?_⟩
  intro needed
  have filed := run_filed reached
  rcases opened_iff.mp needed with ⟨task, present, stored⟩ | ⟨resource, member, rfl⟩ |
    ⟨stream, member, live, rfl⟩
  · rcases Option.isSome_iff_exists.mp stored with ⟨fetched, stored⟩
    rcases filed.tasks file task fetched present stored with ⟨opened, found, -⟩
    exact Option.isSome_of_eq_some found
  · rcases live_cell member with ⟨cell, filled⟩
    rcases filed.cells cell resource filled with ⟨opened, found, -⟩
    exact Option.isSome_of_eq_some found
  · rcases List.getElem?_of_mem member with ⟨id, present⟩
    rcases run_follows reached present with ⟨resource, opened, follows⟩
    exact Option.isSome_of_eq_some (follows.handle live)

theorem live_fileSize
    (reached : Transition.run System.step (System.initial capacity slots positive) actions =
      some system) {resource : CachedResource} (member : resource ∈ system.cache.live) :
    system.fileSize resource.id = resource.size.toNat := by
  rcases live_cell member with ⟨cell, filled⟩
  rcases (run_filed reached).cells cell resource filled with ⟨opened, found, same⟩
  rw [System.fileSize, found, CachedResource.size, file_size, ← same]
  rfl

/-- Descriptors of cache files go beyond the limit by what is in flight alone. -/
theorem descriptors_bounded
    (reached : Transition.run System.step (System.initial capacity slots positive) actions =
      some system) :
    system.descriptors ≤ slots + (system.cache.unfinished.length + 1) +
        system.cache.tasks.countP (fun task => task.pc.hasClone) +
        system.streams.countP Stream.live ∧
      system.descriptors ≤
        slots + 2 * system.cache.unfinished.length + system.streams.countP Stream.live ∧
      (system.AtRest → system.descriptors = system.cache.residents.length ∧
        system.descriptors ≤ slots ∧
        (∀ file, (system.files file).isSome ↔
          ∃ resource ∈ system.cache.residents, resource.id = file) ∧
        (system.cache.residents.map fun resource => system.fileSize resource.id).sum ≤
          capacity.toNat) := by
  have ran := run_cache reached
  have inv := Machine.run_inv ran
  have held := Machine.run_held ran
  have residents := Machine.residents_slots ran
  have split := (Machine.live_split inv).length_eq
  rw [List.length_append] at split
  refine ⟨?_, ?_, ?_⟩
  · have few := Machine.files_in_hand inv held
    rw [System.descriptors]
    omega
  · have few := Machine.files_and_clones system.cache
    have orphans := (Machine.orphans_in_hand inv held).trans Machine.hands_unfinished
    rw [System.descriptors]
    omega
  · intro rest
    have live := Machine.live_residents inv held rest.quiet
    have gets : system.cache.tasks.countP (fun task => task.pc.hasFile) = 0 := by
      apply List.countP_eq_zero.mpr
      intro task member has
      have ended := rest.quiet task member
      rw [Machine.file_unended has] at ended
      cases ended
    have clones : system.cache.tasks.countP (fun task => task.pc.hasClone) = 0 := by
      apply List.countP_eq_zero.mpr
      intro task member has
      have ended := rest.quiet task member
      rw [Machine.clone_unended has] at ended
      cases ended
    have streams : system.streams.countP Stream.live = 0 := by
      apply List.countP_eq_zero.mpr
      intro stream member
      simp [rest.stopped stream member]
    have count : system.descriptors = system.cache.residents.length := by
      rw [System.descriptors, gets, clones, streams, live.length_eq, Nat.zero_add, Nat.add_zero]
    refine ⟨count, count ▸ residents, ?_, ?_⟩
    · intro file
      exact (files_open reached file).trans (rest_opened inv held rest file)
    · have sizes : (system.cache.residents.map fun resource => system.fileSize resource.id) =
          system.cache.residents.map fun resource => resource.size.toNat := by
        apply List.map_congr_left
        intro resource member
        exact live_fileSize reached (live.symm.subset member)
      have available := Machine.quiet_available inv held rest.quiet
      have same := (live.map fun resource => resource.size.toNat).sum_eq
      rw [sizes]
      omega

/-- Two files are cached, and the body of a response is still read from one of them. -/
def streamingActions : List (Action LiteralTree) :=
  (Machine.fetchActions plainCache "/a" epoch 0 (plainBody [1, 2]) ++
      Machine.fillActions 0 ⟨epoch, ⟨0⟩⟩ ++ Machine.respondActions 0 ++
      Machine.fetchActions plainCache "/b" epoch 1 (plainBody [3]) ++
      Machine.fillActions 1 ⟨epoch, ⟨0⟩⟩).map .cache ++
    [.stream 0 (.read (.bytes 7))]

/-- The second get is about to answer with a clone of its file. -/
theorem descriptors_bounded_streaming :
    ∃ system, Transition.run System.step (System.initial 10 2 (by decide))
        (streamingActions ++ [.cache (.count 1)]) = some system ∧ system.descriptors = 4 ∧
      system.descriptors ≤ 2 + (system.cache.unfinished.length + 1) +
        system.cache.tasks.countP (fun task => task.pc.hasClone) +
        system.streams.countP Stream.live ∧
      system.descriptors ≤
        2 + 2 * system.cache.unfinished.length + system.streams.countP Stream.live := by
  have shape : (Transition.run System.step (System.initial 10 2 (by decide))
      (streamingActions ++ [.cache (.count 1)])).map System.descriptors = some 4 := rfl
  rcases Option.map_eq_some_iff.mp shape with ⟨system, reached, count⟩
  have bounded := descriptors_bounded reached
  exact ⟨system, reached, count, bounded.1, bounded.2.1⟩

end Runs

section Abandoned

/-- The steps that a producer can take when nobody receives. -/
def owed : Producer → Nat
  | .reading => 2
  | .sending _ => 1
  | .stopped => 0

theorem turn_abandoned {file : Option (OpenFile UInt8)} {after : Stream} {event : Event}
    (gone : stream.body.body = .dropped) (turn : Turn file stream event after) :
    after.body.body = .dropped ∧ after.received = stream.received ∧
      owed after.producer < owed stream.producer := by
  cases turn with
  | readEnd opened read handle stage last =>
      rw [stage]
      exact ⟨gone, rfl, Nat.two_pos⟩
  | readItem opened read item offset handle stage found =>
      rw [stage]
      exact ⟨gone, rfl, Nat.one_lt_two⟩
  | sendFailed item stage receiver =>
      rw [stage]
      exact ⟨gone, rfl, Nat.one_pos⟩
  | sendItem item stage receiver | pollItem item receiver | pollEnd receiver | drop receiver =>
      rw [gone] at receiver
      cases receiver

variable [PathTree T] {capacity : UInt64} {slots : Nat} {positive : 0 < slots}
  {later : List (Action T)} {final : System}

/-- The producer of a body whose client is gone takes two more steps at most, whatever the
others do, and can take them, whatever its reads return, until it gives up its file. -/
theorem abandoned_streams_stop
    (reached : Transition.run System.step (System.initial capacity slots positive) actions =
      some system) (present : system.streams[id]? = some stream)
    (gone : stream.body.body = .dropped)
    (onward : Transition.run System.step system later = some final) :
    ∃ after, final.streams[id]? = some after ∧ after.received = stream.received ∧
      (events id later).length + owed after.producer ≤ 2 ∧
      (after.live = true → ∀ read, (final.step (.stream id (.read read) : Action T)).isSome ∨
        (final.step (.stream id .send : Action T)).isSome) := by
  have left : ∃ after, final.streams[id]? = some after ∧ after.body.body = .dropped ∧
      after.received = stream.received ∧ (events id later).length + owed after.producer ≤ 2 := by
    refine Transition.run_induction (fun later (final : System) => ∃ after,
      final.streams[id]? = some after ∧ after.body.body = .dropped ∧
        after.received = stream.received ∧ (events id later).length + owed after.producer ≤ 2)
      ?_ ?_ onward
    · refine ⟨stream, present, gone, rfl, ?_⟩
      cases stream.producer <;> simp [owed, events]
    · intro later middle action next _ before taken
      rcases before with ⟨after, there, dropped, received, bound⟩
      rcases step_parts taken with
        ⟨cached, cache, rfl, -, rfl⟩ | ⟨other, event, moving, moved, rfl, known, stepped, rfl⟩
      · refine ⟨after, Arena.get_append_old _ there, dropped, received, ?_⟩
        rw [events_snoc]
        simpa [Action.eventOf] using bound
      · by_cases same : other = id
        · subst same
          obtain rfl : after = moving := Option.some.inj (there.symm.trans known)
          rcases turn_abandoned dropped (step_turns stepped) with ⟨still, unread, fewer⟩
          refine ⟨moved, Arena.get_set_self _ known, still, unread.trans received, ?_⟩
          rw [events_snoc, Action.eventOf, if_pos rfl, List.length_append]
          simp only [Option.toList_some, List.length_singleton]
          omega
        · refine ⟨after, (Arena.get_set_other _ _ same).trans there, dropped, received, ?_⟩
          rw [events_snoc, Action.eventOf, if_neg same]
          simpa using bound
  rcases left with ⟨after, there, dropped, received, bound⟩
  refine ⟨after, there, received, bound, ?_⟩
  intro live read
  have whole : Transition.run System.step (System.initial capacity slots positive)
      (actions ++ later) = some final := by
    rw [Transition.run_append, reached]
    exact onward
  rcases run_follows whole there with ⟨resource, opened, follows⟩
  cases stage : after.producer with
  | reading =>
      left
      simp only [System.step, there, Option.bind_some, Option.isSome_map, Stream.step,
        follows.handle live, Stream.read, stage]
      split <;> rfl
  | sending item =>
      right
      simp [System.step, there, Stream.step, Stream.send, stage, dropped]
  | stopped => simp [Stream.live, stage] at live

/-- The client goes away while an item is on its way into the channel. -/
theorem abandoned_streams_stop_sending :
    ∃ system final, Transition.run System.step (System.initial 10 2 (by decide))
        (streamingActions ++ [.stream 0 .drop]) = some system ∧
      Transition.run System.step system ([.stream 0 .send] : List (Action LiteralTree)) =
        some final ∧
      ∃ after, final.streams[0]? = some after ∧
        (events 0 ([.stream 0 .send] : List (Action LiteralTree))).length + owed after.producer ≤ 2 := by
  have shape : ∃ system, Transition.run System.step (System.initial 10 2 (by decide))
      (streamingActions ++ [.stream 0 .drop]) = some system ∧
      ∃ stream, system.streams[0]? = some stream ∧ stream.body.body = .dropped ∧
        ∃ final, Transition.run System.step system
          ([.stream 0 .send] : List (Action LiteralTree)) = some final :=
    ⟨_, rfl, _, rfl, rfl, _, rfl⟩
  rcases shape with ⟨system, reached, stream, present, gone, final, onward⟩
  rcases abandoned_streams_stop reached present gone onward with ⟨after, there, -, bound, -⟩
  exact ⟨system, final, reached, onward, after, there, bound⟩

end Abandoned

end Server3.SharedFiles
