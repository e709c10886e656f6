import Server3.OpenFile
import Server3.Resource
import Server3.Transition

/-! The body of a response from a cache file: a blocking task that reads the file, a
channel with room for one item, and the client that polls the other end. -/

namespace Server3.Streaming

open Upstream Resource

structure SizeHint where
  lower : UInt64
  upper : Option UInt64
  deriving DecidableEq, Repr

def SizeHint.withExact (value : UInt64) : SizeHint := ⟨value, some value⟩

def SizeHint.exact (hint : SizeHint) : Option UInt64 :=
  if hint.upper = some hint.lower then hint.upper else none

structure BodyWithSize (B : Type) where
  body : B
  declared : Option SizeHint

namespace BodyWithSize

variable {B : Type}

def new (body : B) : BodyWithSize B := ⟨body, none⟩

def withSizeHint (body : BodyWithSize B) (sizeHint : Option SizeHint) : BodyWithSize B :=
  { body with declared := sizeHint }

def sizeHint (body : BodyWithSize B) (inner : B → SizeHint) : SizeHint :=
  body.declared.getD (inner body.body)

end BodyWithSize

abbrev Item := Except String Bytes

/-- One turn of the loop up to its send: what is sent and the next offset. Only a
read of nothing breaks here. -/
def nextItem (file : OpenFile UInt8) (offset : Nat) : FileRead → Option (Item × Nat)
  | .failed message => some (.error message, offset)
  | .bytes more =>
      match file.readAt offset (min (more + 1) bufferSize) with
      | [] => none
      | first :: chunk => some (.ok (first :: chunk), offset + (first :: chunk).length)

theorem nextItem_bytes (file : OpenFile UInt8) (offset more : Nat) :
    (nextItem file offset (.bytes more) = none ∧ file.content.length ≤ offset) ∨
      ∃ chunk, nextItem file offset (.bytes more) = some (.ok chunk, offset + chunk.length) ∧
        0 < chunk.length ∧
        chunk.length = min (min (more + 1) bufferSize) (file.content.length - offset) ∧
        file.content.take offset ++ chunk = file.content.take (offset + chunk.length) := by
  have asks : 0 < min (more + 1) bufferSize := by
    simp only [bufferSize]
    omega
  simp only [nextItem]
  split
  · rename_i nothing
    exact Or.inl ⟨rfl, (OpenFile.readAt_nil asks).mp nothing⟩
  · rename_i first chunk found
    refine Or.inr ⟨first :: chunk, rfl, Nat.succ_pos _, ?_, ?_⟩
    · rw [← found, OpenFile.readAt_length]
    · rw [← found, OpenFile.take_readAt]

/-- `streamFile` is this loop for a client that takes all it is sent. -/
theorem streamFile_cons {file : OpenFile UInt8} {stored : File}
    (content : file.content = stored.content) (offset : Nat) (read : FileRead)
    (rest : List FileRead) :
    streamFile stored offset (read :: rest) =
      match nextItem file offset read with
      | none => ⟨[], true⟩
      | some (item, next) =>
          ⟨item :: (streamFile stored next rest).frames, (streamFile stored next rest).ended⟩ := by
  cases read with
  | failed message => rfl
  | bytes more =>
      cases found : (stored.content.drop offset).take (min (more + 1) bufferSize) with
      | nil => simp only [streamFile, nextItem, OpenFile.readAt, content, found]
      | cons first chunk => simp only [streamFile, nextItem, OpenFile.readAt, content, found]

/-- Where the blocking task is. It drops its file and its sender when it stops. -/
inductive Producer where
  | reading
  | sending (item : Item)
  | stopped
  deriving DecidableEq

inductive Receiver where
  | opened
  | ended
  | dropped
  deriving DecidableEq

/-- The stream of the response to one get, from the file that some get stored. -/
structure Stream where
  get : Uuid
  file : Uuid
  body : BodyWithSize Receiver
  offset : Nat
  producer : Producer
  channel : Option Item
  received : List Item

namespace Stream

/-- `body_from_cached_resource`. -/
def new (get : Uuid) (resource : CachedResource) : Stream where
  get := get
  file := resource.id
  body := (BodyWithSize.new .opened).withSizeHint (some (SizeHint.withExact resource.size))
  offset := 0
  producer := .reading
  channel := none
  received := []

def live (stream : Stream) : Bool := stream.producer ≠ .stopped

def setReceiver (stream : Stream) (receiver : Receiver) : Stream :=
  { stream with body := { stream.body with body := receiver } }

def read (stream : Stream) (file : OpenFile UInt8) (read : FileRead) : Option Stream :=
  match stream.producer with
  | .reading =>
      match nextItem file stream.offset read with
      | none => some { stream with producer := .stopped }
      | some (item, offset) => some { stream with producer := .sending item, offset := offset }
  | _ => none

/-- `blocking_send` waits for room in the channel, and fails without a receiver. -/
def send (stream : Stream) : Option Stream :=
  match stream.producer, stream.body.body, stream.channel with
  | .sending _, .dropped, _ => some { stream with producer := .stopped }
  | .sending item, .opened, none =>
      some { stream with producer := .reading, channel := some item }
  | _, _, _ => none

/-- `poll_frame` is pending while the channel is empty and has a sender. -/
def poll (stream : Stream) : Option Stream :=
  match stream.body.body, stream.channel, stream.producer with
  | .opened, some item, _ =>
      some { stream with channel := none, received := stream.received ++ [item] }
  | .opened, none, .stopped => some (stream.setReceiver .ended)
  | _, _, _ => none

def drop (stream : Stream) : Option Stream :=
  match stream.body.body with
  | .opened => some (stream.setReceiver .dropped)
  | _ => none

end Stream

inductive Event where
  | read (read : FileRead)
  | send
  | poll
  | drop
  deriving DecidableEq

namespace Event

def drives : Event → Bool
  | .drop => false
  | _ => true

def fails : Event → Bool
  | .read (.failed _) => true
  | _ => false

end Event

def Stream.step (file : Option (OpenFile UInt8)) (stream : Stream) : Event → Option Stream
  | .read read => file.bind fun file => stream.read file read
  | .send => stream.send
  | .poll => stream.poll
  | .drop => stream.drop

inductive Turn (file : Option (OpenFile UInt8)) (stream : Stream) : Event → Stream → Prop where
  | readEnd (opened : OpenFile UInt8) (read : FileRead) (handle : file = some opened)
      (stage : stream.producer = .reading) (last : nextItem opened stream.offset read = none) :
      Turn file stream (.read read) { stream with producer := .stopped }
  | readItem (opened : OpenFile UInt8) (read : FileRead) (item : Item) (offset : Nat)
      (handle : file = some opened) (stage : stream.producer = .reading)
      (found : nextItem opened stream.offset read = some (item, offset)) :
      Turn file stream (.read read)
        { stream with producer := .sending item, offset := offset }
  | sendItem (item : Item) (stage : stream.producer = .sending item)
      (receiver : stream.body.body = .opened) (room : stream.channel = none) :
      Turn file stream .send { stream with producer := .reading, channel := some item }
  | sendFailed (item : Item) (stage : stream.producer = .sending item)
      (receiver : stream.body.body = .dropped) :
      Turn file stream .send { stream with producer := .stopped }
  | pollItem (item : Item) (receiver : stream.body.body = .opened)
      (waiting : stream.channel = some item) :
      Turn file stream .poll
        { stream with channel := none, received := stream.received ++ [item] }
  | pollEnd (receiver : stream.body.body = .opened) (nothing : stream.channel = none)
      (stage : stream.producer = .stopped) : Turn file stream .poll (stream.setReceiver .ended)
  | drop (receiver : stream.body.body = .opened) :
      Turn file stream .drop (stream.setReceiver .dropped)

variable {file : Option (OpenFile UInt8)} {stream next : Stream} {event : Event}

theorem step_turns (taken : stream.step file event = some next) : Turn file stream event next := by
  cases event with
  | read read =>
      rcases Option.bind_eq_some_iff.mp taken with ⟨opened, handle, reading⟩
      unfold Stream.read at reading
      split at reading
      · rename_i stage
        split at reading
        · rename_i last
          cases reading
          exact .readEnd opened read handle stage last
        · rename_i item offset found
          cases reading
          exact .readItem opened read item offset handle stage found
      · cases reading
  | send =>
      simp only [Stream.step] at taken
      unfold Stream.send at taken
      split at taken
      · rename_i item stage receiver
        cases taken
        exact .sendFailed item stage receiver
      · rename_i item stage receiver room
        cases taken
        exact .sendItem item stage receiver room
      · cases taken
  | poll =>
      simp only [Stream.step] at taken
      unfold Stream.poll at taken
      split at taken
      · rename_i item receiver waiting
        cases taken
        exact .pollItem item receiver waiting
      · rename_i receiver nothing stage
        cases taken
        exact .pollEnd receiver nothing stage
      · cases taken
  | drop =>
      simp only [Stream.step] at taken
      unfold Stream.drop at taken
      split at taken
      · rename_i receiver
        cases taken
        exact .drop receiver
      · cases taken

theorem turn_frame (turn : Turn file stream event next) :
    next.get = stream.get ∧ next.file = stream.file ∧
      next.body.declared = stream.body.declared ∧ (next.live = true → stream.live = true) := by
  cases turn with
  | readEnd | sendFailed => exact ⟨rfl, rfl, rfl, fun live => by simp [Stream.live] at live⟩
  | readItem _ _ _ _ _ stage | sendItem _ stage =>
      exact ⟨rfl, rfl, rfl, fun _ => by simp [Stream.live, stage]⟩
  | pollItem | pollEnd | drop => exact ⟨rfl, rfl, rfl, id⟩

theorem step_alone {opened : OpenFile UInt8} (handle : stream.live = true → file = some opened)
    (taken : stream.step file event = some next) :
    stream.step (some opened) event = some next := by
  cases event with
  | read read =>
      have reading : stream.live = true := by
        cases step_turns taken with
        | readEnd _ _ _ stage => simp [Stream.live, stage]
        | readItem _ _ _ _ _ stage => simp [Stream.live, stage]
      rw [← handle reading, taken]
  | send | poll | drop => exact taken

theorem step_enabled (waiting : stream.body.body = .opened)
    (handle : stream.live = true → file.isSome = true) :
    ∃ event, event.drives = true ∧ event.fails = false ∧
      (stream.step file event).isSome = true := by
  cases stage : stream.producer with
  | reading =>
      rcases Option.isSome_iff_exists.mp (handle (by simp [Stream.live, stage])) with
        ⟨opened, rfl⟩
      refine ⟨.read (.bytes 0), rfl, rfl, ?_⟩
      simp only [Stream.step, Option.bind_some, Stream.read, stage]
      split <;> rfl
  | sending item =>
      cases held : stream.channel with
      | none =>
          refine ⟨.send, rfl, rfl, ?_⟩
          simp only [Stream.step, Stream.send, stage, waiting, held, Option.isSome_some]
      | some earlier =>
          refine ⟨.poll, rfl, rfl, ?_⟩
          simp only [Stream.step, Stream.poll, waiting, held, Option.isSome_some]
  | stopped =>
      refine ⟨.poll, rfl, rfl, ?_⟩
      cases held : stream.channel <;>
        simp only [Stream.step, Stream.poll, waiting, held, stage, Option.isSome_some]

/-- The items are frames with these bytes, and no errors. -/
def Carries (items : List Item) (bytes : Bytes) : Prop :=
  ∃ frames : List Bytes, items = frames.map .ok ∧ frames.flatten = bytes

theorem carries_nil : Carries [] [] := ⟨[], rfl, rfl⟩

theorem carries_snoc {items : List Item} {bytes : Bytes} (chunk : Bytes)
    (carried : Carries items bytes) : Carries (items ++ [.ok chunk]) (bytes ++ chunk) := by
  rcases carried with ⟨frames, rfl, rfl⟩
  exact ⟨frames ++ [chunk], by simp, by simp⟩

theorem carries_front {items later : List Item} {bytes : Bytes}
    (carried : Carries (items ++ later) bytes) :
    ∃ front, Carries items front ∧ front <+: bytes := by
  rcases carried with ⟨frames, equal, rfl⟩
  rcases List.map_eq_append_iff.mp equal.symm with ⟨front, rest, rfl, rfl, rfl⟩
  exact ⟨front.flatten, ⟨front, rfl, rfl⟩, by simp⟩

def Producer.items : Producer → List Item
  | .sending item => [item]
  | _ => []

/-- What was read, in order: received, in the channel or about to be sent. -/
def Stream.items (stream : Stream) : List Item :=
  stream.received ++ stream.channel.toList ++ stream.producer.items

/-- A stream whose client is there has lost nothing of what it read. -/
structure Connected (content : Bytes) (stream : Stream) : Prop where
  items : Carries stream.items (content.take stream.offset)
  stopped : stream.producer = .stopped → stream.offset = content.length
  ended : stream.body.body = .ended → stream.producer = .stopped ∧ stream.channel = none

def Producer.remaining : Producer → Nat
  | .reading => 1
  | .sending _ => 3
  | .stopped => 0

def Receiver.remaining : Receiver → Nat
  | .opened => 1
  | _ => 0

/-- A bound of the steps that its parties can still take without an error: a byte is
read, sent and polled. -/
def Stream.remaining (stream : Stream) (content : Bytes) : Nat :=
  3 * (content.length - stream.offset) + stream.producer.remaining +
    stream.channel.toList.length + stream.body.body.remaining

structure Progressed (content : Bytes) (stream : Stream) (steps : Nat) : Prop where
  within : stream.offset ≤ content.length
  received : ∃ bytes, Carries stream.received bytes ∧ bytes <+: content
  connected : stream.body.body ≠ .dropped → Connected content stream
  budget : steps + stream.remaining content ≤ 3 * content.length + 2

theorem received_of_items {content : Bytes} (connected : Connected content stream) :
    ∃ bytes, Carries stream.received bytes ∧ bytes <+: content := by
  have carried := connected.items
  rw [Stream.items, List.append_assoc] at carried
  rcases carries_front carried with ⟨front, received, within⟩
  exact ⟨front, received, within.trans (List.take_prefix _ _)⟩

theorem new_progressed (get : Uuid) (resource : CachedResource) (content : Bytes) :
    Progressed content (Stream.new get resource) 0 := by
  refine ⟨Nat.zero_le _, ⟨[], carries_nil, List.nil_prefix⟩,
    fun _ => ⟨carries_nil, nofun, nofun⟩, ?_⟩
  simp [Stream.remaining, Stream.new, Producer.remaining, BodyWithSize.withSizeHint,
    BodyWithSize.new, Receiver.remaining]

variable {content : Bytes} {steps : Nat}

theorem nextItem_none {opened : OpenFile UInt8} {offset : Nat} {read : FileRead}
    (last : nextItem opened offset read = none) : opened.content.length ≤ offset := by
  cases read with
  | failed message => cases last
  | bytes more =>
      rcases nextItem_bytes opened offset more with ⟨-, exhausted⟩ | ⟨chunk, found, -⟩
      · exact exhausted
      · rw [last] at found
        cases found

theorem nextItem_some {opened : OpenFile UInt8} {offset after : Nat} {read : FileRead} {item : Item}
    (errorFree : (Event.read read).fails = false)
    (found : nextItem opened offset read = some (item, after)) :
    ∃ chunk, item = .ok chunk ∧ offset < after ∧ after ≤ opened.content.length ∧
      opened.content.take offset ++ chunk = opened.content.take after := by
  cases read with
  | failed message => cases errorFree
  | bytes more =>
      rcases nextItem_bytes opened offset more with
        ⟨nothing, -⟩ | ⟨chunk, some, positive, size, follows⟩
      · rw [nothing] at found
        cases found
      · rw [some] at found
        cases found
        exact ⟨chunk, rfl, by omega, by omega, follows⟩

/-- Every step of the two parties pays for itself; the client may go away for nothing. -/
theorem turn_remaining (handle : ∀ opened, file = some opened → opened.content = content)
    (errorFree : event.fails = false) (within : stream.offset ≤ content.length)
    (turn : Turn file stream event next) :
    next.offset ≤ content.length ∧
      next.remaining content + event.drives.toNat ≤ stream.remaining content := by
  cases turn with
  | readEnd opened read found stage last =>
      refine ⟨within, ?_⟩
      simp only [Stream.remaining, stage, Producer.remaining, Event.drives, Bool.toNat_true]
      omega
  | readItem opened read item offset found stage next =>
      rcases nextItem_some errorFree next with ⟨chunk, -, forward, inside, -⟩
      rw [handle opened found] at inside
      refine ⟨inside, ?_⟩
      simp only [Stream.remaining, stage, Producer.remaining, Event.drives, Bool.toNat_true]
      omega
  | sendItem item stage receiver room =>
      refine ⟨within, ?_⟩
      simp only [Stream.remaining, stage, room, Producer.remaining, Event.drives,
        Bool.toNat_true, Option.toList_none, Option.toList_some, List.length_nil, List.length_cons]
      omega
  | sendFailed item stage receiver =>
      refine ⟨within, ?_⟩
      simp only [Stream.remaining, stage, Producer.remaining, Event.drives, Bool.toNat_true]
      omega
  | pollItem item receiver waiting =>
      refine ⟨within, ?_⟩
      simp only [Stream.remaining, waiting, Event.drives, Bool.toNat_true, Option.toList_none,
        Option.toList_some, List.length_nil, List.length_cons]
      omega
  | pollEnd receiver nothing stage =>
      refine ⟨within, ?_⟩
      simp only [Stream.remaining, Stream.setReceiver, receiver, Receiver.remaining,
        Event.drives, Bool.toNat_true]
      omega
  | drop receiver =>
      refine ⟨within, ?_⟩
      simp only [Stream.remaining, Stream.setReceiver, receiver, Receiver.remaining,
        Event.drives, Bool.toNat_false]
      omega

theorem turn_connected (handle : ∀ opened, file = some opened → opened.content = content)
    (errorFree : event.fails = false) (within : stream.offset ≤ content.length)
    (here : next.body.body ≠ .dropped)
    (before : stream.body.body ≠ .dropped → Connected content stream)
    (turn : Turn file stream event next) : Connected content next := by
  cases turn with
  | readEnd opened read found stage last =>
      have connected := before here
      have carried := connected.items
      have exhausted := nextItem_none last
      rw [handle opened found] at exhausted
      refine ⟨?_, fun _ => Nat.le_antisymm within exhausted,
        fun ended => ⟨rfl, (connected.ended ended).2⟩⟩
      simpa only [Stream.items, stage, Producer.items] using carried
  | readItem opened read item offset found stage next =>
      have connected := before here
      rcases nextItem_some errorFree next with ⟨chunk, rfl, -, -, follows⟩
      rw [handle opened found] at follows
      have carried := carries_snoc chunk connected.items
      refine ⟨?_, nofun, ?_⟩
      · simpa only [Stream.items, stage, Producer.items, List.append_nil, follows] using carried
      · intro ended
        have stopped := (connected.ended ended).1
        rw [stage] at stopped
        cases stopped
  | sendItem item stage receiver room =>
      have carried := (before here).items
      refine ⟨?_, nofun, ?_⟩
      · simpa [Stream.items, stage, room, Producer.items] using carried
      · rw [receiver]
        nofun
  | sendFailed item stage receiver => exact absurd receiver here
  | pollItem item receiver waiting =>
      have connected := before here
      have carried := connected.items
      refine ⟨?_, connected.stopped, ?_⟩
      · simpa [Stream.items, waiting] using carried
      · simp only [receiver]
        nofun
  | pollEnd receiver nothing stage =>
      have connected := before (by rw [receiver]; nofun)
      exact ⟨connected.items, connected.stopped, fun _ => ⟨stage, nothing⟩⟩
  | drop receiver => exact absurd rfl here

theorem turn_received (before : ∃ bytes, Carries stream.received bytes ∧ bytes <+: content)
    (connected : next.body.body ≠ .dropped → Connected content next)
    (turn : Turn file stream event next) :
    ∃ bytes, Carries next.received bytes ∧ bytes <+: content := by
  cases turn with
  | pollItem item receiver waiting =>
      exact received_of_items (connected (by simp only [receiver]; nofun))
  | _ => exact before

theorem turn_progressed (handle : ∀ opened, file = some opened → opened.content = content)
    (errorFree : event.fails = false) (before : Progressed content stream steps)
    (turn : Turn file stream event next) :
    Progressed content next (steps + event.drives.toNat) := by
  have connected (here : next.body.body ≠ .dropped) : Connected content next :=
    turn_connected handle errorFree before.within here before.connected turn
  rcases turn_remaining handle errorFree before.within turn with ⟨within, less⟩
  refine ⟨within, turn_received before.received connected turn, connected, ?_⟩
  have budget := before.budget
  omega

theorem run_progressed {opened : OpenFile UInt8} {get : Uuid} {resource : CachedResource}
    {events : List Event} (errorFree : ∀ event ∈ events, event.fails = false)
    (reached : Transition.run (Stream.step (some opened)) (Stream.new get resource) events =
      some stream) : Progressed opened.content stream (events.countP Event.drives) := by
  revert errorFree
  refine Transition.run_induction (fun events stream =>
    (∀ event ∈ events, event.fails = false) →
      Progressed opened.content stream (events.countP Event.drives)) ?_ ?_ reached
  · intro _
    exact new_progressed get resource opened.content
  · intro events stream event next _ before taken errorFree
    have earlier := before fun event member => errorFree event (List.mem_append_left _ member)
    have after := turn_progressed (fun _ same => by cases same; rfl)
      (errorFree event (by simp)) earlier (step_turns taken)
    rw [List.countP_append, List.countP_singleton]
    cases driven : event.drives <;> simpa [driven] using after

theorem run_declared {opened : OpenFile UInt8} {get : Uuid} {resource : CachedResource}
    {events : List Event}
    (reached : Transition.run (Stream.step (some opened)) (Stream.new get resource) events =
      some stream) : stream.body.declared = some (SizeHint.withExact resource.size) := by
  refine Transition.run_induction (fun _ (stream : Stream) =>
    stream.body.declared = some (SizeHint.withExact resource.size)) rfl ?_ reached
  intro events stream event next _ before taken
  rw [(turn_frame (step_turns taken)).2.2.1, before]

/-- Without read errors the client gets the frames of a prefix of the content, and all
of it when the body ends. The parties are done after a bounded number of steps. -/
structure Reproduces (content : Bytes) (stream : Stream) (events : List Event) : Prop where
  size : ∀ inner, ∃ size, (stream.body.sizeHint inner).exact = some size ∧
    size.toNat = content.length
  frames : ∃ frames : List Bytes, stream.received = frames.map .ok ∧ frames.flatten <+: content ∧
    (stream.body.body = .ended → frames.flatten = content)
  steps : events.countP Event.drives ≤ 3 * content.length + 2

theorem received_of_ended (before : Progressed content stream steps)
    (ended : stream.body.body = .ended) : Carries stream.received content := by
  have connected := before.connected (by rw [ended]; nofun)
  rcases connected.ended ended with ⟨stage, nothing⟩
  have carried := connected.items
  rw [connected.stopped stage, List.take_length] at carried
  simpa only [Stream.items, nothing, stage, Producer.items, Option.toList_none,
    List.append_nil] using carried

theorem run_reproduces {opened : OpenFile UInt8} {get : Uuid} {resource : CachedResource}
    {events : List Event} (content : opened.content = resource.file.content)
    (errorFree : ∀ event ∈ events, event.fails = false)
    (reached : Transition.run (Stream.step (some opened)) (Stream.new get resource) events =
      some stream) : Reproduces opened.content stream events := by
  have progressed := run_progressed errorFree reached
  refine ⟨?_, ?_, ?_⟩
  · intro inner
    refine ⟨resource.size, ?_, ?_⟩
    · simp [BodyWithSize.sizeHint, run_declared reached, SizeHint.withExact, SizeHint.exact]
    · rw [CachedResource.size, file_size, content]
  · by_cases ended : stream.body.body = .ended
    · rcases received_of_ended progressed ended with ⟨frames, received, whole⟩
      exact ⟨frames, received, ⟨[], by rw [whole, List.append_nil]⟩, fun _ => whole⟩
    · rcases progressed.received with ⟨bytes, ⟨frames, received, rfl⟩, front⟩
      exact ⟨frames, received, front, fun done => absurd done ended⟩
  · have budget := progressed.budget
    omega

end Server3.Streaming
