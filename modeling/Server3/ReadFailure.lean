import Mathlib.Algebra.BigOperators.Group.Finset.Basic
import Server3.Streaming

/-! The producer loop of `body_from_cached_resource` against reads that may fail, for a
client that takes all it is sent. A failed read is sent as an error and does not break. -/

namespace Server3.ReadFailure

open Upstream Resource Streaming

structure Loop where
  offset : Nat
  sent : List Item
  ended : Bool
  deriving DecidableEq

def Loop.start : Loop := ⟨0, [], false⟩

def Loop.turn (file : OpenFile UInt8) (loop : Loop) (read : FileRead) : Loop :=
  if loop.ended then loop
  else
    match nextItem file loop.offset read with
    | none => { loop with ended := true }
    | some (item, offset) => ⟨offset, loop.sent ++ [item], false⟩

def after (file : OpenFile UInt8) (reads : Nat → FileRead) : Nat → Loop
  | 0 => Loop.start
  | count + 1 => (after file reads count).turn file (reads count)

def failed : FileRead → Bool
  | .failed _ => true
  | .bytes _ => false

def amount : FileRead → Nat
  | .failed _ => 0
  | .bytes more => min (more + 1) bufferSize

/-- The loop ends once a read fails. It sends frames of the content in order, and then
nothing when that was all of it, or one error. -/
structure EndsOnFailure (file : OpenFile UInt8) (reads : Nat → FileRead) : Prop where
  ends : ∀ count, (after file reads count).ended = false → failed (reads count) = true →
    ∃ later, (after file reads later).ended = true
  sends : ∀ count,
    (∃ bytes, Carries (after file reads count).sent bytes ∧ bytes <+: file.content ∧
      ((after file reads count).ended = true → bytes = file.content)) ∨
    ∃ items message bytes, (after file reads count).sent = items ++ [.error message] ∧
      Carries items bytes ∧ bytes <+: file.content

def asked (reads : Nat → FileRead) (count : Nat) : Nat :=
  ∑ index ∈ Finset.range count, amount (reads index)

def Exhausted (file : OpenFile UInt8) (reads : Nat → FileRead) (count : Nat) : Prop :=
  file.content.length ≤ asked reads count

/-- A read at the end of the file that does not fail. -/
def ReadsEnd (file : OpenFile UInt8) (reads : Nat → FileRead) (count : Nat) : Prop :=
  Exhausted file reads count ∧ failed (reads count) = false

/-- A read fails only at the end of the file, right before the end is read, or never
happens because the end was read before. -/
def FailsLast (file : OpenFile UInt8) (reads : Nat → FileRead) : Prop :=
  ∀ count, failed (reads count) = true →
    (∃ earlier < count, ReadsEnd file reads earlier) ∨
      (Exhausted file reads count ∧ failed (reads (count + 1)) = false)

variable {file : OpenFile UInt8} {reads : Nat → FileRead} {count : Nat} {loop : Loop}
  {read : FileRead}

inductive Turned (file : OpenFile UInt8) (loop : Loop) : FileRead → Loop → Prop where
  | error (message : String) :
      Turned file loop (.failed message) ⟨loop.offset, loop.sent ++ [.error message], false⟩
  | last (more : Nat) (exhausted : file.content.length ≤ loop.offset) :
      Turned file loop (.bytes more) ⟨loop.offset, loop.sent, true⟩
  | chunk (more : Nat) (chunk : Bytes) (positive : 0 < chunk.length)
      (size : chunk.length = min (min (more + 1) bufferSize) (file.content.length - loop.offset))
      (follows : file.content.take loop.offset ++ chunk =
        file.content.take (loop.offset + chunk.length)) :
      Turned file loop (.bytes more)
        ⟨loop.offset + chunk.length, loop.sent ++ [.ok chunk], false⟩

theorem turn_turned (running : loop.ended = false) :
    Turned file loop read (loop.turn file read) := by
  rw [Loop.turn, running]
  cases read with
  | failed message => exact .error message
  | bytes more =>
      rcases nextItem_bytes file loop.offset more with
        ⟨nothing, exhausted⟩ | ⟨chunk, found, positive, size, follows⟩
      · rw [nothing]
        exact .last more exhausted
      · rw [found]
        exact .chunk more chunk positive size follows

theorem turn_ended (done : loop.ended = true) : loop.turn file read = loop := if_pos done

theorem asked_succ : asked reads (count + 1) = asked reads count + amount (reads count) :=
  Finset.sum_range_succ _ _

theorem exhausted_succ (exhausted : Exhausted file reads count) :
    Exhausted file reads (count + 1) := by
  rw [Exhausted, asked_succ]
  exact exhausted.trans (Nat.le_add_right _ _)

theorem after_step (running : (after file reads count).ended = false) :
    Turned file (after file reads count) (reads count) (after file reads (count + 1)) :=
  turn_turned running

theorem after_stays (done : (after file reads count).ended = true) :
    after file reads (count + 1) = after file reads count := turn_ended done

structure Accepts (loop : Loop) (stream : Stream) : Prop where
  offset : stream.offset = loop.offset
  received : stream.received = loop.sent
  channel : stream.channel = none
  client : stream.body.body = .opened
  producer : stream.producer = if loop.ended then .stopped else .reading

theorem turn_accepts {stream : Stream} (running : loop.ended = false)
    (before : Accepts loop stream) :
    ∃ events next, Transition.run (Stream.step (some file)) stream (.read read :: events) =
      some next ∧ Accepts (loop.turn file read) next := by
  have reading : stream.producer = .reading := by
    rw [before.producer, running]
    rfl
  cases found : nextItem file loop.offset read with
  | none =>
      refine ⟨[], { stream with producer := .stopped }, ?_, ?_⟩
      · simp only [Transition.run, Stream.step, Option.bind_some, Stream.read, reading,
          before.offset, found]
      · rw [Loop.turn, running, found]
        exact ⟨before.offset, before.received, before.channel, before.client, rfl⟩
  | some result =>
      refine ⟨[.send, .poll], { stream with
        offset := result.2, received := stream.received ++ [result.1] }, ?_, ?_⟩
      · simp only [Transition.run, Stream.step, Option.bind_some, Stream.read, Stream.send,
          Stream.poll, reading, before.offset, found, before.client, before.channel]
      · rw [Loop.turn, running, found]
        exact ⟨rfl, congrArg (· ++ [result.1]) before.received, before.channel, before.client,
          reading⟩

/-- The loop is what a stream does whose client keeps taking. -/
theorem after_accepts (file : OpenFile UInt8) (reads : Nat → FileRead) (get : Uuid)
    (resource : CachedResource) (count : Nat) :
    ∃ events stream, Transition.run (Stream.step (some file)) (Stream.new get resource) events =
      some stream ∧ Accepts (after file reads count) stream := by
  induction count with
  | zero => exact ⟨[], _, rfl, rfl, rfl, rfl, rfl, rfl⟩
  | succ count ih =>
      rcases ih with ⟨events, stream, reached, accepts⟩
      cases running : (after file reads count).ended with
      | true => exact ⟨events, stream, reached, after_stays running ▸ accepts⟩
      | false =>
          rcases @turn_accepts file _ (reads count) stream running accepts with
            ⟨more, next, continued, after⟩
          refine ⟨events ++ .read (reads count) :: more, next, ?_, after⟩
          rw [Transition.run_append, reached]
          exact continued

theorem turns_ended (reads : List FileRead) (done : loop.ended = true) :
    reads.foldl (Loop.turn file) loop = loop := by
  induction reads with
  | nil => rfl
  | cons read rest ih => rw [List.foldl_cons, turn_ended done, ih]

theorem streamFile_turns {stored : File} (content : file.content = stored.content)
    (reads : List FileRead) (running : loop.ended = false) :
    (reads.foldl (Loop.turn file) loop).sent =
        loop.sent ++ (streamFile stored loop.offset reads).frames ∧
      (reads.foldl (Loop.turn file) loop).ended =
        (streamFile stored loop.offset reads).ended := by
  induction reads generalizing loop with
  | nil => exact ⟨(List.append_nil _).symm, running⟩
  | cons read rest ih =>
      rw [List.foldl_cons, streamFile_cons content, Loop.turn, running]
      cases nextItem file loop.offset read with
      | none =>
          have stays := @turns_ended file { loop with ended := true } rest rfl
          exact ⟨(congrArg Loop.sent stays).trans (List.append_nil _).symm,
            congrArg Loop.ended stays⟩
      | some result =>
          have later := @ih ⟨result.2, loop.sent ++ [result.1], false⟩ rfl
          rw [List.append_assoc] at later
          exact later

theorem after_streamFile {stored : File} (content : file.content = stored.content)
    (reads : Nat → FileRead) (count : Nat) :
    (after file reads count).sent =
        (streamFile stored 0 ((List.range count).map reads)).frames ∧
      (after file reads count).ended =
        (streamFile stored 0 ((List.range count).map reads)).ended := by
  have turns : after file reads count =
      ((List.range count).map reads).foldl (Loop.turn file) Loop.start := by
    induction count with
    | zero => rfl
    | succ count ih => rw [List.range_succ, List.map_append, List.foldl_append, ← ih]; rfl
  rw [turns]
  exact streamFile_turns content _ rfl

theorem after_offset (running : (after file reads count).ended = false) :
    (after file reads count).offset = min file.content.length (asked reads count) := by
  induction count with
  | zero => exact (Nat.min_zero _).symm
  | succ count ih =>
      cases before : (after file reads count).ended with
      | true =>
          rw [after_stays before, before] at running
          cases running
      | false =>
          have place := ih before
          have turned := after_step before
          rw [asked_succ]
          generalize reads count = read at turned ⊢
          generalize after file reads (count + 1) = next at turned running ⊢
          cases turned with
          | error message => exact place
          | last more exhausted => cases running
          | chunk more chunk positive size follows =>
              simp only [amount]
              omega

theorem after_ended : (after file reads count).ended = true ↔
    ∃ earlier < count, ReadsEnd file reads earlier := by
  induction count with
  | zero => simp [after, Loop.start]
  | succ count ih =>
      cases before : (after file reads count).ended with
      | true =>
          rcases ih.mp before with ⟨earlier, less, ends⟩
          rw [after_stays before]
          exact iff_of_true before ⟨earlier, by omega, ends⟩
      | false =>
          have none : ¬∃ earlier < count, ReadsEnd file reads earlier := by
            rw [← ih, before]
            nofun
          have now : (after file reads (count + 1)).ended = true ↔ ReadsEnd file reads count := by
            have place := after_offset before
            have turned := after_step before
            rw [ReadsEnd, Exhausted]
            generalize reads count = read at turned ⊢
            generalize after file reads (count + 1) = next at turned ⊢
            cases turned with
            | error message => exact iff_of_false nofun fun ends => by cases ends.2
            | last more exhausted => exact iff_of_true rfl ⟨by omega, rfl⟩
            | chunk more chunk positive size follows =>
                exact iff_of_false nofun fun ends => by omega
          rw [now]
          constructor
          · intro ends
            exact ⟨count, Nat.lt_succ_self _, ends⟩
          · intro found
            rcases found with ⟨earlier, less, ends⟩
            rcases Nat.lt_succ_iff_lt_or_eq.mp less with sooner | rfl
            · exact absurd ⟨earlier, sooner, ends⟩ none
            · exact ends

/-- Nothing failed so far, or only the last read before the end of the file. -/
def Sound (file : OpenFile UInt8) (reads : Nat → FileRead) (count : Nat) : Prop :=
  (Carries (after file reads count).sent
      (file.content.take (after file reads count).offset) ∧
    ((after file reads count).ended = true →
      file.content.length ≤ (after file reads count).offset)) ∨
  ∃ items message, (after file reads count).sent = items ++ [.error message] ∧
    Carries items file.content ∧
    ((after file reads count).ended = true ∨ ReadsEnd file reads count)

theorem clean_step (late : FailsLast file reads) (running : (after file reads count).ended = false)
    (carried : Carries (after file reads count).sent
      (file.content.take (after file reads count).offset)) : Sound file reads (count + 1) := by
  have offset := after_offset running
  have turned := after_step running
  rw [Sound]
  cases fails : failed (reads count) with
  | true =>
      rcases late count fails with earlier | ⟨exhausted, next⟩
      · rw [after_ended.mpr earlier] at running
        cases running
      · rw [offset, Nat.min_eq_left exhausted, List.take_length] at carried
        right
        refine ⟨(after file reads count).sent, ?_⟩
        generalize reads count = read at turned fails
        generalize after file reads (count + 1) = later at turned ⊢
        cases turned with
        | error message =>
            exact ⟨message, rfl, carried, Or.inr ⟨exhausted_succ exhausted, next⟩⟩
        | last => cases fails
        | chunk => cases fails
  | false =>
      left
      generalize reads count = read at turned fails
      generalize after file reads (count + 1) = later at turned ⊢
      cases turned with
      | error message => cases fails
      | last more exhausted => exact ⟨carried, fun _ => exhausted⟩
      | chunk more chunk positive size follows =>
          exact ⟨follows ▸ carries_snoc chunk carried, nofun⟩

theorem end_step (running : (after file reads count).ended = false)
    (ends : ReadsEnd file reads count) :
    (after file reads (count + 1)).sent = (after file reads count).sent ∧
      (after file reads (count + 1)).ended = true := by
  have done : (after file reads (count + 1)).ended = true :=
    after_ended.mpr ⟨count, Nat.lt_succ_self _, ends⟩
  refine ⟨?_, done⟩
  have turned := after_step running
  generalize reads count = read at turned
  generalize after file reads (count + 1) = later at turned done ⊢
  cases turned with
  | error => cases done
  | last => rfl
  | chunk => cases done

theorem sound_step (late : FailsLast file reads) (before : Sound file reads count) :
    Sound file reads (count + 1) := by
  cases place : (after file reads count).ended with
  | true =>
      rw [Sound, after_stays place]
      rcases before with clean | ⟨items, message, sent, carried, -⟩
      · exact Or.inl clean
      · exact Or.inr ⟨items, message, sent, carried, Or.inl place⟩
  | false =>
      rcases before with ⟨carried, -⟩ | ⟨items, message, sent, carried, still⟩
      · exact clean_step late place carried
      · have ends : ReadsEnd file reads count := by
          rcases still with done | ends
          · rw [place] at done
            cases done
          · exact ends
        rcases end_step place ends with ⟨same, done⟩
        exact Or.inr ⟨items, message, same.trans sent, carried, Or.inl done⟩

theorem sound_all (late : FailsLast file reads) (count : Nat) : Sound file reads count := by
  induction count with
  | zero => exact Or.inl ⟨carries_nil, nofun⟩
  | succ count ih => exact sound_step late ih

theorem ends_of_late (late : FailsLast file reads) : EndsOnFailure file reads := by
  constructor
  · intro count running fails
    rcases late count fails with earlier | ⟨exhausted, next⟩
    · exact ⟨count, after_ended.mpr earlier⟩
    · exact ⟨count + 2, after_ended.mpr
        ⟨count + 1, Nat.lt_succ_self _, exhausted_succ exhausted, next⟩⟩
  · intro count
    rcases sound_all late count with ⟨carried, ended⟩ | ⟨items, message, sent, carried, -⟩
    · refine Or.inl ⟨_, carried, List.take_prefix _ _, ?_⟩
      intro done
      exact List.take_of_length_le (ended done)
    · exact Or.inr ⟨items, message, _, sent, carried, List.prefix_refl _⟩

/-- An error can only be the last of what is sent. -/
theorem error_last {items : List Item} {message : String} {item : Item}
    (ends : EndsOnFailure file reads) :
    (after file reads count).sent ≠ items ++ [.error message] ++ [item] := by
  intro sent
  have impossible {rest : List Item} {bytes : Bytes} (carried : Carries rest bytes)
      (among : .error message ∈ rest) : False := by
    rcases carried with ⟨frames, rfl, -⟩
    simp at among
  rcases ends.sends count with ⟨bytes, carried, -⟩ | ⟨front, other, bytes, shape, carried, -⟩
  · exact impossible carried (by simp [sent])
  · have same := List.append_inj_left' (sent.symm.trans shape) rfl
    exact impossible carried (by simp [← same])

theorem after_error (running : (after file reads count).ended = false)
    (fails : failed (reads count) = true) :
    (after file reads (count + 1)).ended = false ∧
      ∃ message, (after file reads (count + 1)).sent =
        (after file reads count).sent ++ [.error message] := by
  have turned := after_step running
  generalize reads count = read at turned fails
  generalize after file reads (count + 1) = next at turned ⊢
  cases turned with
  | error message => exact ⟨rfl, message, rfl⟩
  | last => cases fails
  | chunk => cases fails

/-- A read failure ends the response as it should exactly when every read that fails is
at the end of the file and followed by one that does not. -/
theorem ends_on_failure_iff (file : OpenFile UInt8) (reads : Nat → FileRead) :
    EndsOnFailure file reads ↔ FailsLast file reads := by
  refine ⟨?_, ends_of_late⟩
  intro ends count fails
  cases place : (after file reads count).ended with
  | true => exact Or.inl (after_ended.mp place)
  | false =>
      right
      rcases after_error place fails with ⟨running, message, sent⟩
      have turned := after_step running
      have offset := after_offset running
      have same : asked reads (count + 1) = asked reads count := by
        rw [asked_succ]
        cases shape : reads count with
        | failed message => rfl
        | bytes more =>
            rw [shape] at fails
            cases fails
      have final {item : Item} : (after file reads (count + 2)).sent ≠
          (after file reads count).sent ++ [.error message] ++ [item] := error_last ends
      rw [Exhausted]
      generalize reads (count + 1) = read at turned ⊢
      generalize after file reads (count + 1 + 1) = next at turned final
      cases turned with
      | error message => exact absurd (congrArg (· ++ _) sent) final
      | last more exhausted => exact ⟨by omega, rfl⟩
      | chunk more chunk positive size follows => exact absurd (congrArg (· ++ _) sent) final

theorem failing_never_ends (persistent : ∀ index, failed (reads index) = true) (count : Nat) :
    (after file reads count).ended = false ∧ (after file reads count).sent.length = count := by
  induction count with
  | zero => exact ⟨rfl, rfl⟩
  | succ count ih =>
      rcases after_error ih.1 (persistent count) with ⟨running, message, sent⟩
      refine ⟨running, ?_⟩
      rw [sent, List.length_append, ih.2, List.length_singleton]

def brokenDisk : Nat → FileRead := fun _ => .failed "input/output error"

theorem broken_disk_never_ends :
    ¬EndsOnFailure (OpenFile.empty.writeAll [[1, 2, 3]]) brokenDisk := by
  intro ends
  rcases ends.ends 0 rfl rfl with ⟨later, ended⟩
  rw [(failing_never_ends (fun _ => rfl) later).1] at ended
  cases ended

end Server3.ReadFailure
