import Server3.Clock

/-! What an upstream answers, and how its body becomes a file. -/

namespace Server3.Upstream

abbrev Bytes := List UInt8

structure UpstreamResourceHeaders where
  contentType : Option String
  deriving DecidableEq, Repr

/-- The frames of a body in the order they arrive, and the error that ends the
stream early, if any. -/
structure BodyStream where
  chunks : List Bytes
  error : Option String
  deriving DecidableEq, Repr

def BodyStream.content (body : BodyStream) : Bytes := body.chunks.flatten

structure UpstreamResource where
  headers : UpstreamResourceHeaders
  body : BodyStream
  deriving DecidableEq, Repr

inductive UpstreamError where
  | url (message : String)
  | reqwest (message : String)
  | getObject (message : String)
  | io (message : String)
  deriving DecidableEq, Repr

abbrev Answer := Except UpstreamError (Option UpstreamResource)

/-- A temporary file. Its length is an offset, so it fits in 64 bits. -/
structure File where
  content : Bytes
  bound : content.length < 2^64
  deriving DecidableEq

def File.size (file : File) : UInt64 := UInt64.ofNat file.content.length

theorem file_size (file : File) : file.size.toNat = file.content.length :=
  UInt64.toNat_ofNat_of_lt' file.bound

/-- Creating the temporary file and copying the body into it. A stream that ends
in an error fails the copy, and so does a body no file can hold. -/
def store (body : BodyStream) (diskError : Option String) : Except UpstreamError File :=
  match diskError, body.error with
  | some message, _ => .error (.io message)
  | none, some message => .error (.io message)
  | none, none =>
      if bound : body.content.length < 2^64 then .ok ⟨body.content, bound⟩
      else .error (.io "file too large")

/-- A stored file has every byte of a body that ended without an error. -/
theorem store_ok {body : BodyStream} {diskError : Option String} {file : File}
    (stored : store body diskError = .ok file) :
    file.content = body.content ∧ body.error = none ∧ diskError = none := by
  unfold store at stored
  cases diskError with
  | some message => cases stored
  | none =>
      cases failed : body.error with
      | some message => simp [failed] at stored
      | none =>
          simp only [failed] at stored
          split at stored
          · cases stored
            exact ⟨rfl, rfl, rfl⟩
          · cases stored

/-- One positioned read of the file: at least one byte unless the end is reached,
or an error. -/
inductive FileRead where
  | bytes (more : Nat)
  | failed (message : String)
  deriving DecidableEq, Repr

def bufferSize : Nat := 16384

/-- How much a read asks for; one that fails gets nothing. -/
def FileRead.size : FileRead → Option Nat
  | .bytes more => some (min (more + 1) bufferSize)
  | .failed _ => none

/-- The reads before the last that succeeds ask for so much. -/
def Exhausts (reads : List FileRead) (length : Nat) : Prop :=
  reads.filterMap FileRead.size ≠ [] ∧ length ≤ (reads.filterMap FileRead.size).dropLast.sum

/-- What the blocking task sends of a cache file, and whether it came to the end;
it stops earlier when the client is gone. -/
structure Streamed where
  frames : List (Except String Bytes)
  ended : Bool

def streamFile (file : File) : Nat → List FileRead → Streamed
  | _, [] => ⟨[], false⟩
  | offset, .failed message :: rest =>
      let later := streamFile file offset rest
      ⟨.error message :: later.frames, later.ended⟩
  | offset, .bytes more :: rest =>
      match (file.content.drop offset).take (min (more + 1) bufferSize) with
      | [] => ⟨[], true⟩
      | first :: chunk =>
          let later := streamFile file (offset + (first :: chunk).length) rest
          ⟨.ok (first :: chunk) :: later.frames, later.ended⟩

def Streamed.sent (streamed : Streamed) : Bytes :=
  (streamed.frames.filterMap Except.toOption).flatten

theorem stream_ended (file : File) (offset : Nat) (reads : List FileRead) :
    (streamFile file offset reads).ended = true ↔ Exhausts reads (file.content.length - offset) := by
  induction reads generalizing offset with
  | nil => simp [streamFile, Exhausts]
  | cons read rest ih =>
      cases read with
      | failed message => exact ih offset
      | bytes more =>
          have sizes : (FileRead.bytes more :: rest).filterMap FileRead.size =
              min (more + 1) bufferSize :: rest.filterMap FileRead.size := rfl
          have positive : min (more + 1) bufferSize ≠ 0 := by
            simp only [bufferSize]
            omega
          simp only [Exhausts, sizes, streamFile]
          split
          · rename_i exhausted
            rw [List.take_eq_nil_iff, List.drop_eq_nil_iff] at exhausted
            have past := exhausted.resolve_left positive
            simp [Nat.sub_eq_zero_of_le past]
          · rename_i first chunk taken
            have length := congrArg List.length taken
            rw [List.length_take, List.length_drop] at length
            rw [ih, Exhausts]
            cases rest.filterMap FileRead.size with
            | nil =>
                simp only [List.length_cons] at length
                simp
                omega
            | cons size sizes =>
                simp only [ne_eq, reduceCtorEq, not_false_eq_true, true_and, List.dropLast_cons_cons,
                  List.sum_cons]
                omega

theorem stream_complete (file : File) (offset : Nat) (reads : List FileRead)
    (ended : (streamFile file offset reads).ended = true) :
    (streamFile file offset reads).sent = file.content.drop offset := by
  induction reads generalizing offset with
  | nil => cases ended
  | cons read rest ih =>
      cases read with
      | failed message =>
          have later := ih offset ended
          simpa only [Streamed.sent, streamFile, List.filterMap_cons, Except.toOption] using later
      | bytes more =>
          have positive : min (more + 1) bufferSize ≠ 0 := by
            simp only [bufferSize]
            omega
          simp only [streamFile] at ended ⊢
          split at ended
          · rename_i exhausted
            rw [List.take_eq_nil_iff] at exhausted
            simp only [exhausted.resolve_left positive, Streamed.sent, List.filterMap_nil,
              List.flatten_nil]
          · rename_i first chunk taken
            have later := ih (offset + (first :: chunk).length) ended
            have front : first :: chunk <+: file.content.drop offset :=
              taken ▸ List.take_prefix _ _
            calc
              _ = (first :: chunk) ++
                  (streamFile file (offset + (first :: chunk).length) rest).sent := by
                simp only [Streamed.sent, List.filterMap_cons, Except.toOption,
                  List.flatten_cons]
              _ = (first :: chunk) ++ (file.content.drop offset).drop (first :: chunk).length := by
                rw [later, List.drop_drop]
              _ = file.content.drop offset := List.prefix_iff_eq_append.mp front

end Server3.Upstream
