import Mathlib.Data.List.Basic

/-! A file as its open handles see it: sequential writes move one cursor, positioned
reads do not, and the bytes stay as long as some handle is open. -/

/-- The cursor moves by writing only, so it never passes the end. -/
structure OpenFile (α : Type) where
  content : List α
  cursor : Nat
  within : cursor ≤ content.length

namespace OpenFile

variable {α : Type} {file : OpenFile α} {offset limit : Nat}

def empty : OpenFile α := ⟨[], 0, Nat.le_refl 0⟩

/-- What the cursor stands on is overwritten. -/
def write (file : OpenFile α) (chunk : List α) : OpenFile α where
  content := file.content.take file.cursor ++ chunk ++
    file.content.drop (file.cursor + chunk.length)
  cursor := file.cursor + chunk.length
  within := by
    have within := file.within
    simp only [List.length_append, List.length_take]
    omega

def writeAll (file : OpenFile α) (chunks : List (List α)) : OpenFile α := chunks.foldl write file

/-- A positioned read of at most `limit` elements. -/
def readAt (file : OpenFile α) (offset limit : Nat) : List α :=
  (file.content.drop offset).take limit

def AtEnd (file : OpenFile α) : Prop := file.cursor = file.content.length

theorem write_at_end (chunk : List α) (last : file.AtEnd) :
    (file.write chunk).content = file.content ++ chunk ∧ (file.write chunk).AtEnd := by
  have content : (file.write chunk).content = file.content ++ chunk := by
    have behind : file.content.drop (file.content.length + chunk.length) = [] :=
      List.drop_eq_nil_of_le (Nat.le_add_right _ _)
    rw [AtEnd] at last
    simp only [write, last, List.take_length, behind, List.append_nil]
  refine ⟨content, ?_⟩
  rw [AtEnd, content, List.length_append, ← last]
  rfl

theorem writeAll_at_end (chunks : List (List α)) (last : file.AtEnd) :
    (file.writeAll chunks).content = file.content ++ chunks.flatten := by
  induction chunks generalizing file with
  | nil => exact (List.append_nil _).symm
  | cons chunk rest ih =>
      have written := write_at_end chunk last
      calc
        (file.writeAll (chunk :: rest)).content = ((file.write chunk).writeAll rest).content := rfl
        _ = (file.write chunk).content ++ rest.flatten := ih written.2
        _ = file.content ++ (chunk :: rest).flatten := by
          rw [written.1, List.append_assoc, List.flatten_cons]

@[simp] theorem writeAll_empty (chunks : List (List α)) :
    ((empty : OpenFile α).writeAll chunks).content = chunks.flatten :=
  writeAll_at_end chunks rfl

theorem readAt_length :
    (file.readAt offset limit).length = min limit (file.content.length - offset) := by
  rw [readAt, List.length_take, List.length_drop]

theorem readAt_nil (asks : 0 < limit) :
    file.readAt offset limit = [] ↔ file.content.length ≤ offset := by
  rw [readAt, List.take_eq_nil_iff, List.drop_eq_nil_iff]
  omega

theorem take_readAt :
    file.content.take offset ++ file.readAt offset limit =
      file.content.take (offset + (file.readAt offset limit).length) := by
  rw [readAt_length, readAt, ← List.take_add, List.take_eq_take_iff]
  omega

/-- What is left of the files when those that nobody has open are gone. -/
def retained {ι : Type} (files : ι → Option (OpenFile α)) (opened : ι → Bool) (id : ι) :
    Option (OpenFile α) :=
  if opened id then files id else none

theorem retained_opened {ι : Type} {files : ι → Option (OpenFile α)} {opened : ι → Bool} {id : ι}
    (present : opened id = true) : retained files opened id = files id := if_pos present

theorem retained_some {ι : Type} {files : ι → Option (OpenFile α)} {opened : ι → Bool} {id : ι}
    (found : retained files opened id = some file) : files id = some file := by
  unfold retained at found
  split at found
  · exact found
  · cases found

end OpenFile
