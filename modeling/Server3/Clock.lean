import Mathlib.Algebra.Ring.Int.Defs
import Mathlib.Algebra.Ring.Nat
import Mathlib.Order.Basic
import Mathlib.Order.Lattice
import Mathlib.Order.Defs.LinearOrder
import Mathlib.Tactic.Common

/-! Times as counts of nanoseconds within the range of the types of the source. -/

namespace Server3.Clock

/-- Seconds of an `Instant` are a non-negative `i64`. -/
def instantLimit : Nat := 2^63 * 10^9

/-- Seconds of a `Duration` are a `u64`. -/
def durationLimit : Nat := 2^64 * 10^9

structure Instant where
  nanos : Nat
  bound : nanos < instantLimit
  deriving DecidableEq, Repr

structure Duration where
  nanos : Nat
  bound : nanos < durationLimit
  deriving DecidableEq, Repr

/-- A wall-clock time with the bound of `jiff::Timestamp`, the end of the year 9999. -/
structure Timestamp where
  nanos : Int
  deriving DecidableEq, Repr

def timestampLimit : Int := 253402207201 * 10^9

instance : LE Instant := ⟨fun first second => first.nanos ≤ second.nanos⟩
instance : LT Instant := ⟨fun first second => first.nanos < second.nanos⟩

instance (first second : Instant) : Decidable (first ≤ second) :=
  inferInstanceAs (Decidable (first.nanos ≤ second.nanos))

instance (first second : Instant) : Decidable (first < second) :=
  inferInstanceAs (Decidable (first.nanos < second.nanos))

theorem instant_le {first second : Instant} : first ≤ second ↔ first.nanos ≤ second.nanos := Iff.rfl

theorem instant_lt {first second : Instant} : first < second ↔ first.nanos < second.nanos := Iff.rfl

theorem instant_not_le {first second : Instant} : ¬ first ≤ second ↔ second < first := by
  rw [instant_le, instant_lt, Nat.not_le]

def Instant.checkedAdd (start : Instant) (duration : Duration) : Option Instant :=
  if fits : start.nanos + duration.nanos < instantLimit then
    some ⟨start.nanos + duration.nanos, fits⟩
  else none

theorem checked_add_some {start later : Instant} {duration : Duration} :
    start.checkedAdd duration = some later ↔ later.nanos = start.nanos + duration.nanos := by
  obtain ⟨nanos, bound⟩ := later
  unfold Instant.checkedAdd
  split
  · simp [eq_comm]
  · rename_i overflow
    simp only [reduceCtorEq, false_iff]
    intro same
    omega

/-- Nanoseconds from an earlier instant, zero when it is not earlier. -/
def Instant.saturatingDurationSince (later earlier : Instant) : Nat := later.nanos - earlier.nanos

def Timestamp.checkedAdd (start : Timestamp) (nanos : Nat) : Option Timestamp :=
  if start.nanos + nanos < timestampLimit then some ⟨start.nanos + nanos⟩ else none

end Server3.Clock
