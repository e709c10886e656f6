import Mathlib.Algebra.Ring.Nat
import Mathlib.Data.Nat.Basic
import Mathlib.Tactic.Common

/-! Checked 64-bit arithmetic, read through the values of its operands. -/

namespace Word64

def checkedSub (left right : UInt64) : Option UInt64 :=
  if right ≤ left then some (left - right) else none

def saturatingSub (left right : UInt64) : UInt64 :=
  if right ≤ left then left - right else 0

def checkedAdd (left right : UInt64) : Option UInt64 :=
  if left.toNat + right.toNat < 2^64 then some (left + right) else none

theorem value_injective (left right : UInt64) (same : left.toNat = right.toNat) :
    left = right := UInt64.toNat_inj.mp same

theorem checked_sub_some (left right result : UInt64) :
    checkedSub left right = some result ↔ left.toNat = result.toNat + right.toNat := by
  unfold checkedSub
  by_cases enough : right ≤ left
  · have value := UInt64.toNat_sub_of_le left right enough
    have order := UInt64.le_iff_toNat_le.mp enough
    simp only [if_pos enough, Option.some.injEq]
    constructor
    · rintro rfl
      omega
    · intro equation
      apply value_injective
      omega
  · have order : left.toNat < right.toNat :=
      Nat.lt_of_not_le fun reverse => enough (UInt64.le_iff_toNat_le.mpr reverse)
    simp only [if_neg enough, reduceCtorEq, false_iff]
    omega

theorem checked_sub_none (left right : UInt64) :
    checkedSub left right = none ↔ left.toNat < right.toNat := by
  unfold checkedSub
  rw [ite_eq_right_iff]
  simp only [reduceCtorEq, imp_false, UInt64.le_iff_toNat_le, Nat.not_le]

theorem saturating_sub_value (left right : UInt64) :
    (saturatingSub left right).toNat = left.toNat - right.toNat := by
  unfold saturatingSub
  split
  · rename_i enough
    exact UInt64.toNat_sub_of_le left right enough
  · rename_i short
    have order : left.toNat < right.toNat :=
      Nat.lt_of_not_le fun reverse => short (UInt64.le_iff_toNat_le.mpr reverse)
    have zero : (0 : UInt64).toNat = 0 := rfl
    omega

theorem checked_add_some (left right result : UInt64) :
    checkedAdd left right = some result ↔ result.toNat = left.toNat + right.toNat := by
  unfold checkedAdd
  by_cases fits : left.toNat + right.toNat < 2^64
  · have value : (left + right).toNat = left.toNat + right.toNat := by
      rw [UInt64.toNat_add]
      exact Nat.mod_eq_of_lt fits
    simp only [if_pos fits, Option.some.injEq]
    constructor
    · rintro rfl
      exact value
    · intro equation
      exact value_injective _ _ (value.trans equation.symm)
  · have bound := result.toNat_lt
    simp only [if_neg fits, reduceCtorEq, false_iff]
    omega

theorem checked_add_none (left right : UInt64) :
    checkedAdd left right = none ↔ 2^64 ≤ left.toNat + right.toNat := by
  unfold checkedAdd
  rw [ite_eq_right_iff]
  simp only [reduceCtorEq, imp_false, Nat.not_lt]

end Word64
