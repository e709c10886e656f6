import Mathlib.Algebra.BigOperators.Group.Finset.Basic
import Mathlib.Algebra.Order.BigOperators.Group.Finset
import Mathlib.Data.Finset.Max

/-! Sums and sizes of finite sets whose items change one at a time, or are spaced apart. -/

namespace Counting

theorem sum_interfered {ι : Type*} [DecidableEq ι] {items : Finset ι} (before after : ι → Nat)
    {mover : ι} (among : mover ∈ items) (rise : Nat)
    (others : ∀ other ∈ items.erase mover, after other ≤ before other + rise) :
    ∑ item ∈ items, after item + before mover ≤
      ∑ item ∈ items, before item + after mover + (items.card - 1) * rise := by
  have one := Finset.add_sum_erase items after among
  have two := Finset.add_sum_erase items before among
  have rest : ∑ item ∈ items.erase mover, after item ≤
      ∑ item ∈ items.erase mover, before item + (items.card - 1) * rise := by
    calc
      _ ≤ ∑ item ∈ items.erase mover, (before item + rise) := Finset.sum_le_sum others
      _ = ∑ item ∈ items.erase mover, before item + (items.card - 1) * rise := by
        rw [Finset.sum_add_distrib, Finset.sum_const, Finset.card_erase_of_mem among,
          Nat.nsmul_eq_mul]
  omega

theorem spaced_card {ι : Type*} [LinearOrder ι] (items : Finset ι) (time : ι → Nat)
    (gap first : Nat) (late : ∀ item ∈ items, first ≤ time item)
    (spaced : ∀ one ∈ items, ∀ two ∈ items, one < two → time one + gap ≤ time two)
    (last : Nat) (early : ∀ item ∈ items, time item ≤ last) (some : items.Nonempty) :
    first + items.card * gap ≤ last + gap := by
  induction items using Finset.induction_on_max generalizing last with
  | empty => cases Finset.not_nonempty_empty some
  | insert top items below ih =>
      have topmost : top ∉ items := fun member => lt_irrefl top (below top member)
      have atTop : time top ≤ last := early top (Finset.mem_insert_self top items)
      rw [Finset.card_insert_of_notMem topmost, Nat.add_mul, Nat.one_mul]
      rcases items.eq_empty_or_nonempty with rfl | more
      · have start := late top (Finset.mem_insert_self top ∅)
        simp only [Finset.card_empty, Nat.zero_mul, Nat.zero_add]
        omega
      · have before (item : ι) (member : item ∈ items) : time item + gap ≤ time top :=
          spaced item (Finset.mem_insert_of_mem member) top (Finset.mem_insert_self top items)
            (below item member)
        have rest := ih (fun item member => late item (Finset.mem_insert_of_mem member))
          (fun one member two among => spaced one (Finset.mem_insert_of_mem member) two
            (Finset.mem_insert_of_mem among))
          (time top - gap) (fun item member => Nat.le_sub_of_add_le (before item member)) more
        rcases more with ⟨item, member⟩
        have room := before item member
        omega

end Counting
