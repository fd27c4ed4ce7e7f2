import Mathlib.Algebra.Order.BigOperators.Group.Finset
import Mathlib.Data.Finset.Card
import Mathlib.Data.Nat.BitIndices

/-!
# Numbers as sets of bits

A number is the set of its bits, `i` with `n.testBit i`: the bits of a union, of
a union of many, and of a single one. `bitCount` counts them.
-/

namespace Xir

theorem testBit_one_shiftLeft (i j : Nat) : (1 <<< i).testBit j = true ↔ j = i := by
  rw [Nat.one_shiftLeft, Nat.testBit_two_pow, decide_eq_true_iff, eq_comm]

/-- Two numbers have a bit in common. -/
theorem and_ne_zero_iff (a b : Nat) : a &&& b ≠ 0 ↔ ∃ i, a.testBit i = true ∧ b.testBit i = true := by
  have hbit (i : Nat) : (a &&& b).testBit i = true ↔ a.testBit i = true ∧ b.testBit i = true := by
    rw [Nat.testBit_and, Bool.and_eq_true]
  refine ⟨fun h => (Nat.exists_testBit_of_ne_zero h).imp fun i => (hbit i).mp, fun ⟨i, hi⟩ h => ?_⟩
  have hz := (hbit i).mpr hi
  rw [h] at hz
  simp at hz

theorem and_one_shiftLeft_ne_zero (a i : Nat) : a &&& (1 <<< i) ≠ 0 ↔ a.testBit i = true := by
  rw [and_ne_zero_iff]
  constructor
  · rintro ⟨j, ha, hj⟩
    obtain rfl := (testBit_one_shiftLeft i j).mp hj
    exact ha
  · exact fun ha => ⟨i, ha, (testBit_one_shiftLeft i i).mpr rfl⟩

theorem testBit_or_true (a b i : Nat) : (a ||| b).testBit i = true ↔ a.testBit i = true ∨ b.testBit i = true := by
  rw [Nat.testBit_or, Bool.or_eq_true]

/-- The union of many numbers. -/
theorem testBit_foldl_or {α : Type} (f : α → Nat) (xs : List α) (a i : Nat) :
    (xs.foldl (fun bits x => bits ||| f x) a).testBit i = true ↔
      a.testBit i = true ∨ ∃ x ∈ xs, (f x).testBit i = true := by
  induction xs generalizing a with
  | nil => simp
  | cons x xs ih => simp only [List.foldl_cons, ih, testBit_or_true, List.exists_mem_cons_iff, or_assoc]

theorem testBit_shiftRight_and_mask (a k n i : Nat) :
    ((a >>> k) &&& ((1 <<< n) - 1)).testBit i = true ↔ i < n ∧ a.testBit (k + i) = true := by
  rw [Nat.testBit_and, Nat.testBit_shiftRight, Nat.one_shiftLeft, Nat.testBit_two_pow_sub_one, Bool.and_eq_true,
    decide_eq_true_iff, and_comm]

/-- The number of bits that are set. -/
def bitCount (bits : Nat) : Nat := bits.bitIndices.length

theorem bitCount_eq_card {n : Nat} {s : Finset Nat} (h : ∀ i, n.testBit i = true ↔ i ∈ s) : bitCount n = s.card := by
  rw [bitCount, ← List.toFinset_card_of_nodup Nat.bitIndices_nodup]
  congr 1
  ext i
  rw [List.mem_toFinset, Nat.mem_bitIndices, h]

/-- The bits of a number below a bound. -/
def bitsBelow (bound n : Nat) : Finset Nat := (Finset.range bound).filter fun i => n.testBit i = true

theorem mem_bitsBelow {bound n i : Nat} : i ∈ bitsBelow bound n ↔ i < bound ∧ n.testBit i = true := by
  rw [bitsBelow, Finset.mem_filter, Finset.mem_range]

end Xir
