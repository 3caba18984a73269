import Mathlib.Algebra.Order.BigOperators.Group.List
import Mathlib.Algebra.Order.Field.Basic
import Mathlib.Algebra.Order.Field.Rat
import Mathlib.Data.List.Sort
import Mathlib.Tactic.Common

/-!
# Order statistics

What a sorted list says about the list that it was made from.
-/

namespace Data.OrderStatistics

variable {α : Type*} [LinearOrder α]

/-- At least `k + 1` elements are no larger, and at least `n - k` no smaller. -/
structure IsOrderStatistic (xs : List α) (k : ℕ) (value : α) : Prop where
  mem : value ∈ xs
  below : k + 1 ≤ xs.countP (· ≤ value)
  above : xs.length - k ≤ xs.countP (value ≤ ·)

theorem getElem_le_getElem {xs : List α} (h : xs.Pairwise (· ≤ ·)) {i j : ℕ} (hij : i ≤ j)
    (hj : j < xs.length) : xs[i] ≤ xs[j] := by
  rcases hij.eq_or_lt with rfl | hlt
  · exact le_rfl
  · exact List.pairwise_iff_getElem.mp h i j (hlt.trans hj) hj hlt

/-- Everything up to a place of a sorted list is no larger than what stands there. -/
theorem succ_le_countP_le {xs : List α} (h : xs.Pairwise (· ≤ ·)) {k : ℕ} (hk : k < xs.length) :
    k + 1 ≤ xs.countP (· ≤ xs[k]) := by
  have hfront : (xs.take (k + 1)).countP (· ≤ xs[k]) = (xs.take (k + 1)).length := by
    apply List.countP_eq_length.mpr
    intro x hx
    obtain ⟨i, hi, rfl⟩ := List.mem_iff_getElem.mp hx
    rw [List.length_take] at hi
    rw [List.getElem_take]
    exact decide_eq_true (getElem_le_getElem h (by omega) hk)
  have hsub : (xs.take (k + 1)).countP (· ≤ xs[k]) ≤ xs.countP (· ≤ xs[k]) :=
    (List.take_sublist _ _).countP_le
  rw [hfront, List.length_take] at hsub
  omega

/-- Everything from a place on is no smaller. -/
theorem length_sub_le_countP_ge {xs : List α} (h : xs.Pairwise (· ≤ ·)) {k : ℕ}
    (hk : k < xs.length) : xs.length - k ≤ xs.countP (xs[k] ≤ ·) := by
  have hback : (xs.drop k).countP (xs[k] ≤ ·) = (xs.drop k).length := by
    apply List.countP_eq_length.mpr
    intro x hx
    obtain ⟨i, hi, rfl⟩ := List.mem_iff_getElem.mp hx
    rw [List.length_drop] at hi
    rw [List.getElem_drop]
    exact decide_eq_true (getElem_le_getElem h (Nat.le_add_right k i) (by omega))
  have hsub : (xs.drop k).countP (xs[k] ≤ ·) ≤ xs.countP (xs[k] ≤ ·) :=
    (List.drop_sublist _ _).countP_le
  rw [hback, List.length_drop] at hsub
  omega

theorem IsOrderStatistic.of_perm {xs ys : List α} {k : ℕ} {value : α} (hperm : ys.Perm xs)
    (h : IsOrderStatistic ys k value) : IsOrderStatistic xs k value where
  mem := hperm.mem_iff.mp h.mem
  below := by
    rw [← hperm.countP_eq]
    exact h.below
  above := by
    rw [← hperm.countP_eq, ← hperm.length_eq]
    exact h.above

theorem isOrderStatistic_of_sorted {xs ys : List α} (hsorted : ys.Pairwise (· ≤ ·))
    (hperm : ys.Perm xs) {k : ℕ} (hk : k < ys.length) : IsOrderStatistic xs k ys[k] :=
  IsOrderStatistic.of_perm hperm
    ⟨List.getElem_mem hk, succ_le_countP_le hsorted hk, length_sub_le_countP_ge hsorted hk⟩

/-! ## The mean -/

section Mean

variable {K : Type*} [Field K] [LinearOrder K] [IsStrictOrderedRing K]

theorem mean_mul_length {xs : List K} (h : xs ≠ []) :
    xs.sum / xs.length * xs.length = xs.sum := by
  have hne : (xs.length : K) ≠ 0 := by exact_mod_cast List.length_eq_zero_iff.not.mpr h
  exact div_mul_cancel₀ _ hne

/-- The mean lies between any two bounds of the list. -/
theorem mean_mem_Icc {xs : List K} (h : xs ≠ []) {low high : K} (hlow : ∀ x ∈ xs, low ≤ x)
    (hhigh : ∀ x ∈ xs, x ≤ high) : low ≤ xs.sum / xs.length ∧ xs.sum / xs.length ≤ high := by
  have hpos : (0 : K) < xs.length := by exact_mod_cast List.length_pos_iff.mpr h
  have hleast := List.card_nsmul_le_sum xs low hlow
  have hmost := List.sum_le_card_nsmul xs high hhigh
  rw [nsmul_eq_mul] at hleast hmost
  constructor
  · rw [le_div_iff₀ hpos, mul_comm]
    exact hleast
  · rw [div_le_iff₀ hpos, mul_comm]
    exact hmost

end Mean

end Data.OrderStatistics
