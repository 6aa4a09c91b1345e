/- Listeningway/Lib/BestPath
   digest: The largest product of weights along a path, by a recursion over its last state. -/

import Mathlib.Algebra.BigOperators.Group.Finset.Basic
import Mathlib.Algebra.Order.BigOperators.Ring.Finset
import Mathlib.Data.Finset.Lattice.Fold
import Mathlib.Data.Finset.Max

/-!
A path visits one state at every time; step `t` from `i` to `j` has the weight `w t i j`. Only
the largest product that reaches each state is kept, which is enough because no weight is
negative. A recursion that multiplies all entries of a step by one positive factor keeps their
order.
-/

set_option autoImplicit false
set_option relaxedAutoImplicit false

namespace Listeningway.Lib.BestPath

variable {S K : Type*} [Field K]

/-- The product of the weights of the first `n` steps. -/
def product (w : ℕ → S → S → K) (n : ℕ) (s : ℕ → S) : K :=
  ∏ t ∈ Finset.range n, w t (s t) (s (t + 1))

theorem product_succ (w : ℕ → S → S → K) (n : ℕ) (s : ℕ → S) :
    product w (n + 1) s = product w n s * w n (s n) (s (n + 1)) :=
  Finset.prod_range_succ _ n

theorem product_congr {w : ℕ → S → S → K} {n : ℕ} {s s' : ℕ → S} (same : ∀ t ≤ n, s t = s' t) :
    product w n s = product w n s' := by
  apply Finset.prod_congr rfl
  intro t listed
  have early := Finset.mem_range.mp listed
  rw [same t early.le, same (t + 1) early]

variable [LinearOrder K] [Fintype S] [Nonempty S]

/-- The largest way into `j` from scores `x`. -/
def extend (w : S → S → K) (x : S → K) (j : S) : K :=
  Finset.univ.sup' Finset.univ_nonempty fun i => x i * w i j

/-- The largest product of a path of `n` steps that ends in `j`. -/
def best (w : ℕ → S → S → K) : ℕ → S → K
  | 0 => fun _ => 1
  | n + 1 => extend (w n) (best w n)

theorem le_extend (w : S → S → K) (x : S → K) (i j : S) : x i * w i j ≤ extend w x j :=
  Finset.le_sup' (fun i => x i * w i j) (Finset.mem_univ i)

theorem exists_extend (w : S → S → K) (x : S → K) (j : S) : ∃ i, extend w x j = x i * w i j := by
  obtain ⟨i, -, found⟩ :=
    Finset.exists_mem_eq_sup' Finset.univ_nonempty fun i => x i * w i j
  exact ⟨i, found⟩

theorem exists_best_path (w : ℕ → S → S → K) (n : ℕ) (j : S) :
    ∃ s : ℕ → S, s n = j ∧ product w n s = best w n j := by
  induction n generalizing j with
  | zero => exact ⟨fun _ => j, rfl, Finset.prod_range_zero _⟩
  | succ n ih =>
    obtain ⟨i, last⟩ := exists_extend (w n) (best w n) j
    obtain ⟨s, reaches, score⟩ := ih i
    let s' : ℕ → S := fun t => if t ≤ n then s t else j
    have past : ∀ t ≤ n, s' t = s t := fun t early => if_pos early
    have now : s' (n + 1) = j := if_neg (Nat.not_succ_le_self n)
    refine ⟨s', now, ?_⟩
    rw [product_succ, product_congr past, past n le_rfl, now, reaches, score]
    exact last.symm

variable [IsStrictOrderedRing K] {w : ℕ → S → S → K}

theorem product_le_best {n : ℕ} (nonneg : ∀ t < n, ∀ i j, 0 ≤ w t i j) (s : ℕ → S) :
    product w n s ≤ best w n (s n) := by
  induction n with
  | zero => exact Finset.prod_range_zero _ |>.le
  | succ n ih =>
    have before := ih fun t early => nonneg t (early.trans (Nat.lt_succ_self n))
    have step := nonneg n (Nat.lt_succ_self n) (s n) (s (n + 1))
    rw [product_succ]
    exact (mul_le_mul_of_nonneg_right before step).trans (le_extend _ _ _ _)

theorem isGreatest_best {n : ℕ} (nonneg : ∀ t < n, ∀ i j, 0 ≤ w t i j) (j : S) :
    IsGreatest {x | ∃ s : ℕ → S, s n = j ∧ product w n s = x} (best w n j) := by
  refine ⟨exists_best_path w n j, ?_⟩
  rintro x ⟨s, rfl, rfl⟩
  exact product_le_best nonneg s

theorem extend_mul {c : K} (nonneg : 0 ≤ c) (w : S → S → K) (x : S → K) (j : S) :
    extend w (fun i => c * x i) j = c * extend w x j := by
  apply le_antisymm
  · apply Finset.sup'_le
    intro i _
    rw [mul_assoc]
    exact mul_le_mul_of_nonneg_left (le_extend w x i j) nonneg
  · obtain ⟨i, last⟩ := exists_extend w x j
    rw [last, ← mul_assoc]
    exact le_extend w (fun i => c * x i) i j

theorem extend_mul_right {o : S → K} (nonneg : ∀ j, 0 ≤ o j) (w : S → S → K) (x : S → K) (j : S) :
    extend (fun i j => w i j * o j) x j = extend w x j * o j := by
  apply le_antisymm
  · apply Finset.sup'_le
    intro i _
    rw [← mul_assoc]
    exact mul_le_mul_of_nonneg_right (le_extend w x i j) (nonneg j)
  · obtain ⟨i, last⟩ := exists_extend w x j
    rw [last, mul_assoc]
    exact le_extend (fun i j => w i j * o j) x i j

/-- Scores that are scaled by a positive factor in every step are the best scores, scaled. -/
theorem scaled_best {x : ℕ → S → K} {n : ℕ} (start : x 0 = fun _ => 1)
    (step : ∀ t < n, ∃ c > 0, ∀ j, x (t + 1) j = c * extend (w t) (x t) j) :
    ∃ c > 0, ∀ j, x n j = c * best w n j := by
  induction n with
  | zero =>
    refine ⟨1, one_pos, fun j => ?_⟩
    rw [start, one_mul]
    rfl
  | succ n ih =>
    obtain ⟨c, positive, scaled⟩ := ih fun t early => step t (early.trans (Nat.lt_succ_self n))
    obtain ⟨c', positive', stepped⟩ := step n (Nat.lt_succ_self n)
    refine ⟨c' * c, mul_pos positive' positive, fun j => ?_⟩
    rw [stepped, funext scaled, extend_mul positive.le, mul_assoc]
    rfl

end Listeningway.Lib.BestPath
