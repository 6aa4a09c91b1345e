/- Listeningway/Lib/Spans
   digest: Sums over two divisions of one stretch into spans. -/

import Mathlib.Algebra.BigOperators.Intervals
import Mathlib.Algebra.BigOperators.Ring.Finset
import Mathlib.Order.Lattice

/-!
What two spans have in common is counted from both sides: over one division it adds up to the
span of the other.
-/

set_option autoImplicit false
set_option relaxedAutoImplicit false

namespace Listeningway.Lib.Spans

variable {K : Type*} [CommRing K] [LinearOrder K]

/-- The length that the spans from `a` to `b` and from `c` to `d` have in common. -/
def overlap (a b c d : K) : K := max a (min b d) - max a (min b c)

variable {a b c d : K}

theorem overlap_comm (ab : a ≤ b) (cd : c ≤ d) : overlap a b c d = overlap c d a b := by
  unfold overlap
  rcases le_total b c with bc | cb
  · have ac := ab.trans bc
    have bd := bc.trans cd
    rw [min_eq_left bd, min_eq_left bc, min_eq_right bd, min_eq_right (ac.trans cd),
      max_eq_left bc, max_eq_left ac, sub_self, sub_self]
  · rcases le_total d a with da | ad
    · have ca := cd.trans da
      have db := da.trans ab
      rw [min_eq_right db, min_eq_right cb, min_eq_left db, min_eq_left da, max_eq_left da,
        max_eq_left ca, sub_self, sub_self]
    · rw [min_eq_right cb, min_eq_right ad, max_comm c a, min_comm d b, max_eq_right (le_min ab ad),
        max_eq_right (le_min cb cd)]

theorem exists_mem_of_overlap_ne_zero (cd : c ≤ d) (h : overlap a b c d ≠ 0) :
    ∃ x, (a < x ∧ x ≤ b) ∧ (c < x ∧ x ≤ d) := by
  refine ⟨min b d, ⟨?_, min_le_left b d⟩, ?_, min_le_right b d⟩
  · by_contra outside
    have right : min b d ≤ a := not_lt.mp outside
    have left : min b c ≤ a := (min_le_min_left b cd).trans right
    exact h (by rw [overlap, max_eq_left right, max_eq_left left, sub_self])
  · by_contra outside
    have right : min b d ≤ c := not_lt.mp outside
    have same : min b c = min b d :=
      le_antisymm (min_le_min_left b cd) (le_min (min_le_left b d) right)
    exact h (by rw [overlap, same, sub_self])

section Division

variable {t : ℕ → K} {n : ℕ}

omit [CommRing K] in
theorem le_of_steps (steps : ∀ i < n, t i ≤ t (i + 1)) {i j : ℕ} (ij : i ≤ j) (jn : j ≤ n) :
    t i ≤ t j := by
  induction j, ij using Nat.le_induction with
  | base => exact le_rfl
  | succ j _ ih => exact (ih (Nat.le_of_succ_le jn)).trans (steps j jn)

theorem sum_overlap (ab : a ≤ b) (start : t 0 ≤ a) (stop : b ≤ t n) :
    ∑ j ∈ Finset.range n, overlap a b (t j) (t (j + 1)) = b - a := by
  unfold overlap
  rw [Finset.sum_range_sub fun j => max a (min b (t j)), min_eq_left stop, max_eq_right ab,
    max_eq_left ((min_le_right b (t 0)).trans start)]

end Division

variable {s t : ℕ → K} {n m : ℕ} {p q : ℕ → K}

/-- Two divisions of one stretch, with weights that agree wherever their spans meet, have one
weighted length. -/
theorem sum_spans_eq (steps : ∀ i < n, s i ≤ s (i + 1)) (steps' : ∀ j < m, t j ≤ t (j + 1))
    (start : s 0 = t 0) (stop : s n = t m)
    (agree : ∀ i < n, ∀ j < m, ∀ x, s i < x → x ≤ s (i + 1) → t j < x → x ≤ t (j + 1) →
      p i = q j) :
    ∑ i ∈ Finset.range n, (s (i + 1) - s i) * p i =
      ∑ j ∈ Finset.range m, (t (j + 1) - t j) * q j := by
  have common : ∀ i < n, ∀ j < m, overlap (s i) (s (i + 1)) (t j) (t (j + 1)) * p i =
      overlap (t j) (t (j + 1)) (s i) (s (i + 1)) * q j := by
    intro i hi j hj
    rw [overlap_comm (steps' j hj) (steps i hi)]
    rcases eq_or_ne (overlap (s i) (s (i + 1)) (t j) (t (j + 1))) 0 with apart | meet
    · rw [apart, zero_mul, zero_mul]
    · obtain ⟨x, ⟨sx, xs⟩, tx, xt⟩ := exists_mem_of_overlap_ne_zero (steps' j hj) meet
      rw [agree i hi j hj x sx xs tx xt]
  calc ∑ i ∈ Finset.range n, (s (i + 1) - s i) * p i
      = ∑ i ∈ Finset.range n, ∑ j ∈ Finset.range m,
          overlap (s i) (s (i + 1)) (t j) (t (j + 1)) * p i := by
        refine Finset.sum_congr rfl fun i hi => ?_
        have hi := Finset.mem_range.mp hi
        rw [← Finset.sum_mul, sum_overlap (steps i hi)]
        · exact start ▸ le_of_steps steps (Nat.zero_le i) hi.le
        · exact stop ▸ le_of_steps steps (Nat.succ_le_of_lt hi) le_rfl
    _ = ∑ j ∈ Finset.range m, ∑ i ∈ Finset.range n,
          overlap (t j) (t (j + 1)) (s i) (s (i + 1)) * q j := by
        rw [Finset.sum_comm]
        refine Finset.sum_congr rfl fun j hj => Finset.sum_congr rfl fun i hi => ?_
        exact common i (Finset.mem_range.mp hi) j (Finset.mem_range.mp hj)
    _ = ∑ j ∈ Finset.range m, (t (j + 1) - t j) * q j := by
        refine Finset.sum_congr rfl fun j hj => ?_
        have hj := Finset.mem_range.mp hj
        rw [← Finset.sum_mul, sum_overlap (steps' j hj)]
        · exact start ▸ le_of_steps steps' (Nat.zero_le j) hj.le
        · exact stop ▸ le_of_steps steps' (Nat.succ_le_of_lt hj) le_rfl

end Listeningway.Lib.Spans
