/- Listeningway/Lib/Clamp
   digest: std::clamp over a linear order, with its bounds and fixed points. -/

import Mathlib.Algebra.Order.Group.Defs
import Mathlib.Algebra.Order.Group.OrderIso
import Mathlib.Order.Lattice

set_option autoImplicit false
set_option relaxedAutoImplicit false

namespace Listeningway.Lib.Clamp

variable {K : Type*} [LinearOrder K] {v lo hi : K}

/-- `std::clamp(v, lo, hi)`. -/
def clamp (v lo hi : K) : K :=
  if v < lo then lo else if hi < v then hi else v

theorem le_clamp (v : K) (h : lo ≤ hi) : lo ≤ clamp v lo hi := by
  unfold clamp
  split_ifs with below above
  · exact le_rfl
  · exact h
  · exact not_lt.mp below

theorem clamp_le (v : K) (h : lo ≤ hi) : clamp v lo hi ≤ hi := by
  unfold clamp
  split_ifs with below above
  · exact h
  · exact le_rfl
  · exact not_lt.mp above

theorem clamp_mem (h : lo ≤ hi) : lo ≤ clamp v lo hi ∧ clamp v lo hi ≤ hi :=
  ⟨le_clamp v h, clamp_le v h⟩

theorem clamp_of_mem (hlo : lo ≤ v) (hhi : v ≤ hi) : clamp v lo hi = v := by
  rw [clamp, if_neg (not_lt.mpr hlo), if_neg (not_lt.mpr hhi)]

theorem clamp_le_iff {b : K} (low : lo ≤ b) :
    clamp v lo hi ≤ b ↔ hi ≤ b ∨ v ≤ b := by
  unfold clamp
  split_ifs with below above
  · exact iff_of_true low (.inr (below.le.trans low))
  · exact ⟨.inl, fun within => within.elim id above.le.trans⟩
  · exact ⟨.inr, fun within => within.elim (not_lt.mp above).trans id⟩

/-- A symmetric range is clamped symmetrically. -/
theorem clamp_neg [AddCommGroup K] [IsOrderedAddMonoid K] {r : K} (hr : -r ≤ r) (v : K) :
    clamp (-v) (-r) r = -clamp v (-r) r := by
  rcases lt_or_ge v (-r) with low | low
  · have high : r < -v := lt_neg.mp low
    rw [clamp, clamp, if_neg (not_lt.mpr (hr.trans high.le)), if_pos high, if_pos low, neg_neg]
  rcases lt_or_ge r v with high | high
  · rw [clamp, clamp, if_pos (neg_lt_neg high), if_neg (not_lt.mpr low), if_pos high]
  · rw [clamp_of_mem low high, clamp_of_mem (neg_le_neg high) (neg_le_of_neg_le low)]

end Listeningway.Lib.Clamp
