/- Listeningway/Lib/Memo
   digest: A memo of one entry, computed again when a test calls it stale. -/

import Mathlib.Tactic.SplitIfs

set_option autoImplicit false
set_option relaxedAutoImplicit false

namespace Listeningway.Lib.Memo

variable {ι κ : Type*} (stale : κ → ι → Prop) [∀ entry i, Decidable (stale entry i)]
  (compute : ι → κ)

/-- The entry after a use for the input `i`. -/
def consult (entry : κ) (i : ι) : κ := if stale entry i then compute i else entry

/-- The entry is the one before the first use, or was computed for an allowed input. -/
def Holds (start : κ) (allowed : ι → Prop) (entry : κ) : Prop :=
  entry = start ∨ ∃ i, allowed i ∧ entry = compute i

/-- What the test lets pass as the entry of another input would be computed alike for it. -/
def Sound (allowed : ι → Prop) : Prop :=
  ∀ i j, allowed i → allowed j → ¬ stale (compute i) j → compute i = compute j

variable {stale compute} {start entry : κ} {allowed : ι → Prop} {j : ι}

theorem holds_start : Holds compute start allowed start := .inl rfl

theorem Holds.consult (h : Holds compute start allowed entry) (may : allowed j) :
    Holds compute start allowed (consult stale compute entry j) := by
  unfold Memo.consult
  split_ifs with old
  · exact .inr ⟨j, may, rfl⟩
  · exact h

theorem consult_eq (sound : Sound stale compute allowed) (blank : stale start j)
    (h : Holds compute start allowed entry) (may : allowed j) :
    consult stale compute entry j = compute j := by
  unfold consult
  split_ifs with old
  · rfl
  · rcases h with rfl | ⟨i, before, rfl⟩
    · exact absurd blank old
    · exact sound i j before may old

/-- A second use for the same input computes again exactly when the first one did, and the
test calls its result stale. -/
theorem stale_consult_iff :
    stale (consult stale compute entry j) j ↔ stale entry j ∧ stale (compute j) j := by
  unfold consult
  split_ifs with old
  · exact (and_iff_right old).symm
  · exact iff_of_false old fun both => old both.1

end Listeningway.Lib.Memo
