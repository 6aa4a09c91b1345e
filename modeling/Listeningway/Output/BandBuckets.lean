/- Listeningway/Output/BandBuckets
   source: src/audio/dsp/stages/bands_stage.cpp; src/config/store.cpp
   digest: The buckets of a band reduction cut the bands into runs; too few bands leave holes. -/

import Listeningway.Output.BandReductions

set_option autoImplicit false
set_option relaxedAutoImplicit false

namespace Listeningway.Dsp.BandsStage

/-! ### The cut -/

theorem mem_bandsIn {n m i k : ℕ} (parts : 0 < m) :
    k ∈ bandsIn n m i ↔ i * n < (k + 1) * m ∧ (k + 1) * m ≤ (i + 1) * n := by
  have lower : i * n / m ≤ k ↔ i * n < (k + 1) * m := by
    rw [← Nat.lt_succ_iff, Nat.div_lt_iff_lt_mul parts]
  have upper : k < (i + 1) * n / m ↔ (k + 1) * m ≤ (i + 1) * n := by
    rw [← Nat.succ_le_iff, Nat.le_div_iff_mul_le parts]
  rw [bandsIn, Finset.mem_Ico, lower, upper]

/-- Every band is in one bucket, and a later bucket holds later bands. -/
structure Cut (n m : ℕ) : Prop where
  inside : ∀ i : Fin m, ∀ k ∈ bandsIn n m i, k < n
  once : ∀ k < n, ∃! i : Fin m, k ∈ bandsIn n m i
  inOrder : ∀ i j : Fin m, i < j → ∀ k ∈ bandsIn n m i, ∀ l ∈ bandsIn n m j, k < l

theorem bandsIn_inOrder {n m i j k l : ℕ} (parts : 0 < m) (before : i < j)
    (left : k ∈ bandsIn n m i) (right : l ∈ bandsIn n m j) : k < l := by
  have upper := ((mem_bandsIn parts).mp left).2
  have lower := ((mem_bandsIn parts).mp right).1
  have between : (i + 1) * n ≤ j * n := Nat.mul_le_mul_right n before
  have product : (k + 1) * m < (l + 1) * m := (upper.trans between).trans_lt lower
  have apart := Nat.lt_of_mul_lt_mul_right product
  omega

theorem exists_bandsIn {n m k : ℕ} (parts : 0 < m) (listed : k < n) :
    ∃ i < m, k ∈ bandsIn n m i := by
  have some : 0 < n := by omega
  have first : m ≤ (k + 1) * m := Nat.le_mul_of_pos_left m (Nat.succ_pos k)
  have last : (k + 1) * m ≤ m * n := by
    rw [mul_comm m n]
    exact Nat.mul_le_mul_right m listed
  refine ⟨((k + 1) * m - 1) / n, ?_, (mem_bandsIn parts).mpr ⟨?_, ?_⟩⟩
  · rw [Nat.div_lt_iff_lt_mul some]
    omega
  · have floor := Nat.div_mul_le_self ((k + 1) * m - 1) n
    omega
  · have ceiling := Nat.lt_mul_of_div_lt (Nat.lt_add_one (((k + 1) * m - 1) / n)) some
    omega

theorem cut {n m : ℕ} (parts : 0 < m) : Cut n m where
  inside i _ listed := bandsIn_lt i.2 listed
  once k listed := by
    obtain ⟨i, hi, mem⟩ := exists_bandsIn parts listed
    refine ⟨⟨i, hi⟩, mem, fun j other => ?_⟩
    rcases lt_trichotomy (j : ℕ) i with before | same | later
    · exact absurd (bandsIn_inOrder parts before other mem) (lt_irrefl k)
    · exact Fin.ext same
    · exact absurd (bandsIn_inOrder parts later mem other) (lt_irrefl k)
  inOrder _ _ before _ left _ right := bandsIn_inOrder parts before left right

theorem bandsIn_nonempty_iff {n m : ℕ} (parts : 0 < m) :
    (∀ i : Fin m, (bandsIn n m i).Nonempty) ↔ m ≤ n := by
  constructor
  · intro filled
    obtain ⟨k, listed⟩ := filled ⟨0, parts⟩
    have upper := ((mem_bandsIn parts).mp listed).2
    calc m ≤ (k + 1) * m := Nat.le_mul_of_pos_left m (Nat.succ_pos k)
      _ ≤ (0 + 1) * n := upper
      _ = n := by rw [zero_add, one_mul]
  · intro enough i
    refine Finset.nonempty_Ico.mpr ?_
    calc i * n / m < i * n / m + 1 := Nat.lt_succ_self _
      _ = (i * n + m) / m := (Nat.add_div_right _ parts).symm
      _ ≤ (i + 1) * n / m := Nat.div_le_div_right (by rw [Nat.succ_mul]; omega)

/-! ### The averages -/

variable {K : Type} [Field K] [LinearOrder K] [IsStrictOrderedRing K]

theorem le_mean {s : Finset ℕ} (some : s.Nonempty) {f : ℕ → K} {lo : K}
    (h : ∀ k ∈ s, lo ≤ f k) : lo ≤ (∑ k ∈ s, f k) / (s.card : K) := by
  rw [le_div_iff₀ (Nat.cast_pos.mpr some.card_pos), mul_comm, ← nsmul_eq_mul]
  exact Finset.card_nsmul_le_sum s f lo h

theorem mean_le {s : Finset ℕ} (some : s.Nonempty) {f : ℕ → K} {hi : K}
    (h : ∀ k ∈ s, f k ≤ hi) : (∑ k ∈ s, f k) / (s.card : K) ≤ hi := by
  rw [div_le_iff₀ (Nat.cast_pos.mpr some.card_pos), mul_comm, ← nsmul_eq_mul]
  exact Finset.sum_le_card_nsmul s f hi h

variable [FloorRing K]

/-- The reduction of `src` to `m` bands is made of averages of bands, so it keeps a constant
spectrum and stays between the limits of any. -/
structure Lossless (src : List K) (m : ℕ) : Prop where
  average : ∀ i : Fin m, (bandsIn src.length m i).Nonempty ∧
    downsample src m i =
      (∑ k ∈ bandsIn src.length m i, src.getD k 0) / ((bandsIn src.length m i).card : K)
  constant : ∀ c, (∀ x ∈ src, x = c) → ∀ i : Fin m, downsample src m i = c
  between : ∀ lo hi, (∀ x ∈ src, lo ≤ x ∧ x ≤ hi) →
    ∀ i : Fin m, lo ≤ downsample src m i ∧ downsample src m i ≤ hi

theorem downsample_between {src : List K} {m : ℕ} {i : Fin m}
    (some : (bandsIn src.length m i).Nonempty) {lo hi : K} (h : ∀ x ∈ src, lo ≤ x ∧ x ≤ hi) :
    lo ≤ downsample src m i ∧ downsample src m i ≤ hi := by
  have bounds : ∀ k ∈ bandsIn src.length m i, lo ≤ src.getD k 0 ∧ src.getD k 0 ≤ hi := by
    intro k listed
    rw [List.getD_eq_getElem _ _ (bandsIn_lt i.2 listed)]
    exact h _ (List.getElem_mem _)
  rw [downsample_eq]
  exact ⟨le_mean some fun k listed => (bounds k listed).1,
    mean_le some fun k listed => (bounds k listed).2⟩

/-- The bands are always cut into runs; the reduction has no holes exactly when the source has
at least as many bands as the target. -/
theorem lossless_iff (src : List K) {m : ℕ} (parts : 0 < m) :
    Cut src.length m ∧ (Lossless src m ↔ m ≤ src.length) := by
  refine ⟨cut parts, fun lossless => ?_, fun enough => ?_⟩
  · exact (bandsIn_nonempty_iff parts).mp fun i => (lossless.average i).1
  · have filled := (bandsIn_nonempty_iff parts).mpr enough
    refine ⟨fun i => ⟨filled i, downsample_eq src i⟩, fun c same i => ?_, fun lo hi h i => ?_⟩
    · have close := downsample_between (filled i) fun x listed =>
        ⟨(same x listed).ge, (same x listed).le⟩
      exact le_antisymm close.2 close.1
    · exact downsample_between (filled i) h

/-- The default band count suffices for both targets. -/
theorem default_bands_lossless :
    Lossless (List.replicate 64 (0.5 : ℚ)) 16 ∧ Lossless (List.replicate 64 (0.5 : ℚ)) 32 :=
  ⟨(lossless_iff _ (by decide)).2.mpr (by decide), (lossless_iff _ (by decide)).2.mpr (by decide)⟩

/-- Eight bands, the fewest of the slider, leave the first of 16 buckets at 0. -/
theorem eight_bands_leave_holes : ¬ Lossless (List.replicate 8 (1 : ℚ)) 16 := by
  intro lossless
  have filled := lossless.constant 1 (fun _ listed => List.eq_of_mem_replicate listed) 0
  have none : bandsIn 8 16 (0 : Fin 16) = ∅ := by decide
  have hole : downsample (List.replicate 8 (1 : ℚ)) 16 0 = 0 := by
    rw [downsample_eq, List.length_replicate, none, Finset.sum_empty, zero_div]
  exact zero_ne_one (hole.symm.trans filled)

end Listeningway.Dsp.BandsStage
