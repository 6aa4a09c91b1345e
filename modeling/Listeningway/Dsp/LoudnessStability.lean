/- Listeningway/Dsp/LoudnessStability
   source: src/audio/dsp/stages/loudness_stage.h
   digest: The poles of the loudness filters, and the bound they put on all that the stage keeps. -/

import Listeningway.Dsp.KWeighting
import Listeningway.Dsp.LoudnessWindow
import Listeningway.Lib.Recursion

/-!
The high-pass of the source never moves its newest output on (`y1S2` stays 0), so what runs as
its recursion is one of the first order. Both its own poles and that one are inside.
-/

set_option autoImplicit false
set_option relaxedAutoImplicit false

namespace Listeningway.Dsp.LoudnessStage

open Listeningway.Lib.Recursion
open Listeningway.Source.SourceFormat

/-! ### Poles -/

/-- The poles of the transfer function lie strictly inside the unit circle. -/
def Biquad.PolesInside (q : Biquad ℝ) : Prop := Stable q.a1 q.a2

section Poles

variable {f0 q fs : ℝ}

theorem abs_lt_one_add {a₁ a₂ : ℝ} (one : 0 < 1 + a₁ + a₂) (minusOne : 0 < 1 - a₁ + a₂) :
    |a₁| < 1 + a₂ := abs_lt.mpr ⟨by linarith, by linarith⟩

theorem abs_sub_div_add_lt_one {n t : ℝ} (lead : 0 < n) (tail : 0 < t) :
    |(n - t) / (n + t)| < 1 := by
  rw [abs_lt, lt_div_iff₀ (by linarith), div_lt_one (by linarith)]
  constructor <;> linarith

theorem polesInside_shelf (corner : 0 < f0) (below : 2 * f0 < fs) (quality : 0 < q)
    (gainDb : ℝ) : (shelf f0 q gainDb fs).PolesInside := by
  obtain ⟨lower, upper⟩ := cos_corner corner below
  have side := skirt_pos corner below quality gainDb
  have amp := amplitude_pos gainDb
  rw [shelf_eq]
  generalize Real.cos (2.0 * Real.pi * f0 / fs) = cw at lower upper ⊢
  generalize skirt f0 q gainDb fs = tail at side ⊢
  generalize amplitude gainDb = a at amp ⊢
  have lead : 0 < (a + 1) + (a - 1) * cw := by nlinarith
  have whole : 0 < (a + 1) + (a - 1) * cw + tail := by linarith
  obtain ⟨one, minusOne, -⟩ := shelfOf_sums whole.ne'
  have product : |(shelfOf a cw tail).a2| < 1 := abs_sub_div_add_lt_one lead side
  apply stable_of_jury product
  apply abs_lt_one_add
  · rw [one]
    exact div_pos (by linarith) whole
  · rw [minusOne]
    exact div_pos (mul_pos (by linarith) (by linarith)) whole

theorem polesInside_highpass (corner : 0 < f0) (below : 2 * f0 < fs) (quality : 0 < q) :
    (highpass f0 q fs).PolesInside ∧ |(highpass f0 q fs).a2| < 1 := by
  obtain ⟨lower, upper⟩ := cos_corner corner below
  have alpha : 0 < Real.sin (2.0 * Real.pi * f0 / fs) / (2.0 * q) :=
    div_pos (sin_corner_pos corner below) (by linarith)
  have a₁ : (highpass f0 q fs).a1 = -2.0 * Real.cos (2.0 * Real.pi * f0 / fs) /
    (1 + Real.sin (2.0 * Real.pi * f0 / fs) / (2.0 * q)) := rfl
  have a₂ : (highpass f0 q fs).a2 = (1 - Real.sin (2.0 * Real.pi * f0 / fs) / (2.0 * q)) /
    (1 + Real.sin (2.0 * Real.pi * f0 / fs) / (2.0 * q)) := rfl
  rw [Biquad.PolesInside, a₁, a₂]
  generalize Real.cos (2.0 * Real.pi * f0 / fs) = cw at lower upper ⊢
  generalize Real.sin (2.0 * Real.pi * f0 / fs) / (2.0 * q) = t at alpha ⊢
  have whole : 0 < 1 + t := by linarith
  have product : |(1 - t) / (1 + t)| < 1 := abs_sub_div_add_lt_one one_pos alpha
  have one : 1 + -2.0 * cw / (1 + t) + (1 - t) / (1 + t) = 2 * (1 - cw) / (1 + t) := by
    rw [two_eq]
    field_simp
    ring
  have minusOne : 1 - -2.0 * cw / (1 + t) + (1 - t) / (1 + t) = 2 * (1 + cw) / (1 + t) := by
    rw [two_eq]
    field_simp
    ring
  refine ⟨stable_of_jury product (abs_lt_one_add ?_ ?_), product⟩
  · rw [one]
    exact div_pos (by linarith) whole
  · rw [minusOne]
    exact div_pos (by linarith) whole

variable {sampleRate : ℕ} (usable : 2 * 1681.9744 < (sampleRate : ℝ))

include usable

theorem polesInside_weightingShelf : (weightingShelf sampleRate).PolesInside :=
  polesInside_shelf (by norm_num) usable (by norm_num) _

theorem polesInside_weightingHighpass :
    (weightingHighpass sampleRate).PolesInside ∧ |(weightingHighpass sampleRate).a2| < 1 :=
  polesInside_highpass (by norm_num) (by linarith) (by norm_num)

end Poles

/-! ### One channel -/

/-- The delay lines, one after the other. -/
def ChState.memories {K : Type} (lines : ChState K) : List K :=
  [lines.x1S1, lines.x2S1, lines.y1S1, lines.y2S1, lines.x1S2, lines.x2S2, lines.y1S2, lines.y2S2]

/-- What three inputs within `B` put into a filter at most. -/
def Biquad.drive (q : Biquad ℝ) (B : ℝ) : ℝ := (|q.b0| + |q.b1| + |q.b2|) * B

theorem Biquad.abs_le_drive (q : Biquad ℝ) {B x x₁ x₂ : ℝ} (newest : |x| ≤ B) (older : |x₁| ≤ B)
    (oldest : |x₂| ≤ B) : |q.b0 * x + q.b1 * x₁ + q.b2 * x₂| ≤ q.drive B := by
  calc |q.b0 * x + q.b1 * x₁ + q.b2 * x₂|
      ≤ |q.b0 * x| + |q.b1 * x₁| + |q.b2 * x₂| := abs_add_three _ _ _
    _ = |q.b0| * |x| + |q.b1| * |x₁| + |q.b2| * |x₂| := by rw [abs_mul, abs_mul, abs_mul]
    _ ≤ |q.b0| * B + |q.b1| * B + |q.b2| * B :=
      add_le_add (add_le_add (mul_le_mul_of_nonneg_left newest (abs_nonneg _))
        (mul_le_mul_of_nonneg_left older (abs_nonneg _)))
        (mul_le_mul_of_nonneg_left oldest (abs_nonneg _))
    _ = q.drive B := by
      unfold Biquad.drive
      ring

theorem Biquad.drive_nonneg (q : Biquad ℝ) {B : ℝ} (nonneg : 0 ≤ B) : 0 ≤ q.drive B :=
  mul_nonneg (add_nonneg (add_nonneg (abs_nonneg _) (abs_nonneg _)) (abs_nonneg _)) nonneg

/-- Where the recursion of the second filter settles under inputs within `Y`. -/
noncomputable def Biquad.level (q : Biquad ℝ) (Y : ℝ) : ℝ := q.drive Y / (1 - |q.a2|)

/-- The delay lines of a channel whose shelf keeps `P` and puts out `Y` at most. -/
structure Settled (P : ℝ → ℝ → Prop) (B Y Z : ℝ) (lines : ChState ℝ) : Prop where
  x1S1 : |lines.x1S1| ≤ B
  x2S1 : |lines.x2S1| ≤ B
  shelf : P lines.y1S1 lines.y2S1
  x1S2 : |lines.x1S2| ≤ Y
  x2S2 : |lines.x2S2| ≤ Y
  y1S2 : lines.y1S2 = 0
  y2S2 : |lines.y2S2| ≤ Z

section Channel

variable {cs ch : Biquad ℝ} {P : ℝ → ℝ → Prop} {B Y : ℝ}
  (kept : ∀ y₁ y₂ u, P y₁ y₂ → |u| ≤ cs.drive B → P (u - cs.a1 * y₁ - cs.a2 * y₂) y₁)
  (bounded : ∀ y₁ y₂, P y₁ y₂ → |y₁| ≤ Y ∧ |y₂| ≤ Y) (inside : |ch.a2| < 1)

include kept bounded inside

theorem settled_filter {lines : ChState ℝ}
    (settled : Settled P B Y (ch.level Y) lines) {x : ℝ} (quiet : |x| ≤ B) :
    Settled P B Y (ch.level Y) (filter cs ch lines x).1 ∧
      |(filter cs ch lines x).2| ≤ ch.level Y := by
  have shelf : P (filter cs ch lines x).1.y1S1 lines.y1S1 :=
    kept _ _ _ settled.shelf (cs.abs_le_drive quiet settled.x1S1 settled.x2S1)
  have output : |(filter cs ch lines x).1.x1S2| ≤ Y := (bounded _ _ shelf).1
  have second : (filter cs ch lines x).2 =
      ch.b0 * (filter cs ch lines x).1.x1S2 + ch.b1 * lines.x1S2 + ch.b2 * lines.x2S2 +
        -ch.a2 * lines.y2S2 := by
    change _ - ch.a1 * lines.y1S2 - ch.a2 * lines.y2S2 = _
    rw [settled.y1S2, mul_zero, sub_zero, neg_mul, ← sub_eq_add_neg]
    rfl
  have drive := ch.abs_le_drive output settled.x1S2 settled.x2S2
  have pole : ‖-ch.a2‖ = |ch.a2| := by rw [norm_neg, Real.norm_eq_abs]
  have held : |(filter cs ch lines x).2| ≤ ch.level Y := by
    have step := norm_add_mul_le (r := -ch.a2) (z := lines.y2S2) (by rwa [pole]) drive (by
      rw [pole]
      exact settled.y2S2)
    rw [← second, pole] at step
    exact step
  exact ⟨⟨quiet, settled.x1S1, shelf, output, settled.x1S2, settled.y1S2, held⟩, held⟩

end Channel

/-- Delay lines that stay within bounds as long as the samples do. -/
structure LinesInvariant (sampleRate : ℕ) (B C : ℝ) (I : ChState ℝ → Prop) : Prop where
  zero : I ChState.zero
  step : ∀ lines x, I lines → |x| ≤ B →
    I (filter (weightingShelf sampleRate) (weightingHighpass sampleRate) lines x).1 ∧
      |(filter (weightingShelf sampleRate) (weightingHighpass sampleRate) lines x).2| ≤ C
  memories : ∀ lines, I lines → ∀ m ∈ lines.memories, |m| ≤ C

theorem exists_linesInvariant {sampleRate : ℕ} (usable : 2 * 1681.9744 < (sampleRate : ℝ))
    {B : ℝ} (nonneg : 0 ≤ B) : ∃ C I, LinesInvariant sampleRate B C I := by
  obtain ⟨P, Y, rest, kept, bounded⟩ := (polesInside_weightingShelf usable).exists_invariant
    ((weightingShelf sampleRate).drive_nonneg nonneg)
  obtain ⟨-, inside⟩ := polesInside_weightingHighpass usable
  have level : 0 ≤ Y := (abs_nonneg 0).trans (bounded 0 0 rest).1
  have room : 0 < 1 - |(weightingHighpass sampleRate).a2| := by linarith
  have top : 0 ≤ (weightingHighpass sampleRate).level Y :=
    div_nonneg (Biquad.drive_nonneg _ level) room.le
  refine ⟨max B (max Y ((weightingHighpass sampleRate).level Y)),
    Settled P B Y ((weightingHighpass sampleRate).level Y), ⟨?_, ?_, ?_⟩⟩
  · have still : |(0 : ℝ)| = 0 := abs_zero
    exact ⟨still.le.trans nonneg, still.le.trans nonneg, rest, still.le.trans level,
      still.le.trans level, rfl, still.le.trans top⟩
  · intro lines x settled quiet
    obtain ⟨next, output⟩ := settled_filter kept bounded inside settled quiet
    exact ⟨next, output.trans ((le_max_right _ _).trans (le_max_right _ _))⟩
  · intro lines settled m listed
    obtain ⟨newest, older⟩ := bounded _ _ settled.shelf
    have silent : |lines.y1S2| ≤ B := by
      rw [settled.y1S2, abs_zero]
      exact nonneg
    simp only [ChState.memories, List.mem_cons, List.not_mem_nil, or_false] at listed
    rcases listed with rfl | rfl | rfl | rfl | rfl | rfl | rfl | rfl
    · exact settled.x1S1.trans (le_max_left _ _)
    · exact settled.x2S1.trans (le_max_left _ _)
    · exact newest.trans ((le_max_left _ _).trans (le_max_right _ _))
    · exact older.trans ((le_max_left _ _).trans (le_max_right _ _))
    · exact settled.x1S2.trans ((le_max_left _ _).trans (le_max_right _ _))
    · exact settled.x2S2.trans ((le_max_left _ _).trans (le_max_right _ _))
    · exact silent.trans (le_max_left _ _)
    · exact settled.y2S2.trans ((le_max_right _ _).trans (le_max_right _ _))

/-! ### The stage -/

/-- All delay lines and all energies in the window stay within `C`. -/
def Bounded (C : ℝ) (st : LoudnessStage ℝ) : Prop :=
  (∀ lines ∈ st.chState, ∀ m ∈ lines.memories, |m| ≤ C) ∧ ∀ e ∈ st.ring, |e| ≤ C

/-- A call with samples within `B` at a rate; the channels of a format fill 16 bits. -/
structure Fed (sampleRate : ℕ) (B : ℝ) (call : Call) : Prop where
  rate : call.1.format.sampleRate = sampleRate
  channels : call.1.format.channels < 2 ^ 16
  samples : ∀ x ∈ call.1.samples, |x| ≤ B

/-- The stage in the loop over a packet, before frame `k`. -/
noncomputable def midway (st : LoudnessStage ℝ) (call : Call) (k : ℕ) : LoudnessStage ℝ :=
  (List.range k).foldl (pushFrame call.1)
    (st.configure call.1.format.sampleRate call.1.format.channels call.2.loudness.windowMs)

/-- The channels are settled, and there are no more of them than a format can have. -/
structure Held (I : ChState ℝ → Prop) (E : ℝ) (st : LoudnessStage ℝ) : Prop where
  few : st.chState.length < 2 ^ 16
  lines : ∀ lines ∈ st.chState, I lines
  energies : ∀ e ∈ st.ring, |e| ≤ E

/-- The filters are those of the rate. -/
structure Tuned (sampleRate : ℕ) (st : LoudnessStage ℝ) : Prop where
  cs : st.cs = weightingShelf sampleRate
  ch : st.ch = weightingHighpass sampleRate

section Stage

variable {sampleRate : ℕ} {B C : ℝ} {I : ChState ℝ → Prop} {st : LoudnessStage ℝ}

theorem sample_le (nonneg : 0 ≤ B) {call : Call} (fed : Fed sampleRate B call) (i c : ℕ) :
    |call.1.sample i c| ≤ B := by
  rw [AnalysisFrame.sample, List.getD_eq_getElem?_getD]
  cases found : call.1.samples[i * call.1.format.channels + c]? with
  | none =>
    rw [Option.getD_none, abs_zero]
    exact nonneg
  | some x => exact fed.samples x (List.mem_of_getElem? found)

variable (invariant : LinesInvariant sampleRate B C I)

include invariant

theorem abs_energy_le (tuned : st.Tuned sampleRate) (held : st.Held I (2 ^ 16 * C ^ 2))
    {frame : AnalysisFrame ℝ} (quiet : ∀ i c, |frame.sample i c| ≤ B) (i : ℕ) :
    |(filterFrame st frame i).2| ≤ 2 ^ 16 * C ^ 2 := by
  have energy := filterFrame_nonneg st frame i
  have count := held.few
  rw [abs_of_nonneg energy]
  have each : ∀ e ∈ (st.chState.mapIdx fun c s => filter st.cs st.ch s (frame.sample i c)).map
      (fun o => o.2 * o.2), e ≤ C ^ 2 := by
    intro e listed
    obtain ⟨o, filtered, rfl⟩ := List.mem_map.mp listed
    obtain ⟨c, inside, rfl⟩ := List.mem_mapIdx.mp filtered
    have output := (invariant.step _ _ (held.lines _ (List.getElem_mem inside)) (quiet i c)).2
    rw [← tuned.cs, ← tuned.ch] at output
    rw [← sq]
    exact sq_le_sq' (by linarith [neg_abs_le (filter st.cs st.ch st.chState[c]
      (frame.sample i c)).2]) ((le_abs_self _).trans output)
  calc (filterFrame st frame i).2 ≤ st.chState.length • C ^ 2 := by
        have total := List.sum_le_card_nsmul _ _ each
        rw [List.length_map, List.length_mapIdx] at total
        exact total
    _ ≤ 2 ^ 16 * C ^ 2 := by
      rw [nsmul_eq_mul]
      apply mul_le_mul_of_nonneg_right _ (sq_nonneg C)
      exact_mod_cast count.le

theorem held_pushFrame (tuned : st.Tuned sampleRate) (held : st.Held I (2 ^ 16 * C ^ 2))
    {frame : AnalysisFrame ℝ} (quiet : ∀ i c, |frame.sample i c| ≤ B) (i : ℕ) :
    (pushFrame frame st i).Tuned sampleRate ∧
      (pushFrame frame st i).Held I (2 ^ 16 * C ^ 2) := by
  refine ⟨⟨tuned.cs, tuned.ch⟩, ⟨?_, fun lines listed => ?_, fun e listed => ?_⟩⟩
  · change (List.map Prod.fst (st.chState.mapIdx _)).length < _
    rw [List.length_map, List.length_mapIdx]
    exact held.few
  · obtain ⟨o, filtered, rfl⟩ := List.mem_map.mp listed
    obtain ⟨c, inside, rfl⟩ := List.mem_mapIdx.mp filtered
    rw [tuned.cs, tuned.ch]
    exact (invariant.step _ _ (held.lines _ (List.getElem_mem inside)) (quiet i c)).1
  · rcases List.mem_or_eq_of_mem_set listed with old | rfl
    · exact held.energies e old
    · exact abs_energy_le invariant tuned held quiet i

theorem held_pushFrames (tuned : st.Tuned sampleRate) (held : st.Held I (2 ^ 16 * C ^ 2))
    {frame : AnalysisFrame ℝ} (quiet : ∀ i c, |frame.sample i c| ≤ B) (k : ℕ) :
    ((List.range k).foldl (pushFrame frame) st).Tuned sampleRate ∧
      ((List.range k).foldl (pushFrame frame) st).Held I (2 ^ 16 * C ^ 2) := by
  induction k with
  | zero => exact ⟨tuned, held⟩
  | succ k ih =>
    rw [List.range_succ, List.foldl_append]
    exact held_pushFrame invariant ih.1 ih.2 quiet k

theorem held_configure (usable : sampleRate ≠ 0) (tuned : st.configuredFor ≠ 0 →
      st.Tuned sampleRate) (held : st.Held I (2 ^ 16 * C ^ 2)) {channels : ℕ}
    (few : channels < 2 ^ 16) (windowMs : ℝ) :
    (st.configure sampleRate channels windowMs).Tuned sampleRate ∧
      (st.configure sampleRate channels windowMs).Held I (2 ^ 16 * C ^ 2) := by
  unfold configure
  split_ifs with same
  · exact ⟨tuned (by rwa [← same.1]), held⟩
  · refine ⟨⟨rfl, rfl⟩, ⟨?_, fun lines listed => ?_, fun e listed => ?_⟩⟩
    · rw [List.length_replicate]
      exact few
    · rw [List.eq_of_mem_replicate listed]
      exact invariant.zero
    · rw [List.eq_of_mem_replicate listed, abs_zero]
      positivity

theorem held_midway (nonneg : 0 ≤ B) (usable : sampleRate ≠ 0) (tuned : st.configuredFor ≠ 0 →
      st.Tuned sampleRate) (held : st.Held I (2 ^ 16 * C ^ 2)) {call : Call}
    (fed : Fed sampleRate B call) (k : ℕ) :
    (st.midway call k).Tuned sampleRate ∧ (st.midway call k).Held I (2 ^ 16 * C ^ 2) := by
  obtain ⟨tuned', held'⟩ := held_configure invariant usable tuned held fed.channels
    call.2.loudness.windowMs
  unfold midway
  rw [fed.rate]
  exact held_pushFrames invariant tuned' held' (sample_le nonneg fed) k

theorem held_process (nonneg : 0 ≤ B) (usable : sampleRate ≠ 0) (tuned : st.configuredFor ≠ 0 →
      st.Tuned sampleRate) (held : st.Held I (2 ^ 16 * C ^ 2)) {call : Call}
    (fed : Fed sampleRate B call) :
    ((st.process call.1 call.2).1.configuredFor ≠ 0 →
        (st.process call.1 call.2).1.Tuned sampleRate) ∧
      (st.process call.1 call.2).1.Held I (2 ^ 16 * C ^ 2) := by
  unfold process
  dsimp only
  split_ifs with empty
  · exact ⟨tuned, held⟩
  · obtain ⟨tuned', held'⟩ := held_midway invariant nonneg usable tuned held fed call.1.frames
    exact ⟨fun _ => tuned', held'⟩

theorem held_after (nonneg : 0 ≤ B) (usable : sampleRate ≠ 0) (tuned : st.configuredFor ≠ 0 →
      st.Tuned sampleRate) (held : st.Held I (2 ^ 16 * C ^ 2)) {calls : List Call}
    (fed : ∀ call ∈ calls, Fed sampleRate B call) :
    ((st.after calls).configuredFor ≠ 0 → (st.after calls).Tuned sampleRate) ∧
      (st.after calls).Held I (2 ^ 16 * C ^ 2) := by
  induction calls generalizing st with
  | nil => exact ⟨tuned, held⟩
  | cons call rest ih =>
    obtain ⟨tuned', held'⟩ := held_process invariant nonneg usable tuned held
      (fed call List.mem_cons_self)
    exact ih tuned' held' fun call listed => fed call (List.mem_cons_of_mem _ listed)

theorem bounded_of_held (held : st.Held I (2 ^ 16 * C ^ 2)) :
    st.Bounded (max C (2 ^ 16 * C ^ 2)) :=
  ⟨fun lines listed m memory =>
    (invariant.memories lines (held.lines lines listed) m memory).trans (le_max_left _ _),
    fun e listed => (held.energies e listed).trans (le_max_right _ _)⟩

end Stage

theorem held_initial (I : ChState ℝ → Prop) (E : ℝ) : (initial : LoudnessStage ℝ).Held I E where
  few := by decide
  lines _ listed := absurd listed List.not_mem_nil
  energies _ listed := absurd listed List.not_mem_nil

/-- At every rate that the shelf allows both filters have their poles inside the unit circle, and
no input within a bound drives the delay lines or the energies out of another, which depends on
the rate and that bound alone. -/
theorem filters_stable (sampleRate : ℕ) (usable : 2 * 1681.9744 < (sampleRate : ℝ)) :
    (∀ (st : LoudnessStage ℝ) (channels : ℕ) (windowMs : ℝ), st.configuredFor ≠ sampleRate →
      (st.configure sampleRate channels windowMs).cs.PolesInside ∧
        (st.configure sampleRate channels windowMs).ch.PolesInside) ∧
    ∀ B : ℝ, ∃ C : ℝ, ∀ calls, (∀ call ∈ calls, Fed sampleRate B call) →
      (initial.after calls).Bounded C ∧
        ∀ call k, Fed sampleRate B call → ((initial.after calls).midway call k).Bounded C := by
  have some : sampleRate ≠ 0 := by
    rintro rfl
    norm_num at usable
  constructor
  · intro st channels windowMs other
    unfold configure
    rw [if_neg fun same => other same.1.symm]
    exact ⟨polesInside_weightingShelf usable, (polesInside_weightingHighpass usable).1⟩
  · intro B
    -- a negative bound admits no sample at all, any bound above it serves
    obtain ⟨C, I, invariant⟩ := exists_linesInvariant usable (le_max_right B 0)
    refine ⟨max C (2 ^ 16 * C ^ 2), fun calls fed => ?_⟩
    have wider : ∀ call, Fed sampleRate B call → Fed sampleRate (max B 0) call := fun call fed =>
      ⟨fed.rate, fed.channels, fun x listed => (fed.samples x listed).trans (le_max_left _ _)⟩
    obtain ⟨tuned, held⟩ := held_after invariant (le_max_right B 0) some
      (fun unset => absurd rfl unset) (held_initial I _) fun call listed =>
        wider call (fed call listed)
    refine ⟨bounded_of_held invariant held, fun call k fed' => ?_⟩
    exact bounded_of_held invariant
      (held_midway invariant (le_max_right B 0) some tuned held (wider call fed') k).2

/-- At 48 kHz, for samples up to full scale. -/
theorem filters_stable_at_48_kHz :
    (weightingShelf 48000).PolesInside ∧ (weightingHighpass 48000).PolesInside ∧
      ∃ C : ℝ, ∀ calls, (∀ call ∈ calls, Fed 48000 1 call) → (initial.after calls).Bounded C := by
  obtain ⟨poles, bounds⟩ := filters_stable 48000 (by norm_num)
  obtain ⟨shelf, highpass⟩ := poles initial 2 400 (Nat.zero_ne_add_one _)
  obtain ⟨C, bound⟩ := bounds 1
  exact ⟨shelf, highpass, C, fun calls fed => (bound calls fed).1⟩

end Listeningway.Dsp.LoudnessStage
