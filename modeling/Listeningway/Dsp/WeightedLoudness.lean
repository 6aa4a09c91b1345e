/- Listeningway/Dsp/WeightedLoudness
   source: src/audio/dsp/stages/loudness_stage.h
   digest: Where the window of the loudness holds the energies of the two biquads it is set up
     with, and an impulse behind which it does not. -/

import Listeningway.Dsp.KWeighting
import Listeningway.Dsp.LoudnessWindow

/-!
`configure` makes two biquads, but the second one is run without the term of its newest output:
`y1_s2` is never written. The first sample that sounds comes out right, the one behind it does
not.
-/

set_option autoImplicit false
set_option relaxedAutoImplicit false

namespace Listeningway.Dsp.LoudnessStage

open Listeningway.Config
open Listeningway.Lib.ListRing
open Listeningway.Lib.StreamRun
open Listeningway.Source.SourceFormat

/-! ### Biquads -/

section Response

variable {K : Type} [Field K]

/-- A signal `d` samples late, silent before it begins. -/
def delayed (signal : ℕ → K) (d i : ℕ) : K := if d ≤ i then signal (i - d) else 0

/-- The last output before sample `i` of a signal, and the one before it. -/
def Biquad.past (q : Biquad K) (signal : ℕ → K) : ℕ → K × K
  | 0 => (0, 0)
  | i + 1 =>
    (q.b0 * signal i + q.b1 * delayed signal 1 i + q.b2 * delayed signal 2 i
      - q.a1 * (q.past signal i).1 - q.a2 * (q.past signal i).2, (q.past signal i).1)

/-- What the filter of the coefficients makes of a signal. -/
def Biquad.output (q : Biquad K) (signal : ℕ → K) (i : ℕ) : K := (q.past signal (i + 1)).1

theorem Biquad.past_eq (q : Biquad K) (signal : ℕ → K) (i : ℕ) :
    q.past signal i = (delayed (q.output signal) 1 i, delayed (q.output signal) 2 i) := by
  match i with
  | 0 => rfl
  | 1 => rfl
  | i + 2 =>
    rw [delayed, delayed, if_pos (by omega), if_pos (by omega)]
    rfl

theorem Biquad.output_eq (q : Biquad K) (signal : ℕ → K) (i : ℕ) :
    q.output signal i =
      q.b0 * signal i + q.b1 * delayed signal 1 i + q.b2 * delayed signal 2 i
        - q.a1 * delayed (q.output signal) 1 i - q.a2 * delayed (q.output signal) 2 i := by
  rw [Biquad.output, Biquad.past, Biquad.past_eq]

theorem delayed_one_succ (signal : ℕ → K) (i : ℕ) : delayed signal 1 (i + 1) = signal i :=
  if_pos (Nat.le_add_left 1 i)

theorem delayed_two_succ (signal : ℕ → K) (i : ℕ) :
    delayed signal 2 (i + 1) = delayed signal 1 i :=
  if_congr Nat.succ_le_succ_iff rfl rfl

theorem delayed_eq_zero {signal : ℕ → K} {i d : ℕ} (later : 1 ≤ d)
    (silent : ∀ j < i, signal j = 0) : delayed signal d i = 0 := by
  unfold delayed
  split_ifs
  · exact silent _ (by omega)
  · rfl

theorem Biquad.output_first (q : Biquad K) {signal : ℕ → K} {i : ℕ}
    (silent : ∀ j < i, signal j = 0) :
    (∀ j < i, q.output signal j = 0) ∧ q.output signal i = q.b0 * signal i := by
  have none : ∀ j < i, q.output signal j = 0 := by
    intro j early
    induction j using Nat.strong_induction_on with
    | _ j ih =>
      have inputs : ∀ j' < j, signal j' = 0 := fun j' before => silent j' (before.trans early)
      have outputs : ∀ j' < j, q.output signal j' = 0 := fun j' before =>
        ih j' before (before.trans early)
      rw [q.output_eq, silent j early, delayed_eq_zero le_rfl inputs,
        delayed_eq_zero one_le_two inputs, delayed_eq_zero le_rfl outputs,
        delayed_eq_zero one_le_two outputs]
      simp only [mul_zero, add_zero, sub_zero]
  refine ⟨none, ?_⟩
  rw [q.output_eq, delayed_eq_zero le_rfl silent, delayed_eq_zero one_le_two silent,
    delayed_eq_zero le_rfl none, delayed_eq_zero one_le_two none]
  simp only [mul_zero, add_zero, sub_zero]

variable (cs ch : Biquad K) (signal : ℕ → K)

/-- The weighted sample `i` of a channel: the shelf, and then the high-pass. -/
def weightedAt (i : ℕ) : K := ch.output (cs.output signal) i

/-- The energy of frame `i`, where `x i c` is its sample in channel `c`. -/
def energyAt (channels : ℕ) (x : ℕ → ℕ → K) (i : ℕ) : K :=
  ((List.range channels).map fun c =>
    weightedAt cs ch (fun i => x i c) i * weightedAt cs ch (fun i => x i c) i).sum

/-! ### What the stage makes of them -/

theorem linesAt_eq (i : ℕ) :
    linesAt cs ch signal i =
      { x1S1 := delayed signal 1 i
        x2S1 := delayed signal 2 i
        y1S1 := delayed (cs.output signal) 1 i
        y2S1 := delayed (cs.output signal) 2 i
        x1S2 := delayed (cs.output signal) 1 i
        x2S2 := delayed (cs.output signal) 2 i
        y1S2 := 0
        y2S2 := delayed (filteredAt cs ch signal) 1 i } := by
  induction i with
  | zero => rfl
  | succ i ih =>
    have shelf : (filter cs ch (linesAt cs ch signal i) (signal i)).1.y1S1 =
        cs.output signal i := by
      rw [ih, cs.output_eq]
      rfl
    have kept : (linesAt cs ch signal i).y1S2 = 0 := by rw [ih]
    have lines : linesAt cs ch signal (i + 1) =
        { x1S1 := signal i
          x2S1 := (linesAt cs ch signal i).x1S1
          y1S1 := (filter cs ch (linesAt cs ch signal i) (signal i)).1.y1S1
          y2S1 := (linesAt cs ch signal i).y1S1
          x1S2 := (filter cs ch (linesAt cs ch signal i) (signal i)).1.y1S1
          x2S2 := (linesAt cs ch signal i).x1S2
          y1S2 := (linesAt cs ch signal i).y1S2
          y2S2 := filteredAt cs ch signal i } := rfl
    rw [lines, shelf, kept, ih]
    simp only [delayed_one_succ, delayed_two_succ]

theorem filteredAt_eq (i : ℕ) :
    filteredAt cs ch signal i =
      ch.b0 * cs.output signal i + ch.b1 * delayed (cs.output signal) 1 i +
        ch.b2 * delayed (cs.output signal) 2 i - ch.a2 * delayed (filteredAt cs ch signal) 1 i := by
  have second : filteredAt cs ch signal i =
      ch.b0 * (filter cs ch (linesAt cs ch signal i) (signal i)).1.y1S1 +
        ch.b1 * (linesAt cs ch signal i).x1S2 + ch.b2 * (linesAt cs ch signal i).x2S2 -
        ch.a1 * (linesAt cs ch signal i).y1S2 - ch.a2 * (linesAt cs ch signal i).y2S2 := rfl
  have shelf : (filter cs ch (linesAt cs ch signal i) (signal i)).1.y1S1 =
      cs.output signal i := by
    rw [linesAt_eq, cs.output_eq]
    rfl
  rw [second, shelf, linesAt_eq, mul_zero, sub_zero]

variable {signal} {i : ℕ}

theorem filteredAt_first (silent : ∀ j < i, signal j = 0) :
    (∀ j < i, filteredAt cs ch signal j = 0) ∧
      filteredAt cs ch signal i = weightedAt cs ch signal i ∧
      weightedAt cs ch signal i = ch.b0 * (cs.b0 * signal i) := by
  obtain ⟨shelf, leading⟩ := cs.output_first silent
  obtain ⟨-, first⟩ := ch.output_first shelf
  have none : ∀ j < i, filteredAt cs ch signal j = 0 := by
    intro j early
    induction j using Nat.strong_induction_on with
    | _ j ih =>
      have inputs : ∀ j' < j, cs.output signal j' = 0 := fun j' before =>
        shelf j' (before.trans early)
      have outputs : ∀ j' < j, filteredAt cs ch signal j' = 0 := fun j' before =>
        ih j' before (before.trans early)
      rw [filteredAt_eq, shelf j early, delayed_eq_zero le_rfl inputs,
        delayed_eq_zero one_le_two inputs, delayed_eq_zero le_rfl outputs]
      simp only [mul_zero, add_zero, sub_zero]
  have weighted : weightedAt cs ch signal i = ch.b0 * (cs.b0 * signal i) := by
    rw [weightedAt, first, leading]
  refine ⟨none, ?_, weighted⟩
  rw [weighted, filteredAt_eq, leading, delayed_eq_zero le_rfl shelf,
    delayed_eq_zero one_le_two shelf, delayed_eq_zero le_rfl none]
  simp only [mul_zero, add_zero, sub_zero]

theorem filteredAt_second (silent : ∀ j < i, signal j = 0) :
    filteredAt cs ch signal (i + 1) - weightedAt cs ch signal (i + 1) =
      (ch.a1 - ch.a2) * (ch.b0 * (cs.b0 * signal i)) := by
  obtain ⟨none, same, leading⟩ := filteredAt_first cs ch silent
  have quiet : ∀ j < i, weightedAt cs ch signal j = 0 :=
    (ch.output_first (cs.output_first silent).1).1
  have older : delayed (weightedAt cs ch signal) 2 (i + 1) = 0 := by
    rw [delayed_two_succ]
    exact delayed_eq_zero le_rfl quiet
  have whole : weightedAt cs ch signal (i + 1) =
      ch.b0 * cs.output signal (i + 1) + ch.b1 * delayed (cs.output signal) 1 (i + 1) +
        ch.b2 * delayed (cs.output signal) 2 (i + 1) -
        ch.a1 * delayed (weightedAt cs ch signal) 1 (i + 1) -
        ch.a2 * delayed (weightedAt cs ch signal) 2 (i + 1) := ch.output_eq _ _
  rw [whole, filteredAt_eq, older, delayed_one_succ (filteredAt cs ch signal),
    delayed_one_succ (weightedAt cs ch signal), same, leading]
  ring

end Response

/-! ### The coefficients -/

section Highpass

variable {f0 fs : ℝ} (corner : 0 < f0) (low : 4 * f0 < fs)

include corner low

theorem cos_low_corner : 0 < Real.cos (2.0 * Real.pi * f0 / fs) := by
  obtain ⟨positive, -⟩ := corner_mem corner (by linarith : 2 * f0 < fs)
  have pi := Real.pi_pos
  refine Real.cos_pos_of_mem_Ioo ⟨by linarith, ?_⟩
  rw [div_lt_iff₀ (by linarith), two_eq]
  nlinarith

theorem highpass_coefficients :
    0 < (highpass f0 0.5 fs).b0 ∧ (highpass f0 0.5 fs).b1 = -2 * (highpass f0 0.5 fs).b0 ∧
      (highpass f0 0.5 fs).a1 < (highpass f0 0.5 fs).a2 ∧
      -1 ≤ (highpass f0 0.5 fs).a1 + (highpass f0 0.5 fs).a2 := by
  have cos := cos_low_corner corner low
  have sin := sin_corner_pos corner (by linarith : 2 * f0 < fs)
  have cos_le := Real.cos_le_one (2.0 * Real.pi * f0 / fs)
  have sin_le := Real.sin_le_one (2.0 * Real.pi * f0 / fs)
  have b₀ : (highpass f0 0.5 fs).b0 = (1 + Real.cos (2.0 * Real.pi * f0 / fs)) / 2.0 /
    (1 + Real.sin (2.0 * Real.pi * f0 / fs) / (2.0 * 0.5)) := rfl
  have b₁ : (highpass f0 0.5 fs).b1 = -(1 + Real.cos (2.0 * Real.pi * f0 / fs)) /
    (1 + Real.sin (2.0 * Real.pi * f0 / fs) / (2.0 * 0.5)) := rfl
  have a₁ : (highpass f0 0.5 fs).a1 = -2.0 * Real.cos (2.0 * Real.pi * f0 / fs) /
    (1 + Real.sin (2.0 * Real.pi * f0 / fs) / (2.0 * 0.5)) := rfl
  have a₂ : (highpass f0 0.5 fs).a2 = (1 - Real.sin (2.0 * Real.pi * f0 / fs) / (2.0 * 0.5)) /
    (1 + Real.sin (2.0 * Real.pi * f0 / fs) / (2.0 * 0.5)) := rfl
  have quality : (2.0 * 0.5 : ℝ) = 1 := by norm_num
  rw [b₀, b₁, a₁, a₂, quality, div_one]
  generalize Real.cos (2.0 * Real.pi * f0 / fs) = cw at cos cos_le ⊢
  generalize Real.sin (2.0 * Real.pi * f0 / fs) = t at sin sin_le ⊢
  rw [two_eq]
  have whole : 0 < 1 + t := by linarith
  refine ⟨by positivity, ?_, ?_, ?_⟩
  · field_simp
  · rw [div_lt_div_iff_of_pos_right whole]
    linarith
  · rw [← add_div, le_div_iff₀ whole]
    linarith

end Highpass

section Shelf

variable {a cw tail : ℝ}

theorem shelfOf_b0_pos (amp : 0 < a) (lower : -1 < cw) (upper : cw < 1) (side : 0 < tail) :
    0 < (shelfOf a cw tail).b0 := by
  have lead : 0 < (a + 1) + (a - 1) * cw := by nlinarith
  have lead' : 0 < (a + 1) - (a - 1) * cw := by nlinarith
  exact div_pos (mul_pos amp (by linarith)) (by linarith)

theorem shelfOf_second_lt (unit : 1 ≤ a) (small : a < 7 / 4) (lower : 0 < cw) (upper : cw ≤ 1)
    (side : 0 < tail) :
    2 * ((shelfOf a cw tail).b1 - (shelfOf a cw tail).a1 * (shelfOf a cw tail).b0) <
      3 * (shelfOf a cw tail).b0 := by
  have whole : 0 < (a + 1) + (a - 1) * cw + tail := by nlinarith
  have turned : 2 ≤ (a + 1) - (a - 1) * cw + tail := by nlinarith
  have below : (a + 1) - (a - 1) * cw + tail ≤ (a + 1) + (a - 1) * cw + tail := by nlinarith
  have slope : 0 ≤ (a - 1) + (a + 1) * cw := by nlinarith
  simp only [shelfOf, two_eq]
  generalize (a + 1) + (a - 1) * cw + tail = w at whole below ⊢
  generalize (a + 1) - (a - 1) * cw + tail = n at turned below ⊢
  have part : n / w ≤ 1 := (div_le_one whole).mpr below
  have fed : ((a - 1) + (a + 1) * cw) * (n / w) ≤ (a - 1) + (a + 1) * cw :=
    mul_le_of_le_one_right slope part
  have product : 2 * (2 * a * ((a - 1) - (a + 1) * cw) / w -
      -2 * ((a - 1) + (a + 1) * cw) / w * (a * n / w)) =
      4 * a * ((a - 1) - (a + 1) * cw + ((a - 1) + (a + 1) * cw) * (n / w)) / w := by
    field_simp
    ring
  have triple : 3 * (a * n / w) = 3 * (a * n) / w := mul_div_assoc' _ _ _
  rw [product, triple, div_lt_div_iff_of_pos_right whole]
  nlinarith

end Shelf

theorem amplitude_mem {gainDb : ℝ} (nonneg : 0 ≤ gainDb) (small : gainDb ≤ 8) :
    1 ≤ amplitude gainDb ∧ amplitude gainDb < 7 / 4 := by
  have ten : (10.0 : ℝ) = 10 := by norm_num
  have forty : (40.0 : ℝ) = 40 := by norm_num
  rw [amplitude, ten, forty]
  constructor
  · exact Real.one_le_rpow (by norm_num) (by positivity)
  · have fifth : (10 : ℝ) ^ (gainDb / 40) ≤ 10 ^ ((5 : ℝ)⁻¹) :=
      Real.rpow_le_rpow_of_exponent_le (by norm_num) (by linarith)
    refine lt_of_le_of_lt fifth ?_
    rw [Real.rpow_inv_lt_iff_of_pos (by norm_num) (by norm_num) (by norm_num)]
    norm_num

/-! ### The window -/

/-- The K-weighted energies of the frames of a stream. -/
noncomputable def energies (format : Format) (samples : List ℝ) : List ℝ :=
  (List.range (samples.length / format.channels)).map
    (energyAt (weightingShelf format.sampleRate) (weightingHighpass format.sampleRate)
      format.channels (sampleOf format.channels samples))

/-- No frame of a stream sounds but its last. -/
def Sudden (format : Format) (samples : List ℝ) : Prop :=
  ∀ i, i + 1 < samples.length / format.channels → ∀ c < format.channels,
    sampleOf format.channels samples i c = 0

/-- The window behind packets holds the last K-weighted energies of their stream. -/
def HoldsWeighted (start : LoudnessStage ℝ) (format : Format) (calls : List Call)
    (last : Call) : Prop :=
  oldestFirst (start.after (calls ++ [last])).ring (start.after (calls ++ [last])).ringPos =
    lastPadded (start.after (calls ++ [last])).ring.length 0
      (energies format (stream (calls ++ [last])))

section Window

variable {format : Format}

theorem filteredEnergies_eq {samples : List ℝ} (sudden : Sudden format samples) :
    filteredEnergies format samples = energies format samples := by
  apply List.map_congr_left
  intro i listed
  have inside := List.mem_range.mp listed
  unfold filteredEnergyAt energyAt
  congr 1
  apply List.map_congr_left
  intro c channel
  rw [(filteredAt_first _ _ fun j before =>
    sudden j (by omega) c (List.mem_range.mp channel)).2.1]

theorem weighting_coefficients {sampleRate : ℕ} (usable : 2 * 1681.9744 < (sampleRate : ℝ)) :
    0 < (weightingShelf sampleRate).b0 ∧ 0 < (weightingHighpass sampleRate).b0 ∧
      (weightingHighpass sampleRate).a1 < (weightingHighpass sampleRate).a2 := by
  have low : 4 * 38.13547 < (sampleRate : ℝ) := by linarith
  obtain ⟨leads, -, apart, -⟩ := highpass_coefficients (by norm_num) low
  obtain ⟨lower, upper⟩ := cos_corner (by norm_num) usable
  refine ⟨?_, leads, apart⟩
  exact shelfOf_b0_pos (amplitude_pos _) lower upper
    (skirt_pos (by norm_num) usable (by norm_num) _)

theorem sudden_iff (usable : 2 * 1681.9744 < (format.sampleRate : ℝ)) (samples : List ℝ) :
    Sudden format samples ↔
      ∀ i < samples.length / format.channels, ∀ c < format.channels,
        filteredAt (weightingShelf format.sampleRate) (weightingHighpass format.sampleRate)
            (fun i => sampleOf format.channels samples i c) i =
          weightedAt (weightingShelf format.sampleRate) (weightingHighpass format.sampleRate)
            (fun i => sampleOf format.channels samples i c) i := by
  constructor
  · intro sudden i inside c channel
    exact (filteredAt_first _ _ fun j before => sudden j (by omega) c channel).2.1
  · intro same i inside c channel
    by_contra sounds
    -- the first sample of the channel that sounds, and the one behind it
    have some : ∃ j, sampleOf format.channels samples j c ≠ 0 := ⟨i, sounds⟩
    have first := Nat.find_spec some
    have early : Nat.find some ≤ i := Nat.find_min' some sounds
    have silent : ∀ j < Nat.find some, sampleOf format.channels samples j c = 0 :=
      fun j before => not_not.mp (Nat.find_min some before)
    have next := same (Nat.find some + 1) (by omega) c channel
    have missing := filteredAt_second (weightingShelf format.sampleRate)
      (weightingHighpass format.sampleRate) silent
    rw [next, sub_self, eq_comm] at missing
    obtain ⟨shelf, highpass, apart⟩ := weighting_coefficients usable
    rcases mul_eq_zero.mp missing with equal | none
    · linarith
    · rcases mul_eq_zero.mp none with zero | none
      · exact highpass.ne' zero
      · exact (mul_ne_zero shelf.ne' first) none

end Window

/-- The loudness measures a window of the stream. A stage that is fresh, or set up for something
else, is `Stale` and starts anew; from there on the window holds the last energies of the stream
if no frame but its last sounds, and only then are all samples the weighted ones. However the
stream is cut the loudness is the same, and any other rate, channel count or window finds the
stage stale again. -/
theorem sudden_stream_measured (format : Format) (windowMs : ℝ) (rate : 0 < format.sampleRate) :
    (∀ calls, (initial.after calls).runningSum = (initial.after calls).ring.sum) ∧
    initial.Stale format windowMs ∧
    (∀ start : LoudnessStage ℝ, start.Stale format windowMs →
      ∀ call, Packet format windowMs call →
        start.process call.1 call.2 = initial.process call.1 call.2) ∧
    (∀ start calls last, Stale start format windowMs →
      (∀ call ∈ calls ++ [last], Packet format windowMs call) →
        let st := start.after (calls ++ [last])
        st.runningSum = st.ring.sum ∧
        st.ring.length = windowSamples format.sampleRate windowMs ∧
        (Sudden format (stream (calls ++ [last])) → start.HoldsWeighted format calls last) ∧
        start.loudnessOf calls last =
          some (min 1 (Real.sqrt (st.ring.sum / (st.ring.length * format.channels)))) ∧
        ∀ format' windowMs', 0 < format'.sampleRate →
          format'.sampleRate ≠ format.sampleRate ∨ format'.channels ≠ format.channels ∨
            0.5 ≤ |windowMs' - windowMs| →
          st.Stale format' windowMs' ∧ ∀ call, Packet format' windowMs' call →
            st.process call.1 call.2 = initial.process call.1 call.2) ∧
    (∀ start start' calls last calls' last', Stale start format windowMs →
      Stale start' format windowMs → (∀ call ∈ calls ++ [last], Packet format windowMs call) →
      (∀ call ∈ calls' ++ [last'], Packet format windowMs call) →
      stream (calls ++ [last]) = stream (calls' ++ [last']) →
        start.loudnessOf calls last = start'.loudnessOf calls' last') ∧
    (2 * 1681.9744 < (format.sampleRate : ℝ) → ∀ samples : List ℝ, Sudden format samples ↔
      ∀ i < samples.length / format.channels, ∀ c < format.channels,
        filteredAt (weightingShelf format.sampleRate) (weightingHighpass format.sampleRate)
            (fun i => sampleOf format.channels samples i c) i =
          weightedAt (weightingShelf format.sampleRate) (weightingHighpass format.sampleRate)
            (fun i => sampleOf format.channels samples i c) i) := by
  refine ⟨fun calls => (tame_after tame_initial calls).sum, fun same => rate.ne' same.1,
    fun start stale call packet => process_stale rate stale packet, ?_, ?_,
    fun usable samples => sudden_iff usable samples⟩
  · intro start calls last stale packets
    obtain ⟨size, shown⟩ := shown_packets rate stale packets
    have loudness := loudnessOf_packets rate stale packets
    rw [← size] at shown loudness
    refine ⟨(measured_packets rate stale packets).rolling.sum, size, ?_, loudness, ?_⟩
    · intro sudden
      rw [HoldsWeighted, shown, filteredEnergies_eq sudden]
    · intro format' windowMs' rate' news
      have anew := stale_packets rate stale packets news
      exact ⟨anew, fun call packet => process_stale rate' anew packet⟩
  · intro start start' calls last calls' last' stale stale' packets packets' same
    rw [loudnessOf_packets rate stale packets, loudnessOf_packets rate stale' packets',
      sum_packets rate stale packets, sum_packets rate stale' packets', same]

/-! ### An onset and an impulse -/

theorem window_at_48_kHz : windowSamples 48000 (400.0 : ℝ) = 19200 := by
  have product : (((48000 : ℕ) : ℝ) * 400.0 / 1000.0) = ((19200 : ℤ) : ℝ) := by norm_num
  rw [windowSamples, truncate, product, Int.floor_intCast]
  rfl

/-- A packet of 48 kHz stereo. -/
noncomputable def stereoPacket (samples : List ℝ) : Call :=
  (.ofChunk samples ⟨48000, 2, .stereo⟩ 0 0, Settings.defaults ℝ)

/-- Two silent frames and an onset, in one packet or in two. -/
theorem onset_measured :
    (initial.after [stereoPacket [0, 0, 0, 0], stereoPacket [0.5, -0.5]]).ring.length = 19200 ∧
      initial.HoldsWeighted ⟨48000, 2, .stereo⟩ [stereoPacket [0, 0, 0, 0]]
        (stereoPacket [0.5, -0.5]) ∧
      initial.loudnessOf [stereoPacket [0, 0, 0, 0]] (stereoPacket [0.5, -0.5]) =
        initial.loudnessOf [] (stereoPacket [0, 0, 0, 0, 0.5, -0.5]) := by
  have packet (samples : List ℝ) (some : samples ≠ []) (whole : 2 ∣ samples.length) :
      Packet ⟨48000, 2, .stereo⟩ 400.0 (stereoPacket samples) := ⟨rfl, rfl, some, whole⟩
  have quiet := packet [0, 0, 0, 0] (List.cons_ne_nil _ _) ⟨2, rfl⟩
  have onset := packet [0.5, -0.5] (List.cons_ne_nil _ _) ⟨1, rfl⟩
  have uncut := packet [0, 0, 0, 0, 0.5, -0.5] (List.cons_ne_nil _ _) ⟨3, rfl⟩
  have packets : ∀ call ∈ [stereoPacket [0, 0, 0, 0]] ++ [stereoPacket [0.5, -0.5]],
      Packet ⟨48000, 2, .stereo⟩ 400.0 call := by
    intro call listed
    rcases List.mem_pair.mp listed with rfl | rfl
    · exact quiet
    · exact onset
  have sudden : Sudden ⟨48000, 2, .stereo⟩ [0, 0, 0, 0, 0.5, -0.5] := by
    intro i early c channel
    change i + 1 < 3 at early
    change c < 2 at channel
    obtain rfl | rfl : i = 0 ∨ i = 1 := by omega
    all_goals obtain rfl | rfl : c = 0 ∨ c = 1 := by omega
    all_goals rfl
  obtain ⟨-, fresh, -, window, cuts, -⟩ :=
    sudden_stream_measured ⟨48000, 2, .stereo⟩ 400.0 (Nat.succ_pos _)
  obtain ⟨-, size, held, -, -⟩ := window initial [stereoPacket [0, 0, 0, 0]]
    (stereoPacket [0.5, -0.5]) fresh packets
  refine ⟨size.trans window_at_48_kHz, held sudden, ?_⟩
  refine cuts _ _ _ _ [] (stereoPacket [0, 0, 0, 0, 0.5, -0.5]) fresh fresh packets ?_ rfl
  intro call listed
  rw [List.mem_singleton.mp listed]
  exact uncut

/-- A unit impulse in mono. -/
noncomputable def impulse (i : ℕ) : ℝ := if i = 0 then 1 else 0

/-- What the stage answers behind an impulse, and how far it is from the two biquads' answer. -/
theorem impulse_answers (cs ch : Biquad ℝ) :
    filteredAt cs ch impulse 1 =
        ch.b0 * (cs.b1 - cs.a1 * cs.b0) + ch.b1 * cs.b0 - ch.a2 * (ch.b0 * cs.b0) ∧
      filteredAt cs ch impulse 1 - weightedAt cs ch impulse 1 =
        (ch.a1 - ch.a2) * (ch.b0 * cs.b0) := by
  have silent : ∀ j < 0, impulse j = 0 := fun j none => absurd none (Nat.not_lt_zero j)
  have begins : impulse 0 = 1 := if_pos rfl
  have ends : impulse 1 = 0 := if_neg one_ne_zero
  have none (signal : ℕ → ℝ) : delayed signal 2 1 = 0 := rfl
  have answer : cs.output impulse 0 = cs.b0 := by
    rw [(cs.output_first silent).2, begins, mul_one]
  have behind : cs.output impulse 1 = cs.b1 - cs.a1 * cs.b0 := by
    rw [cs.output_eq, none, none, delayed_one_succ, delayed_one_succ, answer, begins, ends]
    ring
  obtain ⟨-, first, leading⟩ := filteredAt_first cs ch silent
  have missing := filteredAt_second cs ch silent
  rw [begins, mul_one, zero_add] at missing
  refine ⟨?_, missing⟩
  rw [filteredAt_eq, none, delayed_one_succ, delayed_one_succ, answer, behind, first, leading,
    begins]
  ring

theorem impulse_energy_ne {sampleRate : ℕ} (usable : 4 * 1681.9744 < (sampleRate : ℝ)) :
    filteredAt (weightingShelf sampleRate) (weightingHighpass sampleRate) impulse 1 ^ 2 ≠
      weightedAt (weightingShelf sampleRate) (weightingHighpass sampleRate) impulse 1 ^ 2 := by
  have usable' : 2 * 1681.9744 < (sampleRate : ℝ) := by linarith
  have low : 4 * 38.13547 < (sampleRate : ℝ) := by linarith
  have raised : (0 : ℝ) ≤ 3.99984 := by norm_num
  obtain ⟨shelf, highpass, apart⟩ := weighting_coefficients usable'
  obtain ⟨-, jump, -, sum⟩ := highpass_coefficients (by norm_num) low
  obtain ⟨unit, small⟩ := amplitude_mem raised (by norm_num)
  have short := shelfOf_second_lt unit small (cos_low_corner (by norm_num) usable)
    (Real.cos_le_one _) (skirt_pos (q := 0.7071) (by norm_num) usable' (by norm_num) 3.99984)
  rw [← shelf_eq] at short
  change 2 * ((weightingShelf sampleRate).b1 -
    (weightingShelf sampleRate).a1 * (weightingShelf sampleRate).b0) <
      3 * (weightingShelf sampleRate).b0 at short
  change (weightingHighpass sampleRate).b1 = -2 * (weightingHighpass sampleRate).b0 at jump
  change -1 ≤ (weightingHighpass sampleRate).a1 + (weightingHighpass sampleRate).a2 at sum
  generalize weightingShelf sampleRate = cs at shelf short ⊢
  generalize weightingHighpass sampleRate = ch at highpass apart jump sum ⊢
  obtain ⟨second, missing⟩ := impulse_answers cs ch
  intro same
  rcases sq_eq_sq_iff_eq_or_eq_neg.mp same with equal | opposite
  · rw [equal, sub_self, eq_comm] at missing
    rcases mul_eq_zero.mp missing with flat | none
    · linarith
    · exact (mul_pos highpass shelf).ne' none
  · -- the sum of both would be 0, but the impulse outweighs what it leaves behind
    have outweighs : 2 * (cs.b1 - cs.a1 * cs.b0) - 4 * cs.b0 - (ch.a1 + ch.a2) * cs.b0 < 0 := by
      nlinarith
    have total : 2 * filteredAt cs ch impulse 1 - (ch.a1 - ch.a2) * (ch.b0 * cs.b0) =
        ch.b0 * (2 * (cs.b1 - cs.a1 * cs.b0) - 4 * cs.b0 - (ch.a1 + ch.a2) * cs.b0) := by
      rw [second, jump]
      ring
    have negative := mul_neg_of_pos_of_neg highpass outweighs
    rw [← total, ← missing, opposite] at negative
    linarith

/-- An impulse and a silent frame in mono at 48 kHz. -/
noncomputable def impulsePacket : Call :=
  (.ofChunk [1, 0] ⟨48000, 1, .mono⟩ 0 0, Settings.defaults ℝ)

/-- The window holds another energy behind the impulse. -/
theorem impulse_not_weighted :
    ¬ ∀ (start : LoudnessStage ℝ) (format : Format) (windowMs : ℝ) (calls : List Call)
      (last : Call), 0 < format.sampleRate → start.Stale format windowMs →
        (∀ call ∈ calls ++ [last], Packet format windowMs call) →
          start.HoldsWeighted format calls last := by
  intro claims
  have fresh : (initial : LoudnessStage ℝ).Stale ⟨48000, 1, .mono⟩ 400.0 := fun same =>
    absurd same.1 (Nat.succ_ne_zero _)
  have packets : ∀ call ∈ [] ++ [impulsePacket], Packet ⟨48000, 1, .mono⟩ 400.0 call := by
    intro call listed
    rw [List.mem_singleton.mp listed]
    exact ⟨rfl, rfl, List.cons_ne_nil _ _, ⟨2, rfl⟩⟩
  have rate : 0 < (⟨48000, 1, .mono⟩ : Format).sampleRate := Nat.succ_pos _
  have held := claims initial ⟨48000, 1, .mono⟩ 400.0 [] impulsePacket rate fresh packets
  obtain ⟨size, shown⟩ := shown_packets rate fresh packets
  have wide : 0 < windowSamples 48000 (400.0 : ℝ) := Nat.lt_of_lt_of_le (Nat.succ_pos 31)
    (le_max_left 32 _)
  have signal : (fun i => sampleOf 1 [1, 0] i 0) = impulse := by
    funext i
    match i with
    | 0 => rfl
    | 1 => rfl
    | i + 2 => rfl
  have energy (y : (ℕ → ℝ) → ℕ → ℝ) : ((List.range 1).map fun c =>
      y (fun i => sampleOf 1 [1, 0] i c) 1 * y (fun i => sampleOf 1 [1, 0] i c) 1).sum =
        y impulse 1 ^ 2 := by
    rw [List.range_one, List.map_singleton, List.sum_singleton, signal, sq]
  have frames : stream ([] ++ [impulsePacket]) = [1, 0] := rfl
  have filtered : filteredEnergies ⟨48000, 1, .mono⟩ [1, 0] =
      [filteredEnergyAt (weightingShelf 48000) (weightingHighpass 48000) 1 (sampleOf 1 [1, 0]) 0] ++
        [filteredEnergyAt (weightingShelf 48000) (weightingHighpass 48000) 1
          (sampleOf 1 [1, 0]) 1] := rfl
  have weighted : energies ⟨48000, 1, .mono⟩ [1, 0] =
      [energyAt (weightingShelf 48000) (weightingHighpass 48000) 1 (sampleOf 1 [1, 0]) 0] ++
        [energyAt (weightingShelf 48000) (weightingHighpass 48000) 1 (sampleOf 1 [1, 0]) 1] := rfl
  rw [HoldsWeighted, shown, size, frames, filtered, weighted, lastPadded_snoc wide,
    lastPadded_snoc wide] at held
  have last := List.singleton_inj.mp (List.append_inj_right' held rfl)
  rw [filteredEnergyAt, energy (filteredAt _ _), energyAt, energy (weightedAt _ _)] at last
  exact impulse_energy_ne (by norm_num) last

end Listeningway.Dsp.LoudnessStage
