/- Listeningway/Output/HistoryOrder
   source: src/output/uniform_publisher.cpp; src/audio/pipeline/audio_system.cpp;
     STABILITY.md
   digest: The history uniforms are in time order for constant histories only. -/

import Listeningway.Output.UniformPublisher
import Mathlib.Data.Rat.Floor

/-!
The DSP thread stores its heads after advancing them, so they name the oldest slot;
the publisher adds one to them, as if they named the newest.
-/

set_option autoImplicit false
set_option relaxedAutoImplicit false

namespace Listeningway.Output.HistoryOrder

open Listeningway.Dsp
open Listeningway.Lib
open Listeningway.Lib.HistoryRing
open Listeningway.Snapshot
open Listeningway.System.DspThread

variable {K : Type} [Field K]

/-- A frame as the pipeline leaves it, with the timings read after it. -/
abbrev Handled (K : Type) := AnalysisFrame K × Profile K

/-- The snapshot published for `newest` by a DSP thread that handled `earlier` before. -/
def published (earlier : List (Handled K)) (newest : Handled K) : AudioSnapshot K :=
  ((Histories.initial.pushAll (earlier.map fun p => project p.1 p.2)).record
    (project newest.1 newest.2)).2

/-- The volume of the frame `j` frames before the newest one; 0 when there was none. -/
def volumeAgo (frames : List (Handled K)) (j : ℕ) : K :=
  entry (frames.map fun p => p.1.volume.getD 0) 0 j

/-- Band `b` of the frame `j` frames before the newest one; 0 when there was none. -/
def bandAgo (frames : List (Handled K)) (b j : ℕ) : K :=
  entry (frames.map fun p => (srcBands p.1).getD b 0) 0 j

/-- The documented layout of the two history uniforms, oldest first. -/
structure InTimeOrder [LinearOrder K] [FloorRing K] (earlier : List (Handled K))
    (newest : Handled K) (startTime now : TimePoint) : Prop where
  volume : ∃ xs, publishUniforms (published earlier newest) startTime now
      Uniform.volumeHistory.source = some xs ∧
    ∀ j < kVolumeHistoryLength,
      xs[kVolumeHistoryLength - 1 - j]? = some (volumeAgo (earlier ++ [newest]) j)
  bands : ∃ xs, publishUniforms (published earlier newest) startTime now
      Uniform.freqBandsHistory.source = some xs ∧
    ∀ b < (published earlier newest).freqBandCount, ∀ f < kBandsHistoryFrames,
      xs[b * kBandsHistoryFrames + f]? =
        some (bandAgo (earlier ++ [newest]) b (kBandsHistoryFrames - 1 - f))

section Published

variable (earlier : List (Handled K)) (newest : Handled K)

private theorem published_volume_ring {i : ℕ} (hi : i < kVolumeHistoryLength) :
    histLinear (published earlier newest) i =
      volumeAgo (earlier ++ [newest])
        ((kVolumeHistoryLength - 1 + (kVolumeHistoryLength - 1 - i)) % kVolumeHistoryLength) := by
  have ring : ((Histories.initial.pushAll (earlier.map fun p => project p.1 p.2)).push
      (project newest.1 newest.2)).volume =
        (filled 0).pushAll ((earlier ++ [newest]).map fun p => p.1.volume.getD 0) := by
    rw [← Histories.pushAll_snoc, Histories.pushAll_volume, List.map_append, List.map_append,
      List.map_map]
    rfl
  have shown := slots_past_head
    ((Histories.initial.pushAll (earlier.map fun p => project p.1 p.2)).push
      (project newest.1 newest.2)).volume hi
  rw [ring, ago_pushAll 0 _ (Nat.mod_lt _ (Nat.pos_of_neZero _))] at shown
  rw [volumeAgo, ← shown, ← ring]
  rfl

private theorem published_band_ring {b f : ℕ} (hb : b < (published earlier newest).freqBandCount)
    (hf : f < kBandsHistoryFrames) :
    bandsHistLinear (published earlier newest) b f =
      bandAgo (earlier ++ [newest]) b
        ((kBandsHistoryFrames - 1 + (kBandsHistoryFrames - 1 - f)) % kBandsHistoryFrames) := by
  have capped : (published earlier newest).freqBandCount ≤ kMaxBands := Nat.min_le_right _ _
  have inside : b < kMaxBands := Nat.lt_of_lt_of_le hb capped
  have native : b < nativeBands (published earlier newest) := by
    rw [nativeBands, Nat.min_eq_left capped]
    exact hb
  have ring : ((Histories.initial.pushAll (earlier.map fun p => project p.1 p.2)).push
      (project newest.1 newest.2)).bands =
        (filled fun _ => 0).pushAll ((earlier ++ [newest]).map fun p => cap (srcBands p.1)) := by
    rw [← Histories.pushAll_snoc, Histories.pushAll_bands, List.map_append, List.map_append,
      List.map_map]
    rfl
  have shown := slots_past_head
    ((Histories.initial.pushAll (earlier.map fun p => project p.1 p.2)).push
      (project newest.1 newest.2)).bands hf
  rw [ring, ago_pushAll _ _ (Nat.mod_lt _ (Nat.pos_of_neZero _))] at shown
  have column := entry_map (fun row : Fin kMaxBands → K => row ⟨b, inside⟩)
    ((earlier ++ [newest]).map fun p => cap (srcBands p.1)) (fun _ => 0)
    ((kBandsHistoryFrames - 1 + (kBandsHistoryFrames - 1 - f)) % kBandsHistoryFrames)
  rw [List.map_map, ← shown, ← ring] at column
  rw [bandsHistLinear, dif_pos ⟨inside, native⟩, bandAgo]
  exact column.symm

variable [LinearOrder K] [FloorRing K]

private theorem volume_in_order_iff (t : K) :
    (∀ j < kVolumeHistoryLength,
      (write (published earlier newest) t .volumeHistory)[kVolumeHistoryLength - 1 - j]? =
        some (volumeAgo (earlier ++ [newest]) j)) ↔
      ∀ j < kVolumeHistoryLength,
        volumeAgo (earlier ++ [newest]) j = volumeAgo (earlier ++ [newest]) 0 := by
  rw [← rotated_iff_constant]
  refine forall₂_congr fun j hj => ?_
  have inside : kVolumeHistoryLength - 1 - j < kVolumeHistoryLength := by omega
  have back : kVolumeHistoryLength - 1 - (kVolumeHistoryLength - 1 - j) = j := by omega
  rw [write, List.getElem?_map, List.getElem?_range inside, Option.map_some,
    published_volume_ring earlier newest inside, back, Option.some_inj]

private theorem written_band (t : K) {b f : ℕ}
    (hb : b < (published earlier newest).freqBandCount) (hf : f < kBandsHistoryFrames) :
    (write (published earlier newest) t .freqBandsHistory)[b * kBandsHistoryFrames + f]? =
      some (bandAgo (earlier ++ [newest]) b
        ((kBandsHistoryFrames - 1 + (kBandsHistoryFrames - 1 - f)) % kBandsHistoryFrames)) := by
  have native : nativeBands (published earlier newest) =
      (published earlier newest).freqBandCount := Nat.min_eq_left (Nat.min_le_right _ _)
  have inside : b * kBandsHistoryFrames + f <
      nativeBands (published earlier newest) * kBandsHistoryFrames := by
    rw [native]
    calc b * kBandsHistoryFrames + f
        < b * kBandsHistoryFrames + kBandsHistoryFrames := Nat.add_lt_add_left hf _
      _ = (b + 1) * kBandsHistoryFrames := (Nat.succ_mul _ _).symm
      _ ≤ _ := Nat.mul_le_mul_right _ hb
  have band : (b * kBandsHistoryFrames + f) / kBandsHistoryFrames = b := by
    rw [Nat.mul_comm, Nat.mul_add_div (Nat.pos_of_neZero _), Nat.div_eq_of_lt hf, Nat.add_zero]
  have frame : (b * kBandsHistoryFrames + f) % kBandsHistoryFrames = f := by
    rw [Nat.mul_comm, Nat.mul_add_mod, Nat.mod_eq_of_lt hf]
  rw [write, List.getElem?_map, List.getElem?_range inside, Option.map_some, band, frame,
    published_band_ring earlier newest hb hf]

private theorem bands_in_order_iff (t : K) {b : ℕ}
    (hb : b < (published earlier newest).freqBandCount) :
    (∀ f < kBandsHistoryFrames,
      (write (published earlier newest) t .freqBandsHistory)[b * kBandsHistoryFrames + f]? =
        some (bandAgo (earlier ++ [newest]) b (kBandsHistoryFrames - 1 - f))) ↔
      ∀ j < kBandsHistoryFrames,
        bandAgo (earlier ++ [newest]) b j = bandAgo (earlier ++ [newest]) b 0 := by
  rw [← rotated_iff_constant]
  constructor
  · intro h j hj
    have back : kBandsHistoryFrames - 1 - (kBandsHistoryFrames - 1 - j) = j := by omega
    have hf : kBandsHistoryFrames - 1 - j < kBandsHistoryFrames := by omega
    have shown := h _ hf
    rw [written_band earlier newest t hb hf, back, Option.some_inj] at shown
    exact shown
  · intro h f hf
    have hj : kBandsHistoryFrames - 1 - f < kBandsHistoryFrames := by omega
    rw [written_band earlier newest t hb hf, Option.some_inj]
    exact h _ hj

end Published

/-- What the publisher shows is in time order exactly when nothing in the window changes:
the last 64 volumes are equal, and so are the last 32 values of every published band, with
zeros before the first frame. -/
theorem histories_in_time_order_iff [LinearOrder K] [FloorRing K] (earlier : List (Handled K))
    (newest : Handled K) (startTime now : TimePoint) :
    InTimeOrder earlier newest startTime now ↔
      (∀ j < kVolumeHistoryLength,
        volumeAgo (earlier ++ [newest]) j = volumeAgo (earlier ++ [newest]) 0) ∧
      ∀ b < (published earlier newest).freqBandCount, ∀ j < kBandsHistoryFrames,
        bandAgo (earlier ++ [newest]) b j = bandAgo (earlier ++ [newest]) b 0 := by
  have written := publishUniforms_source (published earlier newest) startTime now
  constructor
  · intro h
    obtain ⟨xs, hx, hv⟩ := h.volume
    obtain ⟨ys, hy, hb⟩ := h.bands
    obtain rfl := Option.some.inj ((written _).symm.trans hx)
    obtain rfl := Option.some.inj ((written _).symm.trans hy)
    refine ⟨(volume_in_order_iff earlier newest _).mp hv, fun b lt => ?_⟩
    exact (bands_in_order_iff earlier newest _ lt).mp (hb b lt)
  · rintro ⟨hv, hb⟩
    constructor
    · exact ⟨_, written _, (volume_in_order_iff earlier newest _).mpr hv⟩
    · exact ⟨_, written _, fun b lt => (bands_in_order_iff earlier newest _ lt).mpr (hb b lt)⟩

/-- One frame of volume 1. -/
def loudFrame : Handled ℚ :=
  ({ AnalysisFrame.ofChunk [] ⟨48000, 2, .stereo⟩ 1 0 with volume := some 1 },
    ⟨fun _ => ⟨"", 0⟩, 0, 0⟩)

/-- The newest volume is expected last, and stands one place before. -/
theorem history_rotated_by_one :
    ¬ ∀ (earlier : List (Handled ℚ)) (newest : Handled ℚ) (startTime now : TimePoint),
      InTimeOrder earlier newest startTime now := by
  intro always
  obtain ⟨xs, hx, ordered⟩ := (always [] loudFrame 0 0).volume
  obtain rfl := Option.some.inj ((publishUniforms_source _ _ _ _).symm.trans hx)
  have last := ordered 0 (by decide)
  have stored : histLinear (published [] loudFrame) 63 = 0 := rfl
  have newest : volumeAgo ([] ++ [loudFrame]) 0 = 1 := rfl
  rw [newest] at last
  have shown : (write (published [] loudFrame) (seconds 0 0) .volumeHistory)[63]? =
      some (histLinear (published [] loudFrame) 63) := by
    rw [write, List.getElem?_map, List.getElem?_range (by decide), Option.map_some]
  rw [stored] at shown
  exact zero_ne_one (Option.some.inj (shown.symm.trans last))

end Listeningway.Output.HistoryOrder
