/- Listeningway/Dsp/SpatialMirror
   source: src/audio/dsp/stages/volume_stage.h; src/audio/dsp/stages/pan_stage.h;
     src/audio/dsp/stages/directional_stage.h; src/audio/source/source_format.h
   digest: Left and right exchanged in the input come out exchanged, over whole runs. -/

import Listeningway.Dsp.ResetRuns
import Mathlib.Data.List.GetD
import Mathlib.Tactic.IntervalCases

/-!
The channels of a frame have a left-right mirror, the ring of the direction buckets has
one, and on the pan it is the sign. VolumeStage, PanStage and DirectionalStage commute
with it, whatever the settings.
-/

set_option autoImplicit false
set_option relaxedAutoImplicit false

namespace Listeningway.Dsp

open Listeningway.Config
open Listeningway.Lib.Clamp
open Listeningway.Source.SourceFormat

variable {K : Type}

/-! ### The mirror -/

/-- The other side of a channel: 5.1 and both 7.1 orderings have their pairs in the same
places. -/
def mirrorChannel (channels c : ℕ) : ℕ :=
  if channels = 2 then [1, 0].getD c c
  else if channels = 6 then [1, 0, 2, 3, 5, 4].getD c c
  else if channels = 8 then [1, 0, 2, 3, 5, 4, 7, 6].getD c c
  else c

/-- Mono, stereo, 5.1 or 7.1. -/
def SpeakerFormat (format : Format) : Prop :=
  format.channels = 1 ∨ format.channels = 2 ∨ format.channels = 6 ∨ format.channels = 8

/-- Exchanges left and right in every whole frame; a trailing partial frame stays. -/
def AnalysisFrame.mirror [Zero K] (f : AnalysisFrame K) : AnalysisFrame K :=
  { f with
    samples := (List.range f.samples.length).map fun j =>
      if j < f.frames * f.format.channels then
        f.sample (j / f.format.channels) (mirrorChannel f.format.channels (j % f.format.channels))
      else f.samples.getD j 0 }

/-- The user's pan offset points to the other side. -/
def mirrorSettings [Neg K] (cfg : Settings K) : Settings K :=
  { cfg with audio := { cfg.audio with panOffset := -cfg.audio.panOffset } }

/-- Bucket `(8 - i) mod 8` for bucket `i`. -/
def mirrorDirections (d : Fin 8 → K) (i : Fin 8) : K := d (-i)

example : ∀ i : Fin 8, ((-i : Fin 8) : ℕ) = (8 - i) % 8 := by decide

def PanStage.mirror [Neg K] (st : PanStage K) : PanStage K :=
  { st with smoothedPan := -st.smoothedPan }

def DirectionalStage.mirror (st : DirectionalStage K) : DirectionalStage K :=
  ⟨mirrorDirections st.prevDir8⟩

/-! ### Channels -/

theorem mirrorChannel_mirrorChannel (channels c : ℕ) :
    mirrorChannel channels (mirrorChannel channels c) = c := by
  unfold mirrorChannel
  split_ifs
  · rcases c with _ | _ | c <;> rfl
  · rcases c with _ | _ | _ | _ | _ | _ | c <;> rfl
  · rcases c with _ | _ | _ | _ | _ | _ | _ | _ | c <;> rfl
  · rfl

theorem mirrorChannel_lt {format : Format} (h : SpeakerFormat format) {c : ℕ}
    (hc : c < format.channels) : mirrorChannel format.channels c < format.channels := by
  rcases h with h | h | h | h <;> rw [h] at hc ⊢ <;> interval_cases c <;> decide

namespace AnalysisFrame

variable [Field K] (f : AnalysisFrame K)

@[simp] theorem mirror_format : f.mirror.format = f.format := rfl

@[simp] theorem mirror_length : f.mirror.samples.length = f.samples.length := by
  simp [mirror]

@[simp] theorem mirror_frames : f.mirror.frames = f.frames := by
  rw [frames, frames, mirror_length, mirror_format]

theorem mirror_samples_nil_iff : f.mirror.samples = [] ↔ f.samples = [] := by
  rw [← List.length_eq_zero_iff, ← List.length_eq_zero_iff, mirror_length]

theorem mirror_sample {i c : ℕ} (hi : i < f.frames) (hc : c < f.format.channels) :
    f.mirror.sample i c = f.sample i (mirrorChannel f.format.channels c) := by
  have whole : i * f.format.channels + c < f.frames * f.format.channels := by
    calc i * f.format.channels + c < (i + 1) * f.format.channels := by rw [add_one_mul]; omega
      _ ≤ f.frames * f.format.channels := Nat.mul_le_mul_right _ hi
  have inside : i * f.format.channels + c < f.samples.length :=
    whole.trans_le (Nat.div_mul_le_self _ _)
  have frame : (i * f.format.channels + c) / f.format.channels = i := by
    rw [mul_comm, Nat.mul_add_div (by omega), Nat.div_eq_of_lt hc, add_zero]
  have channel : (i * f.format.channels + c) % f.format.channels = c := by
    rw [mul_comm, Nat.mul_add_mod, Nat.mod_eq_of_lt hc]
  rw [sample, mirror_format, mirror]
  dsimp only
  rw [List.getD_eq_getElem _ _ (by simpa using inside), List.getElem_map, List.getElem_range,
    if_pos whole, frame, channel]

end AnalysisFrame

/-! ### VolumeStage -/

namespace VolumeStage

variable [Field K] [LinearOrder K] {f : AnalysisFrame K}

theorem meanAbs_mirror (h : SpeakerFormat f.format) : meanAbs f.mirror = meanAbs f := by
  have frame : ∀ i ∈ Finset.range f.frames,
      ∑ c ∈ Finset.range f.format.channels, |f.mirror.sample i c| =
        ∑ c ∈ Finset.range f.format.channels, |f.sample i c| := by
    intro i hi
    refine Finset.sum_nbij' (mirrorChannel f.format.channels) (mirrorChannel f.format.channels)
      ?_ ?_ (fun c _ => mirrorChannel_mirrorChannel _ c)
      (fun c _ => mirrorChannel_mirrorChannel _ c) ?_
    · intro c hc
      exact Finset.mem_range.mpr (mirrorChannel_lt h (Finset.mem_range.mp hc))
    · intro c hc
      exact Finset.mem_range.mpr (mirrorChannel_lt h (Finset.mem_range.mp hc))
    · intro c hc
      rw [f.mirror_sample (Finset.mem_range.mp hi) (Finset.mem_range.mp hc)]
  rw [meanAbs, meanAbs, f.mirror_length, f.mirror_frames, f.mirror_format,
    Finset.sum_congr rfl frame]

variable [Cmath K]

omit [LinearOrder K] in
theorem channelRms_mirror {c : ℕ} (hc : c < f.format.channels) :
    channelRms f.mirror c = channelRms f (mirrorChannel f.format.channels c) := by
  have squares : ∀ i ∈ Finset.range f.frames, f.mirror.sample i c * f.mirror.sample i c =
      f.sample i (mirrorChannel f.format.channels c) *
        f.sample i (mirrorChannel f.format.channels c) := by
    intro i hi
    rw [f.mirror_sample (Finset.mem_range.mp hi) hc]
  rw [channelRms, channelRms, f.mirror_frames, Finset.sum_congr rfl squares]

theorem process_mirror (h : SpeakerFormat f.format) (st : VolumeStage K) (cfg : Settings K) :
    (st.process f.mirror (mirrorSettings cfg)).1 = (st.process f cfg).1 ∧
      (2 ≤ f.format.channels →
        (st.process f.mirror (mirrorSettings cfg)).2.volumeLeft =
            (st.process f cfg).2.volumeRight ∧
          (st.process f.mirror (mirrorSettings cfg)).2.volumeRight =
            (st.process f cfg).2.volumeLeft) := by
  have data : (f.mirror.format.channels = 0 ∨ f.mirror.samples = []) ↔
      (f.format.channels = 0 ∨ f.samples = []) := or_congr Iff.rfl f.mirror_samples_nil_iff
  unfold process
  by_cases empty : f.format.channels = 0 ∨ f.samples = []
  · rw [if_pos (data.mpr empty), if_pos empty]
    exact ⟨rfl, fun _ => ⟨rfl, rfl⟩⟩
  rw [if_neg (mt data.mp empty), if_neg empty]
  by_cases short : f.frames = 0
  · rw [if_pos (f.mirror_frames.trans short), if_pos short]
    exact ⟨rfl, fun _ => ⟨rfl, rfl⟩⟩
  rw [if_neg (f.mirror_frames ▸ short), if_neg short, meanAbs_mirror h]
  refine ⟨rfl, fun two => ?_⟩
  have left : mirrorChannel f.format.channels 0 = 1 := by
    rcases h with h | h | h | h <;> rw [h] at two ⊢ <;> first | rfl | omega
  have right : mirrorChannel f.format.channels 1 = 0 := by
    rw [← left, mirrorChannel_mirrorChannel]
  have heard := channelRms_mirror (f := f) (c := 0) (by omega)
  have heard' := channelRms_mirror (f := f) (c := 1) (by omega)
  rw [left] at heard
  rw [right] at heard'
  dsimp only
  rw [f.mirror_format, if_pos two, if_pos two, heard, heard']
  exact ⟨rfl, rfl⟩

end VolumeStage

/-! ### DirectionalStage -/

namespace DirectionalStage

variable [Field K] [LinearOrder K]

/-- The levels `rms'` are those of the other side. -/
def OtherSide (channels : ℕ) (rms rms' : Fin 8 → K) : Prop :=
  ∀ c e : Fin 8, (c : ℕ) < channels → mirrorChannel channels c = e → rms' c = rms e

omit [Field K] [LinearOrder K] in
theorem mirrorDirections_vec (f fr r br b bl l fl : K) :
    mirrorDirections ![f, fr, r, br, b, bl, l, fl] = ![f, fl, l, bl, b, br, r, fr] := by
  funext i
  fin_cases i <;> rfl

theorem route_mirror {format : Format} (h : SpeakerFormat format) {rms rms' : Fin 8 → K}
    (other : OtherSide format.channels rms rms') :
    route format rms' = mirrorDirections (route format rms) := by
  rcases h with h | h | h | h <;> rw [h] at other
  · have front := other 0 0 (by decide) rfl
    rw [route, route, if_pos h, if_pos h, mirrorDirections_vec, front]
  · have left := other 0 1 (by decide) rfl
    have right := other 1 0 (by decide) rfl
    simp only [route, h, OfNat.ofNat_ne_one, if_false, true_or, if_true, mirrorDirections_vec,
      left, right, min_comm (rms 1)]
  · have left := other 0 1 (by decide) rfl
    have right := other 1 0 (by decide) rfl
    have center := other 2 2 (by decide) rfl
    have sideLeft := other 4 5 (by decide) rfl
    have sideRight := other 5 4 (by decide) rfl
    by_cases stereo : format.layout = .stereo
    · simp only [route, h, stereo, OfNat.ofNat_ne_one, if_false, or_true, if_true,
        mirrorDirections_vec, left, right, min_comm (rms 1)]
    · simp only [route, h, stereo, Nat.reduceEqDiff, OfNat.ofNat_ne_one, if_false, or_false,
        true_or, if_true, mirrorDirections_vec, left, right, center, sideLeft, sideRight]
  · have left := other 0 1 (by decide) rfl
    have right := other 1 0 (by decide) rfl
    have center := other 2 2 (by decide) rfl
    have fifth := other 4 5 (by decide) rfl
    have sixth := other 5 4 (by decide) rfl
    have seventh := other 6 7 (by decide) rfl
    have eighth := other 7 6 (by decide) rfl
    by_cases stereo : format.layout = .stereo
    · simp only [route, h, stereo, OfNat.ofNat_ne_one, if_false, or_true, if_true,
        mirrorDirections_vec, left, right, min_comm (rms 1)]
    · simp only [route, h, stereo, Nat.reduceEqDiff, OfNat.ofNat_ne_one, if_false, or_false,
        false_or, if_true, left, right, center, fifth, sixth, seventh, eighth]
      split_ifs <;> rw [mirrorDirections_vec]

omit [LinearOrder K] in
theorem neighbours_mirror (src : Fin 8 → K) :
    neighbours (mirrorDirections src) = mirrorDirections (neighbours src) := by
  funext i
  have before : -(i + 7) = -i + 1 := by revert i; decide
  have behind : -(i + 1) = -i + 7 := by revert i; decide
  rw [neighbours, mirrorDirections, mirrorDirections, before, behind, add_comm]
  rfl

theorem spread_mirror (amount : K) (src : Fin 8 → K) :
    spread amount (mirrorDirections src) = mirrorDirections (spread amount src) := by
  funext i
  rw [spread, neighbours_mirror]
  rfl

variable [Cmath K] {f : AnalysisFrame K}

omit [LinearOrder K] in
theorem rms_mirror (h : SpeakerFormat f.format) :
    OtherSide f.format.channels (rms f) (rms f.mirror) := by
  intro c e hc he
  have squares : ∀ i ∈ Finset.range f.frames, f.mirror.sample i c * f.mirror.sample i c =
      f.sample i e * f.sample i e := by
    intro i hi
    rw [f.mirror_sample (Finset.mem_range.mp hi) hc, he]
  have he' : (e : ℕ) < f.format.channels := he ▸ mirrorChannel_lt h hc
  rw [rms, rms, f.mirror_frames, f.mirror_format, if_pos hc, if_pos he',
    Finset.sum_congr rfl squares]

omit [LinearOrder K] [Cmath K] in
theorem noData_mirror_iff : NoData f.mirror ↔ NoData f := by
  rw [NoData, NoData, f.mirror_format, f.mirror_samples_nil_iff, f.mirror_frames]

theorem process_mirror (h : SpeakerFormat f.format) (st : DirectionalStage K) (cfg : Settings K) :
    (st.mirror.process f.mirror (mirrorSettings cfg)).1 = (st.process f cfg).1.mirror := by
  have levels : measured f.mirror (mirrorSettings cfg) = mirrorDirections (measured f cfg) := by
    rw [measured, f.mirror_format, route_mirror h (rms_mirror h), spread_mirror]
    rfl
  unfold process
  by_cases empty : NoData f
  · rw [if_pos (noData_mirror_iff.mpr empty), if_pos empty]
  · rw [if_neg (mt noData_mirror_iff.mp empty), if_neg empty, levels]
    rfl

end DirectionalStage

/-! ### PanStage -/

namespace PanStage

variable [Field K] [LinearOrder K] [IsStrictOrderedRing K]

theorem measured_swap (channels : ℕ) (l r : K) :
    measured channels r l = -measured channels l r := by
  have apart : (silence : K) < significant := by
    unfold silence significant
    norm_num
  unfold measured
  rw [add_comm r l, abs_sub_comm l r]
  by_cases loud : 2 ≤ channels ∧ 0.0001 < l + r
  · rw [if_pos loud, if_pos loud]
    by_cases balanced : |r - l| / (l + r) < deadzone
    · rw [if_pos balanced, if_pos balanced, neg_zero]
    rw [if_neg balanced, if_neg balanced]
    by_cases right : l < silence ∧ significant < r
    · have notLeft : ¬ (r < silence ∧ significant < l) :=
        fun left => lt_irrefl r (left.1.trans (apart.trans right.2))
      rw [if_neg notLeft, if_pos right, if_pos right]
    by_cases left : r < silence ∧ significant < l
    · rw [if_pos left, if_neg right, if_pos left, neg_neg]
    · have opposite : (l - r) / (l + r) = -((r - l) / (l + r)) := by rw [← neg_div, neg_sub]
      rw [if_neg left, if_neg right, if_neg right, if_neg left, opposite, clamp_neg (by norm_num)]
  · rw [if_neg loud, if_neg loud, neg_zero]

omit [IsStrictOrderedRing K] in
theorem measured_mono {channels : ℕ} (h : ¬ 2 ≤ channels) (l r : K) :
    measured channels l r = 0 := if_neg fun loud => h loud.1

theorem process_mirror {f g : AnalysisFrame K} (format : g.format = f.format)
    (sides : 2 ≤ f.format.channels →
      g.volumeLeft = f.volumeRight ∧ g.volumeRight = f.volumeLeft)
    (st : PanStage K) (cfg : Settings K) :
    (st.mirror.process g (mirrorSettings cfg)).1 = (st.process f cfg).1.mirror ∧
      ∃ pan, (st.process f cfg).2.audioPan = some pan ∧
        (st.mirror.process g (mirrorSettings cfg)).2.audioPan = some (-pan) := by
  have raw : measured g.format.channels (g.volumeLeft.getD 0) (g.volumeRight.getD 0) =
      -measured f.format.channels (f.volumeLeft.getD 0) (f.volumeRight.getD 0) := by
    rw [format]
    by_cases two : 2 ≤ f.format.channels
    · rw [(sides two).1, (sides two).2, measured_swap]
    · rw [measured_mono two, measured_mono two, neg_zero]
  have unit : (-1 : K) ≤ 1 := by norm_num
  have offset : clamp (mirrorSettings cfg).audio.panOffset (-1) 1 =
      -clamp cfg.audio.panOffset (-1) 1 := clamp_neg unit _
  have smoothing : (mirrorSettings cfg).audio.panSmoothing = cfg.audio.panSmoothing := rfl
  have blend (alpha x y : K) : (1 - alpha) * -x + alpha * -y = -((1 - alpha) * x + alpha * y) := by
    ring
  unfold process
  dsimp only
  rw [raw, offset, ← neg_add, clamp_neg unit, smoothing]
  by_cases smoothed : 0 < clamp cfg.audio.panSmoothing 0 1
  · rw [if_pos smoothed, if_pos smoothed]
    by_cases started : st.panInitialized = true
    · have started' : st.mirror.panInitialized = true := started
      rw [if_pos started, if_pos started', PanStage.mirror, blend]
      exact ⟨rfl, _, rfl, rfl⟩
    · have started' : ¬ st.mirror.panInitialized = true := started
      rw [if_neg started, if_neg started']
      exact ⟨rfl, _, rfl, rfl⟩
  · rw [if_neg smoothed, if_neg smoothed]
    exact ⟨rfl, _, rfl, rfl⟩

omit [IsStrictOrderedRing K] in
theorem process_congr {f g : AnalysisFrame K} (format : f.format = g.format)
    (left : f.volumeLeft = g.volumeLeft) (right : f.volumeRight = g.volumeRight)
    (st : PanStage K) (cfg : Settings K) :
    (st.process f cfg).1 = (st.process g cfg).1 ∧
      (st.process f cfg).2.audioPan = (st.process g cfg).2.audioPan := by
  unfold process
  dsimp only
  rw [format, left, right]
  split_ifs <;> exact ⟨rfl, rfl⟩

end PanStage

/-! ### The three stages together -/

/-- The states of the stages between the samples and the spatial outputs. -/
structure SpatialStages (K : Type) where
  volume : VolumeStage K
  pan : PanStage K
  directional : DirectionalStage K

namespace SpatialStages

def stages (s : SpatialStages K) : List (IDspStage K) :=
  [.volume s.volume, .pan s.pan, .directional s.directional]

def mirror [Neg K] (s : SpatialStages K) : SpatialStages K :=
  { s with pan := s.pan.mirror, directional := s.directional.mirror }

variable [Field K] [LinearOrder K]

def initial : SpatialStages K := ⟨VolumeStage.initial, PanStage.initial, DirectionalStage.initial⟩

def reset (s : SpatialStages K) : SpatialStages K :=
  ⟨s.volume.reset, s.pan.reset, s.directional.reset⟩

variable [Cmath K]

/-- One pass over the three. -/
def process (s : SpatialStages K) (frame : AnalysisFrame K) (cfg : Settings K) :
    SpatialStages K × AnalysisFrame K :=
  let volume := s.volume.process frame cfg
  let pan := s.pan.process volume.2 cfg
  let directional := s.directional.process pan.2 cfg
  (⟨volume.1, pan.1, directional.1⟩, directional.2)

end SpatialStages

/-- `g` shows what `f` shows, with left and right exchanged. -/
structure MirrorImage [Neg K] (f g : AnalysisFrame K) : Prop where
  pan : ∃ pan, f.audioPan = some pan ∧ g.audioPan = some (-pan)
  directions : ∃ d, f.direction8 = some d ∧ g.direction8 = some (mirrorDirections d)

namespace SpatialStages

variable [Field K] [LinearOrder K] [Cmath K] [FloorRing K] [KissFft K]

omit [LinearOrder K] [Cmath K] [FloorRing K] [KissFft K] in
theorem initial_mirror : (initial : SpatialStages K).mirror = initial := by
  have nothing : mirrorDirections (fun _ => (0 : K)) = fun _ => 0 := rfl
  simp [initial, mirror, PanStage.mirror, PanStage.initial, DirectionalStage.mirror,
    DirectionalStage.initial, nothing]

omit [LinearOrder K] [Cmath K] [FloorRing K] [KissFft K] in
theorem reset_mirror (s : SpatialStages K) : s.mirror.reset = s.reset.mirror := by
  simp [reset, mirror, PanStage.mirror, PanStage.reset, PanStage.initial, DirectionalStage.reset]

theorem process_eq (s : SpatialStages K) (frame : AnalysisFrame K) (cfg : Settings K) :
    (s.process frame cfg).1 = ⟨(s.volume.process frame cfg).1,
        (s.pan.process (s.volume.process frame cfg).2 cfg).1,
        (s.directional.process frame cfg).1⟩ ∧
      (s.process frame cfg).2.audioPan =
        (s.pan.process (s.volume.process frame cfg).2 cfg).2.audioPan ∧
      (s.process frame cfg).2.direction8 = (s.directional.process frame cfg).2.direction8 := by
  have volume : Touches VolumeStage.writes frame (s.volume.process frame cfg).2 :=
    (IDspStage.volume s.volume).touches frame cfg
  have pan : Touches PanStage.writes (s.volume.process frame cfg).2
      (s.pan.process (s.volume.process frame cfg).2 cfg).2 :=
    (IDspStage.pan s.pan).touches _ cfg
  have directional : Touches DirectionalStage.writes
      (s.pan.process (s.volume.process frame cfg).2 cfg).2 (s.process frame cfg).2 :=
    (IDspStage.directional s.directional).touches _ cfg
  have samples := (pan.get .samples (by decide)).trans (volume.get .samples (by decide))
  have format := (pan.get .format (by decide)).trans (volume.get .format (by decide))
  obtain ⟨state, out⟩ := DirectionalStage.process_congr samples format s.directional cfg
  refine ⟨?_, directional.get .audioPan (by decide), out⟩
  rw [process, state]

variable [IsStrictOrderedRing K]

theorem process_mirror {f : AnalysisFrame K} (h : SpeakerFormat f.format) (s : SpatialStages K)
    (cfg : Settings K) :
    (s.mirror.process f.mirror (mirrorSettings cfg)).1 = (s.process f cfg).1.mirror ∧
      MirrorImage (s.process f cfg).2 (s.mirror.process f.mirror (mirrorSettings cfg)).2 := by
  obtain ⟨volume, sides⟩ := VolumeStage.process_mirror h s.volume cfg
  have kept (frame : AnalysisFrame K) (cfg : Settings K) :
      (s.volume.process frame cfg).2.format = frame.format := by
    have volume : Touches VolumeStage.writes frame (s.volume.process frame cfg).2 :=
      (IDspStage.volume s.volume).touches frame cfg
    exact volume.get .format (by decide)
  have format : (s.volume.process f.mirror (mirrorSettings cfg)).2.format =
      (s.volume.process f cfg).2.format := by
    rw [kept, kept, f.mirror_format]
  obtain ⟨pan, value, shown, shown'⟩ :=
    PanStage.process_mirror format (by rw [kept]; exact sides) s.pan cfg
  have directional := DirectionalStage.process_mirror h s.directional cfg
  obtain ⟨state, panned, directed⟩ := s.process_eq f cfg
  obtain ⟨state', panned', directed'⟩ := s.mirror.process_eq f.mirror (mirrorSettings cfg)
  constructor
  · rw [state', state]
    exact congr (congr (congrArg SpatialStages.mk volume) pan) directional
  · refine ⟨⟨value, panned.trans shown, panned'.trans shown'⟩, _,
      directed.trans (DirectionalStage.process_direction8 _ _ _), ?_⟩
    rw [directed', DirectionalStage.process_direction8]
    exact congrArg (fun st => some (DirectionalStage.prevDir8 st)) directional

end SpatialStages

/-! ### Runs -/

/-- The three stages as a pipeline of their own. -/
def spatialPipeline [Field K] [LinearOrder K] : Pipeline K :=
  [.volume VolumeStage.initial, .pan PanStage.initial,
    .directional DirectionalStage.initial].foldl Pipeline.add Pipeline.empty

def ComposedStages.spatial (c : ComposedStages K) : SpatialStages K :=
  ⟨c.volume, c.pan, c.directional⟩

namespace ComposedStages

variable [Field K] [LinearOrder K] [FloorRing K] [Cmath K] [KissFft K]

theorem process_spatial (c : ComposedStages K) (frame : AnalysisFrame K) (cfg : Settings K) :
    (c.process frame cfg).1.spatial = (c.spatial.process frame cfg).1 ∧
      (c.process frame cfg).2.audioPan = (c.spatial.process frame cfg).2.audioPan ∧
      (c.process frame cfg).2.direction8 = (c.spatial.process frame cfg).2.direction8 := by
  have front {i : FieldId} (h : i ∉ ((writes.take 10).drop 1).flatten) :
      (Pipeline.runStages cfg (c.stages.take 10) frame).2.get i =
        (c.volume.process frame cfg).2.get i := by
    apply (Pipeline.runStages_touches cfg ((c.stages.take 10).drop 1) _).get
    rwa [List.flatMap_def, List.map_drop, List.map_take, stages_map_writes]
  obtain ⟨pan, panned⟩ := PanStage.process_congr (front (i := .format) (by decide))
    (front (i := .volumeLeft) (by decide)) (front (i := .volumeRight) (by decide)) c.pan cfg
  obtain ⟨directional, directed⟩ := c.process_directional frame cfg
  obtain ⟨state, shown, shown'⟩ := c.spatial.process_eq frame cfg
  refine ⟨?_, ?_, directed.trans shown'.symm⟩
  · rw [state]
    exact congr (congr rfl pan) directional
  · rw [shown]
    exact (c.process_get_take 11 frame cfg (i := .audioPan) (by decide)).trans panned

end ComposedStages

namespace Pipeline

/-- The pipeline runs the three stages, alone or among those of `compose_pipeline`. -/
def RunsSpatial (p : Pipeline K) (s : SpatialStages K) : Prop :=
  p.stages = s.stages ∨ ∃ c : ComposedStages K, p.stages = c.stages ∧ c.spatial = s

variable [Field K] [LinearOrder K]

omit [LinearOrder K] in
theorem RunsSpatial.reset {p : Pipeline K} {s : SpatialStages K} (h : p.RunsSpatial s) :
    p.reset.RunsSpatial s.reset := by
  rcases h with alone | ⟨c, among, rfl⟩
  · left
    rw [Pipeline.reset, alone]
    rfl
  · right
    refine ⟨c.reset, ?_, rfl⟩
    rw [Pipeline.reset, among]
    rfl

variable [FloorRing K] [Cmath K] [KissFft K]

theorem RunsSpatial.process {p : Pipeline K} {s : SpatialStages K} (h : p.RunsSpatial s)
    (frame : AnalysisFrame K) (cfg : Settings K) (clock : Clock) :
    (p.process frame cfg clock).1.RunsSpatial (s.process frame cfg).1 ∧
      (p.process frame cfg clock).2.audioPan = (s.process frame cfg).2.audioPan ∧
      (p.process frame cfg clock).2.direction8 = (s.process frame cfg).2.direction8 := by
  rcases h with alone | ⟨c, among, rfl⟩
  · rw [Pipeline.process, alone]
    exact ⟨.inl rfl, rfl, rfl⟩
  · obtain ⟨state, panned, directed⟩ := c.process_spatial frame cfg
    rw [Pipeline.process, among, ComposedStages.runStages_stages]
    exact ⟨.inr ⟨_, rfl, state⟩, panned, directed⟩

end Pipeline

namespace PipelineCall

variable [Zero K] [Neg K]

def mirror : PipelineCall K → PipelineCall K
  | process frame cfg clock => process frame.mirror (mirrorSettings cfg) clock
  | reset => reset

/-- The frame of the call, if any, is mono, stereo, 5.1 or 7.1. -/
def FromSpeakers : PipelineCall K → Prop
  | process frame _ _ => SpeakerFormat frame.format
  | reset => True

end PipelineCall

section Runs

variable [Field K] [LinearOrder K] [IsStrictOrderedRing K] [FloorRing K] [Cmath K] [KissFft K]

theorem outputs_mirror {p q : Pipeline K} {s : SpatialStages K} (hp : p.RunsSpatial s)
    (hq : q.RunsSpatial s.mirror) {calls : List (PipelineCall K)}
    (h : ∀ call ∈ calls, call.FromSpeakers) :
    List.Forall₂ MirrorImage (p.outputs calls) (q.outputs (calls.map .mirror)) := by
  induction calls generalizing p q s with
  | nil => exact .nil
  | cons call calls ih =>
    obtain ⟨now, later⟩ := List.forall_mem_cons.mp h
    cases call with
    | reset =>
      have blank : s.mirror.reset = s.reset.mirror := s.reset_mirror
      exact ih hp.reset (blank ▸ hq.reset) later
    | process frame cfg clock =>
      obtain ⟨state, panned, directed⟩ := hp.process frame cfg clock
      obtain ⟨state', panned', directed'⟩ := hq.process frame.mirror (mirrorSettings cfg) clock
      obtain ⟨next, pan, directions⟩ := s.process_mirror now cfg
      rw [next] at state'
      rw [← panned, ← panned'] at pan
      rw [← directed, ← directed'] at directions
      exact .cons ⟨pan, directions⟩ (ih state state' later)

/-- Whatever the settings and their changes, mirrored frames and settings give the mirrored
pan and directions, from the three stages alone and from the composed pipeline. -/
theorem spatial_outputs_mirror {calls : List (PipelineCall K)}
    (h : ∀ call ∈ calls, call.FromSpeakers) :
    List.Forall₂ MirrorImage ((spatialPipeline : Pipeline K).outputs calls)
        ((spatialPipeline : Pipeline K).outputs (calls.map .mirror)) ∧
      List.Forall₂ MirrorImage ((Pipeline.composePipeline : Pipeline K).outputs calls)
        ((Pipeline.composePipeline : Pipeline K).outputs (calls.map .mirror)) := by
  have alone : (spatialPipeline : Pipeline K).RunsSpatial .initial := .inl rfl
  have among : (Pipeline.composePipeline : Pipeline K).RunsSpatial .initial :=
    .inr ⟨.initial, ComposedStages.composePipeline_stages, rfl⟩
  have middle := SpatialStages.initial_mirror (K := K)
  exact ⟨outputs_mirror alone (middle.symm ▸ alone) h,
    outputs_mirror among (middle.symm ▸ among) h⟩

end Runs

/-- One 5.1 frame with sound on the left only, and a stereo frame on the right. -/
noncomputable def sidePasses : List (PipelineCall ℝ) :=
  [.process (AnalysisFrame.ofChunk [1, 0, 0, 0, 1, 0] ⟨48000, 6, .surround51⟩ 1 0)
      (Settings.defaults ℝ) ⟨0, fun _ => 0, fun _ => 0, 0⟩,
    .reset,
    .process (AnalysisFrame.ofChunk [0, 1] ⟨48000, 2, .stereo⟩ 2 1) (Settings.defaults ℝ)
      ⟨0, fun _ => 0, fun _ => 0, 0⟩]

theorem sidePasses_mirror :
    List.Forall₂ MirrorImage ((spatialPipeline : Pipeline ℝ).outputs sidePasses)
        ((spatialPipeline : Pipeline ℝ).outputs (sidePasses.map .mirror)) ∧
      List.Forall₂ MirrorImage ((Pipeline.composePipeline : Pipeline ℝ).outputs sidePasses)
        ((Pipeline.composePipeline : Pipeline ℝ).outputs (sidePasses.map .mirror)) := by
  refine spatial_outputs_mirror fun call hc => ?_
  simp only [sidePasses, List.mem_cons, List.not_mem_nil, or_false] at hc
  rcases hc with rfl | rfl | rfl
  · exact .inr (.inr (.inl rfl))
  · trivial
  · exact .inr (.inl rfl)

end Listeningway.Dsp
