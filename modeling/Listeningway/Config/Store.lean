/- Listeningway/Config/Store
   source: src/config/store.cpp; src/config/store.h
   digest: The clamped settings with their version counter. -/

import Listeningway.Config.Settings
import Listeningway.Lib.Clamp
import Mathlib.Algebra.Order.Field.Basic
import Mathlib.Tactic.Linarith
import Mathlib.Tactic.NormNum

set_option autoImplicit false
set_option relaxedAutoImplicit false

namespace Listeningway.Config

open Listeningway.Lib.Clamp

variable {K S : Type} [Field K] [LinearOrder K]

namespace AudioConfig

def clampInPlace (a : AudioConfig K S) : AudioConfig K S :=
  { a with
    panSmoothing := clamp a.panSmoothing 0 1
    panOffset := clamp a.panOffset (-1) 1 }

end AudioConfig

namespace BeatConfig

def clampInPlace (b : BeatConfig K) : BeatConfig K :=
  { b with pulseStrength := clamp b.pulseStrength 0 3.0 }

end BeatConfig

namespace FrequencyConfig

/-- The two directional tunables are left as they are. -/
def clampInPlace (f : FrequencyConfig K) : FrequencyConfig K :=
  let minFreq := clamp f.minFreq 10.0 500.0
  let maxFreq := clamp f.maxFreq 2000.0 22050.0
  { f with
    bandCount := clamp f.bandCount 8 128
    fftSize := clamp f.fftSize 128 16384
    logStrength := clamp f.logStrength 0.01 1.5
    bandNorm := clamp f.bandNorm 0.001 1
    minFreq := minFreq
    maxFreq := if maxFreq ≤ minFreq then minFreq + 1000.0 else maxFreq
    equalizerBands := fun i => clamp (f.equalizerBands i) 0 4.0
    equalizerWidth := clamp f.equalizerWidth 0.05 0.5
    amplifierVolume := clamp f.amplifierVolume 1 11.0
    amplifierBands := clamp f.amplifierBands 1 11.0
    amplifierDirection := clamp f.amplifierDirection 1 11.0 }

end FrequencyConfig

namespace AgcConfig

def clampInPlace (a : AgcConfig K) : AgcConfig K where
  windowSeconds := clamp a.windowSeconds 0.5 30.0
  clampMax := clamp a.clampMax 1.5 8.0
  attAttackMs := clamp a.attAttackMs 1 1000.0
  attReleaseMs := clamp a.attReleaseMs 1 5000.0

end AgcConfig

namespace ChronotensityConfig

def clampInPlace (c : ChronotensityConfig K) : ChronotensityConfig K where
  gainVolume := clamp c.gainVolume 0 5.0
  gainBass := clamp c.gainBass 0 5.0
  gainTreble := clamp c.gainTreble 0 5.0

end ChronotensityConfig

namespace LoudnessConfig

def clampInPlace (l : LoudnessConfig K) : LoudnessConfig K where
  windowMs := clamp l.windowMs 50.0 3000.0

end LoudnessConfig

namespace Settings

/-- `Store::clamp_in_place`; schema version, debug, network and ui pass through. -/
def clampInPlace (s : Settings K S) : Settings K S :=
  { s with
    audio := s.audio.clampInPlace
    beat := s.beat.clampInPlace
    frequency := s.frequency.clampInPlace
    agc := s.agc.clampInPlace
    chronotensity := s.chronotensity.clampInPlace
    loudness := s.loudness.clampInPlace }

end Settings

/-! ### The ranges after clamping -/

structure FrequencyConfig.InRange (f : FrequencyConfig K) : Prop where
  bandCount : 8 ≤ f.bandCount ∧ f.bandCount ≤ 128
  fftSize : 128 ≤ f.fftSize ∧ f.fftSize ≤ 16384
  logStrength : 0.01 ≤ f.logStrength ∧ f.logStrength ≤ 1.5
  bandNorm : 0.001 ≤ f.bandNorm ∧ f.bandNorm ≤ 1
  minFreq : 10.0 ≤ f.minFreq ∧ f.minFreq ≤ 500.0
  maxFreq : 2000.0 ≤ f.maxFreq ∧ f.maxFreq ≤ 22050.0
  equalizerBands : ∀ i, 0 ≤ f.equalizerBands i ∧ f.equalizerBands i ≤ 4.0
  equalizerWidth : 0.05 ≤ f.equalizerWidth ∧ f.equalizerWidth ≤ 0.5
  amplifierVolume : 1 ≤ f.amplifierVolume ∧ f.amplifierVolume ≤ 11.0
  amplifierBands : 1 ≤ f.amplifierBands ∧ f.amplifierBands ≤ 11.0
  amplifierDirection : 1 ≤ f.amplifierDirection ∧ f.amplifierDirection ≤ 11.0

structure AgcConfig.InRange (a : AgcConfig K) : Prop where
  windowSeconds : 0.5 ≤ a.windowSeconds ∧ a.windowSeconds ≤ 30.0
  clampMax : 1.5 ≤ a.clampMax ∧ a.clampMax ≤ 8.0
  attAttackMs : 1 ≤ a.attAttackMs ∧ a.attAttackMs ≤ 1000.0
  attReleaseMs : 1 ≤ a.attReleaseMs ∧ a.attReleaseMs ≤ 5000.0

structure ChronotensityConfig.InRange (c : ChronotensityConfig K) : Prop where
  gainVolume : 0 ≤ c.gainVolume ∧ c.gainVolume ≤ 5.0
  gainBass : 0 ≤ c.gainBass ∧ c.gainBass ≤ 5.0
  gainTreble : 0 ≤ c.gainTreble ∧ c.gainTreble ≤ 5.0

/-- Every bound that `clamp_in_place` enforces. -/
structure Settings.InRange (s : Settings K S) : Prop where
  panSmoothing : 0 ≤ s.audio.panSmoothing ∧ s.audio.panSmoothing ≤ 1
  panOffset : -1 ≤ s.audio.panOffset ∧ s.audio.panOffset ≤ 1
  pulseStrength : 0 ≤ s.beat.pulseStrength ∧ s.beat.pulseStrength ≤ 3.0
  frequency : s.frequency.InRange
  agc : s.agc.InRange
  chronotensity : s.chronotensity.InRange
  windowMs : 50.0 ≤ s.loudness.windowMs ∧ s.loudness.windowMs ≤ 3000.0

section Ranges

variable [IsStrictOrderedRing K]

/-- The repair of crossed limits never runs: the two clamped ranges are apart. -/
theorem limits_apart (f : FrequencyConfig K) :
    ¬ clamp f.maxFreq 2000.0 22050.0 ≤ clamp f.minFreq 10.0 500.0 := by
  have lower : (2000.0 : K) ≤ clamp f.maxFreq 2000.0 22050.0 := le_clamp _ (by norm_num)
  have upper : clamp f.minFreq 10.0 500.0 ≤ (500.0 : K) := clamp_le _ (by norm_num)
  intro crossed
  linarith

theorem FrequencyConfig.inRange_clampInPlace (f : FrequencyConfig K) :
    f.clampInPlace.InRange where
  bandCount := ⟨le_clamp _ (by norm_num), clamp_le _ (by norm_num)⟩
  fftSize := ⟨le_clamp _ (by norm_num), clamp_le _ (by norm_num)⟩
  logStrength := clamp_mem (by norm_num)
  bandNorm := clamp_mem (by norm_num)
  minFreq := clamp_mem (by norm_num)
  maxFreq := by
    rw [FrequencyConfig.clampInPlace]
    simp only [if_neg (limits_apart f)]
    exact clamp_mem (by norm_num)
  equalizerBands i := clamp_mem (by norm_num)
  equalizerWidth := clamp_mem (by norm_num)
  amplifierVolume := clamp_mem (by norm_num)
  amplifierBands := clamp_mem (by norm_num)
  amplifierDirection := clamp_mem (by norm_num)

theorem AgcConfig.inRange_clampInPlace (a : AgcConfig K) : a.clampInPlace.InRange where
  windowSeconds := clamp_mem (by norm_num)
  clampMax := clamp_mem (by norm_num)
  attAttackMs := clamp_mem (by norm_num)
  attReleaseMs := clamp_mem (by norm_num)

theorem ChronotensityConfig.inRange_clampInPlace (c : ChronotensityConfig K) :
    c.clampInPlace.InRange where
  gainVolume := clamp_mem (by norm_num)
  gainBass := clamp_mem (by norm_num)
  gainTreble := clamp_mem (by norm_num)

theorem Settings.inRange_clampInPlace (s : Settings K S) : s.clampInPlace.InRange where
  panSmoothing := clamp_mem (by norm_num)
  panOffset := clamp_mem (by norm_num)
  pulseStrength := clamp_mem (by norm_num)
  frequency := s.frequency.inRange_clampInPlace
  agc := s.agc.inRange_clampInPlace
  chronotensity := s.chronotensity.inRange_clampInPlace
  windowMs := clamp_mem (by norm_num)

theorem FrequencyConfig.clampInPlace_of_inRange {f : FrequencyConfig K} (h : f.InRange) :
    f.clampInPlace = f := by
  have apart := limits_apart f
  rw [clamp_of_mem h.maxFreq.1 h.maxFreq.2, clamp_of_mem h.minFreq.1 h.minFreq.2] at apart
  have knobs : (fun i => clamp (f.equalizerBands i) 0 4.0) = f.equalizerBands :=
    funext fun i => clamp_of_mem (h.equalizerBands i).1 (h.equalizerBands i).2
  obtain ⟨hbc, hfs, hls, hbn, hmin, hmax, -, hw, hv, hb, hd⟩ := h
  simp only [FrequencyConfig.clampInPlace, knobs, clamp_of_mem hbc.1 hbc.2,
    clamp_of_mem hfs.1 hfs.2, clamp_of_mem hls.1 hls.2, clamp_of_mem hbn.1 hbn.2,
    clamp_of_mem hmin.1 hmin.2, clamp_of_mem hmax.1 hmax.2, clamp_of_mem hw.1 hw.2,
    clamp_of_mem hv.1 hv.2, clamp_of_mem hb.1 hb.2, clamp_of_mem hd.1 hd.2, if_neg apart]

theorem Settings.clampInPlace_of_inRange {s : Settings K S} (h : s.InRange) :
    s.clampInPlace = s := by
  obtain ⟨hps, hpo, hpu, hf, ⟨hws, hcm, hat, hre⟩, ⟨hgv, hgb, hgt⟩, hwm⟩ := h
  have audio : s.audio.clampInPlace = s.audio := by
    rw [AudioConfig.clampInPlace, clamp_of_mem hps.1 hps.2, clamp_of_mem hpo.1 hpo.2]
  have beat : s.beat.clampInPlace = s.beat := by
    rw [BeatConfig.clampInPlace, clamp_of_mem hpu.1 hpu.2]
  have agc : s.agc.clampInPlace = s.agc := by
    rw [AgcConfig.clampInPlace, clamp_of_mem hws.1 hws.2, clamp_of_mem hcm.1 hcm.2,
      clamp_of_mem hat.1 hat.2, clamp_of_mem hre.1 hre.2]
  have chronotensity : s.chronotensity.clampInPlace = s.chronotensity := by
    rw [ChronotensityConfig.clampInPlace, clamp_of_mem hgv.1 hgv.2, clamp_of_mem hgb.1 hgb.2,
      clamp_of_mem hgt.1 hgt.2]
  have loudness : s.loudness.clampInPlace = s.loudness := by
    rw [LoudnessConfig.clampInPlace, clamp_of_mem hwm.1 hwm.2]
  rw [Settings.clampInPlace, audio, beat, FrequencyConfig.clampInPlace_of_inRange hf, agc,
    chronotensity, loudness]

@[simp] theorem Settings.clampInPlace_clampInPlace (s : Settings K S) :
    s.clampInPlace.clampInPlace = s.clampInPlace :=
  Settings.clampInPlace_of_inRange s.inRange_clampInPlace

end Ranges

/-! ### The store -/

/-- The settings under `mutex_` with the 64-bit `version_`; what is stored has been
clamped. -/
structure Store (K : Type) [Field K] [LinearOrder K] (S : Type := String) where
  settings : Settings K S
  version : ℕ
  clamped : settings.clampInPlace = settings
  fits : version < 2 ^ 64

namespace Store

variable [IsStrictOrderedRing K]

/-- The two atomic halves of `publish`. -/
def replace (st : Store K S) (s : Settings K S) : Store K S where
  settings := s.clampInPlace
  version := st.version
  clamped := s.clampInPlace_clampInPlace
  fits := st.fits

def bump (st : Store K S) : Store K S :=
  { st with
    version := (st.version + 1) % 2 ^ 64
    fits := Nat.mod_lt _ (by norm_num) }

def publish (st : Store K S) (s : Settings K S) : Store K S := (st.replace s).bump

def snapshot (st : Store K S) : Settings K S := st.settings

def mutate (st : Store K S) (fn : Settings K S → Settings K S) : Store K S :=
  st.publish (fn st.snapshot)

theorem first_version_fits : 1 < 2 ^ 64 := by norm_num

/-- `Store(path)` before any load. -/
def initial : Store K where
  settings := (Settings.defaults K).clampInPlace
  version := 1
  clamped := Settings.clampInPlace_clampInPlace _
  fits := first_version_fits

theorem settings_inRange (st : Store K S) : st.settings.InRange := by
  rw [← st.clamped]
  exact st.settings.inRange_clampInPlace

@[simp] theorem publish_settings (st : Store K S) (s : Settings K S) :
    (st.publish s).settings = s.clampInPlace := rfl

end Store

end Listeningway.Config
