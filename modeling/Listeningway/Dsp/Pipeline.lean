/- Listeningway/Dsp/Pipeline
   source: src/audio/dsp/pipeline.cpp; src/audio/dsp/i_dsp_stage.h; src/app.cpp
   digest: The stages behind their interface, composed, run in order, timed and reset. -/

import Listeningway.Dsp.Stages.BeatStage
import Listeningway.Dsp.Stages.LevelStages
import Listeningway.Dsp.Stages.LoudnessStage
import Listeningway.Dsp.Stages.SpatialStages
import Listeningway.Dsp.Stages.SpectrumStages
import Listeningway.Snapshot.AudioSnapshot

set_option autoImplicit false
set_option relaxedAutoImplicit false

namespace Listeningway.Dsp

open Listeningway.Config
open Listeningway.Snapshot

/-- A stage object with its state; the repository has no other stages. -/
inductive IDspStage (K : Type) where
  | volume (st : VolumeStage K)
  | fft (st : FftStage K)
  | bands (st : BandsStage K)
  | logBoost
  | equalizer
  | bandNorm (st : BandNormStage K)
  | spectralCentroid
  | flux (st : FluxStage K)
  | beat (st : BeatStage K)
  | chronotensity (st : ChronotensityStage K)
  | pan (st : PanStage K)
  | directional (st : DirectionalStage K)
  | loudness (st : LoudnessStage K)

namespace IDspStage

variable {K : Type}

def name : IDspStage K → String
  | volume _ => "volume"
  | fft _ => "fft"
  | bands _ => "bands"
  | logBoost => "log_boost"
  | equalizer => "equalizer"
  | bandNorm _ => "band_norm"
  | spectralCentroid => "spectral_centroid"
  | flux _ => "flux"
  | beat _ => "beat"
  | chronotensity _ => "chronotensity"
  | pan _ => "pan"
  | directional _ => "directional"
  | loudness _ => "loudness"

def reads : IDspStage K → List FieldId
  | volume _ => VolumeStage.reads
  | fft _ => FftStage.reads
  | bands _ => BandsStage.reads
  | logBoost => LogBoostStage.reads
  | equalizer => EqualizerStage.reads
  | bandNorm _ => BandNormStage.reads
  | spectralCentroid => SpectralCentroidStage.reads
  | flux _ => FluxStage.reads
  | beat _ => BeatStage.reads
  | chronotensity _ => ChronotensityStage.reads
  | pan _ => PanStage.reads
  | directional _ => DirectionalStage.reads
  | loudness _ => LoudnessStage.reads

def writes : IDspStage K → List FieldId
  | volume _ => VolumeStage.writes
  | fft _ => FftStage.writes
  | bands _ => BandsStage.writes
  | logBoost => LogBoostStage.writes
  | equalizer => EqualizerStage.writes
  | bandNorm _ => BandNormStage.writes
  | spectralCentroid => SpectralCentroidStage.writes
  | flux _ => FluxStage.writes
  | beat _ => BeatStage.writes
  | chronotensity _ => ChronotensityStage.writes
  | pan _ => PanStage.writes
  | directional _ => DirectionalStage.writes
  | loudness _ => LoudnessStage.writes

variable [Field K] [LinearOrder K]

/-- Stages that do not override `reset` stay as they are. -/
def reset : IDspStage K → IDspStage K
  | volume st => volume st.reset
  | fft st => fft st.reset
  | bands st => bands st.reset
  | logBoost => logBoost
  | equalizer => equalizer
  | bandNorm st => bandNorm st.reset
  | spectralCentroid => spectralCentroid
  | flux st => flux st.reset
  | beat st => beat st.reset
  | chronotensity st => chronotensity st.reset
  | pan st => pan st.reset
  | directional st => directional st.reset
  | loudness st => loudness st.reset

variable [FloorRing K] [Cmath K] [KissFft K]

def process (stage : IDspStage K) (frame : AnalysisFrame K) (cfg : Settings K) :
    IDspStage K × AnalysisFrame K :=
  match stage with
  | volume st => let out := st.process frame cfg; (volume out.1, out.2)
  | fft st => let out := st.process frame cfg; (fft out.1, out.2)
  | bands st => let out := st.process frame cfg; (bands out.1, out.2)
  | logBoost => (logBoost, LogBoostStage.process frame cfg)
  | equalizer => (equalizer, EqualizerStage.process frame cfg)
  | bandNorm st => let out := st.process frame cfg; (bandNorm out.1, out.2)
  | spectralCentroid => (spectralCentroid, SpectralCentroidStage.process frame cfg)
  | flux st => let out := st.process frame cfg; (flux out.1, out.2)
  | beat st => let out := st.process frame cfg; (beat out.1, out.2)
  | chronotensity st => let out := st.process frame cfg; (chronotensity out.1, out.2)
  | pan st => let out := st.process frame cfg; (pan out.1, out.2)
  | directional st => let out := st.process frame cfg; (directional out.1, out.2)
  | loudness st => let out := st.process frame cfg; (loudness out.1, out.2)

end IDspStage

structure Pipeline (K : Type) where
  stages : List (IDspStage K)
  timings : StageTimings K
  totalMicros : K

/-- The clock readings of one pass: around the whole, and around each stage. -/
structure Clock where
  start : TimePoint
  before : ℕ → TimePoint
  after : ℕ → TimePoint
  stop : TimePoint

/-- `last_timings`, `last_timing_count` and `last_total_micros`. -/
structure Profile (K : Type) where
  timings : StageTimings K
  count : ℕ
  totalMicros : K

namespace Pipeline

variable {K : Type}

def kEmaAlpha [Field K] : K := 0.1

def empty [Zero K] : Pipeline K := ⟨[], fun _ => ⟨"", 0⟩, 0⟩

def add [Zero K] (p : Pipeline K) (stage : IDspStage K) : Pipeline K where
  stages := p.stages ++ [stage]
  timings i := if (i : ℕ) = p.stages.length then ⟨stage.name, 0⟩ else p.timings i
  totalMicros := p.totalMicros

def clear [Zero K] (_ : Pipeline K) : Pipeline K := empty

def profile (p : Pipeline K) : Profile K where
  timings := p.timings
  count := p.stages.length
  totalMicros := p.totalMicros

def stageNames (p : Pipeline K) : List String := p.stages.map IDspStage.name

/-- Position of `f` in the enumeration. -/
def fieldNumber (f : FieldId) : ℕ := f.ctorIdx

def compositionError (idx : ℕ) (stage : IDspStage K) (f : FieldId) : String :=
  "Pipeline composition error: stage " ++ toString idx ++ " (" ++ stage.name ++
    ") reads field id " ++ toString (fieldNumber f) ++ " not produced by any earlier stage"

/-- `validate` from stage `idx` on, with the fields available there. -/
def validateFrom (available : List FieldId) (idx : ℕ) : List (IDspStage K) → String
  | [] => ""
  | stage :: rest =>
    match stage.reads.find? fun f => decide (f ∉ available) with
    | some f => compositionError idx stage f
    | none => validateFrom (available ++ stage.writes) (idx + 1) rest

/-- The empty string is success. -/
def validate (p : Pipeline K) : String := validateFrom [.samples, .format] 0 p.stages

variable [Field K] [LinearOrder K]

def composePipeline : Pipeline K :=
  [.volume VolumeStage.initial, .fft FftStage.initial, .bands BandsStage.initial, .logBoost,
    .equalizer, .bandNorm BandNormStage.initial, .spectralCentroid, .flux FluxStage.initial,
    .beat BeatStage.initial, .chronotensity ChronotensityStage.initial, .pan PanStage.initial,
    .directional DirectionalStage.initial, .loudness LoudnessStage.initial].foldl add empty

def reset (p : Pipeline K) : Pipeline K where
  stages := p.stages.map IDspStage.reset
  timings i := { p.timings i with micros := 0 }
  totalMicros := 0

omit [LinearOrder K] in
/-- Elapsed microseconds between two readings, smoothed into the previous value. -/
def smoothMicros (previous : K) (t0 t1 : TimePoint) : K :=
  (1 - kEmaAlpha) * previous + kEmaAlpha * (((t1 - t0 : ℤ) : K) / 1000.0)

omit [LinearOrder K] in
/-- The timings after the first `n` stages have run. -/
def stageTimings (p : Pipeline K) (n : ℕ) (clock : Clock) : StageTimings K := fun i =>
  if (i : ℕ) < n then
    { p.timings i with
      micros := smoothMicros (p.timings i).micros (clock.before i) (clock.after i) }
  else p.timings i

variable [FloorRing K] [Cmath K] [KissFft K]

/-- All stages in order, each on the frame the previous one left. -/
def runStages (cfg : Settings K) : List (IDspStage K) → AnalysisFrame K →
    List (IDspStage K) × AnalysisFrame K
  | [], frame => ([], frame)
  | stage :: rest, frame =>
    let out := stage.process frame cfg
    let later := runStages cfg rest out.2
    (out.1 :: later.1, later.2)

def process (p : Pipeline K) (frame : AnalysisFrame K) (cfg : Settings K) (clock : Clock) :
    Pipeline K × AnalysisFrame K :=
  let out := runStages cfg p.stages frame
  ({ stages := out.1
     timings := stageTimings p p.stages.length clock
     totalMicros := smoothMicros p.totalMicros clock.start clock.stop }, out.2)

/-- The pipeline that an exception out of stage `k` leaves behind: the stages before
it have run. -/
def processUntil (p : Pipeline K) (k : ℕ) (frame : AnalysisFrame K) (cfg : Settings K)
    (clock : Clock) : Pipeline K :=
  { p with
    stages := (runStages cfg (p.stages.take k) frame).1 ++ p.stages.drop k
    timings := stageTimings p (min k p.stages.length) clock }

end Pipeline

/-- A call on a composed pipeline. -/
inductive PipelineCall (K : Type) where
  | process (frame : AnalysisFrame K) (cfg : Settings K) (clock : Clock)
  | reset

namespace Pipeline

variable {K : Type} [Field K] [LinearOrder K] [FloorRing K] [Cmath K] [KissFft K]

/-- The pipeline after a call, and the frame that leaves it, if any. -/
def serve (p : Pipeline K) : PipelineCall K → Pipeline K × List (AnalysisFrame K)
  | .process frame cfg clock =>
    let out := p.process frame cfg clock
    (out.1, [out.2])
  | .reset => (p.reset, [])

/-- The pipeline after a sequence of calls. -/
def after (p : Pipeline K) (calls : List (PipelineCall K)) : Pipeline K :=
  calls.foldl (fun p call => (p.serve call).1) p

/-- All frames that leave it, in order. -/
def outputs (p : Pipeline K) : List (PipelineCall K) → List (AnalysisFrame K)
  | [] => []
  | call :: calls => (p.serve call).2 ++ outputs (p.serve call).1 calls

end Pipeline

end Listeningway.Dsp
