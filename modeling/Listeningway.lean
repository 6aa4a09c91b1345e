import Listeningway.Lib.Machine
import Listeningway.Snapshot.SeqlockSnapshot
import Listeningway.Snapshot.SeqlockRuns
import Listeningway.Snapshot.SeqlockReads
import Listeningway.Ring.FrameRing
import Listeningway.Ring.FrameRingRuns
import Listeningway.Lib.Script
import Listeningway.Source.AudioSource
import Listeningway.System.Lifecycle
import Listeningway.System.LifecycleRuns
import Listeningway.Config.Settings
import Listeningway.Config.Store
import Listeningway.System.SourceFallback
import Listeningway.Config.HotReload
import Listeningway.Config.ReadModifyWrite
import Listeningway.Dsp.AnalysisFrame
import Listeningway.Snapshot.AudioSnapshot
import Listeningway.Dsp.Beat.BeatTracker
import Listeningway.Dsp.Beat.BufferedTracker
import Listeningway.Dsp.Beat.CombTempo
import Listeningway.Dsp.Stages.BeatStage
import Listeningway.Dsp.Stages.LevelStages
import Listeningway.Dsp.Stages.LoudnessStage
import Listeningway.Dsp.Stages.SpatialStages
import Listeningway.Dsp.Stages.SpectrumStages
import Listeningway.Dsp.Pipeline
import Listeningway.Lib.HistoryRing
import Listeningway.System.DspThread
import Listeningway.Output.UniformPublisher
import Listeningway.Output.HistoryOrder
import Listeningway.Dsp.Footprint
import Listeningway.Dsp.ComposedPipeline
import Listeningway.Lib.FourierSums
import Listeningway.Dsp.BalancedAcf
import Listeningway.Dsp.TempoGain
import Listeningway.Dsp.LevelGain
import Listeningway.Dsp.KWeighting
import Listeningway.Dsp.OdfWindow
import Listeningway.Dsp.BandLevels
import Listeningway.Dsp.UnitRange
import Listeningway.Dsp.PipelineReset
import Listeningway.System.AudioSystem
import Listeningway.System.AudioSystemRuns
import Listeningway.Dsp.BandPath
import Listeningway.System.PublishedFrames
import Listeningway.System.Forgetting
import Listeningway.Output.ShaderArrays
import Listeningway.Output.BandReductions
import Listeningway.Lib.Footprint
import Listeningway.Dsp.Independence
import Listeningway.Dsp.ResetRuns
import Listeningway.Dsp.SpatialMirror
import Listeningway.Dsp.PopulatedReads
import Listeningway.Lib.Interference
import Listeningway.Output.ConsumerRegistry
import Listeningway.Output.ConsumerRuns
import Listeningway.Config.Persistence
import Listeningway.Overlay.DrawOverlay
import Listeningway.Dsp.StageRanges
import Listeningway.Dsp.ScalarRange
import Listeningway.Config.SettingsParse
import Listeningway.Config.SaveAndLoad
import Listeningway.Lib.AlignedBytes
import Listeningway.Output.OscMessage
import Listeningway.Output.OscRoundTrip
import Listeningway.Lib.SpanWrites
import Listeningway.Output.PatternCommon
import Listeningway.Output.SinglePatterns
import Listeningway.Output.LinearPatterns
import Listeningway.Output.MatrixPatterns
import Listeningway.Output.Waterfall
import Listeningway.Output.BrightnessCap
import Listeningway.Lib.StreamRun
import Listeningway.Dsp.BeatSchedule
import Listeningway.Dsp.BeatGaps
import Listeningway.Dsp.BeatRamp
import Listeningway.Dsp.FadingOnset
import Listeningway.Lib.ListRing
import Listeningway.Dsp.LoudnessWindow
import Listeningway.Dsp.WeightedLoudness
import Listeningway.Lib.Recursion
import Listeningway.Dsp.LoudnessStability
import Listeningway.Dsp.BandEdges
import Listeningway.Dsp.BeatRuns
import Listeningway.Dsp.SilentBeats
import Listeningway.Lib.FoldMax
import Listeningway.Lib.ForwardLoop
import Listeningway.Dsp.BeatProjection
import Listeningway.Dsp.FlashRate
import Listeningway.Dsp.OdfSnapshot
import Listeningway.Dsp.TempoPath
import Listeningway.Lib.BestPath
import Listeningway.Dsp.TempoConfidence
import Listeningway.Lib.Memo
import Listeningway.Dsp.BandCache
import Listeningway.Output.BandBuckets
import Listeningway.Dsp.OnsetRuns
import Listeningway.Lib.Spans
import Listeningway.Dsp.PhaseRuns
import Listeningway.Output.PeakMeter
import Listeningway.Output.ChaseRotation
import Listeningway.Dsp.TempoInvariant
import Listeningway.Dsp.BeatScore
import Listeningway.Dsp.BeatRecurrence
import Listeningway.Dsp.BeatBuffers
import Listeningway.Lib.ByteStream
import Listeningway.OpenRgb.DeviceInfo
import Listeningway.OpenRgb.DeviceRoundTrip
import Listeningway.OpenRgb.ProtocolMessages
import Listeningway.OpenRgb.MessageRoundTrip
import Listeningway.OpenRgb.ClientStatus
import Listeningway.OpenRgb.Session
import Listeningway.OpenRgb.SessionRuns
import Listeningway.OpenRgb.Connection
import Listeningway.OpenRgb.ConnectionRuns
import Listeningway.Output.OpenRgbConsumer
import Listeningway.Output.OpenRgbFrames
import Listeningway.Output.OpenRgbStatus
import Listeningway.Output.ConsumerCallbacks
import Listeningway.System.App
import Listeningway.System.AppRuns
import Listeningway.Output.TinyOsc
import Listeningway.Output.OscWorker
import Listeningway.Source.CaptureSource
import Listeningway.System.CaptureThreads
import Listeningway.System.CaptureRuns
import Listeningway.System.CaptureStops
import Listeningway.Lib.Wiring
import Listeningway.Output.MatrixPicture
import Listeningway.Lib.Reorder
import Listeningway.Dsp.ReorderedPipeline
import Listeningway.Config.SettingsFile
import Listeningway.Lib.Smoothing
import Listeningway.Dsp.GainSettles
