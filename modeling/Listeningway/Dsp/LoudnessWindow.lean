/- Listeningway/Dsp/LoudnessWindow
   source: src/audio/dsp/stages/loudness_stage.h
   digest: The loudness of a stream as a window on the energies of its frames, however it is cut. -/

import Listeningway.Dsp.StageRanges
import Listeningway.Lib.ListRing
import Listeningway.Lib.StreamRun

/-!
The stage keeps delay lines, a ring and a running sum from packet to packet. `filteredEnergies`
is what they stand for: every channel of the whole stream sent through the stage's filters once.
-/

set_option autoImplicit false
set_option relaxedAutoImplicit false

namespace Listeningway.Dsp.LoudnessStage

open Listeningway.Config
open Listeningway.Lib.ListRing
open Listeningway.Lib.StreamRun
open Listeningway.Source.SourceFormat

/-! ### The measure of a stream -/

section Measure

variable {K : Type} [Field K] (cs ch : Biquad K)

/-- The delay lines of a channel before sample `i` of its signal. -/
def linesAt (signal : ℕ → K) (i : ℕ) : ChState K :=
  stateAt (fun lines x => (filter cs ch lines x).1) ChState.zero signal i

/-- Sample `i` of a channel as the stage filters it. -/
def filteredAt (signal : ℕ → K) (i : ℕ) : K := (filter cs ch (linesAt cs ch signal i) (signal i)).2

/-- The energy of frame `i`, where `x i c` is its sample in channel `c`. -/
def filteredEnergyAt (channels : ℕ) (x : ℕ → ℕ → K) (i : ℕ) : K :=
  ((List.range channels).map fun c =>
    filteredAt cs ch (fun i => x i c) i * filteredAt cs ch (fun i => x i c) i).sum

/-- Sample `c` of frame `i` of a stream. -/
def sampleOf (channels : ℕ) (samples : List K) (i c : ℕ) : K := samples.getD (i * channels + c) 0

end Measure

/-- The shelf that `configure` makes for a rate. -/
noncomputable def weightingShelf (sampleRate : ℕ) : Biquad ℝ :=
  shelf 1681.9744 0.7071 3.99984 (sampleRate : ℝ)

/-- The high-pass that `configure` makes for a rate. -/
noncomputable def weightingHighpass (sampleRate : ℕ) : Biquad ℝ :=
  highpass 38.13547 0.5 (sampleRate : ℝ)

/-- The energies of the frames of a stream as the stage filters them. -/
noncomputable def filteredEnergies (format : Format) (samples : List ℝ) : List ℝ :=
  (List.range (samples.length / format.channels)).map
    (filteredEnergyAt (weightingShelf format.sampleRate) (weightingHighpass format.sampleRate)
      format.channels (sampleOf format.channels samples))

/-! ### Calls -/

/-- The arguments of one call of `process`. -/
abbrev Call := AnalysisFrame ℝ × Settings ℝ

noncomputable def after (st : LoudnessStage ℝ) (calls : List Call) : LoudnessStage ℝ :=
  calls.foldl (fun st call => (st.process call.1 call.2).1) st

/-- What the call behind `calls` publishes. -/
noncomputable def loudnessOf (st : LoudnessStage ℝ) (calls : List Call) (last : Call) : Option ℝ :=
  ((st.after calls).process last.1 last.2).2.loudness

/-- The samples of all packets. -/
def stream (calls : List Call) : List ℝ := calls.flatMap fun call => call.1.samples

/-- A packet of whole frames, at least one, of a format and under a window. -/
structure Packet (format : Format) (windowMs : ℝ) (call : Call) : Prop where
  formatted : call.1.format = format
  windowed : call.2.loudness.windowMs = windowMs
  filled : call.1.samples ≠ []
  whole : format.channels ∣ call.1.samples.length

/-- The next packet of the format makes `configure` set everything up. -/
def Stale (st : LoudnessStage ℝ) (format : Format) (windowMs : ℝ) : Prop :=
  ¬ (format.sampleRate = st.configuredFor ∧ |windowMs - st.configuredWindow| < 0.5 ∧
    st.chState.length = format.channels)

/-! ### What the stage holds -/

/-- The stage holds the measure of the first `n` frames of a signal. -/
structure Measured (st : LoudnessStage ℝ) (format : Format) (windowMs : ℝ) (x : ℕ → ℕ → ℝ)
    (n : ℕ) : Prop where
  cs : st.cs = weightingShelf format.sampleRate
  ch : st.ch = weightingHighpass format.sampleRate
  rate : st.configuredFor = format.sampleRate
  window : st.configuredWindow = windowMs
  lines : st.chState = (List.range format.channels).map fun c =>
    linesAt st.cs st.ch (fun i => x i c) n
  size : st.ring.length = windowSamples format.sampleRate windowMs
  rolling : st.Rolling
  shown : oldestFirst st.ring st.ringPos = lastPadded st.ring.length 0
    ((List.range n).map (filteredEnergyAt st.cs st.ch format.channels x))

section Steps

variable {st : LoudnessStage ℝ} {format : Format} {windowMs : ℝ} {x : ℕ → ℕ → ℝ} {n : ℕ}

theorem filterFrame_eq (measured : st.Measured format windowMs x n) {frame : AnalysisFrame ℝ}
    {i : ℕ} (sample : ∀ c < format.channels, frame.sample i c = x n c) :
    filterFrame st frame i =
      ((List.range format.channels).map fun c => linesAt st.cs st.ch (fun i => x i c) (n + 1),
        filteredEnergyAt st.cs st.ch format.channels x n) := by
  have out : (st.chState.mapIdx fun c s => filter st.cs st.ch s (frame.sample i c)) =
      (List.range format.channels).map fun c =>
        filter st.cs st.ch (linesAt st.cs st.ch (fun i => x i c) n) (x n c) := by
    rw [measured.lines]
    apply List.ext_getElem
    · simp
    · intro c inside _
      have bounded : c < format.channels := by simpa using inside
      simp only [List.getElem_mapIdx, List.getElem_map, List.getElem_range, sample c bounded]
  rw [filterFrame, out, List.map_map, List.map_map]
  rfl

theorem Measured.pushFrame (measured : st.Measured format windowMs x n) {frame : AnalysisFrame ℝ}
    {i : ℕ} (sample : ∀ c < format.channels, frame.sample i c = x n c) :
    (LoudnessStage.pushFrame frame st i).Measured format windowMs x (n + 1) := by
  have out := filterFrame_eq measured sample
  refine ⟨measured.cs, measured.ch, measured.rate, measured.window, ?_, ?_,
    rolling_pushFrame measured.rolling frame i, ?_⟩
  · change (filterFrame st frame i).1 = _
    rw [out]
    rfl
  · change (st.ring.set st.ringPos _).length = _
    rw [List.length_set]
    exact measured.size
  · change oldestFirst (st.ring.set st.ringPos (filterFrame st frame i).2)
      ((st.ringPos + 1) % st.ring.length) = lastPadded (st.ring.set st.ringPos _).length 0
        ((List.range (n + 1)).map (filteredEnergyAt st.cs st.ch format.channels x))
    rw [List.length_set, oldestFirst_write_eq measured.rolling.inside measured.shown, out,
      List.range_succ, List.map_append]
    rfl

theorem Measured.pushFrames (measured : st.Measured format windowMs x n) {frame : AnalysisFrame ℝ}
    {m : ℕ} (sample : ∀ i < m, ∀ c < format.channels, frame.sample i c = x (n + i) c) :
    ((List.range m).foldl (LoudnessStage.pushFrame frame) st).Measured format windowMs x
      (n + m) := by
  induction m with
  | zero => exact measured
  | succ m ih =>
    rw [List.range_succ, List.foldl_append]
    exact (ih fun i inside => sample i (by omega)).pushFrame (sample m (by omega))

theorem measured_configure (stale : st.Stale format windowMs) (x : ℕ → ℕ → ℝ) :
    (st.configure format.sampleRate format.channels windowMs).Measured format windowMs x 0 := by
  have some : 0 < windowSamples format.sampleRate windowMs :=
    Nat.lt_of_lt_of_le (Nat.succ_pos 31) (le_max_left 32 _)
  unfold configure
  rw [if_neg stale]
  refine ⟨rfl, rfl, rfl, rfl, ?_, List.length_replicate, ⟨?_, fun e held => ?_, ?_⟩, ?_⟩
  · change List.replicate format.channels ChState.zero =
      (List.range format.channels).map fun _ => ChState.zero
    rw [List.map_const', List.length_range]
  · simp
  · exact (List.eq_of_mem_replicate held).ge
  · rw [List.length_replicate]
    exact some
  · rw [List.range_zero, List.map_nil, lastPadded_nil, List.length_replicate]
    exact List.rotate_replicate 0 _ 0

theorem Measured.configure_eq (measured : st.Measured format windowMs x n) :
    st.configure format.sampleRate format.channels windowMs = st := by
  unfold configure
  apply if_pos
  refine ⟨measured.rate.symm, ?_, ?_⟩
  · rw [measured.window, sub_self, abs_zero]
    norm_num
  · rw [measured.lines, List.length_map, List.length_range]

end Steps

/-! ### Packets -/

section Packets

variable {format : Format} {windowMs : ℝ}

theorem Packet.channels_pos {call : Call} (packet : Packet format windowMs call) :
    0 < format.channels := by
  by_contra none
  obtain ⟨m, whole⟩ := packet.whole
  rw [Nat.eq_zero_of_not_pos none, Nat.zero_mul] at whole
  exact packet.filled (List.length_eq_zero_iff.mp whole)

variable (rate : 0 < format.sampleRate)

include rate

theorem Packet.usable {call : Call} (packet : Packet format windowMs call) :
    ¬ (call.1.format.sampleRate = 0 ∨ call.1.format.channels = 0 ∨ call.1.samples = []) := by
  have some := packet.channels_pos
  rw [packet.formatted]
  rintro (still | none | empty)
  · omega
  · omega
  · exact packet.filled empty

theorem Packet.process_eq {call : Call} (packet : Packet format windowMs call)
    (st : LoudnessStage ℝ) :
    let pushed := (List.range call.1.frames).foldl (LoudnessStage.pushFrame call.1)
      (st.configure format.sampleRate format.channels windowMs)
    (st.process call.1 call.2).1 = pushed ∧
      (st.process call.1 call.2).2.loudness = some (min 1 (Real.sqrt
        (pushed.runningSum / ((max 1 (pushed.ring.length * format.channels) : ℕ) : ℝ)))) := by
  unfold process
  dsimp only
  rw [if_neg (packet.usable rate), packet.formatted, packet.windowed]
  exact ⟨rfl, rfl⟩

theorem Measured.process {st : LoudnessStage ℝ} {x : ℕ → ℕ → ℝ} {n : ℕ}
    (measured : (st.configure format.sampleRate format.channels windowMs).Measured format windowMs
      x n) {call : Call} (packet : Packet format windowMs call)
    (sample : ∀ i < call.1.samples.length / format.channels, ∀ c < format.channels,
      sampleOf format.channels call.1.samples i c = x (n + i) c) :
    (st.process call.1 call.2).1.Measured format windowMs x
      (n + call.1.samples.length / format.channels) := by
  have frames : call.1.frames = call.1.samples.length / format.channels := by
    rw [AnalysisFrame.frames, packet.formatted]
  rw [(packet.process_eq rate st).1, frames]
  apply measured.pushFrames
  intro i inside c bounded
  rw [AnalysisFrame.sample, packet.formatted]
  exact sample i inside c bounded

omit rate in
theorem dvd_length_stream {calls : List Call}
    (packets : ∀ call ∈ calls, Packet format windowMs call) :
    format.channels ∣ (stream calls).length := by
  induction calls with
  | nil => exact dvd_zero _
  | cons call rest ih =>
    rw [stream, List.flatMap_cons, List.length_append]
    exact dvd_add (packets call List.mem_cons_self).whole
      (ih fun call listed => packets call (List.mem_cons_of_mem _ listed))

omit rate in
theorem stream_snoc (calls : List Call) (last : Call) :
    stream (calls ++ [last]) = stream calls ++ last.1.samples := by
  rw [stream, List.flatMap_append, List.flatMap_singleton]
  rfl

omit rate in
theorem after_snoc (st : LoudnessStage ℝ) (calls : List Call) (last : Call) :
    st.after (calls ++ [last]) = ((st.after calls).process last.1 last.2).1 := by
  rw [after, List.foldl_append]
  rfl

omit rate in
theorem sampleOf_stream_snoc {calls : List Call} {last : Call}
    (packets : ∀ call ∈ calls, Packet format windowMs call)
    {i c : ℕ} (bounded : c < format.channels) :
    (i < (stream calls).length / format.channels →
      sampleOf format.channels (stream (calls ++ [last])) i c =
        sampleOf format.channels (stream calls) i c) ∧
      sampleOf format.channels (stream (calls ++ [last]))
          ((stream calls).length / format.channels + i) c =
        sampleOf format.channels last.1.samples i c := by
  have length := Nat.div_mul_cancel (dvd_length_stream packets)
  rw [stream_snoc, sampleOf, sampleOf, sampleOf, sampleOf]
  constructor
  · intro inside
    apply List.getD_append
    have frame := Nat.mul_le_mul_right format.channels (Nat.succ_le_of_lt inside)
    rw [length, Nat.succ_mul] at frame
    omega
  · have place : ((stream calls).length / format.channels + i) * format.channels + c =
        (stream calls).length + (i * format.channels + c) := by
      rw [Nat.add_mul, length]
      omega
    rw [place, List.getD_append_right _ _ _ _ (Nat.le_add_right _ _), Nat.add_sub_cancel_left]

omit rate in
theorem length_stream_snoc {calls : List Call} {last : Call}
    (packets : ∀ call ∈ calls, Packet format windowMs call) :
    (stream (calls ++ [last])).length / format.channels =
      (stream calls).length / format.channels + last.1.samples.length / format.channels := by
  rw [stream_snoc, List.length_append, Nat.add_div_of_dvd_right (dvd_length_stream packets)]

theorem measured_snoc {start : LoudnessStage ℝ} {calls : List Call} {last : Call}
    (packets : ∀ call ∈ calls ++ [last], Packet format windowMs call) {x : ℕ → ℕ → ℝ}
    (agrees : ∀ i < (stream (calls ++ [last])).length / format.channels, ∀ c < format.channels,
      sampleOf format.channels (stream (calls ++ [last])) i c = x i c)
    (measured : (∀ i < (stream calls).length / format.channels, ∀ c < format.channels,
        sampleOf format.channels (stream calls) i c = x i c) →
      ((start.after calls).configure format.sampleRate format.channels windowMs).Measured format
        windowMs x ((stream calls).length / format.channels)) :
    (start.after (calls ++ [last])).Measured format windowMs x
      ((stream (calls ++ [last])).length / format.channels) := by
  have packet := packets last (List.mem_append_right _ List.mem_cons_self)
  have earlier : ∀ call ∈ calls, Packet format windowMs call := fun call listed =>
    packets call (List.mem_append_left _ listed)
  have count : (stream (calls ++ [last])).length / format.channels =
      (stream calls).length / format.channels + last.1.samples.length / format.channels :=
    length_stream_snoc earlier
  have before_it := measured fun i inside c bounded => by
    rw [← agrees i (by rw [count]; exact Nat.lt_add_right _ inside) c bounded]
    exact ((sampleOf_stream_snoc earlier bounded).1 inside).symm
  have pushed := before_it.process rate packet fun i inside c bounded => by
    rw [← agrees _ (by rw [count]; exact Nat.add_lt_add_left inside _) c bounded]
    exact (sampleOf_stream_snoc earlier bounded).2.symm
  rw [after_snoc, count]
  exact pushed

theorem measured_stream {start : LoudnessStage ℝ} (stale : start.Stale format windowMs)
    {calls : List Call} (packets : ∀ call ∈ calls, Packet format windowMs call)
    {x : ℕ → ℕ → ℝ}
    (agrees : ∀ i < (stream calls).length / format.channels, ∀ c < format.channels,
      sampleOf format.channels (stream calls) i c = x i c) :
    ((start.after calls).configure format.sampleRate format.channels windowMs).Measured format
      windowMs x ((stream calls).length / format.channels) := by
  induction calls using List.reverseRecOn with
  | nil =>
    rw [stream, List.flatMap_nil, List.length_nil, Nat.zero_div]
    exact measured_configure stale x
  | append_singleton calls last ih =>
    have measured := measured_snoc rate packets agrees
      (ih fun call listed => packets call (List.mem_append_left _ listed))
    rw [measured.configure_eq]
    exact measured

theorem measured_packets {start : LoudnessStage ℝ} (stale : start.Stale format windowMs)
    {calls : List Call} {last : Call}
    (packets : ∀ call ∈ calls ++ [last], Packet format windowMs call) :
    (start.after (calls ++ [last])).Measured format windowMs
      (sampleOf format.channels (stream (calls ++ [last])))
      ((stream (calls ++ [last])).length / format.channels) :=
  measured_snoc rate packets (fun _ _ _ _ => rfl) (measured_stream rate stale fun call listed =>
    packets call (List.mem_append_left _ listed))

theorem shown_packets {start : LoudnessStage ℝ} (stale : start.Stale format windowMs)
    {calls : List Call} {last : Call}
    (packets : ∀ call ∈ calls ++ [last], Packet format windowMs call) :
    (start.after (calls ++ [last])).ring.length = windowSamples format.sampleRate windowMs ∧
      oldestFirst (start.after (calls ++ [last])).ring (start.after (calls ++ [last])).ringPos =
        lastPadded (windowSamples format.sampleRate windowMs) 0
          (filteredEnergies format (stream (calls ++ [last]))) := by
  have measured := measured_packets rate stale packets
  refine ⟨measured.size, ?_⟩
  rw [measured.shown, measured.size, measured.cs, measured.ch]
  rfl

theorem sum_packets {start : LoudnessStage ℝ} (stale : start.Stale format windowMs)
    {calls : List Call} {last : Call}
    (packets : ∀ call ∈ calls ++ [last], Packet format windowMs call) :
    (start.after (calls ++ [last])).ring.sum =
      (lastPadded (windowSamples format.sampleRate windowMs) 0
        (filteredEnergies format (stream (calls ++ [last])))).sum := by
  rw [← (shown_packets rate stale packets).2]
  exact (List.rotate_perm _ _).sum_eq.symm

theorem loudnessOf_packets {start : LoudnessStage ℝ} (stale : start.Stale format windowMs)
    {calls : List Call} {last : Call}
    (packets : ∀ call ∈ calls ++ [last], Packet format windowMs call) :
    start.loudnessOf calls last = some (min 1 (Real.sqrt
      ((start.after (calls ++ [last])).ring.sum /
        (windowSamples format.sampleRate windowMs * format.channels)))) := by
  have packet := packets last (List.mem_append_right _ List.mem_cons_self)
  have measured := measured_packets rate stale packets
  have some := packet.channels_pos
  have wide : 0 < windowSamples format.sampleRate windowMs :=
    Nat.lt_of_lt_of_le (Nat.succ_pos 31) (le_max_left 32 _)
  obtain ⟨state, published⟩ := packet.process_eq rate (start.after calls)
  rw [← state, ← after_snoc, measured.rolling.sum, measured.size,
    max_eq_right (Nat.mul_pos wide some)] at published
  rw [loudnessOf, published]
  push_cast
  rfl

theorem process_stale {st : LoudnessStage ℝ} (stale : st.Stale format windowMs) {call : Call}
    (packet : Packet format windowMs call) :
    st.process call.1 call.2 = initial.process call.1 call.2 := by
  have fresh : (initial : LoudnessStage ℝ).Stale format windowMs := fun same => rate.ne' same.1
  have same : st.configure format.sampleRate format.channels windowMs =
      initial.configure format.sampleRate format.channels windowMs := by
    unfold configure
    rw [if_neg stale, if_neg fresh]
  unfold LoudnessStage.process
  dsimp only
  rw [if_neg (packet.usable rate), if_neg (packet.usable rate), packet.formatted, packet.windowed,
    same]

/-- Behind packets of one format and window another rate, channel count or window is news. -/
theorem stale_packets {start : LoudnessStage ℝ} (stale : start.Stale format windowMs)
    {calls : List Call} {last : Call}
    (packets : ∀ call ∈ calls ++ [last], Packet format windowMs call) {format' : Format}
    {windowMs' : ℝ} (news : format'.sampleRate ≠ format.sampleRate ∨
      format'.channels ≠ format.channels ∨ 0.5 ≤ |windowMs' - windowMs|) :
    (start.after (calls ++ [last])).Stale format' windowMs' := by
  have measured := measured_packets rate stale packets
  rintro ⟨rate', window', channels'⟩
  rw [measured.rate] at rate'
  rw [measured.window] at window'
  rw [measured.lines, List.length_map, List.length_range] at channels'
  rcases news with other | other | other
  · exact other rate'
  · exact other channels'.symm
  · exact absurd window' other.not_gt

end Packets

theorem tame_after {st : LoudnessStage ℝ} (tame : st.Tame) (calls : List Call) :
    (st.after calls).Tame := by
  induction calls generalizing st with
  | nil => exact tame
  | cons call rest ih => exact ih (process_inRange tame call.1 call.2).1

end Listeningway.Dsp.LoudnessStage
