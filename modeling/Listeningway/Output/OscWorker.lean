/- Listeningway/Output/OscWorker
   source: src/output/osc_consumer.h; src/output/osc_consumer.cpp
   digest: The worker that mirrors each snapshot as OSC messages, and what a receiver sees of it. -/

import Listeningway.Config.Settings
import Listeningway.Lib.Clamp
import Listeningway.Lib.Machine
import Listeningway.Output.TinyOsc

/-!
Once the socket is open and the host resolved, a turn of the worker finds the settings, the
snapshot, the stack bytes of each `send_f1` and the answer of each `sendto`. A `float` is the
pattern of its bits.
-/

set_option autoImplicit false
set_option relaxedAutoImplicit false

namespace Listeningway.Output.OscWorker

open Listeningway.Config
open Listeningway.Lib
open Listeningway.Lib.AlignedBytes
open Listeningway.Lib.Clamp
open Listeningway.Output.OscMessage
open Listeningway.Output.TinyOsc
open Listeningway.Snapshot

variable {K : Type}

/-- The pattern of a `float`, and that of a count cast to one. -/
structure Floats (K : Type) where
  bits : K → UInt32
  count : ℕ → UInt32

/-- The calls of `send_f1` in one turn. -/
def workerScalars (floats : Floats K) (snap : AudioSnapshot K) : List (String × UInt32) :=
  [("/listeningway/volume", floats.bits snap.volume),
   ("/listeningway/volumeleft", floats.bits snap.volumeLeft),
   ("/listeningway/volumeright", floats.bits snap.volumeRight),
   ("/listeningway/volume_norm", floats.bits snap.volumeNorm),
   ("/listeningway/volume_att", floats.bits snap.volumeAtt),
   ("/listeningway/bass_norm", floats.bits snap.bassNorm),
   ("/listeningway/mid_norm", floats.bits snap.midNorm),
   ("/listeningway/treb_norm", floats.bits snap.trebNorm),
   ("/listeningway/bass_att", floats.bits snap.bassAtt),
   ("/listeningway/mid_att", floats.bits snap.midAtt),
   ("/listeningway/treb_att", floats.bits snap.trebAtt),
   ("/listeningway/audiopan", floats.bits snap.audioPan),
   ("/listeningway/audioformat", floats.bits snap.audioFormat),
   ("/listeningway/numbands", floats.count snap.freqBandCount),
   ("/listeningway/beat", floats.bits snap.beat),
   ("/listeningway/beat_phase", floats.bits snap.beatPhase),
   ("/listeningway/tempo_bpm", floats.bits snap.tempoBpm),
   ("/listeningway/tempo_confidence", floats.bits snap.tempoConfidence),
   ("/listeningway/phase_volume", floats.bits snap.phaseVolume),
   ("/listeningway/phase_bass", floats.bits snap.phaseBass),
   ("/listeningway/phase_treble", floats.bits snap.phaseTreble),
   ("/listeningway/spectral_centroid", floats.bits snap.spectralCentroid),
   ("/listeningway/loudness", floats.bits snap.loudness)]

inductive Call where
  | scalar (address : String) (v : UInt32)
  | array (address : String) (values : List UInt32)

/-- The calls of one turn, all of which are made. -/
def calls (floats : Floats K) (snap : AudioSnapshot K) : List Call :=
  (workerScalars floats snap).map (fun call => .scalar call.1 call.2) ++
    (workerArrays floats.bits snap).map fun call => .array call.1 call.2

/-- A call of `sendto`, and whether it succeeded. -/
structure Datagram where
  data : List UInt8
  sent : Bool

/-- The stack bytes of a `send_f1`. -/
abbrev Buf := { buf : List UInt8 // buf.length = 256 }

/-- What the calls leave: the datagrams, `ok` and the scratch buffer. -/
structure Sending where
  datagrams : List Datagram
  ok : Bool
  scratch : List UInt8

/-- The calls from the `k`-th on. -/
def send (buf : ℕ → Buf) (sendto : ℕ → Bool) : ℕ → List Call → List UInt8 → Sending
  | _, [], scratch => { datagrams := [], ok := true, scratch }
  | k, .scalar address v :: calls, scratch =>
    let rest := send buf sendto (k + 1) calls scratch
    match sendF1 (buf k).1 (bytes address.toList) v with
    | none => { rest with ok := false }
    | some data => { rest with
        datagrams := { data, sent := sendto k } :: rest.datagrams
        ok := sendto k && rest.ok }
  | k, .array address values :: calls, scratch =>
    match sendFloats (cString address) values scratch with
    | none => { send buf sendto (k + 1) calls scratch with ok := false }
    | some data =>
      let rest := send buf sendto (k + 1) calls (writeAt scratch 0 data)
      { rest with
        datagrams := { data, sent := sendto k } :: rest.datagrams
        ok := sendto k && rest.ok }

structure Status where
  lastError : String
  currentRateHz : ℤ
  packetsSent : ℕ
  deriving DecidableEq, Repr

structure Worker where
  rateHz : ℤ
  cachedVersion : ℕ
  scratch : List UInt8
  status : Status

/-- `start` and `worker_main` up to its loop, each with the settings it reads. -/
def Worker.start (shown config : OscConfig) (version : ℕ) (scratch : List UInt8) : Worker where
  rateHz := clamp config.rateHz 1 120
  cachedVersion := version
  scratch
  status := { lastError := "", currentRateHz := clamp shown.rateHz 1 120, packetsSent := 0 }

/-- What a turn of the loop finds. -/
structure Tick (K : Type) where
  version : ℕ
  newConfig : OscConfig
  snap : AudioSnapshot K
  buf : ℕ → Buf
  sendto : ℕ → Bool
  lastError : ℤ

/-- The settings are read again when their version changed. -/
def Worker.readSettings (w : Worker) (tick : Tick K) : Worker :=
  if tick.version ≠ w.cachedVersion then
    let newRate := clamp tick.newConfig.rateHz 1 120
    { w with
      cachedVersion := tick.version
      rateHz := newRate
      status := if newRate ≠ w.rateHz then { w.status with currentRateHz := newRate }
        else w.status }
  else w

/-- The status after the calls. -/
def Status.record (status : Status) (ok : Bool) (err : ℤ) : Status :=
  if ok then { status with packetsSent := status.packetsSent + 1, lastError := "" }
  else { status with lastError := "sendto failed (" ++ toString err ++ ")" }

/-- One turn of the loop. -/
def Worker.step (floats : Floats K) : Machine.Step Worker (Tick K) Datagram
  | w, tick =>
    let w := w.readSettings tick
    let sending := send tick.buf tick.sendto 0 (calls floats tick.snap) w.scratch
    some ({ w with
      scratch := sending.scratch
      status := w.status.record sending.ok tick.lastError }, sending.datagrams)

/-! ### What a receiver sees -/

/-- The receiver's reading of a datagram, without the offset. -/
def read (datagram : Datagram) : Option (String × String × List Value) :=
  (parseOscMessage datagram.data).map fun parsed =>
    (parsed.address, parsed.typeTag, parsed.values)

/-- The reading that a call is made for. -/
def Call.reading : Call → String × String × List Value
  | scalar address v => (address, ",f", [.float v])
  | array address values =>
    (address, String.ofList (fmtChars values.length), values.map .float)

/-- The mirror of a snapshot. -/
def mirror (floats : Floats K) (snap : AudioSnapshot K) : List (String × String × List Value) :=
  (calls floats snap).map Call.reading

/-- All of the turn is handed over. -/
def Tick.Accepted (floats : Floats K) (tick : Tick K) : Prop :=
  ∀ k < (calls floats tick.snap).length, tick.sendto k = true

instance (floats : Floats K) (tick : Tick K) : Decidable (tick.Accepted floats) :=
  inferInstanceAs (Decidable (∀ k < (calls floats tick.snap).length, tick.sendto k = true))

/-- A call that fits its buffer. -/
def Call.Fits : Call → Prop
  | scalar address _ => Plain address.toList ∧ address.toList.length ≤ 240
  | array address values => Plain address.toList ∧ values ≠ [] ∧
      total (cString address) values.length ≤ kMaxPacketBytes

theorem length_bytes (text : List Char) : (bytes text).length = text.length := List.length_map _

theorem sendF1_layout (buf : Buf) {address : List Char} (short : address.length ≤ 240)
    (v : UInt32) :
    sendF1 buf.1 (bytes address) v = some (layout (bytes address) [.float v]) := by
  have padded : roundUp ((bytes address).length + 1) ≤ address.length + 4 := by
    rw [length_bytes]
    exact roundUp_le _
  have words : 4 ∣ buf.1.length := by
    rw [buf.2]
    decide
  have whole := buf.2
  have word : roundUp ([Arg.float v].length + 2) = 4 := by
    rw [List.length_singleton]
    rfl
  have float : (Arg.float v).Room buf.1.length
      (roundUp ((bytes address).length + 1) + roundUp ([Arg.float v].length + 2)) := by
    change _ + roundUp ([Arg.float v].length + 2) + 4 ≤ _
    omega
  have tags : roundUp ((bytes address).length + 1) + 1 + 1 + (1 + 1) ≤ buf.1.length := by
    omega
  have fits : Fits buf.1.length (bytes address) [.float v] := ⟨tags, float, trivial⟩
  obtain ⟨-, written⟩ := vwrite_layout words fits
  have some' : (layout (bytes address) [.float v]).length ≠ 0 := by
    rw [layout, List.length_append, length_layout_front, List.flatMap_singleton, Arg.data,
      length_bigEndian]
    omega
  rw [sendF1, written]
  dsimp only
  rw [if_neg some', List.take_left]

theorem read_scalar {address : String} (plain : Plain address.toList) (v : UInt32) (sent : Bool) :
    read ⟨layout (bytes address.toList) [.float v], sent⟩ =
      some (Call.scalar address v).reading := by
  have readable : ∀ arg ∈ [Arg.float v], arg.Readable := by
    intro arg listed
    rw [List.mem_singleton.mp listed]
    exact ⟨rfl, nofun⟩
  rw [read, parse_layout (bytes_ne_zero plain) readable, decodeAscii_bytes plain,
    String.ofList_toList]
  rfl

theorem read_array {address : String} (plain : Plain address.toList) {values : List UInt32}
    (filled : values ≠ []) (sent : Bool) :
    read ⟨message (bytes address.toList) values, sent⟩ =
      some (Call.array address values).reading := by
  rw [read, parse_message plain filled, String.ofList_toList]
  rfl

/-! ### The calls of a turn -/

theorem send_fitting (buf : ℕ → Buf) (sendto : ℕ → Bool) {made : List Call}
    (fits : ∀ call ∈ made, call.Fits) {scratch : List UInt8}
    (room : scratch.length = kMaxPacketBytes) (k : ℕ) :
    (send buf sendto k made scratch).datagrams.map read =
        (made.map Call.reading).map some ∧
      (send buf sendto k made scratch).scratch.length = kMaxPacketBytes ∧
      ((send buf sendto k made scratch).ok = true ↔
        ∀ j < made.length, sendto (k + j) = true) := by
  induction made generalizing k scratch with
  | nil => exact ⟨rfl, room, iff_of_true rfl fun j below => absurd below (Nat.not_lt_zero j)⟩
  | cons call made ih =>
    obtain ⟨here, there⟩ := List.forall_mem_cons.mp fits
    have counted : (sendto k = true ∧ ∀ j < made.length, sendto (k + 1 + j) = true) ↔
        ∀ j < (call :: made).length, sendto (k + j) = true := by
      constructor
      · rintro ⟨first, others⟩ j below
        cases j with
        | zero => exact first
        | succ j =>
          rw [← Nat.add_assoc, Nat.add_right_comm]
          exact others j (Nat.lt_of_succ_lt_succ below)
      · intro all
        refine ⟨all 0 (Nat.succ_pos _), fun j below => ?_⟩
        rw [Nat.add_assoc, Nat.add_comm 1 j]
        exact all (j + 1) (Nat.succ_lt_succ below)
    cases call with
    | scalar address v =>
      obtain ⟨plain, short⟩ := here
      obtain ⟨readings, length, ok⟩ := ih there room (k + 1)
      rw [send, sendF1_layout (buf k) short v]
      refine ⟨?_, length, ?_⟩
      · rw [List.map_cons, read_scalar plain, readings]
        rfl
      · rw [Bool.and_eq_true, ok]
        exact counted
    | array address values =>
      obtain ⟨plain, filled, fit⟩ := here
      have written : sendFloats (cString address) values scratch =
          some (message (bytes address.toList) values) :=
        sendFloats_eq (bytes_ne_zero plain) filled (room ▸ fit)
      have inside : 0 + (message (bytes address.toList) values).length ≤ scratch.length := by
        have whole : total (cString address) values.length =
            (message (bytes address.toList) values).length := by
          rw [length_message, total, addrPadded, cString, strlen_cString (bytes_ne_zero plain)]
        omega
      obtain ⟨readings, length, ok⟩ := ih there ((length_writeAt inside).trans room) (k + 1)
      rw [send, written]
      refine ⟨?_, length, ?_⟩
      · rw [List.map_cons, read_array plain filled, readings]
        rfl
      · rw [Bool.and_eq_true, ok]
        exact counted

/-- The addresses of the scalars do not depend on the snapshot. -/
def scalarAddresses : List String :=
  (workerScalars { bits := fun _ => 0, count := fun _ => 0 } (AudioSnapshot.zero ℕ)).map Prod.fst

theorem scalarAddresses_eq (floats : Floats K) (snap : AudioSnapshot K) :
    (workerScalars floats snap).map Prod.fst = scalarAddresses := rfl

theorem plain_of_all {text : List Char}
    (all : text.all (fun c => decide (c ≠ '\x00' ∧ c.toNat < 128)) = true) : Plain text :=
  fun c held => of_decide_eq_true (List.all_eq_true.mp all c held)

theorem scalarAddresses_fit : ∀ address ∈ scalarAddresses,
    Plain address.toList ∧ address.toList.length ≤ 240 := by
  have known : (scalarAddresses.all fun address =>
      address.toList.all (fun c => decide (c ≠ '\x00' ∧ c.toNat < 128)) &&
        decide (address.toList.length ≤ 240)) = true := by decide
  intro address listed
  obtain ⟨plain, short⟩ := Bool.and_eq_true_iff.mp (List.all_eq_true.mp known address listed)
  exact ⟨plain_of_all plain, of_decide_eq_true short⟩

theorem arrayAddresses_plain : ∀ address ∈ [freqbandsAddress, direction8Address],
    Plain address.toList := by
  intro address listed
  rcases List.mem_pair.mp listed with rfl | rfl <;> exact plain_of_all (by decide)

theorem workerArrays_filled (bits : K → UInt32) (snap : AudioSnapshot K) :
    ∀ call ∈ workerArrays bits snap, call.2 ≠ [] := by
  intro call made
  rcases List.mem_append.mp made with bands | direction
  · split_ifs at bands with some'
    · rw [List.mem_singleton.mp bands, ← List.length_pos_iff, List.length_take, List.length_ofFn]
      exact lt_min some' (by decide)
    · cases bands
  · rw [List.mem_singleton.mp direction, ← List.length_pos_iff, List.length_ofFn]
    decide

theorem calls_fit (floats : Floats K) (snap : AudioSnapshot K) :
    ∀ call ∈ calls floats snap, call.Fits := by
  intro call made
  rcases List.mem_append.mp made with scalar | array
  · obtain ⟨one, listed, rfl⟩ := List.mem_map.mp scalar
    have known : one.1 ∈ scalarAddresses := by
      rw [← scalarAddresses_eq floats snap]
      exact List.mem_map_of_mem listed
    exact scalarAddresses_fit one.1 known
  · obtain ⟨one, listed, rfl⟩ := List.mem_map.mp array
    obtain ⟨known, bounded⟩ := workerArrays_bounded floats.bits snap listed
    exact ⟨arrayAddresses_plain one.1 known, workerArrays_filled floats.bits snap one listed,
      total_worker_le known bounded⟩

theorem addresses_nodup :
    (scalarAddresses ++ [freqbandsAddress, direction8Address]).Nodup := by
  decide

theorem mirror_nodup (floats : Floats K) (snap : AudioSnapshot K) :
    ((mirror floats snap).map Prod.fst).Nodup := by
  have addresses : (mirror floats snap).map Prod.fst =
      scalarAddresses ++ (workerArrays floats.bits snap).map Prod.fst := by
    rw [mirror, calls, List.map_append, List.map_append, ← scalarAddresses_eq floats snap]
    simp only [List.map_map]
    rfl
  have listed : ((workerArrays floats.bits snap).map Prod.fst).Sublist
      [freqbandsAddress, direction8Address] := by
    unfold workerArrays
    dsimp only
    split_ifs
    · exact List.Sublist.refl _
    · exact List.sublist_cons_self _ _
  rw [addresses]
  exact addresses_nodup.sublist (listed.append_left _)

/-! ### Runs -/

/-- What the status says of the turns so far. -/
structure Shown (floats : Floats K) (ticks : List (Tick K)) (status : Status) : Prop where
  sent : status.packetsSent = ticks.countP fun tick => decide (tick.Accepted floats)
  last : ∀ tick ∈ ticks.getLast?, (tick.Accepted floats → status.lastError = "") ∧
    (¬ tick.Accepted floats →
      status.lastError = "sendto failed (" ++ toString tick.lastError ++ ")")
  clear : ticks = [] → status.lastError = ""

theorem readSettings_scratch (w : Worker) (tick : Tick K) :
    (w.readSettings tick).scratch = w.scratch := by
  unfold Worker.readSettings
  split_ifs <;> rfl

theorem readSettings_packetsSent (w : Worker) (tick : Tick K) :
    (w.readSettings tick).status.packetsSent = w.status.packetsSent := by
  unfold Worker.readSettings
  dsimp only
  split_ifs <;> rfl

/-- The rate is one of the permitted, and the shown one once they agreed. -/
structure Paced (agreed : Prop) (w : Worker) : Prop where
  lower : 1 ≤ w.rateHz
  upper : w.rateHz ≤ 120
  shown : agreed → w.status.currentRateHz = w.rateHz

theorem paced_start (shown config : OscConfig) (version : ℕ) (scratch : List UInt8) :
    Paced (clamp shown.rateHz 1 120 = clamp config.rateHz 1 120)
      (Worker.start shown config version scratch) where
  lower := le_clamp _ (by decide)
  upper := clamp_le _ (by decide)
  shown agreed := agreed

theorem paced_readSettings {agreed : Prop} {w : Worker} (paced : Paced agreed w)
    (tick : Tick K) : Paced agreed (w.readSettings tick) := by
  unfold Worker.readSettings
  dsimp only
  split_ifs with new changed
  · exact ⟨le_clamp _ (by decide), clamp_le _ (by decide), fun _ => rfl⟩
  · exact ⟨le_clamp _ (by decide), clamp_le _ (by decide),
      fun agreed => (paced.shown agreed).trans (not_ne_iff.mp changed).symm⟩
  · exact paced

theorem shown_record {floats : Floats K} {ticks : List (Tick K)} {status : Status} {before : ℕ}
    (sent : before = ticks.countP fun tick => decide (tick.Accepted floats))
    (counter : status.packetsSent = before) (tick : Tick K) {ok : Bool}
    (accepted : ok = true ↔ tick.Accepted floats) :
    Shown floats (ticks ++ [tick]) (status.record ok tick.lastError) := by
  have final : (ticks ++ [tick]).getLast? = some tick := List.getLast?_concat
  have filled : ticks ++ [tick] ≠ [] := List.append_ne_nil_of_right_ne_nil _ (List.cons_ne_nil _ _)
  unfold Status.record
  by_cases all : tick.Accepted floats
  · rw [if_pos (accepted.mpr all)]
    refine ⟨?_, ?_, fun empty => absurd empty filled⟩
    · rw [List.countP_append, List.countP_singleton, if_pos (decide_eq_true all), counter, sent]
    · intro last listed
      rw [final] at listed
      cases listed
      exact ⟨fun _ => rfl, fun refused => absurd all refused⟩
  · rw [if_neg fun ok => all (accepted.mp ok)]
    refine ⟨?_, ?_, fun empty => absurd empty filled⟩
    · rw [List.countP_append, List.countP_singleton, decide_eq_false all, if_neg Bool.false_ne_true,
        Nat.add_zero, counter, sent]
    · intro last listed
      rw [final] at listed
      cases listed
      exact ⟨fun handed => absurd handed all, fun _ => rfl⟩

/-- In every turn of a run of the worker a receiver reads from the datagrams handed over exactly
the mirror of the snapshot of that turn, in its order, whatever the buffers held before; the
addresses of a turn are distinct. The status counts the turns that were all accepted, not the
packets, and shows an error just when the last turn was not; the rate stays between 1 and 120
and is the one shown when `start` and the worker read the same one. -/
theorem mirrored_over_runs (floats : Floats K) (shown config : OscConfig) (version : ℕ)
    (scratch : List UInt8) (room : scratch.length = kMaxPacketBytes) (ticks : List (Tick K)) :
    ∃ w sent, Machine.run (Worker.step floats)
        (Worker.start shown config version scratch) ticks = some (w, sent) ∧
      sent.map read = (ticks.flatMap fun tick => mirror floats tick.snap).map some ∧
      (∀ tick ∈ ticks, ((mirror floats tick.snap).map Prod.fst).Nodup) ∧
      w.status.packetsSent = ticks.countP (fun tick => decide (tick.Accepted floats)) ∧
      (w.status.lastError = "" ↔ ∀ tick ∈ ticks.getLast?, tick.Accepted floats) ∧
      1 ≤ w.rateHz ∧ w.rateHz ≤ 120 ∧
      (clamp shown.rateHz 1 120 = clamp config.rateHz 1 120 →
        w.status.currentRateHz = w.rateHz) := by
  have run : ∃ w sent, Machine.run (Worker.step floats)
        (Worker.start shown config version scratch) ticks = some (w, sent) ∧
      sent.map read = (ticks.flatMap fun tick => mirror floats tick.snap).map some ∧
      w.scratch.length = kMaxPacketBytes ∧ Shown floats ticks w.status ∧
      Paced (clamp shown.rateHz 1 120 = clamp config.rateHz 1 120) w := by
    induction ticks using List.reverseRecOn with
    | nil =>
      refine ⟨_, [], rfl, rfl, room, ⟨rfl, nofun, fun _ => rfl⟩, paced_start _ _ _ _⟩
    | append_singleton ticks tick ih =>
      obtain ⟨w, sent, run, readings, length, told, paced⟩ := ih
      have room' : (w.readSettings tick).scratch.length = kMaxPacketBytes := by
        rw [readSettings_scratch, length]
      obtain ⟨handed, length', ok⟩ := send_fitting tick.buf tick.sendto
        (calls_fit floats tick.snap) room' 0
      have accepted : (send tick.buf tick.sendto 0 (calls floats tick.snap)
          (w.readSettings tick).scratch).ok = true ↔ tick.Accepted floats := by
        rw [ok]
        simp only [Nat.zero_add]
        rfl
      have counter := readSettings_packetsSent w tick
      have paced' := paced_readSettings paced tick
      refine ⟨_, _, Machine.run_snoc_iff.mpr ⟨w, sent, _, run, rfl, rfl⟩, ?_, length',
        shown_record told.sent counter tick accepted, paced'.lower, paced'.upper, ?_⟩
      · rw [List.map_append, readings, handed, List.flatMap_append, List.flatMap_singleton,
          List.map_append]
        rfl
      · intro agreed
        have kept := paced'.shown agreed
        unfold Status.record
        split_ifs <;> exact kept
  obtain ⟨w, sent, run, readings, -, told, paced⟩ := run
  refine ⟨w, sent, run, readings, fun tick _ => mirror_nodup floats tick.snap, told.sent, ?_,
    paced.lower, paced.upper, paced.shown⟩
  constructor
  · intro clear tick last
    by_contra refused
    have error := (told.last tick last).2 refused
    rw [clear] at error
    have length := congrArg String.length error
    rw [String.length_append, String.length_append] at length
    have first : ("sendto failed (" : String).length = 15 := by decide
    have empty : ("" : String).length = 0 := rfl
    omega
  · intro last
    rcases List.eq_nil_or_concat' ticks with rfl | ⟨front, tick, rfl⟩
    · exact told.clear rfl
    · have final : tick ∈ (front ++ [tick]).getLast? := by
        rw [List.getLast?_concat]
        rfl
      exact (told.last tick final).1 (last tick final)

section Refused

def plainFloats : Floats ℕ := { bits := UInt32.ofNat, count := UInt32.ofNat }

/-- A turn of the default snapshot in which the datagrams from the `limit`-th on are refused. -/
def refusing (limit : ℕ) : Tick ℕ where
  version := 0
  newConfig := { enabled := true, host := "127.0.0.1", port := 9000, rateHz := 60 }
  snap := AudioSnapshot.zero ℕ
  buf _ := ⟨List.replicate 256 0xCC, List.length_replicate⟩
  sendto k := decide (k < limit)
  lastError := 10055

/-- After a whole turn and a refused one, one is counted and the error shown. -/
theorem refused_turn_shown :
    ∃ w sent, Machine.run (Worker.step plainFloats) (Worker.start (refusing 0).newConfig
        (refusing 0).newConfig 0 (List.replicate 2048 0xCC)) [refusing 24, refusing 3] =
          some (w, sent) ∧
      w.status.packetsSent = 1 ∧ w.status.lastError ≠ "" ∧ w.status.currentRateHz = w.rateHz := by
  obtain ⟨w, sent, run, -, -, counted, error, -, -, shown⟩ := mirrored_over_runs plainFloats
    (refusing 0).newConfig (refusing 0).newConfig 0 (List.replicate 2048 0xCC)
    List.length_replicate [refusing 24, refusing 3]
  have whole : (refusing 24).Accepted plainFloats := by decide
  have cut : ¬ (refusing 3).Accepted plainFloats := by decide
  refine ⟨w, sent, run, ?_, fun clear => cut (error.mp clear _ rfl), shown rfl⟩
  rw [counted, List.countP_cons, List.countP_singleton, if_neg (by simpa using cut),
    if_pos (decide_eq_true whole)]

end Refused

end Listeningway.Output.OscWorker
