/- Listeningway/Output/OscRoundTrip
   source: src/output/osc_consumer.cpp; samples/osc_receiver.py
   digest: The receiver reads from an array message exactly what the sender put into it. -/

import Listeningway.Output.OscMessage

set_option autoImplicit false
set_option relaxedAutoImplicit false

namespace Listeningway.Output.OscMessage

open Listeningway.Lib.AlignedBytes
open Listeningway.Snapshot

/-! ### What is sent -/

/-- A NUL-free ASCII text. -/
def Plain (text : List Char) : Prop := ∀ c ∈ text, c ≠ '\x00' ∧ c.toNat < 128

instance (text : List Char) : Decidable (Plain text) :=
  inferInstanceAs (Decidable (∀ c ∈ text, c ≠ '\x00' ∧ c.toNat < 128))

/-- `,ff...f`. -/
def fmtChars (count : ℕ) : List Char := ',' :: List.replicate count 'f'

/-- The message as the format lays it out: address, type tags, values. -/
def message (address : List UInt8) (values : List UInt32) : List UInt8 :=
  alignedText address ++ alignedText (bytes (fmtChars values.length)) ++
    values.flatMap bigEndian

theorem bytes_ne_zero {text : List Char} (plain : Plain text) : ∀ b ∈ bytes text, b ≠ 0 := by
  intro b held
  obtain ⟨c, listed, rfl⟩ := List.mem_map.mp held
  obtain ⟨nonzero, small⟩ := plain c listed
  intro zero
  have none : c.toNat % 2 ^ 8 = 0 := congrArg UInt8.toNat zero
  rw [Nat.mod_eq_of_lt (by omega)] at none
  exact nonzero (Char.toNat_inj.mp none)

theorem plain_fmtChars (count : ℕ) : Plain (fmtChars count) := by
  intro c held
  rcases List.mem_cons.mp held with rfl | tag
  · decide
  · rw [List.eq_of_mem_replicate tag]
    decide

theorem bytes_fmtChars (count : ℕ) :
    bytes (fmtChars count) = comma :: List.replicate count tagF := by
  rw [fmtChars, bytes, List.map_cons, List.map_replicate]
  rfl

theorem length_bytes_fmtChars (count : ℕ) : (bytes (fmtChars count)).length = count + 1 := by
  rw [bytes_fmtChars, List.length_cons, List.length_replicate]

theorem strlen_cString {text : List UInt8} (plain : ∀ b ∈ text, b ≠ 0) :
    strlen (text ++ [0]) = text.length := by
  rw [strlen, List.findIdx_append, List.findIdx_eq_length_of_false]
  · simp
  · simpa using plain

theorem putTags_eq (count : ℕ) {scratch : List UInt8} {at' : ℕ}
    (inside : at' + count ≤ scratch.length) :
    putTags scratch at' count = writeAt scratch at' (List.replicate count tagF) := by
  induction count generalizing scratch at' with
  | zero => exact (writeAt_nil _ _).symm
  | succ count ih =>
    have first : at' + [tagF].length ≤ scratch.length := by
      rw [List.length_singleton]
      omega
    have kept : (writeAt scratch at' [tagF]).length = scratch.length := length_writeAt first
    rw [putTags, ih (by omega)]
    exact writeAt_writeAt first _

theorem putFloats_eq (values : List UInt32) {scratch : List UInt8} {at' : ℕ}
    (inside : at' + values.length * 4 ≤ scratch.length) :
    putFloats scratch at' values = writeAt scratch at' (values.flatMap bigEndian) := by
  induction values generalizing scratch at' with
  | nil => exact (writeAt_nil _ _).symm
  | cons v rest ih =>
    rw [List.length_cons] at inside
    have first : at' + (bigEndian v).length ≤ scratch.length := by
      rw [length_bigEndian]
      omega
    have kept : (writeAt scratch at' (bigEndian v)).length = scratch.length := length_writeAt first
    rw [putFloats, littleEndian_byteSwap, ih (by omega), List.flatMap_cons]
    exact writeAt_writeAt first _

theorem length_message (address : List UInt8) (values : List UInt32) :
    (message address values).length =
      roundUp (address.length + 1) + fmtPadded values.length + values.length * 4 := by
  rw [message, List.length_append, List.length_append, length_alignedText, length_alignedText,
    length_flatMap_bigEndian, length_bytes_fmtChars, fmtPadded, Nat.add_comm 1]

theorem tagged_eq (front rest : List UInt8) (count n : ℕ) :
    putTags (writeAt (front ++ (List.replicate (fmtPadded count + n) 0 ++ rest)) front.length
        [comma]) (front.length + 1) count =
      front ++ alignedText (bytes (fmtChars count)) ++ (List.replicate n 0 ++ rest) := by
  have room := le_roundUp (1 + count + 1)
  have padded : fmtPadded count = roundUp ((bytes (fmtChars count)).length + 1) := by
    rw [fmtPadded, length_bytes_fmtChars, Nat.add_comm 1]
  have first : front.length + [comma].length ≤
      (front ++ (List.replicate (fmtPadded count + n) 0 ++ rest)).length := by
    simp only [List.length_append, List.length_replicate, List.length_singleton, fmtPadded]
    omega
  rw [putTags_eq count (by
    rw [length_writeAt first]
    simp only [List.length_append, List.length_replicate, fmtPadded]
    omega)]
  have joined := writeAt_writeAt first (List.replicate count tagF)
  rw [List.length_singleton, List.singleton_append, ← bytes_fmtChars] at joined
  rw [joined, padded, writeAt_text]

theorem valued_eq (front rest : List UInt8) (values : List UInt32) :
    putFloats (front ++ (List.replicate (values.length * 4) 0 ++ rest)) front.length values =
      front ++ values.flatMap bigEndian ++ rest := by
  have exact' := length_flatMap_bigEndian values
  have written := writeAt_zeros front rest exact'.le
  rw [putFloats_eq values (by
    simp only [List.length_append, List.length_replicate]
    omega), written, exact', Nat.sub_self, List.replicate_zero, List.nil_append]

theorem sendFloats_eq {address : List UInt8} (plain : ∀ b ∈ address, b ≠ 0) {values : List UInt32}
    {scratch : List UInt8} (filled : values ≠ [])
    (fits : total (address ++ [0]) values.length ≤ scratch.length) :
    sendFloats (address ++ [0]) values scratch = some (message address values) := by
  have some' : values.length ≠ 0 := fun none => filled (List.length_eq_zero_iff.mp none)
  have text : (address ++ [0]).take (address.length + 1) = address ++ [0] :=
    List.take_of_length_le (by rw [List.length_append, List.length_singleton])
  have front : addrPadded (address ++ [0]) = (alignedText address).length := by
    rw [addrPadded, strlen_cString plain, length_alignedText]
  have behind : addrPadded (address ++ [0]) + fmtPadded values.length =
      (alignedText address ++ alignedText (bytes (fmtChars values.length))).length := by
    rw [front, List.length_append, length_alignedText (bytes _), length_bytes_fmtChars, fmtPadded,
      Nat.add_comm 1]
  have whole : total (address ++ [0]) values.length =
      roundUp (address.length + 1) + (fmtPadded values.length + values.length * 4) := by
    rw [total, addrPadded, strlen_cString plain, Nat.add_assoc]
  have length : (message address values).length = total (address ++ [0]) values.length := by
    rw [length_message, whole, Nat.add_assoc]
  have zeroed : writeAt scratch 0 (List.replicate (total (address ++ [0]) values.length) 0) =
      [] ++ (List.replicate (roundUp (address.length + 1) +
          (fmtPadded values.length + values.length * 4)) 0 ++
        scratch.drop (total (address ++ [0]) values.length)) := by
    rw [writeAt, List.take_zero, List.length_replicate, Nat.zero_add, ← whole, List.append_assoc]
  have addressed := writeAt_terminated [] (scratch.drop (total (address ++ [0]) values.length))
    address (fmtPadded values.length + values.length * 4)
  rw [sendFloats, if_neg some', if_neg (not_lt.mpr fits), strlen_cString plain, text, zeroed]
  rw [List.length_nil] at addressed
  dsimp only
  rw [addressed, List.nil_append, behind, front, tagged_eq, valued_eq, ← length]
  exact congrArg some (List.take_left)

theorem sendFloats_refused {address : List UInt8} {values : List UInt32} {scratch : List UInt8}
    (long : scratch.length < total address values.length) :
    sendFloats address values scratch = none := by
  unfold sendFloats
  by_cases empty : values.length = 0
  · exact if_pos empty
  · exact (if_neg empty).trans (if_pos long)

/-! ### What is received -/

theorem decodeAscii_bytes {text : List Char} (plain : Plain text) :
    decodeAscii (bytes text) = text := by
  rw [decodeAscii, bytes, List.map_map]
  have each : ∀ c ∈ text,
      ((fun b : UInt8 => if b < 128 then Char.ofNat b.toNat else '\uFFFD') ∘
        fun c => UInt8.ofNat c.toNat) c = c := by
    intro c listed
    have small := (plain c listed).2
    have byte : (UInt8.ofNat c.toNat).toNat = c.toNat := by
      rw [UInt8.toNat_ofNat', Nat.mod_eq_of_lt (by omega)]
    have ascii : UInt8.ofNat c.toNat < 128 := by
      rw [UInt8.lt_iff_toNat_lt, byte]
      exact small
    simp only [Function.comp_apply, if_pos ascii, byte, Char.ofNat_toNat]
  rw [List.map_congr_left each, List.map_id']

theorem readString_alignedText {text : List Char} (plain : Plain text) {front : List UInt8}
    (aligned : 4 ∣ front.length) (rest : List UInt8) :
    readString (front ++ (alignedText (bytes text) ++ rest)) front.length =
      some (text, front.length + (alignedText (bytes text)).length) := by
  have stop := findIdx?_alignedText (bytes_ne_zero plain) rest
  have read : (alignedText (bytes text) ++ rest).take (bytes text).length = bytes text := by
    rw [alignedText, List.append_assoc, List.take_left]
  have next : (front.length + (bytes text).length + 4) / 4 * 4 =
      front.length + (alignedText (bytes text)).length := by
    obtain ⟨words, length⟩ := aligned
    rw [length_alignedText, roundUp, length]
    omega
  rw [readString, List.drop_left, stop]
  simp only [read, next, decodeAscii_bytes plain]

theorem unpackFrom_bigEndian (v : UInt32) (front rest : List UInt8) :
    unpackFrom (front ++ (bigEndian v ++ rest)) front.length = some v := by
  rw [unpackFrom, List.drop_left]
  exact congrArg some (ofBigEndian_bytes v)

theorem readValues_floats (values : List UInt32) (front : List UInt8) :
    readValues (front ++ values.flatMap bigEndian) (List.replicate values.length 'f')
        front.length =
      some (values.map .float, (front ++ values.flatMap bigEndian).length) := by
  induction values generalizing front with
  | nil => simp [readValues]
  | cons v rest ih =>
    have next := ih (front ++ bigEndian v)
    rw [List.length_append, length_bigEndian, List.append_assoc] at next
    rw [List.length_cons, List.replicate_succ, List.flatMap_cons, readValues,
      unpackFrom_bigEndian, Option.bind_eq_bind, Option.bind_some, next]
    rfl

theorem readString_address {address : List Char} (plain : Plain address) (values : List UInt32) :
    readString (message (bytes address) values) 0 =
      some (address, (alignedText (bytes address)).length) := by
  have start : 4 ∣ ([] : List UInt8).length := Nat.dvd_zero 4
  have read := readString_alignedText plain start
    (alignedText (bytes (fmtChars values.length)) ++ values.flatMap bigEndian)
  rw [List.nil_append, List.length_nil, Nat.zero_add, ← List.append_assoc] at read
  exact read

theorem readString_tags (address : List Char) (values : List UInt32) :
    readString (message (bytes address) values) (alignedText (bytes address)).length =
      some (fmtChars values.length,
        (alignedText (bytes address) ++ alignedText (bytes (fmtChars values.length))).length) := by
  have aligned : 4 ∣ (alignedText (bytes address)).length := by
    rw [length_alignedText]
    exact four_dvd_roundUp _
  rw [message, List.append_assoc, readString_alignedText (plain_fmtChars _) aligned,
    List.length_append]

theorem parse_message {address : List Char} (plain : Plain address) {values : List UInt32}
    (filled : values ≠ []) :
    parseOscMessage (message (bytes address) values) =
      some ⟨String.ofList address, String.ofList (fmtChars values.length), values.map .float,
        (message (bytes address) values).length⟩ := by
  have some' : 0 < values.length := List.length_pos_iff.mpr filled
  have more : ¬ (message (bytes address) values).length ≤ (alignedText (bytes address)).length := by
    rw [length_message, length_alignedText]
    omega
  have tagRead := readString_tags address values
  have valuesRead := readValues_floats values
    (alignedText (bytes address) ++ alignedText (bytes (fmtChars values.length)))
  rw [parseOscMessage, readString_address plain]
  simp only [Option.bind_eq_bind, Option.bind_some, if_neg more, tagRead]
  rw [fmtChars] at valuesRead ⊢
  simp only
  rw [message]
  simp only [fmtChars, valuesRead, Option.bind_some, Option.pure_def]

/-! ### The messages of the worker -/

theorem total_freqbands (count : ℕ) :
    total (cString freqbandsAddress) count = 24 + fmtPadded count + count * 4 := by
  have address : addrPadded (cString freqbandsAddress) = 24 := by decide
  rw [total, address]

theorem total_direction8 (count : ℕ) :
    total (cString direction8Address) count = 28 + fmtPadded count + count * 4 := by
  have address : addrPadded (cString direction8Address) = 28 := by decide
  rw [total, address]

theorem total_worker_le {address : String} (used : address ∈ [freqbandsAddress, direction8Address])
    {count : ℕ} (bounded : count ≤ kMaxBands) :
    total (cString address) count ≤ kMaxPacketBytes := by
  have padded : fmtPadded count ≤ 1 + count + 1 + 3 := roundUp_le _
  unfold kMaxBands at bounded
  unfold kMaxPacketBytes
  rcases List.mem_pair.mp used with rfl | rfl
  · rw [total_freqbands]
    omega
  · rw [total_direction8]
    omega

theorem workerArrays_bounded {K : Type} (bits : K → UInt32) (snap : AudioSnapshot K)
    {call : String × List UInt32} (made : call ∈ workerArrays bits snap) :
    call.1 ∈ [freqbandsAddress, direction8Address] ∧ call.2.length ≤ kMaxBands := by
  rcases List.mem_append.mp made with bands | direction
  · split_ifs at bands
    · rw [List.mem_singleton.mp bands]
      refine ⟨List.mem_cons_self, ?_⟩
      rw [List.length_take, List.length_ofFn]
      exact min_le_right _ _
    · cases bands
  · rw [List.mem_singleton.mp direction]
    refine ⟨List.mem_cons_of_mem _ List.mem_cons_self, ?_⟩
    rw [List.length_ofFn]
    decide

/-- What `send_floats` hands over is a multiple of four bytes long, and the receiver reads from
it the address, one tag a value and the values, and uses it up; what does not fit the scratch
buffer is not sent; and every message of the worker fits. -/
theorem array_messages_round_trip :
    (∀ (address : String) (values : List UInt32) (scratch : List UInt8),
      Plain address.toList → values ≠ [] →
      total (cString address) values.length ≤ scratch.length →
      ∃ datagram, sendFloats (cString address) values scratch = some datagram ∧
        4 ∣ datagram.length ∧
        parseOscMessage datagram =
          some ⟨address, String.ofList (fmtChars values.length), values.map .float,
            datagram.length⟩) ∧
    (∀ (address values scratch), scratch.length < total address values.length →
      sendFloats address values scratch = none) ∧
    (∀ address ∈ [freqbandsAddress, direction8Address], ∀ count ≤ kMaxBands,
      total (cString address) count ≤ kMaxPacketBytes) ∧
    ∀ {K : Type} (bits : K → UInt32) (snap : AudioSnapshot K),
      ∀ call ∈ workerArrays bits snap,
        call.1 ∈ [freqbandsAddress, direction8Address] ∧ call.2.length ≤ kMaxBands := by
  refine ⟨?_, fun address values scratch long => sendFloats_refused long,
    fun address used count bounded => total_worker_le used bounded,
    fun bits snap call made => workerArrays_bounded bits snap made⟩
  intro address values scratch plain filled fits
  refine ⟨message (bytes address.toList) values, sendFloats_eq (bytes_ne_zero plain) filled fits,
    ?_, ?_⟩
  · rw [length_message, fmtPadded]
    have addressed := four_dvd_roundUp ((bytes address.toList).length + 1)
    have tagged := four_dvd_roundUp (1 + values.length + 1)
    exact Nat.dvd_add (Nat.dvd_add addressed tagged) (Dvd.intro_left values.length rfl)
  · rw [parse_message plain filled, String.ofList_toList]

theorem plain_short : Plain "/a".toList := by
  intro c listed
  have cases : c = '/' ∨ c = 'a' := by simpa using listed
  rcases cases with rfl | rfl
  · constructor <;> decide
  · constructor <;> decide

/-- Five values fill a scratch buffer that still holds other bytes to its end, and are not sent
from one that is a byte shorter. -/
theorem five_floats_round_trip :
    let values := [0x3F800000, 0x00000000, 0xBF000000, 0x7FC00000, 0x42280000]
    (∃ datagram, sendFloats (cString "/a") values (List.replicate 32 0xAA) = some datagram ∧
      4 ∣ datagram.length ∧
      parseOscMessage datagram =
        some ⟨"/a", ",fffff", values.map .float, datagram.length⟩) ∧
      sendFloats (cString "/a") values (List.replicate 31 0xAA) = none := by
  intro values
  obtain ⟨sent, refused, -⟩ := array_messages_round_trip
  exact ⟨sent "/a" values (List.replicate 32 0xAA) plain_short (List.cons_ne_nil _ _) (by decide),
    refused (cString "/a") values (List.replicate 31 0xAA) (by decide)⟩

end Listeningway.Output.OscMessage
