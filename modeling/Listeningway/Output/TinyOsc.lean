/- Listeningway/Output/TinyOsc
   source: third_party/tinyosc/tinyosc.c; samples/osc_receiver.py
   digest: The message writer of tinyosc, and what the sample receiver reads from its messages. -/

import Listeningway.Output.OscRoundTrip
import Mathlib.Algebra.BigOperators.Ring.List

/-!
A `char*` is its characters up to the NUL, and the arguments are the ones that the format asks
for. `strncpy_s` leaves alone what stands behind the NUL.
-/

set_option autoImplicit false
set_option relaxedAutoImplicit false

namespace Listeningway.Output.TinyOsc

open Listeningway.Lib.AlignedBytes
open Listeningway.Output.OscMessage

/-! ### The writer -/

/-- An argument with the format character that it is taken by; 'T' and 'F' are `truth`. -/
inductive Arg where
  | blob (data : List UInt8)
  | float (f : UInt32)
  | double (f : UInt64)
  | int32 (k : UInt32)
  | midi (k : UInt32)
  | timetag (k : UInt64)
  | int64 (k : UInt64)
  | string (str : List UInt8)
  | truth (b : Bool)
  | nil
  | infinitum
  deriving DecidableEq

def Arg.letter : Arg → Char
  | blob _ => 'b'
  | float _ => 'f'
  | double _ => 'd'
  | int32 _ => 'i'
  | midi _ => 'm'
  | timetag _ => 't'
  | int64 _ => 'h'
  | string _ => 's'
  | truth true => 'T'
  | truth false => 'F'
  | nil => 'N'
  | infinitum => 'I'

/-- `htonll` in memory. -/
def bigEndian64 (u : UInt64) : List UInt8 :=
  bigEndian (UInt32.ofNat (u.toNat / 2 ^ 32)) ++ bigEndian (UInt32.ofNat u.toNat)

/-- A store into the buffer; nothing when it goes outside. -/
def store (buffer : List UInt8) (i : ℕ) (data : List UInt8) : Option (List UInt8) :=
  if i + data.length ≤ buffer.length then some (writeAt buffer i data) else none

/-- `strncpy_s(buffer + i, size, text, _TRUNCATE)`. -/
def tosc_strncpy (buffer : List UInt8) (i size : ℕ) (text : List UInt8) : Option (List UInt8) :=
  store buffer i (text.take (size - 1) ++ [0])

/-- What a part of the writer comes to: the error it returns, or the buffer and the index. -/
abbrev Written := Except ℤ (List UInt8 × ℕ)

/-- A case of a fixed size. -/
def putFixed (buffer : List UInt8) (i : ℕ) (data : List UInt8) : Option Written := do
  if i + data.length > buffer.length then return .error (-3)
  let buffer ← store buffer i data
  return .ok (buffer, i + data.length)

/-- The switch over the format character. -/
def putArg (buffer : List UInt8) (i : ℕ) : Arg → Option Written
  | .blob data => do
    if i + 4 + data.length > buffer.length then return .error (-3)
    let buffer ← store buffer i (bigEndian (UInt32.ofNat data.length))
    let buffer ← store buffer (i + 4) data
    return .ok (buffer, (i + 4 + 3 + data.length) / 4 * 4)
  | .float f => putFixed buffer i (bigEndian f)
  | .double f => putFixed buffer i (bigEndian64 f)
  | .int32 k => putFixed buffer i (bigEndian k)
  | .midi k => putFixed buffer i (bigEndian k)
  | .timetag k | .int64 k => putFixed buffer i (bigEndian64 k)
  | .string str => do
    if i + str.length ≥ buffer.length then return .error (-3)
    let buffer ← tosc_strncpy buffer i (buffer.length - i - str.length) str
    return .ok (buffer, (i + 4 + str.length) / 4 * 4)
  | .truth _ | .nil | .infinitum => some (.ok (buffer, i))

/-- The loop over the format. -/
def putArgs (buffer : List UInt8) (i : ℕ) : List Arg → Option Written
  | [] => some (.ok (buffer, i))
  | arg :: args => do
    match ← putArg buffer i arg with
    | .error code => return .error code
    | .ok (buffer, i) => putArgs buffer i args

def format (args : List Arg) : List UInt8 := bytes (args.map Arg.letter)

def tosc_vwrite (buffer address : List UInt8) (args : List Arg) : Option Written := do
  let len := buffer.length
  let i := address.length
  if i ≥ len then return .error (-1)
  let buffer ← tosc_strncpy (List.replicate len 0) 0 len address
  let i := (i + 4) / 4 * 4
  let buffer ← store buffer i [comma]
  let i := i + 1
  let s_len := (format args).length
  if i + s_len ≥ len then return .error (-2)
  let buffer ← tosc_strncpy buffer i (len - i - s_len) (format args)
  putArgs buffer ((i + 4 + s_len) / 4 * 4) args

/-- `send_f1` up to the `sendto`: the bytes it is handed, nothing when it is not reached with a
message. -/
def sendF1 (buf address : List UInt8) (v : UInt32) : Option (List UInt8) :=
  match tosc_vwrite buf address [.float v] with
  | some (.ok (buf, n)) => if n = 0 then none else some (buf.take n)
  | _ => none

/-! ### The layout of a message -/

/-- The data of an argument. -/
def Arg.data : Arg → List UInt8
  | blob data => bigEndian (UInt32.ofNat data.length) ++ data ++
      List.replicate (roundUp data.length - data.length) 0
  | float f => bigEndian f
  | double f => bigEndian64 f
  | int32 k => bigEndian k
  | midi k => bigEndian k
  | timetag k => bigEndian64 k
  | int64 k => bigEndian64 k
  | string str => alignedText str
  | truth _ => []
  | nil => []
  | infinitum => []

def layout (address : List UInt8) (args : List Arg) : List UInt8 :=
  alignedText address ++ alignedText (comma :: format args) ++ args.flatMap Arg.data

/-- The room that the writer asks for at an index: its own for a text, as the size it passes to
`strncpy_s` counts the text twice. -/
def Arg.Room (len i : ℕ) : Arg → Prop
  | string str => i + str.length + (str.length + 1) ≤ len
  | blob data => i + 4 + data.length ≤ len
  | arg => i + arg.data.length ≤ len

def RoomFor (len : ℕ) : ℕ → List Arg → Prop
  | _, [] => True
  | i, arg :: args => arg.Room len i ∧ RoomFor len (i + arg.data.length) args

/-- The room for a whole message. -/
structure Fits (len : ℕ) (address : List UInt8) (args : List Arg) : Prop where
  tags : roundUp (address.length + 1) + 1 + args.length + (args.length + 1) ≤ len
  args : RoomFor len (roundUp (address.length + 1) + roundUp (args.length + 2)) args

/-! ### What is written -/

theorem roundUp_le_of_dvd {m n : ℕ} (aligned : 4 ∣ n) (le : m ≤ n) : roundUp m ≤ n := by
  obtain ⟨words, rfl⟩ := aligned
  unfold roundUp
  omega

theorem roundUp_add {i : ℕ} (aligned : 4 ∣ i) (n : ℕ) : roundUp (i + n) = i + roundUp n := by
  obtain ⟨words, rfl⟩ := aligned
  unfold roundUp
  omega

theorem length_blob (data : List UInt8) :
    (Arg.blob data).data.length = 4 + roundUp data.length := by
  have room := le_roundUp data.length
  simp only [Arg.data, List.length_append, List.length_replicate, length_bigEndian]
  omega

theorem four_dvd_data (arg : Arg) : 4 ∣ arg.data.length := by
  cases arg with
  | blob data =>
    rw [length_blob]
    exact Nat.dvd_add (Nat.dvd_refl 4) (four_dvd_roundUp _)
  | string str =>
    rw [Arg.data, length_alignedText]
    exact four_dvd_roundUp _
  | float | int32 | midi => exact Nat.dvd_refl 4
  | double | timetag | int64 => exact ⟨2, rfl⟩
  | truth | nil | infinitum => exact Nat.dvd_zero 4

section Zeros

variable (front : List UInt8) {n : ℕ}

theorem store_zeros {data : List UInt8} (fits : data.length ≤ n) :
    store (front ++ List.replicate n 0) front.length data =
      some (front ++ data ++ List.replicate (n - data.length) 0) := by
  have written := writeAt_zeros front [] fits
  rw [List.append_nil, List.append_nil] at written
  rw [store, if_pos (by rw [List.length_append, List.length_replicate]; omega), written]

theorem strncpy_zeros {text : List UInt8} {size : ℕ} (whole : text.length < size)
    (fits : roundUp (text.length + 1) ≤ n) :
    tosc_strncpy (front ++ List.replicate n 0) front.length size text =
      some (front ++ alignedText text ++ List.replicate (n - (alignedText text).length) 0) := by
  have room := le_roundUp (text.length + 1)
  have inside : front.length + (text ++ [0]).length ≤
      (front ++ List.replicate n 0).length := by
    simp only [List.length_append, List.length_replicate, List.length_singleton]
    omega
  have written := writeAt_terminated front [] text (n - roundUp (text.length + 1))
  rw [List.append_nil, List.append_nil, Nat.add_sub_cancel' fits] at written
  rw [tosc_strncpy, List.take_of_length_le (by omega), store, if_pos inside, written,
    length_alignedText]

theorem store_tags {text : List UInt8} {size : ℕ} (whole : text.length < size)
    (fits : roundUp (text.length + 2) ≤ n) :
    ∃ buffer, store (front ++ List.replicate n 0) front.length [comma] = some buffer ∧
      tosc_strncpy buffer (front.length + 1) size text =
        some (front ++ alignedText (comma :: text) ++
          List.replicate (n - (alignedText (comma :: text)).length) 0) := by
  have room := le_roundUp (text.length + 2)
  have length : (front ++ List.replicate n (0 : UInt8)).length = front.length + n := by
    rw [List.length_append, List.length_replicate]
  have first : front.length + [comma].length ≤ (front ++ List.replicate n 0).length := by
    rw [length, List.length_singleton]
    omega
  have second : front.length + 1 + (text ++ [0]).length ≤
      (writeAt (front ++ List.replicate n 0) front.length [comma]).length := by
    rw [length_writeAt first, length, List.length_append, List.length_singleton]
    omega
  have joined := writeAt_writeAt first (text ++ [0])
  have written := writeAt_terminated front [] (comma :: text) (n - roundUp (text.length + 2))
  rw [List.append_nil, List.append_nil, List.length_cons, Nat.add_sub_cancel' fits] at written
  refine ⟨_, by rw [store, if_pos first], ?_⟩
  rw [tosc_strncpy, List.take_of_length_le (by omega), store, if_pos second]
  refine congrArg some (joined.trans ?_)
  rw [length_alignedText, List.length_cons]
  exact written

theorem putFixed_zeros {data : List UInt8} (fits : data.length ≤ n) :
    putFixed (front ++ List.replicate n 0) front.length data =
      some (.ok (front ++ data ++ List.replicate (n - data.length) 0,
        front.length + data.length)) := by
  have inside : ¬ front.length + data.length > (front ++ List.replicate n (0 : UInt8)).length := by
    rw [List.length_append, List.length_replicate]
    omega
  rw [putFixed, if_neg inside, store_zeros front fits]
  rfl

theorem putArg_zeros (aligned : 4 ∣ front.length) (words : 4 ∣ n) {arg : Arg}
    (room : arg.Room (front.length + n) front.length) :
    arg.data.length ≤ n ∧ putArg (front ++ List.replicate n 0) front.length arg =
      some (.ok (front ++ arg.data ++ List.replicate (n - arg.data.length) 0,
        front.length + arg.data.length)) := by
  have whole : (front ++ List.replicate n (0 : UInt8)).length = front.length + n := by
    rw [List.length_append, List.length_replicate]
  have fixed : ∀ data : List UInt8, front.length + data.length ≤ front.length + n →
      data.length ≤ n ∧ putFixed (front ++ List.replicate n 0) front.length data =
        some (.ok (front ++ data ++ List.replicate (n - data.length) 0,
          front.length + data.length)) := fun data le =>
    ⟨Nat.le_of_add_le_add_left le, putFixed_zeros front (Nat.le_of_add_le_add_left le)⟩
  cases arg with
  | float f => exact fixed (bigEndian f) room
  | double f => exact fixed (bigEndian64 f) room
  | int32 k => exact fixed (bigEndian k) room
  | midi k => exact fixed (bigEndian k) room
  | timetag k => exact fixed (bigEndian64 k) room
  | int64 k => exact fixed (bigEndian64 k) room
  | truth | nil | infinitum =>
    exact ⟨Nat.zero_le n, by rw [putArg, Arg.data, List.append_nil]; rfl⟩
  | string str =>
    have asked : front.length + str.length + (str.length + 1) ≤ front.length + n := room
    have fits : roundUp (str.length + 1) ≤ n := roundUp_le_of_dvd words (by omega)
    have next : (front.length + 4 + str.length) / 4 * 4 =
        front.length + roundUp (str.length + 1) := by
      rw [← roundUp_add aligned, roundUp]
      congr 2
      omega
    refine ⟨by rwa [Arg.data, length_alignedText], ?_⟩
    rw [putArg, whole, if_neg (by omega), strncpy_zeros front (by omega) fits, Arg.data,
      length_alignedText, next]
    rfl
  | blob data =>
    have asked : front.length + 4 + data.length ≤ front.length + n := room
    have fits : 4 + roundUp data.length ≤ n := by
      have le := roundUp_le_of_dvd (m := 4 + data.length) words (by omega)
      rwa [roundUp_add (Nat.dvd_refl 4)] at le
    have room := le_roundUp data.length
    have next : (front.length + 4 + 3 + data.length) / 4 * 4 =
        front.length + (4 + roundUp data.length) := by
      rw [← Nat.add_assoc, ← roundUp_add (Nat.dvd_add aligned (Nat.dvd_refl 4)), roundUp]
      congr 2
      omega
    have first : (bigEndian (UInt32.ofNat data.length)).length ≤ n := by
      rw [length_bigEndian]
      omega
    have behind : data.length ≤ n - 4 := by omega
    have second := store_zeros (front ++ bigEndian (UInt32.ofNat data.length)) behind
    have padding : List.replicate (n - 4 - data.length) (0 : UInt8) =
        List.replicate (roundUp data.length - data.length) 0 ++
          List.replicate (n - (4 + roundUp data.length)) 0 := by
      rw [← List.replicate_add]
      congr 1
      omega
    rw [List.length_append, length_bigEndian, padding] at second
    refine ⟨by rwa [length_blob], ?_⟩
    rw [putArg, whole, if_neg (by omega), store_zeros front first, length_bigEndian]
    dsimp only [Option.bind_eq_bind, Option.bind_some]
    rw [second, next, length_blob]
    simp only [Arg.data, List.append_assoc]
    rfl

end Zeros

theorem putArgs_zeros {front : List UInt8} {n : ℕ} (aligned : 4 ∣ front.length) (words : 4 ∣ n)
    {args : List Arg} (room : RoomFor (front.length + n) front.length args) :
    (args.flatMap Arg.data).length ≤ n ∧
      putArgs (front ++ List.replicate n 0) front.length args =
        some (.ok (front ++ args.flatMap Arg.data ++
          List.replicate (n - (args.flatMap Arg.data).length) 0,
          front.length + (args.flatMap Arg.data).length)) := by
  induction args generalizing front n with
  | nil => exact ⟨Nat.zero_le n, by simp [putArgs]⟩
  | cons arg args ih =>
    obtain ⟨here, there⟩ := room
    obtain ⟨fits, written⟩ := putArg_zeros front aligned words here
    have whole : front.length + n = (front ++ arg.data).length + (n - arg.data.length) := by
      rw [List.length_append]
      omega
    have index : front.length + arg.data.length = (front ++ arg.data).length :=
      List.length_append.symm
    rw [whole, index] at there
    obtain ⟨fits', rest⟩ := ih (index ▸ Nat.dvd_add aligned (four_dvd_data arg))
      (Nat.dvd_sub words (four_dvd_data arg)) there
    rw [List.flatMap_cons, List.length_append, putArgs, written]
    refine ⟨by omega, ?_⟩
    simp only [Option.bind_eq_bind, Option.bind_some]
    rw [index, rest, List.length_append, List.append_assoc front, Nat.sub_sub, Nat.add_assoc]

theorem length_format (args : List Arg) : (format args).length = args.length := by
  rw [format, bytes, List.length_map, List.length_map]

theorem length_layout_front (address : List UInt8) (args : List Arg) :
    (alignedText address ++ alignedText (comma :: format args)).length =
      roundUp (address.length + 1) + roundUp (args.length + 2) := by
  rw [List.length_append, length_alignedText, length_alignedText, List.length_cons, length_format]

theorem vwrite_layout {buffer address : List UInt8} {args : List Arg} (words : 4 ∣ buffer.length)
    (fits : Fits buffer.length address args) :
    (layout address args).length ≤ buffer.length ∧
      tosc_vwrite buffer address args = some (.ok (layout address args ++
        List.replicate (buffer.length - (layout address args).length) 0,
        (layout address args).length)) := by
  have tags := fits.tags
  have addressed := le_roundUp (address.length + 1)
  have count := length_format args
  have index : (address.length + 4) / 4 * 4 = (alignedText address).length := by
    rw [length_alignedText, roundUp]
  have aligned : 4 ∣ (alignedText address).length := by
    rw [length_alignedText]
    exact four_dvd_roundUp _
  have room : (alignedText address).length + 1 + args.length + (args.length + 1) ≤
      buffer.length := by
    rwa [length_alignedText]
  have room' : roundUp ((format args).length + 2) ≤
      buffer.length - (alignedText address).length :=
    roundUp_le_of_dvd (Nat.dvd_sub words aligned) (by omega)
  have whole : address.length < buffer.length := by omega
  have padded : roundUp (address.length + 1) ≤ buffer.length := by
    rw [← length_alignedText]
    omega
  have first := strncpy_zeros [] whole padded
  have untrimmed : (format args).length <
      buffer.length - ((alignedText address).length + 1) - (format args).length := by omega
  obtain ⟨tagged, comma', tags'⟩ := store_tags (alignedText address) untrimmed room'
  have front := length_layout_front address args
  have tagLength : (alignedText (comma :: format args)).length =
      roundUp ((format args).length + 2) := by
    rw [length_alignedText, List.length_cons]
  have split : buffer.length = (alignedText address ++
      alignedText (comma :: format args)).length + (buffer.length - (alignedText address).length -
        (alignedText (comma :: format args)).length) := by
    rw [List.length_append, tagLength]
    omega
  have next : ((alignedText address).length + 1 + 4 + (format args).length) / 4 * 4 =
      (alignedText address ++ alignedText (comma :: format args)).length := by
    rw [front, ← length_alignedText, ← roundUp_add aligned, roundUp, count]
    congr 2
    omega
  have words' : 4 ∣ buffer.length - (alignedText address).length -
      (alignedText (comma :: format args)).length := by
    refine Nat.dvd_sub (Nat.dvd_sub words aligned) ?_
    rw [length_alignedText]
    exact four_dvd_roundUp _
  have argsRoom := fits.args
  rw [← front, split] at argsRoom
  have aligned' : 4 ∣ (alignedText address ++ alignedText (comma :: format args)).length := by
    rw [front]
    exact Nat.dvd_add (four_dvd_roundUp _) (four_dvd_roundUp _)
  obtain ⟨fits', rest⟩ := putArgs_zeros aligned' words' argsRoom
  have length : (layout address args).length =
      (alignedText address ++ alignedText (comma :: format args)).length +
        (args.flatMap Arg.data).length := List.length_append
  refine ⟨by omega, ?_⟩
  rw [List.nil_append, List.length_nil, List.nil_append] at first
  unfold tosc_vwrite
  dsimp only
  rw [if_neg (by omega), first]
  dsimp only [Option.bind_eq_bind, Option.bind_some]
  rw [index, comma']
  dsimp only [Option.bind_some]
  rw [if_neg (by omega), tags']
  dsimp only [Option.bind_some]
  have left : buffer.length - (alignedText address).length -
        (alignedText (comma :: format args)).length - (args.flatMap Arg.data).length =
      buffer.length - ((alignedText address ++ alignedText (comma :: format args)).length +
        (args.flatMap Arg.data).length) := by omega
  rw [next, rest, length, layout, left]

/-! ### What is received -/

/-- What the receiver makes of an argument; it stops at the others. -/
def Arg.value : Arg → Option Value
  | float f => some (.float f)
  | int32 k => some (.int ((k.toNat : ℤ).bmod (2 ^ 32)))
  | string str => some (.str (String.ofList (decodeAscii str)))
  | truth b => some (.bool b)
  | nil => some .none
  | infinitum => some .inf
  | blob _ | double _ | midi _ | timetag _ | int64 _ => none

/-- The arguments that the receiver takes, the texts as they are in memory. -/
def Arg.Readable (arg : Arg) : Prop :=
  arg.value.isSome ∧ ∀ str, arg = .string str → ∀ b ∈ str, b ≠ 0

theorem readString_text {text : List UInt8} (ended : ∀ b ∈ text, b ≠ 0) {front : List UInt8}
    (aligned : 4 ∣ front.length) (rest : List UInt8) :
    readString (front ++ (alignedText text ++ rest)) front.length =
      some (decodeAscii text, front.length + (alignedText text).length) := by
  have stop := findIdx?_alignedText ended rest
  have read : (alignedText text ++ rest).take text.length = text := by
    rw [alignedText, List.append_assoc, List.take_left]
  have next : (front.length + text.length + 4) / 4 * 4 =
      front.length + (alignedText text).length := by
    obtain ⟨words, length⟩ := aligned
    rw [length_alignedText, roundUp, length]
    omega
  rw [readString, List.drop_left, stop]
  simp only [read, next]

theorem readValues_args {args : List Arg} (readable : ∀ arg ∈ args, arg.Readable)
    {front : List UInt8} (aligned : 4 ∣ front.length) :
    readValues (front ++ args.flatMap Arg.data) (args.map Arg.letter) front.length =
      some (args.filterMap Arg.value, (front ++ args.flatMap Arg.data).length) := by
  induction args generalizing front with
  | nil => simp [readValues]
  | cons arg args ih =>
    obtain ⟨⟨taken, ended⟩, others⟩ := List.forall_mem_cons.mp readable
    have aligned' : 4 ∣ (front ++ arg.data).length := by
      rw [List.length_append]
      exact Nat.dvd_add aligned (four_dvd_data arg)
    have rest := ih others aligned'
    rw [List.length_append, List.append_assoc] at rest
    rw [List.map_cons, List.flatMap_cons]
    cases arg with
    | float f | int32 k =>
      rw [Arg.letter, readValues, Arg.data, unpackFrom_bigEndian, Option.bind_eq_bind,
        Option.bind_some]
      rw [Arg.data, length_bigEndian] at rest
      rw [rest]
      rfl
    | string str =>
      rw [Arg.letter, readValues, Arg.data, readString_text (ended str rfl) aligned,
        Option.bind_eq_bind, Option.bind_some]
      rw [Arg.data] at rest
      dsimp only
      rw [rest]
      rfl
    | truth b =>
      cases b with
      | true | false =>
        rw [Arg.letter, readValues, Arg.data, List.nil_append]
        rw [Arg.data, List.length_nil, Nat.add_zero, List.nil_append] at rest
        rw [rest]
        rfl
    | nil | infinitum =>
      rw [Arg.letter, readValues, Arg.data, List.nil_append]
      rw [Arg.data, List.length_nil, Nat.add_zero, List.nil_append] at rest
      rw [rest]
      rfl
    | blob | double | midi | timetag | int64 => cases taken

def tags (args : List Arg) : List Char := ',' :: args.map Arg.letter

theorem plain_tags (args : List Arg) : Plain (tags args) := by
  intro c listed
  rcases List.mem_cons.mp listed with rfl | letter
  · decide
  · obtain ⟨arg, -, rfl⟩ := List.mem_map.mp letter
    cases arg with
    | truth b => cases b <;> decide
    | _ =>
      rw [Arg.letter]
      decide

theorem bytes_tags (args : List Arg) : bytes (tags args) = comma :: format args := rfl

theorem parse_layout {address : List UInt8} (ended : ∀ b ∈ address, b ≠ 0) {args : List Arg}
    (readable : ∀ arg ∈ args, arg.Readable) :
    parseOscMessage (layout address args) =
      some ⟨String.ofList (decodeAscii address), String.ofList (tags args),
        args.filterMap Arg.value, (layout address args).length⟩ := by
  have aligned : 4 ∣ (alignedText address).length := by
    rw [length_alignedText]
    exact four_dvd_roundUp _
  have aligned' : 4 ∣ (alignedText address ++ alignedText (comma :: format args)).length := by
    rw [length_layout_front]
    exact Nat.dvd_add (four_dvd_roundUp _) (four_dvd_roundUp _)
  have addressRead : readString (layout address args) 0 =
      some (decodeAscii address, (alignedText address).length) := by
    have start : 4 ∣ ([] : List UInt8).length := Nat.dvd_zero 4
    have read := readString_text ended start
      (alignedText (comma :: format args) ++ args.flatMap Arg.data)
    rwa [List.nil_append, List.length_nil, Nat.zero_add, ← List.append_assoc] at read
  have tagsRead : readString (layout address args) (alignedText address).length =
      some (tags args,
        (alignedText address ++ alignedText (comma :: format args)).length) := by
    have read := readString_alignedText (plain_tags args) aligned (args.flatMap Arg.data)
    rwa [bytes_tags, ← List.append_assoc, ← List.length_append] at read
  have valuesRead := readValues_args readable aligned'
  have more : ¬ (layout address args).length ≤ (alignedText address).length := by
    have some' := le_roundUp (args.length + 2)
    rw [layout, List.length_append, length_layout_front, length_alignedText]
    omega
  rw [parseOscMessage, addressRead]
  simp only [Option.bind_eq_bind, Option.bind_some, if_neg more, tagsRead]
  rw [tags, layout]
  simp only [valuesRead, Option.bind_some, Option.pure_def]

end Listeningway.Output.TinyOsc
