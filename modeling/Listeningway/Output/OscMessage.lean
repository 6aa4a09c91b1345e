/- Listeningway/Output/OscMessage
   source: src/output/osc_consumer.cpp; samples/osc_receiver.py
   digest: The array messages of the OSC sender, and the parser of the sample receiver. -/

import Listeningway.Lib.AlignedBytes
import Listeningway.Snapshot.AudioSnapshot
import Mathlib.Data.List.OfFn

/-!
A `float` is the pattern of its 32 bits, as the sender puts it on the wire. A `char*` is the
memory from where it points on.
-/

set_option autoImplicit false
set_option relaxedAutoImplicit false

namespace Listeningway.Output.OscMessage

open Listeningway.Lib.AlignedBytes
open Listeningway.Snapshot

/-! ### The sender -/

def kMaxPacketBytes : ℕ := 2048

def comma : UInt8 := 0x2C

def tagF : UInt8 := 0x66

def strlen (address : List UInt8) : ℕ := address.findIdx (· = 0)

def addrPadded (address : List UInt8) : ℕ := roundUp (strlen address + 1)

def fmtPadded (count : ℕ) : ℕ := roundUp (1 + count + 1)

def total (address : List UInt8) (count : ℕ) : ℕ :=
  addrPadded address + fmtPadded count + count * 4

/-- The loop over the type tags. -/
def putTags (scratch : List UInt8) (at' : ℕ) : ℕ → List UInt8
  | 0 => scratch
  | count + 1 => putTags (writeAt scratch at' [tagF]) (at' + 1) count

/-- The loop over the values; `htonl` on a host that stores the lowest byte first. -/
def putFloats (scratch : List UInt8) (at' : ℕ) : List UInt32 → List UInt8
  | [] => scratch
  | v :: rest => putFloats (writeAt scratch at' (littleEndian (byteSwap v))) (at' + 4) rest

/-- `send_floats` up to the `sendto`: the bytes it is handed, nothing when it is not reached. -/
def sendFloats (address : List UInt8) (values : List UInt32) (scratch : List UInt8) :
    Option (List UInt8) :=
  let count := values.length
  if count = 0 then none
  else if scratch.length < total address count then none
  else
    let fmt := addrPadded address
    let data := addrPadded address + fmtPadded count
    let zeroed := writeAt scratch 0 (List.replicate (total address count) 0)
    let addressed := writeAt zeroed 0 (address.take (strlen address + 1))
    let tagged := putTags (writeAt addressed fmt [comma]) (fmt + 1) count
    some ((putFloats tagged data values).take (total address count))

def freqbandsAddress : String := "/listeningway/freqbands"

def direction8Address : String := "/listeningway/direction8"

/-- The code points of a text as bytes. -/
def bytes (text : List Char) : List UInt8 := text.map fun c => UInt8.ofNat c.toNat

/-- A string literal in memory. -/
def cString (text : String) : List UInt8 := bytes text.toList ++ [0]

section Worker

variable {K : Type}

/-- The calls of `send_floats` in one round of `worker_main`, `bits` being the pattern of a
float. -/
def workerArrays (bits : K → UInt32) (snap : AudioSnapshot K) : List (String × List UInt32) :=
  let nb := min snap.freqBandCount kMaxBands
  (if 0 < nb then
    [(freqbandsAddress, (List.ofFn fun i => bits (snap.freqBands i)).take nb)] else []) ++
  [(direction8Address, List.ofFn fun i => bits (snap.direction8 i))]

end Worker

/-! ### The receiver -/

/-- The Python values in the list of a message. -/
inductive Value where
  | float (pattern : UInt32)
  | int (i : ℤ)
  | str (s : String)
  | bool (b : Bool)
  | none
  | inf
  | unhandled (tag : Char)
  deriving DecidableEq

/-- `decode("ascii", errors="replace")`. -/
def decodeAscii (text : List UInt8) : List Char :=
  text.map fun b => if b < 128 then Char.ofNat b.toNat else '\uFFFD'

/-- `_read_string`; `index` throws when there is no NUL. -/
def readString (buf : List UInt8) (offset : ℕ) : Option (List Char × ℕ) :=
  match (buf.drop offset).findIdx? (· = 0) with
  | some length =>
    let stop := offset + length
    some (decodeAscii ((buf.drop offset).take length), (stop + 4) / 4 * 4)
  | none => Option.none

/-- `unpack_from(">f")` and `unpack_from(">i")` up to the reading of the 32 bits; both throw
when fewer than four bytes are left. -/
def unpackFrom (buf : List UInt8) (offset : ℕ) : Option UInt32 :=
  match buf.drop offset with
  | a :: b :: c :: d :: _ => some (ofBigEndian a b c d)
  | _ => Option.none

/-- The loop over the type tags: the values with the last offset. -/
def readValues (buf : List UInt8) : List Char → ℕ → Option (List Value × ℕ)
  | [], offset => some ([], offset)
  | 'f' :: tags, offset => do
    let v ← unpackFrom buf offset
    let (values, last) ← readValues buf tags (offset + 4)
    return (.float v :: values, last)
  | 'i' :: tags, offset => do
    let v ← unpackFrom buf offset
    let (values, last) ← readValues buf tags (offset + 4)
    return (.int ((v.toNat : ℤ).bmod (2 ^ 32)) :: values, last)
  | 's' :: tags, offset => do
    let (s, next) ← readString buf offset
    let (values, last) ← readValues buf tags next
    return (.str (String.ofList s) :: values, last)
  | 'T' :: tags, offset => do
    let (values, last) ← readValues buf tags offset
    return (.bool true :: values, last)
  | 'F' :: tags, offset => do
    let (values, last) ← readValues buf tags offset
    return (.bool false :: values, last)
  | 'N' :: tags, offset => do
    let (values, last) ← readValues buf tags offset
    return (.none :: values, last)
  | 'I' :: tags, offset => do
    let (values, last) ← readValues buf tags offset
    return (.inf :: values, last)
  | tag :: _, offset => some ([.unhandled tag], offset)

/-- What `parse_osc_message` returns, with its `offset` at the return. -/
structure Parsed where
  address : String
  typeTag : String
  values : List Value
  offset : ℕ
  deriving DecidableEq

/-- `parse_osc_message`, nothing when it throws. -/
def parseOscMessage (buf : List UInt8) : Option Parsed := do
  let (address, offset) ← readString buf 0
  if buf.length ≤ offset then
    return ⟨String.ofList address, "", [], offset⟩
  let (typeTag, offset) ← readString buf offset
  match typeTag with
  | ',' :: tags => do
    let (values, last) ← readValues buf tags offset
    return ⟨String.ofList address, String.ofList typeTag, values, last⟩
  | _ => return ⟨String.ofList address, String.ofList typeTag, [], offset⟩

end Listeningway.Output.OscMessage
