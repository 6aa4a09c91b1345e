/- Listeningway/Lib/AlignedBytes
   digest: Buffers written piece by piece, texts padded to words of four bytes, words in bytes. -/

import Mathlib.Data.List.Basic
import Mathlib.Data.UInt

set_option autoImplicit false
set_option relaxedAutoImplicit false

namespace Listeningway.Lib.AlignedBytes

/-! ### Writing into a buffer -/

/-- `bytes` copied over the buffer from `off` on. -/
def writeAt (buf : List UInt8) (off : ℕ) (bytes : List UInt8) : List UInt8 :=
  buf.take off ++ bytes ++ buf.drop (off + bytes.length)

theorem length_writeAt {buf bytes : List UInt8} {off : ℕ}
    (inside : off + bytes.length ≤ buf.length) : (writeAt buf off bytes).length = buf.length := by
  simp only [writeAt, List.length_append, List.length_take, List.length_drop]
  omega

theorem writeAt_nil (buf : List UInt8) (off : ℕ) : writeAt buf off [] = buf := by
  rw [writeAt, List.append_nil, List.length_nil, Nat.add_zero, List.take_append_drop]

theorem writeAt_writeAt {buf a : List UInt8} {off : ℕ} (inside : off + a.length ≤ buf.length)
    (b : List UInt8) :
    writeAt (writeAt buf off a) (off + a.length) b = writeAt buf off (a ++ b) := by
  have front : (buf.take off ++ a).length = off + a.length := by
    rw [List.length_append, List.length_take, Nat.min_eq_left (by omega)]
  have before : (writeAt buf off a).take (off + a.length) = buf.take off ++ a := by
    rw [writeAt, ← front, List.take_left]
  have behind : (writeAt buf off a).drop (off + a.length + b.length) =
      buf.drop (off + a.length + b.length) := by
    rw [writeAt, ← List.drop_drop, ← front, List.drop_left, front, List.drop_drop]
  rw [writeAt, before, behind, writeAt, List.length_append, Nat.add_assoc]
  simp only [List.append_assoc]

theorem writeAt_zeros (front rest : List UInt8) {bytes : List UInt8} {n : ℕ}
    (fits : bytes.length ≤ n) :
    writeAt (front ++ (List.replicate n 0 ++ rest)) front.length bytes =
      front ++ bytes ++ (List.replicate (n - bytes.length) 0 ++ rest) := by
  have short : n - (n - bytes.length) = bytes.length := by omega
  rw [writeAt, List.take_left, ← List.drop_drop, List.drop_left, List.drop_append,
    List.length_replicate, List.drop_replicate, Nat.sub_eq_zero_of_le fits, List.drop_zero]

/-! ### Padding -/

/-- The next multiple of four. -/
def roundUp (n : ℕ) : ℕ := (n + 3) / 4 * 4

theorem le_roundUp (n : ℕ) : n ≤ roundUp n := by
  unfold roundUp
  omega

theorem roundUp_le (n : ℕ) : roundUp n ≤ n + 3 := by
  unfold roundUp
  omega

theorem four_dvd_roundUp (n : ℕ) : 4 ∣ roundUp n := ⟨(n + 3) / 4, Nat.mul_comm _ _⟩

/-- The text with one to four NULs behind it, up to a multiple of four. -/
def alignedText (text : List UInt8) : List UInt8 :=
  text ++ List.replicate (roundUp (text.length + 1) - text.length) 0

theorem length_alignedText (text : List UInt8) :
    (alignedText text).length = roundUp (text.length + 1) := by
  have fits := le_roundUp (text.length + 1)
  rw [alignedText, List.length_append, List.length_replicate]
  omega

theorem writeAt_text (front rest text : List UInt8) (n : ℕ) :
    writeAt (front ++ (List.replicate (roundUp (text.length + 1) + n) 0 ++ rest)) front.length
        text =
      front ++ alignedText text ++ (List.replicate n 0 ++ rest) := by
  have fits := le_roundUp (text.length + 1)
  have split : roundUp (text.length + 1) + n - text.length =
      roundUp (text.length + 1) - text.length + n := by omega
  rw [writeAt_zeros front rest (by omega), split, List.replicate_add, alignedText]
  simp only [List.append_assoc]

theorem writeAt_terminated (front rest text : List UInt8) (n : ℕ) :
    writeAt (front ++ (List.replicate (roundUp (text.length + 1) + n) 0 ++ rest)) front.length
        (text ++ [0]) =
      front ++ alignedText text ++ (List.replicate n 0 ++ rest) := by
  have fits := le_roundUp (text.length + 1)
  have length : (text ++ [0]).length = text.length + 1 := List.length_append
  have split : roundUp (text.length + 1) - text.length + n =
      1 + (roundUp (text.length + 1) + n - (text ++ [0]).length) := by omega
  have padding : List.replicate (roundUp (text.length + 1) - text.length) (0 : UInt8) ++
        List.replicate n 0 =
      [0] ++ List.replicate (roundUp (text.length + 1) + n - (text ++ [0]).length) 0 := by
    rw [← List.replicate_add, split, List.replicate_add]
    rfl
  rw [writeAt_zeros front rest (by omega), alignedText]
  simp only [List.append_assoc]
  rw [← List.append_assoc (List.replicate (roundUp _ - _) _), padding, List.append_assoc]

theorem findIdx?_alignedText {text : List UInt8} (plain : ∀ b ∈ text, b ≠ 0) (rest : List UInt8) :
    (alignedText text ++ rest).findIdx? (· = 0) = some text.length := by
  have fits := le_roundUp (text.length + 1)
  obtain ⟨more, count⟩ : ∃ more, roundUp (text.length + 1) - text.length = more + 1 :=
    ⟨roundUp (text.length + 1) - text.length - 1, by omega⟩
  have missed : text.findIdx? (· = 0) = none := by
    rw [List.findIdx?_eq_none_iff]
    intro b held
    simpa using plain b held
  rw [alignedText, count, List.replicate_succ, List.append_assoc, List.findIdx?_append, missed]
  simp [List.findIdx?_cons]

/-! ### Words -/

/-- The bytes of a word, the highest first. -/
def bigEndian (u : UInt32) : List UInt8 :=
  [UInt8.ofNat (u.toNat / 2 ^ 24), UInt8.ofNat (u.toNat / 2 ^ 16), UInt8.ofNat (u.toNat / 2 ^ 8),
    UInt8.ofNat u.toNat]

/-- The bytes of a word, the lowest first. -/
def littleEndian (u : UInt32) : List UInt8 := (bigEndian u).reverse

def ofBigEndian (a b c d : UInt8) : UInt32 :=
  UInt32.ofNat (a.toNat * 2 ^ 24 + b.toNat * 2 ^ 16 + c.toNat * 2 ^ 8 + d.toNat)

theorem toNat_ofBigEndian (a b c d : UInt8) :
    (ofBigEndian a b c d).toNat =
      a.toNat * 2 ^ 24 + b.toNat * 2 ^ 16 + c.toNat * 2 ^ 8 + d.toNat := by
  have ha := a.toNat_lt
  have hb := b.toNat_lt
  have hc := c.toNat_lt
  have hd := d.toNat_lt
  rw [ofBigEndian, UInt32.toNat_ofNat']
  exact Nat.mod_eq_of_lt (by omega)

theorem ofBigEndian_bytes (u : UInt32) :
    ofBigEndian (UInt8.ofNat (u.toNat / 2 ^ 24)) (UInt8.ofNat (u.toNat / 2 ^ 16))
      (UInt8.ofNat (u.toNat / 2 ^ 8)) (UInt8.ofNat u.toNat) = u := by
  have hu := u.toNat_lt
  apply UInt32.toNat_inj.mp
  rw [toNat_ofBigEndian]
  simp only [UInt8.toNat_ofNat']
  omega

/-- The bytes of a word swapped. -/
def byteSwap (u : UInt32) : UInt32 :=
  ofBigEndian (UInt8.ofNat u.toNat) (UInt8.ofNat (u.toNat / 2 ^ 8))
    (UInt8.ofNat (u.toNat / 2 ^ 16)) (UInt8.ofNat (u.toNat / 2 ^ 24))

theorem bigEndian_ofBigEndian (a b c d : UInt8) :
    bigEndian (ofBigEndian a b c d) = [a, b, c, d] := by
  have ha := a.toNat_lt
  have hb := b.toNat_lt
  have hc := c.toNat_lt
  have hd := d.toNat_lt
  rw [bigEndian, toNat_ofBigEndian]
  simp only [List.cons.injEq, and_true, ← UInt8.toNat_inj, UInt8.toNat_ofNat']
  refine ⟨?_, ?_, ?_, ?_⟩ <;> omega

/-- Swapped in memory, lowest byte first, a word stands there highest byte first. -/
theorem littleEndian_byteSwap (u : UInt32) : littleEndian (byteSwap u) = bigEndian u := by
  rw [littleEndian, byteSwap, bigEndian_ofBigEndian]
  rfl

@[simp] theorem length_bigEndian (u : UInt32) : (bigEndian u).length = 4 := rfl

theorem length_flatMap_bigEndian (values : List UInt32) :
    (values.flatMap bigEndian).length = values.length * 4 := by
  induction values with
  | nil => rfl
  | cons v rest ih =>
    rw [List.flatMap_cons, List.length_append, ih, length_bigEndian, List.length_cons]
    omega

end Listeningway.Lib.AlignedBytes
