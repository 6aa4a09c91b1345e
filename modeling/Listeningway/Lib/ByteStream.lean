/- Listeningway/Lib/ByteStream
   digest: Readers of a byte buffer, the bytes they read exactly, and the arrays built from them. -/

import Mathlib.Data.List.Basic
import Mathlib.Data.List.TakeDrop
import Mathlib.Data.UInt
import Mathlib.Algebra.Order.Ring.Nat

/-!
A reader takes bytes from the front of a buffer and fails when too few are left. What a writer
puts down is read exactly when the reader gives the value back in front of any further bytes.
-/

set_option autoImplicit false
set_option relaxedAutoImplicit false

namespace Listeningway.Lib.ByteStream

abbrev Reader (α : Type) := StateT (List UInt8) Option α

variable {α β : Type}

/-- The reader takes exactly `bytes`, whatever follows them, and returns `a`. -/
def Reads (r : Reader α) (bytes : List UInt8) (a : α) : Prop :=
  ∀ rest, r.run (bytes ++ rest) = some (a, rest)

/-- The reader does not look behind what it takes. -/
def Confined (r : Reader α) : Prop :=
  ∀ bytes a rest more, r.run bytes = some (a, rest) → r.run (bytes ++ more) = some (a, rest ++ more)

/-- Whatever the reader takes, what it returns is such. -/
def Yields (r : Reader α) (P : α → Prop) : Prop :=
  ∀ bytes a rest, r.run bytes = some (a, rest) → P a

/-! ### Composition -/

namespace Reads

theorem pure (a : α) : Reads (Pure.pure a) [] a := fun _ => rfl

theorem bind {r : Reader α} {f : α → Reader β} {front back : List UInt8} {a : α} {b : β}
    (first : Reads r front a) (second : Reads (f a) back b) :
    Reads (r >>= f) (front ++ back) b := by
  intro rest
  rw [List.append_assoc, StateT.run_bind, first]
  exact second rest

theorem map {r : Reader α} {bytes : List UInt8} {a : α} (reads : Reads r bytes a) (f : α → β) :
    Reads (f <$> r) bytes (f a) := by
  intro rest
  rw [StateT.run_map, reads]
  rfl

theorem returning {r : Reader α} {bytes : List UInt8} {a : α} (reads : Reads r bytes a)
    (f : α → β) : Reads (r >>= fun x => Pure.pure (f x)) bytes (f a) := by
  intro rest
  rw [StateT.run_bind, reads]
  rfl

theorem guarded {f : Unit → Reader α} {p : Prop} [Decidable p] {bytes : List UInt8} {a : α}
    (holds : p) (reads : Reads (f ()) bytes a) : Reads (guard p >>= f) bytes a := by
  intro rest
  rw [guard, if_pos holds]
  exact reads rest

theorem whole {r : Reader α} {bytes : List UInt8} {a : α} (reads : Reads r bytes a) :
    r.run bytes = some (a, []) := by
  have alone := reads []
  rwa [List.append_nil] at alone

/-- A confined reader refuses whatever is shorter than what it reads. -/
theorem truncated {r : Reader α} {bytes : List UInt8} {a : α} (reads : Reads r bytes a)
    (confined : Confined r) {n : ℕ} (short : n < bytes.length) : r.run (bytes.take n) = none := by
  cases found : r.run (bytes.take n) with
  | none => rfl
  | some result =>
    obtain ⟨b, rest⟩ := result
    have longer := confined _ _ _ (bytes.drop n) found
    rw [List.take_append_drop, reads.whole] at longer
    have behind := congrArg (fun r => r.map fun q => q.2.length) longer
    simp only [Option.map_some, List.length_nil, List.length_append, List.length_drop,
      Option.some.injEq] at behind
    omega

end Reads

namespace Confined

theorem pure (a : α) : Confined (Pure.pure a) := by
  intro bytes b rest more found
  obtain ⟨rfl, rfl⟩ := Prod.mk.inj (Option.some.inj found)
  rfl

theorem failure : Confined (Alternative.failure : Reader α) := by
  intro bytes b rest more found
  cases found

theorem bind {r : Reader α} {f : α → Reader β} (first : Confined r)
    (second : ∀ a, Confined (f a)) : Confined (r >>= f) := by
  intro bytes b rest more found
  rw [StateT.run_bind] at found ⊢
  obtain ⟨⟨a, between⟩, taken, found⟩ := Option.bind_eq_some_iff.mp found
  rw [first _ _ _ more taken]
  exact second a _ _ _ more found

theorem map {r : Reader α} (confined : Confined r) (f : α → β) : Confined (f <$> r) := by
  rw [map_eq_pure_bind]
  exact confined.bind fun a => pure (f a)

end Confined

theorem confined_guard (p : Prop) [Decidable p] : Confined (guard p : Reader Unit) := by
  rw [guard]
  split_ifs
  · exact Confined.pure ()
  · exact Confined.failure

namespace Yields

theorem anything (r : Reader α) : Yields r fun _ => True := fun _ _ _ _ => trivial

theorem pure {P : α → Prop} {a : α} (holds : P a) : Yields (Pure.pure a) P := by
  intro bytes b rest found
  obtain ⟨rfl, -⟩ := Prod.mk.inj (Option.some.inj found)
  exact holds

theorem failure (P : α → Prop) : Yields (Alternative.failure : Reader α) P := by
  intro bytes a rest found
  cases found

theorem bind {r : Reader α} {f : α → Reader β} {P : α → Prop} {Q : β → Prop}
    (first : Yields r P) (second : ∀ a, P a → Yields (f a) Q) : Yields (r >>= f) Q := by
  intro bytes b rest found
  rw [StateT.run_bind] at found
  obtain ⟨⟨a, between⟩, taken, found⟩ := Option.bind_eq_some_iff.mp found
  exact second a (first _ _ _ taken) _ _ _ found

end Yields

theorem yields_guard (p : Prop) [Decidable p] : Yields (guard p : Reader Unit) fun _ => p := by
  rw [guard]
  split_ifs with holds
  · exact Yields.pure holds
  · exact Yields.failure _

/-! ### Bytes and integers -/

/-- The next `n` bytes. -/
def takeBytes (n : ℕ) : Reader (List UInt8) := fun bytes =>
  if n ≤ bytes.length then some (bytes.take n, bytes.drop n) else none

theorem reads_takeBytes (bytes : List UInt8) : Reads (takeBytes bytes.length) bytes bytes := by
  intro rest
  have room : bytes.length ≤ (bytes ++ rest).length := by
    rw [List.length_append]
    omega
  change (if _ then _ else _) = _
  rw [if_pos room, List.take_left, List.drop_left]

theorem confined_takeBytes (n : ℕ) : Confined (takeBytes n) := by
  intro bytes a rest more found
  change (if _ then _ else _) = _ at found
  split_ifs at found with room
  obtain ⟨rfl, rfl⟩ := Prod.mk.inj (Option.some.inj found)
  have longer : n ≤ (bytes ++ more).length := by
    rw [List.length_append]
    omega
  change (if _ then _ else _) = _
  rw [if_pos longer, List.take_append_of_le_length room, List.drop_append_of_le_length room]

theorem yields_takeBytes (n : ℕ) : Yields (takeBytes n) fun taken => taken.length = n := by
  intro bytes taken rest found
  change (if _ then _ else _) = _ at found
  split_ifs at found with room
  obtain ⟨rfl, -⟩ := Prod.mk.inj (Option.some.inj found)
  rw [List.length_take, Nat.min_eq_left room]

/-- `n` bytes of a number, the lowest first. -/
def littleEndian : ℕ → ℕ → List UInt8
  | 0, _ => []
  | n + 1, v => UInt8.ofNat v :: littleEndian n (v / 256)

@[simp] theorem length_littleEndian (n v : ℕ) : (littleEndian n v).length = n := by
  induction n generalizing v with
  | zero => rfl
  | succ n ih => rw [littleEndian, List.length_cons, ih]

/-- The number of bytes, the highest read last. -/
def ofLittleEndian (bytes : List UInt8) : ℕ := bytes.foldr (fun b v => v * 256 + b.toNat) 0

theorem ofLittleEndian_littleEndian (n v : ℕ) :
    ofLittleEndian (littleEndian n v) = v % 256 ^ n := by
  induction n generalizing v with
  | zero => rw [pow_zero, Nat.mod_one]; rfl
  | succ n ih =>
    have low : (UInt8.ofNat v).toNat = v % 256 := UInt8.toNat_ofNat'
    have split := Nat.mod_mul (x := v) (a := 256) (b := 256 ^ n)
    calc ofLittleEndian (littleEndian (n + 1) v)
        = ofLittleEndian (littleEndian n (v / 256)) * 256 + (UInt8.ofNat v).toNat := rfl
      _ = v % 256 + 256 * (v / 256 % 256 ^ n) := by rw [ih, low, add_comm, mul_comm]
      _ = v % 256 ^ (n + 1) := by rw [← split, pow_succ, mul_comm]

/-- `size` bytes read as one number, the lowest first. -/
def little (size : ℕ) : Reader ℕ := ofLittleEndian <$> takeBytes size

theorem reads_little {size v : ℕ} (small : v < 256 ^ size) :
    Reads (little size) (littleEndian size v) v := by
  have taken := reads_takeBytes (littleEndian size v)
  rw [length_littleEndian] at taken
  have reads := taken.map ofLittleEndian
  rwa [ofLittleEndian_littleEndian, Nat.mod_eq_of_lt small] at reads

theorem confined_little (size : ℕ) : Confined (little size) := (confined_takeBytes size).map _

def uint8 : Reader UInt8 := UInt8.ofNat <$> little 1

def uint16 : Reader UInt16 := UInt16.ofNat <$> little 2

def uint32 : Reader UInt32 := UInt32.ofNat <$> little 4

def putUint8 (v : UInt8) : List UInt8 := littleEndian 1 v.toNat

def putUint16 (v : UInt16) : List UInt8 := littleEndian 2 v.toNat

def putUint32 (v : UInt32) : List UInt8 := littleEndian 4 v.toNat

@[simp] theorem length_putUint8 (v : UInt8) : (putUint8 v).length = 1 := length_littleEndian 1 _

@[simp] theorem length_putUint16 (v : UInt16) : (putUint16 v).length = 2 := length_littleEndian 2 _

@[simp] theorem length_putUint32 (v : UInt32) : (putUint32 v).length = 4 := length_littleEndian 4 _

theorem reads_uint8 (v : UInt8) : Reads uint8 (putUint8 v) v := by
  have small : v.toNat < 256 ^ 1 := by simpa using v.toNat_lt
  have reads := (reads_little small).map UInt8.ofNat
  rwa [UInt8.ofNat_toNat] at reads

theorem reads_uint16 (v : UInt16) : Reads uint16 (putUint16 v) v := by
  have small : v.toNat < 256 ^ 2 := by simpa using v.toNat_lt
  have reads := (reads_little small).map UInt16.ofNat
  rwa [UInt16.ofNat_toNat] at reads

theorem reads_uint32 (v : UInt32) : Reads uint32 (putUint32 v) v := by
  have small : v.toNat < 256 ^ 4 := by simpa using v.toNat_lt
  have reads := (reads_little small).map UInt32.ofNat
  rwa [UInt32.ofNat_toNat] at reads

theorem confined_uint8 : Confined uint8 := (confined_little 1).map _

theorem confined_uint16 : Confined uint16 := (confined_little 2).map _

theorem confined_uint32 : Confined uint32 := (confined_little 4).map _

/-! ### Arrays -/

/-- `count` elements, the reader of each told its index. -/
def readArrayFrom (element : ℕ → Reader α) : ℕ → ℕ → Reader (List α)
  | _, 0 => return []
  | i, count + 1 => do
    let a ← element i
    let as ← readArrayFrom element (i + 1) count
    return a :: as

/-- The list with each element changed by a function of its index. -/
def indexed (f : ℕ → α → β) (xs : List α) : List β := (xs.zipIdx).map fun x => f x.2 x.1

theorem reads_arrayFrom {element : ℕ → Reader β} {write : α → List UInt8} {f : ℕ → α → β}
    {xs : List α} (each : ∀ i, ∀ x ∈ xs, Reads (element i) (write x) (f i x)) (start : ℕ) :
    Reads (readArrayFrom element start xs.length) (xs.flatMap write)
      ((xs.zipIdx start).map fun x => f x.2 x.1) := by
  induction xs generalizing start with
  | nil => exact Reads.pure []
  | cons x xs ih =>
    have head := each start x List.mem_cons_self
    have tail := ih (fun i y among => each i y (List.mem_cons_of_mem x among)) (start + 1)
    rw [List.flatMap_cons, List.zipIdx_cons, List.map_cons]
    exact head.bind (tail.returning _)

theorem confined_arrayFrom {element : ℕ → Reader α} (each : ∀ i, Confined (element i))
    (start count : ℕ) : Confined (readArrayFrom element start count) := by
  induction count generalizing start with
  | zero => exact Confined.pure []
  | succ count ih =>
    exact (each start).bind fun a => (ih (start + 1)).bind fun as => Confined.pure _

theorem reads_array {element : ℕ → Reader β} {write : α → List UInt8} {f : ℕ → α → β}
    {xs : List α} (each : ∀ i, ∀ x ∈ xs, Reads (element i) (write x) (f i x)) :
    Reads (readArrayFrom element 0 xs.length) (xs.flatMap write) (indexed f xs) :=
  reads_arrayFrom each 0

theorem indexed_map (f : α → β) (xs : List α) : indexed (fun _ x => f x) xs = xs.map f := by
  have same := congrArg (List.map f) (List.zipIdx_map_fst 0 xs)
  rwa [List.map_map] at same

theorem indexed_same (xs : List α) : indexed (fun _ x => x) xs = xs := List.zipIdx_map_fst 0 xs

theorem indexed_eq_self {f : ℕ → α → α} {xs : List α}
    (each : ∀ (i : ℕ) (inside : i < xs.length), f i xs[i] = xs[i]) : indexed f xs = xs := by
  apply List.ext_getElem
  · rw [indexed, List.length_map, List.length_zipIdx]
  · intro i before inside
    simp only [indexed, List.getElem_map, List.getElem_zipIdx, zero_add]
    exact each i inside

theorem yields_arrayFrom {element : ℕ → Reader α} {P : ℕ → α → Prop}
    (each : ∀ i, Yields (element i) (P i)) (start count : ℕ) :
    Yields (readArrayFrom element start count) fun xs =>
      xs.length = count ∧ ∀ (i : ℕ) (inside : i < xs.length), P (start + i) xs[i] := by
  induction count generalizing start with
  | zero => exact Yields.pure ⟨rfl, fun i inside => absurd inside (Nat.not_lt_zero i)⟩
  | succ count ih =>
    refine (each start).bind fun x head => (ih (start + 1)).bind fun xs tail => Yields.pure ?_
    refine ⟨congrArg (· + 1) tail.1, fun i inside => ?_⟩
    cases i with
    | zero => exact head
    | succ i =>
      have later := tail.2 i (Nat.lt_of_succ_lt_succ inside)
      rwa [Nat.add_right_comm] at later

theorem yields_array {element : ℕ → Reader α} {P : ℕ → α → Prop}
    (each : ∀ i, Yields (element i) (P i)) (count : ℕ) :
    Yields (readArrayFrom element 0 count) fun xs =>
      xs.length = count ∧ ∀ (i : ℕ) (inside : i < xs.length), P i xs[i] := by
  have yields := yields_arrayFrom each 0 count
  simpa only [zero_add] using yields

end Listeningway.Lib.ByteStream
