/- Listeningway/Lib/ListRing
   digest: A ring kept in a list with a write position, read oldest first, as a window on what
     was written. -/

import Listeningway.Lib.HistoryRing
import Mathlib.Data.List.GetD
import Mathlib.Data.List.Rotate

/-!
The position is where the next value goes, so the list rotated by it starts with the oldest
value.
-/

set_option autoImplicit false
set_option relaxedAutoImplicit false

namespace Listeningway.Lib.ListRing

open HistoryRing (entry getD_lastN lastN)

variable {α : Type*}

/-- The values in the slots, oldest first. -/
def oldestFirst (slots : List α) (position : ℕ) : List α := slots.rotate position

theorem oldestFirst_write {slots : List α} {position : ℕ} (inside : position < slots.length)
    (x : α) :
    oldestFirst (slots.set position x) ((position + 1) % slots.length) =
      (oldestFirst slots position).tail ++ [x] := by
  have written : (slots.set position x).rotate ((position + 1) % slots.length) =
      (slots.set position x).drop (position + 1) ++ (slots.set position x).take (position + 1) := by
    have size : (slots.set position x).length = slots.length := List.length_set
    rw [← size, List.rotate_mod]
    apply List.rotate_eq_drop_append_take
    rw [List.length_set]
    exact inside
  have read : slots.rotate position =
      slots[position] :: (slots.drop (position + 1) ++ slots.take position) := by
    rw [List.rotate_eq_drop_append_take inside.le, ← List.cons_getElem_drop_succ (h := inside),
      List.cons_append]
  rw [oldestFirst, oldestFirst, written, read, List.tail_cons, List.append_assoc,
    List.drop_set_of_lt (Nat.lt_succ_self position), List.take_succ_eq_append_getElem (by
      rw [List.length_set]
      exact inside), List.take_set_of_le le_rfl, List.getElem_set_self]

/-! ### The last values of a history -/

/-- The last `n` values of a history, oldest first, with `d` before its beginning. -/
def lastPadded (n : ℕ) (d : α) (xs : List α) : List α := lastN n (List.replicate n d ++ xs)

theorem lastPadded_nil (n : ℕ) (d : α) : lastPadded n d [] = List.replicate n d := by
  rw [lastPadded, lastN, List.append_nil, List.length_replicate, Nat.sub_self, List.drop_zero]

theorem lastPadded_snoc {n : ℕ} (some : 0 < n) (d : α) (xs : List α) (x : α) :
    lastPadded n d (xs ++ [x]) = (lastPadded n d xs).tail ++ [x] := by
  have late : (List.replicate n d ++ (xs ++ [x])).length - n =
      (List.replicate n d ++ xs).length - n + 1 := by
    simp only [List.length_append, List.length_replicate, List.length_singleton]
    omega
  have short : (List.replicate n d ++ xs).length - n + 1 ≤ (List.replicate n d ++ xs).length := by
    rw [List.length_append, List.length_replicate]
    omega
  rw [lastPadded, lastPadded, lastN, lastN, late, ← List.append_assoc,
    List.drop_append_of_le_length short, List.tail_drop]

theorem oldestFirst_write_eq {slots xs : List α} {position : ℕ} {d : α}
    (inside : position < slots.length)
    (shown : oldestFirst slots position = lastPadded slots.length d xs) (x : α) :
    oldestFirst (slots.set position x) ((position + 1) % slots.length) =
      lastPadded slots.length d (xs ++ [x]) := by
  rw [oldestFirst_write inside, shown, lastPadded_snoc (Nat.zero_lt_of_lt inside)]

theorem entry_padded (n : ℕ) (d : α) (xs : List α) (r : ℕ) :
    entry (List.replicate n d ++ xs) d r = entry xs d r := by
  rw [entry, entry, List.reverse_append, List.reverse_replicate]
  rcases Nat.lt_or_ge r xs.reverse.length with written | before
  · exact List.getD_append _ _ _ _ written
  · rw [List.getD_append_right _ _ _ _ before, List.getD_eq_default _ _ before,
      List.getD_eq_getElem?_getD, List.getElem?_replicate]
    split_ifs <;> rfl

/-- Counted back from the value written last, the slots hold the history. -/
theorem getD_recent {slots xs : List α} {position : ℕ} {d : α}
    (shown : oldestFirst slots ((position + 1) % slots.length) = lastPadded slots.length d xs)
    {r : ℕ} (recent : r < slots.length) :
    slots.getD ((position + slots.length - r) % slots.length) d = entry xs d r := by
  have place : (position + slots.length - r) % slots.length =
      (slots.length - 1 - r + (position + 1) % slots.length) % slots.length := by
    rw [Nat.add_mod_mod]
    congr 1
    omega
  have late : slots.length ≤ (List.replicate slots.length d ++ xs).length := by
    rw [List.length_append, List.length_replicate]
    omega
  have back : slots.length - 1 - (slots.length - 1 - r) = r := by omega
  calc slots.getD ((position + slots.length - r) % slots.length) d
      = (oldestFirst slots ((position + 1) % slots.length)).getD (slots.length - 1 - r) d := by
        have inside : slots.length - 1 - r < slots.length := by omega
        rw [oldestFirst, List.getD_eq_getElem?_getD, List.getD_eq_getElem?_getD,
          List.getElem?_rotate inside, place]
    _ = entry (List.replicate slots.length d ++ xs) d r := by
        rw [shown, lastPadded, getD_lastN d late (by omega), back]
    _ = entry xs d r := entry_padded _ d xs r

end Listeningway.Lib.ListRing
