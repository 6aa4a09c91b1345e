/- Listeningway/Lib/Reorder
   digest: Orders of the same actions that keep dependent ones in place do the same. -/

import Mathlib.Data.List.Perm.Basic

/-!
Two actions are independent when it does not matter which of them comes first. Any order of a
list that keeps the order of all other pairs is reached by exchanging independent neighbours.
-/

set_option autoImplicit false
set_option relaxedAutoImplicit false

namespace Listeningway.Lib.Reorder

variable {ι σ : Type*} {I : ι → ι → Prop} {l l' : List ι}

/-- Exchanges of neighbours that are independent. -/
inductive Exchanged (I : ι → ι → Prop) : List ι → List ι → Prop
  | refl (l : List ι) : Exchanged I l l
  | cons (x : ι) {l l' : List ι} : Exchanged I l l' → Exchanged I (x :: l) (x :: l')
  | swap {a b : ι} (l : List ι) : I a b → Exchanged I (a :: b :: l) (b :: a :: l)
  | trans {l m r : List ι} : Exchanged I l m → Exchanged I m r → Exchanged I l r

theorem exchanged_front {x : ι} {front : List ι} (apart : ∀ y ∈ front, I y x) (back : List ι) :
    Exchanged I (front ++ x :: back) (x :: (front ++ back)) := by
  induction front with
  | nil => exact .refl _
  | cons y front ih =>
    have moved := ih fun z listed => apart z (List.mem_cons_of_mem y listed)
    exact (Exchanged.cons y moved).trans (.swap _ (apart y List.mem_cons_self))

/-- `l'` keeps the order in which `l` has the pairs that are not independent. -/
def Keeps (I : ι → ι → Prop) (l l' : List ι) : Prop :=
  ∀ a b, [a, b].Sublist l → ¬ I a b → [a, b].Sublist l'

theorem exchanged_of_keeps (nodup : l.Nodup) (perm : l.Perm l') (keeps : Keeps I l l') :
    Exchanged I l l' := by
  induction l' generalizing l with
  | nil => exact perm.eq_nil ▸ .refl _
  | cons x rest ih =>
    obtain ⟨front, back, rfl⟩ := List.append_of_mem (perm.mem_iff.mpr List.mem_cons_self)
    have rest_perm : (front ++ back).Perm rest :=
      (List.perm_middle.symm.trans perm).cons_inv
    have nodup' : (x :: rest).Nodup := perm.nodup_iff.mp nodup
    have fresh : x ∉ rest := (List.nodup_cons.mp nodup').1
    have part : (front ++ back).Sublist (front ++ x :: back) :=
      (List.sublist_cons_self x back).append_left front
    -- in `l'` nothing stands before `x`, so nothing before it in `l` depends on it
    have apart : ∀ y ∈ front, I y x := by
      intro y listed
      by_contra dependent
      have pair : [y, x].Sublist (front ++ x :: back) :=
        (List.singleton_sublist.mpr listed).append
          (List.singleton_sublist.mpr List.mem_cons_self)
      have kept := keeps y x pair dependent
      cases kept with
      | cons _ inside => exact fresh (inside.subset (by simp))
      | cons_cons _ inside => exact fresh (List.singleton_sublist.mp inside)
    have later : Keeps I (front ++ back) rest := by
      intro a b pair dependent
      have kept := keeps a b (pair.trans part) dependent
      cases kept with
      | cons _ inside => exact inside
      | cons_cons _ inside =>
        have here : x ∈ front ++ back := pair.subset (by simp)
        exact absurd (rest_perm.mem_iff.mp here) fresh
    exact (exchanged_front apart back).trans (.cons x (ih (nodup.sublist part) rest_perm later))

/-- Where independent actions commute, both orders lead to the same state. -/
theorem Exchanged.foldl {act : σ → ι → σ} (Inv : σ → Prop) (exchanged : Exchanged I l l')
    (keep : ∀ s i, Inv s → Inv (act s i))
    (commute : ∀ s a b, Inv s → I a b → act (act s a) b = act (act s b) a) {s : σ} (inv : Inv s) :
    l.foldl act s = l'.foldl act s := by
  induction exchanged generalizing s with
  | refl => rfl
  | cons x _ ih => exact ih (keep s x inv)
  | @swap a b l apart =>
    rw [List.foldl_cons, List.foldl_cons, commute s a b inv apart, List.foldl_cons,
      List.foldl_cons]
  | trans _ _ ih ih' => exact (ih inv).trans (ih' inv)

end Listeningway.Lib.Reorder
