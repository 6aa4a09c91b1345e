/- Listeningway/Lib/Footprint
   digest: Transformers of a record with declared reads and writes, and when two of them commute. -/

import Mathlib.Data.List.Basic

/-!
A record is whatever its slots say of it. A transformer reads and rewrites the record and
returns something of its own, such as the next state of the component it belongs to.
-/

set_option autoImplicit false
set_option relaxedAutoImplicit false

namespace Listeningway.Lib.Footprint

variable {F ι σ τ : Type*} {V : ι → Type*} {get : F → (i : ι) → V i}

/-- The two records have the same values in the slots `is`. -/
def AgreeOn (get : F → (i : ι) → V i) (is : List ι) (f g : F) : Prop :=
  ∀ i ∈ is, get f i = get g i

/-- `T` changes only `writes`, and what it does depends on `reads` and `writes` alone. -/
structure Confined (get : F → (i : ι) → V i) (reads writes : List ι) (T : F → σ × F) : Prop where
  frame : ∀ f, ∀ i ∉ writes, get (T f).2 i = get f i
  state : ∀ f g, AgreeOn get (reads ++ writes) f g → (T f).1 = (T g).1
  value : ∀ f g, AgreeOn get (reads ++ writes) f g → AgreeOn get writes (T f).2 (T g).2

/-- Neither of the two writes what the other reads or writes. -/
structure Independent (reads writes reads' writes' : List ι) : Prop where
  left : ∀ i ∈ writes, i ∉ reads' ++ writes'
  right : ∀ i ∈ writes', i ∉ reads ++ writes

theorem Independent.symm {reads writes reads' writes' : List ι}
    (h : Independent reads writes reads' writes') : Independent reads' writes' reads writes :=
  ⟨h.right, h.left⟩

variable {reads writes reads' writes' : List ι} {A : F → σ × F} {B : F → τ × F}

theorem Confined.agree_after (b : Confined get reads' writes' B)
    (h : Independent reads writes reads' writes') (f : F) :
    AgreeOn get (reads ++ writes) (B f).2 f := by
  intro i hi
  refine b.frame f i fun written => ?_
  exact h.right i written hi

theorem Confined.state_after (a : Confined get reads writes A)
    (b : Confined get reads' writes' B) (h : Independent reads writes reads' writes') (f : F) :
    (A (B f).2).1 = (A f).1 :=
  a.state _ _ (b.agree_after h f)

/-- In either order the record ends the same. -/
theorem Confined.commute (ext : ∀ f g : F, (∀ i, get f i = get g i) → f = g)
    (a : Confined get reads writes A) (b : Confined get reads' writes' B)
    (h : Independent reads writes reads' writes') (f : F) : (B (A f).2).2 = (A (B f).2).2 := by
  apply ext
  intro i
  by_cases first : i ∈ writes
  · have other : i ∉ writes' := fun second =>
      h.left i first (List.mem_append_right _ second)
    rw [b.frame _ i other]
    exact (a.value _ _ (b.agree_after h f) i first).symm
  · rw [a.frame _ i first]
    by_cases second : i ∈ writes'
    · exact b.value _ _ (a.agree_after h.symm f) i second
    · rw [b.frame _ i second, b.frame _ i second, a.frame _ i first]

end Listeningway.Lib.Footprint
