/- Listeningway/Lib/Script
   digest: Scripts of guarded effects, and the rule that every effect is met where it is allowed. -/

import Mathlib.Data.List.Basic

/-!
A script is what is left of a call whose outside outcomes are already chosen: a
list of effects. `Meets` says that the script, run from a state, finds the
standing condition true before every effect, finds every effect allowed, and
ends in the postcondition.
-/

set_option autoImplicit false
set_option relaxedAutoImplicit false

namespace Listeningway.Lib.Script

variable {γ ε : Type*}

def Meets (exec : γ → ε → γ) (standing : γ → Prop) (allowed : γ → ε → Prop) (post : γ → Prop) :
    γ → List ε → Prop
  | g, [] => standing g ∧ post g
  | g, e :: es =>
    standing g ∧ allowed g e ∧ Meets exec standing allowed post (exec g e) es

variable {exec : γ → ε → γ} {standing : γ → Prop} {allowed : γ → ε → Prop} {post mid : γ → Prop}

theorem meets_standing {g : γ} {es : List ε} (h : Meets exec standing allowed post g es) :
    standing g := by
  cases es <;> exact h.1

theorem meets_append {g : γ} {es fs : List ε} (first : Meets exec standing allowed mid g es)
    (second : ∀ g, standing g → mid g → Meets exec standing allowed post g fs) :
    Meets exec standing allowed post g (es ++ fs) := by
  induction es generalizing g with
  | nil => exact second g first.1 first.2
  | cons e es ih => exact ⟨first.1, first.2.1, ih first.2.2⟩

/-- The final state of a script. -/
theorem meets_end {g : γ} {es : List ε} (h : Meets exec standing allowed post g es) :
    standing (es.foldl exec g) ∧ post (es.foldl exec g) := by
  induction es generalizing g with
  | nil => exact h
  | cons e es ih => exact ih h.2.2

end Listeningway.Lib.Script
