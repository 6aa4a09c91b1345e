/- Listeningway/Lib/Interference
   digest: Scripts of effects that another party may interfere with between any two of them. -/

import Mathlib.Logic.Relation

/-!
`Withstands` is `Script.Meets` for effects that may block and for a state that moves on
its own: `rely` says what the other party can do, and every effect is allowed wherever it
may find the state.
-/

set_option autoImplicit false
set_option relaxedAutoImplicit false

namespace Listeningway.Lib.Interference

open Relation

variable {γ ε : Type*}

/-- Whatever `rely` does before each effect and after the last, the effects are allowed
and the script ends in `post`. -/
def Withstands (rely : γ → γ → Prop) (exec : γ → ε → Option γ) (allowed : γ → ε → Prop)
    (post : γ → Prop) : γ → List ε → Prop
  | g, [] => ∀ h, ReflTransGen rely g h → post h
  | g, e :: es => ∀ h, ReflTransGen rely g h →
    allowed h e ∧ ∀ k, exec h e = some k → Withstands rely exec allowed post k es

variable {rely : γ → γ → Prop} {exec : γ → ε → Option γ} {allowed : γ → ε → Prop}
  {post : γ → Prop} {g h : γ} {e : ε} {es : List ε}

theorem Withstands.interfere (w : Withstands rely exec allowed post g es) (move : rely g h) :
    Withstands rely exec allowed post h es := by
  cases es with
  | nil => exact fun k later => w k (.head move later)
  | cons e es => exact fun k later => w k (.head move later)

theorem Withstands.perform (w : Withstands rely exec allowed post g (e :: es))
    (done : exec g e = some h) :
    allowed g e ∧ Withstands rely exec allowed post h es := by
  obtain ⟨here, next⟩ := w g .refl
  exact ⟨here, next h done⟩

theorem Withstands.post_of_nil (w : Withstands rely exec allowed post g []) : post g := w g .refl

/-- A condition that the other party keeps. -/
def Stable (rely : γ → γ → Prop) (P : γ → Prop) : Prop := ∀ g h, P g → rely g h → P h

theorem Stable.later {P : γ → Prop} (stable : Stable rely P) (now : P g)
    (moves : ReflTransGen rely g h) : P h := by
  induction moves with
  | refl => exact now
  | tail _ move ih => exact stable _ _ ih move

theorem withstands_nil (stable : Stable rely post) (now : post g) :
    Withstands rely exec allowed post g [] := fun _ moves => stable.later now moves

/-- One effect, from a stable condition under which it is allowed. -/
theorem withstands_cons {P : γ → Prop} (stable : Stable rely P) (now : P g)
    (here : ∀ h, P h → allowed h e)
    (next : ∀ h k, P h → exec h e = some k → Withstands rely exec allowed post k es) :
    Withstands rely exec allowed post g (e :: es) := by
  intro h moves
  have there := stable.later now moves
  exact ⟨here h there, fun k done => next h k there done⟩

end Listeningway.Lib.Interference
