/-
  Arras4Core.Lib.Parts

  Systems that are made of parts.  A step of the whole lets some of the parts take a
  step of their own and leaves the others alone, so what holds of a part by itself
  holds of it in the whole.
-/

import Arras4Core.Lib.System

namespace Arras4Core.Lib.System

variable {σ ε : Type*} {M : System σ ε} {C : σ → ε → Prop} {s s' : σ}

/-- The part takes the step `e`, or is left alone. -/
def MaybeStep (M : System σ ε) (s : σ) : Option ε → σ → Prop
  | none, s' => s' = s
  | some e, s' => M.step s e = some s'

theorem MaybeStep.idle (s : σ) : M.MaybeStep s none s := rfl

theorem ReachableWhen.maybe (h : M.ReachableWhen C s) {e : Option ε} (hC : ∀ e' ∈ e, C s e')
    (hs : M.MaybeStep s e s') : M.ReachableWhen C s' := by
  cases e with
  | none =>
    have hsame : s' = s := hs
    rwa [hsame]
  | some e => exact h.next (hC e rfl) hs

/-- A history that each step of the part adds to. -/
theorem MaybeStep.history {α : Type*} (history : σ → List α) (added : σ → ε → List α)
    (hstep : ∀ s e s', M.step s e = some s' → history s' = history s ++ added s e)
    {e : Option ε} (hs : M.MaybeStep s e s') :
    history s' = history s ++ e.elim [] (added s) := by
  cases e with
  | none =>
    have hsame : s' = s := hs
    rw [hsame]
    exact (List.append_nil _).symm
  | some e => exact hstep s e s' hs

/-- A set that each step of the part keeps. -/
theorem MaybeStep.grows {α : Type*} (members : σ → List α)
    (hstep : ∀ s e s', M.step s e = some s' → members s ⊆ members s')
    {e : Option ε} (hs : M.MaybeStep s e s') : members s ⊆ members s' := by
  cases e with
  | none =>
    have hsame : s' = s := hs
    rw [hsame]
    exact List.Subset.refl _
  | some e => exact hstep s e s' hs

end Arras4Core.Lib.System
