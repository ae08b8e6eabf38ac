/-
  Arras4Core.Lib.Window

  A window over a running total: a ring of `n` slots, in which the difference of
  each step is written over the oldest one.  The sum of the slots telescopes to
  the difference of two totals, in any commutative group, so also in arithmetic
  that wraps around.
-/

import Mathlib.Algebra.BigOperators.Group.List.Basic
import Mathlib.Data.Nat.ModEq
import Mathlib.Tactic.Abel

namespace Arras4Core.Lib

variable {G : Type} [AddCommGroup G] {n : Nat}

/-- The slots after `k` steps of a total: those of the last `n` steps hold their
    differences, and those that no step has reached are zero. -/
structure Window (total : Nat → G) (k : Nat) (slots : List G) : Prop where
  recent : ∀ j < k, k ≤ j + slots.length → slots[j % slots.length]? = some (total (j + 1) - total j)
  unused : ∀ i < slots.length, k ≤ i → slots[i]? = some 0
  sum : slots.sum = total k - total (k - slots.length)

namespace Window

variable {total : Nat → G} {k : Nat} {slots : List G}

theorem replicate (n : Nat) (total : Nat → G) : Window total 0 (List.replicate n 0) where
  recent j hj := absurd hj (Nat.not_lt_zero j)
  unused i hi _ := by
    rw [List.length_replicate] at hi
    rw [List.getElem?_replicate, if_pos hi]
  sum := by simp

/-- The slot that a step overwrites is the one that leaves the window. -/
theorem oldest (h : Window total k slots) (hpos : 0 < slots.length) :
    slots[k % slots.length]? =
      some (total (k + 1 - slots.length) - total (k - slots.length)) := by
  by_cases hlt : k < slots.length
  · have hnext : k + 1 - slots.length = k - slots.length := by omega
    rw [Nat.mod_eq_of_lt hlt, h.unused k hlt (Nat.le_refl k), hnext, sub_self]
  · -- the step that wrote it is `slots.length` steps back
    have hle : slots.length ≤ k := Nat.not_lt.mp hlt
    have hmod : k % slots.length = (k - slots.length) % slots.length := Nat.mod_eq_sub_mod hle
    have hnext : k + 1 - slots.length = k - slots.length + 1 := by omega
    rw [hmod, h.recent (k - slots.length) (by omega) (by omega), hnext]

/-- Two steps less than the length of the ring apart have different slots. -/
theorem mod_ne_of_lt {j k n : Nat} (hlt : j < k) (hle : k < j + n) : j % n ≠ k % n := by
  intro heq
  have hdvd : n ∣ k - j := (Nat.modEq_iff_dvd' hlt.le).mp heq
  have := Nat.le_of_dvd (by omega) hdvd
  omega

theorem step (h : Window total k slots) (hpos : 0 < slots.length) :
    Window total (k + 1) (slots.set (k % slots.length) (total (k + 1) - total k)) := by
  have hlt : k % slots.length < slots.length := Nat.mod_lt k hpos
  constructor
  · intro j hj hjk
    rw [List.length_set] at hjk ⊢
    rcases Nat.lt_succ_iff_lt_or_eq.mp hj with hj | rfl
    · rw [List.getElem?_set_ne (mod_ne_of_lt hj (by omega)).symm]
      exact h.recent j hj (by omega)
    · rw [List.getElem?_set_self hlt]
  · intro i hi hik
    rw [List.length_set] at hi
    rw [Nat.mod_eq_of_lt (show k < slots.length by omega), List.getElem?_set_ne (by omega)]
    exact h.unused i hi (by omega)
  · have hold := h.oldest hpos
    rw [List.getElem?_eq_getElem hlt, Option.some.injEq] at hold
    rw [List.sum_set', dif_pos hlt, hold, h.sum, List.length_set]
    abel

end Window

end Arras4Core.Lib
