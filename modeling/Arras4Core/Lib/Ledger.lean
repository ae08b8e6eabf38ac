/-
  Arras4Core.Lib.Ledger

  A shared counter and the accounts it is kept for.  Agents take from the
  counter and give back to it on behalf of an account, and note on the account
  what they have taken, in separate steps.  As long as one agent at a time works
  on an account, and starts on one that nothing is taken for, the counter is the
  sum of what is noted whenever no agent is in the middle of its work.
-/

import Mathlib.Algebra.Order.BigOperators.Group.Finset
import Mathlib.Algebra.BigOperators.Group.Finset.Piecewise

namespace Arras4Core.Lib

/-- The counter, what was taken from it for each account, what each account says,
    and the agents at work: on which account, and what they have yet to note. -/
@[ext]
structure Ledger (A : Type*) where
  total : Nat
  taken : Nat → Nat
  noted : Nat → Nat
  mid : A → Option (Nat × Nat)
  count : Nat

namespace Ledger

variable {A : Type*} {l : Ledger A} {a : A} {i amount : Nat}

/-- No agent is at work on the account. -/
def Quiet (l : Ledger A) (i : Nat) : Prop := ∀ a n, l.mid a ≠ some (i, n)

structure Balanced (l : Ledger A) : Prop where
  total : l.total = Finset.sum (Finset.range l.count) l.taken
  settled : ∀ i, l.Quiet i → l.taken i = l.noted i
  mid : ∀ a i n, l.mid a = some (i, n) → i < l.count ∧ l.taken i = n
  one : ∀ a b i m n, l.mid a = some (i, m) → l.mid b = some (i, n) → a = b
  fresh : ∀ i, l.count ≤ i → l.taken i = 0 ∧ l.noted i = 0

/-- Changing one summand. -/
theorem sum_update {f : Nat → Nat} {S : Finset Nat} (hi : i ∈ S) (v : Nat) :
    Finset.sum S (Function.update f i v) + f i = Finset.sum S f + v := by
  rw [Finset.sum_update_of_mem hi, Finset.sdiff_singleton_eq_erase, ← Finset.add_sum_erase _ f hi]
  omega

/-- What is taken for one account is part of the total. -/
theorem Balanced.taken_le_total (h : l.Balanced) (hi : i < l.count) : l.taken i ≤ l.total := by
  rw [h.total]
  exact Finset.single_le_sum (fun _ _ => Nat.zero_le _) (Finset.mem_range.mpr hi)

/-- With no agent at work the counter is the sum of what is noted. -/
theorem Balanced.total_eq_sum_noted (h : l.Balanced) (hquiet : ∀ a, l.mid a = none) :
    l.total = Finset.sum (Finset.range l.count) l.noted := by
  rw [h.total]
  refine Finset.sum_congr rfl fun i _ => h.settled i fun a n hmid => ?_
  exact absurd ((hquiet a).symm.trans hmid) nofun

variable [DecidableEq A]

/-- Agent `a` goes to work on an account. -/
def begin (l : Ledger A) (a : A) (i : Nat) : Ledger A :=
  { l with mid := Function.update l.mid a (some (i, 0)) }

/-- It takes an amount from the counter. -/
def grant (l : Ledger A) (a : A) (i amount : Nat) : Ledger A :=
  { l with
    total := l.total + amount
    taken := Function.update l.taken i amount
    mid := Function.update l.mid a (some (i, amount)) }

/-- It notes what it has taken, and is done. -/
def settle (l : Ledger A) (a : A) (i amount : Nat) : Ledger A :=
  { l with
    noted := Function.update l.noted i amount
    mid := Function.update l.mid a none }

/-- It goes to work on an account, and gives back what is noted there. -/
def withdraw (l : Ledger A) (a : A) (i : Nat) : Ledger A :=
  { l with
    total := l.total - l.noted i
    taken := Function.update l.taken i 0
    mid := Function.update l.mid a (some (i, 0)) }

/-- Another account is opened. -/
def grow (l : Ledger A) : Ledger A := { l with count := l.count + 1 }

theorem begin_grant (l : Ledger A) (a : A) (i amount : Nat) :
    (l.begin a i).grant a i amount = l.grant a i amount := by
  simp only [begin, grant, Function.update_idem]

theorem begin_of_mid (h : l.mid a = some (i, 0)) : l.begin a i = l := by
  have hmid : Function.update l.mid a (some (i, 0)) = l.mid := by
    rw [← h, Function.update_eq_self]
  simp only [begin, hmid]

/-- Agents other than `a` are where they were. -/
theorem mid_update_of_ne {x : Option (Nat × Nat)} {b : A} {j n : Nat}
    (h : Function.update l.mid a x b = some (j, n)) (hb : b ≠ a) : l.mid b = some (j, n) := by
  rwa [Function.update_of_ne hb] at h

/-- An account that is quiet although agent `a` works on another one was so before. -/
theorem quiet_of_update {x : Option (Nat × Nat)} {j : Nat}
    (h : ∀ b n, Function.update l.mid a x b ≠ some (j, n)) (hne : ∀ n, l.mid a ≠ some (j, n)) :
    l.Quiet j := by
  intro b n hb
  by_cases heq : b = a
  · exact hne n (heq ▸ hb)
  · exact h b n (by rw [Function.update_of_ne heq]; exact hb)

/-- Agent `a` is the only one at work on the account, before and after. -/
theorem one_update (h : l.Balanced) {x : Option (Nat × Nat)}
    (hx : ∀ j m, x = some (j, m) → l.Quiet j ∨ ∃ n, l.mid a = some (j, n)) :
    ∀ b c j m n, Function.update l.mid a x b = some (j, m) →
      Function.update l.mid a x c = some (j, n) → b = c := by
  have hother : ∀ b j m n, Function.update l.mid a x b = some (j, m) → x = some (j, n) → b = a := by
    intro b j m n hb hxj
    by_contra hne
    have hb := mid_update_of_ne hb hne
    obtain hquiet | ⟨k, hk⟩ := hx j n hxj
    · exact hquiet b m hb
    · exact hne (h.one b a j m k hb hk)
  intro b c j m n hb hc
  -- `a` may be either of the two, or neither
  by_cases hba : b = a
  · by_cases hca : c = a
    · exact hba.trans hca.symm
    · rw [hba, Function.update_self] at hb
      exact absurd (hother c j n m hc hb) hca
  · by_cases hca : c = a
    · rw [hca, Function.update_self] at hc
      exact absurd (hother b j m n hb hc) hba
    · exact h.one b c j m n (mid_update_of_ne hb hba) (mid_update_of_ne hc hca)

/-- Agent `a` works on the account alone, and what is taken for it is set. -/
theorem mid_update (h : l.Balanced) (hi : i < l.count)
    (halone : ∀ b n, b ≠ a → l.mid b ≠ some (i, n)) {b : A} {j n : Nat}
    (hb : Function.update l.mid a (some (i, amount)) b = some (j, n)) :
    j < l.count ∧ Function.update l.taken i amount j = n := by
  by_cases hba : b = a
  · rw [hba, Function.update_self] at hb
    cases hb
    exact ⟨hi, Function.update_self ..⟩
  · have hold := mid_update_of_ne hb hba
    have hne : j ≠ i := by
      rintro rfl
      exact halone b n hba hold
    rw [Function.update_of_ne hne]
    exact h.mid b j n hold

theorem Balanced.begin (h : l.Balanced) (hi : i < l.count) (hidle : l.mid a = none)
    (hquiet : l.Quiet i) (hnoted : l.noted i = 0) : (l.begin a i).Balanced where
  total := h.total
  settled j hj := h.settled j (quiet_of_update hj fun n hn => absurd (hidle.symm.trans hn) nofun)
  mid b j n hb := by
    by_cases hba : b = a
    · rw [hba] at hb
      cases (Function.update_self ..).symm.trans hb
      exact ⟨hi, (h.settled i hquiet).trans hnoted⟩
    · exact h.mid b j n (mid_update_of_ne hb hba)
  one := one_update h fun j m hj => by
    cases hj
    exact .inl hquiet
  fresh := h.fresh

theorem Balanced.grant (h : l.Balanced) (hmid : l.mid a = some (i, 0)) (amount : Nat) :
    (l.grant a i amount).Balanced where
  total := by
    obtain ⟨hi, htaken⟩ := h.mid a i 0 hmid
    have hsum := sum_update (f := l.taken) (Finset.mem_range.mpr hi) amount
    have htotal := h.total
    simp only [Ledger.grant]
    omega
  settled j hj := by
    have hne : j ≠ i := by
      rintro rfl
      exact hj a amount (Function.update_self ..)
    simp only [Ledger.grant, Function.update_of_ne hne]
    refine h.settled j (quiet_of_update hj fun n hn => hne ?_)
    cases hmid.symm.trans hn
    rfl
  mid b j n hb :=
    mid_update h (h.mid a i 0 hmid).1 (fun c m hc hold => hc (h.one c a i m 0 hold hmid)) hb
  one := one_update h fun j m hj => by
    cases hj
    exact .inr ⟨0, hmid⟩
  fresh j hj := by
    obtain ⟨hi, -⟩ := h.mid a i 0 hmid
    have hne : j ≠ i := Nat.ne_of_gt (Nat.lt_of_lt_of_le hi hj)
    simp only [Ledger.grant, Function.update_of_ne hne]
    exact h.fresh j hj

theorem Balanced.settle (h : l.Balanced) (hmid : l.mid a = some (i, amount)) :
    (l.settle a i amount).Balanced where
  total := h.total
  settled j hj := by
    by_cases hji : j = i
    · subst hji
      simp only [Ledger.settle, Function.update_self]
      exact (h.mid a j amount hmid).2
    · simp only [Ledger.settle, Function.update_of_ne hji]
      refine h.settled j (quiet_of_update hj fun n hn => hji ?_)
      cases hmid.symm.trans hn
      rfl
  mid b j n hb := by
    by_cases hba : b = a
    · rw [hba] at hb
      exact absurd ((Function.update_self ..).symm.trans hb) nofun
    · exact h.mid b j n (mid_update_of_ne hb hba)
  one := one_update h nofun
  fresh j hj := by
    obtain ⟨hi, -⟩ := h.mid a i amount hmid
    have hne : j ≠ i := Nat.ne_of_gt (Nat.lt_of_lt_of_le hi hj)
    simp only [Ledger.settle, Function.update_of_ne hne]
    exact h.fresh j hj

theorem Balanced.withdraw (h : l.Balanced) (hi : i < l.count) (hidle : l.mid a = none)
    (hquiet : l.Quiet i) : (l.withdraw a i).Balanced where
  total := by
    have hsum := sum_update (f := l.taken) (Finset.mem_range.mpr hi) 0
    have htotal := h.total
    have hsettled := h.settled i hquiet
    simp only [Ledger.withdraw]
    omega
  settled j hj := by
    have hne : j ≠ i := by
      rintro rfl
      exact hj a 0 (Function.update_self ..)
    simp only [Ledger.withdraw, Function.update_of_ne hne]
    exact h.settled j (quiet_of_update hj fun n hn => absurd (hidle.symm.trans hn) nofun)
  mid b j n hb := mid_update h hi (fun c m _ => hquiet c m) hb
  one := one_update h fun j m hj => by
    cases hj
    exact .inl hquiet
  fresh j hj := by
    have hne : j ≠ i := Nat.ne_of_gt (Nat.lt_of_lt_of_le hi hj)
    simp only [Ledger.withdraw, Function.update_of_ne hne]
    exact h.fresh j hj

omit [DecidableEq A] in
theorem Balanced.grow (h : l.Balanced) : l.grow.Balanced where
  total := by
    simp only [Ledger.grow, Finset.sum_range_succ, (h.fresh l.count (Nat.le_refl _)).1]
    exact h.total
  settled := h.settled
  mid b j n hb := by
    obtain ⟨hj, hn⟩ := h.mid b j n hb
    exact ⟨Nat.lt_succ_of_lt hj, hn⟩
  one := h.one
  fresh j hj := h.fresh j (Nat.le_of_succ_le hj)

end Ledger

end Arras4Core.Lib
