/-
  Arras4Core.Execute.MemoryTracking

  `impl::MemoryTracking`: three 32-bit counters.  Every function is one critical
  section of the tracker's own mutex.
-/

import Mathlib.Tactic.Linarith

namespace Arras4Core.Execute

structure MemoryTracking where
  mAvailableMb : UInt32 := 0
  mReservedMb : UInt32 := 0
  mBorrowedMb : UInt32 := 0
  deriving DecidableEq

namespace MemoryTracking

def set (available : UInt32) : MemoryTracking := { mAvailableMb := available }

/-- `amount` is free, as far as the 32-bit sum can tell. -/
def fits (m : MemoryTracking) (amount : UInt32) : Prop :=
  m.mReservedMb + m.mBorrowedMb + amount ≤ m.mAvailableMb

instance (m : MemoryTracking) (amount : UInt32) : Decidable (m.fits amount) :=
  inferInstanceAs (Decidable (_ ≤ _))

/-- The deficit, and the tracker after the call. -/
def reserve (m : MemoryTracking) (amount : UInt32) : UInt32 × MemoryTracking :=
  if m.fits amount then (0, { m with mReservedMb := m.mReservedMb + amount })
  else (amount - (m.mAvailableMb - m.mReservedMb - m.mBorrowedMb), m)

def release (m : MemoryTracking) (amount : UInt32) : MemoryTracking :=
  { m with mReservedMb := m.mReservedMb - amount }

/-- The amount borrowed, and the tracker after the call. -/
def borrow (m : MemoryTracking) (amount : UInt32) : UInt32 × MemoryTracking :=
  if m.fits amount then (amount, { m with mBorrowedMb := m.mBorrowedMb + amount })
  else (0, m)

def repay (m : MemoryTracking) (amount : UInt32) : MemoryTracking :=
  { m with mBorrowedMb := m.mBorrowedMb - amount }

variable {m : MemoryTracking} {amount : UInt32}

/-- The sum that is compared does not wrap around. -/
def NoWrap (m : MemoryTracking) (amount : UInt32) : Prop :=
  m.mReservedMb.toNat + m.mBorrowedMb.toNat + amount.toNat < 2 ^ 32

instance (m : MemoryTracking) (amount : UInt32) : Decidable (m.NoWrap amount) :=
  inferInstanceAs (Decidable (_ < _))

/-- A reservation that is granted is added to what is reserved. -/
theorem reserve_of_fits (h : m.fits amount) (hwrap : m.NoWrap amount) :
    (m.reserve amount).2.mReservedMb.toNat = m.mReservedMb.toNat + amount.toNat := by
  unfold NoWrap at hwrap
  rw [reserve, if_pos h]
  simp only [UInt32.toNat_add]
  omega

theorem reserve_of_not_fits (h : ¬ m.fits amount) : (m.reserve amount).2 = m := by
  rw [reserve, if_neg h]

/-- A deficit of zero means that the reservation was granted. -/
theorem reserve_deficit (m : MemoryTracking) (amount : UInt32) :
    (m.reserve amount).1 = 0 ↔ m.fits amount := by
  unfold reserve
  split
  · next h => simp [h]
  · next h =>
    simp only [h, iff_false]
    intro hzero
    have hsum : m.mReservedMb + m.mBorrowedMb + amount = m.mAvailableMb := by grind
    exact h (UInt32.le_of_eq hsum)

@[simp] theorem borrow_mReservedMb (m : MemoryTracking) (amount : UInt32) :
    (m.borrow amount).2.mReservedMb = m.mReservedMb := by
  unfold borrow
  split <;> rfl

@[simp] theorem reserve_mBorrowedMb (m : MemoryTracking) (amount : UInt32) :
    (m.reserve amount).2.mBorrowedMb = m.mBorrowedMb := by
  unfold reserve
  split <;> rfl

theorem borrow_of_not_fits (h : ¬ m.fits amount) : m.borrow amount = (0, m) := by
  rw [borrow, if_neg h]

/-- A loan that is granted is added to what is borrowed. -/
theorem borrow_of_fits (h : m.fits amount) (hwrap : m.mBorrowedMb.toNat + amount.toNat < 2 ^ 32) :
    (m.borrow amount).1 = amount ∧
      (m.borrow amount).2.mBorrowedMb.toNat = m.mBorrowedMb.toNat + amount.toNat := by
  rw [borrow, if_pos h]
  refine ⟨rfl, ?_⟩
  simp only [UInt32.toNat_add]
  omega

/-- A release of no more than is reserved is subtracted from it. -/
theorem release_of_le (h : amount ≤ m.mReservedMb) :
    (m.release amount).mReservedMb.toNat = m.mReservedMb.toNat - amount.toNat :=
  UInt32.toNat_sub_of_le _ _ h

theorem repay_of_le (h : amount ≤ m.mBorrowedMb) :
    (m.repay amount).mBorrowedMb.toNat = m.mBorrowedMb.toNat - amount.toNat :=
  UInt32.toNat_sub_of_le _ _ h

end MemoryTracking

end Arras4Core.Execute
