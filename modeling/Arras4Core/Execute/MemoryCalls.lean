/-
  Arras4Core.Execute.MemoryCalls

  Any sequence of calls of a `MemoryTracking`, against what they mean for
  unbounded amounts.  The sum that `reserve` and `borrow` compare with
  `mAvailableMb` is a 32-bit sum: where it wraps around it always fits.  Main
  result: `lawful_iff_noWrap`.
-/

import Arras4Core.Execute.MemoryTracking
import Arras4Core.Lib.Machine

namespace Arras4Core.Execute

open Arras4Core.Lib

namespace MemoryTracking

inductive Call
  | set (available : UInt32)
  | reserve (amount : UInt32)
  | release (amount : UInt32)
  | borrow (amount : UInt32)
  | repay (amount : UInt32)

/-- The returned amount, none for a function that returns nothing. -/
abbrev Answer := Option UInt32

def call (m : MemoryTracking) : Call → Answer × MemoryTracking
  | .set available => (none, set available)
  | .reserve amount => let (deficit, m') := m.reserve amount; (some deficit, m')
  | .release amount => (none, m.release amount)
  | .borrow amount => let (borrowed, m') := m.borrow amount; (some borrowed, m')
  | .repay amount => (none, m.repay amount)

def machine : Machine MemoryTracking Call Answer where
  step m c := some (m.call c)

/-- No more is handed out than there is. -/
def Covered (m : MemoryTracking) : Prop :=
  m.mReservedMb.toNat + m.mBorrowedMb.toNat ≤ m.mAvailableMb.toNat

/-- No more is given back than is outstanding. -/
def Outstanding (m : MemoryTracking) : Call → Prop
  | .release amount => amount ≤ m.mReservedMb
  | .repay amount => amount ≤ m.mBorrowedMb
  | _ => True

instance (m : MemoryTracking) : (c : Call) → Decidable (m.Outstanding c)
  | .release amount => inferInstanceAs (Decidable (amount ≤ m.mReservedMb))
  | .repay amount => inferInstanceAs (Decidable (amount ≤ m.mBorrowedMb))
  | .set _ | .reserve _ | .borrow _ => inferInstanceAs (Decidable True)

/-- The call does not compare a sum that wraps around. -/
def CallNoWrap (m : MemoryTracking) : Call → Prop
  | .reserve amount | .borrow amount => m.NoWrap amount
  | _ => True

instance (m : MemoryTracking) : (c : Call) → Decidable (m.CallNoWrap c)
  | .reserve amount | .borrow amount => inferInstanceAs (Decidable (m.NoWrap amount))
  | .set _ | .release _ | .repay _ => inferInstanceAs (Decidable True)

/-- The tracker with `amount` more reserved. -/
structure Reserved (amount : UInt32) (m m' : MemoryTracking) : Prop where
  available : m'.mAvailableMb = m.mAvailableMb
  reserved : m'.mReservedMb.toNat = m.mReservedMb.toNat + amount.toNat
  borrowed : m'.mBorrowedMb = m.mBorrowedMb

/-- The tracker with `amount` more lent. -/
structure Lent (amount : UInt32) (m m' : MemoryTracking) : Prop where
  available : m'.mAvailableMb = m.mAvailableMb
  reserved : m'.mReservedMb = m.mReservedMb
  borrowed : m'.mBorrowedMb.toNat = m.mBorrowedMb.toNat + amount.toNat

/-- `amount - (available - reserved - borrowed)`, as an integer. -/
def shortfall (m : MemoryTracking) (amount : UInt32) : Int :=
  amount.toNat - (m.mAvailableMb.toNat - m.mReservedMb.toNat - m.mBorrowedMb.toNat : Int)

/-- `reserve` returns 0 exactly when it recorded the reservation, and otherwise
    changes nothing and returns what is missing. -/
def ReserveLawful (m : MemoryTracking) (amount : UInt32) : Prop :=
  ((m.reserve amount).1 = 0 ↔ Reserved amount m (m.reserve amount).2) ∧
    ((m.reserve amount).1 ≠ 0 → (m.reserve amount).2 = m ∧
      ((m.reserve amount).1.toNat : Int) = m.shortfall amount)

/-- `borrow` returns its argument when it recorded the loan, and otherwise 0,
    and changes nothing. -/
def BorrowLawful (m : MemoryTracking) (amount : UInt32) : Prop :=
  (m.borrow amount).1 = amount ∧ Lent amount m (m.borrow amount).2 ∨ m.borrow amount = (0, m)

/-- What a call is to do. -/
def Lawful (m : MemoryTracking) (c : Call) : Prop :=
  (m.call c).2.Covered ∧
    match c with
    | .reserve amount => m.ReserveLawful amount
    | .borrow amount => m.BorrowLawful amount
    | _ => True

variable {m : MemoryTracking} {amount : UInt32}

/-! ## The fit test -/

/-- A sum that does not wrap around is tested as it should be. -/
theorem fits_iff (h : m.NoWrap amount) :
    m.fits amount ↔
      m.mReservedMb.toNat + m.mBorrowedMb.toNat + amount.toNat ≤ m.mAvailableMb.toNat := by
  unfold NoWrap at h
  rw [fits, UInt32.le_iff_toNat_le, UInt32.toNat_add, UInt32.toNat_add]
  omega

/-- A sum that wraps around is less than what is handed out already. -/
theorem fits_of_wrap (hcovered : m.Covered) (h : ¬ m.NoWrap amount) : m.fits amount := by
  have havailable := m.mAvailableMb.toNat_lt
  have hamount := amount.toNat_lt
  unfold Covered at hcovered
  unfold NoWrap at h
  rw [fits, UInt32.le_iff_toNat_le, UInt32.toNat_add, UInt32.toNat_add]
  omega

/-- What `reserve` returns when nothing fits, in 32 bits. -/
theorem deficit_toNat (hcovered : m.Covered) (h : ¬ m.fits amount) (hwrap : m.NoWrap amount) :
    ((amount - (m.mAvailableMb - m.mReservedMb - m.mBorrowedMb)).toNat : Int)
      = m.shortfall amount := by
  have hfits := mt (fits_iff hwrap).mpr h
  unfold Covered at hcovered
  have hfree : (m.mAvailableMb - m.mReservedMb).toNat
      = m.mAvailableMb.toNat - m.mReservedMb.toNat :=
    UInt32.toNat_sub_of_le _ _ (UInt32.le_iff_toNat_le.mpr (by omega))
  have hleft : (m.mAvailableMb - m.mReservedMb - m.mBorrowedMb).toNat
      = m.mAvailableMb.toNat - m.mReservedMb.toNat - m.mBorrowedMb.toNat := by
    rw [UInt32.toNat_sub_of_le _ _ (UInt32.le_iff_toNat_le.mpr (by omega)), hfree]
  rw [UInt32.toNat_sub_of_le _ _ (UInt32.le_iff_toNat_le.mpr (by omega)), hleft, shortfall]
  omega

/-! ## One call -/

theorem reserve_lawful_iff (hcovered : m.Covered) :
    (m.reserve amount).2.Covered ∧ m.ReserveLawful amount ↔ m.NoWrap amount := by
  constructor
  · rintro ⟨hafter, hzero, -⟩
    by_contra hwrap
    have hfits := fits_of_wrap hcovered hwrap
    obtain ⟨havailable, hreserved, hborrowed⟩ := hzero.mp ((reserve_deficit m amount).mpr hfits)
    have hlt := m.mAvailableMb.toNat_lt
    rw [Covered, havailable, hreserved, hborrowed] at hafter
    unfold NoWrap at hwrap
    omega
  · intro hwrap
    by_cases hfits : m.fits amount
    · have hdone : Reserved amount m (m.reserve amount).2 := by
        refine ⟨?_, reserve_of_fits hfits hwrap, reserve_mBorrowedMb m amount⟩
        rw [reserve, if_pos hfits]
      have hzero := (reserve_deficit m amount).mpr hfits
      refine ⟨?_, ⟨fun _ => hdone, fun _ => hzero⟩, fun hne => absurd hzero hne⟩
      have hroom := (fits_iff hwrap).mp hfits
      rw [Covered, hdone.available, hdone.reserved, hdone.borrowed]
      omega
    · have hsame := reserve_of_not_fits hfits
      have hne := mt (reserve_deficit m amount).mp hfits
      refine ⟨by rw [hsame]; exact hcovered, ⟨fun hzero => absurd hzero hne, fun hdone => ?_⟩,
        fun _ => ⟨hsame, ?_⟩⟩
      · -- nothing is recorded unless nothing was asked for, which fits
        have hreserved := hdone.reserved
        rw [hsame] at hreserved
        have hroom := mt (fits_iff hwrap).mpr hfits
        unfold Covered at hcovered
        omega
      · rw [reserve, if_neg hfits]
        exact deficit_toNat hcovered hfits hwrap

theorem borrow_lawful_iff (hcovered : m.Covered) :
    (m.borrow amount).2.Covered ∧ m.BorrowLawful amount ↔ m.NoWrap amount := by
  constructor
  · rintro ⟨hafter, hlawful⟩
    by_contra hwrap
    have hlt := m.mAvailableMb.toNat_lt
    unfold NoWrap at hwrap
    rcases hlawful with ⟨-, havailable, hreserved, hborrowed⟩ | hrefused
    · rw [Covered, havailable, hreserved, hborrowed] at hafter
      omega
    · -- only a loan of nothing returns 0, and nothing always fits
      have hfits := fits_of_wrap hcovered hwrap
      rw [borrow, if_pos hfits] at hrefused
      have hzero : amount.toNat = 0 := congrArg (fun r => r.1.toNat) hrefused
      unfold Covered at hcovered
      omega
  · intro hwrap
    by_cases hfits : m.fits amount
    · have hno : m.mBorrowedMb.toNat + amount.toNat < 2 ^ 32 := by
        unfold NoWrap at hwrap
        omega
      obtain ⟨hreturned, hborrowed⟩ := borrow_of_fits hfits hno
      have hdone : Lent amount m (m.borrow amount).2 := by
        refine ⟨?_, borrow_mReservedMb m amount, hborrowed⟩
        rw [borrow, if_pos hfits]
      refine ⟨?_, .inl ⟨hreturned, hdone⟩⟩
      have hroom := (fits_iff hwrap).mp hfits
      rw [Covered, hdone.available, hdone.reserved, hdone.borrowed]
      omega
    · have hsame := borrow_of_not_fits hfits
      exact ⟨by rw [hsame]; exact hcovered, .inr hsame⟩

/-- A call does what it is to do if and only if its sum does not wrap around. -/
theorem lawful_iff {c : Call} (hcovered : m.Covered) (hout : m.Outstanding c) :
    m.Lawful c ↔ m.CallNoWrap c := by
  cases c with
  | set available =>
    refine iff_of_true ⟨?_, trivial⟩ trivial
    show 0 + 0 ≤ _
    omega
  | reserve amount => exact reserve_lawful_iff hcovered
  | release amount =>
    refine iff_of_true ⟨?_, trivial⟩ trivial
    have hreserved := release_of_le hout
    unfold Covered at hcovered
    show (m.release amount).mReservedMb.toNat + m.mBorrowedMb.toNat ≤ m.mAvailableMb.toNat
    omega
  | borrow amount => exact borrow_lawful_iff hcovered
  | repay amount =>
    refine iff_of_true ⟨?_, trivial⟩ trivial
    have hborrowed := repay_of_le hout
    unfold Covered at hcovered
    show m.mReservedMb.toNat + (m.repay amount).mBorrowedMb.toNat ≤ m.mAvailableMb.toNat
    omega

/-! ## Any sequence of calls -/

/-- Along any sequence of calls that gives back no more than is outstanding, every
    call does what it is to do if and only if no sum wraps around. -/
theorem lawful_iff_noWrap (calls : List Call) (hout : machine.RunWhen Outstanding {} calls) :
    machine.RunWhen Lawful {} calls ↔ machine.RunWhen CallNoWrap {} calls := by
  refine Machine.runWhen_iff (I := Covered) (fun m c => lawful_iff) ?_ (Nat.le_refl _) hout
  intro m c answer m' hcovered hfirst hwrap hstep
  have hafter := ((lawful_iff hcovered hfirst).mpr hwrap).1
  rwa [(Option.some.inj hstep : m.call c = (answer, m'))] at hafter

/-- Of 100 MB 60 are reserved and 30 lent; 20 more are refused until the loan
    is repaid. -/
theorem lawful_iff_noWrap_refused :
    machine.RunWhen Lawful {} [.set 100, .reserve 60, .borrow 30, .reserve 20, .repay 30,
      .reserve 20, .release 80] :=
  (lawful_iff_noWrap _ (Machine.runWhen_of_checks (fun m c => decide (m.Outstanding c))
    (fun _ _ h => of_decide_eq_true h) (by decide))).mpr
    (Machine.runWhen_of_checks (fun m c => decide (m.CallNoWrap c))
      (fun _ _ h => of_decide_eq_true h) (by decide))

/-- Of 100 MB 50 are reserved, and a reservation of 2^32 - 40 MB is granted. -/
theorem not_forall_calls_lawful : ¬ ∀ calls : List Call,
    machine.RunWhen Outstanding {} calls → machine.RunWhen Lawful {} calls := by
  intro h
  have hrun := h [.set 100, .reserve 50, .reserve 4294967256]
    (Machine.runWhen_of_checks (fun m c => decide (m.Outstanding c))
      (fun _ _ h => of_decide_eq_true h) (by decide))
  obtain ⟨-, hset⟩ := hrun
  obtain ⟨-, hreserve⟩ := hset _ _ rfl
  obtain ⟨⟨-, hlawful, -⟩, -⟩ := hreserve _ _ rfl
  exact absurd (hlawful.mp (by decide)).reserved (by decide)

end MemoryTracking

end Arras4Core.Execute
