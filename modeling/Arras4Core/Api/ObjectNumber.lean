/-
  Arras4Core.Api.ObjectNumber

  The numbers among the values of `api::Object`, and how they are read as
  machine integers.  A real value is kept as text; `realValue` is the number it
  stands for, and `none` if it is none (an infinity, or not a number).
-/

import Arras4Core.Api.Object
import Mathlib.Logic.Basic

namespace Arras4Core.Api

open Arras4Core.Lib

/-- The whole part of a number, which a conversion to an integer type keeps. -/
def truncate (q : Rat) : Int := if 0 ≤ q then q.floor else q.ceil

theorem truncate_intCast (n : Int) : truncate n = n := by
  rw [truncate]
  split
  · exact Rat.floor_intCast n
  · exact Rat.ceil_intCast n

/-- A number that is cut off to no less than zero is greater than -1. -/
theorem truncate_nonneg {q : Rat} : 0 ≤ truncate q ↔ -1 < q := by
  rw [truncate]
  split
  · next h =>
    refine iff_of_true (Rat.le_floor_iff.mpr (by simpa using h)) ?_
    exact Std.lt_of_lt_of_le (by decide : (-1 : Rat) < 0) h
  · next h =>
    have hle : q.ceil ≤ -1 ↔ q ≤ -1 := by simpa using Rat.ceil_le_iff (x := q) (y := -1)
    rw [← Rat.not_le, ← hle]
    omega

namespace Object

variable (realValue : String → Option Rat)

/-- `Value::isNull()`. -/
def isNull : Object → Bool
  | null => true
  | _ => false

/-- `Value::isNumeric()`. -/
def isNumeric : Object → Bool
  | int _ => true
  | real _ => true
  | _ => false

/-- The number that a value is. -/
def number? : Object → Option Rat
  | int n => some n
  | real text => realValue text
  | _ => none

/-- `Value::asInt64()` of a numeric value.  The double 2^63, whose conversion is
    undefined, counts as out of range. -/
def asInt64 (o : Object) : Except Exception Int :=
  match o.number? realValue with
  | some q => if -9223372036854775808 ≤ q ∧ q < 9223372036854775808 then .ok (truncate q)
    else .error .jsonLogicError
  | none => .error .jsonLogicError

/-- `Value::asUInt()` of a numeric value. -/
def asUInt (o : Object) : Except Exception UInt32 :=
  match o.number? realValue with
  | some q => if 0 ≤ q ∧ q ≤ 4294967295 then .ok (UInt32.ofNat (truncate q).toNat)
    else .error .jsonLogicError
  | none => .error .jsonLogicError

/-- `Value::asInt()`, of any value. -/
def asInt32 (o : Object) : Except Exception Int32 :=
  match o with
  | null => .ok 0
  | bool b => .ok (if b then 1 else 0)
  | _ =>
    match o.number? realValue with
    | some q => if -2147483648 ≤ q ∧ q ≤ 2147483647 then .ok (Int32.ofInt (truncate q))
      else .error .jsonLogicError
    | none => .error .jsonLogicError

/-- The test `isNumeric() && (asInt64() >= 0)`. -/
def isNatural (o : Object) : Except Exception Bool :=
  if o.isNumeric then do return 0 ≤ (← o.asInt64 realValue)
  else return false

/-- What is read of an optional member behind that test. -/
def asUIntOr (o : Object) (default : UInt32) : Except Exception UInt32 := do
  if ← o.isNatural realValue then o.asUInt realValue
  else return default

/-! ## What the tests let through -/

/-- The value is no number, a negative one that 64 bits hold, or one that an
    `unsigned` holds. -/
def Readable (o : Object) : Prop :=
  o.isNumeric = true → ∃ q ∈ o.number? realValue,
    (-9223372036854775808 ≤ q ∧ q ≤ -1) ∨ (0 ≤ q ∧ q ≤ 4294967295)

/-- The value is a number that is not negative. -/
def HasCount (o : Object) : Prop := ∃ q ∈ o.number? realValue, 0 ≤ q

/-- The number that a value stands for where it may be left out. -/
def countOr (o : Object) (default : Nat) : Nat :=
  match o.number? realValue with
  | some q => if 0 ≤ q then (truncate q).toNat else default
  | none => default

variable {realValue}

theorem isNull_of_isObject {o : Object} (h : o.isObject = true) : o.isNull = false := by
  cases o with
  | object _ => rfl
  | _ => cases h

theorem isNumeric_of_number? {o : Object} {q : Rat} (h : o.number? realValue = some q) :
    o.isNumeric = true := by
  cases o with
  | int _ => rfl
  | real _ => rfl
  | _ => cases h

theorem readable_of_some {o : Object} {q : Rat} (h : o.number? realValue = some q) :
    o.Readable realValue ↔
      (-9223372036854775808 ≤ q ∧ q ≤ -1) ∨ (0 ≤ q ∧ q ≤ 4294967295) := by
  refine ⟨fun hread => ?_, fun hrange _ => ⟨q, h, hrange⟩⟩
  obtain ⟨r, hr, hrange⟩ := hread (isNumeric_of_number? h)
  obtain rfl := Option.some.inj (h.symm.trans hr)
  exact hrange

/-- An `int` is read back. -/
theorem asInt32_int (n : Int32) : (int n.toInt).asInt32 realValue = .ok n := by
  have hlow : ((-2147483648 : Int) : Rat) ≤ n.toInt := Rat.intCast_le_intCast.mpr n.le_toInt
  have hhigh : (n.toInt : Rat) ≤ ((2147483647 : Int) : Rat) :=
    Rat.intCast_le_intCast.mpr (Int.le_of_lt_add_one n.toInt_lt)
  refine (if_pos ⟨hlow, hhigh⟩).trans (congrArg Except.ok ?_)
  rw [truncate_intCast, Int32.ofInt_toInt]

/-- A number within 64 bits passes if its whole part does. -/
theorem isNatural_of_some {o : Object} {q : Rat} (h : o.number? realValue = some q) :
    o.isNatural realValue
      = if -9223372036854775808 ≤ q ∧ q < 9223372036854775808 then .ok (decide (-1 < q))
        else .error .jsonLogicError := by
  rw [isNatural, if_pos (isNumeric_of_number? h), asInt64, h]
  dsimp only
  split
  · exact congrArg Except.ok (decide_eq_decide.mpr truncate_nonneg)
  · rfl

theorem asUInt_of_some {o : Object} {q : Rat} (h : o.number? realValue = some q) :
    o.asUInt realValue
      = if 0 ≤ q ∧ q ≤ 4294967295 then .ok (UInt32.ofNat (truncate q).toNat)
        else .error .jsonLogicError := by
  rw [asUInt, h]

theorem asUIntOr_of_some {o : Object} {q : Rat} (h : o.number? realValue = some q)
    (default : UInt32) :
    o.asUIntOr realValue default
      = if 0 ≤ q ∧ q ≤ 4294967295 then .ok (UInt32.ofNat (truncate q).toNat)
        else if -9223372036854775808 ≤ q ∧ q ≤ -1 then .ok default
        else .error .jsonLogicError := by
  rw [asUIntOr, isNatural_of_some h, asUInt_of_some h]
  by_cases hcount : 0 ≤ q ∧ q ≤ 4294967295
  · have hlong : -9223372036854775808 ≤ q ∧ q < 9223372036854775808 := by grind
    have hnatural : decide (-1 < q) = true := by grind
    rw [if_pos hcount, if_pos hcount, if_pos hlong, hnatural]
    rfl
  · rw [if_neg hcount, if_neg hcount]
    by_cases hneg : -9223372036854775808 ≤ q ∧ q ≤ -1
    · have hlong : -9223372036854775808 ≤ q ∧ q < 9223372036854775808 := by grind
      have hnatural : decide (-1 < q) = false := by grind
      rw [if_pos hneg, if_pos hlong, hnatural]
      rfl
    · rw [if_neg hneg]
      by_cases hlong : -9223372036854775808 ≤ q ∧ q < 9223372036854775808
      · -- between -1 and 0 the first conversion passes and the second does not
        have hnatural : decide (-1 < q) = true := by grind
        rw [if_pos hlong, hnatural]
        rfl
      · rw [if_neg hlong]
        rfl

theorem asUIntOr_of_not_isNumeric {o : Object} (h : o.isNumeric = false) (default : UInt32) :
    o.asUIntOr realValue default = .ok default := by
  rw [asUIntOr, isNatural, if_neg (by simp [h])]
  rfl

/-- A number that is none of the library's. -/
theorem asUIntOr_of_none {o : Object} (hnum : o.isNumeric = true)
    (h : o.number? realValue = none) (default : UInt32) :
    o.asUIntOr realValue default = .error .jsonLogicError := by
  rw [asUIntOr, isNatural, if_pos hnum, asInt64, h]
  rfl

theorem number?_of_not_isNumeric {o : Object} (h : o.isNumeric = false) :
    o.number? realValue = none := by
  cases o with
  | int _ => cases h
  | real _ => cases h
  | _ => rfl

theorem toNat_ofNat_truncate {q : Rat} (h : 0 ≤ q ∧ q ≤ 4294967295) :
    (UInt32.ofNat (truncate q).toNat).toNat = (truncate q).toNat := by
  have hle : truncate q ≤ 4294967295 := by
    rw [truncate, if_pos h.1]
    have hfloor : (q.floor : Rat) ≤ ((4294967295 : Int) : Rat) :=
      Std.le_trans (Rat.floor_le q) h.2
    exact Rat.intCast_le_intCast.mp hfloor
  rw [UInt32.toNat_ofNat']
  omega

variable (realValue) in
/-- What is read where the value can be read, and that nothing is read elsewhere. -/
theorem asUIntOr_cases (o : Object) (default : UInt32) :
    (o.Readable realValue ∧ ∃ n, o.asUIntOr realValue default = .ok n ∧
      n.toNat = o.countOr realValue default.toNat) ∨
    (¬ o.Readable realValue ∧ o.asUIntOr realValue default = .error .jsonLogicError) := by
  cases hnum : o.isNumeric with
  | false =>
    refine .inl ⟨fun h => absurd (hnum.symm.trans h) Bool.false_ne_true, _,
      asUIntOr_of_not_isNumeric hnum default, ?_⟩
    rw [countOr, number?_of_not_isNumeric hnum]
  | true =>
    cases hq : o.number? realValue with
    | none =>
      refine .inr ⟨fun h => ?_, asUIntOr_of_none hnum hq default⟩
      obtain ⟨q, hmem, -⟩ := h hnum
      cases hq.symm.trans hmem
    | some q =>
      rw [readable_of_some hq, asUIntOr_of_some hq, countOr, hq]
      by_cases hcount : 0 ≤ q ∧ q ≤ 4294967295
      · rw [if_pos hcount]
        refine .inl ⟨.inr hcount, _, rfl, ?_⟩
        dsimp only
        rw [if_pos hcount.1, toNat_ofNat_truncate hcount]
      · rw [if_neg hcount]
        by_cases hneg : -9223372036854775808 ≤ q ∧ q ≤ -1
        · have hlt : ¬ 0 ≤ q := by grind
          rw [if_pos hneg]
          refine .inl ⟨.inl hneg, _, rfl, ?_⟩
          dsimp only
          rw [if_neg hlt]
        · rw [if_neg hneg]
          exact .inr ⟨fun h => h.elim hneg hcount, rfl⟩

/-- A value that is no count fails the test, or one of the two conversions throws. -/
theorem isNatural_cases {o : Object} (h : ¬ o.HasCount realValue) :
    (o.Readable realValue ∧ o.isNatural realValue = .ok false) ∨
    (¬ o.Readable realValue ∧
      (o.isNatural realValue = .error .jsonLogicError ∨
        (o.isNatural realValue = .ok true ∧ o.asUInt realValue = .error .jsonLogicError))) := by
  cases hnum : o.isNumeric with
  | false =>
    refine .inl ⟨fun hn => absurd (hnum.symm.trans hn) Bool.false_ne_true, ?_⟩
    rw [isNatural, if_neg (by rw [hnum]; exact Bool.false_ne_true)]
    rfl
  | true =>
    cases hq : o.number? realValue with
    | none =>
      refine .inr ⟨fun hread => ?_, .inl ?_⟩
      · obtain ⟨q, hmem, -⟩ := hread hnum
        cases hq.symm.trans hmem
      · rw [isNatural, if_pos hnum, asInt64, hq]
        rfl
    | some q =>
      have hlt : ¬ 0 ≤ q := fun hle => h ⟨q, hq, hle⟩
      have hcount : ¬ (0 ≤ q ∧ q ≤ 4294967295) := fun hc => hlt hc.1
      rw [readable_of_some hq, isNatural_of_some hq, asUInt_of_some hq, if_neg hcount]
      by_cases hlong : -9223372036854775808 ≤ q ∧ q < 9223372036854775808
      · rw [if_pos hlong]
        by_cases hneg : q ≤ -1
        · have hnatural : decide (-1 < q) = false := by grind
          exact .inl ⟨.inl ⟨hlong.1, hneg⟩, congrArg Except.ok hnatural⟩
        · -- between -1 and 0: the second conversion throws
          have hnatural : decide (-1 < q) = true := by grind
          refine .inr ⟨fun hread => ?_, .inr ⟨congrArg Except.ok hnatural, rfl⟩⟩
          exact hread.elim (fun hr => hneg hr.2) hcount
      · rw [if_neg hlong]
        -- the first conversion throws already
        refine .inr ⟨fun hread => hread.elim (fun hr => hlong ?_) hcount, .inl rfl⟩
        grind

end Object

end Arras4Core.Api
