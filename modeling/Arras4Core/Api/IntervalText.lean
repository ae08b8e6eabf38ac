/-
  Arras4Core.Api.IntervalText

  `ArrasTime::intervalStr` against its documented form, `-H:MM:SS,mmm` with the
  sign of a negative interval, minutes and seconds of two digits and milliseconds of
  three.

  The fields are written with `setw` to a stream that fills with blanks, and the sign
  is taken from the seconds alone.

  Main result: `faithful_iff`.
-/

import Arras4Core.Api.ArrasTime
import Arras4Core.Lib.Format

namespace Arras4Core.Api

open Arras4Core.Lib

namespace ArrasTime

/-- `abs(INT_MIN)` is not defined; such intervals are left out below. -/
def intervalStr (t : ArrasTime) : List Char :=
  let sec := t.seconds.toInt.natAbs
  let min := sec / 60
  let ms := t.microseconds.toInt.natAbs / 1000
  let ss : OStream := {}
  let ss := if t.seconds.toInt < 0 then ss.put ['-'] else ss
  let ss := (ss.putInt (min / 60 : Nat)).put [':']
  let ss := ((ss.setw 2).putInt (min % 60 : Nat)).put [':']
  let ss := ((ss.setw 2).putInt (sec % 60 : Nat)).put [',']
  ((ss.setw 3).putInt ms).text

/-! ## The documented form -/

/-- A number of at least one digit. -/
def readNumber (s : List Char) : Option (Nat × List Char) :=
  let digits := s.takeWhile Char.isDigit
  if digits = [] then none
  else some (Nat.ofDigitChars 10 digits 0, s.dropWhile Char.isDigit)

/-- A number of `width` digits. -/
def readField (width : Nat) (s : List Char) : Option (Nat × List Char) :=
  let digits := s.take width
  if digits.length = width ∧ digits.all Char.isDigit then
    some (Nat.ofDigitChars 10 digits 0, s.drop width)
  else none

def expect (c : Char) : List Char → Option (List Char)
  | [] => none
  | d :: s => if d = c then some s else none

/-- `H:MM:SS,mmm`, as a number of milliseconds. -/
def parseUnsigned (s : List Char) : Option Nat := do
  let (hours, s) ← readNumber s
  let s ← expect ':' s
  let (minutes, s) ← readField 2 s
  let s ← expect ':' s
  let (seconds, s) ← readField 2 s
  let s ← expect ',' s
  let (ms, s) ← readField 3 s
  if s = [] then some (((hours * 60 + minutes) * 60 + seconds) * 1000 + ms) else none

def parseInterval (s : List Char) : Option Int :=
  match s with
  | '-' :: rest => (parseUnsigned rest).map fun ms => -(ms : Int)
  | s => (parseUnsigned s).map fun ms => (ms : Int)

/-- The text is read as the interval, in whole milliseconds. -/
def Faithful (t : ArrasTime) : Prop :=
  parseInterval t.intervalStr = some (t.value.tdiv 1000)

/-- Every field has a digit in its first place. -/
def FillsFields (t : ArrasTime) : Prop :=
  10 ≤ t.seconds.toInt.natAbs / 60 % 60 ∧ 10 ≤ t.seconds.toInt.natAbs % 60 ∧
    100 ≤ t.microseconds.toInt.natAbs / 1000

instance (t : ArrasTime) : Decidable (FillsFields t) := by
  unfold FillsFields; infer_instance

/-! ## The fields of the text -/

/-- What `setw` makes of a number. -/
def field (width n : Nat) : List Char := List.leftpad width ' ' (Nat.toDigits 10 n)

theorem digits_natCast (n : Nat) : OStream.digits 10 n = Nat.toDigits 10 n := by
  rw [OStream.digits, if_pos rfl, if_neg (by omega), Int.natAbs_natCast]
  rfl

theorem intervalStr_eq (t : ArrasTime) :
    t.intervalStr = (if t.seconds.toInt < 0 then ['-'] else []) ++
      (Nat.toDigits 10 (t.seconds.toInt.natAbs / 60 / 60) ++ ':' ::
        (field 2 (t.seconds.toInt.natAbs / 60 % 60) ++ ':' ::
          (field 2 (t.seconds.toInt.natAbs % 60) ++ ',' ::
            field 3 (t.microseconds.toInt.natAbs / 1000)))) := by
  have hzero : ∀ s : List Char, List.leftpad 0 ' ' s = s :=
    fun s => leftpad_of_length_le (Nat.zero_le _)
  by_cases hneg : t.seconds.toInt < 0
  · simp only [intervalStr, if_pos hneg, OStream.put, OStream.putInt, OStream.setw, hzero,
      digits_natCast, field, List.append_assoc, List.cons_append, List.nil_append]
  · simp only [intervalStr, if_neg hneg, OStream.put, OStream.putInt, OStream.setw, hzero,
      digits_natCast, field, List.append_assoc, List.cons_append, List.nil_append]

theorem all_isDigit_toDigits (n : Nat) : ∀ c ∈ Nat.toDigits 10 n, c.isDigit = true :=
  fun _ => isDigit_of_mem_toDigits

/-- The number in front of a character that is no digit. -/
theorem readNumber_toDigits (n : Nat) {c : Char} (hc : c.isDigit = false) (rest : List Char) :
    readNumber (Nat.toDigits 10 n ++ c :: rest) = some (n, c :: rest) := by
  have htake : (Nat.toDigits 10 n ++ c :: rest).takeWhile Char.isDigit = Nat.toDigits 10 n := by
    rw [List.takeWhile_append_of_pos (all_isDigit_toDigits n),
      List.takeWhile_cons_of_neg (by simp [hc])]
    exact List.append_nil _
  have hdrop : (Nat.toDigits 10 n ++ c :: rest).dropWhile Char.isDigit = c :: rest := by
    rw [List.dropWhile_append_of_pos (all_isDigit_toDigits n),
      List.dropWhile_cons_of_neg (by simp [hc])]
  rw [readNumber, htake, hdrop, if_neg Nat.toDigits_ne_nil, Nat.ofDigitChars_ten_toDigits]

theorem length_field {width n : Nat} (hwidth : 0 < width) (h : n < 10 ^ width) :
    (field width n).length = width := by
  have hle := (Nat.length_toDigits_le_iff (b := 10) (by decide) hwidth).mpr h
  rw [field, List.length_leftpad]
  omega

/-- A field whose first place has a digit is read, and another is not. -/
theorem readField_field {width n : Nat} (hwidth : 0 < width) (h : n < 10 ^ (width + 1))
    (rest : List Char) :
    readField (width + 1) (field (width + 1) n ++ rest)
      = if 10 ^ width ≤ n then some (n, rest) else none := by
  have hlen := length_field (Nat.succ_pos width) h
  have hle := Nat.length_toDigits_le_iff (b := 10) (n := n) (by decide) hwidth
  rw [readField, List.take_left' hlen, List.drop_left' hlen]
  by_cases hfirst : 10 ^ width ≤ n
  · have hfield : field (width + 1) n = Nat.toDigits 10 n := leftpad_of_length_le (by omega)
    rw [hfield] at hlen ⊢
    rw [if_pos ⟨hlen, List.all_eq_true.mpr (all_isDigit_toDigits n)⟩, if_pos hfirst,
      Nat.ofDigitChars_ten_toDigits]
  · -- a blank stands in the first place
    have hblank : (field (width + 1) n).all Char.isDigit = false := by
      obtain ⟨k, hk⟩ := Nat.exists_eq_add_of_lt (Nat.lt_succ_of_le (hle.mpr (by omega)))
      have hcount : width + 1 - (Nat.toDigits 10 n).length = k + 1 := by omega
      rw [field, List.leftpad, hcount, List.replicate_succ]
      rfl
    rw [if_neg (fun hboth => by rw [hboth.2] at hblank; cases hblank), if_neg hfirst]

/-- The text without its sign is read if every field is filled. -/
theorem parseUnsigned_fields (hours : Nat) {minutes seconds ms : Nat} (hminutes : minutes < 60)
    (hseconds : seconds < 60) (hms : ms < 1000) :
    parseUnsigned (Nat.toDigits 10 hours ++ ':' :: (field 2 minutes ++ ':' ::
        (field 2 seconds ++ ',' :: field 3 ms)))
      = if 10 ≤ minutes ∧ 10 ≤ seconds ∧ 100 ≤ ms then
          some (((hours * 60 + minutes) * 60 + seconds) * 1000 + ms)
        else none := by
  have hread := readNumber_toDigits hours (c := ':') (by decide)
  have hfield2 : ∀ n < 60, ∀ rest,
      readField 2 (field 2 n ++ rest) = if 10 ≤ n then some (n, rest) else none :=
    fun n hn rest => readField_field (by decide) (by omega) rest
  have hfield3 : readField 3 (field 3 ms) = if 100 ≤ ms then some (ms, []) else none := by
    have h : readField (2 + 1) (field (2 + 1) ms ++ []) = _ :=
      readField_field (by decide) (by omega) []
    rwa [List.append_nil] at h
  simp only [parseUnsigned, hread, expect, if_true, Option.bind_eq_bind, Option.bind_some,
    hfield2 minutes hminutes]
  by_cases h₁ : 10 ≤ minutes
  · simp only [if_pos h₁, Option.bind_some, if_true, hfield2 seconds hseconds]
    by_cases h₂ : 10 ≤ seconds
    · simp only [if_pos h₂, Option.bind_some, if_true, hfield3]
      by_cases h₃ : 100 ≤ ms
      · simp only [Option.bind_some, if_true, h₁, h₂, h₃, and_self]
      · simp only [Option.bind_none, h₃, and_false, if_false]
    · simp only [Option.bind_none, h₂, false_and, and_false, if_false]
  · simp only [Option.bind_none, h₁, false_and, if_false]

theorem parseInterval_hyphen (rest : List Char) :
    parseInterval ('-' :: rest) = (parseUnsigned rest).map fun ms => -(ms : Int) := rfl

theorem parseInterval_cons {c : Char} (hc : c ≠ '-') (s : List Char) :
    parseInterval (c :: s) = (parseUnsigned (c :: s)).map fun ms => (ms : Int) := by
  rw [parseInterval]
  intro rest heq
  exact hc (List.cons.inj heq).1

/-- The milliseconds that the fields stand for. -/
def fieldsMs (t : ArrasTime) : Nat :=
  t.seconds.toInt.natAbs * 1000 + t.microseconds.toInt.natAbs / 1000

/-- A text is read if every field is filled, with the sign of the seconds. -/
theorem parseInterval_intervalStr {t : ArrasTime} (ht : t.Normalized) :
    parseInterval t.intervalStr
      = if FillsFields t then
          some (if t.seconds.toInt < 0 then -(t.fieldsMs : Int) else t.fieldsMs)
        else none := by
  obtain ⟨hlow, hhigh, -, -⟩ := ht
  have hminutes : t.seconds.toInt.natAbs / 60 % 60 < 60 := Nat.mod_lt _ (by decide)
  have hseconds : t.seconds.toInt.natAbs % 60 < 60 := Nat.mod_lt _ (by decide)
  have hms : t.microseconds.toInt.natAbs / 1000 < 1000 := by omega
  have hunsigned := parseUnsigned_fields (t.seconds.toInt.natAbs / 60 / 60) hminutes hseconds hms
  have hvalue : (((t.seconds.toInt.natAbs / 60 / 60) * 60 + t.seconds.toInt.natAbs / 60 % 60) * 60
      + t.seconds.toInt.natAbs % 60) * 1000 + t.microseconds.toInt.natAbs / 1000
        = t.fieldsMs := by
    rw [fieldsMs]
    omega
  have hfields := hunsigned.trans
    (if_congr (Iff.rfl : _ ↔ FillsFields t) (congrArg some hvalue) rfl)
  rw [intervalStr_eq]
  by_cases hneg : t.seconds.toInt < 0
  · rw [if_pos hneg, if_pos hneg]
    rw [List.singleton_append, parseInterval_hyphen, hfields]
    split <;> rfl
  · -- a digit of the hours comes first, not a sign
    rw [if_neg hneg, if_neg hneg, List.nil_append]
    obtain ⟨c, cs, hcs, hdigit⟩ := toDigits_eq_cons (t.seconds.toInt.natAbs / 60 / 60)
    have hsign : c ≠ '-' := fun heq => by
      rw [heq] at hdigit
      cases hdigit
    rw [hcs] at hfields ⊢
    rw [List.cons_append, parseInterval_cons hsign, ← List.cons_append, hfields]
    split <;> rfl

/-- Filled fields stand for the interval, which is then a second or longer. -/
theorem tdiv_value {t : ArrasTime} (ht : t.Normalized) (hfills : FillsFields t) :
    t.value.tdiv 1000
      = if t.seconds.toInt < 0 then -(t.fieldsMs : Int) else t.fieldsMs := by
  obtain ⟨-, -, hnonneg, hnonpos⟩ := ht
  obtain ⟨-, hseconds, -⟩ := hfills
  have hms : t.fieldsMs
      = (t.seconds.toInt.natAbs * 1000000 + t.microseconds.toInt.natAbs) / 1000 := by
    rw [fieldsMs]
    omega
  rw [hms]
  -- the seconds are not zero, so they have the sign of the interval
  by_cases hneg : t.seconds.toInt < 0
  · have hvalue : t.value
        = -((t.seconds.toInt.natAbs * 1000000 + t.microseconds.toInt.natAbs : Nat) : Int) := by
      rw [value]
      omega
    rw [if_pos hneg, hvalue, Int.neg_tdiv]
    rfl
  · have hvalue : t.value
        = ((t.seconds.toInt.natAbs * 1000000 + t.microseconds.toInt.natAbs : Nat) : Int) := by
      rw [value]
      omega
    rw [if_neg hneg, hvalue]
    rfl

theorem fillsFields_of_faithful {t : ArrasTime} (ht : t.Normalized) (h : Faithful t) :
    FillsFields t := by
  by_contra hfills
  rw [Faithful, parseInterval_intervalStr ht, if_neg hfills] at h
  cases h

/-- The text of an interval is read as the interval exactly if its minutes, its seconds and
    its milliseconds have a digit in every place. -/
theorem faithful_iff {t : ArrasTime} (ht : t.Normalized)
    (_hrange : -2147483648 < t.seconds.toInt) : Faithful t ↔ FillsFields t := by
  refine ⟨fillsFields_of_faithful ht, fun hfills => ?_⟩
  rw [Faithful, parseInterval_intervalStr ht, if_pos hfills, tdiv_value ht hfills]

/-- Eleven minutes, eleven seconds and a half. -/
theorem faithful_iff_elevens : Faithful ⟨671, 500000⟩ ↔ FillsFields ⟨671, 500000⟩ :=
  faithful_iff ⟨by decide, by decide, by decide, by decide⟩ (by decide)

/-- A second has blanks in its fields. -/
theorem not_faithful_second : ¬ Faithful ⟨1, 0⟩ := fun h =>
  absurd (fillsFields_of_faithful ⟨by decide, by decide, by decide, by decide⟩ h) (by decide)

end ArrasTime

end Arras4Core.Api
