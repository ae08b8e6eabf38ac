/-
  Arras4Core.Lib.Scan

  The conversions "%s" and "%d" of the `scanf` functions, on a list of
  characters.  A conversion skips white space, takes what it can, and returns the
  input that is left; `none` is a matching or input failure.

  "%d" is as in glibc: the digits are converted with `strtol`, which saturates,
  and the low 32 bits of its result are kept.
-/

import Arras4Core.Lib.Format
import Mathlib.Algebra.Ring.Int.Defs
import Mathlib.Algebra.Ring.Nat
import Mathlib.Data.List.Induction
import Mathlib.Data.List.TakeWhile

namespace Arras4Core.Lib.Scan

def isspace (c : Char) : Bool :=
  c = ' ' || c = '\t' || c = '\n' || c = '\x0b' || c = '\x0c' || c = '\r'

/-- "%s". -/
def scanString (input : List Char) : Option (List Char × List Char) :=
  let input := input.dropWhile isspace
  if input = [] then none
  else some (input.takeWhile (!isspace ·), input.dropWhile (!isspace ·))

/-- The `int` that a converted number is stored as. -/
def toInt (value : Int) : Int :=
  (max (-2 ^ 63) (min (2 ^ 63 - 1) value)).bmod (2 ^ 32)

/-- The sign and the input after it. -/
def scanSign : List Char → Int × List Char
  | '-' :: rest => (-1, rest)
  | '+' :: rest => (1, rest)
  | input => (1, input)

/-- "%d". -/
def scanInt (input : List Char) : Option (Int × List Char) :=
  let (sign, input) := scanSign (input.dropWhile isspace)
  let digits := input.takeWhile Char.isDigit
  if digits = [] then none
  else some (toInt (sign * Nat.ofDigitChars 10 digits 0), input.dropWhile Char.isDigit)

/-- `atoi`, as in glibc; and `atol` of a value that is then made an `int`. -/
def atoi (input : List Char) : Int :=
  let (sign, input) := scanSign (input.dropWhile isspace)
  toInt (sign * Nat.ofDigitChars 10 (input.takeWhile Char.isDigit) 0)

/-- `std::stoi`; `none` when it throws. -/
def stoi (input : List Char) : Option Int :=
  let (sign, input) := scanSign (input.dropWhile isspace)
  let digits := input.takeWhile Char.isDigit
  let value := sign * Nat.ofDigitChars 10 digits 0
  if digits = [] then none
  else if value < -2 ^ 31 ∨ 2 ^ 31 ≤ value then none
  else some value

theorem not_isspace_of_isDigit {c : Char} (h : c.isDigit) : isspace c = false := by
  have hne : ∀ space : Char, space.isDigit = false → c ≠ space := by
    rintro space hspace rfl
    rw [hspace] at h
    cases h
  simp [isspace, hne]

/-- A digit is neither skipped nor a sign. -/
theorem scanSign_of_isDigit {c : Char} (hc : c.isDigit = true) (rest : List Char) :
    scanSign ((c :: rest).dropWhile isspace) = (1, c :: rest) := by
  rw [List.dropWhile_cons_of_neg (by simp [not_isspace_of_isDigit hc])]
  unfold scanSign
  split
  · next heq =>
    cases heq
    cases hc
  · next heq =>
    cases heq
    cases hc
  · rfl

/-- A value in range is kept. -/
theorem toInt_of_lt {value : Int} (hlow : -2 ^ 31 ≤ value) (hhigh : value < 2 ^ 31) :
    toInt value = value := by
  have hclamp : max (-2 ^ 63) (min (2 ^ 63 - 1) value) = value := by omega
  rw [toInt, hclamp]
  exact Int.bmod_eq_of_le (by omega) (by omega)

/-- The value of a sign with digits behind it. -/
theorem atoi_of_scanSign {input digits : List Char} {sign : Int}
    (hsign : scanSign (input.dropWhile isspace) = (sign, digits))
    (hdigits : ∀ c ∈ digits, c.isDigit = true)
    (hlow : -2 ^ 31 ≤ sign * Nat.ofDigitChars 10 digits 0)
    (hhigh : sign * Nat.ofDigitChars 10 digits 0 < 2 ^ 31) :
    atoi input = sign * Nat.ofDigitChars 10 digits 0 := by
  have htake : digits.takeWhile Char.isDigit = digits := List.takeWhile_eq_self_iff.mpr hdigits
  simp only [atoi, hsign, htake]
  exact toInt_of_lt hlow hhigh

theorem scanString_cons_of_isspace {c : Char} (h : isspace c = true) (input : List Char) :
    scanString (c :: input) = scanString input := by
  simp [scanString, h]

theorem scanInt_cons_of_isspace {c : Char} (h : isspace c = true) (input : List Char) :
    scanInt (c :: input) = scanInt input := by
  simp [scanInt, h]

/-- A word that is followed by white space. -/
theorem scanString_append {word : List Char} (hne : word ≠ [])
    (hword : ∀ c ∈ word, isspace c = false) {space : Char} (hspace : isspace space = true)
    (rest : List Char) :
    scanString (word ++ space :: rest) = some (word, space :: rest) := by
  have hskip : (word ++ space :: rest).dropWhile isspace = word ++ space :: rest := by
    obtain ⟨c, word, rfl⟩ := List.exists_cons_of_ne_nil hne
    have hc := hword c (List.mem_cons_self ..)
    simp [hc]
  have hall : ∀ c ∈ word, (!isspace c) = true := by
    intro c hc
    rw [hword c hc]
    rfl
  unfold scanString
  simp only [hskip, List.append_eq_nil_iff, hne, false_and, if_false,
    List.takeWhile_append_of_pos hall, List.dropWhile_append_of_pos hall]
  simp [hspace]

/-- The digits of a number that is followed by white space. -/
theorem scanInt_toDigits (n : Nat) {space : Char} (hspace : isspace space = true)
    (rest : List Char) :
    scanInt (Nat.toDigits 10 n ++ space :: rest) = some (toInt n, space :: rest) := by
  have hdigit : ∀ c ∈ Nat.toDigits 10 n, c.isDigit = true := fun _ => isDigit_of_mem_toDigits
  have hstop : space.isDigit = false := by
    cases h : space.isDigit with
    | false => rfl
    | true =>
      rw [not_isspace_of_isDigit h] at hspace
      cases hspace
  have htake : (Nat.toDigits 10 n ++ space :: rest).takeWhile Char.isDigit
      = Nat.toDigits 10 n := by
    rw [List.takeWhile_append_of_pos hdigit]
    simp [hstop]
  have hdrop : (Nat.toDigits 10 n ++ space :: rest).dropWhile Char.isDigit = space :: rest := by
    rw [List.dropWhile_append_of_pos hdigit]
    simp [hstop]
  have hsign : scanSign ((Nat.toDigits 10 n ++ space :: rest).dropWhile isspace)
      = (1, Nat.toDigits 10 n ++ space :: rest) := by
    obtain ⟨c, cs, hcs, hc⟩ := toDigits_eq_cons n
    rw [hcs, List.cons_append, scanSign_of_isDigit hc]
  simp only [scanInt, hsign, htake, hdrop, Nat.toDigits_ne_nil, if_false,
    Nat.ofDigitChars_ten_toDigits, Int.one_mul]

theorem stoi_of_isDigit {c : Char} (hc : c.isDigit = true) (rest : List Char) :
    stoi (c :: rest) =
      if Nat.ofDigitChars 10 ((c :: rest).takeWhile Char.isDigit) 0 < 2 ^ 31 then
        some ((Nat.ofDigitChars 10 ((c :: rest).takeWhile Char.isDigit) 0 : Nat) : Int)
      else none := by
  have hne : (c :: rest).takeWhile Char.isDigit ≠ [] := by simp [hc]
  rw [stoi, scanSign_of_isDigit hc]
  simp only [hne, if_false, Int.one_mul]
  split <;> split
  · omega
  · rfl
  · rfl
  · omega

/-! ## The digits of a number -/

theorem digitChar_of_isDigit {c : Char} (hc : c.isDigit = true) :
    c.toNat - '0'.toNat < 10 ∧ Nat.digitChar (c.toNat - '0'.toNat) = c := by
  obtain ⟨hlow, hhigh⟩ : '0'.toNat ≤ c.toNat ∧ c.toNat ≤ '9'.toNat := by
    simpa [Char.isDigit, UInt32.le_iff_toNat_le] using hc
  have hten : c.toNat - '0'.toNat < 10 := by
    have : '9'.toNat = '0'.toNat + 9 := rfl
    omega
  have hchar : ∀ n < 10, Nat.digitChar n = Char.ofNat ('0'.toNat + n) := by decide
  refine ⟨hten, ?_⟩
  rw [hchar _ hten, Nat.add_sub_cancel' hlow, Char.ofNat_toNat]

/-- The last digit of a numeral. -/
theorem ofDigitChars_concat (digits : List Char) (c : Char) :
    Nat.ofDigitChars 10 (digits ++ [c]) 0
      = 10 * Nat.ofDigitChars 10 digits 0 + (c.toNat - '0'.toNat) := by
  rw [Nat.ofDigitChars_append, Nat.ofDigitChars_cons, Nat.ofDigitChars_nil]

/-- A numeral with as few digits as its number has no leading zeros. -/
theorem eq_toDigits_of_length {digits : List Char} (hdigits : ∀ c ∈ digits, c.isDigit = true)
    (hne : digits ≠ [])
    (hlen : digits.length ≤ (Nat.toDigits 10 (Nat.ofDigitChars 10 digits 0)).length) :
    digits = Nat.toDigits 10 (Nat.ofDigitChars 10 digits 0) := by
  induction digits using List.reverseRecOn with
  | nil => exact absurd rfl hne
  | append_singleton digits c ih =>
    have hfront : ∀ c ∈ digits, c.isDigit = true := fun d hd =>
      hdigits d (List.mem_append_left _ hd)
    obtain ⟨hten, hchar⟩ := digitChar_of_isDigit (hdigits c (by simp))
    have hlast : Nat.toDigits 10 (c.toNat - '0'.toNat) = [c] := by
      rw [Nat.toDigits_of_lt_base hten, hchar]
    rw [ofDigitChars_concat] at hlen ⊢
    by_cases hzero : Nat.ofDigitChars 10 digits 0 = 0
    · -- the number is a digit, so there is no other
      rw [hzero, Nat.mul_zero, Nat.zero_add, hlast] at hlen ⊢
      have hnil : digits = [] := by
        simpa using hlen
      rw [hnil]
      rfl
    · rw [← Nat.toDigits_append_toDigits (by decide) (Nat.pos_of_ne_zero hzero) hten, hlast]
        at hlen ⊢
      have hfrontNe : digits ≠ [] := by
        rintro rfl
        exact hzero rfl
      rw [← ih hfront hfrontNe (by simpa using hlen)]

end Arras4Core.Lib.Scan
