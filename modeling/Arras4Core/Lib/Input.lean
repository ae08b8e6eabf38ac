/-
  Arras4Core.Lib.Input

  Formatted input: `std::getline` and the extractors of integers, on a stream of
  characters.  An operation on a stream that has failed or has met its end does
  nothing; one that fails leaves the stream so.

  The extractors are those of a stream with its default flags: white space is
  skipped, numbers are decimal, and digits are not grouped.
-/

import Arras4Core.Lib.Format
import Arras4Core.Lib.Scan

namespace Arras4Core.Lib

/-- What is left of a stream, and whether it is good. -/
structure IStream where
  text : List Char
  good : Bool := true

namespace IStream

/-- `std::getline(is, s, delim)`: the value of `s` if it is changed. -/
def getline (delim : Char) (is : IStream) : Option (List Char) × IStream :=
  if is.good then
    match is.text.dropWhile (· ≠ delim) with
    | [] => (some is.text, ⟨[], false⟩)
    | _ :: rest => (some (is.text.takeWhile (· ≠ delim)), ⟨rest, true⟩)
  else (none, is)

/-- An optional sign: whether it is a minus, and what is behind it. -/
def extractSign : List Char → Bool × List Char
  | '-' :: rest => (true, rest)
  | '+' :: rest => (false, rest)
  | text => (false, text)

/-- `is >> n`: the value of `n` if it is changed.  `convert` is what a sign and the
    digits of a number come to, and whether it is in range. -/
def extract {β : Type} (convert : Bool → Nat → β × Bool) (is : IStream) : Option β × IStream :=
  if is.good then
    match is.text.dropWhile Scan.isspace with
    | [] => (none, ⟨[], false⟩)
    | c :: text =>
      let (minus, rest) := extractSign (c :: text)
      let digits := rest.takeWhile Char.isDigit
      let rest := rest.dropWhile Char.isDigit
      if digits = [] then (some (convert false 0).1, ⟨rest, false⟩)
      else
        let (n, inRange) := convert minus (Nat.ofDigitChars 10 digits 0)
        (some n, ⟨rest, inRange && rest ≠ []⟩)
  else (none, is)

/-- A number of type `unsigned long`.  One with a minus is negated in that type. -/
def toUnsignedLong (minus : Bool) (n : Nat) : UInt64 × Bool :=
  if n < 2 ^ 64 then (if minus then -UInt64.ofNat n else UInt64.ofNat n, true)
  else (UInt64.ofNat (2 ^ 64 - 1), false)

/-- A number of type `long`. -/
def toLong (minus : Bool) (n : Nat) : Int64 × Bool :=
  if minus then
    if n ≤ 2 ^ 63 then (Int64.ofInt (-n), true) else (Int64.minValue, false)
  else
    if n < 2 ^ 63 then (Int64.ofInt n, true) else (Int64.maxValue, false)

theorem takeWhile_append_stop {p : Char → Bool} {c : Char} (hc : p c = false)
    (u rest : List Char) : (u ++ c :: rest).takeWhile p = u.takeWhile p := by
  induction u with
  | nil => simp [hc]
  | cons d u ih =>
    rw [List.cons_append, List.takeWhile_cons, List.takeWhile_cons, ih]

theorem dropWhile_append_stop {p : Char → Bool} {c : Char} (hc : p c = false)
    (u rest : List Char) : (u ++ c :: rest).dropWhile p = u.dropWhile p ++ c :: rest := by
  induction u with
  | nil => simp [hc]
  | cons d u ih =>
    rw [List.cons_append, List.dropWhile_cons, List.dropWhile_cons, ih]
    split <;> rfl

/-! ## Lines -/

theorem getline_append {delim : Char} {piece : List Char} (h : delim ∉ piece)
    (rest : List Char) :
    getline delim ⟨piece ++ delim :: rest, true⟩ = (some piece, ⟨rest, true⟩) := by
  have hpiece : ∀ c ∈ piece, (decide (c ≠ delim)) = true := by
    intro c hc
    refine decide_eq_true ?_
    rintro rfl
    exact h hc
  have htake : (piece ++ delim :: rest).takeWhile (· ≠ delim) = piece := by
    rw [List.takeWhile_append_of_pos hpiece]
    simp
  have hdrop : (piece ++ delim :: rest).dropWhile (· ≠ delim) = delim :: rest := by
    rw [List.dropWhile_append_of_pos hpiece]
    simp
  simp only [getline, if_true, htake, hdrop]

/-! ## Numbers -/

variable {β : Type} {convert : Bool → Nat → β × Bool}

theorem extract_cons_of_isspace {c : Char} (hc : Scan.isspace c = true) (text : List Char) :
    extract convert ⟨c :: text, true⟩ = extract convert ⟨text, true⟩ := by
  simp [extract, hc]

theorem extractSign_of_isDigit {c : Char} (hc : c.isDigit = true) (text : List Char) :
    extractSign (c :: text) = (false, c :: text) := by
  unfold extractSign
  split
  · next heq =>
    cases heq
    cases hc
  · next heq =>
    cases heq
    cases hc
  · rfl

/-- The digits of a number behind its sign, with anything but a digit behind them. -/
theorem extract_digits {text rest digits : List Char} {c first : Char} {others : List Char}
    {minus : Bool} (htext : text.dropWhile Scan.isspace = first :: others)
    (hsign : extractSign (first :: others) = (minus, digits ++ c :: rest))
    (hdigits : ∀ d ∈ digits, d.isDigit = true) (hne : digits ≠ []) (hc : c.isDigit = false) :
    extract convert ⟨text, true⟩
      = (some (convert minus (Nat.ofDigitChars 10 digits 0)).1,
          ⟨c :: rest, (convert minus (Nat.ofDigitChars 10 digits 0)).2⟩) := by
  have htake : (digits ++ c :: rest).takeWhile Char.isDigit = digits := by
    rw [List.takeWhile_append_of_pos hdigits, List.takeWhile_cons_of_neg (by simp [hc]),
      List.append_nil]
  have hdrop : (digits ++ c :: rest).dropWhile Char.isDigit = c :: rest := by
    rw [List.dropWhile_append_of_pos hdigits, List.dropWhile_cons_of_neg (by simp [hc])]
  simp only [extract, if_true, htext, hsign, htake, hdrop, if_neg hne]
  simp

/-- The text of a number with anything but a digit behind it. -/
theorem extract_decimal (n : Int) {c : Char} (hc : c.isDigit = false) (rest : List Char) :
    extract convert ⟨decimal n ++ c :: rest, true⟩
      = (some (convert (n < 0) n.natAbs).1, ⟨c :: rest, (convert (n < 0) n.natAbs).2⟩) := by
  have hdigits : ∀ d ∈ Nat.toDigits 10 n.natAbs, d.isDigit = true := fun _ =>
    isDigit_of_mem_toDigits
  have hne : Nat.toDigits 10 n.natAbs ≠ [] := Nat.toDigits_ne_nil
  have hvalue : Nat.ofDigitChars 10 (Nat.toDigits 10 n.natAbs) 0 = n.natAbs :=
    Nat.ofDigitChars_ten_toDigits
  by_cases hneg : n < 0
  · have hsign : extractSign ('-' :: (Nat.toDigits 10 n.natAbs ++ c :: rest))
        = (true, Nat.toDigits 10 n.natAbs ++ c :: rest) := rfl
    rw [decimal, if_pos hneg]
    refine (extract_digits rfl hsign hdigits hne hc).trans ?_
    rw [hvalue, decide_eq_true hneg]
  · rw [decimal, if_neg hneg, List.nil_append, decide_eq_false hneg]
    obtain ⟨d, digits, hcons, hd⟩ := toDigits_eq_cons n.natAbs
    have htext : (Nat.toDigits 10 n.natAbs ++ c :: rest).dropWhile Scan.isspace
        = d :: (digits ++ c :: rest) := by
      rw [hcons, List.cons_append,
        List.dropWhile_cons_of_neg (by simp [Scan.not_isspace_of_isDigit hd])]
    have hsign : extractSign (d :: (digits ++ c :: rest))
        = (false, Nat.toDigits 10 n.natAbs ++ c :: rest) := by
      rw [extractSign_of_isDigit hd, hcons, List.cons_append]
    rw [extract_digits htext hsign hdigits hne hc, hvalue]

theorem extractSign_append (first : Char) (others text : List Char) :
    extractSign (first :: (others ++ text))
      = ((extractSign (first :: others)).1, (extractSign (first :: others)).2 ++ text) := by
  by_cases hminus : first = '-'
  · subst hminus
    rfl
  · by_cases hplus : first = '+'
    · subst hplus
      rfl
    · have hnone : ∀ rest, extractSign (first :: rest) = (false, first :: rest) := by
        intro rest
        unfold extractSign
        split
        · next heq => exact absurd (List.cons.inj heq).1 hminus
        · next heq => exact absurd (List.cons.inj heq).1 hplus
        · rfl
      rw [hnone, hnone]
      rfl

/-- What is extracted in front of a space does not depend on what is behind it. -/
theorem extract_append_space (convert : Bool → Nat → β × Bool) (u : List Char) {c : Char}
    (hc : Scan.isspace c = false) :
    ∃ n rest good, ∀ text, extract convert ⟨u ++ c :: ' ' :: text, true⟩
      = (n, ⟨rest ++ ' ' :: text, good⟩) := by
  -- white space is skipped up to `c` at the latest
  obtain ⟨first, others, hfirst⟩ : ∃ first others,
      u.dropWhile Scan.isspace ++ [c] = first :: others :=
    List.exists_cons_of_ne_nil (by simp)
  have htext : ∀ text, (u ++ c :: ' ' :: text).dropWhile Scan.isspace
      = first :: (others ++ ' ' :: text) := by
    intro text
    rw [dropWhile_append_stop hc, ← List.cons_append, ← hfirst, List.append_assoc]
    rfl
  obtain ⟨minus, rest, hsign⟩ : ∃ minus rest, extractSign (first :: others) = (minus, rest) :=
    ⟨_, _, rfl⟩
  have hrest : ∀ text, extractSign (first :: (others ++ ' ' :: text))
      = (minus, rest ++ ' ' :: text) := by
    intro text
    rw [extractSign_append, hsign]
  -- and the digits end at the space at the latest
  have htake : ∀ text, (rest ++ ' ' :: text).takeWhile Char.isDigit = rest.takeWhile Char.isDigit :=
    takeWhile_append_stop rfl rest
  have hdrop : ∀ text, (rest ++ ' ' :: text).dropWhile Char.isDigit
      = rest.dropWhile Char.isDigit ++ ' ' :: text := dropWhile_append_stop rfl rest
  by_cases hne : rest.takeWhile Char.isDigit = []
  · refine ⟨some (convert false 0).1, rest.dropWhile Char.isDigit, false, fun text => ?_⟩
    simp only [extract, if_true, htext, hrest, htake, hdrop, if_pos hne]
  · refine ⟨some (convert minus (Nat.ofDigitChars 10 (rest.takeWhile Char.isDigit) 0)).1,
      rest.dropWhile Char.isDigit,
      (convert minus (Nat.ofDigitChars 10 (rest.takeWhile Char.isDigit) 0)).2, fun text => ?_⟩
    simp only [extract, if_true, htext, hrest, htake, hdrop, if_neg hne]
    simp

end IStream

end Arras4Core.Lib
