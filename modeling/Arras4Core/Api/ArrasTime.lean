/-
  Arras4Core.Api.ArrasTime

  `api::ArrasTime`, a time or an interval in seconds and microseconds, both `int`.
  The arithmetic goes through the number of microseconds, a `long` of 64 bits, and
  its division and remainder, which truncate.

  A value denotes a number of microseconds.  A normalised value is determined by
  this number, so an operation that comes to the right number comes to the right
  value.

  Main result: `arithmetic`.
-/

import Mathlib.Tactic.Linarith

namespace Arras4Core.Api

structure ArrasTime where
  seconds : Int32 := 0
  microseconds : Int32 := 0
  deriving DecidableEq

namespace ArrasTime

/-- An `unsigned`, which is converted to `long` where it is used. -/
def MILLION : Int64 := 1000000

def toMicroseconds (t : ArrasTime) : Int64 :=
  t.seconds.toInt64 * MILLION + t.microseconds.toInt64

def fromMicroseconds (ms : Int64) : ArrasTime where
  seconds := (ms / MILLION).toInt32
  microseconds := (ms % MILLION).toInt32

def normalize (t : ArrasTime) : ArrasTime := fromMicroseconds t.toMicroseconds

/-- `ArrasTime(s, ms)`. -/
def ofParts (s ms : Int32) : ArrasTime := normalize ⟨s, ms⟩

instance : Add ArrasTime :=
  ⟨fun t u => fromMicroseconds (t.toMicroseconds + u.toMicroseconds)⟩

instance : Sub ArrasTime :=
  ⟨fun t u => fromMicroseconds (t.toMicroseconds - u.toMicroseconds)⟩

instance : BEq ArrasTime :=
  ⟨fun t u => t.seconds == u.seconds && t.microseconds == u.microseconds⟩

instance : LT ArrasTime := ⟨fun t u => t.toMicroseconds < u.toMicroseconds⟩

/-! ## The number of microseconds -/

/-- What a time denotes. -/
def value (t : ArrasTime) : Int := t.seconds.toInt * 1000000 + t.microseconds.toInt

/-- Less than a second of microseconds, on the same side of zero as the seconds. -/
structure Normalized (t : ArrasTime) : Prop where
  lower : -1000000 < t.microseconds.toInt
  upper : t.microseconds.toInt < 1000000
  nonneg : 0 < t.microseconds.toInt → 0 ≤ t.seconds.toInt
  nonpos : t.microseconds.toInt < 0 → t.seconds.toInt ≤ 0

/-- The seconds of a number of microseconds are an `int`. -/
def Fits (v : Int) : Prop := -2147483648 ≤ v.tdiv 1000000 ∧ v.tdiv 1000000 < 2147483648

theorem toInt_bounds (n : Int32) : -2147483648 ≤ n.toInt ∧ n.toInt < 2147483648 :=
  ⟨n.le_toInt, n.toInt_lt⟩

/-- The number that is computed is the number that is denoted: it fits 64 bits. -/
theorem toInt_toMicroseconds (t : ArrasTime) : t.toMicroseconds.toInt = t.value := by
  obtain ⟨hs, hs'⟩ := toInt_bounds t.seconds
  obtain ⟨hm, hm'⟩ := toInt_bounds t.microseconds
  have hmillion : MILLION.toInt = 1000000 := rfl
  -- 2^31 times a million is below 2^51, so that neither step wraps around
  have hmul : (t.seconds.toInt64 * MILLION).toInt = t.seconds.toInt * 1000000 := by
    rw [Int64.toInt_mul, Int32.toInt_toInt64, hmillion]
    exact Int.bmod_eq_of_le (by omega) (by omega)
  rw [toMicroseconds, Int64.toInt_add, hmul, Int32.toInt_toInt64, value]
  exact Int.bmod_eq_of_le (by omega) (by omega)

theorem value_bounds (t : ArrasTime) :
    -2147485795483648 ≤ t.value ∧ t.value < 2147485795483648 := by
  obtain ⟨hs, hs'⟩ := toInt_bounds t.seconds
  obtain ⟨hm, hm'⟩ := toInt_bounds t.microseconds
  rw [value]
  omega

theorem toInt_add_toMicroseconds (t u : ArrasTime) :
    (t.toMicroseconds + u.toMicroseconds).toInt = t.value + u.value := by
  have ht := value_bounds t
  have hu := value_bounds u
  rw [Int64.toInt_add, toInt_toMicroseconds, toInt_toMicroseconds]
  exact Int.bmod_eq_of_le (by omega) (by omega)

theorem toInt_sub_toMicroseconds (t u : ArrasTime) :
    (t.toMicroseconds - u.toMicroseconds).toInt = t.value - u.value := by
  have ht := value_bounds t
  have hu := value_bounds u
  rw [Int64.toInt_sub, toInt_toMicroseconds, toInt_toMicroseconds]
  exact Int.bmod_eq_of_le (by omega) (by omega)

/-! ## Division and remainder -/

/-- The remainder of a truncating division is on the same side of zero as the number. -/
theorem tdiv_tmod (v : Int) :
    v.tdiv 1000000 * 1000000 + v.tmod 1000000 = v ∧
    -1000000 < v.tmod 1000000 ∧ v.tmod 1000000 < 1000000 ∧
    (0 ≤ v → 0 ≤ v.tmod 1000000) ∧ (v ≤ 0 → v.tmod 1000000 ≤ 0) := by
  have heq := Int.tmod_add_tdiv_mul v 1000000
  have hlt := Int.tmod_lt_of_pos v (by decide : (0 : Int) < 1000000)
  have hgt := Int.lt_tmod_of_pos v (by decide : (0 : Int) < 1000000)
  refine ⟨by omega, hgt, hlt, fun h => Int.tmod_nonneg _ h, fun h => ?_⟩
  -- below zero the remainder is that of the negative, negated
  have hneg := Int.tmod_nonneg 1000000 (show 0 ≤ -v by omega)
  rw [Int.neg_tmod] at hneg
  omega

theorem toInt_seconds {ms : Int64} (h : Fits ms.toInt) :
    (fromMicroseconds ms).seconds.toInt = ms.toInt.tdiv 1000000 := by
  obtain ⟨hlow, hhigh⟩ := h
  have hmillion : MILLION.toInt = 1000000 := rfl
  rw [fromMicroseconds, Int64.toInt_toInt32,
    Int64.toInt_div_of_ne_right _ _ (by decide : MILLION ≠ -1), hmillion]
  exact Int.bmod_eq_of_le (by omega) (by omega)

theorem toInt_microseconds (ms : Int64) :
    (fromMicroseconds ms).microseconds.toInt = ms.toInt.tmod 1000000 := by
  obtain ⟨-, hlow, hhigh, -⟩ := tdiv_tmod ms.toInt
  have hmillion : MILLION.toInt = 1000000 := rfl
  rw [fromMicroseconds, Int64.toInt_toInt32, Int64.toInt_mod, hmillion]
  exact Int.bmod_eq_of_le (by omega) (by omega)

theorem value_fromMicroseconds {ms : Int64} (h : Fits ms.toInt) :
    (fromMicroseconds ms).value = ms.toInt := by
  rw [value, toInt_seconds h, toInt_microseconds]
  exact (tdiv_tmod ms.toInt).1

theorem normalized_fromMicroseconds {ms : Int64} (h : Fits ms.toInt) :
    (fromMicroseconds ms).Normalized := by
  obtain ⟨heq, hlow, hhigh, hnonneg, hnonpos⟩ := tdiv_tmod ms.toInt
  refine ⟨?_, ?_, ?_, ?_⟩
  · rw [toInt_microseconds]
    exact hlow
  · rw [toInt_microseconds]
    exact hhigh
  · rw [toInt_microseconds, toInt_seconds h]
    omega
  · rw [toInt_microseconds, toInt_seconds h]
    omega

/-! ## The operations on the numbers -/

/-- A normalised time is the only one with its number. -/
theorem eq_of_value {t u : ArrasTime} (ht : t.Normalized) (hu : u.Normalized)
    (h : t.value = u.value) : t = u := by
  obtain ⟨htlow, hthigh, htnonneg, htnonpos⟩ := ht
  obtain ⟨hulow, huhigh, hunonneg, hunonpos⟩ := hu
  rw [value, value] at h
  -- microseconds of the sign of their seconds cannot make up for a second
  have hseconds : t.seconds = u.seconds := Int32.toInt_inj.mp (by omega)
  have hmicroseconds : t.microseconds = u.microseconds := Int32.toInt_inj.mp (by omega)
  cases t
  cases u
  exact congrArg₂ ArrasTime.mk hseconds hmicroseconds

/-- The number of a time is one that its seconds can hold. -/
theorem fits_value {t : ArrasTime} (h : t.Normalized) : Fits t.value := by
  obtain ⟨hlow, hhigh, hnonneg, hnonpos⟩ := h
  obtain ⟨hs, hs'⟩ := toInt_bounds t.seconds
  obtain ⟨heq, hmlow, hmhigh, hmnonneg, hmnonpos⟩ := tdiv_tmod t.value
  have hvalue : t.value = t.seconds.toInt * 1000000 + t.microseconds.toInt := rfl
  -- the quotient is the seconds again
  constructor <;> omega

theorem value_add {t u : ArrasTime} (h : Fits (t.value + u.value)) :
    (t + u).value = t.value + u.value := by
  rw [← toInt_add_toMicroseconds] at h ⊢
  exact value_fromMicroseconds h

theorem normalized_add {t u : ArrasTime} (h : Fits (t.value + u.value)) : (t + u).Normalized := by
  rw [← toInt_add_toMicroseconds] at h
  exact normalized_fromMicroseconds h

theorem value_sub {t u : ArrasTime} (h : Fits (t.value - u.value)) :
    (t - u).value = t.value - u.value := by
  rw [← toInt_sub_toMicroseconds] at h ⊢
  exact value_fromMicroseconds h

theorem normalized_sub {t u : ArrasTime} (h : Fits (t.value - u.value)) : (t - u).Normalized := by
  rw [← toInt_sub_toMicroseconds] at h
  exact normalized_fromMicroseconds h

theorem lt_iff_value_lt {t u : ArrasTime} : t < u ↔ t.value < u.value := by
  rw [← toInt_toMicroseconds, ← toInt_toMicroseconds]
  exact Int64.lt_iff_toInt_lt

theorem beq_iff {t u : ArrasTime} : (t == u) = true ↔ t = u := by
  show (t.seconds == u.seconds && t.microseconds == u.microseconds) = true ↔ _
  rw [Bool.and_eq_true, beq_iff_eq, beq_iff_eq]
  constructor
  · rintro ⟨hseconds, hmicroseconds⟩
    cases t
    cases u
    exact congrArg₂ ArrasTime.mk hseconds hmicroseconds
  · rintro rfl
    exact ⟨rfl, rfl⟩

/-! ## The laws -/

theorem add_comm (t u : ArrasTime) : t + u = u + t :=
  congrArg fromMicroseconds (Int64.add_comm ..)

theorem add_assoc {t u v : ArrasTime} (htu : Fits (t.value + u.value))
    (huv : Fits (u.value + v.value)) (h : Fits (t.value + u.value + v.value)) :
    t + u + v = t + (u + v) := by
  have hleft : Fits ((t + u).value + v.value) := by rwa [value_add htu]
  have hright : Fits (t.value + (u + v).value) := by
    rwa [value_add huv, ← Int.add_assoc]
  refine eq_of_value (normalized_add hleft) (normalized_add hright) ?_
  rw [value_add hleft, value_add hright, value_add htu, value_add huv, Int.add_assoc]

theorem add_sub_cancel {t u : ArrasTime} (ht : t.Normalized) (h : Fits (t.value + u.value)) :
    t + u - u = t := by
  have hvalue : (t + u).value - u.value = t.value := by
    rw [value_add h]
    omega
  have hfits : Fits ((t + u).value - u.value) := hvalue ▸ fits_value ht
  refine eq_of_value (normalized_sub hfits) ht ?_
  rw [value_sub hfits, hvalue]

theorem beq_iff_value_eq {t u : ArrasTime} (ht : t.Normalized) (hu : u.Normalized) :
    (t == u) = true ↔ t.value = u.value := by
  rw [beq_iff]
  exact ⟨fun h => h ▸ rfl, eq_of_value ht hu⟩

theorem add_lt_add_right {t u v : ArrasTime} (htv : Fits (t.value + v.value))
    (huv : Fits (u.value + v.value)) : t + v < u + v ↔ t < u := by
  rw [lt_iff_value_lt, lt_iff_value_lt, value_add htv, value_add huv]
  omega

theorem normalized_ofParts {s ms : Int32} (h : Fits (ArrasTime.mk s ms).value) :
    (ofParts s ms).Normalized := by
  rw [← toInt_toMicroseconds] at h
  exact normalized_fromMicroseconds h

/-- Where the seconds of the results fit, results are normalised and obey the laws of
    addition; equality of normalised times is equality of the numbers, and the order is
    a strict total one that addition respects. -/
theorem arithmetic {a b : ArrasTime} (ha : a.Normalized) (hb : b.Normalized) (c : ArrasTime) :
    (a + b = b + a ∧
      (Fits (a.value + b.value) → Fits (b.value + c.value) →
        Fits (a.value + b.value + c.value) → a + b + c = a + (b + c)) ∧
      (Fits (a.value + b.value) → a + b - b = a)) ∧
    ((Fits (a.value + b.value) → (a + b).Normalized) ∧
      (Fits (a.value - b.value) → (a - b).Normalized) ∧
      ∀ s ms, Fits (ArrasTime.mk s ms).value → (ofParts s ms).Normalized) ∧
    ((a == b) = true ↔ a.value = b.value) ∧
    (¬ a < a ∧ (a < b → b < c → a < c) ∧ (a < b ∨ (a == b) = true ∨ b < a)) ∧
    (Fits (a.value + c.value) → Fits (b.value + c.value) → (a < b ↔ a + c < b + c)) := by
  refine ⟨⟨add_comm a b, add_assoc, add_sub_cancel ha⟩,
    ⟨normalized_add, normalized_sub, fun _ _ => normalized_ofParts⟩, beq_iff_value_eq ha hb,
    ⟨?_, ?_, ?_⟩, fun hac hbc => (add_lt_add_right hac hbc).symm⟩
  · rw [lt_iff_value_lt]
    omega
  · rw [lt_iff_value_lt, lt_iff_value_lt, lt_iff_value_lt]
    omega
  · rw [lt_iff_value_lt, lt_iff_value_lt, beq_iff_value_eq ha hb]
    omega

/-- One and a half seconds and minus a quarter of one. -/
theorem arithmetic_half_quarter :
    let a : ArrasTime := ⟨1, 500000⟩
    let b : ArrasTime := ⟨0, -250000⟩
    (a + b = b + a ∧ a + b - b = a) ∧ (a + b).Normalized ∧
      (a < b ∨ (a == b) = true ∨ b < a) := by
  intro a b
  have ha : a.Normalized := ⟨by decide, by decide, by decide, by decide⟩
  have hb : b.Normalized := ⟨by decide, by decide, by decide, by decide⟩
  have hfits : Fits (a.value + b.value) := ⟨by decide, by decide⟩
  obtain ⟨⟨hcomm, -, hcancel⟩, ⟨hadd, -⟩, -, ⟨-, -, htotal⟩, -⟩ :=
    arithmetic ha hb {}
  exact ⟨⟨hcomm, hcancel hfits⟩, hadd hfits, htotal⟩

end ArrasTime

end Arras4Core.Api
