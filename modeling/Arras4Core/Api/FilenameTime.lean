/-
  Arras4Core.Api.FilenameTime

  `ArrasTime::filenameStr` and `ArrasTime::fromFilename` of ArrasTime_unix.cc: the
  time that is in the name of an autosaved message.  The writer puts a comma between
  the date and the microseconds, the reader expects a dot.

  The calendar functions of the platform are a parameter.

  Main result: `filename_iff`.
-/

import Arras4Core.Api.ArrasTime
import Arras4Core.Lib.Format
import Arras4Core.Lib.Scan
import Arras4Core.Lib.Text

namespace Arras4Core.Api

open Arras4Core.Lib
open Arras4Core.Lib.Scan (stoi scanSign isspace)
open Arras4Core.Lib.Text (cStr)

/-- The platform's functions on `tm`, the last two for "%Y-%m-%d_%H:%M:%S".  The text
    that `strptime` leaves is that behind the date. -/
structure Calendar (Tm : Type) where
  localtime : Int → Tm
  mktime : Tm → Int
  strftime : Tm → List Char
  strptime : List Char → Option (Tm × List Char)
  /-- The text of a date is a C string. -/
  nul_not_mem : ∀ date, '\x00' ∉ strftime date

/-- What `std::stoi` throws. -/
inductive StoiError
  | invalid_argument
  | out_of_range
  deriving DecidableEq

/-- `std::stoi`, with what it throws. -/
def stoiOrThrow (input : List Char) : Except StoiError Int :=
  match stoi input with
  | some n => .ok n
  | none =>
    if (scanSign (input.dropWhile isspace)).2.takeWhile Char.isDigit = [] then
      .error .invalid_argument
    else .error .out_of_range

namespace ArrasTime

variable {Tm : Type} (cal : Calendar Tm)

def filenameStr (t : ArrasTime) : List Char :=
  let td := cal.strftime (cal.localtime t.seconds.toInt)
  let ss : OStream := {}
  let ss := ((ss.put td).put [',']).setfill '0'
  ((ss.setw 6).putInt t.microseconds.toInt).text

/-- `strptime` with the format that ends in a dot. -/
def strptimeDot (s : List Char) : Option (Tm × List Char) :=
  match cal.strptime s with
  | some (date, '.' :: p) => some (date, p)
  | _ => none

/-- The time after the call, and what the call returns or throws. -/
def fromFilename (t : ArrasTime) (s : List Char) : ArrasTime × Except StoiError Bool :=
  match strptimeDot cal (cStr s) with
  | none => (t, .ok false)
  | some (date, p) =>
    if p = [] then (t, .ok false)
    else
      match stoiOrThrow p with
      | .error .invalid_argument => (t, .ok false)
      -- not caught
      | .error .out_of_range => (t, .error .out_of_range)
      | .ok ms =>
        let t := { t with microseconds := Int32.ofInt ms }
        let secs := cal.mktime date
        if secs = -1 then (t, .ok false)
        else ({ t with seconds := Int32.ofInt secs }, .ok true)

/-! ## Reading what was written -/

/-- The name of a time is read as the time, with or without the suffix of a message file. -/
def ReadsBack (t : ArrasTime) : Prop :=
  ∀ suffix ∈ ["".toList, ".msg".toList], ∀ old,
    fromFilename cal old (filenameStr cal t ++ suffix) = (t, .ok true)

/-- A string is refused, and the time is left alone. -/
def Refuses (old : ArrasTime) (s : List Char) : Prop :=
  fromFilename cal old s = (old, .ok false)

/-- There is no date with a dot behind it, or no number behind that; or the date is one
    that `mktime` refuses, and the number is in the time already. -/
def RefusedIf (old : ArrasTime) (s : List Char) : Prop :=
  ∀ date p, strptimeDot cal (cStr s) = some (date, p) → p ≠ [] →
    stoiOrThrow p = .error .invalid_argument ∨
    ∃ ms, stoiOrThrow p = .ok ms ∧ cal.mktime date = -1 ∧ Int32.ofInt ms = old.microseconds

variable {cal}

/-- The name of a time goes on with a comma behind the date. -/
theorem exists_filenameStr (cal : Calendar Tm) (t : ArrasTime) :
    ∃ rest, filenameStr cal t
      = cal.strftime (cal.localtime t.seconds.toInt) ++ ',' :: rest := by
  refine ⟨List.leftpad 6 '0' (OStream.digits 10 t.microseconds.toInt), ?_⟩
  have hzero : ∀ s : List Char, List.leftpad 0 ' ' s = s :=
    fun s => leftpad_of_length_le (Nat.zero_le _)
  simp only [filenameStr, OStream.put, OStream.putInt, OStream.setw, OStream.setfill, hzero,
    List.nil_append, List.append_assoc, List.cons_append]

/-- The reader finds no dot behind the date. -/
theorem fromFilename_filenameStr {t : ArrasTime}
    (hstrptime : ∀ rest, cal.strptime (cal.strftime (cal.localtime t.seconds.toInt) ++ rest)
      = some (cal.localtime t.seconds.toInt, rest)) (suffix : List Char) (old : ArrasTime) :
    fromFilename cal old (filenameStr cal t ++ suffix) = (old, .ok false) := by
  obtain ⟨rest, hname⟩ := exists_filenameStr cal t
  have hcStr : cStr (filenameStr cal t ++ suffix)
      = cal.strftime (cal.localtime t.seconds.toInt) ++ ',' :: cStr (rest ++ suffix) := by
    rw [hname, List.append_assoc, List.cons_append, Text.cStr_append (cal.nul_not_mem _)]
    rfl
  rw [fromFilename, hcStr, strptimeDot, hstrptime]
  rfl

theorem not_readsBack {t : ArrasTime}
    (hstrptime : ∀ rest, cal.strptime (cal.strftime (cal.localtime t.seconds.toInt) ++ rest)
      = some (cal.localtime t.seconds.toInt, rest)) : ¬ ReadsBack cal t := by
  intro h
  have hread := h "".toList (List.mem_cons_self ..) t
  rw [fromFilename_filenameStr hstrptime] at hread
  cases Except.ok.inj (Prod.mk.inj hread).2

/-- The number behind a date, and the date. -/
theorem fromFilename_of_date {old : ArrasTime} {s p : List Char} {date : Tm}
    (hdate : strptimeDot cal (cStr s) = some (date, p)) (hne : p ≠ []) :
    fromFilename cal old s = (old, .ok false) ↔
      stoiOrThrow p = .error .invalid_argument ∨
      ∃ ms, stoiOrThrow p = .ok ms ∧ cal.mktime date = -1 ∧
        Int32.ofInt ms = old.microseconds := by
  rw [fromFilename, hdate]
  dsimp only
  rw [if_neg hne]
  cases hstoi : stoiOrThrow p with
  | error e =>
    cases e with
    | invalid_argument => exact iff_of_true rfl (.inl rfl)
    | out_of_range =>
      refine iff_of_false (fun h => ?_) ?_
      · cases (Prod.mk.inj h).2
      · rintro (h | ⟨ms, h, -⟩) <;> cases h
  | ok ms =>
    dsimp only
    by_cases hmktime : cal.mktime date = -1
    · -- the microseconds have been assigned by now
      rw [if_pos hmktime]
      constructor
      · intro h
        exact .inr ⟨ms, rfl, hmktime, congrArg (·.1.microseconds) h⟩
      · rintro (h | ⟨_, ⟨⟩, -, hsame⟩)
        · cases h
        · rw [hsame]
    · rw [if_neg hmktime]
      refine iff_of_false (fun h => ?_) ?_
      · cases Except.ok.inj (Prod.mk.inj h).2
      · rintro (h | ⟨_, -, hbad, -⟩)
        · cases h
        · exact hmktime hbad

theorem refuses_iff (cal : Calendar Tm) (old : ArrasTime) (s : List Char) :
    Refuses cal old s ↔ RefusedIf cal old s := by
  rw [Refuses, RefusedIf]
  constructor
  · intro h date p hdate hne
    exact (fromFilename_of_date hdate hne).mp h
  · intro h
    cases hdate : strptimeDot cal (cStr s) with
    | none => rw [fromFilename, hdate]
    | some result =>
      obtain ⟨date, p⟩ := result
      by_cases hnil : p = []
      · rw [fromFilename, hdate]
        exact if_pos hnil
      · exact (fromFilename_of_date hdate hnil).mpr (h date p hdate hnil)

/-- No name that was written is read back.  Any string is refused, and the time left
    alone, exactly if it has no date with a dot and a number behind it, up to a date that
    `mktime` refuses. -/
theorem filename_iff {cal : Calendar Tm} {t : ArrasTime} (_ht : t.Normalized)
    (_hseconds : 0 ≤ t.seconds.toInt) (_hmicroseconds : 0 ≤ t.microseconds.toInt)
    (hstrptime : ∀ rest, cal.strptime (cal.strftime (cal.localtime t.seconds.toInt) ++ rest)
      = some (cal.localtime t.seconds.toInt, rest)) :
    ¬ ReadsBack cal t ∧ ∀ old s, Refuses cal old s ↔ RefusedIf cal old s :=
  ⟨not_readsBack hstrptime, refuses_iff cal⟩

/-- The calendar of the first second. -/
def epochCalendar : Calendar Unit where
  localtime _ := ()
  mktime _ := 0
  strftime _ := "1970-01-01_00:00:00".toList
  strptime s :=
    if s.take 19 = "1970-01-01_00:00:00".toList then some ((), s.drop 19) else none
  nul_not_mem _ := by decide

theorem strptime_epochCalendar (rest : List Char) :
    epochCalendar.strptime ("1970-01-01_00:00:00".toList ++ rest) = some ((), rest) := by
  have hlen : ("1970-01-01_00:00:00".toList).length = 19 := by decide
  show (if ("1970-01-01_00:00:00".toList ++ rest).take 19 = "1970-01-01_00:00:00".toList
    then some ((), ("1970-01-01_00:00:00".toList ++ rest).drop 19) else none) = _
  rw [List.take_left' hlen, List.drop_left' hlen, if_pos rfl]

theorem filename_iff_epoch :
    ¬ ReadsBack epochCalendar ⟨0, 500000⟩ ∧
      ∀ old s, Refuses epochCalendar old s ↔ RefusedIf epochCalendar old s :=
  filename_iff (t := ⟨0, 500000⟩) ⟨by decide, by decide, by decide, by decide⟩ (by decide)
    (by decide) strptime_epochCalendar

/-- Half a second after the epoch. -/
theorem not_readsBack_epoch : ¬ ReadsBack epochCalendar ⟨0, 500000⟩ :=
  not_readsBack strptime_epochCalendar

end ArrasTime

end Arras4Core.Api
