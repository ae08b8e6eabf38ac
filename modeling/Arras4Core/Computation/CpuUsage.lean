/-
  Arras4Core.Computation.CpuUsage

  `getCpuUsage` of computation_impl/PerformanceMonitor.cc, on the line of a
  process.  It skips 13 fields by their spaces, from the left.  A space in the name
  makes one field two, so the numbers are then read from fields further to the
  left.
-/

import Arras4Core.Execute.ProcStat
import Arras4Core.Lib.Input

namespace Arras4Core.Computation.CpuUsage

open Arras4Core.Api (Exception)
open Arras4Core.Execute
open Arras4Core.Lib
open Arras4Core.Lib.IStream

/-! ## The function -/

/-- `for (i < n) std::getline(input, field, ' ')` -/
def skipFields : Nat → IStream → IStream
  | 0, input => input
  | n + 1, input => skipFields n (input.getline ' ').2

/-- `std::ifstream`, of a file with these contents; `none` is one that does not open. -/
def ifstream : Option (List Char) → IStream
  | none => ⟨[], false⟩
  | some contents => ⟨contents, true⟩

/-- The values of `ticks` and `num_threads` for what was read.  `user_ticks` and
    `system_ticks` are not initialized, `num_threads` keeps its value. -/
def usage (user_ticks system_ticks : Option UInt64) (threads : Option Int64)
    (num_threads : Int64) : Except Exception (UInt64 × Int64) :=
  match user_ticks, system_ticks with
  | some user_ticks, some system_ticks =>
    .ok (user_ticks + system_ticks, threads.getD num_threads)
  | _, _ => .error .undefinedBehaviour

/-- With the value of `num_threads` before. -/
def getCpuUsage (stat : Option (List Char)) (num_threads : Int64) :
    Except Exception (UInt64 × Int64) :=
  -- each number with the stream behind it
  let user_ticks := (skipFields 13 (ifstream stat)).extract toUnsignedLong
  let system_ticks := user_ticks.2.extract toUnsignedLong
  let children_user_ticks := system_ticks.2.extract toLong
  let children_system_ticks := children_user_ticks.2.extract toLong
  let priority := children_system_ticks.2.extract toLong
  let nice := priority.2.extract toLong
  let threads := nice.2.extract toLong
  usage user_ticks.1 system_ticks.1 threads.1 num_threads

/-! ## Skipping -/

/-- Fields without a space are skipped one for one. -/
theorem skipFields_flatMap {fields : List (List Char)} (h : ∀ field ∈ fields, ' ' ∉ field)
    (rest : List Char) :
    skipFields fields.length ⟨fields.flatMap (· ++ [' ']) ++ rest, true⟩ = ⟨rest, true⟩ := by
  induction fields with
  | nil => rfl
  | cons field fields ih =>
    have hfield : (field :: fields).flatMap (· ++ [' ']) ++ rest
        = field ++ ' ' :: (fields.flatMap (· ++ [' ']) ++ rest) := by
      simp
    rw [List.length_cons, skipFields, hfield,
      getline_append (h field (List.mem_cons_self ..))]
    exact ih fun other hother => h other (List.mem_cons_of_mem _ hother)

/-- With enough spaces in front, nothing behind them is skipped. -/
theorem skipFields_of_le_count {n : Nat} {u : List Char} (h : n ≤ u.count ' ') :
    ∃ r, ∀ text, skipFields n ⟨u ++ text, true⟩ = ⟨r ++ text, true⟩ := by
  induction n generalizing u with
  | zero => exact ⟨u, fun text => rfl⟩
  | succ n ih =>
    have hmem : ' ' ∈ u := List.count_pos_iff.mp (by omega)
    obtain ⟨field, rest, rfl, hfield⟩ := List.eq_append_cons_of_mem hmem
    have hrest : n ≤ rest.count ' ' := by
      rw [List.count_append, List.count_eq_zero_of_not_mem hfield, List.count_cons_self] at h
      omega
    obtain ⟨r, hr⟩ := ih hrest
    refine ⟨r, fun text => ?_⟩
    rw [skipFields, List.append_assoc, List.cons_append, getline_append hfield]
    exact hr text

/-! ## Extraction of the fields -/

theorem toUnsignedLong_toNat (n : UInt64) :
    toUnsignedLong (decide ((n.toNat : Int) < 0)) (n.toNat : Int).natAbs = (n, true) := by
  have hneg : ¬ (n.toNat : Int) < 0 := by omega
  rw [decide_eq_false hneg, Int.natAbs_natCast, toUnsignedLong, if_pos n.toNat_lt,
    if_neg (by decide), UInt64.ofNat_toNat]

theorem toLong_toInt (n : Int64) :
    toLong (decide (n.toInt < 0)) n.toInt.natAbs = (n, true) := by
  have hlow := n.le_toInt
  have hhigh := n.toInt_lt
  by_cases hneg : n.toInt < 0
  · have habs : -(n.toInt.natAbs : Int) = n.toInt := by omega
    have hle : n.toInt.natAbs ≤ 2 ^ 63 := by omega
    rw [decide_eq_true hneg, toLong, if_pos rfl, if_pos hle, habs, Int64.ofInt_toInt]
  · have habs : (n.toInt.natAbs : Int) = n.toInt := by omega
    have hlt : n.toInt.natAbs < 2 ^ 63 := by omega
    rw [decide_eq_false hneg, toLong, if_neg (by decide), if_pos hlt, habs, Int64.ofInt_toInt]

/-- A text that a number may stand in front of. -/
def EndsNumber (text : List Char) : Prop := ∃ c rest, text = c :: rest ∧ c.isDigit = false

theorem endsNumber_spaced (n : Int) (text : List Char) : EndsNumber (spaced n ++ text) :=
  ⟨' ', decimal n ++ text, rfl, rfl⟩

theorem extract_unsigned (n : UInt64) {text : List Char} (h : EndsNumber text) :
    extract toUnsignedLong ⟨decimal n.toNat ++ text, true⟩ = (some n, ⟨text, true⟩) := by
  obtain ⟨c, rest, rfl, hc⟩ := h
  rw [extract_decimal _ hc, toUnsignedLong_toNat]

theorem extract_spaced_unsigned (n : UInt64) {text : List Char} (h : EndsNumber text) :
    extract toUnsignedLong ⟨spaced n.toNat ++ text, true⟩ = (some n, ⟨text, true⟩) := by
  rw [spaced, List.cons_append, extract_cons_of_isspace rfl, extract_unsigned n h]

theorem extract_spaced_long (n : Int64) {text : List Char} (h : EndsNumber text) :
    extract toLong ⟨spaced n.toInt ++ text, true⟩ = (some n, ⟨text, true⟩) := by
  obtain ⟨c, rest, rfl, hc⟩ := h
  rw [spaced, List.cons_append, extract_cons_of_isspace rfl, extract_decimal _ hc, toLong_toInt]

/-! ## The fields of a line -/

/-- The fields in front of `utime`. -/
def skipped (name : CommandName) (f : StatFields) : List (List Char) :=
  [decimal f.pid, '(' :: (name.chars ++ [')']), [f.state], decimal f.ppid.toInt,
    decimal f.pgrp.toInt, decimal f.session.toInt, decimal f.tty_nr.toInt, decimal f.tpgid.toInt,
    decimal f.flags.toNat, decimal f.minflt.toNat, decimal f.cminflt.toNat, decimal f.majflt.toNat,
    decimal f.cmajflt.toNat]

/-- What is behind `stime`. -/
def behindTicks (f : StatFields) : List Char :=
  spaced f.cutime.toInt ++ (spaced f.cstime.toInt ++ (spaced f.priority.toInt
    ++ (spaced f.nice.toInt ++ (spaced f.num_threads.toInt
    ++ (f.others.flatMap spaced ++ ['\n'])))))

theorem statLine_eq (name : CommandName) (f : StatFields) :
    statLine name f = (skipped name f).flatMap (· ++ [' '])
      ++ (decimal f.utime.toNat ++ (spaced f.stime.toNat ++ behindTicks f)) := by
  simp [statLine, StatFields.behindName, StatFields.afterGroup, skipped, behindTicks, spaced]

theorem endsNumber_others (others : List Int) :
    EndsNumber (others.flatMap spaced ++ ['\n']) := by
  cases others with
  | nil => exact ⟨'\n', [], rfl, rfl⟩
  | cons n others =>
    rw [List.flatMap_cons, List.append_assoc]
    exact endsNumber_spaced n _

theorem not_mem_skipped {name : CommandName} (h : ' ' ∉ name.chars) (f : StatFields) :
    ∀ field ∈ skipped name f, ' ' ∉ field := by
  have hnumber : ∀ n : Int, ' ' ∉ decimal n := not_mem_decimal (by decide) rfl
  have hname : ' ' ∉ '(' :: (name.chars ++ [')']) := by
    simpa using h
  have hstate : ' ' ∉ [f.state] := by
    intro hmem
    have heq : ' ' = f.state := List.mem_singleton.mp hmem
    exact absurd f.state_isAlpha (heq ▸ by decide)
  simp only [skipped, List.forall_mem_cons]
  simp [hnumber, hname, hstate]

/-- Without a space in the name the right fields are read. -/
theorem getCpuUsage_of_not_mem {name : CommandName} (h : ' ' ∉ name.chars) (f : StatFields)
    (num_threads : Int64) :
    getCpuUsage (some (statLine name f)) num_threads = .ok (f.utime + f.stime, f.num_threads) := by
  have hskip := skipFields_flatMap (not_mem_skipped h f)
    (decimal f.utime.toNat ++ (spaced f.stime.toNat ++ behindTicks f))
  have hlength : (skipped name f).length = 13 := rfl
  rw [hlength, ← statLine_eq] at hskip
  simp only [getCpuUsage, ifstream, hskip, extract_unsigned _ (endsNumber_spaced ..)]
  simp only [behindTicks, extract_spaced_unsigned _ (endsNumber_spaced ..),
    extract_spaced_long _ (endsNumber_spaced ..), extract_spaced_long _ (endsNumber_others _),
    usage, Option.getD_some]

/-! ## A name with a space -/

theorem map_fst_getCpuUsage {stat : List Char} {text rest : List Char} {good : Bool}
    {user_ticks : Option UInt64} (hskip : skipFields 13 ⟨stat, true⟩ = ⟨text, true⟩)
    (huser : extract toUnsignedLong ⟨text, true⟩ = (user_ticks, ⟨rest, good⟩))
    (num_threads : Int64) :
    (getCpuUsage (some stat) num_threads).map Prod.fst
      = (usage user_ticks (extract toUnsignedLong ⟨rest, good⟩).1 none 0).map Prod.fst := by
  simp only [getCpuUsage, ifstream, hskip, huser]
  cases user_ticks with
  | none => rfl
  | some user_ticks => cases (extract toUnsignedLong ⟨rest, good⟩).1 <;> rfl

theorem decimal_eq_concat (n : Int) : ∃ ds d, decimal n = ds ++ [d] ∧ d.isDigit = true := by
  obtain ⟨ds, d, hdigits⟩ := (List.eq_nil_or_concat (Nat.toDigits 10 n.natAbs)).resolve_left
    Nat.toDigits_ne_nil
  have hd : d ∈ Nat.toDigits 10 n.natAbs := by
    rw [hdigits]
    simp
  refine ⟨(if n < 0 then ['-'] else []) ++ ds, d, ?_, isDigit_of_mem_toDigits hd⟩
  rw [decimal, hdigits, List.concat_eq_append, List.append_assoc]

theorem length_le_count_flatMap (fields : List (List Char)) :
    fields.length ≤ (fields.flatMap (· ++ [' '])).count ' ' := by
  induction fields with
  | nil => exact Nat.zero_le _
  | cons field fields ih =>
    rw [List.flatMap_cons, List.count_append, List.count_append, List.length_cons,
      List.count_singleton_self]
    omega

/-- A field with a space in it adds to the spaces behind the fields. -/
theorem length_lt_count_flatMap {fields : List (List Char)} {field : List Char}
    (hmem : field ∈ fields) (h : ' ' ∈ field) :
    fields.length < (fields.flatMap (· ++ [' '])).count ' ' := by
  induction fields with
  | nil => cases hmem
  | cons first fields ih =>
    rw [List.flatMap_cons, List.count_append, List.count_append, List.length_cons,
      List.count_singleton_self]
    rcases List.mem_cons.mp hmem with rfl | hrest
    · have hpos : 0 < field.count ' ' := List.count_pos_iff.mpr h
      have hfields := length_le_count_flatMap fields
      omega
    · have hfields := ih hrest
      omega

/-- There are 13 spaces in front of the last digit of field 13. -/
theorem skipped_eq_of_mem {name : CommandName} (h : ' ' ∈ name.chars) (f : StatFields) :
    ∃ front d, (skipped name f).flatMap (· ++ [' ']) = front ++ [d, ' '] ∧ d.isDigit = true
      ∧ 13 ≤ front.count ' ' := by
  obtain ⟨ds, d, hlast, hd⟩ := decimal_eq_concat f.cmajflt.toNat
  have hsplit : skipped name f = (skipped name f).take 12 ++ [ds ++ [d]] := by
    rw [← hlast]
    rfl
  have hname : '(' :: (name.chars ++ [')']) ∈ (skipped name f).take 12 :=
    List.mem_cons_of_mem _ (List.mem_cons_self ..)
  have hcount := length_lt_count_flatMap hname
    (List.mem_cons_of_mem _ (List.mem_append_left _ h))
  refine ⟨((skipped name f).take 12).flatMap (· ++ [' ']) ++ ds, d, ?_, hd, ?_⟩
  · rw [hsplit, List.flatMap_append, ← hsplit, List.flatMap_singleton, List.append_assoc,
      List.append_assoc]
    rfl
  · have hlength : ((skipped name f).take 12).length = 12 := rfl
    rw [List.count_append]
    omega

/-- With a space in the name the ticks do not depend on field 15. -/
theorem getCpuUsage_of_mem {name : CommandName} (h : ' ' ∈ name.chars) (f : StatFields) :
    ∃ result, ∀ stime num_threads,
      (getCpuUsage (some (statLine name { f with stime := stime })) num_threads).map Prod.fst
        = result := by
  obtain ⟨front, d, hfront, hd, hcount⟩ := skipped_eq_of_mem h f
  obtain ⟨us, e, hutime, he⟩ := decimal_eq_concat f.utime.toNat
  -- what is left begins in front of the last digit of field 13, or further to the left
  obtain ⟨r, hskip⟩ := skipFields_of_le_count hcount
  -- the first number ends at the space behind field 13 at the latest
  obtain ⟨user_ticks, rest, good, huser⟩ :=
    extract_append_space toUnsignedLong r (Scan.not_isspace_of_isDigit hd)
  -- and the second at the space behind field 14
  obtain ⟨system_ticks, hsystem⟩ : ∃ system_ticks, ∀ text,
      (extract toUnsignedLong ⟨rest ++ ' ' :: (us ++ e :: ' ' :: text), good⟩).1
        = system_ticks := by
    cases good with
    | false => exact ⟨none, fun text => rfl⟩
    | true =>
      obtain ⟨system_ticks, _, _, hall⟩ := extract_append_space toUnsignedLong
        (rest ++ ' ' :: us) (Scan.not_isspace_of_isDigit he)
      refine ⟨system_ticks, fun text => ?_⟩
      rw [← List.cons_append, ← List.append_assoc, hall]
  refine ⟨(usage user_ticks system_ticks none 0).map Prod.fst, fun stime num_threads => ?_⟩
  have hline : statLine name { f with stime := stime }
      = front ++ (d :: ' ' :: (us ++ e :: ' ' ::
          (decimal stime.toNat ++ behindTicks { f with stime := stime }))) := by
    have hskipped : skipped name { f with stime := stime } = skipped name f := rfl
    rw [statLine_eq, hskipped, hfront, hutime, spaced]
    simp
  rw [hline, map_fst_getCpuUsage (hskip _) (huser _), hsystem]

/-- The right fields are read whatever they are if and only if there is no space in
    the name. -/
theorem getCpuUsage_iff (name : CommandName) :
    (∀ f num_threads, getCpuUsage (some (statLine name f)) num_threads
        = .ok (f.utime + f.stime, f.num_threads))
      ↔ ' ' ∉ name.chars := by
  constructor
  · intro hall hmem
    -- two lines that differ in field 15 only
    obtain ⟨result, hresult⟩ := getCpuUsage_of_mem hmem default
    have hzero := hresult 0 0
    have hone := hresult 1 0
    rw [hall] at hzero hone
    have heq : (0 : UInt64) + 0 = 0 + 1 := by
      simpa [Except.map] using hzero.trans hone.symm
    exact absurd heq (by decide)
  · intro h f num_threads
    exact getCpuUsage_of_not_mem h f num_threads

/-- Both functions: the one needs a name without a space, the other lines that do
    not fill its buffer. -/
theorem fieldsRead_iff (name : CommandName) (aPgid : Int32) (entries : List ProcEntry) :
    ((∀ f num_threads, getCpuUsage (some (statLine name f)) num_threads
        = .ok (f.utime + f.stime, f.num_threads))
      ↔ ' ' ∉ name.chars) ∧
    (countProcessGroupMembers aPgid.toInt (some (entries.map ProcEntry.dirEntry))
        = .ok (entries.countP (ProcEntry.isMember aPgid))
      ↔ ∀ e ∈ entries, e.fits) :=
  ⟨getCpuUsage_iff name, countProcessGroupMembers_iff aPgid entries⟩

/-- A process `a b` with a tick in the kernel: no tick is found, and no thread. -/
theorem getCpuUsage_space :
    let name : CommandName := ⟨['a', ' ', 'b'], by decide⟩
    let f : StatFields := { (default : StatFields) with stime := 1 }
    getCpuUsage (some (statLine name f)) 0 = .ok (0, 0) ∧
    getCpuUsage (some (statLine name f)) 0 ≠ .ok (f.utime + f.stime, f.num_threads) := by
  intro name f
  have hread : getCpuUsage (some (statLine name f)) 0 = .ok (0, 0) := by
    decide +kernel
  refine ⟨hread, ?_⟩
  rw [hread]
  decide

end Arras4Core.Computation.CpuUsage
