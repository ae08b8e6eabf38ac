/-
  Arras4Core.Execute.ProcStat

  The line of `/proc/<pid>/stat`, and `countProcessGroupMembers` of
  execute/process_utils.cc, which looks for the process group in it.

  The name of the process may have any characters but NUL, spaces and parentheses
  included.  `countProcessGroupMembers` looks for the last parenthesis, and so
  finds the right field.  But it reads the file into a buffer of 512 bytes that
  is made a string up to its first NUL, and a line that fills it has none.
-/

import Arras4Core.Api.Exception
import Arras4Core.Lib.Format
import Arras4Core.Lib.Scan
import Arras4Core.Lib.Succeeds
import Arras4Core.Lib.Text

namespace Arras4Core.Execute

open Arras4Core.Api (Exception)
open Arras4Core.Lib
open Arras4Core.Lib.Text

/-! ## The line -/

/-- The name of a process, as the kernel has it. -/
structure CommandName where
  chars : List Char
  noNul : '\x00' ∉ chars

/-- The other fields, in order, with their types in the kernel; `others` are those
    from field 21 on. -/
structure StatFields where
  pid : Nat
  state : Char
  ppid : Int32
  pgrp : Int32
  session : Int32
  tty_nr : Int32
  tpgid : Int32
  flags : UInt32
  minflt : UInt64
  cminflt : UInt64
  majflt : UInt64
  cmajflt : UInt64
  utime : UInt64
  stime : UInt64
  cutime : Int64
  cstime : Int64
  priority : Int64
  nice : Int64
  num_threads : Int64
  others : List Int
  state_isAlpha : state.isAlpha = true

instance : Inhabited StatFields :=
  ⟨⟨1, 'S', 0, 1, 1, 0, -1, 0, 0, 0, 0, 0, 0, 0, 0, 0, 20, 0, 1, [0, 0], rfl⟩⟩

/-- A field behind another. -/
def spaced (n : Int) : List Char := ' ' :: decimal n

namespace StatFields

/-- The fields from the session on. -/
def afterGroup (f : StatFields) : List Int :=
  [f.session.toInt, f.tty_nr.toInt, f.tpgid.toInt, f.flags.toNat, f.minflt.toNat, f.cminflt.toNat,
    f.majflt.toNat, f.cmajflt.toNat, f.utime.toNat, f.stime.toNat, f.cutime.toInt, f.cstime.toInt,
    f.priority.toInt, f.nice.toInt, f.num_threads.toInt] ++ f.others

/-- What is behind the name, from its parenthesis on. -/
def behindName (f : StatFields) : List Char :=
  [' ', f.state] ++ spaced f.ppid.toInt ++ spaced f.pgrp.toInt ++ f.afterGroup.flatMap spaced
    ++ ['\n']

theorem behindName_eq (f : StatFields) : ∃ rest, f.behindName
    = ' ' :: f.state :: ' ' ::
        (decimal f.ppid.toInt ++ ' ' :: (decimal f.pgrp.toInt ++ ' ' :: rest)) := by
  refine ⟨decimal f.session.toInt ++ (f.afterGroup.tail.flatMap spaced ++ ['\n']), ?_⟩
  simp [behindName, afterGroup, spaced]

end StatFields

/-- The line of a process. -/
def statLine (name : CommandName) (f : StatFields) : List Char :=
  decimal f.pid ++ ' ' :: '(' :: name.chars ++ ')' :: f.behindName

/-! ## The process group -/

/-- `get_file_contents`, of a file with these contents; `none` is one that does not
    open.  Without a NUL in the buffer the string goes on behind it. -/
def get_file_contents (contents : Option (List Char)) : Except Exception (List Char) :=
  match contents with
  | none => .ok []
  | some contents =>
    let buffer := contents.take 512
    if buffer.length < 512 || '\x00' ∈ buffer then .ok (cStr buffer)
    else .error .undefinedBehaviour

/-- `static_cast<pid_t>(atol(s.c_str()))` -/
def pidOfText (s : List Char) : Int := Scan.atoi s

/-- The process group that is found in a line; `none` is `continue`. -/
def processGroup (statusLine : List Char) : Option Int :=
  if statusLine = [] then none
  else do
    let index ← rfind statusLine ')'
    -- skip over " %c "
    let index ← find statusLine ' ' (index + 4)
    -- skip over a number
    let index := index + 1
    let index2 ← find statusLine ' ' index
    some (pidOfText (substr statusLine index (index2 - index)))

/-- An entry of `/proc`, with the contents of the file `stat` in it. -/
structure DirEntry where
  d_name : List Char
  stat : Option (List Char)

/-- One round of the loop.  There are at most 2^22 processes, so the count does not
    overflow. -/
def countEntry (aPgid : Int) (memberCount : Nat) (entry : DirEntry) : Except Exception Nat :=
  if (entry.d_name.head?).any Char.isDigit then do
    let statusLine ← get_file_contents entry.stat
    return if processGroup statusLine = some aPgid then memberCount + 1 else memberCount
  else return memberCount

/-- `dir` is none when `/proc` does not open. -/
def countProcessGroupMembers (aPgid : Int) (dir : Option (List DirEntry)) : Except Exception Nat :=
  match dir with
  | none => .ok 0
  | some entries => entries.foldlM (countEntry aPgid) 0

/-! ## What is in `/proc` -/

/-- A process, one that has gone (its file does not open, or it is empty), or
    something else. -/
inductive ProcEntry
  | process (name : CommandName) (f : StatFields)
  | gone (pid : Nat) (opens : Bool)
  | other (d_name : List Char) (stat : Option (List Char))
      (h : (d_name.head?).any Char.isDigit = false)

namespace ProcEntry

def dirEntry : ProcEntry → DirEntry
  | process name f => ⟨decimal f.pid, some (statLine name f)⟩
  | gone pid opens => ⟨decimal pid, if opens then some [] else none⟩
  | other d_name stat _ => ⟨d_name, stat⟩

/-- The process is a member of the group: field 5 of its line. -/
def isMember (aPgid : Int32) : ProcEntry → Bool
  | process _ f => f.pgrp = aPgid
  | _ => false

/-- The line does not fill the buffer. -/
def fits : ProcEntry → Bool
  | process name f => (statLine name f).length < 512
  | _ => true

end ProcEntry

/-! ## Characters of the line -/

theorem mem_decimal {n : Int} {c : Char} (h : c ∈ decimal n) : c = '-' ∨ c.isDigit = true := by
  rcases List.mem_append.mp h with hsign | hdigit
  · split at hsign
    · exact Or.inl (List.mem_singleton.mp hsign)
    · cases hsign
  · exact Or.inr (isDigit_of_mem_toDigits hdigit)

theorem not_mem_decimal {c : Char} (hminus : c ≠ '-') (hdigit : c.isDigit = false) (n : Int) :
    c ∉ decimal n := by
  intro h
  rcases mem_decimal h with rfl | hyes
  · exact hminus rfl
  · cases hdigit.symm.trans hyes

theorem not_mem_spaced {c : Char} (hspace : c ≠ ' ') (hminus : c ≠ '-')
    (hdigit : c.isDigit = false) (n : Int) : c ∉ spaced n :=
  List.not_mem_cons_of_ne_of_not_mem hspace (not_mem_decimal hminus hdigit n)

/-- A character that is in none of the fields behind the name. -/
theorem not_mem_behindName (f : StatFields) {c : Char} (hspace : c ≠ ' ') (hminus : c ≠ '-')
    (hdigit : c.isDigit = false) (halpha : c.isAlpha = false) (hnewline : c ≠ '\n') :
    c ∉ f.behindName := by
  have hstate : c ≠ f.state := by
    rintro rfl
    cases halpha.symm.trans f.state_isAlpha
  have hgroup : c ∉ f.afterGroup.flatMap spaced := by
    intro h
    obtain ⟨n, -, hn⟩ := List.mem_flatMap.mp h
    exact not_mem_spaced hspace hminus hdigit n hn
  simp only [StatFields.behindName, List.mem_append, List.mem_cons, List.not_mem_nil, or_false,
    not_or]
  exact ⟨⟨⟨⟨⟨hspace, hstate⟩, not_mem_spaced hspace hminus hdigit _⟩,
    not_mem_spaced hspace hminus hdigit _⟩, hgroup⟩, hnewline⟩

theorem nul_not_mem_statLine (name : CommandName) (f : StatFields) :
    '\x00' ∉ statLine name f := by
  have hbehind := not_mem_behindName f (c := '\x00') (by decide) (by decide) rfl rfl (by decide)
  have hpid := not_mem_decimal (c := '\x00') (by decide) rfl f.pid
  simp only [statLine, List.mem_append, List.mem_cons, not_or]
  exact ⟨⟨hpid, by decide, by decide, name.noNul⟩, by decide, hbehind⟩

/-! ## Field 5 -/

/-- The number of a text, in the range of a `pid_t`. -/
theorem pidOfText_decimal (n : Int32) : pidOfText (decimal n.toInt) = n.toInt := by
  have hlow := n.le_toInt
  have hhigh := n.toInt_lt
  have hdigits : ∀ c ∈ Nat.toDigits 10 n.toInt.natAbs, c.isDigit = true := fun _ =>
    isDigit_of_mem_toDigits
  obtain ⟨sign, hsign, hvalue⟩ : ∃ sign, Scan.scanSign ((decimal n.toInt).dropWhile Scan.isspace)
      = (sign, Nat.toDigits 10 n.toInt.natAbs) ∧ sign * n.toInt.natAbs = n.toInt := by
    by_cases hneg : n.toInt < 0
    · refine ⟨-1, ?_, by omega⟩
      rw [decimal, if_pos hneg]
      rfl
    · refine ⟨1, ?_, by omega⟩
      obtain ⟨c, cs, hcs, hc⟩ := toDigits_eq_cons n.toInt.natAbs
      rw [decimal, if_neg hneg, List.nil_append, hcs, Scan.scanSign_of_isDigit hc]
  have hnumber : sign * (Nat.ofDigitChars 10 (Nat.toDigits 10 n.toInt.natAbs) 0 : Nat)
      = n.toInt := by
    rw [Nat.ofDigitChars_ten_toDigits, hvalue]
  rw [pidOfText, Scan.atoi_of_scanSign hsign hdigits (by omega) (by omega), hnumber]

/-- Field 5 is found in the line of every process, whatever its name. -/
theorem processGroup_statLine (name : CommandName) (f : StatFields) :
    processGroup (statLine name f) = some f.pgrp.toInt := by
  have hparen : ')' ∉ f.behindName :=
    not_mem_behindName f (by decide) (by decide) rfl rfl (by decide)
  have hline : statLine name f
      = (decimal f.pid ++ ' ' :: '(' :: name.chars) ++ ')' :: f.behindName := by
    simp only [statLine, List.append_assoc, List.cons_append]
  generalize hu : decimal f.pid ++ ' ' :: '(' :: name.chars = u at hline
  have hne : statLine name f ≠ [] := by
    rw [hline]
    simp
  -- the parenthesis behind the name is the last one
  have hrfind : rfind (statLine name f) ')' = some u.length := by
    rw [hline, rfind_append u hparen]
  -- four characters further on is field 4, and field 5 is behind it
  obtain ⟨rest, hrest⟩ := f.behindName_eq
  have hppid : (statLine name f).drop (u.length + 4)
      = decimal f.ppid.toInt ++ ' ' :: (decimal f.pgrp.toInt ++ ' ' :: rest) := by
    rw [hline, hrest, List.drop_append]
    simp
  have hpgrp : (statLine name f).drop (u.length + 4 + (decimal f.ppid.toInt).length + 1)
      = decimal f.pgrp.toInt ++ ' ' :: rest := by
    rw [Nat.add_assoc, ← List.drop_drop, hppid]
    simp
  have hspace : ∀ n : Int, ' ' ∉ decimal n := not_mem_decimal (by decide) rfl
  have hnumber : substr (statLine name f) (u.length + 4 + (decimal f.ppid.toInt).length + 1)
      (some (decimal f.pgrp.toInt).length) = decimal f.pgrp.toInt := by
    rw [substr, hpgrp, List.take_left]
  rw [processGroup, if_neg hne, hrfind]
  simp only [Option.bind_eq_bind, Option.bind_some, find_of_drop hppid (hspace _),
    find_of_drop hpgrp (hspace _), Nat.add_sub_cancel_left, hnumber, pidOfText_decimal]

/-! ## The loop -/

theorem get_file_contents_statLine (name : CommandName) (f : StatFields) :
    get_file_contents (some (statLine name f))
      = if (statLine name f).length < 512 then .ok (statLine name f)
        else .error .undefinedBehaviour := by
  have hnul : '\x00' ∉ (statLine name f).take 512 := fun h =>
    nul_not_mem_statLine name f (List.mem_of_mem_take h)
  by_cases hlt : (statLine name f).length < 512
  · have htake : (statLine name f).take 512 = statLine name f :=
      List.take_of_length_le (Nat.le_of_lt hlt)
    rw [if_pos hlt]
    simp only [get_file_contents, htake, decide_eq_true hlt, Bool.true_or, if_true,
      cStr_of_not_mem (nul_not_mem_statLine name f)]
  · have hlen : ¬ ((statLine name f).take 512).length < 512 := by
      rw [List.length_take]
      omega
    rw [if_neg hlt]
    simp only [get_file_contents, decide_eq_false hlen, decide_eq_false hnul, Bool.or_self]
    rfl

theorem isDigit_head_decimal (pid : Nat) : ((decimal pid).head?).any Char.isDigit = true := by
  have hdecimal : decimal pid = Nat.toDigits 10 pid := by
    rw [decimal, if_neg (by omega), List.nil_append, Int.natAbs_natCast]
  obtain ⟨c, cs, hcs, hc⟩ := toDigits_eq_cons pid
  rw [hdecimal, hcs]
  exact hc

/-- A round of the loop counts what is a member, unless its line fills the buffer. -/
theorem countEntry_dirEntry (aPgid : Int32) (memberCount : Nat) (e : ProcEntry) :
    countEntry aPgid.toInt memberCount e.dirEntry
      = if e.fits then .ok (memberCount + if e.isMember aPgid then 1 else 0)
        else .error .undefinedBehaviour := by
  cases e with
  | process name f =>
    have hgroup : processGroup (statLine name f) = some aPgid.toInt ↔ f.pgrp = aPgid := by
      rw [processGroup_statLine, Option.some_inj, Int32.toInt_inj]
    rw [countEntry, ProcEntry.dirEntry, if_pos (isDigit_head_decimal f.pid),
      get_file_contents_statLine]
    -- a line that does not fit is read past the buffer
    by_cases hfits : (statLine name f).length < 512
    · by_cases hmember : f.pgrp = aPgid <;>
        simp [ProcEntry.fits, ProcEntry.isMember, hfits, hgroup, hmember, pure, Except.pure,
          except_bind_of_ok rfl]
    · simp [ProcEntry.fits, hfits, except_bind_of_error rfl]
  | gone pid opens =>
    rw [countEntry, ProcEntry.dirEntry, if_pos (isDigit_head_decimal pid)]
    cases opens <;> rfl
  | other d_name stat h =>
    rw [countEntry, ProcEntry.dirEntry, if_neg (by simp [h])]
    rfl

theorem foldl_countP {α : Type} (p : α → Bool) (l : List α) (n : Nat) :
    l.foldl (fun n a => n + if p a then 1 else 0) n = n + l.countP p := by
  induction l generalizing n with
  | nil => rfl
  | cons a l ih =>
    rw [List.foldl_cons, ih, List.countP_cons, Nat.add_assoc, Nat.add_comm (l.countP p)]

/-- The members of a group are counted if and only if no line of a process fills
    the buffer. -/
theorem countProcessGroupMembers_iff (aPgid : Int32) (entries : List ProcEntry) :
    countProcessGroupMembers aPgid.toInt (some (entries.map ProcEntry.dirEntry))
        = .ok (entries.countP (ProcEntry.isMember aPgid))
      ↔ ∀ e ∈ entries, e.fits := by
  have hloop : countProcessGroupMembers aPgid.toInt (some (entries.map ProcEntry.dirEntry))
      = entries.foldlM (fun n e => countEntry aPgid.toInt n e.dirEntry) 0 :=
    List.foldlM_map
  rw [hloop]
  constructor
  · intro h
    refine (succeeds_foldlM (fun n e => ?_) entries 0).mp ⟨_, h⟩
    rw [countEntry_dirEntry]
    by_cases hfits : e.fits = true <;> simp [hfits]
  · intro hfits
    have hfold := foldlM_eq_foldl (l := entries) (b := 0)
      (f := fun n e => countEntry aPgid.toInt n e.dirEntry)
      (g := fun n e => n + if e.isMember aPgid then 1 else 0) fun n e he => by
        rw [countEntry_dirEntry, if_pos (hfits e he)]
    rw [hfold, foldl_countP, Nat.zero_add]

end Arras4Core.Execute
