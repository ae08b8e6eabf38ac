/-
  Arras4Core.Execute.ControlGroup

  How `ControlGroup` finds out which control groups are out of memory: the table
  `mOomFds` of the watched groups, the scan of their "memory.oom_control" files,
  the wait for an event, and the functions that return names of subgroups.

  A file is read into a buffer of 50 characters, and a zero is written behind
  what was read.  The files of the kernels this was written for are shorter; a
  longer one has the zero written behind the buffer.

  The contents of the files are what a read of their descriptors returns, one
  `Char` for a byte.  `poll` and `read` of the event descriptor are the platform's:
  a value of `OomWait` is what they return.
-/

import Arras4Core.Lib.Scan
import Std.Data.TreeMap

namespace Arras4Core.Execute

open Arras4Core.Lib
open Std (TreeMap)

/-! ## The files -/

/-- A "memory.oom_control" file.  What newer kernels append is in `further`. -/
structure OomControl where
  oomKillDisable : Nat
  underOom : Nat
  further : List Char := []

def OomControl.text (file : OomControl) : List Char :=
  "oom_kill_disable".toList ++ ' ' :: (Nat.toDigits 10 file.oomKillDisable ++ '\n' ::
    ("under_oom".toList ++ ' ' :: (Nat.toDigits 10 file.underOom ++ '\n' :: file.further)))

/-- `sscanf(buffer, "%*s%*d%*s%d", &status)`, when it returns 1. -/
def scanStatus (buffer : List Char) : Option Int := do
  let (_, rest) ← Scan.scanString buffer
  let (_, rest) ← Scan.scanInt rest
  let (_, rest) ← Scan.scanString rest
  let (status, _) ← Scan.scanInt rest
  return status

/-! ## The functions -/

/-- A write outside of a buffer, which is undefined, or a `runtime_error`. -/
inductive OomError
  | outOfBounds
  | runtimeError
  deriving DecidableEq

/-- `buffer[size] = 0` where `size` characters were read; the result is the string
    in the buffer. -/
def terminate (buffer : List Char) : Except OomError (List Char) :=
  if buffer.length < 50 then .ok (buffer.takeWhile (· ≠ '\x00')) else .error .outOfBounds

/-- What `poll` and `read` of `mEventFd` return. -/
inductive OomWait
  | timedOut
  | reads (size : Int) (eventData : Int)

/-- The wait ends without an event. -/
def OomWait.noEvent : OomWait → Bool
  | .timedOut => true
  | .reads size eventData => size = 0 || (size = 8 && eventData = 0)

structure ControlGroup where
  mValidBase : Bool
  mBaseGroup : String
  mFastOomCheck : Bool
  mOomFds : TreeMap String Int

namespace ControlGroup

/-- One pass of the loop of `scanOomStatus`. -/
def scanOomFd (file : Int → List Char) (groups : List String) (entry : String × Int) :
    Except OomError (List String) := do
  let buffer := (file entry.2).take 50
  if buffer.length > 0 then
    let buffer ← terminate buffer
    if scanStatus buffer = some 1 then return groups ++ [entry.1]
    else return groups
  else return groups

def scanOomStatus (s : ControlGroup) (file : Int → List Char) :
    Except OomError (List String × Nat) := do
  let groups ← s.mOomFds.toList.foldlM (scanOomFd file) []
  return (groups, groups.length)

/-- The part of `waitOomStatus` that waits for an event. -/
def pollOomStatus (s : ControlGroup) (file : Int → List Char) (wait : OomWait)
    (groups : List String) : Except OomError (ControlGroup × List String × Nat) :=
  match wait with
  | .timedOut => return (s, groups, 0)
  | .reads size eventData =>
    if size = 0 then return (s, groups, 0)
    else if size ≠ 8 then throw .runtimeError
    else if eventData = 0 then return (s, groups, 0)
    else do
      let (groups, count) ← s.scanOomStatus file
      return (if count > 0 then { s with mFastOomCheck := false } else s, groups, count)

def waitOomStatus (s : ControlGroup) (file : Int → List Char) (wait : OomWait)
    (groups : List String) : Except OomError (ControlGroup × List String × Nat) :=
  if !s.mFastOomCheck then do
    let (groups, count) ← s.scanOomStatus file
    if count > 0 then return (s, groups, count)
    else
      let s := { s with mFastOomCheck := true }
      s.pollOomStatus file wait groups
  else s.pollOomStatus file wait groups

/-- The loop of `stripPrefix`, at the iterator between `done` and the rest. -/
def stripPrefixFrom (subString : String) (front : List String) : List String → List String
  | [] => front
  | group :: rest =>
    if group.toList.take subString.toList.length = subString.toList then
      stripPrefixFrom subString
        (front ++ [String.ofList (group.toList.drop subString.toList.length)]) rest
    else stripPrefixFrom subString front rest

def stripPrefix (groups : List String) (subString : String) : List String :=
  stripPrefixFrom subString [] groups

def waitOomStatusSubgroup (s : ControlGroup) (file : Int → List Char) (wait : OomWait)
    (groups : List String) : Except OomError (ControlGroup × List String × Nat) :=
  if !s.mValidBase then return (s, groups, 0)
  else do
    let (s, groups, _) ← s.waitOomStatus file wait groups
    let groups := stripPrefix groups (s.mBaseGroup ++ "/")
    return (s, groups, groups.length)

def scanOomStatusSubgroup (s : ControlGroup) (file : Int → List Char) (groups : List String) :
    Except OomError (List String × Nat) :=
  if !s.mValidBase then return (groups, 1)
  else do
    let (groups, _) ← s.scanOomStatus file
    let groups := stripPrefix groups (s.mBaseGroup ++ "/")
    return (groups, groups.length)

/-! ## What is asked of the functions -/

/-- The watched groups that are out of memory. -/
def underOom (s : ControlGroup) (file : Int → OomControl) : List String :=
  (s.mOomFds.toList.filter fun entry => (file entry.2).underOom = 1).map Prod.fst

/-- The part of a group's name that is below the base group. -/
def subgroup? (base group : String) : Option String :=
  if (base ++ "/").toList <+: group.toList then
    some (String.ofList (group.toList.drop (base ++ "/").toList.length))
  else none

theorem subgroup?_eq_some {base group sub : String} :
    subgroup? base group = some sub ↔ group = base ++ "/" ++ sub := by
  unfold subgroup?
  constructor
  · intro h
    split at h
    · next hprefix =>
      obtain ⟨rest, hrest⟩ := hprefix
      rw [← hrest, List.drop_left] at h
      rw [← Option.some.inj h, ← String.toList_inj, String.toList_append, String.toList_ofList]
      exact hrest.symm
    · cases h
  · rintro rfl
    have hlist : (base ++ "/" ++ sub).toList = (base ++ "/").toList ++ sub.toList :=
      String.toList_append
    rw [hlist, if_pos (List.prefix_append _ _), List.drop_left, String.ofList_toList]

/-- Those below the base group.  Without one there are none. -/
def underOomBelow (s : ControlGroup) (file : Int → OomControl) : List String :=
  if s.mValidBase then (s.underOom file).filterMap (subgroup? s.mBaseGroup) else []

/-- The scan stays in its buffer, and each function returns the groups that are out
    of memory, all of them or those below the base group, and their number. -/
structure ScansExactly (s : ControlGroup) (file : Int → OomControl) (wait : OomWait)
    (groups : List String) : Prop where
  scan : s.scanOomStatus (fun fd => (file fd).text)
    = .ok (s.underOom file, (s.underOom file).length)
  scanSubgroup : s.scanOomStatusSubgroup (fun fd => (file fd).text) groups
    = .ok (s.underOomBelow file, (s.underOomBelow file).length)
  waitInBounds : s.waitOomStatusSubgroup (fun fd => (file fd).text) wait groups
    ≠ .error .outOfBounds
  waitSubgroup : ∀ s' groups' count,
    s.waitOomStatusSubgroup (fun fd => (file fd).text) wait groups = .ok (s', groups', count) →
      groups' = s.underOomBelow file ∧ count = (s.underOomBelow file).length

/-- The kernel signals the event descriptor when a watched group runs out of memory:
    after a scan that has found none, a wait that ends without an event means that
    there still is none. -/
def Notifies (s : ControlGroup) (file : Int → OomControl) (wait : OomWait) : Prop :=
  s.mFastOomCheck = true → wait.noEvent = true → s.underOom file = []

/-- The files fit into the buffer, the base group is set, and a vector that is passed
    to a wait without an event has no name below the base group in it. -/
structure WellFormed (s : ControlGroup) (file : Int → OomControl) (wait : OomWait)
    (groups : List String) : Prop where
  fits : ∀ entry ∈ s.mOomFds.toList, (file entry.2).text.length < 50
  converts : ∀ entry ∈ s.mOomFds.toList,
    Scan.toInt (file entry.2).underOom = 1 → (file entry.2).underOom = 1
  base : s.mValidBase = true
  passed : s.mFastOomCheck = true → wait.noEvent = true →
    ∀ group ∈ groups, ∀ sub, group ≠ s.mBaseGroup ++ "/" ++ sub

variable {s : ControlGroup} {file : Int → OomControl} {wait : OomWait} {groups : List String}

/-! ## One file -/

/-- What is read of a file up to the value of "under_oom". -/
theorem scanStatus_text (file : OomControl) :
    scanStatus file.text = some (Scan.toInt file.underOom) := by
  have hnone : ∀ {word : List Char}, (word.all fun c => !Scan.isspace c) = true →
      ∀ c ∈ word, Scan.isspace c = false := by
    intro word hall c hc
    simpa using List.all_eq_true.mp hall c hc
  have hword : ∀ c ∈ "oom_kill_disable".toList, Scan.isspace c = false := hnone (by decide)
  have hword' : ∀ c ∈ "under_oom".toList, Scan.isspace c = false := hnone (by decide)
  unfold scanStatus OomControl.text
  rw [Scan.scanString_append (by decide) hword (by decide)]
  simp only [Option.bind_eq_bind, Option.bind_some]
  rw [Scan.scanInt_cons_of_isspace (by decide), Scan.scanInt_toDigits _ (by decide)]
  simp only [Option.bind_some]
  rw [Scan.scanString_cons_of_isspace (by decide),
    Scan.scanString_append (by decide) hword' (by decide)]
  simp only [Option.bind_some]
  rw [Scan.scanInt_cons_of_isspace (by decide), Scan.scanInt_toDigits _ (by decide)]
  rfl

/-- A zero in the appended lines does not reach what is scanned. -/
theorem takeWhile_text (file : OomControl) :
    file.text.takeWhile (· ≠ '\x00')
      = { file with further := file.further.takeWhile (· ≠ '\x00') }.text := by
  have hdigits : ∀ n, ∀ c ∈ Nat.toDigits 10 n, decide (c ≠ '\x00') = true := by
    intro n c hc
    have hdigit := isDigit_of_mem_toDigits hc
    rw [decide_eq_true_eq]
    rintro rfl
    cases hdigit
  unfold OomControl.text
  rw [List.takeWhile_append_of_pos (List.all_eq_true.mp (by decide)),
    List.takeWhile_cons_of_pos (by decide),
    List.takeWhile_append_of_pos (hdigits _), List.takeWhile_cons_of_pos (by decide),
    List.takeWhile_append_of_pos (List.all_eq_true.mp (by decide)),
    List.takeWhile_cons_of_pos (by decide),
    List.takeWhile_append_of_pos (hdigits _), List.takeWhile_cons_of_pos (by decide)]

theorem text_ne_nil (file : OomControl) : file.text ≠ [] := by
  unfold OomControl.text
  exact List.append_ne_nil_of_left_ne_nil (by decide) _

theorem scanStatus_terminate {file : OomControl} (h : file.text.length < 50) :
    ∃ buffer, terminate file.text = .ok buffer ∧
      scanStatus buffer = some (Scan.toInt file.underOom) := by
  refine ⟨_, if_pos h, ?_⟩
  rw [takeWhile_text, scanStatus_text]

/-- One file is scanned as it should be, or the zero is written behind the buffer. -/
theorem scanOomFd_text (groups : List String) (entry : String × Int) :
    scanOomFd (fun fd => (file fd).text) groups entry
      = if (file entry.2).text.length < 50 then
          .ok (groups ++ if Scan.toInt (file entry.2).underOom = 1 then [entry.1] else [])
        else .error .outOfBounds := by
  have hpos : 0 < ((file entry.2).text.take 50).length := by
    have hne := List.length_pos_iff.mpr (text_ne_nil (file entry.2))
    rw [List.length_take]
    omega
  unfold scanOomFd
  rw [if_pos hpos]
  by_cases hfits : (file entry.2).text.length < 50
  · obtain ⟨buffer, hbuffer, hstatus⟩ := scanStatus_terminate hfits
    rw [if_pos hfits, List.take_of_length_le (Nat.le_of_lt hfits), hbuffer]
    show (if scanStatus buffer = some 1 then _ else _) = _
    rw [hstatus]
    by_cases hone : Scan.toInt (file entry.2).underOom = 1
    · rw [hone, if_pos rfl, if_pos rfl]
      rfl
    · rw [if_neg (fun h => hone (Option.some.inj h)), if_neg hone, List.append_nil]
      rfl
  · -- the buffer is full, and the zero goes behind it
    have hfull : ¬ ((file entry.2).text.take 50).length < 50 := by
      rw [List.length_take]
      omega
    rw [if_neg hfits, terminate, if_neg hfull]
    rfl

/-! ## The scan -/

/-- The files that the code takes for those of groups that are out of memory. -/
def reported (s : ControlGroup) (file : Int → OomControl) : List String :=
  (s.mOomFds.toList.filter fun entry => Scan.toInt (file entry.2).underOom = 1).map Prod.fst

theorem foldlM_scanOomFd (entries : List (String × Int)) (groups : List String) :
    entries.foldlM (scanOomFd fun fd => (file fd).text) groups
      = if ∀ entry ∈ entries, (file entry.2).text.length < 50 then
          .ok (groups ++
            (entries.filter fun entry => Scan.toInt (file entry.2).underOom = 1).map Prod.fst)
        else .error .outOfBounds := by
  induction entries generalizing groups with
  | nil => simp [List.foldlM, pure, Except.pure]
  | cons entry entries ih =>
    rw [List.foldlM_cons, scanOomFd_text]
    by_cases hfits : (file entry.2).text.length < 50
    · rw [if_pos hfits]
      show entries.foldlM _ _ = _
      rw [ih]
      by_cases hall : ∀ entry ∈ entries, (file entry.2).text.length < 50
      · have hboth : ∀ e ∈ entry :: entries, (file e.2).text.length < 50 :=
          List.forall_mem_cons.mpr ⟨hfits, hall⟩
        rw [if_pos hall, if_pos hboth]
        by_cases hone : Scan.toInt (file entry.2).underOom = 1 <;> simp [hone]
      · rw [if_neg hall, if_neg fun h => hall (List.forall_mem_cons.mp h).2]
    · rw [if_neg hfits, if_neg]
      · rfl
      · intro hall
        exact hfits (hall entry (List.mem_cons_self ..))

theorem scanOomStatus_eq : s.scanOomStatus (fun fd => (file fd).text)
    = if ∀ entry ∈ s.mOomFds.toList, (file entry.2).text.length < 50 then
        .ok (s.reported file, (s.reported file).length)
      else .error .outOfBounds := by
  unfold scanOomStatus
  rw [foldlM_scanOomFd]
  split <;> rfl

/-- The names in the table are distinct, so the two lists agree only if every file
    is converted as it should be. -/
theorem reported_eq_iff : s.reported file = s.underOom file ↔
    ∀ entry ∈ s.mOomFds.toList,
      Scan.toInt (file entry.2).underOom = 1 → (file entry.2).underOom = 1 := by
  constructor
  · rintro heq ⟨name, fd⟩ hentry hone
    have hname : name ∈ s.underOom file := by
      rw [← heq]
      exact List.mem_map.mpr ⟨_, List.mem_filter.mpr ⟨hentry, decide_eq_true hone⟩, rfl⟩
    obtain ⟨⟨name', fd'⟩, hentry', rfl⟩ := List.mem_map.mp hname
    obtain ⟨hentry', hone'⟩ := List.mem_filter.mp hentry'
    rw [TreeMap.mem_toList_iff_getElem?_eq_some] at hentry hentry'
    cases hentry.symm.trans hentry'
    exact of_decide_eq_true hone'
  · intro hconverts
    unfold reported underOom
    congr 1
    apply List.filter_congr
    intro entry hentry
    rw [decide_eq_decide]
    constructor
    · exact hconverts entry hentry
    · intro hone
      rw [hone]
      decide

/-! ## Names of subgroups -/

theorem stripPrefixFrom_eq (subString : String) (front groups : List String) :
    stripPrefixFrom subString front groups = front ++ groups.filterMap fun group =>
      if group.toList.take subString.toList.length = subString.toList then
        some (String.ofList (group.toList.drop subString.toList.length))
      else none := by
  induction groups generalizing front with
  | nil => simp [stripPrefixFrom]
  | cons group groups ih =>
    unfold stripPrefixFrom
    split
    · next hprefix => simp [ih, hprefix]
    · next hprefix => simp [ih, hprefix]

/-- What is kept of the names are those of subgroups, without the base group. -/
theorem stripPrefix_eq (groups : List String) (base : String) :
    stripPrefix groups (base ++ "/") = groups.filterMap (subgroup? base) := by
  unfold stripPrefix
  rw [stripPrefixFrom_eq, List.nil_append]
  congr 1
  funext group
  unfold subgroup?
  by_cases hprefix : group.toList.take (base ++ "/").toList.length = (base ++ "/").toList
  · rw [if_pos hprefix, if_pos (List.prefix_iff_eq_take.mpr hprefix.symm)]
  · rw [if_neg hprefix, if_neg fun h => hprefix (List.prefix_iff_eq_take.mp h).symm]

theorem filterMap_subgroup?_eq_nil {base : String} : groups.filterMap (subgroup? base) = [] ↔
    ∀ group ∈ groups, ∀ sub, group ≠ base ++ "/" ++ sub := by
  rw [List.filterMap_eq_nil_iff]
  apply forall₂_congr
  intro group _
  rw [Option.eq_none_iff_forall_ne_some]
  exact forall_congr' fun sub => not_congr subgroup?_eq_some

/-! ## The functions -/

/-- A scan of files that are as they should be. -/
theorem WellFormed.scanOomStatus (h : s.WellFormed file wait groups) :
    ControlGroup.scanOomStatus s (fun fd => (file fd).text)
      = .ok (s.underOom file, (s.underOom file).length) := by
  rw [scanOomStatus_eq, if_pos h.fits, reported_eq_iff.mpr h.converts]

/-- Without an event nothing is scanned, and the vector stays as it was passed. -/
theorem pollOomStatus_of_noEvent (h : wait.noEvent = true) (groups : List String) :
    s.pollOomStatus (fun fd => (file fd).text) wait groups = .ok (s, groups, 0) := by
  cases wait with
  | timedOut => rfl
  | reads size eventData =>
    simp only [OomWait.noEvent, Bool.or_eq_true, Bool.and_eq_true, decide_eq_true_eq] at h
    unfold pollOomStatus
    rcases h with rfl | ⟨rfl, rfl⟩ <;> rfl

/-- What a wait returns, when no group of the table is misread. -/
theorem pollOomStatus_eq (wait : OomWait) (groups' : List String)
    (hscan : s.scanOomStatus (fun fd => (file fd).text)
      = .ok (s.underOom file, (s.underOom file).length)) :
    (wait.noEvent = true ∧
      s.pollOomStatus (fun fd => (file fd).text) wait groups' = .ok (s, groups', 0)) ∨
    s.pollOomStatus (fun fd => (file fd).text) wait groups' = .error .runtimeError ∨
    ∃ s', s'.mBaseGroup = s.mBaseGroup ∧
      s.pollOomStatus (fun fd => (file fd).text) wait groups'
        = .ok (s', s.underOom file, (s.underOom file).length) := by
  by_cases hevent : wait.noEvent = true
  · exact .inl ⟨hevent, pollOomStatus_of_noEvent hevent groups'⟩
  cases wait with
  | timedOut => exact absurd rfl hevent
  | reads size eventData =>
    simp only [OomWait.noEvent, Bool.or_eq_true, Bool.and_eq_true, decide_eq_true_eq,
      not_or, not_and] at hevent
    obtain ⟨hsome, hdata⟩ := hevent
    right
    by_cases hsize : size = 8
    · right
      refine ⟨if (s.underOom file).length > 0 then { s with mFastOomCheck := false } else s,
        by split <;> rfl, ?_⟩
      simp only [pollOomStatus, if_neg hsome, if_neg (not_not_intro hsize),
        if_neg (hdata hsize), hscan]
      rfl
    · left
      simp only [pollOomStatus, if_neg hsome, ne_eq, hsize, not_false_eq_true, if_true]
      rfl

/-- A wait that has scanned before ends with what it has found, or without any. -/
theorem waitOomStatus_eq (wait : OomWait) (groups : List String)
    (hscan : s.scanOomStatus (fun fd => (file fd).text)
      = .ok (s.underOom file, (s.underOom file).length)) :
    (s.mFastOomCheck = true ∧ wait.noEvent = true ∧
      s.waitOomStatus (fun fd => (file fd).text) wait groups = .ok (s, groups, 0)) ∨
    s.waitOomStatus (fun fd => (file fd).text) wait groups = .error .runtimeError ∨
    ∃ s' count, s'.mBaseGroup = s.mBaseGroup ∧
      s.waitOomStatus (fun fd => (file fd).text) wait groups
        = .ok (s', s.underOom file, count) := by
  cases hfast : s.mFastOomCheck with
  | true =>
    have hpoll : s.waitOomStatus (fun fd => (file fd).text) wait groups
        = s.pollOomStatus (fun fd => (file fd).text) wait groups := by
      simp [waitOomStatus, hfast]
    rw [hpoll]
    rcases pollOomStatus_eq wait groups hscan with ⟨hevent, hret⟩ | hthrow | ⟨s', hbase, hret⟩
    · exact .inl ⟨rfl, hevent, hret⟩
    · exact .inr (.inl hthrow)
    · exact .inr (.inr ⟨s', _, hbase, hret⟩)
  | false =>
    right
    by_cases hcount : (s.underOom file).length > 0
    · refine .inr ⟨s, (s.underOom file).length, rfl, ?_⟩
      simp only [waitOomStatus, hfast, hscan]
      exact if_pos hcount
    · -- the scan has left an empty vector
      have hnil : s.underOom file = [] := List.length_eq_zero_iff.mp (by omega)
      have hpoll : s.waitOomStatus (fun fd => (file fd).text) wait groups
          = ({ s with mFastOomCheck := true } : ControlGroup).pollOomStatus
              (fun fd => (file fd).text) wait (s.underOom file) := by
        simp only [waitOomStatus, hfast, hscan]
        exact if_neg hcount
      rw [hpoll]
      have hscan' : ({ s with mFastOomCheck := true } : ControlGroup).scanOomStatus
          (fun fd => (file fd).text) = .ok (s.underOom file, (s.underOom file).length) := hscan
      rcases pollOomStatus_eq wait (s.underOom file) hscan' with
        ⟨-, hret⟩ | hthrow | ⟨s', hbase, hret⟩
      · exact .inr ⟨{ s with mFastOomCheck := true }, 0, rfl, hret⟩
      · exact .inl hthrow
      · exact .inr ⟨s', _, hbase, hret⟩

/-- A wait below a base group, by the wait itself. -/
theorem waitOomStatusSubgroup_eq (hbase : s.mValidBase = true) {s' : ControlGroup}
    {groups' : List String} {count : Nat} (hs' : s'.mBaseGroup = s.mBaseGroup)
    (hret : s.waitOomStatus (fun fd => (file fd).text) wait groups = .ok (s', groups', count)) :
    s.waitOomStatusSubgroup (fun fd => (file fd).text) wait groups
      = .ok (s', groups'.filterMap (subgroup? s.mBaseGroup),
          (groups'.filterMap (subgroup? s.mBaseGroup)).length) := by
  simp only [waitOomStatusSubgroup, hbase, hret]
  show Except.ok (_, stripPrefix groups' (s'.mBaseGroup ++ "/"), _) = _
  rw [stripPrefix_eq, hs']

theorem underOomBelow_eq (hbase : s.mValidBase = true) :
    s.underOomBelow file = (s.underOom file).filterMap (subgroup? s.mBaseGroup) :=
  if_pos hbase

/-- What the condition is enough for. -/
theorem WellFormed.scansExactly (h : s.WellFormed file wait groups)
    (hnotifies : s.Notifies file wait) : s.ScansExactly file wait groups := by
  have hscan := h.scanOomStatus
  have hsubgroup : s.scanOomStatusSubgroup (fun fd => (file fd).text) groups
      = .ok (s.underOomBelow file, (s.underOomBelow file).length) := by
    simp only [scanOomStatusSubgroup, h.base, hscan]
    show Except.ok (stripPrefix _ _, _) = _
    rw [stripPrefix_eq, underOomBelow_eq h.base]
  have hwait : s.waitOomStatusSubgroup (fun fd => (file fd).text) wait groups
        = .error .runtimeError ∨
      ∃ s', s.waitOomStatusSubgroup (fun fd => (file fd).text) wait groups
        = .ok (s', s.underOomBelow file, (s.underOomBelow file).length) := by
    rcases waitOomStatus_eq wait groups hscan with
      ⟨hfast, hevent, hret⟩ | hthrow | ⟨s', count, hs', hret⟩
    · -- nothing is out of memory, and nothing of the vector that was passed is kept
      have hpassed := filterMap_subgroup?_eq_nil.mpr (h.passed hfast hevent)
      have hnone : s.underOomBelow file = [] := by
        rw [underOomBelow_eq h.base, hnotifies hfast hevent]
        rfl
      rw [waitOomStatusSubgroup_eq h.base rfl hret, hpassed, hnone]
      exact .inr ⟨s, rfl⟩
    · left
      simp only [waitOomStatusSubgroup, h.base, hthrow]
      rfl
    · rw [waitOomStatusSubgroup_eq h.base hs' hret, ← underOomBelow_eq h.base]
      exact .inr ⟨s', rfl⟩
  refine ⟨hscan, hsubgroup, ?_, ?_⟩
  · rcases hwait with hthrow | ⟨s', hret⟩
    · rw [hthrow]
      nofun
    · rw [hret]
      nofun
  · intro s₁ groups₁ count₁ h₁
    rcases hwait with hthrow | ⟨s', hret⟩
    · cases hthrow.symm.trans h₁
    · cases hret.symm.trans h₁
      exact ⟨rfl, rfl⟩

/-- What the functions do elsewhere. -/
theorem ScansExactly.wellFormed (h : s.ScansExactly file wait groups)
    (hnotifies : s.Notifies file wait) : s.WellFormed file wait groups := by
  have hscan := h.scan
  have hfits : ∀ entry ∈ s.mOomFds.toList, (file entry.2).text.length < 50 := by
    intro entry hentry
    rw [scanOomStatus_eq] at hscan
    split at hscan
    · next hall => exact hall entry hentry
    · cases hscan
  have hbase : s.mValidBase = true := by
    cases hinvalid : s.mValidBase with
    | true => rfl
    | false =>
      -- one is returned as the number of groups
      have hone := h.scanSubgroup
      have hnone : s.underOomBelow file = [] := if_neg (by simp [hinvalid])
      simp only [scanOomStatusSubgroup, hinvalid, hnone] at hone
      cases hone
  refine ⟨hfits, ?_, hbase, ?_⟩
  · rw [scanOomStatus_eq, if_pos hfits] at hscan
    exact reported_eq_iff.mp (congrArg Prod.fst (Except.ok.inj hscan))
  · intro hfast hevent
    have hret : s.waitOomStatus (fun fd => (file fd).text) wait groups = .ok (s, groups, 0) := by
      simp only [waitOomStatus, hfast]
      exact pollOomStatus_of_noEvent hevent groups
    obtain ⟨hgroups, -⟩ := h.waitSubgroup _ _ _ (waitOomStatusSubgroup_eq hbase rfl hret)
    rw [← filterMap_subgroup?_eq_nil, hgroups, underOomBelow_eq hbase, hnotifies hfast hevent]
    rfl

/-- **The out-of-memory scan** is exact for files that fit into the buffer, and only
    for these. -/
theorem scansExactly_iff (hnotifies : s.Notifies file wait) :
    s.ScansExactly file wait groups ↔ s.WellFormed file wait groups :=
  ⟨fun h => h.wellFormed hnotifies, fun h => h.scansExactly hnotifies⟩

/-! ## Two files -/

/-- One group is watched. -/
def oneGroup : ControlGroup :=
  { mValidBase := true, mBaseGroup := "arras", mFastOomCheck := false,
    mOomFds := TreeMap.empty.insert "arras/a" 7 }

theorem notifies_oneGroup (file : Int → OomControl) (wait : OomWait) :
    oneGroup.Notifies file wait := by
  intro hfast
  cases hfast

/-- A file of two lines, of a group that is out of memory. -/
theorem scansExactly_twoLines :
    oneGroup.ScansExactly (fun _ => { oomKillDisable := 1, underOom := 1 }) .timedOut [] := by
  refine (scansExactly_iff (notifies_oneGroup _ _)).mpr ⟨?_, ?_, rfl, fun hfast => ?_⟩
  · intro entry _
    show _ < 50
    decide
  · intro entry _ _
    rfl
  · cases hfast

/-- A file with a long third line. -/
theorem not_forall_scansExactly : ¬ ∀ (s : ControlGroup) (file : Int → OomControl)
    (wait : OomWait) (groups : List String), s.Notifies file wait →
      s.ScansExactly file wait groups := by
  intro hall
  have hexact := hall oneGroup
    (fun _ => { oomKillDisable := 1, underOom := 0, further := "oom_kill 1000000000\n".toList })
    .timedOut [] (notifies_oneGroup _ _)
  have hfits := (hexact.wellFormed (notifies_oneGroup _ _)).fits ("arras/a", 7)
    (TreeMap.mem_toList_iff_getElem?_eq_some.mpr (TreeMap.getElem?_insert_self))
  revert hfits
  decide

end ControlGroup

end Arras4Core.Execute
