/-
  Arras4Core.Execute.ControlSubgroups

  A `ProcessManager` that uses control groups: its steps, with the steps of
  `createControlSubgroup`, `destroyControlSubgroup` and `handleOomCondition` on
  the control groups among them, and the table of the groups that are watched for
  running out of memory.

  A call of libcgroup that fails leaves the control groups as they are.  How the
  table is read and written by several threads is in `OomDescriptors`; here
  `monitorOom` is one step.
-/

import Arras4Core.Execute.ControlGroup
import Arras4Core.Execute.StateMutex

namespace Arras4Core.Execute

open Arras4Core.Lib

/-! ## Control groups -/

/-- A group of the memory controller: "memory.limit_in_bytes",
    "memory.memsw.limit_in_bytes", whether tasks that are out of memory are paused
    ("memory.oom_control"), and the limit the group was created with. -/
structure Cgroup where
  limitInBytes : UInt64
  memswLimitInBytes : UInt64
  oomControl : Bool
  createdWith : UInt64
  deriving DecidableEq

def ONE_MB : UInt64 := 1024 * 1024

namespace ControlGroup

def huge : UInt64 := 256 * 1048576 * 1048576

/-- What `create` makes of a limit that is passed to it. -/
def createLimit (memLimit : UInt64) : UInt64 :=
  let memLimit := if memLimit = 0 then huge else memLimit
  if memLimit > huge then huge else memLimit

/-- `ControlGroup::create`; `none` when it throws. -/
def create (cgroups : String → Option Cgroup) (groupPath : String)
    (memLimitReal memLimitRealAndSwap : UInt64) (pauseOnOom fails : Bool) :
    Option (String → Option Cgroup) :=
  let memLimitReal := createLimit memLimitReal
  let memLimitRealAndSwap := createLimit memLimitRealAndSwap
  if memLimitRealAndSwap < memLimitReal then none
  else if fails then none
  else
    some (Function.update cgroups groupPath (some
      { limitInBytes := memLimitReal
        memswLimitInBytes := memLimitRealAndSwap
        -- a group that was there before keeps its setting when there is none to write
        oomControl := pauseOnOom || (cgroups groupPath).any Cgroup.oomControl
        createdWith := memLimitReal }))

/-- `ControlGroup::changeMemoryLimit`; `none` when it throws. -/
def changeMemoryLimit (cgroups : String → Option Cgroup) (groupPath : String)
    (memLimitReal memLimitRealAndSwap : UInt64) (fails : Bool) :
    Option (String → Option Cgroup) :=
  match cgroups groupPath with
  | none => none
  | some group =>
    if fails then none
    else
      some (Function.update cgroups groupPath (some
        { group with limitInBytes := memLimitReal, memswLimitInBytes := memLimitRealAndSwap }))

/-- `oomFd` is what `open` returns where it is called. -/
def monitorOom (s : ControlGroup) (groupName : String) (enable : Bool) (oomFd : Int) :
    ControlGroup :=
  if enable then
    match s.mOomFds[groupName]? with
    | some _ => s
    | none => { s with mOomFds := s.mOomFds.insert groupName oomFd }
  else { s with mOomFds := s.mOomFds.erase groupName }

/-- With a valid base group. -/
def getFullGroupName (s : ControlGroup) (computationName : String) : String :=
  s.mBaseGroup ++ "/" ++ computationName

end ControlGroup

/-- How `destroy` ends: the directories are removed, or `rmdir` fails, which nobody
    notices, or there are tasks in the group and it throws. -/
inductive Destroyed
  | removed
  | left
  | throws
  deriving DecidableEq

/-! ## The state -/

/-- A loan that `handleOomCondition` has granted, with the memory limit of the
    process before and after it, where there is one. -/
structure Loan where
  borrowed : UInt32
  before : Option UInt64
  after : Option UInt64
  deriving DecidableEq

/-- The manager; the control groups; two members of the processes; and where the
    threads are with their control groups. -/
structure ControlSubgroups where
  manager : ProcessManager
  mControlGroup : ControlGroup
  mUseHierarchy : Bool
  cgroups : String → Option Cgroup
  mEnforceMemory : Nat → Bool := fun _ => false
  mCGroupExists : Nat → Bool := fun _ => false
  /-- whoever is in a callback of `spawn` or in `exit_cb` has done what there is to
      do with the control group -/
  subgroupDone : Holder → Bool := fun _ => false
  /-- the process whose group a thread stops monitoring when `terminate` returns -/
  stopping : Nat → Option Nat := fun _ => none
  /-- processes that `handleOomCondition` has sent to termination since they were
      spawned -/
  sent : Nat → Bool := fun _ => false
  loans : List Loan := []
  /-- an exception left the thread of `oomMonitorProc`, which ends the program -/
  exited : Bool := false

namespace ControlSubgroups

def subgroupName (s : ControlSubgroups) (p : Nat) : String := (s.manager.objects p).mId.toString

/-- The path of the control group of a process. -/
def groupPath (s : ControlSubgroups) (p : Nat) : String :=
  s.mControlGroup.getFullGroupName (s.subgroupName p)

def setDone (s : ControlSubgroups) (holder : Holder) (done : Bool) : ControlSubgroups :=
  { s with subgroupDone := Function.update s.subgroupDone holder done }

/-! ## The operations -/

def createControlSubgroup (s : ControlSubgroups) (p : Nat) (fails : Bool) : ControlSubgroups :=
  if s.mCGroupExists p then s
  else
    let bytes :=
      if s.mEnforceMemory p then (s.manager.objects p).mAssignedMb.toUInt64 * ONE_MB else 0
    match ControlGroup.create s.cgroups (s.groupPath p) bytes bytes (!s.mUseHierarchy) fails with
    | some cgroups =>
      { s with cgroups := cgroups, mCGroupExists := Function.update s.mCGroupExists p true }
    | none => s

def destroyControlSubgroup (s : ControlSubgroups) (p : Nat) (outcome : Destroyed) :
    ControlSubgroups :=
  if !s.mCGroupExists p then s
  else
    -- `destroy` stops the monitoring before anything can throw
    let mControlGroup := s.mControlGroup.monitorOom (s.groupPath p) false (-1)
    match outcome with
    | .throws => { s with mControlGroup := mControlGroup }
    | .left =>
      { s with
        mControlGroup := mControlGroup
        mCGroupExists := Function.update s.mCGroupExists p false }
    | .removed =>
      { s with
        mControlGroup := mControlGroup
        mCGroupExists := Function.update s.mCGroupExists p false
        cgroups := Function.update s.cgroups (s.groupPath p) none }

/-- `handleOomCondition`, after `mBorrowedMb += borrowed`. -/
def changeLimit (s : ControlSubgroups) (p : Nat) (borrowed : UInt32) (fails : Bool) :
    ControlSubgroups :=
  let totalMb := (s.manager.objects p).mBorrowedMb + (s.manager.objects p).mReservedMb
  let total := totalMb.toUInt64 * 1048576
  let before := (s.cgroups (s.groupPath p)).map Cgroup.limitInBytes
  match ControlGroup.changeMemoryLimit s.cgroups (s.groupPath p) total total fails with
  | some cgroups =>
    { s with cgroups := cgroups, loans := s.loans ++ [⟨borrowed, before, some total⟩] }
  -- nobody catches the exception
  | none => { s with exited := true, loans := s.loans ++ [⟨borrowed, before, none⟩] }

/-! ## The steps -/

/-- The process for which `createControlSubgroup` is called. -/
def creating (s : ControlSubgroups) (t : Nat) : Option Nat :=
  match s.manager.calls t with
  | .fork p => some p
  | _ => none

/-- The process for which `destroyControlSubgroup` is called.  `failedFork_cb` clears
    `mReservedMb` before it, in the step in which the manager unlocks the process. -/
def destroying (s : ControlSubgroups) : Holder → Option Nat
  | .caller t =>
    match s.manager.calls t with
    | .failedForkClear p => some p
    | _ => none
  | .exitMonitor =>
    match s.manager.exitMonitor with
    | .erase x | .mark x => some x.p
    | _ => none

inductive Event
  -- steps of the manager, apart from the two that follow
  | manager (e : ProcessManager.Event)
  | spawns (t p : Nat) (assignedMb : UInt32) (enforceMemory pipeFails : Bool)
  | lends (t p : Nat) (borrowed : UInt32) (fails : Bool)
  | createsSubgroup (t : Nat) (fails : Bool)
  | destroysSubgroup (holder : Holder) (outcome : Destroyed)
  | stopsMonitoring (t : Nat)
  deriving DecidableEq

/-- The callbacks deal with the control group before the step that ends them, and
    `handleOomCondition` stops the monitoring before the thread goes on. -/
def admits (s : ControlSubgroups) : ProcessManager.Event → Bool
  | .forks t _ _ | .forkFails t _ | .failedForkClears t _ => s.subgroupDone (.caller t)
  | .erasesPid _ | .marks _ => s.subgroupDone .exitMonitor
  | .callsTerminate t _ _ | .removesProcess t _ | .runsOutOfMemory t _ => (s.stopping t).isNone
  | .spawns .. | .lends .. => false
  | _ => true

/-- `handleOomCondition` has decided whether the process is terminated. -/
def send (s : ControlSubgroups) (t p : Nat) : ControlSubgroups :=
  if s.manager.calls t = .terminate p true .user then
    { s with
      stopping := Function.update s.stopping t (some p)
      sent := Function.update s.sent p true }
  else s

/-- What is noted of a step of the manager. -/
def note (s : ControlSubgroups) : ProcessManager.Event → ControlSubgroups
  | .forks t p _ => { s.setDone (.caller t) false with sent := Function.update s.sent p false }
  | .forkFails t _ | .failedForkClears t _ => s.setDone (.caller t) false
  | .erasesPid _ | .marks _ => s.setDone .exitMonitor false
  | .runsOutOfMemory t p | .borrows t p => s.send t p
  | _ => s

/-- `mEnforceMemory = args.enforceMemory`, unless `spawn` has returned before. -/
def setEnforceMemory (s : ControlSubgroups) (p : Nat) (enforceMemory : Bool) : ControlSubgroups :=
  if (s.manager.objects p).mState ≠ .NotSpawned then s
  else { s with mEnforceMemory := Function.update s.mEnforceMemory p enforceMemory }

/-- The steps of a program that has not ended. -/
def next (s : ControlSubgroups) : Event → Option ControlSubgroups
  | .manager e =>
    if s.admits e then (s.manager.step e).map fun m => { s with manager := m }.note e else none
  | .spawns t p assignedMb enforceMemory pipeFails =>
    if (s.stopping t).isNone then
      (s.manager.step (.spawns t p assignedMb pipeFails)).map fun m =>
        { s.setEnforceMemory p enforceMemory with manager := m }
    else none
  | .lends t p borrowed fails =>
    (s.manager.step (.lends t p borrowed)).map fun m =>
      { s with manager := m }.changeLimit p borrowed fails
  | .createsSubgroup t fails =>
    match s.creating t with
    | some p =>
      onlyIf (s.subgroupDone (.caller t) = false)
        ((s.createControlSubgroup p fails).setDone (.caller t) true)
    | none => none
  | .destroysSubgroup holder outcome =>
    match s.destroying holder with
    | some p =>
      onlyIf (s.subgroupDone holder = false)
        ((s.destroyControlSubgroup p outcome).setDone holder true)
    | none => none
  | .stopsMonitoring t =>
    match s.stopping t with
    | some p =>
      onlyIf (s.manager.calls t = .idle)
        { s with
          mControlGroup := s.mControlGroup.monitorOom (s.groupPath p) false (-1)
          stopping := Function.update s.stopping t none }
    | none => none

def step (s : ControlSubgroups) (e : Event) : Option ControlSubgroups :=
  if s.exited then none else s.next e

theorem next_of_step {s s' : ControlSubgroups} {e : Event} (hs : s.step e = some s') :
    s.next e = some s' := by
  unfold step at hs
  split at hs
  · cases hs
  · exact hs

/-- The base group is set; any groups may be left over from before. -/
def system : System ControlSubgroups Event where
  init s := ∃ manager useHierarchy cgroups, ProcessManager.system.init manager ∧
    s =
      { manager := manager
        mControlGroup :=
          { mValidBase := true, mBaseGroup := "arras", mFastOomCheck := false, mOomFds := ∅ }
        mUseHierarchy := useHierarchy
        cgroups := cgroups }
  step := step

variable {s s' : ControlSubgroups}

/-! ## The groups that are watched -/

/-- No callback of `spawn` and no `exit_cb` is in progress. -/
def quiet (s : ControlSubgroups) : Prop :=
  (∀ t, (s.manager.calls t).locked = none) ∧ s.manager.exitMonitor.childExit = none

/-- Between the callbacks, the table of the watched groups has those of the spawned
    processes that `handleOomCondition` has not sent to termination, and none that has
    been destroyed. -/
structure Watched (s : ControlSubgroups) : Prop where
  limited : s.quiet → ∀ p < s.manager.created, (s.manager.objects p).mState = .Spawned →
    s.mCGroupExists p = true → s.sent p = false →
      (s.mControlGroup.mOomFds[s.groupPath p]?).isSome
  existing : s.quiet → ∀ group oomFd, s.mControlGroup.mOomFds[group]? = some oomFd →
    ∃ p < s.manager.created, s.mCGroupExists p = true ∧ s.groupPath p = group

/-- No process is forked whose control group exists. -/
def ForksUnlimited (s : ControlSubgroups) : Event → Prop
  | .manager (.forks _ p _) => s.mCGroupExists p = false
  | _ => True

/-! ## What the steps do -/

/-- Nothing happens to the control groups. -/
structure SameGroups (s s' : ControlSubgroups) : Prop where
  mControlGroup : s'.mControlGroup = s.mControlGroup
  cgroups : s'.cgroups = s.cgroups
  mCGroupExists : s'.mCGroupExists = s.mCGroupExists
  loans : s'.loans = s.loans

theorem sameGroups_note (s : ControlSubgroups) (e : ProcessManager.Event) :
    SameGroups s (s.note e) ∧ (s.note e).manager = s.manager := by
  have hsend : ∀ t p, SameGroups s (s.send t p) ∧ (s.send t p).manager = s.manager := by
    intro t p
    unfold send
    split <;> exact ⟨⟨rfl, rfl, rfl, rfl⟩, rfl⟩
  cases e with
  | runsOutOfMemory t p | borrows t p => exact hsend t p
  | _ => exact ⟨⟨rfl, rfl, rfl, rfl⟩, rfl⟩

/-- What a step does to the manager and to the control groups. -/
inductive Moves (s s' : ControlSubgroups) : Event → Prop
  | manager {e : ProcessManager.Event} (hs : s.manager.step e = some s'.manager)
      (hlends : ∀ t p borrowed, e ≠ .lends t p borrowed) (hsame : SameGroups s s') :
      Moves s s' (.manager e)
  | spawns {t p : Nat} {assignedMb : UInt32} {enforceMemory pipeFails : Bool}
      (hs : s.manager.step (.spawns t p assignedMb pipeFails) = some s'.manager)
      (hsame : SameGroups s s') : Moves s s' (.spawns t p assignedMb enforceMemory pipeFails)
  | lends {t p : Nat} {borrowed : UInt32} {fails : Bool} {m : ProcessManager}
      (hs : s.manager.step (.lends t p borrowed) = some m)
      (heq : s' = { s with manager := m }.changeLimit p borrowed fails) :
      Moves s s' (.lends t p borrowed fails)
  | creates {t p : Nat} {fails : Bool} (hcall : s.manager.calls t = .fork p)
      (hmanager : s'.manager = s.manager)
      (hsame : SameGroups (s.createControlSubgroup p fails) s') :
      Moves s s' (.createsSubgroup t fails)
  | destroys {p : Nat} {holder : Holder} {outcome : Destroyed}
      (hmanager : s'.manager = s.manager)
      (hsame : SameGroups (s.destroyControlSubgroup p outcome) s') :
      Moves s s' (.destroysSubgroup holder outcome)
  | stops {t p : Nat} (hmanager : s'.manager = s.manager)
      (hsame : SameGroups
        { s with mControlGroup := s.mControlGroup.monitorOom (s.groupPath p) false (-1) } s') :
      Moves s s' (.stopsMonitoring t)

theorem createControlSubgroup_manager (s : ControlSubgroups) (p : Nat) (fails : Bool) :
    (s.createControlSubgroup p fails).manager = s.manager := by
  unfold createControlSubgroup
  split
  · rfl
  · dsimp only
    split <;> rfl

theorem destroyControlSubgroup_manager (s : ControlSubgroups) (p : Nat) (outcome : Destroyed) :
    (s.destroyControlSubgroup p outcome).manager = s.manager := by
  unfold destroyControlSubgroup
  split
  · rfl
  · cases outcome <;> rfl

theorem moves {e : Event} (hs : s.step e = some s') : Moves s s' e := by
  replace hs := next_of_step hs
  cases e with
  | manager e =>
    simp only [next, Option.ite_none_right_eq_some, Option.map_eq_some_iff] at hs
    obtain ⟨hadmits, m, hm, rfl⟩ := hs
    obtain ⟨hsame, hmanager⟩ := sameGroups_note { s with manager := m } e
    refine .manager (hm.trans (congrArg some hmanager.symm)) ?_ ?_
    · rintro t p borrowed rfl
      cases hadmits
    · exact ⟨hsame.mControlGroup, hsame.cgroups, hsame.mCGroupExists, hsame.loans⟩
  | spawns t p assignedMb enforceMemory pipeFails =>
    simp only [next, Option.ite_none_right_eq_some, Option.map_eq_some_iff] at hs
    obtain ⟨-, m, hm, rfl⟩ := hs
    refine .spawns hm ?_
    unfold setEnforceMemory
    split <;> exact ⟨rfl, rfl, rfl, rfl⟩
  | lends t p borrowed fails =>
    obtain ⟨m, hm, rfl⟩ := Option.map_eq_some_iff.mp hs
    exact .lends hm rfl
  | createsSubgroup t fails =>
    simp only [next, creating] at hs
    split at hs
    · next p hp =>
      obtain ⟨-, rfl⟩ := of_onlyIf hs
      split at hp
      · next hcall =>
        cases hp
        exact .creates hcall (s.createControlSubgroup_manager p fails) ⟨rfl, rfl, rfl, rfl⟩
      · cases hp
    · cases hs
  | destroysSubgroup holder outcome =>
    simp only [next] at hs
    split at hs
    · next p _ =>
      obtain ⟨-, rfl⟩ := of_onlyIf hs
      exact .destroys (s.destroyControlSubgroup_manager p outcome) ⟨rfl, rfl, rfl, rfl⟩
    · cases hs
  | stopsMonitoring t =>
    simp only [next] at hs
    split at hs
    · next p _ =>
      obtain ⟨-, rfl⟩ := of_onlyIf hs
      exact .stops rfl ⟨rfl, rfl, rfl, rfl⟩
    · cases hs

/-! ## The table stays empty -/

/-- Nothing is watched.  No step of the manager calls `monitorOom` with `true`. -/
def Unwatched (g : ControlGroup) : Prop := ∀ group : String, g.mOomFds[group]? = none

theorem Unwatched.monitorOom {g : ControlGroup} (h : Unwatched g) (groupName : String) :
    Unwatched (g.monitorOom groupName false (-1)) := by
  intro group
  show (g.mOomFds.erase groupName)[group]? = none
  rw [Std.TreeMap.getElem?_erase, h group, ite_self]

theorem createControlSubgroup_mControlGroup (s : ControlSubgroups) (p : Nat) (fails : Bool) :
    (s.createControlSubgroup p fails).mControlGroup = s.mControlGroup := by
  unfold createControlSubgroup
  split
  · rfl
  · dsimp only
    split <;> rfl

theorem Unwatched.destroys (h : Unwatched s.mControlGroup) (p : Nat) (outcome : Destroyed) :
    Unwatched (s.destroyControlSubgroup p outcome).mControlGroup := by
  unfold destroyControlSubgroup
  split
  · exact h
  · cases outcome <;> exact h.monitorOom (s.groupPath p)

theorem changeLimit_frame (s : ControlSubgroups) (p : Nat) (borrowed : UInt32) (fails : Bool) :
    (s.changeLimit p borrowed fails).manager = s.manager ∧
    (s.changeLimit p borrowed fails).mControlGroup = s.mControlGroup ∧
    (s.changeLimit p borrowed fails).mCGroupExists = s.mCGroupExists := by
  unfold changeLimit
  dsimp only
  split <;> exact ⟨rfl, rfl, rfl⟩

theorem Unwatched.step {e : Event} (h : Unwatched s.mControlGroup) (hs : s.step e = some s') :
    Unwatched s'.mControlGroup := by
  cases moves hs with
  | manager _ _ hsame | spawns _ hsame =>
    rw [hsame.mControlGroup]
    exact h
  | lends hm heq =>
    rw [heq, (changeLimit_frame _ _ _ _).2.1]
    exact h
  | creates _ _ hsame =>
    rw [hsame.mControlGroup, createControlSubgroup_mControlGroup]
    exact h
  | destroys _ hsame =>
    rw [hsame.mControlGroup]
    exact h.destroys _ _
  | stops _ hsame =>
    rw [hsame.mControlGroup]
    exact h.monitorOom _

theorem unwatched_of_reachable {C : ControlSubgroups → Event → Prop}
    (h : system.ReachableWhen C s) : Unwatched s.mControlGroup := by
  refine h.invariant (I := fun s => Unwatched s.mControlGroup) ?_
    fun _ _ _ hI _ hs => Unwatched.step hI hs
  rintro s ⟨manager, useHierarchy, cgroups, -, rfl⟩ group
  exact Std.TreeMap.getElem?_emptyc

/-- So the table is as it should be where no spawned process has a control group. -/
theorem watched_iff (h : Unwatched s.mControlGroup) (hquiet : s.quiet) :
    s.Watched ↔ ∀ p < s.manager.created, (s.manager.objects p).mState = .Spawned →
      s.mCGroupExists p = true → s.sent p = true := by
  constructor
  · intro hwatched p hp hstate hexists
    by_contra hsent
    have hin := hwatched.limited hquiet p hp hstate hexists (Bool.eq_false_iff.mpr hsent)
    rw [h] at hin
    cases hin
  · intro hall
    refine ⟨fun _ p hp hstate hexists hsent => ?_, fun _ group oomFd hentry => ?_⟩
    · cases hsent.symm.trans (hall p hp hstate hexists)
    · cases (h group).symm.trans hentry

/-! ## Processes without a control group -/

/-- No spawned process has a control group. -/
structure Unlimited (s : ControlSubgroups) : Prop where
  holds : s.manager.Holds
  spawned : ∀ p, (s.manager.objects p).mState = .Spawned → s.mCGroupExists p = false

theorem Unlimited.watched (h : s.Unlimited) (htable : Unwatched s.mControlGroup) : s.Watched where
  limited _ p _ hstate hexists _ := by cases hexists.symm.trans (h.spawned p hstate)
  existing _ group oomFd hentry := by cases (htable group).symm.trans hentry

/-- A step of the manager that forks no process whose control group exists. -/
theorem Unlimited.manager (h : s.Unlimited) {e : ProcessManager.Event}
    (hs : s.manager.step e = some s'.manager) (hexists : s'.mCGroupExists = s.mCGroupExists)
    (hforks : ∀ t p pid, e = .forks t p pid → s.mCGroupExists p = false) : s'.Unlimited where
  holds := h.holds.next (ProcessManager.next_of_step hs)
  spawned p hstate := by
    rw [hexists]
    have hp := ProcessManager.stepOn_next (ProcessManager.next_of_step hs) p
    by_cases hfork : ∃ t pid, e = .forks t p pid
    · obtain ⟨t, pid, heq⟩ := hfork
      exact hforks t p pid heq
    · refine h.spawned p (hp.spawned (fun t pid heq => ?_) hstate)
      exact hfork ⟨t, pid, heq⟩

/-- The process that `createControlSubgroup` is called for has not been forked. -/
theorem Unlimited.creates (h : s.Unlimited) {t p : Nat} {fails : Bool}
    (hcall : s.manager.calls t = .fork p) (hmanager : s'.manager = s.manager)
    (hexists : s'.mCGroupExists = (s.createControlSubgroup p fails).mCGroupExists) :
    s'.Unlimited where
  holds := hmanager ▸ h.holds
  spawned q hstate := by
    rw [hmanager] at hstate
    have hq : q ≠ p := by
      rintro rfl
      obtain ⟨-, hbefore, -⟩ := h.holds.calls t q (by rw [hcall]; rfl)
      cases (hbefore (by rw [hcall]; rfl)).symm.trans hstate
    rw [hexists]
    unfold createControlSubgroup
    split
    · exact h.spawned q hstate
    · dsimp only
      split
      · exact (Function.update_of_ne hq ..).trans (h.spawned q hstate)
      · exact h.spawned q hstate

theorem Unlimited.destroys (h : s.Unlimited) {p : Nat} {outcome : Destroyed}
    (hmanager : s'.manager = s.manager)
    (hexists : s'.mCGroupExists = (s.destroyControlSubgroup p outcome).mCGroupExists) :
    s'.Unlimited where
  holds := hmanager ▸ h.holds
  spawned q hstate := by
    rw [hmanager] at hstate
    have hfalse := h.spawned q hstate
    rw [hexists]
    unfold destroyControlSubgroup
    split
    · exact hfalse
    · cases outcome with
      | throws => exact hfalse
      | left | removed =>
        show Function.update s.mCGroupExists p false q = false
        by_cases hq : q = p
        · rw [hq, Function.update_self]
        · rw [Function.update_of_ne hq, hfalse]

theorem Unlimited.step {e : Event} (h : s.Unlimited) (hcond : s.ForksUnlimited e)
    (hs : s.step e = some s') : s'.Unlimited := by
  cases moves hs with
  | manager hm _ hsame =>
    refine h.manager hm hsame.mCGroupExists ?_
    rintro t p pid rfl
    exact hcond
  | spawns hm hsame => exact h.manager hm hsame.mCGroupExists nofun
  | lends hm heq =>
    obtain ⟨hmanager, -, hexists⟩ := changeLimit_frame { s with manager := _ } _ _ _
    rw [← heq] at hmanager hexists
    exact h.manager (hm.trans (congrArg some hmanager.symm)) hexists nofun
  | creates hcall hmanager hsame => exact h.creates hcall hmanager hsame.mCGroupExists
  | destroys hmanager hsame => exact h.destroys hmanager hsame.mCGroupExists
  | stops hmanager hsame =>
    refine ⟨hmanager ▸ h.holds, fun p hstate => ?_⟩
    rw [hmanager] at hstate
    exact (congrFun hsame.mCGroupExists p).trans (h.spawned p hstate)

/-- Every limited process is watched in the runs in which no process is limited. -/
theorem watched_of_forksUnlimited (h : system.ReachableWhen ForksUnlimited s) : s.Watched := by
  have hunlimited : s.Unlimited := by
    refine h.invariant ?_ fun _ _ _ hI hcond hs => hI.step hcond hs
    rintro s ⟨manager, useHierarchy, cgroups, hinit, rfl⟩
    refine ⟨ProcessManager.holds_init hinit, fun _ _ => rfl⟩
  exact hunlimited.watched (unwatched_of_reachable h)

/-! ## A fork that fails, and a process that is limited -/

/-- A manager with 1000 that lends memory, and no control groups yet. -/
def ofUnlimited : ControlSubgroups where
  manager := { mMemory := .set 1000, mLoanMemory := true }
  mControlGroup :=
    { mValidBase := true, mBaseGroup := "arras", mFastOomCheck := false, mOomFds := ∅ }
  mUseHierarchy := false
  cgroups _ := none

theorem ofUnlimited_init : system.init ofUnlimited :=
  ⟨_, false, fun _ => none, ⟨1000, true, rfl⟩, rfl⟩

def adds (n : UInt8) : Event := .manager (.addsProcess (ProcessManager.idOf n))

/-- `spawn` with enough memory, up to the fork. -/
def spawnsLimited (p : Nat) (assignedMb : UInt32) (fails : Bool) : List Event :=
  [.spawns 0 p assignedMb true false, .manager (.reserves 0 p assignedMb),
    .manager (.setsReserved 0 p assignedMb), .createsSubgroup 0 fails]

/-- The fork of a process that has a control group fails; then a process is forked that
    could not be given one. -/
def forksOneOfTwo : List Event :=
  [adds 1, adds 2] ++ spawnsLimited 0 100 false ++
    [.manager (.forkFails 0 0), .manager (.failedForkReleases 0 0),
      .destroysSubgroup (.caller 0) .removed, .manager (.failedForkClears 0 0)] ++
    spawnsLimited 1 100 true ++
    [.manager (.forks 0 1 7), .manager (.postForks 0 1)]

/-- `ForksUnlimited` as a test. -/
def forksUnlimited (s : ControlSubgroups) : Event → Bool
  | .manager (.forks _ p _) => !s.mCGroupExists p
  | _ => true

theorem forksUnlimited_of_test {e : Event} (h : s.forksUnlimited e = true) :
    s.ForksUnlimited e := by
  cases e with
  | manager e =>
    cases e with
    | forks t p pid =>
      show s.mCGroupExists p = false
      simpa [forksUnlimited] using h
    | _ => trivial
  | _ => trivial

theorem watched_forksOneOfTwo : ∃ s : ControlSubgroups,
    (s.manager.objects 1).mState = .Spawned ∧ s.Watched := by
  obtain ⟨s, hreach, hs⟩ := System.exists_reachableWhen_of_run (M := system) (C := ForksUnlimited)
    (fun s => decide ((s.manager.objects 1).mState = .Spawned))
    forksUnlimited forksOneOfTwo ofUnlimited_init (fun _ _ => forksUnlimited_of_test)
    (by decide +kernel)
  exact ⟨s, of_decide_eq_true hs, watched_of_forksUnlimited hreach⟩

def forksLimited : List Event :=
  adds 1 :: spawnsLimited 0 100 false ++ [.manager (.forks 0 0 7), .manager (.postForks 0 0)]

theorem forksLimited_quiet (t : Nat) :
    ((system.run ofUnlimited forksLimited).map fun s => s.manager.calls t) = some .idle :=
  match t with
  | 0 => rfl
  | _ + 1 => rfl

/-- A process that is spawned with a limit is not watched. -/
theorem not_forall_watched : ¬ ∀ s : ControlSubgroups, system.Reachable s → s.Watched := by
  intro hall
  have hrun : ((system.run ofUnlimited forksLimited).map fun s =>
      (s.manager.exitMonitor.childExit, s.manager.created, (s.manager.objects 0).mState,
        s.mCGroupExists 0, s.sent 0)) = some (none, 1, .Spawned, true, false) := by
    decide +kernel
  obtain ⟨s, hs, hstate⟩ := Option.map_eq_some_iff.mp hrun
  simp only [Prod.mk.injEq] at hstate
  obtain ⟨hmonitor, hcreated, hspawned, hexists, hsent⟩ := hstate
  have hreach : system.Reachable s := ⟨_, ofUnlimited_init, System.run_steps hs⟩
  have hquiet : s.quiet := by
    refine ⟨fun t => ?_, hmonitor⟩
    have hcall := forksLimited_quiet t
    rw [hs] at hcall
    have hidle : s.manager.calls t = .idle := Option.some.inj hcall
    rw [hidle]
    rfl
  have hwatched := (watched_iff (unwatched_of_reachable hreach) hquiet).mp (hall s hreach) 0
    (by omega) hspawned hexists
  cases hsent.symm.trans hwatched

end ControlSubgroups

end Arras4Core.Execute
