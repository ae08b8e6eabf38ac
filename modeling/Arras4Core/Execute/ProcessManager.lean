/-
  Arras4Core.Execute.ProcessManager

  `impl::ProcessManager` as a transition system: any number of `Process`
  objects, any number of threads that call the manager and the processes, and
  the exit monitor.  Each object goes through the steps of its own system; what
  the manager adds are its two tables, the memory reservations, and the mutexes
  that are held over several steps.

  A caller of `spawn` holds the state mutex of the process from the test of the
  state to the end of `postFork_cb`; the exit monitor holds `mProcessesMutex`
  all through `handleChildExit`.  Control groups are left out: they are not part
  of what the tables and the reservations depend on.  No object is destroyed: one
  that has left the tables and that no thread holds takes no further steps.
-/

import Mathlib.Logic.Function.Basic
import Arras4Core.Api.Address
import Arras4Core.Execute.MemoryTracking
import Arras4Core.Execute.Process

namespace Arras4Core.Execute

open Arras4Core.Lib
open Arras4Core.Api (UUID)

/-! ## Where the threads are -/

/-- What a thread goes on with when `terminate` has returned. -/
inductive TerminateCaller
  | user
  | removeProcess (id : UUID)
  -- `reserveMemory` for process `p`, with what will be left of the deficit
  | reserveMemory (p : Nat) (reservation : UInt32) (deficit : Int)
  deriving DecidableEq

/-- A thread that calls the manager or a process.  Objects are numbered in the
    order they are constructed in. -/
inductive Call
  | idle
  -- `reserveMemory`, called by `spawn`
  | reserve (p : Nat) (reservation : UInt32)
  | findBorrower (p : Nat) (reservation : UInt32) (deficit : Int)
  | waitBorrower (p : Nat) (reservation : UInt32) (borrower : Nat) (deficit : Int)
  | reserveAgain (p : Nat) (reservation : UInt32)
  | reserveRest (p : Nat) (reservation : UInt32)
  | setReserved (p : Nat) (reservation : UInt32)
  -- the rest of `spawn`
  | fork (p : Nat)
  | failedForkRelease (p : Nat)
  | failedForkClear (p : Nat)
  | postFork (p : Nat)
  -- `terminate`
  | terminate (p : Nat) (fast : Bool) (caller : TerminateCaller)
  | startThread (p : Nat) (fast : Bool) (caller : TerminateCaller)
  -- the rest of `removeProcess`
  | waitForExit (id : UUID) (p : Nat)
  | eraseProcess (id : UUID)
  -- `handleOomCondition`
  | borrow (p : Nat)
  | lend (p : Nat) (borrowed : UInt32)
  deriving DecidableEq

def TerminateCaller.next (p : Nat) : TerminateCaller → Call
  | user => .idle
  | removeProcess id => .waitForExit id p
  | reserveMemory q reservation deficit => .waitBorrower q reservation p deficit

/-- An exit being handled: the pid and status that `waitpid` reported, the object
    found for it, and the pids still to be checked. -/
structure ChildExit where
  pid : Nat
  status : ExitStatus
  p : Nat
  pidList : List Nat
  deriving DecidableEq

/-- `exitMonitorProc` and `handleChildExit`. -/
inductive MonitorPc
  | collect
  | poll (pidList : List Nat)
  | handle (pid : Nat) (status : ExitStatus) (pidList : List Nat)
  -- `exit_cb`
  | release (x : ChildExit)
  | clear (x : ChildExit)
  | erase (x : ChildExit)
  -- `Process::terminated`, and the `exit_cb` inside it
  | lock (x : ChildExit)
  | releaseAgain (x : ChildExit)
  | clearAgain (x : ChildExit)
  | mark (x : ChildExit)
  deriving DecidableEq

/-- The monitor is inside `handleChildExit`, and holds `mProcessesMutex`. -/
def MonitorPc.childExit : MonitorPc → Option ChildExit
  | release x | clear x | erase x | lock x | releaseAgain x | clearAgain x | mark x => some x
  | _ => none

inductive Holder
  | caller (t : Nat)
  | exitMonitor
  deriving DecidableEq

/-! ## The state -/

/-- A process, the holder of its state mutex, and how much of the tracker's
    `mReservedMb` was taken on its behalf. -/
structure Object extends ActiveProcess where
  mId : UUID := UUID.null
  mStateMutex : Option Holder := none
  taken : Nat := 0

structure ProcessManager where
  mMemory : MemoryTracking
  mLoanMemory : Bool
  mProcesses : UUID → Option Nat := fun _ => none
  mPidToProcess : Nat → Option Nat := fun _ => none
  /-- objects from `created` on are yet to be constructed -/
  objects : Nat → Object := fun _ => {}
  created : Nat := 0
  calls : Nat → Call := fun _ => .idle
  exitMonitor : MonitorPc := .collect
  /-- child processes of the operating system that have not been waited for -/
  children : List Nat := []
  /-- a `std::thread` was assigned while it was joinable -/
  aborted : Bool := false

namespace ProcessManager

/-- `mProcessesMutex` can be taken for a critical section of one step. -/
def processesFree (s : ProcessManager) : Prop := s.exitMonitor.childExit = none

instance (s : ProcessManager) : Decidable s.processesFree :=
  inferInstanceAs (Decidable (_ = _))

/-- The state mutex of a process can be taken. -/
def stateFree (s : ProcessManager) (p : Nat) : Prop := (s.objects p).mStateMutex = none

instance (s : ProcessManager) (p : Nat) : Decidable (s.stateFree p) :=
  inferInstanceAs (Decidable (_ = _))

def modify (s : ProcessManager) (p : Nat) (f : Object → Object) : ProcessManager :=
  { s with objects := Function.update s.objects p (f (s.objects p)) }

def setCall (s : ProcessManager) (t : Nat) (call : Call) : ProcessManager :=
  { s with calls := Function.update s.calls t call }

def setMonitor (s : ProcessManager) (pc : MonitorPc) : ProcessManager :=
  { s with exitMonitor := pc }

def lock (s : ProcessManager) (p : Nat) (holder : Holder) : ProcessManager :=
  s.modify p fun o => { o with mStateMutex := some holder }

def unlock (s : ProcessManager) (p : Nat) : ProcessManager :=
  s.modify p fun o => { o with mStateMutex := none }

section Update

variable (s : ProcessManager) {p q t u : Nat} (f : Object → Object) (call : Call) (pc : MonitorPc)

@[simp] theorem modify_objects_self : (s.modify p f).objects p = f (s.objects p) :=
  Function.update_self ..

theorem modify_objects_of_ne (h : q ≠ p) : (s.modify p f).objects q = s.objects q :=
  Function.update_of_ne h ..

theorem modify_modify (g : Object → Object) :
    (s.modify p f).modify p g = s.modify p fun o => g (f o) := by
  simp only [modify, Function.update_self, Function.update_idem]

@[simp] theorem modify_calls : (s.modify p f).calls = s.calls := rfl
@[simp] theorem modify_exitMonitor : (s.modify p f).exitMonitor = s.exitMonitor := rfl

@[simp] theorem setCall_calls_self : (s.setCall t call).calls t = call :=
  Function.update_self ..

theorem setCall_calls_of_ne (h : u ≠ t) : (s.setCall t call).calls u = s.calls u :=
  Function.update_of_ne h ..

@[simp] theorem setCall_objects : (s.setCall t call).objects = s.objects := rfl
@[simp] theorem setCall_exitMonitor : (s.setCall t call).exitMonitor = s.exitMonitor := rfl

@[simp] theorem setMonitor_objects : (s.setMonitor pc).objects = s.objects := rfl
@[simp] theorem setMonitor_calls : (s.setMonitor pc).calls = s.calls := rfl
@[simp] theorem setMonitor_exitMonitor : (s.setMonitor pc).exitMonitor = pc := rfl

end Update

/-- The process takes a step of its own system. -/
def act (s : ProcessManager) (p : Nat) (f : ActiveProcess → ActiveProcess) : ProcessManager :=
  s.modify p fun o => { o with toActiveProcess := f o.toActiveProcess }

/-! ## Memory -/

/-- `mMemory.reserve(amount)` on behalf of `p`, its result aside. -/
def reserve (s : ProcessManager) (p : Nat) (amount : UInt32) : ProcessManager :=
  { s.modify p fun o =>
      { o with taken := if s.mMemory.fits amount then o.taken + amount.toNat else o.taken } with
    mMemory := (s.mMemory.reserve amount).2 }

/-- What `mMemory.reserve(amount)` returns. -/
def deficit (s : ProcessManager) (amount : UInt32) : UInt32 := (s.mMemory.reserve amount).1

/-- `mMemory.release(p.mReservedMb)` -/
def release (s : ProcessManager) (p : Nat) : ProcessManager :=
  { s.modify p fun o => { o with taken := o.taken - o.mReservedMb.toNat } with
    mMemory := s.mMemory.release (s.objects p).mReservedMb }

/-- `p.mReservedMb = reservation` -/
def setReserved (s : ProcessManager) (p : Nat) (reservation : UInt32) : ProcessManager :=
  s.modify p fun o => { o with mReservedMb := reservation }

theorem reserve_objects_of_ne (s : ProcessManager) {p q : Nat} (amount : UInt32) (h : q ≠ p) :
    (s.reserve p amount).objects q = s.objects q :=
  Function.update_of_ne h ..

theorem release_objects_of_ne (s : ProcessManager) {p q : Nat} (h : q ≠ p) :
    (s.release p).objects q = s.objects q :=
  Function.update_of_ne h ..

theorem setReserved_objects_of_ne (s : ProcessManager) {p q : Nat} (reservation : UInt32)
    (h : q ≠ p) : (s.setReserved p reservation).objects q = s.objects q :=
  Function.update_of_ne h ..

/-- Where the first `mMemory.reserve` leads. -/
def afterReserve (s : ProcessManager) (p : Nat) (reservation : UInt32) : Call :=
  if s.deficit reservation = 0 then .setReserved p reservation
  else if s.mLoanMemory then .findBorrower p reservation (s.deficit reservation).toNat
  else .reserveRest p (reservation - s.deficit reservation)

/-- Where the second one leads, when memory is lent. -/
def afterReserveAgain (s : ProcessManager) (p : Nat) (reservation : UInt32) : Call :=
  if s.deficit reservation = 0 then .setReserved p reservation
  else .reserveRest p (reservation - s.deficit reservation)

/-- The object is in the manager's table under its id. -/
def registered (s : ProcessManager) (p : Nat) : Prop :=
  s.mProcesses (s.objects p).mId = some p

instance (s : ProcessManager) (p : Nat) : Decidable (s.registered p) :=
  inferInstanceAs (Decidable (_ = _))

/-- What `findBiggestBorrower` may return; among equals it takes one. -/
def isBiggestBorrower (s : ProcessManager) : Option Nat → Prop
  | none => ∀ q < s.created, s.registered q → (s.objects q).mBorrowedMb = 0
  | some b => b < s.created ∧ s.registered b ∧ 0 < (s.objects b).mBorrowedMb ∧
      ∀ q < s.created, s.registered q → (s.objects q).mBorrowedMb ≤ (s.objects b).mBorrowedMb

instance (s : ProcessManager) : (b : Option Nat) → Decidable (s.isBiggestBorrower b)
  | none => inferInstanceAs (Decidable (∀ _ < _, _ → _))
  | some _ => inferInstanceAs (Decidable (_ ∧ _ ∧ _ ∧ ∀ _ < _, _ → _))

/-- The loop that terminates borrowers, from the test of its condition on. -/
def afterFindBorrower (s : ProcessManager) (p : Nat) (reservation : UInt32) (deficit : Int)
    (borrower : Option Nat) : Call :=
  match borrower with
  | none => .reserveAgain p reservation
  | some b =>
    .terminate b true
      (.reserveMemory p reservation (deficit - (s.objects b).mBorrowedMb.toNat))

/-! ## The operations -/

def addProcess (s : ProcessManager) (id : UUID) : ProcessManager :=
  { s.modify s.created fun o => { o with mId := id } with
    mProcesses := Function.update s.mProcesses id (some s.created)
    created := s.created + 1 }

/-- `spawn` up to `reserveMemory`.  It has no effect unless the state is
    `NotSpawned`. -/
def spawn (s : ProcessManager) (t p : Nat) (assignedMb : UInt32) (pipeFails : Bool) :
    ProcessManager :=
  if (s.objects p).mState ≠ .NotSpawned then s
  else if pipeFails then s.act p fun a => a.spawn assignedMb .pipeFails
  else
    ((s.modify p fun o => { o with mAssignedMb := assignedMb }).lock p (.caller t)).setCall t
      (.reserve p assignedMb)

def forkFails (s : ProcessManager) (t p : Nat) : ProcessManager :=
  (s.act p fun a => a.spawn a.mAssignedMb .forkFails).setCall t (.failedForkRelease p)

def forks (s : ProcessManager) (t p pid : Nat) : ProcessManager :=
  { (s.act p fun a => a.spawn a.mAssignedMb (.forks pid)).setCall t (.postFork p) with
    children := pid :: s.children }

/-- What `postFork_cb` writes to the pid table. -/
def registerPid (s : ProcessManager) (p : Nat) : ProcessManager :=
  match s.mProcesses (s.objects p).mId with
  | none => s
  | some q =>
    if (s.objects p).mPid = 0 then s
    else { s with mPidToProcess := Function.update s.mPidToProcess (s.objects p).mPid (some q) }

/-- Nothing but the pid table is written to. -/
theorem registerPid_eq (s : ProcessManager) (p : Nat) :
    ∃ pids, s.registerPid p = { s with mPidToProcess := pids } := by
  unfold registerPid
  split
  · exact ⟨s.mPidToProcess, rfl⟩
  · split
    · exact ⟨s.mPidToProcess, rfl⟩
    · exact ⟨_, rfl⟩

@[simp] theorem registerPid_calls (s : ProcessManager) (p : Nat) :
    (s.registerPid p).calls = s.calls := by
  obtain ⟨pids, hregister⟩ := s.registerPid_eq p
  rw [hregister]

def postFork_cb (s : ProcessManager) (t p : Nat) : ProcessManager :=
  ((s.registerPid p).unlock p).setCall t .idle

/-- The critical section of `terminate`. -/
def terminate (s : ProcessManager) (t p : Nat) (fast : Bool) (caller : TerminateCaller) :
    ProcessManager :=
  (s.act p fun a => a.terminate t fast).setCall t
    (if (s.objects p).mState = .Spawned then .startThread p fast caller else caller.next p)

def startThread (s : ProcessManager) (t p : Nat) (fast : Bool) (caller : TerminateCaller) :
    ProcessManager :=
  { (s.act p fun a => a.startThread t fast).setCall t (caller.next p) with
    aborted := (s.objects p).mTerminationThread.isSome }

def removeProcess (s : ProcessManager) (t : Nat) (id : UUID) : ProcessManager :=
  match s.mProcesses id with
  | none => s
  | some p => s.setCall t (.terminate p true (.removeProcess id))

def eraseProcess (s : ProcessManager) (t : Nat) (id : UUID) : ProcessManager :=
  { s with mProcesses := Function.update s.mProcesses id none }.setCall t .idle

/-- `mMemory.borrow(128)` in `handleOomCondition`; a process that cannot borrow is
    terminated. -/
def borrow (s : ProcessManager) (t p : Nat) : ProcessManager :=
  let (borrowed, memory) := s.mMemory.borrow 128
  { s with mMemory := memory }.setCall t
    (if 0 < borrowed then .lend p borrowed else .terminate p true .user)

theorem borrow_eq (s : ProcessManager) (t p : Nat) :
    s.borrow t p = { s with mMemory := (s.mMemory.borrow 128).2 }.setCall t
      (if 0 < (s.mMemory.borrow 128).1 then .lend p (s.mMemory.borrow 128).1
        else .terminate p true .user) := by
  unfold borrow
  generalize s.mMemory.borrow 128 = result
  rfl

def lend (s : ProcessManager) (t p : Nat) (borrowed : UInt32) : ProcessManager :=
  (s.modify p fun o => { o with mBorrowedMb := o.mBorrowedMb + borrowed }).setCall t .idle

/-- `handleChildExit` up to `exit_cb`. -/
def handleChildExit (s : ProcessManager) (pid : Nat) (status : ExitStatus) (pidList : List Nat) :
    ProcessManager :=
  match s.mPidToProcess pid with
  | none => s.setMonitor (.poll pidList)
  | some p => s.setMonitor (.release ⟨pid, status, p, pidList⟩)

/-- `terminated` up to its `exit_cb`. -/
def lockTerminated (s : ProcessManager) (x : ChildExit) : ProcessManager :=
  if (s.objects x.p).mState = .Terminated then s.setMonitor (.poll x.pidList)
  else (s.lock x.p .exitMonitor).setMonitor (.releaseAgain x)

def markTerminated (s : ProcessManager) (x : ChildExit) : ProcessManager :=
  ((s.act x.p fun a => a.update (a.toProcess.terminated x.status)).unlock x.p).setMonitor
    (.poll x.pidList)

/-! ## The steps -/

end ProcessManager

/-- Steps that a process takes with no part of the manager in them. -/
def ActiveProcess.Event.isLocal : ActiveProcess.Event → Bool
  | .spawn .. | .terminate .. | .startsThread .. | .terminated .. => false
  | _ => true

/-- Steps that are critical sections of the state mutex. -/
def ActiveProcess.Event.locks : ActiveProcess.Event → Bool
  | .joinsThread .. | .stopTimesOut .. | .termTimesOut .. | .killTimesOut .. => false
  | _ => true

namespace ProcessManager

inductive Event
  -- thread `t`
  | addsProcess (id : UUID)
  | spawns (t p : Nat) (assignedMb : UInt32) (pipeFails : Bool)
  | reserves (t p : Nat) (reservation : UInt32)
  | findsBorrower (t p : Nat) (reservation : UInt32) (deficit : Int) (borrower : Option Nat)
  | borrowerIsReaped (t p : Nat) (reservation : UInt32) (borrower : Nat) (deficit : Int)
  | reservesAgain (t p : Nat) (reservation : UInt32)
  | reservesRest (t p : Nat) (reservation : UInt32)
  | setsReserved (t p : Nat) (reservation : UInt32)
  | forkFails (t p : Nat)
  | failedForkReleases (t p : Nat)
  | failedForkClears (t p : Nat)
  | forks (t p pid : Nat)
  | postForks (t p : Nat)
  | callsTerminate (t p : Nat) (fast : Bool)
  | terminates (t p : Nat) (fast : Bool) (caller : TerminateCaller)
  | startsThread (t p : Nat) (fast : Bool) (caller : TerminateCaller)
  | removesProcess (t : Nat) (id : UUID)
  | seesExit (t : Nat) (id : UUID) (p : Nat)
  | erasesProcess (t : Nat) (id : UUID)
  | runsOutOfMemory (t p : Nat)
  | borrows (t p : Nat)
  | lends (t p : Nat) (borrowed : UInt32)
  -- a step of process `p` alone
  | process (p : Nat) (e : ActiveProcess.Event)
  -- the exit monitor
  | collects (pidList : List Nat)
  | waitpid (pid : Nat) (status : ExitStatus) (pidList : List Nat)
  | pollEnds (pidList : List Nat)
  | handles (pid : Nat) (status : ExitStatus) (pidList : List Nat)
  | exitReleases (x : ChildExit)
  | exitClears (x : ChildExit)
  | erasesPid (x : ChildExit)
  | locksTerminated (x : ChildExit)
  | releasesAgain (x : ChildExit)
  | clearsAgain (x : ChildExit)
  | marks (x : ChildExit)
  deriving DecidableEq

/-- The steps of a program that has not been aborted. -/
def next (s : ProcessManager) : Event → Option ProcessManager
  | .addsProcess id => onlyIf (s.processesFree ∧ id.valid = true) (s.addProcess id)
  | .spawns t p assignedMb pipeFails =>
    onlyIf (s.calls t = .idle ∧ p < s.created ∧ s.stateFree p) (s.spawn t p assignedMb pipeFails)
  | .reserves t p reservation =>
    onlyIf (s.calls t = .reserve p reservation)
      ((s.reserve p reservation).setCall t (s.afterReserve p reservation))
  | .findsBorrower t p reservation deficit borrower =>
    -- the search takes `mProcessesMutex`; it is skipped when there is no deficit left
    onlyIf (s.calls t = .findBorrower p reservation deficit ∧
        if deficit ≤ 0 then borrower = none
        else s.processesFree ∧ s.isBiggestBorrower borrower)
      (s.setCall t (s.afterFindBorrower p reservation deficit borrower))
  | .borrowerIsReaped t p reservation borrower deficit =>
    onlyIf (s.calls t = .waitBorrower p reservation borrower deficit ∧
        (s.objects borrower).mBorrowedMb = 0)
      (s.setCall t (.findBorrower p reservation deficit))
  | .reservesAgain t p reservation =>
    onlyIf (s.calls t = .reserveAgain p reservation)
      ((s.reserve p reservation).setCall t (s.afterReserveAgain p reservation))
  | .reservesRest t p reservation =>
    -- what the call returns is ignored
    onlyIf (s.calls t = .reserveRest p reservation)
      ((s.reserve p reservation).setCall t (.setReserved p reservation))
  | .setsReserved t p reservation =>
    onlyIf (s.calls t = .setReserved p reservation)
      ((s.setReserved p reservation).setCall t (.fork p))
  | .forkFails t p => onlyIf (s.calls t = .fork p) (s.forkFails t p)
  | .failedForkReleases t p =>
    onlyIf (s.calls t = .failedForkRelease p) ((s.release p).setCall t (.failedForkClear p))
  | .failedForkClears t p =>
    onlyIf (s.calls t = .failedForkClear p)
      (((s.setReserved p 0).unlock p).setCall t .idle)
  | .forks t p pid =>
    onlyIf (s.calls t = .fork p ∧ pid ≠ 0 ∧ pid ∉ s.children) (s.forks t p pid)
  | .postForks t p => onlyIf (s.calls t = .postFork p ∧ s.processesFree) (s.postFork_cb t p)
  | .callsTerminate t p fast =>
    onlyIf (s.calls t = .idle ∧ p < s.created) (s.setCall t (.terminate p fast .user))
  | .terminates t p fast caller =>
    onlyIf (s.calls t = .terminate p fast caller ∧ s.stateFree p) (s.terminate t p fast caller)
  | .startsThread t p fast caller =>
    onlyIf (s.calls t = .startThread p fast caller) (s.startThread t p fast caller)
  | .removesProcess t id =>
    onlyIf (s.calls t = .idle ∧ s.processesFree) (s.removeProcess t id)
  | .seesExit t id p =>
    onlyIf (s.calls t = .waitForExit id p ∧ s.stateFree p ∧ (s.objects p).mState = .Terminated)
      (s.setCall t (.eraseProcess id))
  | .erasesProcess t id =>
    onlyIf (s.calls t = .eraseProcess id ∧ s.processesFree) (s.eraseProcess t id)
  | .runsOutOfMemory t p =>
    onlyIf (s.calls t = .idle ∧ s.processesFree ∧ s.registered p ∧ s.stateFree p ∧
        (s.objects p).mState = .Spawned)
      (s.setCall t (if s.mLoanMemory then .borrow p else .terminate p true .user))
  | .borrows t p => onlyIf (s.calls t = .borrow p) (s.borrow t p)
  | .lends t p borrowed =>
    onlyIf (s.calls t = .lend p borrowed ∧ s.stateFree p) (s.lend t p borrowed)
  | .process p e =>
    ((s.objects p).toActiveProcess.act e).bind fun a =>
      onlyIf (p < s.created ∧ e.isLocal = true ∧ (e.locks = true → s.stateFree p))
        (s.act p fun _ => a)
  | .collects pidList =>
    onlyIf (s.exitMonitor = .collect ∧ ∀ pid ∈ pidList, (s.mPidToProcess pid).isSome)
      (s.setMonitor (.poll pidList))
  | .waitpid pid status pidList =>
    onlyIf (s.exitMonitor = .poll pidList ∧ pid ∈ pidList ∧ pid ∈ s.children)
      { s.setMonitor (.handle pid status (pidList.erase pid)) with
        children := s.children.filter (· ≠ pid) }
  | .pollEnds pidList => onlyIf (s.exitMonitor = .poll pidList) (s.setMonitor .collect)
  | .handles pid status pidList =>
    onlyIf (s.exitMonitor = .handle pid status pidList) (s.handleChildExit pid status pidList)
  | .exitReleases x =>
    onlyIf (s.exitMonitor = .release x) ((s.release x.p).setMonitor (.clear x))
  | .exitClears x =>
    onlyIf (s.exitMonitor = .clear x) ((s.setReserved x.p 0).setMonitor (.erase x))
  | .erasesPid x =>
    onlyIf (s.exitMonitor = .erase x)
      ({ s with mPidToProcess := Function.update s.mPidToProcess x.pid none }.setMonitor (.lock x))
  | .locksTerminated x =>
    onlyIf (s.exitMonitor = .lock x ∧ s.stateFree x.p) (s.lockTerminated x)
  | .releasesAgain x =>
    onlyIf (s.exitMonitor = .releaseAgain x) ((s.release x.p).setMonitor (.clearAgain x))
  | .clearsAgain x =>
    onlyIf (s.exitMonitor = .clearAgain x) ((s.setReserved x.p 0).setMonitor (.mark x))
  | .marks x => onlyIf (s.exitMonitor = .mark x) (s.markTerminated x)

def step (s : ProcessManager) (e : Event) : Option ProcessManager :=
  if s.aborted then none else s.next e

theorem next_of_step {s s' : ProcessManager} {e : Event} (hs : s.step e = some s') :
    s.next e = some s' := by
  unfold step at hs
  split at hs
  · cases hs
  · exact hs

/-- A manager as it is constructed. -/
def system : System ProcessManager Event where
  init s := ∃ availableMemoryMb loanMemory,
    s = { mMemory := .set availableMemoryMb, mLoanMemory := loanMemory }
  step := step

end ProcessManager

end Arras4Core.Execute
