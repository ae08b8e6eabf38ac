/-
  Arras4Core.Execute.Process

  `impl::Process` as a transition system: one object, any number of threads in
  its member functions, its termination threads, and an exit monitor that may
  call `terminated` at any time.  A step is one critical section of
  `mStateMutex`, or what a thread does outside of it.  `state`, `pid`, `status`
  and the waits of callers only read and take no step.

  What the manager's callbacks do is not part of this system: they leave the
  members it changes alone.
-/

import Arras4Core.Lib.System

namespace Arras4Core.Execute

open Arras4Core.Lib

inductive ProcessState
  | NotSpawned | Spawned | Terminating | Terminated
  deriving DecidableEq

inductive ExitType
  | Exit | Signal | Internal
  deriving DecidableEq

structure ExitStatus where
  exitType : ExitType
  status : Int
  deriving DecidableEq

namespace ExitStatus

def NO_EXIT : Int := 0
def PROCESS_DELETED : Int := 1
def FORK_FAILED : Int := 2
def NOT_SPAWNED : Int := 3
def UNINTERRUPTABLE : Int := 4
def UNKNOWN : Int := 5

def internalCodeString (code : Int) : String :=
  if code = NO_EXIT then "has not exited"
  else if code = PROCESS_DELETED then ": process object was deleted"
  else if code = FORK_FAILED then ": fork() system call failed while attempting to launch"
  else if code = NOT_SPAWNED then "did not run"
  else if code = UNINTERRUPTABLE then "cannot be terminated"
  else ": execution status is unknown"

/-- Shell wrappers may convert signals to exits with a code above 128. -/
def convertHighExitToSignal (s : ExitStatus) : ExitStatus :=
  if s.exitType = .Exit ∧ s.status > 128 ∧ s.status < 128 + 32 then
    { exitType := .Signal, status := s.status - 128 }
  else s

end ExitStatus

def SIGKILL : Nat := 9
def SIGTERM : Nat := 15

/-! ## The object -/

/-- The members that are read or written below.  `mPid` is 0 when there is no
    OS process. -/
structure Process where
  mState : ProcessState := .NotSpawned
  mPid : Nat := 0
  mStatus : ExitStatus := ⟨.Internal, ExitStatus.NO_EXIT⟩
  mAssignedMb : UInt32 := 0
  mReservedMb : UInt32 := 0
  mBorrowedMb : UInt32 := 0
  deriving DecidableEq

namespace Process

def terminated (p : Process) (status : ExitStatus) : Process :=
  if p.mState ≠ .Terminated then { p with mStatus := status, mState := .Terminated, mPid := 0 }
  else p

def terminated_internal (p : Process) (internalStatus : Int) : Process :=
  p.terminated ⟨.Internal, internalStatus⟩

end Process

/-! ## The threads -/

/-- What the calls of the operating system in `spawn` come to. -/
inductive SpawnOutcome
  | pipeFails
  | forkFails
  | forks (pid : Nat)
  deriving DecidableEq

/-- A call of `kill`, with the state it was made in. -/
structure Kill where
  pid : Nat
  toGroup : Bool
  signum : Nat
  state : ProcessState
  byTerminationProc : Bool
  deriving DecidableEq

/-- Where a termination thread is.  A wait that has timed out has yet to
    reacquire the mutex.  The first two waits note how many exits had been
    recorded when they began. -/
inductive TerminationPc
  | start (fast : Bool)
  | stopWait (exits : Nat)
  | stopTimedOut (exits : Nat)
  | termWait (exits : Nat)
  | termTimedOut (exits : Nat)
  | killWait
  | killTimedOut
  | returned
  deriving DecidableEq

/-- Blocked on `mExitCondition`. -/
def TerminationPc.waits : TerminationPc → Bool
  | stopWait _ | termWait _ | killWait => true
  | _ => false

/-- A `Process` with the calls and threads that are inside it, and their history. -/
structure ActiveProcess extends Process where
  /-- the thread `mTerminationThread` can be joined with -/
  mTerminationThread : Option Nat := none
  threads : List TerminationPc := []
  /-- callers of `terminate` that have yet to set off the thread -/
  starting : List (Nat × Bool) := []
  /-- callers of `reset` that have yet to join the thread -/
  joining : List Nat := []
  /-- callers of `reset` that have yet to change the state -/
  resetting : List Nat := []
  /-- a `std::thread` was assigned while it was joinable, which ends the program -/
  aborted : Bool := false
  /-- how often the state has become `Terminated` -/
  exits : Nat := 0
  kills : List Kill := []
  /-- the pids of the OS processes marked as uninterruptable -/
  gaveUp : List Nat := []

namespace ActiveProcess

/-- The members become those of `p`. -/
def update (s : ActiveProcess) (p : Process) : ActiveProcess :=
  { s with
    toProcess := p
    exits := if s.mState ≠ .Terminated ∧ p.mState = .Terminated then s.exits + 1 else s.exits }

/-- `kill(-mPid, signum)` in `terminationProc`. -/
def killGroup (s : ActiveProcess) (signum : Nat) : ActiveProcess :=
  { s with kills := s.kills ++ [⟨s.mPid, true, signum, s.mState, true⟩] }

def setThread (s : ActiveProcess) (i : Nat) (pc : TerminationPc) : ActiveProcess :=
  { s with threads := s.threads.set i pc }

/-! ## The member functions -/

def spawn (s : ActiveProcess) (assignedMb : UInt32) (outcome : SpawnOutcome) : ActiveProcess :=
  if s.mState ≠ .NotSpawned then s
  else
    let p := { s.toProcess with mAssignedMb := assignedMb }
    match outcome with
    | .pipeFails | .forkFails => s.update (p.terminated_internal ExitStatus.FORK_FAILED)
    | .forks pid =>
      -- a pid that is given out again is no longer that of the process given up on
      { s.update { p with mPid := pid, mState := .Spawned } with
        gaveUp := s.gaveUp.filter (· ≠ pid) }

/-- The critical section of `terminate`. -/
def terminate (s : ActiveProcess) (caller : Nat) (fast : Bool) : ActiveProcess :=
  match s.mState with
  | .NotSpawned => s.update (s.toProcess.terminated_internal ExitStatus.NOT_SPAWNED)
  | .Terminating | .Terminated => s
  | .Spawned => { s with mState := .Terminating, starting := s.starting ++ [(caller, fast)] }

/-- `mTerminationThread = std::thread(&Process::terminationProc, this, fast)`. -/
def startThread (s : ActiveProcess) (caller : Nat) (fast : Bool) : ActiveProcess :=
  if s.mTerminationThread.isSome then { s with aborted := true }
  else
    { s with
      mTerminationThread := some s.threads.length
      threads := s.threads ++ [.start fast]
      starting := s.starting.erase (caller, fast) }

def signal (s : ActiveProcess) (signum : Nat) (sendToGroup : Bool) : ActiveProcess :=
  if s.mPid = 0 then s
  else { s with kills := s.kills ++ [⟨s.mPid, sendToGroup, signum, s.mState, false⟩] }

/-- The first critical section of `reset`. -/
def reset (s : ActiveProcess) (caller : Nat) : ActiveProcess :=
  if s.mState ≠ .Terminated then s else { s with joining := s.joining ++ [caller] }

/-- The thread that `reset` joins has returned, or there is none. -/
def canJoin (s : ActiveProcess) : Bool :=
  match s.mTerminationThread with
  | none => true
  | some i => s.threads[i]? = some .returned

def joinThread (s : ActiveProcess) (caller : Nat) : ActiveProcess :=
  { s with
    mTerminationThread := none
    joining := s.joining.erase caller
    resetting := s.resetting ++ [caller] }

/-- The second critical section of `reset`. -/
def resetState (s : ActiveProcess) (caller : Nat) : ActiveProcess :=
  { s with mState := .NotSpawned, resetting := s.resetting.erase caller }

/-- `terminationProc` up to its first wait.  `stopSent` is what the manager's
    `controlledStop` returns. -/
def terminationProc (s : ActiveProcess) (i : Nat) (fast stopSent : Bool) : ActiveProcess :=
  if s.mState ≠ .Terminating ∨ s.mPid = 0 then s.setThread i .returned
  else if fast then (s.killGroup SIGKILL).setThread i .killWait
  else if stopSent then s.setThread i (.stopWait s.exits)
  else (s.killGroup SIGTERM).setThread i (.termWait s.exits)

/-- `kill(-mPid, SIGTERM)`, and the wait that follows unless the process is found
    terminated. -/
def stopResumes (s : ActiveProcess) (i : Nat) : ActiveProcess :=
  (s.killGroup SIGTERM).setThread i
    (if s.mState = .Terminated then .returned else .termWait s.exits)

/-- `kill(-mPid, SIGKILL)`, and the wait that follows unless the process is found
    terminated. -/
def termResumes (s : ActiveProcess) (i : Nat) : ActiveProcess :=
  (s.killGroup SIGKILL).setThread i (if s.mState = .Terminated then .returned else .killWait)

/-- The end of `terminationProc`: the process is marked as terminated. -/
def killResumes (s : ActiveProcess) (i : Nat) : ActiveProcess :=
  { (s.update (s.toProcess.terminated_internal ExitStatus.UNINTERRUPTABLE)).setThread i
        .returned with
    gaveUp := if s.mState = .Terminated then s.gaveUp else s.gaveUp ++ [s.mPid] }

/-! ## The steps -/

inductive Event
  | spawn (assignedMb : UInt32) (outcome : SpawnOutcome)
  | terminate (caller : Nat) (fast : Bool)
  | startsThread (caller : Nat) (fast : Bool)
  | signal (signum : Nat) (sendToGroup : Bool)
  | reset (caller : Nat)
  | joinsThread (caller : Nat)
  | resetsState (caller : Nat)
  -- the exit monitor, or the destructor
  | terminated (status : ExitStatus)
  -- termination thread `i`
  | threadLocks (i : Nat) (fast stopSent : Bool)
  | threadWakes (i : Nat) (pc : TerminationPc)
  | stopTimesOut (i exits : Nat)
  | stopResumes (i exits : Nat)
  | termTimesOut (i exits : Nat)
  | termResumes (i exits : Nat)
  | killTimesOut (i : Nat)
  | killResumes (i : Nat)
  deriving DecidableEq

/-- The effect of each event, where it is enabled. -/
def act (s : ActiveProcess) : Event → Option ActiveProcess
  | .spawn assignedMb outcome => onlyIf (outcome ≠ .forks 0) (s.spawn assignedMb outcome)
  | .terminate caller fast => some (s.terminate caller fast)
  | .startsThread caller fast =>
    onlyIf ((caller, fast) ∈ s.starting) (s.startThread caller fast)
  | .signal signum sendToGroup => some (s.signal signum sendToGroup)
  | .reset caller => some (s.reset caller)
  | .joinsThread caller => onlyIf (caller ∈ s.joining ∧ s.canJoin = true) (s.joinThread caller)
  | .resetsState caller => onlyIf (caller ∈ s.resetting) (s.resetState caller)
  | .terminated status => some (s.update (s.toProcess.terminated status))
  | .threadLocks i fast stopSent =>
    onlyIf (s.threads[i]? = some (.start fast)) (s.terminationProc i fast stopSent)
  | .threadWakes i pc =>
    -- a wake-up without a timeout goes round the loop
    onlyIf (s.threads[i]? = some pc ∧ pc.waits = true)
      (if s.mState = .Terminated then s.setThread i .returned else s)
  | .stopTimesOut i exits =>
    onlyIf (s.threads[i]? = some (.stopWait exits)) (s.setThread i (.stopTimedOut exits))
  | .stopResumes i exits =>
    onlyIf (s.threads[i]? = some (.stopTimedOut exits)) (s.stopResumes i)
  | .termTimesOut i exits =>
    onlyIf (s.threads[i]? = some (.termWait exits)) (s.setThread i (.termTimedOut exits))
  | .termResumes i exits =>
    onlyIf (s.threads[i]? = some (.termTimedOut exits)) (s.termResumes i)
  | .killTimesOut i => onlyIf (s.threads[i]? = some .killWait) (s.setThread i .killTimedOut)
  | .killResumes i => onlyIf (s.threads[i]? = some .killTimedOut) (s.killResumes i)

def step (s : ActiveProcess) (e : Event) : Option ActiveProcess :=
  if s.aborted then none else s.act e

theorem act_of_step {s s' : ActiveProcess} {e : Event} (hs : s.step e = some s') :
    s.act e = some s' := by
  unfold step at hs
  split at hs
  · cases hs
  · exact hs

/-- A process as it is constructed. -/
def system : System ActiveProcess Event where
  init s := s = {}
  step := step

end ActiveProcess

end Arras4Core.Execute
