/-
  Arras4Core.Dispatch.MessageDispatcher

  `impl::MessageDispatcher` as a transition system: the master, incoming,
  outgoing and handler threads, and any number of callers.  A step is what one
  thread does between two points where another can act: a test of `mState`, a
  critical section of `mStateMutex` or of a queue, the call or the return of a
  function of the endpoint or of the message handler.

  The master keeps `mStateMutex` from its start until the threads are told to
  stop, except while it waits on the condition variable; every other critical
  section of that mutex is a single step, taken while the master does not hold
  it.  The waits may wake at any time.
-/

import Arras4Core.Api.Address
import Arras4Core.Api.Exception
import Arras4Core.Dispatch.ThreadsafeQueue

namespace Arras4Core.Dispatch

open Arras4Core.Lib
open Arras4Core.Api (Exception UUID)

inductive DispatcherExitReason
  | None | Quit | Disconnected | MessageError | HandlerError
  deriving DecidableEq

inductive DispatcherState
  | NotStarted | Queueing | Dispatching | Exiting | Exited
  deriving DecidableEq

/-- 92c7ab1d-21a4-4cfe-a9fd-bd541436c15d -/
def ExecutorHeartbeat.CLASS_ID : UUID :=
  ⟨#v[0x92, 0xc7, 0xab, 0x1d, 0x21, 0xa4, 0x4c, 0xfe,
      0xa9, 0xfd, 0xbd, 0x54, 0x14, 0x36, 0xc1, 0x5d]⟩

/-- The catch clauses of the incoming and the outgoing thread; `none` when the
    loop just goes on. -/
def endpointError : Exception → Option DispatcherExitReason
  | .shutdownException => none
  | .peerDisconnectException => some .Disconnected
  | _ => some .MessageError

/-- The catch clauses of the handler thread. -/
def handlerError : Exception → Option DispatcherExitReason
  | .shutdownException => none
  | _ => some .HandlerError

/-! ## Where the threads are -/

/-- `masterThreadProc`. -/
inductive MasterPc
  | notCreated
  | lock
  | startIncoming
  | testDispatching
  | waitDispatching
  | startOutgoing
  | startHandler
  | testExiting
  | waitExiting
  | shutdownIncoming
  | shutdownOutgoing
  | shutdownSource
  | unlock
  | joinIncoming
  | joinOutgoing
  | joinHandler
  | notifyObserver
  | setExited
  | returned
  deriving DecidableEq

/-- The master holds `mStateMutex`. -/
def MasterPc.locked : MasterPc → Bool
  | startIncoming | testDispatching | startOutgoing | startHandler | testExiting
  | shutdownIncoming | shutdownOutgoing | shutdownSource | unlock => true
  | _ => false

/-- `incomingThreadProc`. -/
inductive IncomingPc (Envelope : Type*)
  | notCreated
  | testState
  | getEnvelope
  | push (envelope : Envelope)
  | postError (reason : DispatcherExitReason)
  | returned
  deriving DecidableEq

/-- `outgoingThreadProc`. -/
inductive OutgoingPc (Envelope : Type*)
  | notCreated
  | testState
  | pop
  | popWait
  | callPut (envelope : Envelope)
  | inPut (envelope : Envelope)
  | count (envelope : Envelope)
  | postError (reason : DispatcherExitReason)
  | returned
  deriving DecidableEq

/-- `handlerThreadProc`. -/
inductive HandlerPc (Envelope : Type*)
  | notCreated
  | testState
  | pop
  | popWait
  | count (envelope : Envelope)
  | callHandler (envelope : Envelope)
  | inHandler
  | postError (reason : DispatcherExitReason)
  | returned
  deriving DecidableEq

/-- Where a thread goes after a throw: to `postError`, or back to its loop. -/
def IncomingPc.afterThrow {Envelope : Type*} (reason : Option DispatcherExitReason) :
    IncomingPc Envelope := reason.elim .testState .postError

def OutgoingPc.afterThrow {Envelope : Type*} (reason : Option DispatcherExitReason) :
    OutgoingPc Envelope := reason.elim .testState .postError

def HandlerPc.afterThrow {Envelope : Type*} (reason : Option DispatcherExitReason) :
    HandlerPc Envelope := reason.elim .testState .postError

/-! ## The state -/

/-- The members of the dispatcher, its threads, and the history of its calls.
    `mExitReason` has no initializer. -/
structure MessageDispatcher (Envelope : Type*) where
  mState : DispatcherState := .NotStarted
  mExitReason : DispatcherExitReason
  mIdleInterval : Nat
  mOutgoingQueue : ThreadsafeQueue Envelope := {}
  mIncomingQueue : ThreadsafeQueue Envelope := {}
  mSentCount : UInt64 := 0
  mReceivedCount : UInt64 := 0
  master : MasterPc := .notCreated
  incoming : IncomingPc Envelope := .notCreated
  outgoing : OutgoingPc Envelope := .notCreated
  handler : HandlerPc Envelope := .notCreated
  /-- calls of `waitForExit` that have joined the master thread, or found none -/
  waiting : Nat := 0
  /-- returned by `getEnvelope` -/
  got : List Envelope := []
  /-- passed to `handleMessage` -/
  handled : List Envelope := []
  /-- those for which `send` returned true -/
  sent : List Envelope := []
  /-- passed to `putEnvelope` -/
  put : List Envelope := []
  /-- those for which `putEnvelope` returned -/
  putReturned : List Envelope := []
  /-- a call of `startDispatching` was accepted -/
  dispatchCalled : Bool := false
  /-- passed to the observer's `onDispatcherExit` -/
  observed : List DispatcherExitReason := []
  /-- returned by `waitForExit` -/
  exitReports : List DispatcherExitReason := []

namespace MessageDispatcher

variable {Envelope : Type*}

/-- `mStateMutex` can be taken for a critical section of one step. -/
def mutexFree (s : MessageDispatcher Envelope) : Prop := s.master.locked = false

instance (s : MessageDispatcher Envelope) : Decidable s.mutexFree :=
  inferInstanceAs (Decidable (_ = _))

def send (s : MessageDispatcher Envelope) (envelope : Envelope) : MessageDispatcher Envelope :=
  match s.mOutgoingQueue.push envelope with
  | none => s
  | some queue => { s with mOutgoingQueue := queue, sent := s.sent ++ [envelope] }

/-- Throws, without effect, once the dispatcher has started. -/
def startQueueing (s : MessageDispatcher Envelope) : MessageDispatcher Envelope :=
  if s.mState ≠ .NotStarted then s
  else { s with mState := .Queueing, master := .lock }

/-- Throws, without effect, unless the dispatcher is queueing. -/
def startDispatching (s : MessageDispatcher Envelope) : MessageDispatcher Envelope :=
  if s.mState ≠ .Queueing then s
  else { s with mState := .Dispatching, dispatchCalled := true }

def postError (s : MessageDispatcher Envelope) (reason : DispatcherExitReason) :
    MessageDispatcher Envelope :=
  { s with mExitReason := reason, mState := .Exiting }

def postQuit (s : MessageDispatcher Envelope) : MessageDispatcher Envelope :=
  if s.mState = .Exiting ∨ s.mState = .Exited then s
  else { s with mExitReason := .Quit, mState := .Exiting }

/-- The incoming thread pushes what it got. -/
def pushIncoming (s : MessageDispatcher Envelope) (envelope : Envelope) :
    MessageDispatcher Envelope :=
  match s.mIncomingQueue.push envelope with
  | none => { s with incoming := .afterThrow (endpointError .shutdownException) }
  | some queue => { s with mIncomingQueue := queue, incoming := .testState }

/-- `mOutgoingQueue.pop(envelope)`. -/
def popOutgoing (s : MessageDispatcher Envelope) : MessageDispatcher Envelope :=
  match s.mOutgoingQueue.pop with
  | .shutdownException => { s with outgoing := .afterThrow (endpointError .shutdownException) }
  | .empty => { s with outgoing := .popWait }
  | .item envelope queue => { s with mOutgoingQueue := queue, outgoing := .callPut envelope }

/-- `mIncomingQueue.pop(envelope, mIdleInterval)`. -/
def popIncoming (s : MessageDispatcher Envelope) : MessageDispatcher Envelope :=
  match s.mIncomingQueue.pop with
  | .shutdownException => { s with handler := .afterThrow (handlerError .shutdownException) }
  | .empty => { s with handler := .popWait }
  | .item envelope queue => { s with mIncomingQueue := queue, handler := .count envelope }

/-! ## The steps -/

inductive Event (Envelope : Type*)
  -- callers
  | send (envelope : Envelope)
  | startQueueing
  | startDispatching
  | postQuit
  | postError (reason : DispatcherExitReason)
  | joinMaster
  | waitForExitReturns
  -- the incoming thread
  | incomingTests
  | getEnvelopeReturns (envelope : Envelope)
  | getEnvelopeThrows (e : Exception)
  | incomingPushes (envelope : Envelope)
  | incomingPosts (reason : DispatcherExitReason)
  -- the outgoing thread
  | outgoingTests
  | outgoingPops
  | putEnvelopeCalled (envelope : Envelope)
  | putEnvelopeReturns (envelope : Envelope)
  | putEnvelopeThrows (envelope : Envelope) (e : Exception)
  | outgoingCounts (envelope : Envelope)
  | outgoingPosts (reason : DispatcherExitReason)
  -- the handler thread
  | handlerTests
  | handlerPops
  | handlerTimesOut
  | handlerCounts (envelope : Envelope)
  | handleMessageCalled (envelope : Envelope)
  | handlerReturns
  | handlerThrows (e : Exception)
  | handlerPosts (reason : DispatcherExitReason)
  -- the master thread
  | masterLocks
  | masterStartsIncoming
  | masterTestsDispatching
  | masterWakesDispatching
  | masterStartsOutgoing
  | masterStartsHandler
  | masterTestsExiting
  | masterWakesExiting
  | masterShutsIncoming
  | masterShutsOutgoing
  | masterShutsSource
  | masterUnlocks
  | masterJoinsIncoming
  | masterJoinsOutgoing
  | masterJoinsHandler
  | masterNotifies
  | masterExits

variable [DecidableEq Envelope] (classId : Envelope → UUID)

def step (s : MessageDispatcher Envelope) : Event Envelope → Option (MessageDispatcher Envelope)
  | .send envelope => some (s.send envelope)
  | .startQueueing => onlyIf s.mutexFree s.startQueueing
  | .startDispatching => onlyIf s.mutexFree s.startDispatching
  | .postQuit => onlyIf s.mutexFree s.postQuit
  | .postError reason => onlyIf s.mutexFree (s.postError reason)
  | .joinMaster =>
    onlyIf (s.master = .notCreated ∨ s.master = .returned) { s with waiting := s.waiting + 1 }
  | .waitForExitReturns =>
    onlyIf (0 < s.waiting)
      { s with waiting := s.waiting - 1, exitReports := s.exitReports ++ [s.mExitReason] }
  | .incomingTests =>
    onlyIf (s.incoming = .testState)
      { s with incoming := if s.mState = .Exiting then .returned else .getEnvelope }
  | .getEnvelopeReturns envelope =>
    onlyIf (s.incoming = .getEnvelope)
      { s with incoming := .push envelope, got := s.got ++ [envelope] }
  | .getEnvelopeThrows e =>
    onlyIf (s.incoming = .getEnvelope) { s with incoming := .afterThrow (endpointError e) }
  | .incomingPushes envelope =>
    onlyIf (s.incoming = .push envelope) (s.pushIncoming envelope)
  | .incomingPosts reason =>
    onlyIf (s.incoming = .postError reason ∧ s.mutexFree)
      { s.postError reason with incoming := .testState }
  | .outgoingTests =>
    onlyIf (s.outgoing = .testState)
      { s with outgoing := if s.mState = .Exiting then .returned else .pop }
  | .outgoingPops =>
    onlyIf (s.outgoing = .pop ∨ s.outgoing = .popWait) s.popOutgoing
  | .putEnvelopeCalled envelope =>
    onlyIf (s.outgoing = .callPut envelope)
      { s with outgoing := .inPut envelope, put := s.put ++ [envelope] }
  | .putEnvelopeReturns envelope =>
    onlyIf (s.outgoing = .inPut envelope)
      { s with outgoing := .count envelope, putReturned := s.putReturned ++ [envelope] }
  | .putEnvelopeThrows envelope e =>
    onlyIf (s.outgoing = .inPut envelope) { s with outgoing := .afterThrow (endpointError e) }
  | .outgoingCounts envelope =>
    onlyIf (s.outgoing = .count envelope)
      { s with
        mSentCount :=
          if classId envelope ≠ ExecutorHeartbeat.CLASS_ID then s.mSentCount + 1 else s.mSentCount
        outgoing := .testState }
  | .outgoingPosts reason =>
    onlyIf (s.outgoing = .postError reason ∧ s.mutexFree)
      { s.postError reason with outgoing := .testState }
  | .handlerTests =>
    onlyIf (s.handler = .testState)
      { s with handler := if s.mState = .Exiting then .returned else .pop }
  | .handlerPops =>
    onlyIf (s.handler = .pop ∨ s.handler = .popWait) s.popIncoming
  | .handlerTimesOut =>
    -- `pop` returns false, and `onIdle` is called
    onlyIf (s.handler = .popWait ∧ s.mIdleInterval ≠ 0) { s with handler := .inHandler }
  | .handlerCounts envelope =>
    onlyIf (s.handler = .count envelope)
      { s with mReceivedCount := s.mReceivedCount + 1, handler := .callHandler envelope }
  | .handleMessageCalled envelope =>
    onlyIf (s.handler = .callHandler envelope)
      { s with handler := .inHandler, handled := s.handled ++ [envelope] }
  | .handlerReturns =>
    onlyIf (s.handler = .inHandler) { s with handler := .testState }
  | .handlerThrows e =>
    onlyIf (s.handler = .inHandler) { s with handler := .afterThrow (handlerError e) }
  | .handlerPosts reason =>
    onlyIf (s.handler = .postError reason ∧ s.mutexFree)
      { s.postError reason with handler := .testState }
  | .masterLocks => onlyIf (s.master = .lock) { s with master := .startIncoming }
  | .masterStartsIncoming =>
    onlyIf (s.master = .startIncoming)
      { s with incoming := .testState, master := .testDispatching }
  | .masterTestsDispatching =>
    onlyIf (s.master = .testDispatching)
      { s with master :=
          if s.mState = .Dispatching then .startOutgoing
          else if s.mState = .Exiting then .shutdownIncoming
          else .waitDispatching }
  | .masterWakesDispatching =>
    onlyIf (s.master = .waitDispatching) { s with master := .testDispatching }
  | .masterStartsOutgoing =>
    onlyIf (s.master = .startOutgoing) { s with outgoing := .testState, master := .startHandler }
  | .masterStartsHandler =>
    onlyIf (s.master = .startHandler) { s with handler := .testState, master := .testExiting }
  | .masterTestsExiting =>
    onlyIf (s.master = .testExiting)
      { s with master := if s.mState = .Exiting then .shutdownIncoming else .waitExiting }
  | .masterWakesExiting =>
    onlyIf (s.master = .waitExiting) { s with master := .testExiting }
  | .masterShutsIncoming =>
    onlyIf (s.master = .shutdownIncoming)
      { s with mIncomingQueue := s.mIncomingQueue.shutdown, master := .shutdownOutgoing }
  | .masterShutsOutgoing =>
    onlyIf (s.master = .shutdownOutgoing)
      { s with mOutgoingQueue := s.mOutgoingQueue.shutdown, master := .shutdownSource }
  | .masterShutsSource =>
    onlyIf (s.master = .shutdownSource) { s with master := .unlock }
  | .masterUnlocks => onlyIf (s.master = .unlock) { s with master := .joinIncoming }
  | .masterJoinsIncoming =>
    onlyIf (s.master = .joinIncoming ∧ (s.incoming = .notCreated ∨ s.incoming = .returned))
      { s with master := .joinOutgoing }
  | .masterJoinsOutgoing =>
    onlyIf (s.master = .joinOutgoing ∧ (s.outgoing = .notCreated ∨ s.outgoing = .returned))
      { s with master := .joinHandler }
  | .masterJoinsHandler =>
    onlyIf (s.master = .joinHandler ∧ (s.handler = .notCreated ∨ s.handler = .returned))
      { s with master := .notifyObserver }
  | .masterNotifies =>
    onlyIf (s.master = .notifyObserver)
      { s with observed := s.observed ++ [s.mExitReason], master := .setExited }
  | .masterExits =>
    onlyIf (s.master = .setExited) { s with mState := .Exited, master := .returned }

/-- A dispatcher as it is constructed, with whatever `mExitReason` holds. -/
def system : System (MessageDispatcher Envelope) (Event Envelope) where
  init s := ∃ reason idleInterval, s = { mExitReason := reason, mIdleInterval := idleInterval }
  step := step classId

end MessageDispatcher

end Arras4Core.Dispatch
