/-
  Arras4Core.Computation.CompEnvironmentImpl

  One run of `impl::CompEnvironmentImpl::runComputation` as a transition system:
  the thread that is in it, the performance monitor it starts, the threads of
  the dispatcher, and the control messages that the incoming thread handles
  inside `getEnvelope`.  The dispatcher and the monitor take the steps of their
  own systems.

  The function has two `return` statements.  The one at its end comes after the
  dispatcher's threads and the monitor's thread have been joined; the one for a
  `go` that never came leaves both running.  The destructor of a `std::thread`
  that is still joinable then ends the program.
-/

import Arras4Core.Computation.PerformanceMonitor
import Arras4Core.Computation.RoutingUpdate
import Arras4Core.Dispatch.Delivery
import Arras4Core.Dispatch.Joins

namespace Arras4Core.Computation

open Arras4Core.Lib
open Arras4Core.Api (Exception UUID Address)
open Arras4Core.Dispatch (MessageDispatcher DispatcherExitReason)
open Arras4Core.Routing (Addressing)

inductive ComputationExitReason
  | None | Quit | Disconnected | MessageError | HandlerError
  | StateError | Timeout | StartException | StopException
  deriving DecidableEq

def dispatcherToComputationExitReason : DispatcherExitReason → ComputationExitReason
  | .None => .None
  | .Quit => .Quit
  | .Disconnected => .Disconnected
  | .MessageError => .MessageError
  | .HandlerError => .HandlerError

/-! ## Where the thread is -/

/-- `runComputation`.  At `returns` a `return` statement has been executed, and the
    local objects are yet to be destroyed. -/
inductive MainPc
  | clearGo
  | startMonitor
  | startQueueing
  | sendReady
  | testGo
  | waitGo
  | configureStart
  | postQuit
  | startDispatching
  -- from here on, whether `configure("start")` threw
  | joinDispatcher (startThrew : Bool)
  | readExitReason (startThrew : Bool)
  | configureStop (der : DispatcherExitReason)
  | stopMonitor (reason : ComputationExitReason)
  | joinMonitor (reason : ComputationExitReason)
  | returns (reason : ComputationExitReason)
  | returned (reason : ComputationExitReason)
  | aborted
  deriving DecidableEq

/-- Where the program goes once the dispatcher has exited. -/
def MainPc.afterExit (startThrew : Bool) (der : DispatcherExitReason) : MainPc :=
  if startThrew then .stopMonitor .StartException else .configureStop der

/-- `startQueueing` has been called. -/
def MainPc.queued : MainPc → Bool
  | clearGo | startMonitor | startQueueing => false
  | _ => true

/-- The dispatcher's master thread has been joined. -/
def MainPc.exited : MainPc → Bool
  | readExitReason _ | configureStop _ | stopMonitor _ | joinMonitor _ | returns _
  | returned _ => true
  | _ => false

/-- The monitor's thread was started, and what comes next is the dispatcher or the
    wait for `go`. -/
def MainPc.awaits : MainPc → Bool
  | startQueueing | sendReady | testGo | waitGo => true
  | _ => false

/-- The monitor's thread has been joined. -/
def MainPc.cleaned : MainPc → Bool
  | returns _ | returned _ => true
  | _ => false

/-- The calls of `configure` so far: whether that of "start" has returned normally,
    and whether that of "stop" was made. -/
def MainPc.configured : MainPc → Bool → Bool → Prop
  | startDispatching, startReturned, stopCalled => startReturned = true ∧ stopCalled = false
  | joinDispatcher startThrew, startReturned, stopCalled
  | readExitReason startThrew, startReturned, stopCalled =>
    startReturned = !startThrew ∧ stopCalled = false
  | configureStop _, startReturned, stopCalled => startReturned = true ∧ stopCalled = true
  | stopMonitor _, startReturned, stopCalled
  | joinMonitor _, startReturned, stopCalled
  | returns _, startReturned, stopCalled
  | returned _, startReturned, stopCalled
  | aborted, startReturned, stopCalled => stopCalled = startReturned
  | _, startReturned, stopCalled => startReturned = false ∧ stopCalled = false

/-- The members and local objects of the run, and the calls of `configure` so far. -/
structure CompEnvironmentImpl (Envelope : Type*) where
  waitForGo : Bool
  mGo : Bool
  mDispatcher : MessageDispatcher Envelope
  mAddressing : Addressing := {}
  monitor : PerformanceMonitor := {}
  /-- `monitorThread` stands for a thread that has not been joined -/
  monitorJoinable : Bool := false
  main : MainPc := .clearGo
  /-- the incoming thread is in `signalStop`, and has yet to call `postQuit` -/
  stopping : Bool := false
  /-- `configure("start")` returned normally -/
  startReturned : Bool := false
  /-- `configure("stop")` was called -/
  stopCalled : Bool := false

namespace CompEnvironmentImpl

variable {Envelope : Type*}

/-- Steps that the dispatcher's threads take by themselves, and calls of `send` by
    the computation. -/
def isThread : MessageDispatcher.Event Envelope → Bool
  | .startQueueing | .startDispatching | .postQuit | .postError _ | .joinMaster
  | .waitForExitReturns => false
  | _ => true

/-- The incoming thread leaves `getEnvelope`. -/
def leavesGetEnvelope : MessageDispatcher.Event Envelope → Bool
  | .getEnvelopeReturns _ | .getEnvelopeThrows _ => true
  | _ => false

inductive Event (Envelope : Type*)
  | dispatcher (e : MessageDispatcher.Event Envelope)
  -- the monitor's thread
  | monitorSetsRun
  | sendsHeartbeat (heartbeat : Envelope)
  | monitorTests (timedOut : Bool)
  -- the incoming thread, in `controlMessage`
  | controlMessage (command data : String)
  | controlPostsQuit
  -- the thread that is in `runComputation`
  | clearsGo
  | startsMonitor
  | startsQueueing
  | sendsReady (ready : Envelope)
  | testsGo
  | wakesGo
  | timesOutGo
  | startReturns
  | startThrows
  | postsQuit
  | startsDispatching
  | joinsDispatcher
  | readsExitReason
  | stopReturns
  | stopThrows
  | stopsMonitor
  | joinsMonitor
  | destroysLocals

/-- A step of the monitor, enabled where `c` holds; `f` is what else changes. -/
def monitors (s : CompEnvironmentImpl Envelope) (c : Prop) [Decidable c]
    (e : PerformanceMonitor.Event)
    (f : CompEnvironmentImpl Envelope → CompEnvironmentImpl Envelope) :
    Option (CompEnvironmentImpl Envelope) :=
  if c then (s.monitor.step e).map fun m => f { s with monitor := m } else none

theorem of_monitors {s s' : CompEnvironmentImpl Envelope} {c : Prop} [Decidable c]
    {e : PerformanceMonitor.Event}
    {f : CompEnvironmentImpl Envelope → CompEnvironmentImpl Envelope}
    (h : s.monitors c e f = some s') :
    c ∧ ∃ m, s.monitor.step e = some m ∧ s' = f { s with monitor := m } := by
  unfold monitors at h
  split at h
  · next hc =>
    obtain ⟨m, hm, rfl⟩ := Option.map_eq_some_iff.mp h
    exact ⟨hc, m, hm, rfl⟩
  · cases h

variable [DecidableEq Envelope] (classId : Envelope → UUID)

/-- The same for the dispatcher. -/
def dispatches (s : CompEnvironmentImpl Envelope) (c : Prop) [Decidable c]
    (e : MessageDispatcher.Event Envelope)
    (f : CompEnvironmentImpl Envelope → CompEnvironmentImpl Envelope) :
    Option (CompEnvironmentImpl Envelope) :=
  if c then
    (MessageDispatcher.step classId s.mDispatcher e).map fun d => f { s with mDispatcher := d }
  else none

variable (parse : String → ParseOutcome) (uuid_parse : String → Option UUID) (mAddress : Address)

/-- The incoming thread takes a control message.  An exception is one that
    `getEnvelope` throws. -/
def takesControlMessage (s : CompEnvironmentImpl Envelope) (command data : String) :
    Option (CompEnvironmentImpl Envelope) :=
  match (controlMessage parse uuid_parse mAddress command data).run.run s.mAddressing with
  | (.ok .none, addressing) => some { s with mAddressing := addressing }
  | (.ok .go, _) => some { s with mGo := true }
  -- `signalStop` is `signalGo` and then `postQuit`
  | (.ok .stop, _) => some { s with mGo := true, stopping := true }
  | (.error e, addressing) =>
    s.dispatches classId True (.getEnvelopeThrows e) fun s => { s with mAddressing := addressing }

def step (s : CompEnvironmentImpl Envelope) :
    Event Envelope → Option (CompEnvironmentImpl Envelope)
  | .dispatcher e =>
    s.dispatches classId (isThread e ∧ (leavesGetEnvelope e → s.stopping = false)) e id
  | .monitorSetsRun => s.monitors True .setsRun id
  | .sendsHeartbeat heartbeat =>
    (s.monitors True .sendsHeartbeat id).map fun s =>
      { s with mDispatcher := s.mDispatcher.send heartbeat }
  | .monitorTests timedOut => s.monitors True (.tests timedOut) id
  | .controlMessage command data =>
    if s.mDispatcher.incoming = .getEnvelope ∧ s.stopping = false then
      s.takesControlMessage classId parse uuid_parse mAddress command data
    else none
  | .controlPostsQuit =>
    s.dispatches classId s.stopping .postQuit fun s => { s with stopping := false }
  | .clearsGo => onlyIf (s.main = .clearGo) { s with mGo := false, main := .startMonitor }
  | .startsMonitor =>
    s.monitors (s.main = .startMonitor) .threadCreated fun s =>
      { s with monitorJoinable := true, main := .startQueueing }
  | .startsQueueing =>
    s.dispatches classId (s.main = .startQueueing) .startQueueing fun s =>
      { s with main := .sendReady }
  | .sendsReady ready =>
    s.dispatches classId (s.main = .sendReady) (.send ready) fun s =>
      { s with main := if s.waitForGo then .testGo else .configureStart }
  | .testsGo =>
    onlyIf (s.main = .testGo) { s with main := if s.mGo then .configureStart else .waitGo }
  | .wakesGo => onlyIf (s.main = .waitGo) { s with main := .testGo }
  | .timesOutGo => onlyIf (s.main = .waitGo) { s with main := .returns .Timeout }
  | .startReturns =>
    onlyIf (s.main = .configureStart) { s with startReturned := true, main := .startDispatching }
  | .startThrows => onlyIf (s.main = .configureStart) { s with main := .postQuit }
  | .postsQuit =>
    s.dispatches classId (s.main = .postQuit) .postQuit fun s =>
      { s with main := .joinDispatcher true }
  | .startsDispatching =>
    -- the logic error of a dispatcher that has quit already is caught
    s.dispatches classId (s.main = .startDispatching) .startDispatching fun s =>
      { s with main := .joinDispatcher false }
  | .joinsDispatcher =>
    match s.main with
    | .joinDispatcher startThrew =>
      s.dispatches classId True .joinMaster fun s => { s with main := .readExitReason startThrew }
    | _ => none
  | .readsExitReason =>
    match s.main with
    | .readExitReason startThrew =>
      s.dispatches classId True .waitForExitReturns fun s =>
        { s with
          main := .afterExit startThrew s.mDispatcher.mExitReason
          stopCalled := !startThrew }
    | _ => none
  | .stopReturns =>
    match s.main with
    | .configureStop der =>
      some { s with main := .stopMonitor (dispatcherToComputationExitReason der) }
    | _ => none
  | .stopThrows =>
    match s.main with
    | .configureStop _ => some { s with main := .stopMonitor .StopException }
    | _ => none
  | .stopsMonitor =>
    match s.main with
    | .stopMonitor reason => s.monitors True .stops fun s => { s with main := .joinMonitor reason }
    | _ => none
  | .joinsMonitor =>
    match s.main with
    | .joinMonitor reason =>
      onlyIf (s.monitor.run = .returned)
        { s with monitorJoinable := false, main := .returns reason }
    | _ => none
  | .destroysLocals =>
    match s.main with
    | .returns reason =>
      some { s with main := if s.monitorJoinable then .aborted else .returned reason }
    | _ => none

/-- A computation with a dispatcher as it is constructed; `mGo` has no initializer. -/
def system : System (CompEnvironmentImpl Envelope) (Event Envelope) where
  init s := ∃ waitForGo go dispatcher, (MessageDispatcher.system classId).init dispatcher ∧
    s = { waitForGo := waitForGo, mGo := go, mDispatcher := dispatcher }
  step := step classId parse uuid_parse mAddress

variable {classId} {parse} {uuid_parse} {mAddress} {s s' : CompEnvironmentImpl Envelope}

theorem of_dispatches {c : Prop} [Decidable c] {e : MessageDispatcher.Event Envelope}
    {f : CompEnvironmentImpl Envelope → CompEnvironmentImpl Envelope}
    (h : s.dispatches classId c e f = some s') :
    c ∧ ∃ d, MessageDispatcher.step classId s.mDispatcher e = some d ∧
      s' = f { s with mDispatcher := d } := by
  unfold dispatches at h
  split at h
  · next hc =>
    obtain ⟨d, hd, rfl⟩ := Option.map_eq_some_iff.mp h
    exact ⟨hc, d, hd, rfl⟩
  · cases h

/-! ## The steps of the other threads -/

/-- Steps of the thread that is in `runComputation`. -/
def Event.isMain : Event Envelope → Bool
  | .dispatcher _ | .monitorSetsRun | .sendsHeartbeat _ | .monitorTests _ | .controlMessage _ _
  | .controlPostsQuit => false
  | _ => true

/-- What a step of another thread leaves alone, and what it may do to the
    dispatcher and the monitor. -/
structure OtherStep (classId : Envelope → UUID) (s s' : CompEnvironmentImpl Envelope) : Prop where
  main : s'.main = s.main
  monitorJoinable : s'.monitorJoinable = s.monitorJoinable
  startReturned : s'.startReturned = s.startReturned
  stopCalled : s'.stopCalled = s.stopCalled
  dispatcher : s'.mDispatcher = s.mDispatcher ∨
    ∃ e, (isThread e ∨ e = .postQuit ∧ s.stopping) ∧
      MessageDispatcher.step classId s.mDispatcher e = some s'.mDispatcher
  monitor : s'.monitor = s.monitor ∨ ∃ e, s.monitor.step e = some s'.monitor
  stopping : s'.stopping → s.stopping ∨ s.mDispatcher.incoming = .getEnvelope

theorem otherStep {e : Event Envelope} (he : e.isMain = false)
    (hs : step classId parse uuid_parse mAddress s e = some s') : OtherStep classId s s' := by
  cases e with
  | dispatcher e =>
    obtain ⟨⟨hthread, -⟩, d, hd, rfl⟩ := of_dispatches hs
    exact ⟨rfl, rfl, rfl, rfl, .inr ⟨e, .inl hthread, hd⟩, .inl rfl, .inl⟩
  | monitorSetsRun | monitorTests =>
    obtain ⟨-, m, hm, rfl⟩ := of_monitors hs
    exact ⟨rfl, rfl, rfl, rfl, .inl rfl, .inr ⟨_, hm⟩, .inl⟩
  | sendsHeartbeat heartbeat =>
    obtain ⟨t, ht, rfl⟩ := Option.map_eq_some_iff.mp hs
    obtain ⟨-, m, hm, rfl⟩ := of_monitors ht
    exact ⟨rfl, rfl, rfl, rfl, .inr ⟨.send heartbeat, .inl rfl, rfl⟩, .inr ⟨_, hm⟩, .inl⟩
  | controlMessage command data =>
    simp only [step] at hs
    split at hs
    case isFalse => cases hs
    next hpc =>
      unfold takesControlMessage at hs
      split at hs
      · cases hs
        exact ⟨rfl, rfl, rfl, rfl, .inl rfl, .inl rfl, .inl⟩
      · cases hs
        exact ⟨rfl, rfl, rfl, rfl, .inl rfl, .inl rfl, .inl⟩
      · cases hs
        exact ⟨rfl, rfl, rfl, rfl, .inl rfl, .inl rfl, fun _ => .inr hpc.1⟩
      · obtain ⟨-, d, hd, rfl⟩ := of_dispatches hs
        exact ⟨rfl, rfl, rfl, rfl, .inr ⟨_, .inl rfl, hd⟩, .inl rfl, .inl⟩
  | controlPostsQuit =>
    simp only [step] at hs
    obtain ⟨hstopping, d, hd, rfl⟩ := of_dispatches hs
    exact ⟨rfl, rfl, rfl, rfl, .inr ⟨_, .inr ⟨rfl, hstopping⟩, hd⟩, .inl rfl, nofun⟩
  | _ => cases he

/-! ## The steps of `runComputation` -/

/-- What the thread does at a step, from where it is. -/
inductive MainStep (classId : Envelope → UUID) (s : CompEnvironmentImpl Envelope) :
    Event Envelope → CompEnvironmentImpl Envelope → Prop
  | clearsGo (hpc : s.main = .clearGo) :
      MainStep classId s .clearsGo { s with mGo := false, main := .startMonitor }
  | startsMonitor {m : PerformanceMonitor} (hpc : s.main = .startMonitor) :
      MainStep classId s .startsMonitor
        { s with monitor := m, monitorJoinable := true, main := .startQueueing }
  | startsQueueing {d : MessageDispatcher Envelope} (hpc : s.main = .startQueueing)
      (hd : MessageDispatcher.step classId s.mDispatcher .startQueueing = some d) :
      MainStep classId s .startsQueueing { s with mDispatcher := d, main := .sendReady }
  | sendsReady {ready : Envelope} {d : MessageDispatcher Envelope} (hpc : s.main = .sendReady)
      (hd : MessageDispatcher.step classId s.mDispatcher (.send ready) = some d) :
      MainStep classId s (.sendsReady ready)
        { s with mDispatcher := d, main := if s.waitForGo then .testGo else .configureStart }
  | testsGo (hpc : s.main = .testGo) :
      MainStep classId s .testsGo { s with main := if s.mGo then .configureStart else .waitGo }
  | wakesGo (hpc : s.main = .waitGo) : MainStep classId s .wakesGo { s with main := .testGo }
  | timesOutGo (hpc : s.main = .waitGo) :
      MainStep classId s .timesOutGo { s with main := .returns .Timeout }
  | startReturns (hpc : s.main = .configureStart) :
      MainStep classId s .startReturns { s with startReturned := true, main := .startDispatching }
  | startThrows (hpc : s.main = .configureStart) :
      MainStep classId s .startThrows { s with main := .postQuit }
  | postsQuit {d : MessageDispatcher Envelope} (hpc : s.main = .postQuit)
      (hd : MessageDispatcher.step classId s.mDispatcher .postQuit = some d) :
      MainStep classId s .postsQuit { s with mDispatcher := d, main := .joinDispatcher true }
  | startsDispatching {d : MessageDispatcher Envelope} (hpc : s.main = .startDispatching)
      (hd : MessageDispatcher.step classId s.mDispatcher .startDispatching = some d) :
      MainStep classId s .startsDispatching
        { s with mDispatcher := d, main := .joinDispatcher false }
  | joinsDispatcher {startThrew : Bool} {d : MessageDispatcher Envelope}
      (hpc : s.main = .joinDispatcher startThrew)
      (hd : MessageDispatcher.step classId s.mDispatcher .joinMaster = some d) :
      MainStep classId s .joinsDispatcher
        { s with mDispatcher := d, main := .readExitReason startThrew }
  | readsExitReason {startThrew : Bool} {d : MessageDispatcher Envelope}
      (hpc : s.main = .readExitReason startThrew)
      (hd : MessageDispatcher.step classId s.mDispatcher .waitForExitReturns = some d) :
      MainStep classId s .readsExitReason
        { s with
          mDispatcher := d
          main := .afterExit startThrew d.mExitReason
          stopCalled := !startThrew }
  | stopReturns {der : DispatcherExitReason} (hpc : s.main = .configureStop der) :
      MainStep classId s .stopReturns
        { s with main := .stopMonitor (dispatcherToComputationExitReason der) }
  | stopThrows {der : DispatcherExitReason} (hpc : s.main = .configureStop der) :
      MainStep classId s .stopThrows { s with main := .stopMonitor .StopException }
  | stopsMonitor {reason : ComputationExitReason} {m : PerformanceMonitor}
      (hpc : s.main = .stopMonitor reason) :
      MainStep classId s .stopsMonitor { s with monitor := m, main := .joinMonitor reason }
  | joinsMonitor {reason : ComputationExitReason} (hpc : s.main = .joinMonitor reason)
      (hreturned : s.monitor.run = .returned) :
      MainStep classId s .joinsMonitor
        { s with monitorJoinable := false, main := .returns reason }
  | destroysLocals {reason : ComputationExitReason} (hpc : s.main = .returns reason) :
      MainStep classId s .destroysLocals
        { s with main := if s.monitorJoinable then .aborted else .returned reason }

theorem mainStep {e : Event Envelope} (he : e.isMain = true)
    (hs : step classId parse uuid_parse mAddress s e = some s') : MainStep classId s e s' := by
  cases e with
  | clearsGo =>
    obtain ⟨hpc, rfl⟩ := of_onlyIf hs
    exact .clearsGo hpc
  | startsMonitor =>
    simp only [step] at hs
    obtain ⟨hpc, m, -, rfl⟩ := of_monitors hs
    exact .startsMonitor hpc
  | startsQueueing =>
    simp only [step] at hs
    obtain ⟨hpc, d, hd, rfl⟩ := of_dispatches hs
    exact .startsQueueing hpc hd
  | sendsReady ready =>
    simp only [step] at hs
    obtain ⟨hpc, d, hd, rfl⟩ := of_dispatches hs
    exact .sendsReady hpc hd
  | testsGo =>
    obtain ⟨hpc, rfl⟩ := of_onlyIf hs
    exact .testsGo hpc
  | wakesGo =>
    obtain ⟨hpc, rfl⟩ := of_onlyIf hs
    exact .wakesGo hpc
  | timesOutGo =>
    obtain ⟨hpc, rfl⟩ := of_onlyIf hs
    exact .timesOutGo hpc
  | startReturns =>
    obtain ⟨hpc, rfl⟩ := of_onlyIf hs
    exact .startReturns hpc
  | startThrows =>
    obtain ⟨hpc, rfl⟩ := of_onlyIf hs
    exact .startThrows hpc
  | postsQuit =>
    simp only [step] at hs
    obtain ⟨hpc, d, hd, rfl⟩ := of_dispatches hs
    exact .postsQuit hpc hd
  | startsDispatching =>
    simp only [step] at hs
    obtain ⟨hpc, d, hd, rfl⟩ := of_dispatches hs
    exact .startsDispatching hpc hd
  | joinsDispatcher =>
    simp only [step] at hs
    split at hs
    case h_2 => cases hs
    next startThrew hpc =>
      obtain ⟨-, d, hd, rfl⟩ := of_dispatches hs
      exact .joinsDispatcher hpc hd
  | readsExitReason =>
    simp only [step] at hs
    split at hs
    case h_2 => cases hs
    next startThrew hpc =>
      obtain ⟨-, d, hd, rfl⟩ := of_dispatches hs
      exact .readsExitReason hpc hd
  | stopReturns =>
    simp only [step] at hs
    split at hs
    case h_2 => cases hs
    next der hpc =>
      cases hs
      exact .stopReturns hpc
  | stopThrows =>
    simp only [step] at hs
    split at hs
    case h_2 => cases hs
    next der hpc =>
      cases hs
      exact .stopThrows hpc
  | stopsMonitor =>
    simp only [step] at hs
    split at hs
    case h_2 => cases hs
    next reason hpc =>
      obtain ⟨-, m, -, rfl⟩ := of_monitors hs
      exact .stopsMonitor hpc
  | joinsMonitor =>
    simp only [step] at hs
    split at hs
    case h_2 => cases hs
    next reason hpc =>
      obtain ⟨hreturned, rfl⟩ := of_onlyIf hs
      exact .joinsMonitor hpc hreturned
  | destroysLocals =>
    simp only [step] at hs
    split at hs
    case h_2 => cases hs
    next reason hpc =>
      cases hs
      exact .destroysLocals hpc
  | dispatcher | monitorSetsRun | sendsHeartbeat | monitorTests | controlMessage
  | controlPostsQuit => cases he

/-! ## The order of `runComputation` -/

/-- Nothing that the run has started is left. -/
structure CleanExit (s : CompEnvironmentImpl Envelope) : Prop where
  monitor : s.monitor.run = .returned ∧ s.monitorJoinable = false
  dispatcher : s.mDispatcher.ThreadsEnded
  configureStop : s.stopCalled = true ↔ s.startReturned = true

/-- Whenever `runComputation` returns, it has cleaned up. -/
def CleansUp (s : CompEnvironmentImpl Envelope) : Prop :=
  ∀ reason, s.main = .returns reason ∨ s.main = .returned reason → s.CleanExit

/-- The wait for `go` does not time out. -/
def GoInTime (_ : CompEnvironmentImpl Envelope) : Event Envelope → Prop
  | .timesOutGo => False
  | _ => True

/-- What has been done, by where the thread is. -/
structure Ordered (classId : Envelope → UUID) (s : CompEnvironmentImpl Envelope) : Prop where
  reachable : (MessageDispatcher.system classId).Reachable s.mDispatcher
  fresh : s.main.queued = false → s.mDispatcher.mState = .NotStarted ∧ s.stopping = false
  queued : s.main.queued = true → s.mDispatcher.master ≠ .notCreated
  exited : s.main.exited = true → s.mDispatcher.master = .returned
  cleaned : s.main.cleaned = true → s.monitor.run = .returned ∧ s.monitorJoinable = false
  configured : s.main.configured s.startReturned s.stopCalled

theorem Ordered.cleanExit (h : s.Ordered classId) (hexited : s.main.exited = true)
    (hcleaned : s.main.cleaned = true) (hconfigure : s.stopCalled = s.startReturned) :
    s.CleanExit where
  monitor := h.cleaned hcleaned
  dispatcher := MessageDispatcher.threadsEnded_of_reachable h.reachable (h.exited hexited)
  configureStop := by rw [hconfigure]

theorem Ordered.cleansUp (h : s.Ordered classId) : s.CleansUp := by
  intro reason hreturns
  have hconfigured := h.configured
  rcases hreturns with hpc | hpc
  all_goals
    rw [hpc] at hconfigured
    exact h.cleanExit (by rw [hpc]; rfl) (by rw [hpc]; rfl) hconfigured

/-- Another thread cannot create the master, nor have it take a step when it has
    returned. -/
theorem OtherStep.master (h : OtherStep classId s s') :
    (s.mDispatcher.master ≠ .notCreated → s'.mDispatcher.master ≠ .notCreated) ∧
      (s.mDispatcher.master = .returned → s'.mDispatcher.master = .returned) := by
  rcases h.dispatcher with hsame | ⟨e, he, hd⟩
  · rw [hsame]
    exact ⟨id, id⟩
  · rcases MessageDispatcher.master_of_step hd with hsame | ⟨rfl, -⟩ | ⟨-, hnot, hcreated⟩
    · rw [hsame]
      exact ⟨id, id⟩
    · rcases he with he | ⟨he, -⟩ <;> cases he
    · exact ⟨fun _ => hcreated, fun hreturned => absurd hreturned hnot⟩

/-- Before `startQueueing` the dispatcher has no thread to take a step. -/
theorem OtherStep.fresh (h : OtherStep classId s s')
    (hreach : (MessageDispatcher.system classId).Reachable s.mDispatcher)
    (hstate : s.mDispatcher.mState = .NotStarted) (hstopping : s.stopping = false) :
    s'.mDispatcher.mState = .NotStarted ∧ s'.stopping = false := by
  have hcreates := (MessageDispatcher.invariant_of_reachable hreach).creates
  have hmaster := hcreates.master hstate
  have hincoming := hcreates.incoming (by rw [hmaster]; decide)
  have houtgoing := hcreates.outgoing (by rw [hmaster]; decide)
  have hhandler := hcreates.handler (by rw [hmaster]; decide)
  constructor
  · rcases h.dispatcher with hsame | ⟨e, he, hd⟩
    · rw [hsame]
      exact hstate
    · have hthread : isThread e := he.resolve_right fun h => by simp [hstopping] at h
      by_cases hwrites : e.writesState = false
      · rw [MessageDispatcher.mState_of_step hwrites hd]
        exact hstate
      · -- the steps that write the state are steps of threads that are not there
        cases e with
        | incomingPosts reason =>
          obtain ⟨⟨hpc, -⟩, -⟩ := of_onlyIf hd
          cases hincoming.symm.trans hpc
        | outgoingPosts reason =>
          obtain ⟨⟨hpc, -⟩, -⟩ := of_onlyIf hd
          cases houtgoing.symm.trans hpc
        | handlerPosts reason =>
          obtain ⟨⟨hpc, -⟩, -⟩ := of_onlyIf hd
          cases hhandler.symm.trans hpc
        | masterExits =>
          obtain ⟨hpc, -⟩ := of_onlyIf hd
          cases hmaster.symm.trans hpc
        | startQueueing | startDispatching | postQuit | postError => cases hthread
        | _ => exact absurd rfl hwrites
  · by_contra hstop
    rcases h.stopping (by simpa using hstop) with hstop | hpc
    · rw [hstopping] at hstop
      cases hstop
    · cases hincoming.symm.trans hpc

/-- A step of another thread keeps the order. -/
theorem Ordered.other (h : s.Ordered classId) (hother : OtherStep classId s s') :
    s'.Ordered classId where
  reachable := by
    rcases hother.dispatcher with hsame | ⟨e, -, hd⟩
    · rw [hsame]
      exact h.reachable
    · exact h.reachable.next trivial hd
  fresh hqueued := by
    rw [hother.main] at hqueued
    obtain ⟨hstate, hstopping⟩ := h.fresh hqueued
    exact hother.fresh h.reachable hstate hstopping
  queued hqueued := by
    rw [hother.main] at hqueued
    exact hother.master.1 (h.queued hqueued)
  exited hexited := by
    rw [hother.main] at hexited
    exact hother.master.2 (h.exited hexited)
  cleaned hcleaned := by
    rw [hother.main] at hcleaned
    obtain ⟨hreturned, hjoined⟩ := h.cleaned hcleaned
    refine ⟨?_, by rw [hother.monitorJoinable]; exact hjoined⟩
    rcases hother.monitor with hsame | ⟨e, hm⟩
    · rw [hsame]
      exact hreturned
    · exact PerformanceMonitor.returned_of_step hreturned hm
  configured := by
    rw [hother.main, hother.startReturned, hother.stopCalled]
    exact h.configured

/-- A step of `runComputation` once `startQueueing` has been called. -/
theorem Ordered.moves (h : s.Ordered classId) (hqueued : s.main.queued = true)
    (hqueued' : s'.main.queued = true)
    (hd : s'.mDispatcher = s.mDispatcher ∨
      ∃ e, MessageDispatcher.step classId s.mDispatcher e = some s'.mDispatcher)
    (hexited : s'.main.exited = true → s'.mDispatcher.master = .returned)
    (hcleaned : s'.main.cleaned = true → s'.monitor.run = .returned ∧ s'.monitorJoinable = false)
    (hconfigured : s'.main.configured s'.startReturned s'.stopCalled) : s'.Ordered classId where
  reachable := by
    rcases hd with hsame | ⟨e, hd⟩
    · rw [hsame]
      exact h.reachable
    · exact h.reachable.next trivial hd
  fresh hnot := by
    rw [hqueued'] at hnot
    cases hnot
  queued _ := by
    rcases hd with hsame | ⟨e, hd⟩
    · rw [hsame]
      exact h.queued hqueued
    · rcases MessageDispatcher.master_of_step hd with hsame | ⟨-, hlock⟩ | ⟨-, -, hcreated⟩
      · rw [hsame]
        exact h.queued hqueued
      · rw [hlock]
        nofun
      · exact hcreated
  exited := hexited
  cleaned := hcleaned
  configured := hconfigured

theorem Ordered.main (h : s.Ordered classId) {e : Event Envelope} (hgo : s.GoInTime e)
    (hmain : MainStep classId s e s') : s'.Ordered classId := by
  have hconfigured := h.configured
  cases hmain with
  | timesOutGo => exact hgo.elim
  | clearsGo hpc | startsMonitor hpc =>
    rw [hpc] at hconfigured
    exact
      { reachable := h.reachable
        fresh := fun _ => h.fresh (by rw [hpc]; rfl)
        queued := nofun
        exited := nofun
        cleaned := nofun
        configured := hconfigured }
  | @startsQueueing d hpc hd =>
    rw [hpc] at hconfigured
    obtain ⟨hstate, -⟩ := h.fresh (by rw [hpc]; rfl)
    -- the dispatcher has not been started, so the call is accepted
    have hmaster : d.master = .lock := by
      obtain ⟨-, rfl⟩ := of_onlyIf hd
      simp [MessageDispatcher.startQueueing, hstate]
    exact
      { reachable := h.reachable.next (e := MessageDispatcher.Event.startQueueing) trivial hd
        fresh := nofun
        queued := fun _ => by
          show d.master ≠ .notCreated
          rw [hmaster]
          nofun
        exited := nofun
        cleaned := nofun
        configured := hconfigured }
  | sendsReady hpc hd =>
    rw [hpc] at hconfigured
    exact h.moves (by rw [hpc]; rfl) (by cases s.waitForGo <;> rfl) (.inr ⟨_, hd⟩)
      (by cases s.waitForGo <;> nofun) (by cases s.waitForGo <;> nofun)
      (by cases s.waitForGo <;> exact hconfigured)
  | testsGo hpc =>
    rw [hpc] at hconfigured
    exact h.moves (by rw [hpc]; rfl) (by cases s.mGo <;> rfl) (.inl rfl)
      (by cases s.mGo <;> nofun) (by cases s.mGo <;> nofun)
      (by cases s.mGo <;> exact hconfigured)
  | startReturns hpc =>
    rw [hpc] at hconfigured
    exact h.moves (by rw [hpc]; rfl) rfl (.inl rfl) nofun nofun ⟨rfl, hconfigured.2⟩
  | wakesGo hpc | startThrows hpc =>
    rw [hpc] at hconfigured
    exact h.moves (by rw [hpc]; rfl) rfl (.inl rfl) nofun nofun hconfigured
  | postsQuit hpc hd | startsDispatching hpc hd =>
    rw [hpc] at hconfigured
    exact h.moves (by rw [hpc]; rfl) rfl (.inr ⟨_, hd⟩) nofun nofun hconfigured
  | joinsDispatcher hpc hd =>
    rw [hpc] at hconfigured
    refine h.moves (by rw [hpc]; rfl) rfl (.inr ⟨_, hd⟩) (fun _ => ?_) nofun hconfigured
    -- the thread that is joined exists, so it has returned
    obtain ⟨hjoin, rfl⟩ := of_onlyIf hd
    exact hjoin.resolve_left (h.queued (by rw [hpc]; rfl))
  | @readsExitReason startThrew d hpc hd =>
    rw [hpc] at hconfigured
    have hsame : d.master = .returned := by
      obtain ⟨-, rfl⟩ := of_onlyIf hd
      exact h.exited (by rw [hpc]; rfl)
    cases startThrew with
    | true =>
      exact h.moves (by rw [hpc]; rfl) rfl (.inr ⟨_, hd⟩) (fun _ => hsame) nofun
        hconfigured.1.symm
    | false =>
      exact h.moves (by rw [hpc]; rfl) rfl (.inr ⟨_, hd⟩) (fun _ => hsame) nofun
        ⟨hconfigured.1, rfl⟩
  | stopReturns hpc | stopThrows hpc =>
    rw [hpc] at hconfigured
    exact h.moves (by rw [hpc]; rfl) rfl (.inl rfl) (fun _ => h.exited (by rw [hpc]; rfl)) nofun
      (hconfigured.2.trans hconfigured.1.symm)
  | stopsMonitor hpc =>
    rw [hpc] at hconfigured
    exact h.moves (by rw [hpc]; rfl) rfl (.inl rfl) (fun _ => h.exited (by rw [hpc]; rfl)) nofun
      hconfigured
  | joinsMonitor hpc hreturned =>
    rw [hpc] at hconfigured
    exact h.moves (by rw [hpc]; rfl) rfl (.inl rfl) (fun _ => h.exited (by rw [hpc]; rfl))
      (fun _ => ⟨hreturned, rfl⟩) hconfigured
  | destroysLocals hpc =>
    rw [hpc] at hconfigured
    obtain ⟨hreturned, hjoined⟩ := h.cleaned (by rw [hpc]; rfl)
    rw [hjoined]
    exact h.moves (by rw [hpc]; rfl) rfl (.inl rfl) (fun _ => h.exited (by rw [hpc]; rfl))
      (fun _ => ⟨hreturned, rfl⟩) hconfigured

theorem Ordered.next (h : s.Ordered classId) {e : Event Envelope} (hgo : s.GoInTime e)
    (hs : step classId parse uuid_parse mAddress s e = some s') : s'.Ordered classId := by
  by_cases he : e.isMain = true
  · exact h.main hgo (mainStep he hs)
  · exact h.other (otherStep (Bool.eq_false_of_not_eq_true he) hs)

theorem ordered_of_reachable
    (h : (system classId parse uuid_parse mAddress).ReachableWhen GoInTime s) :
    s.Ordered classId := by
  apply h.invariant (I := Ordered classId)
  · rintro s₀ ⟨waitForGo, go, dispatcher, hinit, rfl⟩
    have hstate : dispatcher.mState = .NotStarted := by
      obtain ⟨reason, idleInterval, rfl⟩ := hinit
      rfl
    exact
      { reachable := .init hinit
        fresh := fun _ => ⟨hstate, rfl⟩
        queued := nofun
        exited := nofun
        cleaned := nofun
        configured := ⟨rfl, rfl⟩ }
  · intro s₁ e s₂ hI hgo hs
    exact hI.next hgo hs

/-- **`runComputation` cleans up on every exit**, unless its wait for `go` times
    out. -/
theorem cleansUp_of_goInTime
    (h : (system classId parse uuid_parse mAddress).ReachableWhen GoInTime s) : s.CleansUp :=
  (ordered_of_reachable h).cleansUp

/-! ## The wait that times out -/

/-- While the thread waits for `go` or is about to, there is a monitor thread to
    join. -/
theorem monitorJoinable_of_awaits
    (h : (system classId parse uuid_parse mAddress).Reachable s) :
    s.main.awaits = true → s.monitorJoinable = true := by
  apply h.invariant (I := fun s => s.main.awaits = true → s.monitorJoinable = true)
  · rintro s₀ ⟨waitForGo, go, dispatcher, -, rfl⟩
    nofun
  · intro s₁ e s₂ hI _ hs
    change step classId parse uuid_parse mAddress s₁ e = some s₂ at hs
    by_cases he : e.isMain = true
    · cases mainStep he hs with
      | startsMonitor => exact fun _ => rfl
      | startsQueueing hpc | sendsReady hpc | testsGo hpc | wakesGo hpc =>
        exact fun _ => hI (by rw [hpc]; rfl)
      | @readsExitReason startThrew d hpc => cases startThrew <;> nofun
      | destroysLocals => cases s₁.monitorJoinable <;> nofun
      | _ => nofun
    · have hother := otherStep (Bool.eq_false_of_not_eq_true he) hs
      rw [hother.main, hother.monitorJoinable]
      exact hI

/-- Every time-out is a return that leaves the monitor's thread to a destructor
    that ends the program. -/
theorem not_cleansUp_of_timesOutGo
    (h : (system classId parse uuid_parse mAddress).Reachable s)
    (hs : step classId parse uuid_parse mAddress s .timesOutGo = some s') :
    ¬ s'.CleansUp ∧ (step classId parse uuid_parse mAddress s' .destroysLocals).map (·.main)
      = some .aborted := by
  obtain ⟨hpc, rfl⟩ := of_onlyIf hs
  have hjoinable := monitorJoinable_of_awaits h (by rw [hpc]; rfl)
  constructor
  · intro hclean
    have hjoined := (hclean .Timeout (.inl rfl)).monitor.2
    exact absurd (hjoined.symm.trans hjoinable) nofun
  · simp only [step, hjoinable]
    rfl

/-! ## Two runs -/

/-- `configure("start")` throws, and the dispatcher is told to quit. -/
def startThrows : List (Event UUID) :=
  [.clearsGo, .startsMonitor, .startsQueueing, .sendsReady UUID.null, .startThrows, .postsQuit]

/-- The dispatcher's threads end, and the master is joined. -/
def dispatcherExits : List (Event UUID) :=
  [.dispatcher .masterLocks, .dispatcher .masterStartsIncoming, .dispatcher .masterTestsDispatching,
    .dispatcher .masterShutsIncoming, .dispatcher .masterShutsOutgoing,
    .dispatcher .masterShutsSource, .dispatcher .masterUnlocks, .dispatcher .incomingTests,
    .dispatcher .masterJoinsIncoming, .dispatcher .masterJoinsOutgoing,
    .dispatcher .masterJoinsHandler, .dispatcher .masterNotifies, .dispatcher .masterExits,
    .joinsDispatcher, .readsExitReason]

def monitorExits : List (Event UUID) :=
  [.monitorSetsRun, .sendsHeartbeat UUID.null, .stopsMonitor, .monitorTests true, .joinsMonitor]

/-- A run with nothing in its environment. -/
def plainSystem : System (CompEnvironmentImpl UUID) (Event UUID) :=
  system id (fun _ => .refused .null) (fun _ => none) {}

def newComputation (waitForGo : Bool) : CompEnvironmentImpl UUID :=
  { waitForGo := waitForGo, mGo := true, mDispatcher := MessageDispatcher.newDispatcher }

theorem newComputation_init (waitForGo : Bool) : plainSystem.init (newComputation waitForGo) :=
  ⟨waitForGo, true, _, MessageDispatcher.newDispatcher_init, rfl⟩

/-- A computation that does not start. -/
theorem cleansUp_startException : ∃ s, plainSystem.ReachableWhen GoInTime s ∧
    s.main = .returns .StartException ∧ s.CleansUp := by
  obtain ⟨s, hreach, hs⟩ := System.exists_reachableWhen_of_run (M := plainSystem) (C := GoInTime)
    (fun s => decide (s.main = .returns .StartException))
    (fun _ e => match e with | .timesOutGo => false | _ => true)
    (startThrows ++ dispatcherExits ++ monitorExits) (newComputation_init false)
    (by rintro s (_ | _) h <;> trivial) (by decide)
  exact ⟨s, hreach, of_decide_eq_true hs, cleansUp_of_goInTime hreach⟩

/-- A `go` that does not come: the function returns with both threads running. -/
theorem not_forall_cleansUp : ¬ ∀ s, plainSystem.Reachable s → s.CleansUp := by
  intro hall
  obtain ⟨s, hreach, hs⟩ := System.exists_reachable_of_run (M := plainSystem)
    (fun s => decide (s.main = .returns .Timeout ∧ s.monitorJoinable = true))
    [.clearsGo, .startsMonitor, .startsQueueing, .sendsReady UUID.null, .testsGo, .timesOutGo]
    (newComputation_init true) (by decide)
  obtain ⟨hpc, hjoinable⟩ := of_decide_eq_true hs
  have hjoined := (hall s hreach .Timeout (.inl hpc)).monitor.2
  rw [hjoinable] at hjoined
  cases hjoined

end CompEnvironmentImpl

end Arras4Core.Computation
