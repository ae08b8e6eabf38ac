/-
  Arras4Core.Client.Messages

  The messages of a `Client` once `postConnect` has started its threads: the callers
  of `send`, the thread that takes them from the queue of an asynchronous client
  (`sendProc`), the one that delivers what arrives to the components (`threadProc`)
  and, in a local session, the one that tells them of the end of the computation
  (`localTermination`).  What `createSession` still does meanwhile is part of the runs:
  `connectSession` sets the state once more, and `createLocal` sends "go" and counts
  the engine as ready by itself.

  A client that does not send asynchronously calls `putEnvelope` in `send`; one caller
  does so at a time.  The steps of `shutdownConnection` go up to the call that shuts
  the endpoint down: what comes after it is in `Client.Teardown`, and when the tests of
  the state come out as they should in `Client.Shutdown`.  The request for a session,
  the process of a local computation and its log lines are left out.
-/

import Arras4Core.Client.Shutdown
import Arras4Core.Dispatch.ThreadsafeQueue
import Arras4Core.Message.CoreMessages

namespace Arras4Core.Client

open Arras4Core.Lib
open Arras4Core.Api (Exception ClassID Object)
open Arras4Core.Dispatch (ThreadsafeQueue)
open Arras4Core.Message (EngineReadyMessage SessionStatusMessage ExecutorHeartbeat)

/-! ## Where the threads are -/

/-- `createSession`, from the "ready" message that `postConnect` sends. -/
inductive CreatePc
  | sendsReady
  /-- `connectSession` sets the state -/
  | setsConnected
  | setsIsLocal
  | sendsGo
  | setsEngineReady
  /-- `createDistributed` has returned -/
  | createdDistributed
  /-- `createLocal` has counted the engine as ready -/
  | createdLocal
  | threw
  deriving DecidableEq

/-- Reached in `createLocal` only. -/
def CreatePc.isLocal : CreatePc → Bool
  | sendsGo | setsEngineReady | createdLocal => true
  | sendsReady | setsConnected | setsIsLocal | createdDistributed | threw => false

/-- `sendProc`. -/
inductive SendProcPc (Envelope : Type*)
  | notCreated
  | testRun
  | pop
  | popWait
  | inPut (envelope : Envelope)
  /-- the exception callbacks are called next -/
  | reports (e : Exception)
  | returned

/-- `threadProc`. -/
inductive ThreadProcPc (Envelope : Type*)
  | testRun
  | getEnvelope
  /-- `mEngineReady` is set next, if this is the message for it -/
  | dispatch (envelope : Envelope)
  /-- the components are called next -/
  | callsComponents (envelope : Envelope)
  /-- the connection was closed -/
  | testsState
  | setsDisconnected
  /-- the exception callbacks are called next -/
  | reports (e : Exception)
  | setsConnectionError
  | returned

/-- The next step of `disconnect`. -/
inductive DisconnectPc
  | notCalled
  | stopsRun
  | shutsQueue
  | shutsEndpoint
  | tearsDown
  deriving DecidableEq

/-- Got from the endpoint, and the components have yet to be told. -/
def ThreadProcPc.pending {Envelope : Type*} : ThreadProcPc Envelope → List Envelope
  | dispatch envelope | callsComponents envelope => [envelope]
  | testRun | getEnvelope | testsState | setsDisconnected | reports _ | setsConnectionError
  | returned => []

/-- A loss of the connection was reported, and `mConnectionError` is not yet set. -/
def ThreadProcPc.hasReported {Envelope : Type*} : ThreadProcPc Envelope → Bool
  | setsConnectionError => true
  | testRun | getEnvelope | dispatch _ | callsComponents _ | testsState | setsDisconnected
  | reports _ | returned => false

/-- Passed to `putEnvelope`, which has yet to end. -/
def SendProcPc.pending {Envelope : Type*} : SendProcPc Envelope → List Envelope
  | inPut envelope => [envelope]
  | notCreated | testRun | pop | popWait | reports _ | returned => []

/-- Thrown by `putEnvelope`, and yet to be reported. -/
def SendProcPc.unreported {Envelope : Type*} : SendProcPc Envelope → List Exception
  | reports e => [e]
  | notCreated | testRun | pop | popWait | inPut _ | returned => []

/-- What `sendProc` passes to the exception callbacks of what `putEnvelope` throws. -/
def sendError : Exception → Option Exception
  | .shutdownException | .peerDisconnectException => none
  | e => some e

/-- Where `sendProc` goes on after a call of `putEnvelope`. -/
def SendProcPc.afterPut {Envelope : Type*} : Option Exception → SendProcPc Envelope
  | none => testRun
  | some e => reports e

/-- What the components are called with. -/
inductive ComponentCall (Envelope : Type*)
  | onEngineReady
  | onStatusMessage (envelope : Envelope)
  | onMessage (envelope : Envelope)
  deriving DecidableEq

/-- `deliverMessages`, with what `getEnvelope` returned. -/
def componentCall {Envelope : Type*} (classId : Envelope → ClassID) (envelope : Envelope) :
    Option (ComponentCall Envelope) :=
  if classId envelope = EngineReadyMessage.ID then some .onEngineReady
  else if classId envelope = SessionStatusMessage.ID then some (.onStatusMessage envelope)
  else if classId envelope ≠ ExecutorHeartbeat.ID then some (.onMessage envelope)
  else none

/-- The call that `threadProc` makes next. -/
def ThreadProcPc.calling {Envelope : Type*} (classId : Envelope → ClassID) :
    ThreadProcPc Envelope → List (ComponentCall Envelope)
  | callsComponents envelope => (componentCall classId envelope).toList
  | testRun | getEnvelope | dispatch _ | testsState | setsDisconnected | reports _
  | setsConnectionError | returned => []

/-! ## The state -/

/-- The members that messages go through, the threads, and the history of the calls. -/
structure MessageClient (Envelope : Type*) where
  mState : ClientState := .STATE_CONNECTED
  mConnectionError : Bool := false
  mRun : Bool := true
  mSendAsync : Bool
  /-- that of the session before, until `createSession` sets it -/
  mIsLocal : Bool
  mEngineReady : Bool := false
  mOutgoingQueue : ThreadsafeQueue Envelope := .newQueue
  /-- the session is made by `createLocal` -/
  localSession : Bool
  create : CreatePc := .sendsReady
  sendProc : SendProcPc Envelope
  threadProc : ThreadProcPc Envelope := .testRun
  disconnect : DisconnectPc := .notCalled
  termination : TerminationPc := .running
  /-- an exception left `threadProc`, which ends the program -/
  terminated : Bool := false
  /-- a caller of `sendSync` is in `putEnvelope` -/
  sending : Option Envelope := none
  /-- those that `send` took -/
  sent : List Envelope := []
  /-- the calls of `putEnvelope`, and how they ended -/
  calls : List (Envelope × Except Exception Unit) := []
  /-- passed to the exception callbacks by `sendProc` -/
  sendErrors : List Exception := []
  /-- returned by `getEnvelope` -/
  got : List Envelope := []
  /-- the calls of the components by `threadProc` -/
  told : List (ComponentCall Envelope) := []
  /-- passed to the exception callbacks by `threadProc` -/
  connectionErrors : List Exception := []
  /-- the status messages that `localTermination` gave the components -/
  statuses : List Object := []

namespace MessageClient

variable {Envelope : Type*}

/-- The envelope that a call of `putEnvelope` is in with. -/
def putting (s : MessageClient Envelope) : Option Envelope :=
  if s.mSendAsync then s.sendProc.pending.head? else s.sending

/-- Throws, without effect, unless the client is connected. -/
def send (s : MessageClient Envelope) (envelope : Envelope) : MessageClient Envelope :=
  if s.mState ≠ .STATE_CONNECTED then s
  else if s.mSendAsync then
    match s.mOutgoingQueue.push envelope with
    | none => s
    | some queue => { s with mOutgoingQueue := queue, sent := s.sent ++ [envelope] }
  else { s with sending := some envelope, sent := s.sent ++ [envelope] }

/-- `mOutgoingQueue->pop(envelope)`. -/
def pop (s : MessageClient Envelope) : MessageClient Envelope :=
  match s.mOutgoingQueue.pop with
  | .shutdownException => { s with sendProc := .testRun }
  | .empty => { s with sendProc := .popWait }
  | .item envelope queue => { s with mOutgoingQueue := queue, sendProc := .inPut envelope }

/-- What `sendProc` passes to the exception callbacks of a call of `putEnvelope`. -/
def callError (call : Envelope × Except Exception Unit) : Option Exception :=
  match call.2 with
  | .ok _ => none
  | .error e => sendError e

/-- The call of `putEnvelope` has ended. -/
def putEnds (s : MessageClient Envelope) (call : Envelope × Except Exception Unit) :
    MessageClient Envelope :=
  if s.mSendAsync then
    { s with calls := s.calls ++ [call], sendProc := .afterPut (callError call) }
  else { s with calls := s.calls ++ [call], sending := none }

/-- `deliverMessages` has the message. -/
def dispatch (classId : Envelope → ClassID) (s : MessageClient Envelope) (envelope : Envelope) :
    MessageClient Envelope :=
  { s with
    mEngineReady := s.mEngineReady || decide (classId envelope = EngineReadyMessage.ID)
    threadProc := .callsComponents envelope }

def callComponents (classId : Envelope → ClassID) (s : MessageClient Envelope)
    (envelope : Envelope) : MessageClient Envelope :=
  { s with
    told := s.told ++ (componentCall classId envelope).toList
    threadProc := .testRun }

/-- The catch clauses of `threadProc`.  `recv` does not fail with `EPIPE`, so that no
    other `PeerException` has the code `CONNECTION_CLOSED`. -/
def catchException (s : MessageClient Envelope) (e : Exception) : MessageClient Envelope :=
  match e with
  | .shutdownException => { s with threadProc := .testRun }
  | .peerDisconnectException => { s with threadProc := .testsState }
  | .peerException _ => { s with threadProc := .reports e }
  | _ => { s with threadProc := .returned, terminated := true }

/-! ## The steps -/

inductive Event (Envelope : Type*)
  -- the callers of `send`, and `putEnvelope` in whatever thread called it
  | send (envelope : Envelope)
  | putEnvelopeReturns
  | putEnvelopeThrows (e : Exception)
  -- `createSession`; the messages it sends are among the calls of `send`
  | createSends
  | createThrows
  | createSetsConnected
  | createSetsIsLocal
  | createSetsEngineReady
  -- `sendProc`
  | sendProcTests
  | sendProcPops
  | sendProcReports
  -- `threadProc`
  | threadProcTests
  | getEnvelopeReturns (envelope : Envelope)
  | getEnvelopeThrows (e : Exception)
  | dispatches
  | callsComponents
  | componentThrows (e : Exception)
  | testsState
  | setsDisconnected
  | reports
  | setsConnectionError
  -- `localTermination`
  | terminates (data : Object)
  | notifiesComponents
  | terminationTestsState
  | terminationSetsDisconnected
  -- `sendShutdownMessage`, when the request is made, and `disconnect`
  | setsDisconnecting
  | disconnects
  | stopsRun
  | shutsQueue
  | shutsEndpoint

variable (classId : Envelope → ClassID)

def act (s : MessageClient Envelope) : Event Envelope → Option (MessageClient Envelope)
  | .send envelope =>
    -- after a connection error the call first disconnects, and throws
    if s.mConnectionError = false ∧ s.sending.isNone then some (s.send envelope) else none
  | .putEnvelopeReturns => s.putting.map fun envelope => s.putEnds (envelope, .ok ())
  | .putEnvelopeThrows e => s.putting.map fun envelope => s.putEnds (envelope, .error e)
  | .createSends =>
    match s.create with
    | .sendsReady =>
      some { s with create := if s.localSession then .setsIsLocal else .setsConnected }
    | .sendsGo => some { s with create := .setsEngineReady }
    | _ => none
  | .createThrows =>
    onlyIf (s.create = .sendsReady ∨ s.create = .sendsGo) { s with create := .threw }
  | .createSetsConnected =>
    onlyIf (s.create = .setsConnected)
      { s with mState := .STATE_CONNECTED, create := .setsIsLocal }
  | .createSetsIsLocal =>
    onlyIf (s.create = .setsIsLocal)
      { s with
        mIsLocal := s.localSession
        create := if s.localSession then .sendsGo else .createdDistributed }
  | .createSetsEngineReady =>
    onlyIf (s.create = .setsEngineReady) { s with mEngineReady := true, create := .createdLocal }
  | .sendProcTests =>
    match s.sendProc with
    | .testRun => some { s with sendProc := if s.mRun then .pop else .returned }
    | _ => none
  | .sendProcPops =>
    match s.sendProc with
    | .pop | .popWait => some s.pop
    | _ => none
  | .sendProcReports =>
    match s.sendProc with
    | .reports e => some { s with sendErrors := s.sendErrors ++ [e], sendProc := .testRun }
    | _ => none
  | .threadProcTests =>
    match s.threadProc with
    | .testRun => some { s with threadProc := if s.mRun then .getEnvelope else .returned }
    | _ => none
  | .getEnvelopeReturns envelope =>
    match s.threadProc with
    | .getEnvelope => some { s with threadProc := .dispatch envelope, got := s.got ++ [envelope] }
    | _ => none
  | .getEnvelopeThrows e =>
    match s.threadProc with
    | .getEnvelope => some (s.catchException e)
    | _ => none
  | .dispatches =>
    match s.threadProc with
    | .dispatch envelope => some (s.dispatch classId envelope)
    | _ => none
  | .callsComponents =>
    match s.threadProc with
    | .callsComponents envelope => some (s.callComponents classId envelope)
    | _ => none
  | .componentThrows e =>
    match s.threadProc with
    | .callsComponents envelope => some ((s.callComponents classId envelope).catchException e)
    | _ => none
  | .testsState =>
    match s.threadProc with
    | .testsState =>
      if s.mState = .STATE_DISCONNECTING then some { s with threadProc := .setsDisconnected }
      else some { s with threadProc := .reports .peerDisconnectException }
    | _ => none
  | .setsDisconnected =>
    match s.threadProc with
    | .setsDisconnected =>
      -- a local session waits until the computation has terminated
      some { s with
        mState := if s.mIsLocal then s.mState else .STATE_DISCONNECTED
        threadProc := .returned }
    | _ => none
  | .reports =>
    match s.threadProc with
    | .reports e =>
      some { s with
        connectionErrors := s.connectionErrors ++ [e]
        threadProc := .setsConnectionError }
    | _ => none
  | .setsConnectionError =>
    match s.threadProc with
    | .setsConnectionError => some { s with mConnectionError := true, threadProc := .returned }
    | _ => none
  | .terminates data =>
    match s.termination with
    -- a process may give notice of its end twice
    | .running | .finished =>
      onlyIf (s.localSession = true) { s with termination := .called data }
    | _ => none
  | .notifiesComponents =>
    match s.termination with
    | .called data => some { s with statuses := s.statuses ++ [data], termination := .notified }
    | _ => none
  | .terminationTestsState =>
    match s.termination with
    | .notified =>
      if s.mState = .STATE_DISCONNECTING then some { s with termination := .expected }
      else some { s with termination := .finished }
    | _ => none
  | .terminationSetsDisconnected =>
    match s.termination with
    | .expected => some { s with mState := .STATE_DISCONNECTED, termination := .finished }
    | _ => none
  | .setsDisconnecting => some { s with mState := .STATE_DISCONNECTING }
  | .disconnects =>
    onlyIf (s.disconnect = .notCalled)
      { s with mState := .STATE_DISCONNECTING, disconnect := .stopsRun }
  | .stopsRun =>
    onlyIf (s.disconnect = .stopsRun) { s with mRun := false, disconnect := .shutsQueue }
  | .shutsQueue =>
    onlyIf (s.disconnect = .shutsQueue)
      { s with
        mOutgoingQueue := if s.mSendAsync then s.mOutgoingQueue.shutdown else s.mOutgoingQueue
        disconnect := .shutsEndpoint }
  | .shutsEndpoint =>
    onlyIf (s.disconnect = .shutsEndpoint) { s with disconnect := .tearsDown }

def step (s : MessageClient Envelope) (e : Event Envelope) : Option (MessageClient Envelope) :=
  if s.terminated then none else s.act classId e

/-- `postConnect`, when it has started the threads. -/
def postConnect (mSendAsync mIsLocal localSession : Bool) : MessageClient Envelope where
  mSendAsync
  mIsLocal
  localSession
  sendProc := if mSendAsync then .testRun else .notCreated

/-- The computation of a local session runs before `postConnect` is called, and may
    have terminated by then. -/
def system : System (MessageClient Envelope) (Event Envelope) where
  init s := (s.localSession = false → s.termination = .running ∧ s.statuses = []) ∧
    s = { postConnect s.mSendAsync s.mIsLocal s.localSession with
            termination := s.termination, statuses := s.statuses }
  step := step classId

variable {classId} {s s' : MessageClient Envelope}

/-! ## The way out -/

/-- The way of a message from `send` to the endpoint. -/
structure Sends (s : MessageClient Envelope) : Prop where
  queued : s.mSendAsync = true → s.sent = s.mOutgoingQueue.pushed ∧
    s.calls.map Prod.fst ++ s.sendProc.pending = s.mOutgoingQueue.popped ∧
    s.sendErrors ++ s.sendProc.unreported = s.calls.filterMap callError
  direct : s.mSendAsync = false → s.calls.map Prod.fst ++ s.sending.toList = s.sent ∧
    s.sendErrors = [] ∧ s.sendProc.unreported = []

theorem Sends.send (h : s.Sends) (envelope : Envelope) (hfree : s.sending = none) :
    (s.send envelope).Sends := by
  unfold MessageClient.send
  split
  · exact h
  · by_cases hasync : s.mSendAsync = true
    · obtain ⟨hsent, hcalls, herrors⟩ := h.queued hasync
      rw [if_pos hasync]
      split
      · exact h
      · next queue hpush =>
        obtain ⟨-, -, hpushed, hpopped⟩ := ThreadsafeQueue.push_eq_some hpush
        refine ⟨fun _ => ⟨?_, ?_, herrors⟩,
          fun hsync => absurd (hasync.symm.trans hsync) (by decide)⟩
        · rw [hpushed, ← hsent]
        · rw [hpopped]
          exact hcalls
    · obtain ⟨hcalls, hquiet⟩ := h.direct (Bool.eq_false_iff.mpr hasync)
      rw [hfree, Option.toList_none, List.append_nil] at hcalls
      rw [if_neg hasync]
      refine ⟨fun hsync => absurd hsync hasync, fun _ => ⟨?_, hquiet⟩⟩
      rw [hcalls]
      rfl

/-- `sendProc` goes on between two calls of `putEnvelope`, with nothing to report. -/
theorem Sends.idle (h : s.Sends) {pc : SendProcPc Envelope} (hpending : s.sendProc.pending = [])
    (hreported : s.sendProc.unreported = []) (hpending' : pc.pending = [])
    (hreported' : pc.unreported = []) : Sends { s with sendProc := pc } := by
  refine ⟨fun hasync => ?_, fun hsync => ?_⟩
  · obtain ⟨hsent, hcalls, herrors⟩ := h.queued hasync
    rw [hpending] at hcalls
    rw [hreported] at herrors
    exact ⟨hsent, by rw [hpending']; exact hcalls, by rw [hreported']; exact herrors⟩
  · obtain ⟨hcalls, herrors, -⟩ := h.direct hsync
    exact ⟨hcalls, herrors, hreported'⟩

theorem Sends.pop (h : s.Sends) (hpending : s.sendProc.pending = [])
    (hreported : s.sendProc.unreported = []) : s.pop.Sends := by
  unfold MessageClient.pop
  split
  · exact h.idle hpending hreported rfl rfl
  · exact h.idle hpending hreported rfl rfl
  · next envelope queue hitem =>
    obtain ⟨hpushed, hpopped, -⟩ := ThreadsafeQueue.pop_eq_item hitem
    refine ⟨fun hasync => ?_, fun hsync => ?_⟩
    · obtain ⟨hsent, hcalls, herrors⟩ := h.queued hasync
      rw [hpending, List.append_nil] at hcalls
      rw [hreported] at herrors
      exact ⟨hsent.trans hpushed.symm, by rw [hpopped, ← hcalls]; rfl, herrors⟩
    · obtain ⟨hcalls, herrors, -⟩ := h.direct hsync
      exact ⟨hcalls, herrors, rfl⟩

theorem afterPut_pending (error : Option Exception) :
    (SendProcPc.afterPut error : SendProcPc Envelope).pending = [] ∧
      (SendProcPc.afterPut error : SendProcPc Envelope).unreported = error.toList := by
  cases error <;> exact ⟨rfl, rfl⟩

theorem Sends.putEnds (h : s.Sends) {envelope : Envelope} (hputting : s.putting = some envelope)
    (result : Except Exception Unit) : (s.putEnds (envelope, result)).Sends := by
  have hcalls : (s.calls ++ [(envelope, result)]).map Prod.fst
      = s.calls.map Prod.fst ++ [envelope] := List.map_append
  unfold putting at hputting
  unfold MessageClient.putEnds
  by_cases hasync : s.mSendAsync = true
  · obtain ⟨hsent, hpopped, herrors⟩ := h.queued hasync
    rw [if_pos hasync] at hputting
    -- the only program point with a message pending is the call itself
    have hpc : s.sendProc = .inPut envelope := by
      cases hpc : s.sendProc with
      | inPut e =>
        rw [hpc] at hputting
        rw [Option.some.inj hputting]
      | notCreated | testRun | pop | popWait | reports | returned =>
        rw [hpc] at hputting
        cases hputting
    rw [hpc, SendProcPc.pending, ← hcalls] at hpopped
    rw [hpc, SendProcPc.unreported, List.append_nil] at herrors
    obtain ⟨hpending, hunreported⟩ := @afterPut_pending Envelope (callError (envelope, result))
    rw [if_pos hasync]
    refine ⟨fun _ => ⟨hsent, ?_, ?_⟩, fun hsync =>
      absurd (hasync.symm.trans hsync) (by decide)⟩
    · rw [hpending]
      exact (List.append_nil _).trans hpopped
    · rw [hunreported, List.filterMap_append, herrors]
      rfl
  · -- the caller of `send` makes the call itself
    obtain ⟨hsent, hquiet⟩ := h.direct (Bool.eq_false_iff.mpr hasync)
    rw [if_neg hasync] at hputting
    rw [hputting, Option.toList_some, ← hcalls] at hsent
    rw [if_neg hasync]
    exact ⟨fun hsync => absurd hsync hasync,
      fun _ => ⟨(List.append_nil _).trans hsent, hquiet⟩⟩

theorem Sends.report (h : s.Sends) {e : Exception} (hpc : s.sendProc = .reports e) :
    Sends { s with sendErrors := s.sendErrors ++ [e], sendProc := .testRun } := by
  refine ⟨fun hasync => ?_, fun hsync => ?_⟩
  · obtain ⟨hsent, hcalls, herrors⟩ := h.queued hasync
    rw [hpc] at hcalls herrors
    exact ⟨hsent, hcalls, (List.append_nil _).trans herrors⟩
  · -- only `sendProc` reports, which a client of this kind does not have
    have hnone := (h.direct hsync).2.2
    rw [hpc] at hnone
    cases hnone

/-! ## The way in -/

/-- The way of a message from the endpoint to the components. -/
structure Delivers (classId : Envelope → ClassID) (s : MessageClient Envelope) : Prop where
  told : ∃ done, s.got = done ++ s.threadProc.pending ∧
    s.told = done.filterMap (componentCall classId)
  ready : s.mEngineReady = true ↔
    .onEngineReady ∈ s.told ++ s.threadProc.calling classId ∨ s.create = .createdLocal
  lost : s.connectionErrors.length
    = if s.mConnectionError || s.threadProc.hasReported then 1 else 0
  ended : s.mConnectionError = true → s.threadProc = .returned

/-- The endpoint is called by a thread that has not reported an error. -/
theorem Delivers.open (h : s.Delivers classId) (hpc : s.threadProc ≠ .returned) :
    s.mConnectionError = false := by
  by_contra herror
  exact hpc (h.ended (Bool.of_not_eq_false herror))

/-- `threadProc` goes on, with the same messages. -/
theorem Delivers.goesOn (h : s.Delivers classId) (hpc : s.threadProc ≠ .returned)
    {pc : ThreadProcPc Envelope} (hpending : pc.pending = s.threadProc.pending)
    (hcalling : pc.calling classId = s.threadProc.calling classId)
    (hreported : pc.hasReported = s.threadProc.hasReported) :
    Delivers classId { s with threadProc := pc } where
  told := by rw [hpending]; exact h.told
  ready := by rw [hcalling]; exact h.ready
  lost := by rw [hreported]; exact h.lost
  ended herror := absurd ((h.open hpc).symm.trans herror) (by decide)

theorem mem_componentCall (envelope : Envelope) :
    .onEngineReady ∈ (componentCall classId envelope).toList ↔
      classId envelope = Message.EngineReadyMessage.ID := by
  unfold componentCall
  split
  · next hready => exact ⟨fun _ => hready, fun _ => List.mem_singleton_self _⟩
  · next hready =>
    refine ⟨fun hmem => ?_, fun heq => absurd heq hready⟩
    split at hmem
    · cases List.mem_singleton.mp hmem
    · split at hmem <;> simp at hmem

theorem Delivers.get (h : s.Delivers classId) (hpc : s.threadProc = .getEnvelope)
    (envelope : Envelope) :
    Delivers classId { s with threadProc := .dispatch envelope, got := s.got ++ [envelope] } := by
  have hopen : s.mConnectionError = false := h.open (by rw [hpc]; intro hreturned; cases hreturned)
  obtain ⟨done, hgot, htold⟩ := h.told
  have hready := h.ready
  have hlost := h.lost
  rw [hpc] at hgot hready hlost
  rw [ThreadProcPc.pending, List.append_nil] at hgot
  refine ⟨⟨done, ?_, htold⟩, hready, hlost,
    fun herror => absurd (hopen.symm.trans herror) (by decide)⟩
  rw [hgot]
  rfl

theorem Delivers.dispatch (h : s.Delivers classId) {envelope : Envelope}
    (hpc : s.threadProc = .dispatch envelope) : (s.dispatch classId envelope).Delivers classId := by
  have hopen : s.mConnectionError = false := h.open (by rw [hpc]; intro hreturned; cases hreturned)
  have htold := h.told
  have hready := h.ready
  have hlost := h.lost
  rw [hpc] at htold hready hlost
  rw [ThreadProcPc.calling, List.append_nil] at hready
  refine ⟨htold, ?_, hlost, fun herror => absurd (hopen.symm.trans herror) (by decide)⟩
  show (s.mEngineReady || _) = true ↔ _ ∈ s.told ++ (componentCall classId envelope).toList ∨ _
  rw [Bool.or_eq_true, hready, decide_eq_true_eq, List.mem_append, mem_componentCall,
    or_right_comm]
  exact Iff.rfl

/-- The components have been told. -/
theorem Delivers.callComponents (h : s.Delivers classId) {envelope : Envelope}
    (hpc : s.threadProc = .callsComponents envelope) :
    (s.callComponents classId envelope).Delivers classId := by
  have hopen : s.mConnectionError = false := h.open (by rw [hpc]; intro hreturned; cases hreturned)
  have hone : [envelope].filterMap (componentCall classId)
      = (componentCall classId envelope).toList := by
    rw [List.filterMap_cons, List.filterMap_nil]
    cases componentCall classId envelope <;> rfl
  obtain ⟨done, hgot, htold⟩ := h.told
  have hready := h.ready
  have hlost := h.lost
  rw [hpc] at hgot hready hlost
  refine ⟨⟨done ++ [envelope], ?_, ?_⟩, ?_, hlost,
    fun herror => absurd (hopen.symm.trans herror) (by decide)⟩
  · exact hgot.trans (List.append_nil _).symm
  · rw [List.filterMap_append, hone, ← htold]
    rfl
  · show _ ↔ _ ∈ (s.told ++ (componentCall classId envelope).toList) ++ [] ∨ _
    rw [List.append_nil]
    exact hready

/-- `threadProc` leaves the call it is in, and has nothing left to tell. -/
theorem Delivers.catchException (h : s.Delivers classId) (hpc : s.threadProc ≠ .returned)
    (hpending : s.threadProc.pending = []) (hcalling : s.threadProc.calling classId = [])
    (hreported : s.threadProc.hasReported = false) (e : Exception) :
    (s.catchException e).Delivers classId := by
  have hmoves : ∀ pc : ThreadProcPc Envelope, pc.pending = [] → pc.calling classId = [] →
      pc.hasReported = false → Delivers classId { s with threadProc := pc } :=
    fun pc hpending' hcalling' hreported' => h.goesOn hpc (hpending'.trans hpending.symm)
      (hcalling'.trans hcalling.symm) (hreported'.trans hreported.symm)
  unfold MessageClient.catchException
  split
  · exact hmoves .testRun rfl rfl rfl
  · exact hmoves .testsState rfl rfl rfl
  · exact hmoves (.reports _) rfl rfl rfl
  · exact { hmoves .returned rfl rfl rfl with }

theorem Delivers.report (h : s.Delivers classId) {e : Exception}
    (hpc : s.threadProc = .reports e) :
    Delivers classId { s with
      connectionErrors := s.connectionErrors ++ [e]
      threadProc := .setsConnectionError } := by
  have hopen : s.mConnectionError = false := h.open (by rw [hpc]; intro hreturned; cases hreturned)
  have htold := h.told
  have hready := h.ready
  have hlost := h.lost
  rw [hpc] at htold hready hlost
  rw [hopen] at hlost
  refine ⟨htold, hready, ?_, fun herror => absurd (hopen.symm.trans herror) (by decide)⟩
  show (s.connectionErrors ++ [e]).length = if s.mConnectionError || true then 1 else 0
  rw [List.length_append, hlost, Bool.or_true]
  rfl

theorem Delivers.setConnectionError (h : s.Delivers classId)
    (hpc : s.threadProc = .setsConnectionError) :
    Delivers classId { s with mConnectionError := true, threadProc := .returned } := by
  have htold := h.told
  have hready := h.ready
  have hlost := h.lost
  rw [hpc] at htold hready hlost
  rw [ThreadProcPc.hasReported, Bool.or_true] at hlost
  exact ⟨htold, hready, hlost, fun _ => rfl⟩

/-- `createSession` goes on, and has not yet counted the engine as ready. -/
theorem Delivers.creating (h : s.Delivers classId) {pc : CreatePc}
    (hcreate : s.create ≠ .createdLocal) (hcreate' : pc ≠ .createdLocal) :
    Delivers classId { s with create := pc } :=
  { h with
    ready := h.ready.trans (or_congr_right
      ⟨fun hlocal => absurd hlocal hcreate, fun hlocal => absurd hlocal hcreate'⟩) }

/-! ## Local sessions -/

/-- What only a local session does. -/
structure OfLocal (s : MessageClient Envelope) : Prop where
  create : s.create.isLocal = true → s.localSession = true
  termination : s.localSession = false → s.termination = .running ∧ s.statuses = []

theorem OfLocal.isLocal (h : s.OfLocal) (htermination : s.termination ≠ .running) :
    s.localSession = true := by
  by_contra hlocal
  exact htermination (h.termination (Bool.eq_false_iff.mpr hlocal)).1

/-! ## Every run -/

theorem send_kept (s : MessageClient Envelope) (envelope : Envelope) :
    ∃ mOutgoingQueue sending sent,
      s.send envelope = { s with mOutgoingQueue, sending, sent } := by
  unfold MessageClient.send
  split
  · exact ⟨_, _, _, rfl⟩
  · split
    · split <;> exact ⟨_, _, _, rfl⟩
    · exact ⟨_, _, _, rfl⟩

theorem putEnds_kept (s : MessageClient Envelope) (call : Envelope × Except Exception Unit) :
    ∃ calls sendProc sending, s.putEnds call = { s with calls, sendProc, sending } := by
  unfold MessageClient.putEnds
  split <;> exact ⟨_, _, _, rfl⟩

theorem pop_kept (s : MessageClient Envelope) :
    ∃ mOutgoingQueue sendProc, s.pop = { s with mOutgoingQueue, sendProc } := by
  unfold MessageClient.pop
  split <;> exact ⟨_, _, rfl⟩

theorem catchException_kept (s : MessageClient Envelope) (e : Exception) :
    ∃ threadProc terminated, s.catchException e = { s with threadProc, terminated } := by
  unfold MessageClient.catchException
  split <;> exact ⟨_, _, rfl⟩

structure Invariant (classId : Envelope → ClassID) (s : MessageClient Envelope) : Prop where
  sends : s.Sends
  delivers : s.Delivers classId
  ofLocal : s.OfLocal

theorem Invariant.send (h : s.Invariant classId) (envelope : Envelope)
    (hfree : s.sending = none) : (s.send envelope).Invariant classId := by
  have hsends := h.sends.send envelope hfree
  obtain ⟨mOutgoingQueue, sending, sent, hkept⟩ := s.send_kept envelope
  rw [hkept] at hsends ⊢
  exact ⟨hsends, { h.delivers with }, { h.ofLocal with }⟩

theorem Invariant.putEnds (h : s.Invariant classId) {envelope : Envelope}
    (hputting : s.putting = some envelope) (result : Except Exception Unit) :
    (s.putEnds (envelope, result)).Invariant classId := by
  have hsends := h.sends.putEnds hputting result
  obtain ⟨calls, sendProc, sending, hkept⟩ := s.putEnds_kept (envelope, result)
  rw [hkept] at hsends ⊢
  exact ⟨hsends, { h.delivers with }, { h.ofLocal with }⟩

theorem Invariant.pop (h : s.Invariant classId) (hpending : s.sendProc.pending = [])
    (hreported : s.sendProc.unreported = []) : s.pop.Invariant classId := by
  have hsends := h.sends.pop hpending hreported
  obtain ⟨mOutgoingQueue, sendProc, hkept⟩ := s.pop_kept
  rw [hkept] at hsends ⊢
  exact ⟨hsends, { h.delivers with }, { h.ofLocal with }⟩

theorem Invariant.callComponents (h : s.Invariant classId) {envelope : Envelope}
    (hpc : s.threadProc = .callsComponents envelope) :
    (s.callComponents classId envelope).Invariant classId :=
  ⟨{ h.sends with }, h.delivers.callComponents hpc, { h.ofLocal with }⟩

theorem Invariant.catchException (h : s.Invariant classId) (hpc : s.threadProc ≠ .returned)
    (hpending : s.threadProc.pending = []) (hcalling : s.threadProc.calling classId = [])
    (hreported : s.threadProc.hasReported = false) (e : Exception) :
    (s.catchException e).Invariant classId := by
  have hdelivers := h.delivers.catchException hpc hpending hcalling hreported e
  obtain ⟨threadProc, terminated, hkept⟩ := s.catchException_kept e
  rw [hkept] at hdelivers ⊢
  exact ⟨{ h.sends with }, hdelivers, { h.ofLocal with }⟩

/-- `createSession` goes on. -/
theorem Invariant.creating (h : s.Invariant classId) (pc : CreatePc)
    (hcreate : s.create ≠ .createdLocal) (hcreate' : pc ≠ .createdLocal)
    (hlocal : pc.isLocal = true → s.localSession = true) :
    Invariant classId { s with create := pc } :=
  ⟨{ h.sends with }, h.delivers.creating hcreate hcreate', ⟨hlocal, h.ofLocal.termination⟩⟩

/-- `localTermination` goes on. -/
theorem Invariant.terminating (h : s.Invariant classId) (hlocal : s.localSession = true)
    (termination : TerminationPc) (mState : ClientState) (statuses : List Object) :
    Invariant classId { s with termination, mState, statuses } :=
  ⟨{ h.sends with }, { h.delivers with }, ⟨h.ofLocal.create, fun hdistributed =>
    absurd (hlocal.symm.trans hdistributed) (by decide)⟩⟩

theorem Invariant.act (h : s.Invariant classId) {e : Event Envelope}
    (hs : s.act classId e = some s') : s'.Invariant classId := by
  cases e with
  | send envelope =>
    simp only [MessageClient.act] at hs
    split at hs
    · next hguard =>
      cases hs
      exact h.send envelope (Option.isNone_iff_eq_none.mp hguard.2)
    · cases hs
  -- the call is that of `sendProc`, or that of the caller of `send`
  | putEnvelopeReturns | putEnvelopeThrows =>
    obtain ⟨envelope, hputting, rfl⟩ := Option.map_eq_some_iff.mp hs
    exact h.putEnds hputting _
  -- `createSession` counts the engine as ready in its last step only, and in a local
  -- session only
  | createSends =>
    simp only [MessageClient.act] at hs
    split at hs
    · next hcreate =>
      cases hs
      refine h.creating _ (by rw [hcreate]; decide) (by split <;> decide) fun hlocal => ?_
      split at hlocal <;> cases hlocal
    · next hcreate =>
      cases hs
      exact h.creating _ (by rw [hcreate]; decide) (by decide)
        fun _ => h.ofLocal.create (by rw [hcreate]; rfl)
    · cases hs
  | createThrows =>
    obtain ⟨hcreate, rfl⟩ := of_onlyIf hs
    refine h.creating _ ?_ (by decide) fun hlocal => by cases hlocal
    rcases hcreate with hcreate | hcreate <;> rw [hcreate] <;> decide
  | createSetsConnected =>
    obtain ⟨hcreate, rfl⟩ := of_onlyIf hs
    have h' := h.creating .setsIsLocal (by rw [hcreate]; decide) (by decide)
      fun hlocal => by cases hlocal
    exact ⟨{ h'.sends with }, { h'.delivers with }, { h'.ofLocal with }⟩
  | createSetsIsLocal =>
    obtain ⟨hcreate, rfl⟩ := of_onlyIf hs
    have h' := h.creating (if s.localSession then .sendsGo else .createdDistributed)
      (by rw [hcreate]; decide) (by split <;> decide) fun hlocal => by
        split at hlocal
        · next hsession => exact hsession
        · cases hlocal
    exact ⟨{ h'.sends with }, { h'.delivers with }, { h'.ofLocal with }⟩
  | createSetsEngineReady =>
    obtain ⟨hcreate, rfl⟩ := of_onlyIf hs
    exact ⟨{ h.sends with }, { h.delivers with ready := iff_of_true rfl (.inr rfl) },
      ⟨fun _ => h.ofLocal.create (by rw [hcreate]; rfl), h.ofLocal.termination⟩⟩
  -- between two messages `sendProc` has nothing pending and nothing to report
  | sendProcTests =>
    simp only [MessageClient.act] at hs
    split at hs
    · next hpc =>
      cases hs
      have hsends : Sends { s with sendProc := if s.mRun then .pop else .returned } := by
        refine h.sends.idle (by rw [hpc]; rfl) (by rw [hpc]; rfl) ?_ ?_ <;> split <;> rfl
      exact ⟨hsends, { h.delivers with }, { h.ofLocal with }⟩
    · cases hs
  | sendProcPops =>
    simp only [MessageClient.act] at hs
    split at hs
    · next hpc =>
      cases hs
      exact h.pop (by rw [hpc]; rfl) (by rw [hpc]; rfl)
    · next hpc =>
      cases hs
      exact h.pop (by rw [hpc]; rfl) (by rw [hpc]; rfl)
    · cases hs
  | sendProcReports =>
    simp only [MessageClient.act] at hs
    split at hs
    · next e hpc =>
      cases hs
      exact ⟨h.sends.report hpc, { h.delivers with }, { h.ofLocal with }⟩
    · cases hs
  -- what `threadProc` has got and not passed on is at its program point
  | threadProcTests =>
    simp only [MessageClient.act] at hs
    split at hs
    · next hpc =>
      cases hs
      have hdelivers : Delivers classId
          { s with threadProc := if s.mRun then .getEnvelope else .returned } := by
        refine h.delivers.goesOn (by rw [hpc]; intro hreturned; cases hreturned) ?_ ?_ ?_ <;>
          rw [hpc] <;> split <;> rfl
      exact ⟨{ h.sends with }, hdelivers, { h.ofLocal with }⟩
    · cases hs
  | getEnvelopeReturns envelope =>
    simp only [MessageClient.act] at hs
    split at hs
    · next hpc =>
      cases hs
      exact ⟨{ h.sends with }, h.delivers.get hpc envelope, { h.ofLocal with }⟩
    · cases hs
  | getEnvelopeThrows e =>
    simp only [MessageClient.act] at hs
    split at hs
    · next hpc =>
      cases hs
      exact h.catchException (by rw [hpc]; intro hreturned; cases hreturned)
        (by rw [hpc]; rfl) (by rw [hpc]; rfl) (by rw [hpc]; rfl) e
    · cases hs
  | dispatches =>
    simp only [MessageClient.act] at hs
    split at hs
    · next envelope hpc =>
      cases hs
      exact ⟨{ h.sends with }, h.delivers.dispatch hpc, { h.ofLocal with }⟩
    · cases hs
  | callsComponents =>
    simp only [MessageClient.act] at hs
    split at hs
    · next envelope hpc =>
      cases hs
      exact h.callComponents hpc
    · cases hs
  | componentThrows e =>
    simp only [MessageClient.act] at hs
    split at hs
    · next envelope hpc =>
      cases hs
      exact (h.callComponents hpc).catchException (by intro hreturned; cases hreturned)
        rfl rfl rfl e
    · cases hs
  | testsState =>
    simp only [MessageClient.act] at hs
    split at hs
    · next hpc =>
      have hmoves : ∀ pc : ThreadProcPc Envelope, pc.pending = [] → pc.calling classId = [] →
          pc.hasReported = false → Invariant classId { s with threadProc := pc } := by
        intro pc hpending hcalling hreported
        refine ⟨{ h.sends with }, h.delivers.goesOn ?_ ?_ ?_ ?_, { h.ofLocal with }⟩
        · rw [hpc]
          intro hreturned
          cases hreturned
        · rw [hpc, hpending, ThreadProcPc.pending]
        · rw [hpc, hcalling, ThreadProcPc.calling]
        · rw [hpc, hreported, ThreadProcPc.hasReported]
      split at hs
      · cases hs
        exact hmoves .setsDisconnected rfl rfl rfl
      · cases hs
        exact hmoves (.reports _) rfl rfl rfl
    · cases hs
  | setsDisconnected =>
    simp only [MessageClient.act] at hs
    split at hs
    · next hpc =>
      cases hs
      have hdelivers : Delivers classId { s with threadProc := .returned } :=
        h.delivers.goesOn (by rw [hpc]; intro hreturned; cases hreturned)
          (by rw [hpc]; rfl) (by rw [hpc]; rfl) (by rw [hpc]; rfl)
      exact ⟨{ h.sends with }, { hdelivers with }, { h.ofLocal with }⟩
    · cases hs
  | reports =>
    simp only [MessageClient.act] at hs
    split at hs
    · next e hpc =>
      cases hs
      exact ⟨{ h.sends with }, h.delivers.report hpc, { h.ofLocal with }⟩
    · cases hs
  | setsConnectionError =>
    simp only [MessageClient.act] at hs
    split at hs
    · next hpc =>
      cases hs
      exact ⟨{ h.sends with }, h.delivers.setConnectionError hpc, { h.ofLocal with }⟩
    · cases hs
  -- no message is concerned, and a distributed session does not come here
  | terminates data =>
    simp only [MessageClient.act] at hs
    split at hs
    · obtain ⟨hlocal, rfl⟩ := of_onlyIf hs
      exact h.terminating hlocal _ _ _
    · obtain ⟨hlocal, rfl⟩ := of_onlyIf hs
      exact h.terminating hlocal _ _ _
    · cases hs
  | notifiesComponents | terminationSetsDisconnected =>
    simp only [MessageClient.act] at hs
    split at hs
    · next htermination =>
      cases hs
      refine h.terminating (h.ofLocal.isLocal ?_) _ _ _
      rw [htermination]
      intro hrunning
      cases hrunning
    · cases hs
  | terminationTestsState =>
    simp only [MessageClient.act] at hs
    split at hs
    · next htermination =>
      have hlocal := h.ofLocal.isLocal (by rw [htermination]; intro hrunning; cases hrunning)
      split at hs
      · cases hs
        exact h.terminating hlocal _ _ _
      · cases hs
        exact h.terminating hlocal _ _ _
    · cases hs
  | setsDisconnecting =>
    cases hs
    exact ⟨{ h.sends with }, { h.delivers with }, { h.ofLocal with }⟩
  | shutsQueue =>
    obtain ⟨-, rfl⟩ := of_onlyIf hs
    -- the queue keeps what was pushed and what was popped
    refine ⟨⟨fun hasync => ?_, h.sends.direct⟩, { h.delivers with }, { h.ofLocal with }⟩
    obtain ⟨hsent, hcalls, herrors⟩ := h.sends.queued hasync
    have hkept : (if s.mSendAsync then s.mOutgoingQueue.shutdown else s.mOutgoingQueue)
        = s.mOutgoingQueue.shutdown := if_pos hasync
    simp only [hkept, ThreadsafeQueue.shutdown_pushed, ThreadsafeQueue.shutdown_popped]
    exact ⟨hsent, hcalls, herrors⟩
  | disconnects | stopsRun | shutsEndpoint =>
    obtain ⟨-, rfl⟩ := of_onlyIf hs
    exact ⟨{ h.sends with }, { h.delivers with }, { h.ofLocal with }⟩

theorem invariant_of_reachable (h : (system classId).Reachable s) : s.Invariant classId := by
  refine h.invariant (fun s hs => ?_) fun s e s' hi _ hs => ?_
  · obtain ⟨htermination, hs⟩ := hs
    have hidle : s.sendProc.pending = [] ∧ s.sendProc.unreported = [] := by
      rw [hs]
      dsimp only [postConnect]
      split <;> exact ⟨rfl, rfl⟩
    have hthread : s.threadProc = .testRun := by rw [hs]; rfl
    have hcreate : s.create = .sendsReady := by rw [hs]; rfl
    refine ⟨⟨fun _ => ⟨?_, ?_, ?_⟩, fun _ => ⟨?_, ?_, hidle.2⟩⟩, ⟨⟨[], ?_, ?_⟩, ?_, ?_, ?_⟩,
      ⟨fun hlocal => ?_, htermination⟩⟩
    · rw [hs]; rfl
    · rw [hidle.1, hs]; rfl
    · rw [hidle.2, hs]; rfl
    · rw [hs]; rfl
    · rw [hs]; rfl
    · rw [hthread, hs]; rfl
    · rw [hs]; rfl
    · rw [hthread, hcreate, hs]
      simp [postConnect, ThreadProcPc.calling]
    · rw [hthread, hs]; rfl
    · rw [hs]
      intro herror
      cases herror
    · rw [hcreate] at hlocal
      cases hlocal
  · have hact : s.act classId e = some s' := by
      simp only [system, step] at hs
      split at hs
      · cases hs
      · exact hs
    exact hi.act hact

/-- The calls of `putEnvelope`, those that have ended and the one that has not. -/
theorem Sends.calls_prefix (h : s.Sends) :
    s.calls.map Prod.fst ++ s.putting.toList <+: s.sent := by
  unfold putting
  by_cases hasync : s.mSendAsync = true
  · obtain ⟨hsent, hcalls, -⟩ := h.queued hasync
    have hone : s.sendProc.pending.head?.toList = s.sendProc.pending := by
      cases s.sendProc <;> rfl
    rw [if_pos hasync, hone, hcalls, hsent]
    exact s.mOutgoingQueue.popped_prefix_pushed
  · obtain ⟨hcalls, -⟩ := h.direct (Bool.eq_false_iff.mpr hasync)
    rw [if_neg hasync]
    exact ⟨[], by rw [hcalls, List.append_nil]⟩

/-- **A client passes on what it is given.**  In every run the calls of `putEnvelope`
    are for a first part of what `send` took, in order; `sendProc` reports whatever
    they threw, the shutdown and the disconnect apart, each before it goes on; the
    components have been told by `threadProc` of a first part of the messages got, each
    by its class; the client counts as ready from when they are about to be told so, or
    when `createLocal` says so; a loss of the connection is reported once, just before
    `mConnectionError` gets set, and never again; and only in a local session do the
    components get a status that was not received, or does `createLocal` have a say. -/
theorem messages (h : (system classId).Reachable s) :
    s.calls.map Prod.fst ++ s.putting.toList <+: s.sent ∧
    s.sendErrors ++ s.sendProc.unreported
      = (if s.mSendAsync then s.calls.filterMap callError else []) ∧
    s.told <+: s.got.filterMap (componentCall classId) ∧
    (s.mEngineReady = true ↔
      .onEngineReady ∈ s.told ++ s.threadProc.calling classId ∨ s.create = .createdLocal) ∧
    s.connectionErrors.length
      = (if s.mConnectionError || s.threadProc.hasReported then 1 else 0) ∧
    (s.localSession = false → s.create ≠ .createdLocal ∧ s.statuses = []) := by
  have hi := invariant_of_reachable h
  refine ⟨hi.sends.calls_prefix, ?_, ?_, hi.delivers.ready, hi.delivers.lost,
    fun hdistributed => ⟨fun hcreated => ?_, (hi.ofLocal.termination hdistributed).2⟩⟩
  · by_cases hasync : s.mSendAsync = true
    · rw [if_pos hasync]
      exact (hi.sends.queued hasync).2.2
    · obtain ⟨-, herrors, hreported⟩ := hi.sends.direct (Bool.eq_false_iff.mpr hasync)
      rw [if_neg hasync, herrors, hreported]
      rfl
  · obtain ⟨done, hgot, htold⟩ := hi.delivers.told
    rw [hgot, htold, List.filterMap_append]
    exact List.prefix_append _ _
  · have hlocal := hi.ofLocal.create (by rw [hcreated]; rfl)
    exact absurd (hdistributed.symm.trans hlocal) (by decide)

/-- A local session of an asynchronous client: it sends two messages, the second of
    which the endpoint does not take, gets a message, and the computation exits. -/
def sendsTwo : List (Event ClassID) :=
  [.send .null, .createSends, .createSetsIsLocal, .send SessionStatusMessage.ID, .createSends,
    .createSetsEngineReady, .sendProcTests, .sendProcPops, .putEnvelopeReturns,
    .sendProcTests, .sendProcPops, .putEnvelopeThrows .userException, .sendProcReports,
    .threadProcTests, .getEnvelopeReturns EngineReadyMessage.ID, .dispatches, .callsComponents,
    .terminates .null, .notifiesComponents]

theorem messages_sendsTwo : ∃ s : MessageClient ClassID,
    (s.calls = [(.null, .ok ()), (SessionStatusMessage.ID, .error .userException)] ∧
      s.told = [.onEngineReady] ∧ s.statuses = [.null]) ∧
    s.calls.map Prod.fst ++ s.putting.toList <+: s.sent ∧
    s.sendErrors ++ s.sendProc.unreported
      = (if s.mSendAsync then s.calls.filterMap callError else []) ∧
    s.told <+: s.got.filterMap (componentCall id) ∧
    (s.mEngineReady = true ↔
      .onEngineReady ∈ s.told ++ s.threadProc.calling id ∨ s.create = .createdLocal) ∧
    s.connectionErrors.length
      = (if s.mConnectionError || s.threadProc.hasReported then 1 else 0) ∧
    (s.localSession = false → s.create ≠ .createdLocal ∧ s.statuses = []) := by
  have hinit : (system id).init (postConnect true false true) := ⟨fun _ => ⟨rfl, rfl⟩, rfl⟩
  have hrun : ∃ s, (system id).run (postConnect true false true) sendsTwo = some s ∧
      s.calls = [(.null, .ok ()), (SessionStatusMessage.ID, .error .userException)] ∧
      s.told = [.onEngineReady] ∧ s.statuses = [.null] := ⟨_, rfl, rfl, rfl, rfl⟩
  obtain ⟨s, hrun, hends⟩ := hrun
  exact ⟨s, hends, messages ⟨_, hinit, System.run_steps hrun⟩⟩

end MessageClient

end Arras4Core.Client
