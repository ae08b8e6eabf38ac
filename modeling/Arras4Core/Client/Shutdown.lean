/-
  Arras4Core.Client.Shutdown

  A shutdown the client asks for.  `sendShutdownMessage` makes the request and
  only then sets the state to `STATE_DISCONNECTING`; `threadProc`, when the
  connection closes, and `localTermination`, when the computation terminates,
  test the state to tell whether this was expected.  They do so rightly as long as
  the test does not come in between, or before the request, and as long as the close
  is reported as `CONNECTION_CLOSED`: with any other code `threadProc` does not look
  at the state.
-/

import Arras4Core.Client.LocalSession
import Arras4Core.Lib.System

namespace Arras4Core.Client

open Arras4Core.Api (Object)
open Arras4Core.Execute (ExitStatus)
open Arras4Core.Lib

/-- `Client::State`. -/
inductive ClientState
  | STATE_DISCONNECTED
  | STATE_CONNECTING
  | STATE_CONNECTED
  | STATE_DISCONNECTING
  deriving DecidableEq

/-- `network::PeerException::Code`. -/
inductive PeerException.Code
  | IN_USE
  | NO_HOST
  | ADDRESS_NOT_FOUND
  | NAME_SERVER_ERROR
  | CONNECTION_CLOSED
  | CONNECTION_REFUSED
  | CONNECTION_RESET
  | CONNECTION_ABORT
  | NOT_CONNECTED
  | PERMISSION_DENIED
  | UNSUPPORTED_ADDRESS_FAMILY
  | INVALID_OPERATION
  | INVALID_PARAMETER
  | INVALID_PROTOCOL
  | INVALID_DESCRIPTOR
  | FILES
  | INSUFFICIENT_MEMORY
  | INTERRUPTED
  | TIMEOUT
  | NOT_INITIALIZED
  | UNKNOWN
  deriving DecidableEq

/-- Where the caller of `sendShutdownMessage` is. -/
inductive RequestPc
  | notCalled
  | called
  /-- the request is made, the state is set next -/
  | requested
  | returned
  | threw
  deriving DecidableEq

/-- Where `threadProc` is. -/
inductive ReceivePc
  /-- in `deliverMessages` -/
  | delivering
  /-- a `PeerException` with `CONNECTION_CLOSED` was caught, the state is tested
      next -/
  | caught
  | expected
  | unexpected
  /-- the exception callbacks were called, `mConnectionError` is set next -/
  | reported
  | ended
  deriving DecidableEq

/-- Where the termination of the computation of a local session is. -/
inductive TerminationPc
  | running
  /-- `localTermination` was called -/
  | called (data : Object)
  /-- the components have had their status message, the state is tested next -/
  | notified
  /-- the state was `STATE_DISCONNECTING` -/
  | expected
  | finished

/-- How far the thread that reacts to the shutdown has come. -/
inductive Reaction
  | before
  | expected
  | unexpected
  | ended

def ReceivePc.reaction : ReceivePc → Reaction
  | .delivering | .caught => .before
  | .expected => .expected
  | .unexpected | .reported => .unexpected
  | .ended => .ended

def TerminationPc.reaction : TerminationPc → Reaction
  | .running | .called _ | .notified => .before
  | .expected => .expected
  | .finished => .ended

/-- The members of a `Client` that a shutdown reads or writes, and what has been
    done with them. -/
structure ShutdownClient where
  mIsLocal : Bool
  mSendAsync : Bool
  mState : ClientState := .STATE_CONNECTED
  mConnectionError : Bool := false
  /-- the number of callbacks in `mExceptionCallbacks` -/
  mExceptionCallbacks : Nat := 0
  /-- the session in `localSessions()` -/
  session : LocalSession
  /-- the "disconnect" message is in `mOutgoingQueue` -/
  queued : Bool := false
  /-- the "disconnect" message was sent -/
  sent : Bool := false
  /-- the remote end has closed the connection -/
  closed : Bool := false
  request : RequestPc := .notCalled
  receive : ReceivePc := .delivering
  termination : TerminationPc := .running
  -- what others are told
  /-- the calls of exception callbacks -/
  exceptions : Nat := 0
  /-- the calls of `registerDisconnect` that reach the Coordinator -/
  registered : List Bool := []
  /-- the status messages the components were given -/
  statuses : List Object := []

namespace ShutdownClient

inductive Event
  -- the caller of `sendShutdownMessage`
  | calls
  | requests
  | requestThrows
  | setsDisconnecting
  -- `sendProc`
  | sendProcSends
  -- the remote end
  | closes
  -- `threadProc`
  | catches (code : PeerException.Code)
  | testsState
  | setsDisconnected
  | callsCallbacks
  | setsConnectionError
  -- the computation, and `localTermination`
  | exits (status : ExitStatus)
  | notifiesComponents
  | terminationTestsState
  | terminationSetsDisconnected

/-- `Impl::shutdownSession`: only a client that is connected is shut down. -/
def isConnected (s : ShutdownClient) : Bool := s.mState = .STATE_CONNECTED

/-- The first half of `shutdownDistributed`, `send` of the "disconnect" message. -/
def shutdownDistributed (s : ShutdownClient) : Option ShutdownClient :=
  onlyIf (s.mConnectionError = false ∧ s.mState = .STATE_CONNECTED)
    (if s.mSendAsync then { s with queued := true, request := .requested }
    else { s with sent := true, request := .requested })

/-- The first half of `shutdownLocal`, `stopSession`. -/
def shutdownLocal (s : ShutdownClient) : ShutdownClient :=
  { s with session := s.session.stop, request := .requested }

/-- `disconnect`, which `send` calls after a connection error; it joins the receive
    thread. -/
def disconnect (s : ShutdownClient) : ShutdownClient :=
  { s with mState := .STATE_DISCONNECTED, mConnectionError := false }

def registerDisconnect (s : ShutdownClient) (expected : Bool) : ShutdownClient :=
  { s with registered := if s.mIsLocal then s.registered else s.registered ++ [expected] }

/-- The handler of a `PeerException` in `threadProc`: the state counts only if the
    connection was closed. -/
def catchException (s : ShutdownClient) (code : PeerException.Code) : ShutdownClient :=
  if code = .CONNECTION_CLOSED then { s with receive := .caught }
  else { s.registerDisconnect false with receive := .unexpected }

/-- The test in `threadProc`. -/
def testState (s : ShutdownClient) : ShutdownClient :=
  { s.registerDisconnect (s.mState = .STATE_DISCONNECTING) with
    receive := if s.mState = .STATE_DISCONNECTING then .expected else .unexpected }

/-- The end of the expected case: in local mode `localTermination` is waited for. -/
def endExpected (s : ShutdownClient) : ShutdownClient :=
  { s with
    mState := if s.mIsLocal then s.mState else .STATE_DISCONNECTED
    receive := .ended }

/-- The exit monitor's call of `onTerminate`. -/
def onTerminate (s : ShutdownClient) (status : ExitStatus) : ShutdownClient :=
  { s with
    termination :=
      match s.session.onTerminate s.session.mAddress.computation s.session.mAddress.session
        status with
      | none => .finished
      | some (_, data) => .called data }

def act (s : ShutdownClient) : Event → Option ShutdownClient
  | .calls => onlyIf (s.request = .notCalled ∧ s.isConnected = true) { s with request := .called }
  | .requests =>
    if s.request = .called then
      if s.mIsLocal then some s.shutdownLocal else s.shutdownDistributed
    else none
  | .requestThrows =>
    if s.request = .called then
      -- `send` after a connection error disconnects, which joins the receive thread, and throws
      if s.mIsLocal = false ∧ s.mConnectionError = true then
        onlyIf (s.receive = .ended) { s.disconnect with request := .threw }
      else some { s with request := .threw }
    else none
  | .setsDisconnecting =>
    onlyIf (s.request = .requested)
      { s with mState := .STATE_DISCONNECTING, request := .returned }
  | .sendProcSends => onlyIf (s.queued = true) { s with queued := false, sent := true }
  | .closes => some { s with closed := true }
  | .catches code =>
    onlyIf (s.receive = .delivering ∧ (code = .CONNECTION_CLOSED → s.closed = true))
      (s.catchException code)
  | .testsState => onlyIf (s.receive = .caught) s.testState
  | .setsDisconnected => onlyIf (s.receive = .expected) s.endExpected
  | .callsCallbacks =>
    onlyIf (s.receive = .unexpected)
      { s with exceptions := s.exceptions + s.mExceptionCallbacks, receive := .reported }
  | .setsConnectionError =>
    onlyIf (s.receive = .reported) { s with mConnectionError := true, receive := .ended }
  | .exits status =>
    match s.termination with
    | .running => onlyIf (s.mIsLocal = true) (s.onTerminate status)
    | _ => none
  | .notifiesComponents =>
    match s.termination with
    | .called data => some { s with statuses := s.statuses ++ [data], termination := .notified }
    | _ => none
  | .terminationTestsState =>
    match s.termination with
    | .notified =>
      -- in any other state the computation has gone and nothing is set
      if s.mState = .STATE_DISCONNECTING then some { s with termination := .expected }
      else some { s with termination := .finished }
    | _ => none
  | .terminationSetsDisconnected =>
    match s.termination with
    | .expected => some { s with mState := .STATE_DISCONNECTED, termination := .finished }
    | _ => none

/-- A session begins connected, with both threads running; a local session calls the
    client back. -/
def system : System ShutdownClient Event where
  init s := s = { mIsLocal := s.mIsLocal, mSendAsync := s.mSendAsync, session := s.session,
                  mExceptionCallbacks := s.mExceptionCallbacks } ∧
    s.session.mTerminateCallback = true
  step := act

/-! ## An expected disconnect -/

/-- The test of `threadProc` on a closed connection, of `localTermination` in local
    mode, comes after `sendShutdownMessage` has set the state, and what ends a
    distributed session is reported as `CONNECTION_CLOSED`. -/
def EndsInOrder (s : ShutdownClient) : Event → Prop
  | .catches code => s.mIsLocal = false → code = .CONNECTION_CLOSED
  | .testsState => s.mIsLocal = false → s.request = .returned
  | .terminationTestsState => s.request = .returned
  | _ => True

/-! ## The invariant -/

/-- The state is what the request and the reaction to it, together, make it. -/
def InStep (s : ShutdownClient) : Reaction → Prop
  | .before => s.request = .returned → s.mState = .STATE_DISCONNECTING
  | .expected => s.request = .returned ∧ s.mState = .STATE_DISCONNECTING
  | .unexpected => False
  | .ended => s.request = .returned ∧ s.mState = .STATE_DISCONNECTED

/-- In distributed mode the receive thread reacts, in local mode
    `localTermination`. -/
structure Reacts (s : ShutdownClient) : Prop where
  distributed : s.mIsLocal = false →
    s.InStep s.receive.reaction ∧ s.exceptions = 0 ∧ s.mConnectionError = false
  localSession : s.mIsLocal = true → s.InStep s.termination.reaction
  /-- only a local session has a computation that terminates -/
  running : s.mIsLocal = false → s.termination = .running
  callback : s.session.mTerminateCallback = true

variable {s s' : ShutdownClient}

/-- A step that leaves the request and the state alone. -/
theorem InStep.congr {r : Reaction} (h : s.InStep r) (hrequest : s'.request = s.request)
    (hstate : s'.mState = s.mState) : s'.InStep r := by
  have hsame : s'.InStep r = s.InStep r := by
    cases r <;> simp only [InStep, hrequest, hstate]
  exact hsame ▸ h

/-- A request that has not returned has not been reacted to. -/
theorem InStep.before {r : Reaction} (h : s.InStep r) (hrequest : s.request ≠ .returned) :
    r = .before := by
  cases r with
  | before => rfl
  | expected => exact absurd h.1 hrequest
  | unexpected => exact h.elim
  | ended => exact absurd h.1 hrequest

/-- The caller makes a step on its way to setting the state. -/
theorem InStep.requesting {r : Reaction} (h : s.InStep r) (hrequest : s.request ≠ .returned)
    (hrequest' : s'.request ≠ .returned) : s'.InStep r := by
  rw [h.before hrequest]
  exact fun hreturned => absurd hreturned hrequest'

/-- The caller sets the state. -/
theorem InStep.setsDisconnecting {r : Reaction} (h : s.InStep r)
    (hrequest : s.request ≠ .returned) :
    InStep { s with mState := .STATE_DISCONNECTING, request := .returned } r := by
  rw [h.before hrequest]
  exact fun _ => rfl

/-- The caller makes a step on its way to setting the state. -/
theorem Reacts.requesting (h : s.Reacts) (hrequest : s.request ≠ .returned) {request : RequestPc}
    (hrequest' : request ≠ .returned) : Reacts { s with request } where
  distributed hlocal :=
    ⟨(h.distributed hlocal).1.requesting hrequest hrequest', (h.distributed hlocal).2⟩
  localSession hlocal := (h.localSession hlocal).requesting hrequest hrequest'
  running := h.running
  callback := h.callback

/-- The receive thread is never on the unexpected path. -/
theorem Reacts.receive_ne (h : s.Reacts) (hlocal : s.mIsLocal = false) :
    s.receive ≠ .unexpected ∧ s.receive ≠ .reported := by
  have hreaction := (h.distributed hlocal).1
  constructor
  · intro hreceive
    rw [hreceive] at hreaction
    exact hreaction
  · intro hreceive
    rw [hreceive] at hreaction
    exact hreaction

/-- Only a local session terminates. -/
theorem Reacts.isLocal (h : s.Reacts) (htermination : s.termination ≠ .running) :
    s.mIsLocal = true := by
  by_contra hlocal
  exact htermination (h.running (Bool.eq_false_iff.mpr hlocal))

/-- The termination of a local session makes a step. -/
theorem Reacts.terminating (h : s.Reacts) (hlocal : s.mIsLocal = true)
    (hlocal' : s'.mIsLocal = s.mIsLocal) (hsession : s'.session = s.session)
    (hreaction : s'.InStep s'.termination.reaction) : s'.Reacts where
  distributed hdistributed := absurd (hlocal'.symm.trans hdistributed) (by rw [hlocal]; nofun)
  localSession _ := hreaction
  running hdistributed := absurd (hlocal'.symm.trans hdistributed) (by rw [hlocal]; nofun)
  callback := hsession ▸ h.callback

/-- A session with a callback calls `localTermination`. -/
theorem onTerminate_termination (s : ShutdownClient) (h : s.session.mTerminateCallback = true)
    (status : ExitStatus) : ∃ data, (s.onTerminate status).termination = .called data := by
  obtain ⟨data, hdata⟩ := s.session.exists_onTerminate h status
  refine ⟨data, ?_⟩
  unfold onTerminate
  simp only [hdata]

theorem Reacts.act (h : s.Reacts) {e : Event} (horder : s.EndsInOrder e)
    (hs : s.act e = some s') : s'.Reacts := by
  cases e with
  | calls =>
    obtain ⟨⟨hrequest, -⟩, rfl⟩ := of_onlyIf hs
    exact h.requesting (by rw [hrequest]; nofun) nofun
  | requests =>
    simp only [ShutdownClient.act] at hs
    split at hs
    · next hrequest =>
      have hne : s.request ≠ .returned := by rw [hrequest]; nofun
      split at hs
      · cases hs
        have h' : Reacts { s with request := .requested } := h.requesting hne nofun
        exact { h' with }
      · obtain ⟨-, rfl⟩ := of_onlyIf hs
        have h' : Reacts { s with request := .requested } := h.requesting hne nofun
        split
        · exact { h' with }
        · exact { h' with }
    · cases hs
  | requestThrows =>
    simp only [ShutdownClient.act] at hs
    split at hs
    · next hrequest =>
      split at hs
      · next herror =>
        -- no connection error is ever set
        have hnone := (h.distributed herror.1).2.2
        rw [herror.2] at hnone
        cases hnone
      · cases hs
        exact h.requesting (by rw [hrequest]; nofun) nofun
    · cases hs
  | setsDisconnecting =>
    obtain ⟨hrequest, rfl⟩ := of_onlyIf hs
    have hne : s.request ≠ .returned := by rw [hrequest]; nofun
    exact
      { distributed := fun hlocal =>
          ⟨(h.distributed hlocal).1.setsDisconnecting hne, (h.distributed hlocal).2⟩
        localSession := fun hlocal => (h.localSession hlocal).setsDisconnecting hne
        running := h.running
        callback := h.callback }
  | sendProcSends =>
    obtain ⟨-, rfl⟩ := of_onlyIf hs
    exact { h with }
  | closes =>
    cases hs
    exact { h with }
  | catches code =>
    obtain ⟨⟨hreceive, -⟩, rfl⟩ := of_onlyIf hs
    unfold catchException
    split
    · refine { h with distributed := fun hlocal => ?_ }
      obtain ⟨hreaction, hquiet⟩ := h.distributed hlocal
      rw [hreceive] at hreaction
      exact ⟨hreaction, hquiet⟩
    · next hother =>
      -- excluded by the condition, but for a local session
      exact { h with distributed := fun hlocal => absurd (horder hlocal) hother }
  | testsState =>
    obtain ⟨hreceive, rfl⟩ := of_onlyIf hs
    -- the condition: the shutdown has set the state, and nothing else has since
    refine { h with distributed := fun hlocal => ?_ }
    obtain ⟨hreaction, hquiet⟩ := h.distributed hlocal
    rw [hreceive] at hreaction
    have hrequest : s.request = .returned := horder hlocal
    have hstate : s.mState = .STATE_DISCONNECTING := hreaction hrequest
    refine ⟨?_, hquiet⟩
    show InStep _ (ReceivePc.reaction (if s.mState = .STATE_DISCONNECTING then _ else _))
    rw [if_pos hstate]
    exact ⟨hrequest, hstate⟩
  | setsDisconnected =>
    obtain ⟨hreceive, rfl⟩ := of_onlyIf hs
    refine
      { distributed := fun hlocal => ?_
        localSession := fun hlocal => ?_
        running := h.running
        callback := h.callback }
    · have hlocal : s.mIsLocal = false := hlocal
      obtain ⟨hreaction, hquiet⟩ := h.distributed hlocal
      rw [hreceive] at hreaction
      refine ⟨⟨hreaction.1, ?_⟩, hquiet⟩
      show (if s.mIsLocal = true then _ else _) = _
      rw [hlocal]
      rfl
    · have hlocal : s.mIsLocal = true := hlocal
      refine (h.localSession hlocal).congr rfl ?_
      show (if s.mIsLocal = true then _ else _) = _
      rw [if_pos hlocal]
  | callsCallbacks =>
    obtain ⟨hreceive, rfl⟩ := of_onlyIf hs
    exact { h with distributed := fun hlocal => absurd hreceive (h.receive_ne hlocal).1 }
  | setsConnectionError =>
    obtain ⟨hreceive, rfl⟩ := of_onlyIf hs
    exact { h with distributed := fun hlocal => absurd hreceive (h.receive_ne hlocal).2 }
  | exits status =>
    simp only [ShutdownClient.act] at hs
    split at hs
    · next htermination =>
      -- the session has its callback, so `localTermination` is called
      obtain ⟨hlocal, rfl⟩ := of_onlyIf hs
      have hreaction := h.localSession hlocal
      rw [htermination] at hreaction
      obtain ⟨data, hcalled⟩ := s.onTerminate_termination h.callback status
      refine h.terminating hlocal rfl rfl ?_
      rw [hcalled]
      exact hreaction
    · cases hs
  | notifiesComponents =>
    simp only [ShutdownClient.act] at hs
    split at hs
    · next data htermination =>
      cases hs
      have hlocal := h.isLocal (by rw [htermination]; nofun)
      have hreaction := h.localSession hlocal
      rw [htermination] at hreaction
      exact h.terminating hlocal rfl rfl hreaction
    · cases hs
  | terminationTestsState =>
    simp only [ShutdownClient.act] at hs
    split at hs
    · next htermination =>
      have hrequest : s.request = .returned := horder
      have hlocal := h.isLocal (by rw [htermination]; nofun)
      split at hs
      · next hstate =>
        cases hs
        exact h.terminating hlocal rfl rfl ⟨hrequest, hstate⟩
      · next hstate =>
        -- excluded by the condition
        cases hs
        have hreaction := h.localSession hlocal
        rw [htermination] at hreaction
        exact absurd (hreaction hrequest) hstate
    · cases hs
  | terminationSetsDisconnected =>
    simp only [ShutdownClient.act] at hs
    split at hs
    · next htermination =>
      cases hs
      have hlocal := h.isLocal (by rw [htermination]; nofun)
      have hreaction := h.localSession hlocal
      rw [htermination] at hreaction
      exact h.terminating hlocal rfl rfl ⟨hreaction.1, rfl⟩
    · cases hs

/-- `threadProc` reports the exception and ends. -/
theorem error_of_unexpected (hreceive : s.receive = .unexpected) :
    ∃ s', system.Steps s s' ∧ s'.receive = .ended ∧ s'.mConnectionError = true := by
  have hcalls : s.act .callsCallbacks = some { s with
      exceptions := s.exceptions + s.mExceptionCallbacks
      receive := .reported } := if_pos hreceive
  have hsteps := (System.StepsWhen.refl (M := system) s).tail
    (C := fun _ _ => True) (e := Event.callsCallbacks) trivial hcalls
  exact ⟨_, hsteps.tail (e := Event.setsConnectionError) trivial rfl, rfl, rfl⟩

/-- A closed connection that `threadProc` tests any earlier is an error. -/
theorem error_of_testsState (hstate : s.mState ≠ .STATE_DISCONNECTING)
    (hs : s.act .testsState = some s') :
    ∃ s'', system.Steps s' s'' ∧ s''.receive = .ended ∧ s''.mConnectionError = true := by
  obtain ⟨-, rfl⟩ := of_onlyIf hs
  have hreceive : s.testState.receive = .unexpected := if_neg hstate
  exact error_of_unexpected hreceive

/-- So is, whatever the state, one that is reported with another code: a remote end
    that closes with bytes unread resets the connection. -/
theorem error_of_catches {code : PeerException.Code} (hcode : code ≠ .CONNECTION_CLOSED)
    (hs : s.act (.catches code) = some s') :
    ∃ s'', system.Steps s' s'' ∧ s''.receive = .ended ∧ s''.mConnectionError = true := by
  obtain ⟨-, rfl⟩ := of_onlyIf hs
  have hreceive : (s.catchException code).receive = .unexpected := by
    unfold catchException
    rw [if_neg hcode]
  exact error_of_unexpected hreceive

/-- A local session whose computation has already terminated when the shutdown sets
    the state: nothing is left that would set `STATE_DISCONNECTED`. -/
structure Stuck (s : ShutdownClient) : Prop where
  isLocal : s.mIsLocal = true
  returned : s.request = .returned
  finished : s.termination = .finished
  disconnecting : s.mState = .STATE_DISCONNECTING

theorem Stuck.act (h : s.Stuck) {e : Event} (hs : s.act e = some s') : s'.Stuck := by
  obtain ⟨hlocal, hrequest, hfinished, hstate⟩ := h
  cases e with
  | calls | requests | requestThrows | setsDisconnecting =>
    simp [ShutdownClient.act, onlyIf, hrequest] at hs
  | exits | notifiesComponents | terminationTestsState | terminationSetsDisconnected =>
    simp [ShutdownClient.act, hfinished] at hs
  | closes =>
    cases hs
    exact ⟨hlocal, hrequest, hfinished, hstate⟩
  | setsDisconnected =>
    obtain ⟨-, rfl⟩ := of_onlyIf hs
    refine ⟨hlocal, hrequest, hfinished, ?_⟩
    show (if s.mIsLocal = true then s.mState else _) = _
    rw [if_pos hlocal]
    exact hstate
  | catches code =>
    obtain ⟨-, rfl⟩ := of_onlyIf hs
    unfold catchException
    split <;> exact ⟨hlocal, hrequest, hfinished, hstate⟩
  | sendProcSends | testsState | callsCallbacks | setsConnectionError =>
    obtain ⟨-, rfl⟩ := of_onlyIf hs
    exact ⟨hlocal, hrequest, hfinished, hstate⟩

/-- Whatever happens afterwards, `waitForDisconnect` waits until it times out. -/
theorem stuck_of_terminatedFirst (hlocal : s.mIsLocal = true)
    (hfinished : s.termination = .finished) (hs : s.act .setsDisconnecting = some s')
    {s'' : ShutdownClient} (hsteps : system.Steps s' s'') : s''.Stuck := by
  obtain ⟨-, rfl⟩ := of_onlyIf hs
  refine hsteps.invariant (fun _ _ _ h _ hs => h.act hs) ?_
  exact ⟨hlocal, rfl, hfinished, rfl⟩

end ShutdownClient

end Arras4Core.Client
