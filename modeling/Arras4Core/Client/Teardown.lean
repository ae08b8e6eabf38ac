/-
  Arras4Core.Client.Teardown

  `Client::shutdownConnection` beside the two threads that use what it deletes:
  `threadProc`, which receives from the endpoints, and `sendProc`, which pops the
  outgoing queue and sends to them.

  The threads are told to end, then the endpoints and the queue are deleted, and
  only then are the threads joined.  A thread tests a pointer in one step and uses it
  in the next ones, so it may be in the middle of a call when the object goes away.
-/

import Arras4Core.Dispatch.ThreadsafeQueue
import Arras4Core.Message.Envelope

namespace Arras4Core.Client

open Arras4Core.Dispatch (ThreadsafeQueue)
open Arras4Core.Lib
open Arras4Core.Message (Envelope)

/-- What a pointer of the client is worth. -/
inductive Pointer
  | object
  /-- the object was deleted, the pointer was not set since -/
  | dangling
  | null
  deriving DecidableEq

/-- `delete`, which a null pointer is safe from. -/
def Pointer.delete : Pointer → Pointer
  | .object => .dangling
  | p => p

theorem Pointer.delete_ne_object (p : Pointer) : p.delete ≠ .object := by
  cases p <;> nofun

/-- What `shutdownConnection` deletes. -/
inductive Member
  | mMessageEndpoint
  | mPeerEndpoint
  | mOutgoingQueue
  deriving DecidableEq

/-- How a call ends, as far as the catch clauses of the threads tell. -/
inductive Outcome
  | returned
  | shutdownException
  | peerDisconnectException
  /-- any other `PeerException` -/
  | peerException
  | otherException
  deriving DecidableEq

/-! ## A call on `mMessageEndpoint` -/

/-- Where a thread is in `getEnvelope` or `putEnvelope` of `mMessageEndpoint`, which
    calls the same function of `mPeerEndpoint` for each chunk. -/
inductive CallPc
  /-- the pointer was not null, the call comes next -/
  | tested
  /-- in the chunking endpoint, which calls the peer endpoint next -/
  | inMessageEndpoint
  /-- in the peer endpoint, which tests `mShutdown` next -/
  | inPeerEndpoint
  /-- in `mReader.read` or `mWriter.write` -/
  | transferring
  /-- the peer endpoint caught a `PeerDisconnectException`, it tests `mShutdown` next -/
  | disconnected
  /-- the peer endpoint is done, the call on the chunking endpoint is not -/
  | leaving (o : Outcome)
  deriving DecidableEq

inductive CallStep
  | calls
  | callsPeer
  | testsShutdown
  | transfers (o : Outcome)
  | nextChunk

namespace CallPc

def step (mShutdown : Bool) : CallPc → CallStep → Option CallPc
  | .tested, .calls => some .inMessageEndpoint
  | .inMessageEndpoint, .callsPeer => some .inPeerEndpoint
  | .inPeerEndpoint, .testsShutdown =>
    some (if mShutdown then .leaving .shutdownException else .transferring)
  -- a shutdown ends a blocked transfer like a disconnection, `mShutdown` tells the two apart
  | .transferring, .transfers .peerDisconnectException => some .disconnected
  | .transferring, .transfers o => some (.leaving o)
  | .disconnected, .testsShutdown =>
    some (.leaving (if mShutdown then .shutdownException else .peerDisconnectException))
  -- a chunk that completes no message, or one more chunk to send
  | .leaving .returned, .nextChunk => some .inMessageEndpoint
  | _, _ => none

/-- The objects that the next step is an operation on. -/
def uses : CallPc → List Member
  | .tested | .leaving _ => [.mMessageEndpoint]
  | .inMessageEndpoint => [.mMessageEndpoint, .mPeerEndpoint]
  | .inPeerEndpoint | .transferring | .disconnected => [.mPeerEndpoint]

theorem queue_not_mem_uses (pc : CallPc) : .mOutgoingQueue ∉ pc.uses := by
  cases pc <;> simp [uses]

/-- A call whose end is some steps away. -/
inductive Leaves (mShutdown : Bool) : CallPc → Prop
  | leaving (o : Outcome) : Leaves mShutdown (.leaving o)
  | step {pc pc' : CallPc} {c : CallStep} (hstep : pc.step mShutdown c = some pc')
      (h : Leaves mShutdown pc') : Leaves mShutdown pc

/-- A call can end wherever it is, in an endpoint that was shut down or in one that
    was not. -/
theorem leaves (mShutdown : Bool) (pc : CallPc) : pc.Leaves mShutdown := by
  have htransferring : Leaves mShutdown .transferring :=
    .step (c := .transfers .returned) rfl (.leaving .returned)
  have hpeer : Leaves mShutdown .inPeerEndpoint := by
    cases mShutdown with
    | true => exact .step (c := .testsShutdown) rfl (.leaving .shutdownException)
    | false => exact .step (c := .testsShutdown) rfl htransferring
  have hmessage : Leaves mShutdown .inMessageEndpoint := .step (c := .callsPeer) rfl hpeer
  cases pc with
  | tested => exact .step (c := .calls) rfl hmessage
  | inMessageEndpoint => exact hmessage
  | inPeerEndpoint => exact hpeer
  | transferring => exact htransferring
  | disconnected => exact .step (c := .testsShutdown) rfl (.leaving _)
  | leaving o => exact .leaving o

end CallPc

/-! ## The threads -/

/-- Where `threadProc` is. -/
inductive DeliveryPc
  /-- `mRun` is tested next -/
  | loop
  /-- in `deliverMessages`, `mMessageEndpoint` is tested next -/
  | testing
  | calling (c : CallPc)
  /-- the components are given the message -/
  | dispatching
  | ended
  deriving DecidableEq

/-- Where `sendProc` is. -/
inductive SendPc
  | loop
  /-- `mOutgoingQueue->pop` is called next -/
  | popping
  /-- in the wait of `pop` -/
  | waiting
  | testing
  | calling (c : CallPc)
  | ended
  deriving DecidableEq

/-- The next step of `shutdownConnection`. -/
inductive TeardownPc
  | notCalled
  | shutsQueue
  | shutsEndpoint
  | shutsPeer
  | deletesMessageEndpoint
  | deletesQueue
  | clearsMessageEndpoint
  | clearsQueue
  | deletesPeerEndpoint
  | clearsPeerEndpoint
  | joinsThread
  | joinsSendThread
  | returned
  deriving DecidableEq

/-- A thread between its test of `mMessageEndpoint` and the end of the call. -/
def DeliveryPc.inCall : DeliveryPc → Bool
  | .calling _ => true
  | _ => false

def SendPc.inCall : SendPc → Bool
  | .calling _ => true
  | _ => false

/-- `sendProc` between its test of `mRun` and the end of `pop`. -/
def SendPc.inPop : SendPc → Bool
  | .popping | .waiting => true
  | _ => false

/-- Where `threadProc` goes on after a call that ended, to `next` unless it threw. -/
def Outcome.delivery (next : DeliveryPc) : Outcome → DeliveryPc
  | .returned => next
  | .shutdownException => .loop
  | .peerDisconnectException | .peerException | .otherException => .ended

/-- The members of a `Client` that make up a connection, and the threads. -/
structure Connection where
  mSendAsync : Bool
  mRun : Bool := true
  mMessageEndpoint : Pointer := .object
  mPeerEndpoint : Pointer := .object
  mOutgoingQueue : Pointer
  /-- `mShutdown` of the peer endpoint -/
  mShutdown : Bool := false
  /-- the queue that `mOutgoingQueue` points at -/
  queue : ThreadsafeQueue Envelope := {}
  teardown : TeardownPc := .notCalled
  delivery : DeliveryPc := .loop
  send : SendPc
  /-- an exception left `threadProc`, which ends the program -/
  terminated : Bool := false
  /-- the operations on an object that was deleted -/
  usedAfterDelete : List Member := []

namespace Connection

inductive Event
  /-- the next step of `shutdownConnection` -/
  | teardown
  /-- `mPeer->shutdown()` throws a `PeerException` -/
  | peerShutdownThrows
  -- `threadProc`
  | deliveryTestsRun
  | deliveryTestsEndpoint
  | deliveryCall (c : CallStep)
  | deliveryEndsCall
  | dispatches (o : Outcome)
  -- `sendProc`
  | sendTestsRun
  | pops
  | sendTestsEndpoint
  | sendCall (c : CallStep)
  | sendEndsCall
  -- the callers of `send`
  | pushes (env : Envelope)

def pointer (s : Connection) : Member → Pointer
  | .mMessageEndpoint => s.mMessageEndpoint
  | .mPeerEndpoint => s.mPeerEndpoint
  | .mOutgoingQueue => s.mOutgoingQueue

/-- Operations on the objects `ms`. -/
def use (s : Connection) (ms : List Member) : Connection :=
  { s with usedAfterDelete := s.usedAfterDelete ++ ms.filter fun m => s.pointer m ≠ .object }

/-- One step of `shutdownConnection`, which is called on a connection that has a
    peer. -/
def tearDown (s : Connection) : Option Connection :=
  match s.teardown with
  | .notCalled => some { s with mRun := false, teardown := .shutsQueue }
  | .shutsQueue =>
    if s.mOutgoingQueue = .null then some { s with teardown := .shutsEndpoint }
    else some { s.use [.mOutgoingQueue] with queue := s.queue.shutdown, teardown := .shutsEndpoint }
  | .shutsEndpoint =>
    -- the chunking endpoint passes it on to the peer endpoint
    if s.mMessageEndpoint = .null then some { s with teardown := .shutsPeer }
    else
      some { s.use [.mMessageEndpoint, .mPeerEndpoint] with
        mShutdown := true
        teardown := .shutsPeer }
  | .shutsPeer => some { s with teardown := .deletesMessageEndpoint }
  -- from its deletion to the assignment of `nullptr` a pointer is dangling
  | .deletesMessageEndpoint =>
    some { s with mMessageEndpoint := s.mMessageEndpoint.delete, teardown := .deletesQueue }
  | .deletesQueue =>
    some { s with mOutgoingQueue := s.mOutgoingQueue.delete, teardown := .clearsMessageEndpoint }
  | .clearsMessageEndpoint => some { s with mMessageEndpoint := .null, teardown := .clearsQueue }
  | .clearsQueue => some { s with mOutgoingQueue := .null, teardown := .deletesPeerEndpoint }
  | .deletesPeerEndpoint =>
    some { s with mPeerEndpoint := s.mPeerEndpoint.delete, teardown := .clearsPeerEndpoint }
  | .clearsPeerEndpoint => some { s with mPeerEndpoint := .null, teardown := .joinsThread }
  -- only here are the threads waited for
  | .joinsThread => onlyIf (s.delivery = .ended) { s with teardown := .joinsSendThread }
  | .joinsSendThread => onlyIf (s.send = .ended) { s with teardown := .returned }
  | .returned => none

/-- `pop` where it holds the mutex, on entry or after a wait. -/
def pop (s : Connection) : Connection :=
  match s.queue.pop with
  | .shutdownException => { s.use [.mOutgoingQueue] with send := .loop }
  -- the wait gives the mutex back
  | .empty => { s.use [.mOutgoingQueue] with send := .waiting }
  | .item _ queue => { s.use [.mOutgoingQueue] with queue := queue, send := .testing }

def act (s : Connection) : Event → Option Connection
  | .teardown => s.tearDown
  | .peerShutdownThrows =>
    onlyIf (s.teardown = .shutsPeer) { s with teardown := .joinsThread }
  | .deliveryTestsRun =>
    onlyIf (s.delivery = .loop) { s with delivery := if s.mRun then .testing else .ended }
  | .deliveryTestsEndpoint =>
    onlyIf (s.delivery = .testing)
      { s with delivery := if s.mMessageEndpoint = .null then .loop else .calling .tested }
  | .deliveryCall c =>
    match s.delivery with
    | .calling pc =>
      (pc.step s.mShutdown c).map fun pc' => { s.use pc.uses with delivery := .calling pc' }
    | _ => none
  | .deliveryEndsCall =>
    match s.delivery with
    | .calling (.leaving o) =>
      -- what is neither a `PeerException` nor a `ShutdownException` is thrown on
      some { s.use [.mMessageEndpoint] with
        delivery := o.delivery .dispatching
        terminated := o = .otherException }
    | _ => none
  | .dispatches o =>
    onlyIf (s.delivery = .dispatching)
      { s with delivery := o.delivery .loop, terminated := o = .otherException }
  | .sendTestsRun =>
    onlyIf (s.send = .loop) { s with send := if s.mRun then .popping else .ended }
  | .pops => onlyIf (s.send.inPop = true) s.pop
  | .sendTestsEndpoint =>
    onlyIf (s.send = .testing)
      { s with send := if s.mMessageEndpoint = .null then .loop else .calling .tested }
  | .sendCall c =>
    match s.send with
    | .calling pc =>
      (pc.step s.mShutdown c).map fun pc' => { s.use pc.uses with send := .calling pc' }
    | _ => none
  | .sendEndsCall =>
    match s.send with
    -- whatever was thrown, the loop goes on
    | .calling (.leaving _) => some { s.use [.mMessageEndpoint] with send := .loop }
    | _ => none
  | .pushes env =>
    if s.mOutgoingQueue = .object then (s.queue.push env).map fun queue => { s with queue }
    else none

/-- The connection that `postConnect` makes: the send thread and its queue are for a
    client that sends asynchronously. -/
def postConnect (mSendAsync : Bool) : Connection where
  mSendAsync
  mOutgoingQueue := if mSendAsync then .object else .null
  send := if mSendAsync then .loop else .ended

def system : System Connection Event where
  init s := s = postConnect s.mSendAsync
  step s e := if s.terminated then none else s.act e

/-- `mMessageEndpoint` is deleted while neither thread is between its test of the
    pointer and the end of the call, `mOutgoingQueue` while `sendProc` is not between
    its test of `mRun` and the end of `pop`, and no thread tests `mMessageEndpoint`
    between its deletion and the assignment of `nullptr`. -/
def DeletesUnused (s : Connection) : Event → Prop
  | .teardown =>
    (s.teardown = .deletesMessageEndpoint → s.delivery.inCall = false ∧ s.send.inCall = false) ∧
      (s.teardown = .deletesQueue → s.send.inPop = false)
  | .deliveryTestsEndpoint | .sendTestsEndpoint => s.mMessageEndpoint ≠ .dangling
  | _ => True

/-! ## The invariant -/

/-- Where the objects are, at each step of `shutdownConnection`. -/
def Placed (s : Connection) : TeardownPc → Prop
  | .notCalled | .shutsQueue | .shutsEndpoint | .shutsPeer | .deletesMessageEndpoint =>
    s.mMessageEndpoint = .object ∧ s.mOutgoingQueue ≠ .dangling
  | .clearsMessageEndpoint | .clearsQueue =>
    s.mMessageEndpoint ≠ .object ∧ s.mOutgoingQueue ≠ .object
  | .deletesQueue | .deletesPeerEndpoint | .clearsPeerEndpoint => s.mMessageEndpoint ≠ .object
  | .joinsThread | .joinsSendThread | .returned => True

/-- What a thread is about to use is there. -/
structure Live (s : Connection) : Prop where
  placed : s.Placed s.teardown
  /-- `mPeerEndpoint` outlives `mMessageEndpoint` -/
  peerEndpoint : s.mMessageEndpoint = .object → s.mPeerEndpoint = .object
  /-- the threads run on as long as the teardown has not begun -/
  running : s.mRun = true →
    s.teardown = .notCalled ∧ s.mOutgoingQueue = if s.mSendAsync then .object else .null
  sending : s.mSendAsync = false → s.send = .ended
  deliveryInCall : s.delivery.inCall = true → s.mMessageEndpoint = .object
  sendInCall : s.send.inCall = true → s.mMessageEndpoint = .object
  inPop : s.send.inPop = true → s.mOutgoingQueue = .object
  unused : s.usedAfterDelete = []

variable {s s' : Connection}

/-- An operation on objects that are there leaves no trace. -/
theorem use_eq {ms : List Member} (h : ∀ m ∈ ms, s.pointer m = .object) : s.use ms = s := by
  have hnone : (ms.filter fun m => s.pointer m ≠ .object) = [] := by
    rw [List.filter_eq_nil_iff]
    intro m hm
    simp [h m hm]
  unfold use
  rw [hnone, List.append_nil]

/-- In a call, both endpoints are there. -/
theorem Live.use_endpoints (h : s.Live) (hobject : s.mMessageEndpoint = .object)
    {ms : List Member} (hms : .mOutgoingQueue ∉ ms) : s.use ms = s := by
  refine use_eq fun m hm => ?_
  cases m with
  | mMessageEndpoint => exact hobject
  | mPeerEndpoint => exact h.peerEndpoint hobject
  | mOutgoingQueue => exact absurd hm hms

theorem use_queue (h : s.mOutgoingQueue = .object) : s.use [.mOutgoingQueue] = s := by
  refine use_eq fun m hm => ?_
  rw [List.mem_singleton.mp hm]
  exact h

/-- `threadProc` moves. -/
theorem Live.delivers (h : s.Live) {delivery : DeliveryPc} {terminated : Bool}
    (hcall : delivery.inCall = true → s.mMessageEndpoint = .object) :
    Live { s with delivery, terminated } where
  placed := h.placed
  peerEndpoint := h.peerEndpoint
  running := h.running
  sending := h.sending
  deliveryInCall := hcall
  sendInCall := h.sendInCall
  inPop := h.inPop
  unused := h.unused

/-- `sendProc` moves. -/
theorem Live.sends (h : s.Live) {send : SendPc} {queue : ThreadsafeQueue Envelope}
    (hsend : s.send ≠ .ended)
    (hcall : send.inCall = true → s.mMessageEndpoint = .object)
    (hpop : send.inPop = true → s.mOutgoingQueue = .object) :
    Live { s with send, queue } where
  placed := h.placed
  peerEndpoint := h.peerEndpoint
  running := h.running
  sending hasync := absurd (h.sending hasync) hsend
  deliveryInCall := h.deliveryInCall
  sendInCall := hcall
  inPop := hpop
  unused := h.unused

/-- `shutdownConnection` moves, and the objects stay. -/
theorem Live.tearsDown (h : s.Live) {mRun mShutdown : Bool} {teardown : TeardownPc}
    {queue : ThreadsafeQueue Envelope} (hrun : mRun = false) (hplaced : s.Placed teardown) :
    Live { s with mRun, teardown, queue, mShutdown } where
  placed := hplaced
  peerEndpoint := h.peerEndpoint
  running hset := absurd (hrun.symm.trans hset) nofun
  sending := h.sending
  deliveryInCall := h.deliveryInCall
  sendInCall := h.sendInCall
  inPop := h.inPop
  unused := h.unused

/-- Once the teardown has begun the threads are told to end. -/
theorem Live.mRun_eq_false (h : s.Live) (hteardown : s.teardown ≠ .notCalled) : s.mRun = false := by
  by_contra hrun
  exact hteardown (h.running (Bool.eq_true_of_not_eq_false hrun)).1

/-- `shutdownConnection` deletes or clears `mMessageEndpoint`. -/
theorem Live.setsMessageEndpoint (h : s.Live) {mMessageEndpoint : Pointer} {teardown : TeardownPc}
    (hrun : s.mRun = false) (hpointer : mMessageEndpoint ≠ .object)
    (hdelivery : s.delivery.inCall = false) (hsend : s.send.inCall = false)
    (hplaced : Placed { s with mMessageEndpoint } teardown) :
    Live { s with mMessageEndpoint, teardown } where
  placed := hplaced
  peerEndpoint hobject := absurd hobject hpointer
  running hset := absurd (hrun.symm.trans hset) nofun
  sending := h.sending
  deliveryInCall hcall := absurd (hdelivery.symm.trans hcall) nofun
  sendInCall hcall := absurd (hsend.symm.trans hcall) nofun
  inPop := h.inPop
  unused := h.unused

/-- `shutdownConnection` deletes or clears `mOutgoingQueue`. -/
theorem Live.setsQueue (h : s.Live) {mOutgoingQueue : Pointer} {teardown : TeardownPc}
    (hrun : s.mRun = false) (hpop : s.send.inPop = false)
    (hplaced : Placed { s with mOutgoingQueue } teardown) :
    Live { s with mOutgoingQueue, teardown } where
  placed := hplaced
  peerEndpoint := h.peerEndpoint
  running hset := absurd (hrun.symm.trans hset) nofun
  sending := h.sending
  deliveryInCall := h.deliveryInCall
  sendInCall := h.sendInCall
  inPop hin := absurd (hpop.symm.trans hin) nofun
  unused := h.unused

/-- `shutdownConnection` deletes or clears `mPeerEndpoint`. -/
theorem Live.setsPeerEndpoint (h : s.Live) {mPeerEndpoint : Pointer} {teardown : TeardownPc}
    (hrun : s.mRun = false) (hpointer : s.mMessageEndpoint ≠ .object)
    (hplaced : Placed { s with mPeerEndpoint } teardown) :
    Live { s with mPeerEndpoint, teardown } where
  placed := hplaced
  peerEndpoint hobject := absurd hobject hpointer
  running hset := absurd (hrun.symm.trans hset) nofun
  sending := h.sending
  deliveryInCall := h.deliveryInCall
  sendInCall := h.sendInCall
  inPop := h.inPop
  unused := h.unused

/-- No thread is in a call on an endpoint that is not there. -/
theorem Live.not_inCall (h : s.Live) (hpointer : s.mMessageEndpoint ≠ .object) :
    s.delivery.inCall = false ∧ s.send.inCall = false := by
  constructor
  · by_contra hcall
    exact hpointer (h.deliveryInCall (Bool.eq_true_of_not_eq_false hcall))
  · by_contra hcall
    exact hpointer (h.sendInCall (Bool.eq_true_of_not_eq_false hcall))

/-- `sendProc` is not in `pop` of a queue that is not there. -/
theorem Live.not_inPop (h : s.Live) (hpointer : s.mOutgoingQueue ≠ .object) :
    s.send.inPop = false := by
  by_contra hpop
  exact hpointer (h.inPop (Bool.eq_true_of_not_eq_false hpop))

theorem Live.tearDown (h : s.Live) (hunused : s.DeletesUnused .teardown)
    (hs : s.tearDown = some s') : s'.Live := by
  obtain ⟨hendpoint, hqueue⟩ := hunused
  have hplaced := h.placed
  unfold Connection.tearDown at hs
  -- one case for each step, in their order
  split at hs
  · next hpc =>
    cases hs
    rw [hpc] at hplaced
    exact h.tearsDown rfl hplaced
  · next hpc =>
    rw [hpc] at hplaced
    have hrun := h.mRun_eq_false (by rw [hpc]; nofun)
    split at hs
    · cases hs
      exact h.tearsDown hrun hplaced
    · next hnull =>
      cases hs
      -- nothing is deleted yet
      have hobject : s.mOutgoingQueue = .object := by
        cases hpointer : s.mOutgoingQueue with
        | object => rfl
        | dangling => exact absurd hpointer hplaced.2
        | null => exact absurd hpointer hnull
      rw [use_queue hobject]
      exact h.tearsDown hrun hplaced
  · next hpc =>
    rw [hpc] at hplaced
    have hrun := h.mRun_eq_false (by rw [hpc]; nofun)
    split at hs
    · cases hs
      exact h.tearsDown hrun hplaced
    · cases hs
      rw [h.use_endpoints hplaced.1 (by simp)]
      exact h.tearsDown hrun hplaced
  · next hpc =>
    cases hs
    rw [hpc] at hplaced
    exact h.tearsDown (h.mRun_eq_false (by rw [hpc]; nofun)) hplaced
  · next hpc =>
    cases hs
    rw [hpc] at hplaced
    -- the condition: neither thread is in a call
    obtain ⟨hdelivery, hsend⟩ := hendpoint hpc
    have hdeleted := Pointer.delete_ne_object s.mMessageEndpoint
    exact h.setsMessageEndpoint (h.mRun_eq_false (by rw [hpc]; nofun)) hdeleted hdelivery hsend
      hdeleted
  · next hpc =>
    cases hs
    rw [hpc] at hplaced
    exact h.setsQueue (h.mRun_eq_false (by rw [hpc]; nofun)) (hqueue hpc)
      ⟨hplaced, Pointer.delete_ne_object s.mOutgoingQueue⟩
  · next hpc =>
    cases hs
    rw [hpc] at hplaced
    obtain ⟨hdelivery, hsend⟩ := h.not_inCall hplaced.1
    exact h.setsMessageEndpoint (h.mRun_eq_false (by rw [hpc]; nofun)) nofun hdelivery hsend
      ⟨nofun, hplaced.2⟩
  · next hpc =>
    cases hs
    rw [hpc] at hplaced
    exact h.setsQueue (h.mRun_eq_false (by rw [hpc]; nofun)) (h.not_inPop hplaced.2) hplaced.1
  · next hpc =>
    cases hs
    rw [hpc] at hplaced
    exact h.setsPeerEndpoint (h.mRun_eq_false (by rw [hpc]; nofun)) hplaced hplaced
  · next hpc =>
    cases hs
    rw [hpc] at hplaced
    exact h.setsPeerEndpoint (h.mRun_eq_false (by rw [hpc]; nofun)) hplaced trivial
  · next hpc =>
    obtain ⟨-, rfl⟩ := of_onlyIf hs
    exact h.tearsDown (h.mRun_eq_false (by rw [hpc]; nofun)) trivial
  · next hpc =>
    obtain ⟨-, rfl⟩ := of_onlyIf hs
    exact h.tearsDown (h.mRun_eq_false (by rw [hpc]; nofun)) trivial
  · cases hs

/-- A test of `mMessageEndpoint` that finds a pointer finds an object. -/
theorem object_of_tested (hdangling : s.mMessageEndpoint ≠ .dangling)
    (hnull : s.mMessageEndpoint ≠ .null) : s.mMessageEndpoint = .object := by
  cases h : s.mMessageEndpoint with
  | object => rfl
  | dangling => exact absurd h hdangling
  | null => exact absurd h hnull

theorem Live.pop (h : s.Live) (hpop : s.send.inPop = true) : s.pop.Live := by
  have hne : s.send ≠ .ended := by
    intro hended
    rw [hended] at hpop
    cases hpop
  have hobject := h.inPop hpop
  unfold Connection.pop
  rw [use_queue hobject]
  split
  · exact h.sends hne nofun nofun
  · exact h.sends hne nofun fun _ => hobject
  · exact h.sends hne nofun nofun

theorem Live.act (h : s.Live) {e : Event} (hunused : s.DeletesUnused e) (hs : s.act e = some s') :
    s'.Live := by
  cases e with
  | teardown => exact h.tearDown hunused hs
  | peerShutdownThrows =>
    obtain ⟨hpc, rfl⟩ := of_onlyIf hs
    exact h.tearsDown (h.mRun_eq_false (by rw [hpc]; nofun)) trivial
  | deliveryTestsRun =>
    obtain ⟨-, rfl⟩ := of_onlyIf hs
    refine h.delivers fun hcall => ?_
    split at hcall
    · cases hcall
    · cases hcall
  | deliveryTestsEndpoint =>
    obtain ⟨-, rfl⟩ := of_onlyIf hs
    refine h.delivers fun hcall => ?_
    split at hcall
    · cases hcall
    · next hnull => exact object_of_tested hunused hnull
  | deliveryCall c =>
    simp only [Connection.act] at hs
    split at hs
    · next pc hdelivery =>
      obtain ⟨pc', -, rfl⟩ := Option.map_eq_some_iff.mp hs
      have hobject := h.deliveryInCall (by rw [hdelivery]; rfl)
      rw [h.use_endpoints hobject pc.queue_not_mem_uses]
      exact h.delivers fun _ => hobject
    · cases hs
  | deliveryEndsCall =>
    simp only [Connection.act] at hs
    split at hs
    · next o hdelivery =>
      cases hs
      have hobject := h.deliveryInCall (by rw [hdelivery]; rfl)
      rw [h.use_endpoints hobject (by simp)]
      exact h.delivers fun _ => hobject
    · cases hs
  | dispatches o =>
    obtain ⟨-, rfl⟩ := of_onlyIf hs
    refine h.delivers fun hcall => ?_
    cases o <;> cases hcall
  | sendTestsRun =>
    obtain ⟨hsend, rfl⟩ := of_onlyIf hs
    have hne : s.send ≠ .ended := by rw [hsend]; nofun
    refine h.sends hne (fun hcall => ?_) fun hpop => ?_
    · split at hcall
      · cases hcall
      · cases hcall
    · split at hpop
      · next hrun =>
        -- the thread runs only in a client that sends asynchronously, which has a queue
        have hasync : s.mSendAsync = true := by
          by_contra hsync
          exact hne (h.sending (Bool.eq_false_iff.mpr hsync))
        rw [(h.running hrun).2, hasync]
        rfl
      · cases hpop
  | pops =>
    obtain ⟨hpop, rfl⟩ := of_onlyIf hs
    exact h.pop hpop
  | sendTestsEndpoint =>
    obtain ⟨hsend, rfl⟩ := of_onlyIf hs
    refine h.sends (by rw [hsend]; nofun) (fun hcall => ?_) fun hpop => ?_
    · split at hcall
      · cases hcall
      · next hnull => exact object_of_tested hunused hnull
    · split at hpop
      · cases hpop
      · cases hpop
  | sendCall c =>
    simp only [Connection.act] at hs
    split at hs
    · next pc hsend =>
      obtain ⟨pc', -, rfl⟩ := Option.map_eq_some_iff.mp hs
      have hobject := h.sendInCall (by rw [hsend]; rfl)
      rw [h.use_endpoints hobject pc.queue_not_mem_uses]
      exact h.sends (by rw [hsend]; nofun) (fun _ => hobject) nofun
    · cases hs
  | sendEndsCall =>
    simp only [Connection.act] at hs
    split at hs
    · next o hsend =>
      cases hs
      have hobject := h.sendInCall (by rw [hsend]; rfl)
      rw [h.use_endpoints hobject (by simp)]
      exact h.sends (by rw [hsend]; nofun) nofun nofun
    · cases hs
  | pushes env =>
    simp only [Connection.act] at hs
    split at hs
    · obtain ⟨queue, -, rfl⟩ := Option.map_eq_some_iff.mp hs
      exact { h with }
    · cases hs

theorem live_of_reachable (h : system.ReachableWhen DeletesUnused s) : s.Live := by
  refine h.invariant (fun s hs => ?_) fun s e s' hi hc hs => ?_
  · have hs : s = postConnect s.mSendAsync := hs
    rw [hs]
    cases s.mSendAsync with
    | false =>
      exact ⟨⟨rfl, nofun⟩, fun _ => rfl, fun _ => ⟨rfl, rfl⟩, fun _ => rfl, nofun, nofun, nofun,
        rfl⟩
    | true =>
      exact ⟨⟨rfl, nofun⟩, fun _ => rfl, fun _ => ⟨rfl, rfl⟩, nofun, nofun, nofun, nofun, rfl⟩
  · have hs : (if s.terminated then none else s.act e) = some s' := hs
    split at hs
    · cases hs
    · exact hi.act hc hs

/-- As long as `shutdownConnection` deletes nothing that a thread is using or about
    to use, no operation is performed on an object that was deleted. -/
theorem usedAfterDelete_of_deletesUnused (h : system.ReachableWhen DeletesUnused s) :
    s.usedAfterDelete = [] :=
  (live_of_reachable h).unused

/-- Both threads are blocked when the teardown begins, end before anything is
    deleted, and are joined. -/
theorem usedAfterDelete_threadsEnd : ∃ s, system.ReachableWhen DeletesUnused s ∧
    s.teardown = .returned ∧ s.usedAfterDelete = [] := by
  have h : ∃ s, system.ReachableWhen DeletesUnused s ∧ s.teardown = .returned := by
    have h₀ : system.ReachableWhen DeletesUnused (postConnect true) := .init rfl
    have h₁ := h₀.next (e := Event.sendTestsRun) trivial rfl
    have h₂ := h₁.next (e := Event.pops) trivial rfl
    have h₃ := h₂.next (e := Event.deliveryTestsRun) trivial rfl
    have h₄ := h₃.next (e := Event.deliveryTestsEndpoint) nofun rfl
    have h₅ := h₄.next (e := Event.deliveryCall .calls) trivial rfl
    have h₆ := h₅.next (e := Event.deliveryCall .callsPeer) trivial rfl
    have h₇ := h₆.next (e := Event.deliveryCall .testsShutdown) trivial rfl
    -- the queue and the endpoint are shut down, which ends `pop` and the read
    have h₈ := h₇.next (e := Event.teardown) ⟨nofun, nofun⟩ rfl
    have h₉ := h₈.next (e := Event.teardown) ⟨nofun, nofun⟩ rfl
    have h₁₀ := h₉.next (e := Event.teardown) ⟨nofun, nofun⟩ rfl
    have h₁₁ := h₁₀.next (e := Event.pops) trivial rfl
    have h₁₂ := h₁₁.next (e := Event.sendTestsRun) trivial rfl
    have h₁₃ := h₁₂.next (e := Event.deliveryCall (.transfers .peerDisconnectException)) trivial rfl
    have h₁₄ := h₁₃.next (e := Event.deliveryCall .testsShutdown) trivial rfl
    have h₁₅ := h₁₄.next (e := Event.deliveryEndsCall) trivial rfl
    have h₁₆ := h₁₅.next (e := Event.deliveryTestsRun) trivial rfl
    -- nothing is in use when it is deleted
    have h₁₇ := h₁₆.next (e := Event.teardown) ⟨nofun, nofun⟩ rfl
    have h₁₈ := h₁₇.next (e := Event.teardown) ⟨fun _ => ⟨rfl, rfl⟩, nofun⟩ rfl
    have h₁₉ := h₁₈.next (e := Event.teardown) ⟨nofun, fun _ => rfl⟩ rfl
    have h₂₀ := h₁₉.next (e := Event.teardown) ⟨nofun, nofun⟩ rfl
    have h₂₁ := h₂₀.next (e := Event.teardown) ⟨nofun, nofun⟩ rfl
    have h₂₂ := h₂₁.next (e := Event.teardown) ⟨nofun, nofun⟩ rfl
    have h₂₃ := h₂₂.next (e := Event.teardown) ⟨nofun, nofun⟩ rfl
    have h₂₄ := h₂₃.next (e := Event.teardown) ⟨nofun, nofun⟩ rfl
    exact ⟨_, h₂₄.next (e := Event.teardown) ⟨nofun, nofun⟩ rfl, rfl⟩
  obtain ⟨s, hreach, hreturned⟩ := h
  exact ⟨s, hreach, hreturned, usedAfterDelete_of_deletesUnused hreach⟩

/-- `threadProc` tests `mMessageEndpoint`, and calls `getEnvelope` after the endpoint
    was deleted. -/
def callsAfterDelete : List Event :=
  [.deliveryTestsRun, .deliveryTestsEndpoint, .teardown, .teardown, .teardown, .teardown, .teardown,
    .deliveryCall .calls]

theorem not_forall_usedAfterDelete : ¬ ∀ s, system.Reachable s → s.usedAfterDelete = [] := by
  intro hall
  obtain ⟨s, hreach, hs⟩ := System.exists_reachable_of_run (M := system)
    (fun s => s.usedAfterDelete == [.mMessageEndpoint]) callsAfterDelete
    (s := postConnect true) rfl (by decide)
  have hunused := hall s hreach
  rw [eq_of_beq hs] at hunused
  cases hunused

/-! ## Deletes of what is in use -/

/-- Some run from `s` uses an object that was deleted. -/
def UsesDeleted (s : Connection) : Prop := ∃ s', system.Steps s s' ∧ s'.usedAfterDelete ≠ []

theorem UsesDeleted.of_act (h : s'.UsesDeleted) (hrunning : s.terminated = false) {e : Event}
    (hs : s.act e = some s') : s.UsesDeleted := by
  obtain ⟨s'', hsteps, hused⟩ := h
  refine ⟨s'', Relation.ReflTransGen.head ⟨e, trivial, ?_⟩ hsteps, hused⟩
  show (if s.terminated then none else s.act e) = some s'
  rw [hrunning]
  exact hs

theorem usesDeleted_of_use {ms : List Member} {m : Member} (hm : m ∈ ms)
    (hpointer : s.pointer m ≠ .object) (hused : s'.usedAfterDelete = (s.use ms).usedAfterDelete) :
    s'.UsesDeleted := by
  refine ⟨s', System.StepsWhen.refl s', ?_⟩
  rw [hused]
  refine List.append_ne_nil_of_right_ne_nil _ (List.ne_nil_of_mem (a := m) ?_)
  exact List.mem_filter.mpr ⟨hm, decide_eq_true hpointer⟩

/-- A call of `threadProc` that is in progress when `mMessageEndpoint` is deleted. -/
theorem usesDeleted_of_delivery {mShutdown : Bool} {pc : CallPc} (hleaves : pc.Leaves mShutdown)
    (hshutdown : s.mShutdown = mShutdown) (hrunning : s.terminated = false)
    (hpointer : s.mMessageEndpoint ≠ .object) (hdelivery : s.delivery = .calling pc) :
    s.UsesDeleted := by
  induction hleaves generalizing s with
  | leaving o =>
    have hs : s.act .deliveryEndsCall = some { s.use [.mMessageEndpoint] with
        delivery := o.delivery .dispatching, terminated := o = .otherException } := by
      simp only [Connection.act, hdelivery]
    refine UsesDeleted.of_act ?_ hrunning hs
    exact usesDeleted_of_use (s := s) (m := .mMessageEndpoint) (List.mem_singleton_self _)
      hpointer rfl
  | @step pc pc' c hstep _ ih =>
    -- the endpoint stays deleted while the call takes its next step
    have hs : s.act (.deliveryCall c) = some { s.use pc.uses with delivery := .calling pc' } := by
      simp only [Connection.act, hdelivery, hshutdown, hstep]
      rfl
    refine UsesDeleted.of_act ?_ hrunning hs
    exact ih hshutdown hrunning hpointer rfl

/-- A call of `sendProc` that is in progress when `mMessageEndpoint` is deleted. -/
theorem usesDeleted_of_send {mShutdown : Bool} {pc : CallPc} (hleaves : pc.Leaves mShutdown)
    (hshutdown : s.mShutdown = mShutdown) (hrunning : s.terminated = false)
    (hpointer : s.mMessageEndpoint ≠ .object) (hsend : s.send = .calling pc) :
    s.UsesDeleted := by
  induction hleaves generalizing s with
  | leaving o =>
    have hs : s.act .sendEndsCall = some { s.use [.mMessageEndpoint] with send := .loop } := by
      simp only [Connection.act, hsend]
    refine UsesDeleted.of_act ?_ hrunning hs
    exact usesDeleted_of_use (s := s) (m := .mMessageEndpoint) (List.mem_singleton_self _)
      hpointer rfl
  | @step pc pc' c hstep _ ih =>
    have hs : s.act (.sendCall c) = some { s.use pc.uses with send := .calling pc' } := by
      simp only [Connection.act, hsend, hshutdown, hstep]
      rfl
    refine UsesDeleted.of_act ?_ hrunning hs
    exact ih hshutdown hrunning hpointer rfl

theorem usesDeleted_of_inCall (hrunning : s.terminated = false)
    (hpointer : s.mMessageEndpoint ≠ .object)
    (hcall : s.delivery.inCall = true ∨ s.send.inCall = true) : s.UsesDeleted := by
  rcases hcall with hcall | hcall
  · cases hdelivery : s.delivery with
    | calling pc => exact usesDeleted_of_delivery (pc.leaves _) rfl hrunning hpointer hdelivery
    | loop | testing | dispatching | ended =>
      rw [hdelivery] at hcall
      cases hcall
  · cases hsend : s.send with
    | calling pc => exact usesDeleted_of_send (pc.leaves _) rfl hrunning hpointer hsend
    | loop | popping | waiting | testing | ended =>
      rw [hsend] at hcall
      cases hcall

/-- `sendProc` is in `pop`, or about to call it, when `mOutgoingQueue` is deleted. -/
theorem usesDeleted_of_inPop (hrunning : s.terminated = false)
    (hpointer : s.mOutgoingQueue ≠ .object) (hpop : s.send.inPop = true) : s.UsesDeleted := by
  have hs : s.act .pops = some s.pop := if_pos hpop
  refine UsesDeleted.of_act ?_ hrunning hs
  refine usesDeleted_of_use (s := s) (m := .mOutgoingQueue) (List.mem_singleton_self _) hpointer ?_
  unfold Connection.pop
  split
  · rfl
  · rfl
  · rfl

/-- Nothing less will do: once something in use has been deleted, or a deleted
    endpoint found by a test, some run from there uses it. -/
theorem usesDeleted_of_not_deletesUnused (hrunning : s.terminated = false) {e : Event}
    (hs : s.act e = some s') (hunused : ¬ s.DeletesUnused e) : s'.UsesDeleted := by
  cases e with
  | teardown =>
    unfold DeletesUnused at hunused
    rw [not_and_or] at hunused
    rcases hunused with hunused | hunused
    · -- the endpoint is deleted in the middle of a call
      push Not at hunused
      obtain ⟨hpc, hcall⟩ := hunused
      simp only [Connection.act, Connection.tearDown, hpc, Option.some.injEq] at hs
      rw [← hs]
      refine usesDeleted_of_inCall hrunning (Pointer.delete_ne_object s.mMessageEndpoint) ?_
      by_contra hneither
      push Not at hneither
      exact hcall (Bool.eq_false_iff.mpr hneither.1) (Bool.eq_false_iff.mpr hneither.2)
    · -- the queue is deleted in the middle of `pop`
      push Not at hunused
      obtain ⟨hpc, hpop⟩ := hunused
      simp only [Connection.act, Connection.tearDown, hpc, Option.some.injEq] at hs
      rw [← hs]
      exact usesDeleted_of_inPop hrunning (Pointer.delete_ne_object s.mOutgoingQueue)
        (Bool.eq_true_of_not_eq_false hpop)
  | deliveryTestsEndpoint =>
    -- a dangling pointer passes the test, and the call comes next
    obtain ⟨-, rfl⟩ := of_onlyIf hs
    have hdangling : s.mMessageEndpoint = .dangling := not_not.mp hunused
    refine usesDeleted_of_inCall hrunning (by rw [hdangling]; nofun) (.inl ?_)
    rw [hdangling]
    rfl
  | sendTestsEndpoint =>
    obtain ⟨-, rfl⟩ := of_onlyIf hs
    have hdangling : s.mMessageEndpoint = .dangling := not_not.mp hunused
    refine usesDeleted_of_inCall hrunning (by rw [hdangling]; nofun) (.inr ?_)
    rw [hdangling]
    rfl
  | peerShutdownThrows | deliveryTestsRun | deliveryCall | deliveryEndsCall | dispatches
  | sendTestsRun | pops | sendCall | sendEndsCall | pushes => exact absurd trivial hunused

end Connection

end Arras4Core.Client
