/-
  Arras4Core.Dispatch.Delivery

  What the dispatcher delivers, whatever its threads and callers do: messages
  are handled in the order they were received in and envelopes are put in the
  order they were sent in, none of them twice and none of them skipped, nothing
  moves before dispatching has started, and the two counters are exact up to
  the increment a thread is about to make.
-/

import Arras4Core.Dispatch.MessageDispatcher

namespace Arras4Core.Dispatch

open Arras4Core.Lib
open Arras4Core.Api (Exception UUID)

variable {Envelope : Type*}

/-! ## What a thread has in its hands -/

/-- Received and not yet on the incoming queue. -/
def IncomingPc.pending : IncomingPc Envelope → List Envelope
  | push envelope => [envelope]
  | _ => []

/-- Popped from the incoming queue and not yet passed to the handler. -/
def HandlerPc.pending : HandlerPc Envelope → List Envelope
  | count envelope | callHandler envelope => [envelope]
  | _ => []

/-- Popped from the incoming queue and not yet in `mReceivedCount`. -/
def HandlerPc.uncounted : HandlerPc Envelope → Nat
  | count _ => 1
  | _ => 0

/-- Popped from the outgoing queue and not yet passed to the endpoint. -/
def OutgoingPc.pending : OutgoingPc Envelope → List Envelope
  | callPut envelope => [envelope]
  | _ => []

/-- Heartbeats are not counted. -/
def isCounted (classId : Envelope → UUID) (envelope : Envelope) : Bool :=
  classId envelope ≠ ExecutorHeartbeat.CLASS_ID

/-- Accepted by the endpoint and not yet in `mSentCount`. -/
def OutgoingPc.uncounted (classId : Envelope → UUID) : OutgoingPc Envelope → Nat
  | count envelope => if isCounted classId envelope then 1 else 0
  | _ => 0

@[simp] theorem IncomingPc.pending_afterThrow (reason : Option DispatcherExitReason) :
    (IncomingPc.afterThrow reason : IncomingPc Envelope).pending = [] := by
  cases reason <;> rfl

@[simp] theorem HandlerPc.pending_afterThrow (reason : Option DispatcherExitReason) :
    (HandlerPc.afterThrow reason : HandlerPc Envelope).pending = [] := by
  cases reason <;> rfl

@[simp] theorem HandlerPc.uncounted_afterThrow (reason : Option DispatcherExitReason) :
    (HandlerPc.afterThrow reason : HandlerPc Envelope).uncounted = 0 := by
  cases reason <;> rfl

@[simp] theorem OutgoingPc.pending_afterThrow (reason : Option DispatcherExitReason) :
    (OutgoingPc.afterThrow reason : OutgoingPc Envelope).pending = [] := by
  cases reason <;> rfl

@[simp] theorem OutgoingPc.uncounted_afterThrow (classId : Envelope → UUID)
    (reason : Option DispatcherExitReason) :
    (OutgoingPc.afterThrow reason : OutgoingPc Envelope).uncounted classId = 0 := by
  cases reason <;> rfl

/-- How many of the three threads the master is past creating. -/
def MasterPc.stage : MasterPc → Nat
  | notCreated | lock | startIncoming => 0
  | testDispatching | waitDispatching | startOutgoing => 1
  | startHandler => 2
  | _ => 3

namespace MessageDispatcher

variable {classId : Envelope → UUID} {s s' : MessageDispatcher Envelope}

/-! ## The invariants -/

/-- The way of a message from the endpoint to the handler. -/
structure Receives (s : MessageDispatcher Envelope) : Prop where
  pushed : s.mIncomingQueue.pushed <+: s.got
  got : s.mIncomingQueue.mShutdown = false →
    s.got = s.mIncomingQueue.pushed ++ s.incoming.pending
  handled : s.handled ++ s.handler.pending = s.mIncomingQueue.popped
  counted : ∃ n, s.mReceivedCount = UInt64.ofNat n ∧
    n + s.handler.uncounted = s.mIncomingQueue.popped.length

/-- The way of an envelope from `send` to the endpoint. -/
structure Sends (classId : Envelope → UUID) (s : MessageDispatcher Envelope) : Prop where
  sent : s.sent = s.mOutgoingQueue.pushed
  put : s.put ++ s.outgoing.pending = s.mOutgoingQueue.popped
  counted : ∃ n, s.mSentCount = UInt64.ofNat n ∧
    n + s.outgoing.uncounted classId = s.putReturned.countP (isCounted classId)

/-- Each thread is created once: until the master creates it, it is not there. -/
structure Creates (s : MessageDispatcher Envelope) : Prop where
  master : s.mState = .NotStarted → s.master = .notCreated
  incoming : s.master.stage < 1 → s.incoming = .notCreated
  outgoing : s.master.stage < 2 → s.outgoing = .notCreated
  handler : s.master.stage < 3 → s.handler = .notCreated

/-- Before `startDispatching` neither the outgoing nor the handler thread runs. -/
structure Waits (s : MessageDispatcher Envelope) : Prop where
  state : s.mState ≠ .Dispatching
  outgoing : s.outgoing = .notCreated
  handler : s.handler = .notCreated
  master : s.master ≠ .startOutgoing ∧ s.master ≠ .startHandler
  put : s.put = []
  handled : s.handled = []

/-- What the invariant is about: the rest of the state is free to change. -/
theorem Receives.frame (h : s.Receives) (hqueue : s'.mIncomingQueue = s.mIncomingQueue)
    (hgot : s'.got = s.got) (hhandled : s'.handled = s.handled)
    (hcount : s'.mReceivedCount = s.mReceivedCount)
    (hincoming : s'.incoming.pending = s.incoming.pending)
    (hhandler : s'.handler.pending = s.handler.pending)
    (huncounted : s'.handler.uncounted = s.handler.uncounted) : s'.Receives where
  pushed := by rw [hqueue, hgot]; exact h.pushed
  got := by rw [hqueue, hgot, hincoming]; exact h.got
  handled := by rw [hqueue, hhandled, hhandler]; exact h.handled
  counted := by rw [hqueue, hcount, huncounted]; exact h.counted

theorem Sends.frame (h : s.Sends classId) (hqueue : s'.mOutgoingQueue = s.mOutgoingQueue)
    (hsent : s'.sent = s.sent) (hput : s'.put = s.put) (hcount : s'.mSentCount = s.mSentCount)
    (hreturned : s'.putReturned = s.putReturned)
    (houtgoing : s'.outgoing.pending = s.outgoing.pending)
    (huncounted : s'.outgoing.uncounted classId = s.outgoing.uncounted classId) :
    s'.Sends classId where
  sent := by rw [hqueue, hsent]; exact h.sent
  put := by rw [hqueue, hput, houtgoing]; exact h.put
  counted := by rw [hcount, hreturned, huncounted]; exact h.counted

/-! ## The two queues -/

theorem Receives.pushIncoming (h : s.Receives) {envelope : Envelope}
    (hpc : s.incoming = .push envelope) : (s.pushIncoming envelope).Receives := by
  unfold MessageDispatcher.pushIncoming
  split
  · next hnone =>
    have hshut := ThreadsafeQueue.push_eq_none hnone
    exact { h with got := fun hopen => absurd (hshut.symm.trans hopen) (by decide) }
  · next queue hsome =>
    obtain ⟨hopen, -, hpushed, hpopped⟩ := ThreadsafeQueue.push_eq_some hsome
    -- the queue was open, so what it takes is all that was received
    have hgot : s.got = queue.pushed := by
      rw [h.got hopen, hpc, hpushed]
      rfl
    exact
      { pushed := hgot ▸ List.prefix_refl _
        got := fun _ => by simpa [IncomingPc.pending] using hgot
        handled := by rw [hpopped]; exact h.handled
        counted := by rw [hpopped]; exact h.counted }

theorem Receives.popIncoming (h : s.Receives)
    (hpc : s.handler = .pop ∨ s.handler = .popWait) : s.popIncoming.Receives := by
  have hpending : s.handler.pending = [] := by obtain hpc | hpc := hpc <;> rw [hpc] <;> rfl
  have huncounted : s.handler.uncounted = 0 := by obtain hpc | hpc := hpc <;> rw [hpc] <;> rfl
  have hhandled : s.handled = s.mIncomingQueue.popped := by
    simpa [hpending] using h.handled
  obtain ⟨n, hn, hcount⟩ := h.counted
  rw [huncounted] at hcount
  unfold MessageDispatcher.popIncoming
  split
  · exact { h with
      handled := by simpa using hhandled
      counted := ⟨n, hn, by simpa using hcount⟩ }
  · exact { h with
      handled := by simpa [HandlerPc.pending] using hhandled
      counted := ⟨n, hn, hcount⟩ }
  · next envelope queue hitem =>
    obtain ⟨hpushed, hpopped, hshutdown⟩ := ThreadsafeQueue.pop_eq_item hitem
    exact
      { pushed := by rw [hpushed]; exact h.pushed
        got := by rw [hpushed, hshutdown]; exact h.got
        handled := by rw [hpopped, ← hhandled]; rfl
        counted := ⟨n, hn, by
          rw [hpopped, List.length_append]
          simp only [HandlerPc.uncounted, List.length_singleton]
          omega⟩ }

theorem Sends.send (h : s.Sends classId) (envelope : Envelope) :
    (s.send envelope).Sends classId := by
  unfold MessageDispatcher.send
  split
  · exact h
  · next queue hsome =>
    obtain ⟨-, -, hpushed, hpopped⟩ := ThreadsafeQueue.push_eq_some hsome
    exact { h with
      sent := by rw [hpushed, ← h.sent]
      put := by rw [hpopped]; exact h.put }

theorem Sends.popOutgoing (h : s.Sends classId)
    (hpc : s.outgoing = .pop ∨ s.outgoing = .popWait) : s.popOutgoing.Sends classId := by
  have hpending : s.outgoing.pending = [] := by obtain hpc | hpc := hpc <;> rw [hpc] <;> rfl
  have huncounted : s.outgoing.uncounted classId = 0 := by
    obtain hpc | hpc := hpc <;> rw [hpc] <;> rfl
  have hput : s.put = s.mOutgoingQueue.popped := by simpa [hpending] using h.put
  have hcounted := h.counted
  rw [huncounted] at hcounted
  unfold MessageDispatcher.popOutgoing
  split
  · exact { h with
      put := by simpa using hput
      counted := by simpa using hcounted }
  · exact { h with
      put := by simpa [OutgoingPc.pending] using hput
      counted := hcounted }
  · next envelope queue hitem =>
    obtain ⟨hpushed, hpopped, -⟩ := ThreadsafeQueue.pop_eq_item hitem
    exact
      { sent := by rw [hpushed]; exact h.sent
        put := by rw [hpopped, ← hput]; rfl
        counted := hcounted }

/-! ## One step -/

theorem Creates.masterMoves (h : s.Creates) (pc : MasterPc) (hcreated : s.master ≠ .notCreated)
    (hstage : s.master.stage ≤ pc.stage) : ({ s with master := pc }).Creates where
  master hstate := absurd (h.master hstate) hcreated
  incoming hlt := h.incoming (hstage.trans_lt hlt)
  outgoing hlt := h.outgoing (hstage.trans_lt hlt)
  handler hlt := h.handler (hstage.trans_lt hlt)

variable [DecidableEq Envelope]

theorem Creates.step (h : s.Creates) {e : Event Envelope} (hs : step classId s e = some s') :
    s'.Creates := by
  cases e with
  | send envelope =>
    cases hs
    unfold MessageDispatcher.send
    split <;> exact { h with }
  | startQueueing =>
    obtain ⟨-, rfl⟩ := of_onlyIf hs
    unfold MessageDispatcher.startQueueing
    split
    · exact h
    · next hstate =>
      -- the master is created, and the three threads are not there yet
      have hmaster := h.master (by simpa using hstate)
      exact
        { master := nofun
          incoming := fun _ => h.incoming (by rw [hmaster]; decide)
          outgoing := fun _ => h.outgoing (by rw [hmaster]; decide)
          handler := fun _ => h.handler (by rw [hmaster]; decide) }
  | startDispatching =>
    obtain ⟨-, rfl⟩ := of_onlyIf hs
    unfold MessageDispatcher.startDispatching
    split
    · exact h
    · exact { h with master := nofun }
  | postQuit =>
    obtain ⟨-, rfl⟩ := of_onlyIf hs
    unfold MessageDispatcher.postQuit
    split
    · exact h
    · exact { h with master := nofun }
  | postError reason =>
    obtain ⟨-, rfl⟩ := of_onlyIf hs
    exact { h with master := nofun }
  | joinMaster | waitForExitReturns =>
    obtain ⟨-, rfl⟩ := of_onlyIf hs
    exact { h with }
  | incomingTests | getEnvelopeReturns | getEnvelopeThrows =>
    obtain ⟨hpc, rfl⟩ := of_onlyIf hs
    exact { h with incoming := fun hlt => absurd (h.incoming hlt) (by rw [hpc]; nofun) }
  | incomingPushes envelope =>
    obtain ⟨hpc, rfl⟩ := of_onlyIf hs
    unfold MessageDispatcher.pushIncoming
    split <;>
      exact { h with incoming := fun hlt => absurd (h.incoming hlt) (by rw [hpc]; nofun) }
  | incomingPosts reason =>
    obtain ⟨⟨hpc, -⟩, rfl⟩ := of_onlyIf hs
    exact { h with
      master := nofun
      incoming := fun hlt => absurd (h.incoming hlt) (by rw [hpc]; nofun) }
  | outgoingTests | putEnvelopeCalled | putEnvelopeReturns | putEnvelopeThrows | outgoingCounts =>
    obtain ⟨hpc, rfl⟩ := of_onlyIf hs
    exact { h with outgoing := fun hlt => absurd (h.outgoing hlt) (by rw [hpc]; nofun) }
  | outgoingPops =>
    obtain ⟨hpc, rfl⟩ := of_onlyIf hs
    have hnot : ¬ s.master.stage < 2 := fun hlt => by
      obtain hpc | hpc := hpc <;> exact absurd (h.outgoing hlt) (by rw [hpc]; nofun)
    unfold MessageDispatcher.popOutgoing
    split <;> exact { h with outgoing := fun hlt => absurd hlt hnot }
  | outgoingPosts reason =>
    obtain ⟨⟨hpc, -⟩, rfl⟩ := of_onlyIf hs
    exact { h with
      master := nofun
      outgoing := fun hlt => absurd (h.outgoing hlt) (by rw [hpc]; nofun) }
  | handlerTests | handlerCounts | handleMessageCalled | handlerReturns | handlerThrows =>
    obtain ⟨hpc, rfl⟩ := of_onlyIf hs
    exact { h with handler := fun hlt => absurd (h.handler hlt) (by rw [hpc]; nofun) }
  | handlerPops =>
    obtain ⟨hpc, rfl⟩ := of_onlyIf hs
    have hnot : ¬ s.master.stage < 3 := fun hlt => by
      obtain hpc | hpc := hpc <;> exact absurd (h.handler hlt) (by rw [hpc]; nofun)
    unfold MessageDispatcher.popIncoming
    split <;> exact { h with handler := fun hlt => absurd hlt hnot }
  | handlerTimesOut =>
    obtain ⟨⟨hpc, -⟩, rfl⟩ := of_onlyIf hs
    exact { h with handler := fun hlt => absurd (h.handler hlt) (by rw [hpc]; nofun) }
  | handlerPosts reason =>
    obtain ⟨⟨hpc, -⟩, rfl⟩ := of_onlyIf hs
    exact { h with
      master := nofun
      handler := fun hlt => absurd (h.handler hlt) (by rw [hpc]; nofun) }
  | masterLocks | masterWakesDispatching | masterWakesExiting | masterShutsSource | masterUnlocks =>
    obtain ⟨hpc, rfl⟩ := of_onlyIf hs
    exact h.masterMoves _ (by rw [hpc]; nofun) (by rw [hpc]; decide)
  | masterStartsIncoming =>
    obtain ⟨hpc, rfl⟩ := of_onlyIf hs
    have hmoved := h.masterMoves .testDispatching (by rw [hpc]; nofun) (by rw [hpc]; decide)
    exact { hmoved with incoming := nofun }
  | masterTestsDispatching =>
    obtain ⟨hpc, rfl⟩ := of_onlyIf hs
    refine h.masterMoves _ (by rw [hpc]; nofun) ?_
    rw [hpc]
    split
    · decide
    · split <;> decide
  | masterTestsExiting =>
    obtain ⟨hpc, rfl⟩ := of_onlyIf hs
    refine h.masterMoves _ (by rw [hpc]; nofun) ?_
    rw [hpc]
    split <;> decide
  | masterStartsOutgoing =>
    obtain ⟨hpc, rfl⟩ := of_onlyIf hs
    have hmoved := h.masterMoves .startHandler (by rw [hpc]; nofun) (by rw [hpc]; decide)
    exact { hmoved with outgoing := nofun }
  | masterStartsHandler =>
    obtain ⟨hpc, rfl⟩ := of_onlyIf hs
    have hmoved := h.masterMoves .testExiting (by rw [hpc]; nofun) (by rw [hpc]; decide)
    exact { hmoved with handler := nofun }
  | masterShutsIncoming | masterShutsOutgoing | masterNotifies =>
    obtain ⟨hpc, rfl⟩ := of_onlyIf hs
    exact { h.masterMoves _ (by rw [hpc]; nofun) (by rw [hpc]; decide) with }
  | masterJoinsIncoming | masterJoinsOutgoing | masterJoinsHandler =>
    obtain ⟨⟨hpc, -⟩, rfl⟩ := of_onlyIf hs
    exact h.masterMoves _ (by rw [hpc]; nofun) (by rw [hpc]; decide)
  | masterExits =>
    obtain ⟨hpc, rfl⟩ := of_onlyIf hs
    exact { h.masterMoves _ (by rw [hpc]; nofun) (by rw [hpc]; decide) with master := nofun }

/-- A step keeps the invariant of the received messages. -/
theorem Receives.step (h : s.Receives) (hc : s.Creates) {e : Event Envelope}
    (hs : step classId s e = some s') : s'.Receives := by
  cases e with
  | send envelope =>
    cases hs
    unfold MessageDispatcher.send
    split <;> exact { h with }
  | startQueueing =>
    obtain ⟨-, rfl⟩ := of_onlyIf hs
    unfold MessageDispatcher.startQueueing
    split <;> exact { h with }
  | startDispatching =>
    obtain ⟨-, rfl⟩ := of_onlyIf hs
    unfold MessageDispatcher.startDispatching
    split <;> exact { h with }
  | postQuit =>
    obtain ⟨-, rfl⟩ := of_onlyIf hs
    unfold MessageDispatcher.postQuit
    split <;> exact { h with }
  | incomingTests =>
    obtain ⟨hpc, rfl⟩ := of_onlyIf hs
    refine h.frame rfl rfl rfl rfl ?_ rfl rfl
    rw [hpc]
    split <;> rfl
  | getEnvelopeReturns envelope =>
    obtain ⟨hpc, rfl⟩ := of_onlyIf hs
    -- the message is pending until it is pushed, and lost if the queue is shut down by then
    refine { h with pushed := h.pushed.trans (List.prefix_append _ _), got := fun hopen => ?_ }
    have hgot := h.got hopen
    rw [hpc] at hgot
    simpa [IncomingPc.pending] using hgot
  | getEnvelopeThrows e =>
    obtain ⟨hpc, rfl⟩ := of_onlyIf hs
    refine h.frame rfl rfl rfl rfl ?_ rfl rfl
    rw [hpc]
    exact IncomingPc.pending_afterThrow _
  | incomingPushes envelope =>
    obtain ⟨hpc, rfl⟩ := of_onlyIf hs
    exact h.pushIncoming hpc
  | incomingPosts reason =>
    obtain ⟨⟨hpc, -⟩, rfl⟩ := of_onlyIf hs
    exact h.frame rfl rfl rfl rfl (by rw [hpc]; rfl) rfl rfl
  | outgoingPops =>
    obtain ⟨-, rfl⟩ := of_onlyIf hs
    unfold MessageDispatcher.popOutgoing
    split <;> exact { h with }
  | handlerTests =>
    obtain ⟨hpc, rfl⟩ := of_onlyIf hs
    refine h.frame rfl rfl rfl rfl rfl ?_ ?_ <;> rw [hpc] <;> split <;> rfl
  | handlerPops =>
    obtain ⟨hpc, rfl⟩ := of_onlyIf hs
    exact h.popIncoming hpc
  | handlerTimesOut =>
    obtain ⟨⟨hpc, -⟩, rfl⟩ := of_onlyIf hs
    exact h.frame rfl rfl rfl rfl rfl (by rw [hpc]; rfl) (by rw [hpc]; rfl)
  | handlerCounts envelope =>
    obtain ⟨hpc, rfl⟩ := of_onlyIf hs
    have hhandled := h.handled
    obtain ⟨n, hn, hcount⟩ := h.counted
    rw [hpc] at hhandled hcount
    -- the counter wraps around where `UInt64.ofNat` does
    refine { h with handled := hhandled, counted := ⟨n + 1, ?_, hcount⟩ }
    rw [UInt64.ofNat_add, ← hn]
    rfl
  | handleMessageCalled envelope =>
    obtain ⟨hpc, rfl⟩ := of_onlyIf hs
    have hhandled := h.handled
    have hcounted := h.counted
    rw [hpc] at hhandled hcounted
    exact { h with handled := by simpa [HandlerPc.pending] using hhandled, counted := hcounted }
  | handlerReturns =>
    obtain ⟨hpc, rfl⟩ := of_onlyIf hs
    exact h.frame rfl rfl rfl rfl rfl (by rw [hpc]; rfl) (by rw [hpc]; rfl)
  | handlerThrows e =>
    obtain ⟨hpc, rfl⟩ := of_onlyIf hs
    refine h.frame rfl rfl rfl rfl rfl ?_ ?_ <;> rw [hpc]
    · exact HandlerPc.pending_afterThrow _
    · exact HandlerPc.uncounted_afterThrow _
  | handlerPosts reason =>
    obtain ⟨⟨hpc, -⟩, rfl⟩ := of_onlyIf hs
    exact h.frame rfl rfl rfl rfl rfl (by rw [hpc]; rfl) (by rw [hpc]; rfl)
  | masterStartsIncoming =>
    obtain ⟨hpc, rfl⟩ := of_onlyIf hs
    -- a thread that is just created has nothing in its hands, nor had it before
    have hincoming := hc.incoming (by rw [hpc]; decide)
    exact h.frame rfl rfl rfl rfl (by rw [hincoming]; rfl) rfl rfl
  | masterStartsHandler =>
    obtain ⟨hpc, rfl⟩ := of_onlyIf hs
    have hhandler := hc.handler (by rw [hpc]; decide)
    exact h.frame rfl rfl rfl rfl rfl (by rw [hhandler]; rfl) (by rw [hhandler]; rfl)
  | masterShutsIncoming =>
    obtain ⟨-, rfl⟩ := of_onlyIf hs
    exact { h with got := nofun }
  | _ =>
    obtain ⟨-, rfl⟩ := of_onlyIf hs
    exact { h with }

/-- A step keeps the invariant of the sent envelopes. -/
theorem Sends.step (h : s.Sends classId) (hc : s.Creates) {e : Event Envelope}
    (hs : step classId s e = some s') : s'.Sends classId := by
  cases e with
  | send envelope =>
    cases hs
    exact h.send envelope
  | startQueueing =>
    obtain ⟨-, rfl⟩ := of_onlyIf hs
    unfold MessageDispatcher.startQueueing
    split <;> exact { h with }
  | startDispatching =>
    obtain ⟨-, rfl⟩ := of_onlyIf hs
    unfold MessageDispatcher.startDispatching
    split <;> exact { h with }
  | postQuit =>
    obtain ⟨-, rfl⟩ := of_onlyIf hs
    unfold MessageDispatcher.postQuit
    split <;> exact { h with }
  | incomingPushes envelope =>
    obtain ⟨-, rfl⟩ := of_onlyIf hs
    unfold MessageDispatcher.pushIncoming
    split <;> exact { h with }
  | handlerPops =>
    obtain ⟨-, rfl⟩ := of_onlyIf hs
    unfold MessageDispatcher.popIncoming
    split <;> exact { h with }
  | outgoingTests =>
    obtain ⟨hpc, rfl⟩ := of_onlyIf hs
    refine h.frame rfl rfl rfl rfl rfl ?_ ?_ <;> rw [hpc] <;> split <;> rfl
  | outgoingPops =>
    obtain ⟨hpc, rfl⟩ := of_onlyIf hs
    exact h.popOutgoing hpc
  | putEnvelopeCalled envelope =>
    obtain ⟨hpc, rfl⟩ := of_onlyIf hs
    have hput := h.put
    have hcounted := h.counted
    rw [hpc] at hput hcounted
    exact { h with put := by simpa [OutgoingPc.pending] using hput, counted := hcounted }
  | putEnvelopeReturns envelope =>
    obtain ⟨hpc, rfl⟩ := of_onlyIf hs
    have hput := h.put
    obtain ⟨n, hn, hcount⟩ := h.counted
    rw [hpc] at hput hcount
    refine { h with put := hput, counted := ⟨n, hn, ?_⟩ }
    rw [List.countP_append, ← hcount, List.countP_singleton]
    rfl
  | putEnvelopeThrows envelope e =>
    obtain ⟨hpc, rfl⟩ := of_onlyIf hs
    refine h.frame rfl rfl rfl rfl rfl ?_ ?_ <;> rw [hpc]
    · exact OutgoingPc.pending_afterThrow _
    · exact OutgoingPc.uncounted_afterThrow _ _
  | outgoingCounts envelope =>
    obtain ⟨hpc, rfl⟩ := of_onlyIf hs
    have hput := h.put
    obtain ⟨n, hn, hcount⟩ := h.counted
    rw [hpc] at hput hcount
    refine { h with put := hput, counted := ?_ }
    by_cases hkind : classId envelope ≠ ExecutorHeartbeat.CLASS_ID
    · refine ⟨n + 1, ?_, ?_⟩
      · rw [if_pos hkind, UInt64.ofNat_add, ← hn]
        rfl
      · simpa [OutgoingPc.uncounted, isCounted, hkind] using hcount
    · -- a heartbeat is in neither count
      refine ⟨n, ?_, ?_⟩
      · rw [if_neg hkind, hn]
      · simpa [OutgoingPc.uncounted, isCounted, hkind] using hcount
  | outgoingPosts reason =>
    obtain ⟨⟨hpc, -⟩, rfl⟩ := of_onlyIf hs
    exact h.frame rfl rfl rfl rfl rfl (by rw [hpc]; rfl) (by rw [hpc]; rfl)
  | masterStartsOutgoing =>
    obtain ⟨hpc, rfl⟩ := of_onlyIf hs
    have houtgoing := hc.outgoing (by rw [hpc]; decide)
    exact h.frame rfl rfl rfl rfl rfl (by rw [houtgoing]; rfl) (by rw [houtgoing]; rfl)
  | masterShutsOutgoing =>
    obtain ⟨-, rfl⟩ := of_onlyIf hs
    exact { h with }
  | _ =>
    obtain ⟨-, rfl⟩ := of_onlyIf hs
    exact { h with }

/-- A step that is not the call of `startDispatching` keeps the threads waiting. -/
theorem Waits.step (h : s.Waits) {e : Event Envelope} (hs : step classId s e = some s')
    (hcalled : s'.dispatchCalled = false) : s'.Waits := by
  cases e with
  | send envelope =>
    cases hs
    unfold MessageDispatcher.send
    split <;> exact { h with }
  | startQueueing =>
    obtain ⟨-, rfl⟩ := of_onlyIf hs
    unfold MessageDispatcher.startQueueing
    split
    · exact h
    · exact { h with state := nofun, master := ⟨nofun, nofun⟩ }
  | startDispatching =>
    obtain ⟨-, rfl⟩ := of_onlyIf hs
    unfold MessageDispatcher.startDispatching at hcalled ⊢
    split at hcalled
    · next hstate =>
      rw [if_pos hstate]
      exact h
    · -- the call has been made
      cases hcalled
  | postQuit =>
    obtain ⟨-, rfl⟩ := of_onlyIf hs
    unfold MessageDispatcher.postQuit
    split
    · exact h
    · exact { h with state := nofun }
  | postError reason | incomingPosts reason =>
    obtain ⟨-, rfl⟩ := of_onlyIf hs
    exact { h with state := nofun }
  | incomingPushes envelope =>
    obtain ⟨-, rfl⟩ := of_onlyIf hs
    unfold MessageDispatcher.pushIncoming
    split <;> exact { h with }
  | outgoingTests | putEnvelopeCalled | putEnvelopeReturns | putEnvelopeThrows | outgoingCounts =>
    obtain ⟨hpc, rfl⟩ := of_onlyIf hs
    exact absurd (hpc.symm.trans h.outgoing) nofun
  | outgoingPops =>
    obtain ⟨hpc | hpc, rfl⟩ := of_onlyIf hs <;> exact absurd (hpc.symm.trans h.outgoing) nofun
  | outgoingPosts reason =>
    obtain ⟨⟨hpc, -⟩, rfl⟩ := of_onlyIf hs
    exact absurd (hpc.symm.trans h.outgoing) nofun
  | handlerTests | handlerCounts | handleMessageCalled | handlerReturns | handlerThrows =>
    obtain ⟨hpc, rfl⟩ := of_onlyIf hs
    exact absurd (hpc.symm.trans h.handler) nofun
  | handlerPops =>
    obtain ⟨hpc | hpc, rfl⟩ := of_onlyIf hs <;> exact absurd (hpc.symm.trans h.handler) nofun
  | handlerTimesOut | handlerPosts reason =>
    obtain ⟨⟨hpc, -⟩, rfl⟩ := of_onlyIf hs
    exact absurd (hpc.symm.trans h.handler) nofun
  | masterTestsDispatching =>
    obtain ⟨-, rfl⟩ := of_onlyIf hs
    refine { h with master := ?_ }
    -- the master goes back to waiting, or on to the shutdown if it has been told to exit
    simp only [if_neg h.state]
    split <;> exact ⟨nofun, nofun⟩
  | masterStartsOutgoing =>
    obtain ⟨hpc, rfl⟩ := of_onlyIf hs
    exact absurd hpc h.master.1
  | masterStartsHandler =>
    obtain ⟨hpc, rfl⟩ := of_onlyIf hs
    exact absurd hpc h.master.2
  | masterTestsExiting =>
    obtain ⟨-, rfl⟩ := of_onlyIf hs
    refine { h with master := ?_ }
    split <;> exact ⟨nofun, nofun⟩
  | masterExits =>
    obtain ⟨-, rfl⟩ := of_onlyIf hs
    exact { h with state := nofun, master := ⟨nofun, nofun⟩ }
  | joinMaster | waitForExitReturns | getEnvelopeReturns | getEnvelopeThrows | incomingTests =>
    obtain ⟨-, rfl⟩ := of_onlyIf hs
    exact { h with }
  | _ =>
    obtain ⟨-, rfl⟩ := of_onlyIf hs
    exact { h with master := ⟨nofun, nofun⟩ }

/-- Once called, `startDispatching` stays called. -/
theorem dispatchCalled_step {e : Event Envelope} (hs : step classId s e = some s')
    (hcalled : s'.dispatchCalled = false) : s.dispatchCalled = false := by
  cases e with
  | send envelope =>
    cases hs
    unfold MessageDispatcher.send at hcalled
    split at hcalled <;> exact hcalled
  | startQueueing =>
    obtain ⟨-, rfl⟩ := of_onlyIf hs
    unfold MessageDispatcher.startQueueing at hcalled
    split at hcalled <;> exact hcalled
  | startDispatching =>
    obtain ⟨-, rfl⟩ := of_onlyIf hs
    unfold MessageDispatcher.startDispatching at hcalled
    split at hcalled
    · exact hcalled
    · cases hcalled
  | postQuit =>
    obtain ⟨-, rfl⟩ := of_onlyIf hs
    unfold MessageDispatcher.postQuit at hcalled
    split at hcalled <;> exact hcalled
  | incomingPushes envelope =>
    obtain ⟨-, rfl⟩ := of_onlyIf hs
    unfold MessageDispatcher.pushIncoming at hcalled
    split at hcalled <;> exact hcalled
  | outgoingPops =>
    obtain ⟨-, rfl⟩ := of_onlyIf hs
    unfold MessageDispatcher.popOutgoing at hcalled
    split at hcalled <;> exact hcalled
  | handlerPops =>
    obtain ⟨-, rfl⟩ := of_onlyIf hs
    unfold MessageDispatcher.popIncoming at hcalled
    split at hcalled <;> exact hcalled
  | _ =>
    obtain ⟨-, rfl⟩ := of_onlyIf hs
    exact hcalled

/-! ## Every run -/

/-- What holds of the dispatcher in every state. -/
structure Invariant (classId : Envelope → UUID) (s : MessageDispatcher Envelope) : Prop where
  creates : s.Creates
  receives : s.Receives
  sends : s.Sends classId
  waits : s.dispatchCalled = false → s.Waits

theorem invariant_of_reachable (h : (system classId).Reachable s) : s.Invariant classId := by
  refine h.invariant ?_ ?_
  · rintro _ ⟨reason, idleInterval, rfl⟩
    exact
      { creates := ⟨fun _ => rfl, fun _ => rfl, fun _ => rfl, fun _ => rfl⟩
        receives := ⟨List.prefix_refl _, fun _ => rfl, rfl, 0, rfl, rfl⟩
        sends := ⟨rfl, rfl, 0, rfl, rfl⟩
        waits := fun _ => ⟨nofun, rfl, rfl, ⟨nofun, nofun⟩, rfl, rfl⟩ }
  · intro s e s' hi _ hs
    exact
      { creates := hi.creates.step hs
        receives := hi.receives.step hi.creates hs
        sends := hi.sends.step hi.creates hs
        waits := fun hcalled => (hi.waits (dispatchCalled_step hs hcalled)).step hs hcalled }

/-- **Delivery.**  In every reachable state what was handled is a prefix of what
    was received and what was put is a prefix of what was sent, both are empty
    until dispatching has started, and the counters lack at most the envelope a
    thread is about to count. -/
theorem delivery (h : (system classId).Reachable s) :
    s.handled <+: s.got ∧
    s.put <+: s.sent ∧
    (s.dispatchCalled = false → s.handled = [] ∧ s.put = []) ∧
    s.mSentCount =
      UInt64.ofNat (s.putReturned.countP (isCounted classId) - s.outgoing.uncounted classId) ∧
    s.mReceivedCount = UInt64.ofNat (s.mIncomingQueue.popped.length - s.handler.uncounted) := by
  have hi := invariant_of_reachable h
  have hhandled : s.handled <+: s.mIncomingQueue.popped :=
    hi.receives.handled ▸ List.prefix_append _ _
  have hput : s.put <+: s.mOutgoingQueue.popped := hi.sends.put ▸ List.prefix_append _ _
  refine ⟨?_, ?_, fun hcalled => ⟨(hi.waits hcalled).handled, (hi.waits hcalled).put⟩, ?_, ?_⟩
  · exact (hhandled.trans (ThreadsafeQueue.popped_prefix_pushed _)).trans hi.receives.pushed
  · rw [hi.sends.sent]
    exact hput.trans (ThreadsafeQueue.popped_prefix_pushed _)
  · obtain ⟨n, hn, hcount⟩ := hi.sends.counted
    rw [hn, ← hcount, Nat.add_sub_cancel]
  · obtain ⟨n, hn, hcount⟩ := hi.receives.counted
    rw [hn, ← hcount, Nat.add_sub_cancel]

/-! ## One run -/

/-- One message is received, dispatching starts, and the handler thread pops the
    message. -/
def popsOne (envelope : UUID) : List (Event UUID) :=
  [.startQueueing, .masterLocks, .masterStartsIncoming, .masterTestsDispatching,
    .incomingTests, .getEnvelopeReturns envelope, .incomingPushes envelope,
    .startDispatching, .masterWakesDispatching, .masterTestsDispatching,
    .masterStartsOutgoing, .masterStartsHandler, .masterTestsExiting,
    .handlerTests, .handlerPops]

/-- The message is handled, and another one is sent and put. -/
def handlesAndPuts (received sent : UUID) : List (Event UUID) :=
  [.handlerCounts received, .handleMessageCalled received, .send sent,
    .outgoingTests, .outgoingPops, .putEnvelopeCalled sent, .putEnvelopeReturns sent,
    .outgoingCounts sent]

def deliversTwo (received sent : UUID) : List (Event UUID) :=
  popsOne received ++ handlesAndPuts received sent

def newDispatcher : MessageDispatcher UUID := { mExitReason := .None, mIdleInterval := 0 }

theorem newDispatcher_init : (system id).init newDispatcher := ⟨_, _, rfl⟩

theorem delivery_two : ∃ s : MessageDispatcher UUID,
    (s.handled = [UUID.null] ∧ s.put = [UUID.null] ∧ s.mSentCount = 1 ∧ s.mReceivedCount = 1) ∧
    s.handled <+: s.got ∧ s.put <+: s.sent := by
  obtain ⟨s, hreach, hs⟩ := System.exists_reachable_of_run
    (fun s : MessageDispatcher UUID => decide (s.handled = [UUID.null] ∧ s.put = [UUID.null] ∧
      s.mSentCount = 1 ∧ s.mReceivedCount = 1))
    (deliversTwo UUID.null UUID.null) newDispatcher_init (by decide)
  exact ⟨s, of_decide_eq_true hs, (delivery hreach).1, (delivery hreach).2.1⟩

/-- Between the pop and the increment `mReceivedCount` lags behind. -/
theorem not_forall_receivedCount_eq_popped :
    ¬ ∀ s : MessageDispatcher UUID, (system id).Reachable s →
      s.mReceivedCount = UInt64.ofNat s.mIncomingQueue.popped.length := by
  intro hall
  obtain ⟨s, hreach, hs⟩ := System.exists_reachable_of_run
    (fun s : MessageDispatcher UUID =>
      decide (s.mReceivedCount = 0 ∧ s.mIncomingQueue.popped.length = 1))
    (popsOne UUID.null) newDispatcher_init (by decide)
  obtain ⟨hcount, hpopped⟩ := of_decide_eq_true hs
  have := hall s hreach
  rw [hcount, hpopped] at this
  exact absurd this (by decide)

end MessageDispatcher

end Arras4Core.Dispatch
