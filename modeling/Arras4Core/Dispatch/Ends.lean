/-
  Arras4Core.Dispatch.Ends

  A dispatcher that is told to exit does exit.  The master shuts the queues and the
  endpoint, so that no thread stays in a call, and then joins the threads one after
  the other.

  The steps of a thread include the ends of the calls it is in: that a run is fair says
  of the endpoint and of the message handler that their calls end, and of a wait that
  it wakes when its condition holds, as whoever makes it hold notifies.

  Main result: `MessageDispatcher.ends_of_exiting`.
-/

import Arras4Core.Dispatch.Delivery
import Arras4Core.Dispatch.Joins
import Arras4Core.Lib.Fair

namespace Arras4Core.Dispatch

open Arras4Core.Lib
open Arras4Core.Api (Exception UUID)

variable {Envelope : Type*}

/-! ## What is left to do -/

/-- How many steps a thread may take to its end, its loop left out. -/
def IncomingPc.left : IncomingPc Envelope → Nat
  | notCreated | returned => 0
  | testState => 1
  | postError _ => 2
  | push _ => 3
  | getEnvelope => 4

def OutgoingPc.left : OutgoingPc Envelope → Nat
  | notCreated | returned => 0
  | testState => 1
  | postError _ | count _ => 2
  | inPut _ => 3
  | callPut _ => 4
  | popWait => 5
  | pop => 6

def HandlerPc.left : HandlerPc Envelope → Nat
  | notCreated | returned => 0
  | testState => 1
  | postError _ => 2
  | inHandler => 3
  | callHandler _ => 4
  | count _ => 5
  | popWait => 6
  | pop => 7

/-- The same for the master, with a step more for each thread it has yet to create. -/
def MasterPc.left : MasterPc → Nat
  | notCreated | returned => 0
  | setExited => 1
  | notifyObserver => 2
  | joinHandler => 3
  | joinOutgoing => 4
  | joinIncoming => 5
  | unlock => 6
  | shutdownSource => 7
  | shutdownOutgoing => 8
  | shutdownIncoming => 9
  | testExiting => 10
  | waitExiting => 11
  | startHandler => 12
  | startOutgoing => 14
  | testDispatching => 15
  | waitDispatching => 16
  | startIncoming => 17
  | lock => 18

theorem IncomingPc.left_afterThrow_le (reason : Option DispatcherExitReason) :
    (IncomingPc.afterThrow reason : IncomingPc Envelope).left ≤ 2 := by
  cases reason with
  | none => exact Nat.le_succ 1
  | some reason => exact Nat.le_refl 2

theorem OutgoingPc.left_afterThrow_le (reason : Option DispatcherExitReason) :
    (OutgoingPc.afterThrow reason : OutgoingPc Envelope).left ≤ 2 := by
  cases reason with
  | none => exact Nat.le_succ 1
  | some reason => exact Nat.le_refl 2

theorem HandlerPc.left_afterThrow_le (reason : Option DispatcherExitReason) :
    (HandlerPc.afterThrow reason : HandlerPc Envelope).left ≤ 2 := by
  cases reason with
  | none => exact Nat.le_succ 1
  | some reason => exact Nat.le_refl 2

/-- How many of the two queues the master has shut down. -/
def MasterPc.shut : MasterPc → Nat
  | shutdownOutgoing => 1
  | shutdownSource | unlock | joinIncoming | joinOutgoing | joinHandler | notifyObserver
  | setExited | returned => 2
  | _ => 0

/-- The master has notified the observer. -/
def MasterPc.notified : MasterPc → Bool
  | setExited | returned => true
  | _ => false

namespace MessageDispatcher

variable {classId : Envelope → UUID} {s s' : MessageDispatcher Envelope}

inductive Thread
  | master | incoming | outgoing | handler

/-- The thread that takes a step; `none` for the calls of other threads. -/
def Event.thread : Event Envelope → Option Thread
  | .send _ | .startQueueing | .startDispatching | .postQuit | .postError _ | .joinMaster
  | .waitForExitReturns => none
  | .incomingTests | .getEnvelopeReturns _ | .getEnvelopeThrows _ | .incomingPushes _
  | .incomingPosts _ => some .incoming
  | .outgoingTests | .outgoingPops | .putEnvelopeCalled _ | .putEnvelopeReturns _
  | .putEnvelopeThrows _ _ | .outgoingCounts _ | .outgoingPosts _ => some .outgoing
  | .handlerTests | .handlerPops | .handlerTimesOut | .handlerCounts _ | .handleMessageCalled _
  | .handlerReturns | .handlerThrows _ | .handlerPosts _ => some .handler
  | .masterLocks | .masterStartsIncoming | .masterTestsDispatching | .masterWakesDispatching
  | .masterStartsOutgoing | .masterStartsHandler | .masterTestsExiting | .masterWakesExiting
  | .masterShutsIncoming | .masterShutsOutgoing | .masterShutsSource | .masterUnlocks
  | .masterJoinsIncoming | .masterJoinsOutgoing | .masterJoinsHandler | .masterNotifies
  | .masterExits => some .master

def left (s : MessageDispatcher Envelope) : Nat :=
  s.master.left + s.incoming.left + s.outgoing.left + s.handler.left

/-! ## The queues and the observer -/

/-- What the master has done, by where it is. -/
structure Shuts (s : MessageDispatcher Envelope) : Prop where
  incoming : 1 ≤ s.master.shut → s.mIncomingQueue.mShutdown = true
  outgoing : 2 ≤ s.master.shut → s.mOutgoingQueue.mShutdown = true
  observed : s.observed.length = s.master.notified.toNat

/-- A move of the master that shuts nothing down. -/
theorem Shuts.masterMoves (h : s.Shuts) {pc : MasterPc} (hshut : pc.shut ≤ s.master.shut)
    (hnotified : pc.notified = s.master.notified) : ({ s with master := pc }).Shuts where
  incoming hle := h.incoming (hle.trans hshut)
  outgoing hle := h.outgoing (hle.trans hshut)
  observed := by rw [hnotified]; exact h.observed

/-- A queue that is shut down stays so. -/
theorem Shuts.frame (h : s.Shuts) (hmaster : s'.master = s.master)
    (hincoming : s'.mIncomingQueue.mShutdown = s.mIncomingQueue.mShutdown)
    (houtgoing : s'.mOutgoingQueue.mShutdown = s.mOutgoingQueue.mShutdown)
    (hobserved : s'.observed = s.observed) : s'.Shuts where
  incoming := by rw [hmaster, hincoming]; exact h.incoming
  outgoing := by rw [hmaster, houtgoing]; exact h.outgoing
  observed := by rw [hobserved, hmaster]; exact h.observed

variable [DecidableEq Envelope]

theorem Shuts.step (h : s.Shuts) (hc : s.Creates) {e : Event Envelope}
    (hs : step classId s e = some s') :
    s'.Shuts := by
  cases e with
  | send envelope =>
    cases hs
    unfold MessageDispatcher.send
    split
    · exact h
    · next queue hpush =>
      obtain ⟨hopen, hopen', -⟩ := ThreadsafeQueue.push_eq_some hpush
      exact h.frame rfl rfl (hopen'.trans hopen.symm) rfl
  | startQueueing =>
    obtain ⟨-, rfl⟩ := of_onlyIf hs
    unfold MessageDispatcher.startQueueing
    split
    · exact h
    · next hstate =>
      have hpc := hc.master (not_not.mp hstate)
      have hmoved : ({ s with master := .lock }).Shuts :=
        h.masterMoves (Nat.zero_le _) (by rw [hpc]; rfl)
      exact hmoved.frame rfl rfl rfl rfl
  | startDispatching =>
    obtain ⟨-, rfl⟩ := of_onlyIf hs
    unfold MessageDispatcher.startDispatching
    split <;> exact h.frame rfl rfl rfl rfl
  | postQuit =>
    obtain ⟨-, rfl⟩ := of_onlyIf hs
    unfold MessageDispatcher.postQuit
    split <;> exact h.frame rfl rfl rfl rfl
  | incomingPushes envelope =>
    obtain ⟨-, rfl⟩ := of_onlyIf hs
    unfold MessageDispatcher.pushIncoming
    split
    · exact h.frame rfl rfl rfl rfl
    · next queue hpush =>
      obtain ⟨hopen, hopen', -⟩ := ThreadsafeQueue.push_eq_some hpush
      exact h.frame rfl (hopen'.trans hopen.symm) rfl rfl
  | outgoingPops =>
    obtain ⟨-, rfl⟩ := of_onlyIf hs
    unfold MessageDispatcher.popOutgoing
    split
    · exact h.frame rfl rfl rfl rfl
    · exact h.frame rfl rfl rfl rfl
    · next queue hpop => exact h.frame rfl rfl (ThreadsafeQueue.pop_eq_item hpop).2.2 rfl
  | handlerPops =>
    obtain ⟨-, rfl⟩ := of_onlyIf hs
    unfold MessageDispatcher.popIncoming
    split
    · exact h.frame rfl rfl rfl rfl
    · exact h.frame rfl rfl rfl rfl
    · next queue hpop => exact h.frame rfl (ThreadsafeQueue.pop_eq_item hpop).2.2 rfl rfl
  | masterLocks | masterStartsIncoming | masterWakesDispatching | masterStartsOutgoing
  | masterStartsHandler | masterWakesExiting =>
    obtain ⟨hpc, rfl⟩ := of_onlyIf hs
    exact (h.masterMoves (by rw [hpc]; decide) (by rw [hpc]; rfl)).frame rfl rfl rfl rfl
  | masterTestsDispatching =>
    obtain ⟨hpc, rfl⟩ := of_onlyIf hs
    refine h.masterMoves ?_ ?_
    · split
      · exact Nat.zero_le _
      · split <;> exact Nat.zero_le _
    · rw [hpc]
      split
      · rfl
      · split <;> rfl
  | masterTestsExiting =>
    obtain ⟨hpc, rfl⟩ := of_onlyIf hs
    refine h.masterMoves ?_ ?_
    · split <;> exact Nat.zero_le _
    · rw [hpc]
      split <;> rfl
  | masterShutsIncoming =>
    obtain ⟨hpc, rfl⟩ := of_onlyIf hs
    have hobserved := h.observed
    rw [hpc] at hobserved
    exact ⟨fun _ => rfl, fun hle => absurd hle (show ¬ 2 ≤ 1 by decide), hobserved⟩
  | masterShutsOutgoing =>
    obtain ⟨hpc, rfl⟩ := of_onlyIf hs
    have hobserved := h.observed
    rw [hpc] at hobserved
    exact ⟨fun _ => h.incoming (by rw [hpc]; decide), fun _ => rfl, hobserved⟩
  | masterShutsSource | masterUnlocks =>
    obtain ⟨hpc, rfl⟩ := of_onlyIf hs
    exact h.masterMoves (by rw [hpc]; decide) (by rw [hpc]; rfl)
  | masterJoinsIncoming | masterJoinsOutgoing | masterJoinsHandler =>
    obtain ⟨⟨hpc, -⟩, rfl⟩ := of_onlyIf hs
    exact h.masterMoves (by rw [hpc]; decide) (by rw [hpc]; rfl)
  | masterNotifies =>
    obtain ⟨hpc, rfl⟩ := of_onlyIf hs
    have hobserved := h.observed
    rw [hpc] at hobserved
    refine ⟨fun _ => h.incoming (by rw [hpc]; decide),
      fun _ => h.outgoing (by rw [hpc]; decide), ?_⟩
    rw [List.length_append, hobserved]
    rfl
  | masterExits =>
    obtain ⟨hpc, rfl⟩ := of_onlyIf hs
    have hmoved : ({ s with master := .returned }).Shuts :=
      h.masterMoves (by rw [hpc]; decide) (by rw [hpc]; rfl)
    exact hmoved.frame rfl rfl rfl rfl
  | _ =>
    obtain ⟨-, rfl⟩ := of_onlyIf hs
    exact h.frame rfl rfl rfl rfl

/-! ## Exiting -/

/-- A dispatcher that has a master and was told to exit. -/
structure Exits (classId : Envelope → UUID) (s : MessageDispatcher Envelope) : Prop where
  reachable : (system classId).Reachable s
  shuts : s.Shuts
  state : s.mState = .Exiting ∨ s.master = .returned
  created : s.master ≠ .notCreated

/-- A step uses up some of what is left, or nobody moves: it is then a step of another
    thread, or a wait for a queue that is open and empty. -/
inductive Uses (s s' : MessageDispatcher Envelope) (e : Event Envelope) : Prop
  | moves (hlt : s'.left < s.left)
  | stays (hmaster : s'.master = s.master) (hincoming : s'.incoming = s.incoming)
      (houtgoing : s'.outgoing = s.outgoing) (hhandler : s'.handler = s.handler)
      (hwaits : e.thread = none ∨
        e.thread = some .outgoing ∧ s.mOutgoingQueue.mShutdown = false ∨
        e.thread = some .handler ∧ s.mIncomingQueue.mShutdown = false)

omit [DecidableEq Envelope] in
theorem Uses.incoming {e : Event Envelope} {pc : IncomingPc Envelope} (hpc : s.incoming = pc)
    (hmaster : s'.master = s.master) (hlt : s'.incoming.left < pc.left)
    (houtgoing : s'.outgoing = s.outgoing) (hhandler : s'.handler = s.handler) : Uses s s' e := by
  refine .moves ?_
  unfold left
  rw [hmaster, houtgoing, hhandler, hpc]
  omega

omit [DecidableEq Envelope] in
theorem Uses.outgoing {e : Event Envelope} {pc : OutgoingPc Envelope} (hpc : s.outgoing = pc)
    (hmaster : s'.master = s.master) (hincoming : s'.incoming = s.incoming)
    (hlt : s'.outgoing.left < pc.left) (hhandler : s'.handler = s.handler) : Uses s s' e := by
  refine .moves ?_
  unfold left
  rw [hmaster, hincoming, hhandler, hpc]
  omega

omit [DecidableEq Envelope] in
theorem Uses.handler {e : Event Envelope} {pc : HandlerPc Envelope} (hpc : s.handler = pc)
    (hmaster : s'.master = s.master) (hincoming : s'.incoming = s.incoming)
    (houtgoing : s'.outgoing = s.outgoing) (hlt : s'.handler.left < pc.left) : Uses s s' e := by
  refine .moves ?_
  unfold left
  rw [hmaster, hincoming, houtgoing, hpc]
  omega

omit [DecidableEq Envelope] in
theorem Uses.master {e : Event Envelope} {pc : MasterPc} (hpc : s.master = pc)
    (hlt : s'.master.left < pc.left) (hincoming : s'.incoming = s.incoming)
    (houtgoing : s'.outgoing = s.outgoing) (hhandler : s'.handler = s.handler) : Uses s s' e := by
  refine .moves ?_
  unfold left
  rw [hincoming, houtgoing, hhandler, hpc]
  omega

/-- A thread that runs does so in a dispatcher that is exiting. -/
theorem Exits.exiting (h : s.Exits classId) (hruns : ¬ s.ThreadsEnded) : s.mState = .Exiting :=
  h.state.resolve_right fun hmaster => hruns (threadsEnded_of_reachable h.reachable hmaster)

theorem uses_of_step (h : s.Exits classId) {e : Event Envelope}
    (hs : step classId s e = some s') : Uses s s' e := by
  have hcreates := (invariant_of_reachable h.reachable).creates
  cases e with
  | send envelope =>
    cases hs
    unfold MessageDispatcher.send
    split <;> exact .stays rfl rfl rfl rfl (.inl rfl)
  | startQueueing =>
    obtain ⟨-, rfl⟩ := of_onlyIf hs
    unfold MessageDispatcher.startQueueing
    split
    · exact .stays rfl rfl rfl rfl (.inl rfl)
    · next hstate => exact absurd (hcreates.master (not_not.mp hstate)) h.created
  | startDispatching =>
    obtain ⟨-, rfl⟩ := of_onlyIf hs
    unfold MessageDispatcher.startDispatching
    split <;> exact .stays rfl rfl rfl rfl (.inl rfl)
  | postQuit =>
    obtain ⟨-, rfl⟩ := of_onlyIf hs
    unfold MessageDispatcher.postQuit
    split <;> exact .stays rfl rfl rfl rfl (.inl rfl)
  | postError | joinMaster | waitForExitReturns =>
    obtain ⟨-, rfl⟩ := of_onlyIf hs
    exact .stays rfl rfl rfl rfl (.inl rfl)
  -- the incoming thread
  | incomingTests =>
    obtain ⟨hpc, rfl⟩ := of_onlyIf hs
    have hexiting := h.exiting fun hended => by
      rcases hended.incoming with hpc' | hpc' <;> cases hpc.symm.trans hpc'
    refine .incoming hpc rfl ?_ rfl rfl
    rw [if_pos hexiting]
    exact Nat.zero_lt_one
  | getEnvelopeReturns envelope =>
    obtain ⟨hpc, rfl⟩ := of_onlyIf hs
    exact .incoming hpc rfl (Nat.lt_succ_self 3) rfl rfl
  | getEnvelopeThrows e =>
    obtain ⟨hpc, rfl⟩ := of_onlyIf hs
    have hle : (IncomingPc.afterThrow (endpointError e) : IncomingPc Envelope).left ≤ 2 :=
      IncomingPc.left_afterThrow_le _
    exact .incoming hpc rfl (Nat.lt_of_le_of_lt hle (show 2 < 4 by decide)) rfl rfl
  | incomingPushes envelope =>
    obtain ⟨hpc, rfl⟩ := of_onlyIf hs
    unfold MessageDispatcher.pushIncoming
    split
    · exact .incoming hpc rfl (show 1 < 3 by decide) rfl rfl
    · exact .incoming hpc rfl (show 1 < 3 by decide) rfl rfl
  | incomingPosts reason =>
    obtain ⟨⟨hpc, -⟩, rfl⟩ := of_onlyIf hs
    exact .incoming hpc rfl (Nat.lt_succ_self 1) rfl rfl
  -- the outgoing thread
  | outgoingTests =>
    obtain ⟨hpc, rfl⟩ := of_onlyIf hs
    have hexiting := h.exiting fun hended => by
      rcases hended.outgoing with hpc' | hpc' <;> cases hpc.symm.trans hpc'
    refine .outgoing hpc rfl rfl ?_ rfl
    rw [if_pos hexiting]
    exact Nat.zero_lt_one
  | outgoingPops =>
    obtain ⟨hpc, rfl⟩ := of_onlyIf hs
    have hmore : 4 < s.outgoing.left := by
      rcases hpc with hpc | hpc
      · rw [hpc]
        exact (by decide : 4 < 6)
      · rw [hpc]
        exact Nat.lt_succ_self 4
    unfold MessageDispatcher.popOutgoing
    split
    · exact .outgoing rfl rfl rfl (Nat.lt_of_le_of_lt (show 1 ≤ 4 by decide) hmore) rfl
    · next hempty =>
      rcases hpc with hpc | hpc
      · exact .outgoing hpc rfl rfl (Nat.lt_succ_self 5) rfl
      · refine .stays rfl rfl hpc.symm rfl (.inr (.inl ⟨rfl, ?_⟩))
        exact ThreadsafeQueue.pop_eq_empty hempty
    · exact .outgoing rfl rfl rfl hmore rfl
  | putEnvelopeCalled envelope =>
    obtain ⟨hpc, rfl⟩ := of_onlyIf hs
    exact .outgoing hpc rfl rfl (Nat.lt_succ_self 3) rfl
  | putEnvelopeReturns envelope =>
    obtain ⟨hpc, rfl⟩ := of_onlyIf hs
    exact .outgoing hpc rfl rfl (Nat.lt_succ_self 2) rfl
  | putEnvelopeThrows envelope e =>
    obtain ⟨hpc, rfl⟩ := of_onlyIf hs
    have hle : (OutgoingPc.afterThrow (endpointError e) : OutgoingPc Envelope).left ≤ 2 :=
      OutgoingPc.left_afterThrow_le _
    exact .outgoing hpc rfl rfl (Nat.lt_of_le_of_lt hle (Nat.lt_succ_self 2)) rfl
  | outgoingCounts envelope =>
    obtain ⟨hpc, rfl⟩ := of_onlyIf hs
    exact .outgoing hpc rfl rfl (Nat.lt_succ_self 1) rfl
  | outgoingPosts reason =>
    obtain ⟨⟨hpc, -⟩, rfl⟩ := of_onlyIf hs
    exact .outgoing hpc rfl rfl (Nat.lt_succ_self 1) rfl
  -- the handler thread
  | handlerTests =>
    obtain ⟨hpc, rfl⟩ := of_onlyIf hs
    have hexiting := h.exiting fun hended => by
      rcases hended.handler with hpc' | hpc' <;> cases hpc.symm.trans hpc'
    refine .handler hpc rfl rfl rfl ?_
    rw [if_pos hexiting]
    exact Nat.zero_lt_one
  | handlerPops =>
    obtain ⟨hpc, rfl⟩ := of_onlyIf hs
    have hmore : 5 < s.handler.left := by
      rcases hpc with hpc | hpc
      · rw [hpc]
        exact (by decide : 5 < 7)
      · rw [hpc]
        exact Nat.lt_succ_self 5
    unfold MessageDispatcher.popIncoming
    split
    · exact .handler rfl rfl rfl rfl (Nat.lt_of_le_of_lt (show 1 ≤ 5 by decide) hmore)
    · next hempty =>
      rcases hpc with hpc | hpc
      · exact .handler hpc rfl rfl rfl (Nat.lt_succ_self 6)
      · refine .stays rfl rfl rfl hpc.symm (.inr (.inr ⟨rfl, ?_⟩))
        exact ThreadsafeQueue.pop_eq_empty hempty
    · exact .handler rfl rfl rfl rfl hmore
  | handlerTimesOut =>
    obtain ⟨⟨hpc, -⟩, rfl⟩ := of_onlyIf hs
    exact .handler hpc rfl rfl rfl (show 3 < 6 by decide)
  | handlerCounts envelope =>
    obtain ⟨hpc, rfl⟩ := of_onlyIf hs
    exact .handler hpc rfl rfl rfl (Nat.lt_succ_self 4)
  | handleMessageCalled envelope =>
    obtain ⟨hpc, rfl⟩ := of_onlyIf hs
    exact .handler hpc rfl rfl rfl (Nat.lt_succ_self 3)
  | handlerReturns =>
    obtain ⟨hpc, rfl⟩ := of_onlyIf hs
    exact .handler hpc rfl rfl rfl (show 1 < 3 by decide)
  | handlerThrows e =>
    obtain ⟨hpc, rfl⟩ := of_onlyIf hs
    have hle : (HandlerPc.afterThrow (handlerError e) : HandlerPc Envelope).left ≤ 2 :=
      HandlerPc.left_afterThrow_le _
    exact .handler hpc rfl rfl rfl (Nat.lt_of_le_of_lt hle (Nat.lt_succ_self 2))
  | handlerPosts reason =>
    obtain ⟨⟨hpc, -⟩, rfl⟩ := of_onlyIf hs
    exact .handler hpc rfl rfl rfl (Nat.lt_succ_self 1)
  -- the master, which creates the others
  | masterStartsIncoming =>
    obtain ⟨hpc, rfl⟩ := of_onlyIf hs
    refine .moves ?_
    simp only [left, hpc, hcreates.incoming (by rw [hpc]; decide), MasterPc.left, IncomingPc.left]
    omega
  | masterStartsOutgoing =>
    obtain ⟨hpc, rfl⟩ := of_onlyIf hs
    refine .moves ?_
    simp only [left, hpc, hcreates.outgoing (by rw [hpc]; decide), MasterPc.left, OutgoingPc.left]
    omega
  | masterStartsHandler =>
    obtain ⟨hpc, rfl⟩ := of_onlyIf hs
    refine .moves ?_
    simp only [left, hpc, hcreates.handler (by rw [hpc]; decide), MasterPc.left, HandlerPc.left]
    omega
  | masterTestsDispatching =>
    obtain ⟨hpc, rfl⟩ := of_onlyIf hs
    have hexiting := h.exiting fun hended => by cases hpc.symm.trans hended.master
    refine .master hpc ?_ rfl rfl rfl
    rw [if_neg (by rw [hexiting]; decide), if_pos hexiting]
    exact (by decide : 9 < 15)
  | masterTestsExiting =>
    obtain ⟨hpc, rfl⟩ := of_onlyIf hs
    have hexiting := h.exiting fun hended => by cases hpc.symm.trans hended.master
    refine .master hpc ?_ rfl rfl rfl
    rw [if_pos hexiting]
    exact (by decide : 9 < 10)
  | masterJoinsIncoming | masterJoinsOutgoing | masterJoinsHandler =>
    obtain ⟨⟨hpc, -⟩, rfl⟩ := of_onlyIf hs
    exact .master hpc (Nat.lt_succ_self _) rfl rfl rfl
  | masterLocks | masterWakesDispatching | masterWakesExiting | masterShutsIncoming
  | masterShutsOutgoing | masterShutsSource | masterUnlocks | masterNotifies | masterExits =>
    obtain ⟨hpc, rfl⟩ := of_onlyIf hs
    exact .master hpc (Nat.lt_succ_self _) rfl rfl rfl

/-- An exit cannot be taken back: the state stays `Exiting` until the master returns. -/
theorem exiting_of_step (hexiting : s.mState = .Exiting) {e : Event Envelope}
    (hs : step classId s e = some s') : s'.mState = .Exiting ∨ s'.master = .returned := by
  cases hwrites : e.writesState with
  | false =>
    have hsame := mState_of_step hwrites hs
    exact .inl (hsame.trans hexiting)
  | true =>
    cases e with
    | startQueueing =>
      obtain ⟨-, rfl⟩ := of_onlyIf hs
      refine .inl ?_
      unfold MessageDispatcher.startQueueing
      rw [if_pos (by rw [hexiting]; decide)]
      exact hexiting
    | startDispatching =>
      obtain ⟨-, rfl⟩ := of_onlyIf hs
      refine .inl ?_
      unfold MessageDispatcher.startDispatching
      rw [if_pos (by rw [hexiting]; decide)]
      exact hexiting
    | postQuit =>
      obtain ⟨-, rfl⟩ := of_onlyIf hs
      refine .inl ?_
      unfold MessageDispatcher.postQuit
      rw [if_pos (.inl hexiting)]
      exact hexiting
    | postError | incomingPosts | outgoingPosts | handlerPosts =>
      obtain ⟨-, rfl⟩ := of_onlyIf hs
      exact .inl rfl
    | masterExits =>
      obtain ⟨-, rfl⟩ := of_onlyIf hs
      exact .inr rfl
    | _ => cases hwrites

/-- A master that has returned is not created again. -/
theorem returned_of_step (hc : s.Creates) (hmaster : s.master = .returned) {e : Event Envelope}
    (hs : step classId s e = some s') : s'.master = .returned := by
  rcases master_of_step hs with hsame | ⟨rfl, hlock⟩ | ⟨-, hrunning, -⟩
  · exact hsame.trans hmaster
  · have hstarted : s.mState ≠ .NotStarted := by
      intro hstate
      cases hmaster.symm.trans (hc.master hstate)
    obtain ⟨-, rfl⟩ := of_onlyIf hs
    unfold MessageDispatcher.startQueueing
    rw [if_pos hstarted]
    exact hmaster
  · exact absurd hmaster hrunning

theorem Exits.step (h : s.Exits classId) {e : Event Envelope}
    (hs : step classId s e = some s') : s'.Exits classId where
  reachable := h.reachable.next trivial hs
  shuts := h.shuts.step (invariant_of_reachable h.reachable).creates hs
  state := by
    rcases h.state with hexiting | hmaster
    · exact exiting_of_step hexiting hs
    · exact .inr (returned_of_step (invariant_of_reachable h.reachable).creates hmaster hs)
  created := by
    rcases master_of_step hs with hsame | ⟨-, hlock⟩ | ⟨-, -, hcreated⟩
    · rw [hsame]
      exact h.created
    · rw [hlock]
      intro hpc
      cases hpc
    · exact hcreated

/-! ## Who can go on -/

/-- A thread that can take a step, and that nobody else can stop from taking it. -/
def Helps (s : MessageDispatcher Envelope) : Thread → Prop
  | .master =>
    s.master ≠ .returned ∧ (s.master = .joinIncoming → s.incoming.ended) ∧
      (s.master = .joinOutgoing → s.outgoing.ended) ∧ (s.master = .joinHandler → s.handler.ended)
  | .incoming => s.master = .joinIncoming ∧ ¬ s.incoming.ended
  | .outgoing => s.master = .joinOutgoing ∧ ¬ s.outgoing.ended
  | .handler => s.master = .joinHandler ∧ ¬ s.handler.ended

omit [DecidableEq Envelope] in
theorem Helps.frame {t : Thread} (h : s.Helps t) (hmaster : s'.master = s.master)
    (hincoming : s'.incoming = s.incoming) (houtgoing : s'.outgoing = s.outgoing)
    (hhandler : s'.handler = s.handler) : s'.Helps t := by
  cases t with
  | master =>
    unfold Helps
    rw [hmaster, hincoming, houtgoing, hhandler]
    exact h
  | incoming =>
    unfold Helps
    rw [hmaster, hincoming]
    exact h
  | outgoing =>
    unfold Helps
    rw [hmaster, houtgoing]
    exact h
  | handler =>
    unfold Helps
    rw [hmaster, hhandler]
    exact h

omit [DecidableEq Envelope] in
/-- The master goes on, or the thread it waits for does. -/
theorem exists_helps (hmaster : s.master ≠ .returned) : ∃ t, s.Helps t := by
  by_cases hincoming : s.master = .joinIncoming ∧ ¬ s.incoming.ended
  · exact ⟨.incoming, hincoming⟩
  by_cases houtgoing : s.master = .joinOutgoing ∧ ¬ s.outgoing.ended
  · exact ⟨.outgoing, houtgoing⟩
  by_cases hhandler : s.master = .joinHandler ∧ ¬ s.handler.ended
  · exact ⟨.handler, hhandler⟩
  exact ⟨.master, hmaster, fun hpc => by_contra fun h => hincoming ⟨hpc, h⟩,
    fun hpc => by_contra fun h => houtgoing ⟨hpc, h⟩,
    fun hpc => by_contra fun h => hhandler ⟨hpc, h⟩⟩

/-- A thread that runs can take a step, but for `postError` while the master holds the
    mutex. -/
theorem ready_outgoing (hruns : ¬ s.outgoing.ended)
    (hposts : ∀ reason, s.outgoing = .postError reason → s.mutexFree) :
    (system classId).Ready Event.thread .outgoing s := by
  cases hpc : s.outgoing with
  | notCreated => exact absurd (.inl hpc) hruns
  | returned => exact absurd (.inr hpc) hruns
  | testState => exact ⟨.outgoingTests, rfl, onlyIf_isSome hpc⟩
  | pop => exact ⟨.outgoingPops, rfl, onlyIf_isSome (.inl hpc)⟩
  | popWait => exact ⟨.outgoingPops, rfl, onlyIf_isSome (.inr hpc)⟩
  | callPut envelope => exact ⟨.putEnvelopeCalled envelope, rfl, onlyIf_isSome hpc⟩
  | inPut envelope => exact ⟨.putEnvelopeReturns envelope, rfl, onlyIf_isSome hpc⟩
  | count envelope => exact ⟨.outgoingCounts envelope, rfl, onlyIf_isSome hpc⟩
  | postError reason =>
    exact ⟨.outgoingPosts reason, rfl, onlyIf_isSome ⟨hpc, hposts reason hpc⟩⟩

theorem ready_handler (hruns : ¬ s.handler.ended)
    (hposts : ∀ reason, s.handler = .postError reason → s.mutexFree) :
    (system classId).Ready Event.thread .handler s := by
  cases hpc : s.handler with
  | notCreated => exact absurd (.inl hpc) hruns
  | returned => exact absurd (.inr hpc) hruns
  | testState => exact ⟨.handlerTests, rfl, onlyIf_isSome hpc⟩
  | pop => exact ⟨.handlerPops, rfl, onlyIf_isSome (.inl hpc)⟩
  | popWait => exact ⟨.handlerPops, rfl, onlyIf_isSome (.inr hpc)⟩
  | count envelope => exact ⟨.handlerCounts envelope, rfl, onlyIf_isSome hpc⟩
  | callHandler envelope => exact ⟨.handleMessageCalled envelope, rfl, onlyIf_isSome hpc⟩
  | inHandler => exact ⟨.handlerReturns, rfl, onlyIf_isSome hpc⟩
  | postError reason =>
    exact ⟨.handlerPosts reason, rfl, onlyIf_isSome ⟨hpc, hposts reason hpc⟩⟩

theorem ready_of_helps (h : s.Exits classId) {t : Thread} (ht : s.Helps t) :
    (system classId).Ready Event.thread t s := by
  cases t with
  | master =>
    obtain ⟨hrunning, hincoming, houtgoing, hhandler⟩ := ht
    cases hpc : s.master with
    | notCreated => exact absurd hpc h.created
    | returned => exact absurd hpc hrunning
    | lock => exact ⟨.masterLocks, rfl, onlyIf_isSome hpc⟩
    | startIncoming => exact ⟨.masterStartsIncoming, rfl, onlyIf_isSome hpc⟩
    | testDispatching => exact ⟨.masterTestsDispatching, rfl, onlyIf_isSome hpc⟩
    | waitDispatching => exact ⟨.masterWakesDispatching, rfl, onlyIf_isSome hpc⟩
    | startOutgoing => exact ⟨.masterStartsOutgoing, rfl, onlyIf_isSome hpc⟩
    | startHandler => exact ⟨.masterStartsHandler, rfl, onlyIf_isSome hpc⟩
    | testExiting => exact ⟨.masterTestsExiting, rfl, onlyIf_isSome hpc⟩
    | waitExiting => exact ⟨.masterWakesExiting, rfl, onlyIf_isSome hpc⟩
    | shutdownIncoming => exact ⟨.masterShutsIncoming, rfl, onlyIf_isSome hpc⟩
    | shutdownOutgoing => exact ⟨.masterShutsOutgoing, rfl, onlyIf_isSome hpc⟩
    | shutdownSource => exact ⟨.masterShutsSource, rfl, onlyIf_isSome hpc⟩
    | unlock => exact ⟨.masterUnlocks, rfl, onlyIf_isSome hpc⟩
    | joinIncoming =>
      exact ⟨.masterJoinsIncoming, rfl, onlyIf_isSome ⟨hpc, hincoming hpc⟩⟩
    | joinOutgoing =>
      exact ⟨.masterJoinsOutgoing, rfl, onlyIf_isSome ⟨hpc, houtgoing hpc⟩⟩
    | joinHandler =>
      exact ⟨.masterJoinsHandler, rfl, onlyIf_isSome ⟨hpc, hhandler hpc⟩⟩
    | notifyObserver => exact ⟨.masterNotifies, rfl, onlyIf_isSome hpc⟩
    | setExited => exact ⟨.masterExits, rfl, onlyIf_isSome hpc⟩
  | incoming =>
    obtain ⟨hmaster, hrunning⟩ := ht
    have hfree : s.mutexFree := by
      show s.master.locked = false
      rw [hmaster]
      rfl
    cases hpc : s.incoming with
    | notCreated => exact absurd (.inl hpc) hrunning
    | returned => exact absurd (.inr hpc) hrunning
    | testState => exact ⟨.incomingTests, rfl, onlyIf_isSome hpc⟩
    | getEnvelope =>
      -- `mSource.shutdown()` makes it throw
      exact ⟨.getEnvelopeThrows .shutdownException, rfl, onlyIf_isSome hpc⟩
    | push envelope => exact ⟨.incomingPushes envelope, rfl, onlyIf_isSome hpc⟩
    | postError reason => exact ⟨.incomingPosts reason, rfl, onlyIf_isSome ⟨hpc, hfree⟩⟩
  | outgoing =>
    refine ready_outgoing ht.2 fun _ _ => ?_
    show s.master.locked = false
    rw [ht.1]
    rfl
  | handler =>
    refine ready_handler ht.2 fun _ _ => ?_
    show s.master.locked = false
    rw [ht.1]
    rfl

/-! ## Every fair run -/

/-- The steps that are left are those of the threads that help. -/
theorem progress {s₀ : MessageDispatcher Envelope} (h₀ : s₀.Exits classId) :
    ((system classId).startedIn s₀).Progress Event.thread (·.master = .returned) left
      (fun t s => s.Helps t) := by
  have hexits : ∀ s, ((system classId).startedIn s₀).Reachable s → s.Exits classId := by
    intro s h
    refine h.invariant ?_ ?_
    · rintro _ rfl
      exact h₀
    · intro s e s' hI _ hs
      exact hI.step hs
  refine ⟨?_, ?_, ?_, ?_, ?_⟩
  · intro t s hreach ht
    exact ready_of_helps (hexits s hreach) ht
  · intro s _ hrunning
    exact exists_helps hrunning
  · intro s e s' hreach hs
    rcases uses_of_step (hexits s hreach) hs with hlt | ⟨hmaster, hincoming, houtgoing, hhandler, -⟩
    · exact Nat.le_of_lt hlt
    · unfold left
      rw [hmaster, hincoming, houtgoing, hhandler]
  · intro t s e s' hreach ht hown hs
    rcases uses_of_step (hexits s hreach) hs with hlt | ⟨-, -, -, -, hwaits⟩
    · exact hlt
    · -- a thread that is joined does not wait: its queue is shut down
      have hshuts := (hexits s hreach).shuts
      rcases hwaits with hnone | ⟨hthread, hopen⟩ | ⟨hthread, hopen⟩
      · cases hown.symm.trans hnone
      · cases hown.symm.trans hthread
        have hshut := hshuts.outgoing (by rw [ht.1]; decide)
        cases hshut.symm.trans hopen
      · cases hown.symm.trans hthread
        have hshut := hshuts.incoming (by rw [ht.1]; decide)
        cases hshut.symm.trans hopen
  · intro t s e s' hreach ht hs
    rcases uses_of_step (hexits s hreach) hs with hlt | ⟨hmaster, hincoming, houtgoing, hhandler, -⟩
    · exact .inl hlt
    · exact .inr (ht.frame hmaster hincoming houtgoing hhandler)

theorem shuts_of_reachable (h : (system classId).Reachable s) : s.Shuts := by
  have hboth : s.Creates ∧ s.Shuts := by
    apply h.invariant (I := fun s => s.Creates ∧ s.Shuts)
    · intro s₀ hinit
      refine ⟨(invariant_of_reachable (.init hinit)).creates, ?_⟩
      obtain ⟨reason, idleInterval, rfl⟩ := hinit
      exact ⟨nofun, nofun, rfl⟩
    · intro s e s' hI _ hs
      exact ⟨hI.1.step hs, hI.2.step hI.1 hs⟩
  exact hboth.2

/-- **The dispatcher ends.**  From where it is told to exit, every fair run leads to a
    state in which no thread runs and the observer has been notified once. -/
theorem ends_of_exiting {state : Nat → MessageDispatcher Envelope}
    {event : Nat → Option (Event Envelope)}
    (h : (system classId).FairRun Event.thread state event) {n : Nat}
    (hexiting : (state n).mState = .Exiting) (hcreated : (state n).master ≠ .notCreated) :
    ∃ k, (state (n + k)).ThreadsEnded ∧ (state (n + k)).observed.length = 1 := by
  have hreach := h.reachable n
  have hexits : (state n).Exits classId :=
    ⟨hreach, shuts_of_reachable hreach, .inl hexiting, hcreated⟩
  obtain ⟨k, hmaster⟩ := (h.drop n).eventually (progress hexits)
  refine ⟨k, threadsEnded_of_reachable (h.reachable _) hmaster, ?_⟩
  have hobserved := (shuts_of_reachable (h.reachable (n + k))).observed
  rw [hobserved, hmaster]
  rfl

/-! ## A run to its end -/

omit [DecidableEq Envelope] in
theorem left_of_threadsEnded (h : s.ThreadsEnded) : s.left = 0 := by
  unfold left
  rcases h with ⟨hmaster, hincoming | hincoming, houtgoing | houtgoing, hhandler | hhandler⟩
  all_goals
    rw [hmaster, hincoming, houtgoing, hhandler]
    rfl

/-- Nobody is left who could take a step. -/
theorem not_ready_of_returned (h : (system classId).Reachable s) (hmaster : s.master = .returned)
    (t : Thread) : ¬ (system classId).Ready Event.thread t s := by
  rintro ⟨e, hthread, hstep⟩
  obtain ⟨s', hs⟩ := Option.isSome_iff_exists.mp hstep
  have hshuts := shuts_of_reachable h
  have hexits : s.Exits classId := ⟨h, hshuts, .inr hmaster, by rw [hmaster]; decide⟩
  rcases uses_of_step hexits hs with hlt | ⟨-, -, -, -, hnone | ⟨-, hopen⟩ | ⟨-, hopen⟩⟩
  · rw [left_of_threadsEnded (threadsEnded_of_reachable h hmaster)] at hlt
    exact Nat.not_lt_zero _ hlt
  · cases hnone.symm.trans hthread
  · have hshut := hshuts.outgoing (by rw [hmaster]; decide)
    cases hshut.symm.trans hopen
  · have hshut := hshuts.incoming (by rw [hmaster]; decide)
    cases hshut.symm.trans hopen

/-- The peer disconnects while the dispatcher runs. -/
def disconnects : List (Event UUID) :=
  [.startQueueing, .masterLocks, .masterStartsIncoming, .masterTestsDispatching,
    .startDispatching, .masterWakesDispatching, .masterTestsDispatching, .masterStartsOutgoing,
    .masterStartsHandler, .masterTestsExiting, .outgoingTests, .outgoingPops, .incomingTests,
    .getEnvelopeThrows .peerDisconnectException, .incomingPosts .Disconnected]

/-- The threads end, the outgoing one out of its wait. -/
def windsUp : List (Event UUID) :=
  [.incomingTests, .masterWakesExiting, .masterTestsExiting, .masterShutsIncoming,
    .masterShutsOutgoing, .masterShutsSource, .masterUnlocks, .masterJoinsIncoming,
    .outgoingPops, .outgoingTests, .masterJoinsOutgoing, .handlerTests, .masterJoinsHandler,
    .masterNotifies, .masterExits]

theorem ends_disconnects : ∃ state : Nat → MessageDispatcher UUID, ∃ k,
    (state (15 + k)).ThreadsEnded ∧ (state (15 + k)).observed.length = 1 := by
  have hall : ∃ s, (system id).run newDispatcher (disconnects ++ windsUp) = some s ∧
      s.master = .returned := by decide +kernel
  have hexit : ∃ s, (system id).run newDispatcher disconnects = some s ∧
      s.mState = .Exiting ∧ s.master ≠ .notCreated := by decide +kernel
  obtain ⟨s, hrun, hmaster⟩ := hall
  obtain ⟨s₁, hrun₁, hexiting, hcreated⟩ := hexit
  have hreach : (system id).Reachable s := ⟨_, newDispatcher_init, System.run_steps hrun⟩
  obtain ⟨state, event, hfair, hstate⟩ :=
    System.exists_fairRun_of_run newDispatcher_init hrun (not_ready_of_returned hreach hmaster)
  have hat : state 15 = s₁ := hstate 15 s₁ hrun₁
  obtain ⟨k, hk⟩ := ends_of_exiting hfair (n := 15) (by rw [hat]; exact hexiting)
    (by rw [hat]; exact hcreated)
  exact ⟨state, k, hk⟩

end MessageDispatcher

end Arras4Core.Dispatch
