/-
  Arras4Core.Dispatch.Arrives

  What a dispatcher takes does arrive: while it dispatches, every envelope that was
  sent is put in the end and every envelope that was received is handled in the end,
  unless the dispatcher is told to exit or the thread that moves the envelopes has
  caught an error.

  The two ways through the dispatcher are the same: a queue, and a thread that takes
  from it one envelope at a time.  What is left on the way is counted in rounds of
  that thread.

  Main result: `MessageDispatcher.arrives`.
-/

import Arras4Core.Dispatch.Ends
import Arras4Core.Dispatch.ExitReason

namespace Arras4Core.Dispatch

open Arras4Core.Lib
open Arras4Core.Api (Exception UUID)

variable {Envelope : Type*}

/-! ## One round of a thread -/

/-- How many steps the thread is from its next `putEnvelope`, with a queue that is not
    empty. -/
def OutgoingPc.toPut : OutgoingPc Envelope → Nat
  | returned | postError _ => 0
  | callPut _ => 1
  | popWait => 2
  | pop => 3
  | testState => 4
  | notCreated | count _ => 5
  | inPut _ => 6

/-- The same for `handleMessage`: a thread that waits may time out and come back. -/
def HandlerPc.toHandle : HandlerPc Envelope → Nat
  | returned | postError _ => 0
  | callHandler _ => 1
  | count _ => 2
  | pop => 3
  | testState => 4
  | notCreated | inHandler => 5
  | popWait => 6

/-- How many steps the master is from having created the threads. -/
def MasterPc.toStarted : MasterPc → Nat
  | startHandler => 1
  | startOutgoing => 2
  | testDispatching => 3
  | waitDispatching => 4
  | startIncoming => 5
  | lock => 6
  | _ => 0

/-- The master has seen that the dispatcher is exiting. -/
def MasterPc.stopping : MasterPc → Bool
  | notCreated | lock | startIncoming | testDispatching | waitDispatching | startOutgoing
  | startHandler | testExiting | waitExiting => false
  | _ => true

/-- The thread was created and has not returned. -/
def OutgoingPc.runs : OutgoingPc Envelope → Bool
  | notCreated | returned => false
  | _ => true

def HandlerPc.runs : HandlerPc Envelope → Bool
  | notCreated | returned => false
  | _ => true

theorem OutgoingPc.not_ended_of_runs {pc : OutgoingPc Envelope} (hruns : pc.runs = true) :
    ¬ pc.ended := by
  rintro (rfl | rfl) <;> cases hruns

theorem HandlerPc.not_ended_of_runs {pc : HandlerPc Envelope} (hruns : pc.runs = true) :
    ¬ pc.ended := by
  rintro (rfl | rfl) <;> cases hruns

theorem OutgoingPc.runs_afterThrow (reason : Option DispatcherExitReason) :
    (OutgoingPc.afterThrow reason : OutgoingPc Envelope).runs = true := by
  cases reason with
  | none => rfl
  | some reason => rfl

theorem HandlerPc.runs_afterThrow (reason : Option DispatcherExitReason) :
    (HandlerPc.afterThrow reason : HandlerPc Envelope).runs = true := by
  cases reason with
  | none => rfl
  | some reason => rfl

namespace MessageDispatcher

variable {classId : Envelope → UUID} {s s' : MessageDispatcher Envelope}

/-- The two ways through the dispatcher. -/
inductive Way
  | outgoing | incoming

/-- The thread that takes the envelopes from the queue. -/
def Way.thread : Way → Thread
  | outgoing => .outgoing
  | incoming => .handler

/-- The envelopes that were taken, that were queued, and that have arrived. -/
def Way.taken : Way → MessageDispatcher Envelope → List Envelope
  | outgoing, s => s.sent
  | incoming, s => s.got

def Way.queued : Way → MessageDispatcher Envelope → List Envelope
  | outgoing, s => s.mOutgoingQueue.pushed
  | incoming, s => s.mIncomingQueue.pushed

def Way.arrived : Way → MessageDispatcher Envelope → List Envelope
  | outgoing, s => s.put
  | incoming, s => s.handled

def Way.toNext : Way → MessageDispatcher Envelope → Nat
  | outgoing, s => s.outgoing.toPut
  | incoming, s => s.handler.toHandle

/-- The dispatcher is exiting, or the thread is about to make it exit. -/
def Way.Fails : Way → MessageDispatcher Envelope → Prop
  | outgoing, s => s.isExiting ∨ ∃ reason, s.outgoing = .postError reason
  | incoming, s => s.isExiting ∨ ∃ reason, s.handler = .postError reason

/-! ## While the dispatcher is not exiting -/

/-- The queues are open and the threads that were created run. -/
structure Active (s : MessageDispatcher Envelope) : Prop where
  master : s.mState ≠ .NotStarted → s.master ≠ .notCreated
  running : s.master.stopping = false
  incomingOpen : s.mIncomingQueue.mShutdown = false
  outgoingOpen : s.mOutgoingQueue.mShutdown = false
  outgoing : 2 ≤ s.master.stage → s.outgoing.runs = true
  handler : 3 ≤ s.master.stage → s.handler.runs = true

theorem Active.frame (h : s.Active) (hstate : s.mState ≠ .NotStarted ∨ s'.mState = s.mState)
    (hmaster : s'.master = s.master)
    (hincoming : s'.mIncomingQueue.mShutdown = s.mIncomingQueue.mShutdown)
    (houtgoing : s'.mOutgoingQueue.mShutdown = s.mOutgoingQueue.mShutdown)
    (hout : s'.outgoing = s.outgoing) (hhandler : s'.handler = s.handler) : s'.Active where
  master := by
    intro hstarted
    rw [hmaster]
    refine h.master (hstate.elim id fun hsame => ?_)
    rwa [← hsame]
  running := by rw [hmaster]; exact h.running
  incomingOpen := by rw [hincoming]; exact h.incomingOpen
  outgoingOpen := by rw [houtgoing]; exact h.outgoingOpen
  outgoing := by rw [hout, hmaster]; exact h.outgoing
  handler := by rw [hhandler, hmaster]; exact h.handler

/-- A move of the master that creates no thread of the two. -/
theorem Active.masterMoves (h : s.Active) {pc : MasterPc} (hcreated : pc ≠ .notCreated)
    (hrunning : pc.stopping = false) (hstage : pc.stage ≤ s.master.stage) :
    ({ s with master := pc }).Active where
  master _ := hcreated
  running := hrunning
  incomingOpen := h.incomingOpen
  outgoingOpen := h.outgoingOpen
  outgoing hle := h.outgoing (hle.trans hstage)
  handler hle := h.handler (hle.trans hstage)

/-- A move of the thread that puts, or of the handler thread. -/
theorem Active.outgoingMoves (h : s.Active) {pc : OutgoingPc Envelope} (hruns : pc.runs = true) :
    ({ s with outgoing := pc }).Active :=
  { h with outgoing := fun _ => hruns }

theorem Active.handlerMoves (h : s.Active) {pc : HandlerPc Envelope} (hruns : pc.runs = true) :
    ({ s with handler := pc }).Active :=
  { h with handler := fun _ => hruns }

variable [DecidableEq Envelope]

theorem Active.step (h : s.Active) {e : Event Envelope} (hs : step classId s e = some s')
    (hgoes : ¬ s'.isExiting) : s'.Active := by
  cases e with
  | send envelope =>
    cases hs
    unfold MessageDispatcher.send
    split
    · exact h
    · next queue hpush =>
      obtain ⟨hopen, hopen', -⟩ := ThreadsafeQueue.push_eq_some hpush
      exact h.frame (.inr rfl) rfl rfl (hopen'.trans hopen.symm) rfl rfl
  | startQueueing =>
    obtain ⟨-, rfl⟩ := of_onlyIf hs
    unfold MessageDispatcher.startQueueing
    split
    · exact h
    · have hmoved : ({ s with master := .lock }).Active :=
        h.masterMoves (by decide) rfl (Nat.zero_le _)
      exact { hmoved with master := fun _ => show MasterPc.lock ≠ .notCreated by decide }
  | startDispatching =>
    obtain ⟨-, rfl⟩ := of_onlyIf hs
    unfold MessageDispatcher.startDispatching
    split
    · exact h
    · next hstate =>
      refine h.frame (.inl ?_) rfl rfl rfl rfl rfl
      rw [not_not.mp hstate]
      decide
  | postQuit =>
    obtain ⟨-, rfl⟩ := of_onlyIf hs
    unfold MessageDispatcher.postQuit at hgoes ⊢
    split
    · exact h
    · next hrunning => exact absurd (.inl (by rw [if_neg hrunning])) hgoes
  | postError | incomingPosts | outgoingPosts | handlerPosts =>
    obtain ⟨-, rfl⟩ := of_onlyIf hs
    exact absurd (.inl rfl) hgoes
  | joinMaster | waitForExitReturns | incomingTests | getEnvelopeReturns | getEnvelopeThrows =>
    obtain ⟨-, rfl⟩ := of_onlyIf hs
    exact h.frame (.inr rfl) rfl rfl rfl rfl rfl
  | incomingPushes envelope =>
    obtain ⟨-, rfl⟩ := of_onlyIf hs
    unfold MessageDispatcher.pushIncoming
    split
    · exact h.frame (.inr rfl) rfl rfl rfl rfl rfl
    · next queue hpush =>
      obtain ⟨hopen, hopen', -⟩ := ThreadsafeQueue.push_eq_some hpush
      exact h.frame (.inr rfl) rfl (hopen'.trans hopen.symm) rfl rfl rfl
  | outgoingTests =>
    obtain ⟨-, rfl⟩ := of_onlyIf hs
    rw [if_neg fun hstate => hgoes (.inl hstate)]
    exact h.outgoingMoves rfl
  | outgoingPops =>
    obtain ⟨-, rfl⟩ := of_onlyIf hs
    unfold MessageDispatcher.popOutgoing
    split
    · exact h.outgoingMoves rfl
    · exact h.outgoingMoves rfl
    · next queue hpop =>
      have hopen := (ThreadsafeQueue.pop_eq_item hpop).2.2.trans h.outgoingOpen
      exact { h.outgoingMoves rfl with outgoingOpen := hopen }
  | putEnvelopeCalled | putEnvelopeReturns =>
    obtain ⟨-, rfl⟩ := of_onlyIf hs
    exact { h.outgoingMoves rfl with }
  | putEnvelopeThrows envelope e =>
    obtain ⟨-, rfl⟩ := of_onlyIf hs
    exact h.outgoingMoves (OutgoingPc.runs_afterThrow _)
  | outgoingCounts envelope =>
    obtain ⟨-, rfl⟩ := of_onlyIf hs
    exact { h.outgoingMoves rfl with }
  | handlerTests =>
    obtain ⟨-, rfl⟩ := of_onlyIf hs
    rw [if_neg fun hstate => hgoes (.inl hstate)]
    exact h.handlerMoves rfl
  | handlerPops =>
    obtain ⟨-, rfl⟩ := of_onlyIf hs
    unfold MessageDispatcher.popIncoming
    split
    · exact h.handlerMoves rfl
    · exact h.handlerMoves rfl
    · next queue hpop =>
      have hopen := (ThreadsafeQueue.pop_eq_item hpop).2.2.trans h.incomingOpen
      exact { h.handlerMoves rfl with incomingOpen := hopen }
  | handlerTimesOut | handleMessageCalled | handlerReturns | handlerCounts =>
    obtain ⟨-, rfl⟩ := of_onlyIf hs
    exact { h.handlerMoves rfl with }
  | handlerThrows e =>
    obtain ⟨-, rfl⟩ := of_onlyIf hs
    exact h.handlerMoves (HandlerPc.runs_afterThrow _)
  | masterLocks | masterWakesDispatching | masterWakesExiting =>
    obtain ⟨hpc, rfl⟩ := of_onlyIf hs
    exact h.masterMoves (by decide) rfl (by rw [hpc]; decide)
  | masterStartsIncoming =>
    obtain ⟨hpc, rfl⟩ := of_onlyIf hs
    exact
      { h with
        master := fun _ => show MasterPc.testDispatching ≠ .notCreated by decide
        running := rfl
        outgoing := fun hle => absurd hle (show ¬ 2 ≤ 1 by decide)
        handler := fun hle => absurd hle (show ¬ 3 ≤ 1 by decide) }
  | masterTestsDispatching =>
    obtain ⟨hpc, rfl⟩ := of_onlyIf hs
    rw [if_neg fun hstate => hgoes (.inl hstate)]
    split
    · exact h.masterMoves (by decide) rfl (by rw [hpc]; decide)
    · exact h.masterMoves (by decide) rfl (by rw [hpc]; decide)
  | masterTestsExiting =>
    obtain ⟨hpc, rfl⟩ := of_onlyIf hs
    rw [if_neg fun hstate => hgoes (.inl hstate)]
    exact h.masterMoves (by decide) rfl (by rw [hpc]; decide)
  | masterStartsOutgoing =>
    obtain ⟨hpc, rfl⟩ := of_onlyIf hs
    exact
      { h with
        master := fun _ => show MasterPc.startHandler ≠ .notCreated by decide
        running := rfl
        outgoing := fun _ => rfl
        handler := fun hle => absurd hle (show ¬ 3 ≤ 2 by decide) }
  | masterStartsHandler =>
    obtain ⟨hpc, rfl⟩ := of_onlyIf hs
    exact
      { h with
        master := fun _ => show MasterPc.testExiting ≠ .notCreated by decide
        running := rfl
        outgoing := fun _ => h.outgoing (by rw [hpc]; decide)
        handler := fun _ => rfl }
  | masterJoinsIncoming | masterJoinsOutgoing | masterJoinsHandler =>
    obtain ⟨⟨hpc, -⟩, rfl⟩ := of_onlyIf hs
    have hrunning := h.running
    rw [hpc] at hrunning
    cases hrunning
  | masterShutsIncoming | masterShutsOutgoing | masterShutsSource | masterUnlocks
  | masterNotifies | masterExits =>
    obtain ⟨hpc, rfl⟩ := of_onlyIf hs
    have hrunning := h.running
    rw [hpc] at hrunning
    cases hrunning

/-- A dispatcher that is exiting does not come back. -/
theorem isExiting_of_step (h : s.isExiting) {e : Event Envelope}
    (hs : step classId s e = some s') : s'.isExiting := by
  cases hposts : e.posts with
  | none =>
    have hlate : s.NoLateError e := fun reason hsome => by cases hposts.symm.trans hsome
    exact (exitsAs_step h hlate hs).exiting
  | some reason => exact .inl (posts_step hposts hs).1

/-- A dispatcher that dispatches does so until it exits. -/
theorem dispatching_of_step (hdispatching : s.mState = .Dispatching) {e : Event Envelope}
    (hs : step classId s e = some s') : s'.mState = .Dispatching ∨ s'.isExiting := by
  cases hwrites : e.writesState with
  | false =>
    have hsame := mState_of_step hwrites hs
    exact .inl (hsame.trans hdispatching)
  | true =>
    cases e with
    | startQueueing =>
      obtain ⟨-, rfl⟩ := of_onlyIf hs
      unfold MessageDispatcher.startQueueing
      rw [if_pos (by rw [hdispatching]; decide)]
      exact .inl hdispatching
    | startDispatching =>
      obtain ⟨-, rfl⟩ := of_onlyIf hs
      unfold MessageDispatcher.startDispatching
      rw [if_pos (by rw [hdispatching]; decide)]
      exact .inl hdispatching
    | postQuit =>
      obtain ⟨-, rfl⟩ := of_onlyIf hs
      unfold MessageDispatcher.postQuit
      split
      · next hexiting => exact .inr hexiting
      · exact .inr (.inl rfl)
    | postError | incomingPosts | outgoingPosts | handlerPosts =>
      obtain ⟨-, rfl⟩ := of_onlyIf hs
      exact .inr (.inl rfl)
    | masterExits =>
      obtain ⟨-, rfl⟩ := of_onlyIf hs
      exact .inr (.inr rfl)
    | _ => cases hwrites

/-! ## What a step does on the way -/

/-- Nothing but the queue is any different. -/
structure Way.Keeps (way : Way) (s s' : MessageDispatcher Envelope) : Prop where
  arrived : way.arrived s' = way.arrived s
  toNext : way.toNext s' = way.toNext s
  toStarted : s'.master.toStarted = s.master.toStarted
  queued : (way.queued s).length ≤ (way.queued s').length
  fails : way.Fails s → way.Fails s'

/-- A step brings the next envelope nearer, or is another thread's, or the queue is
    empty. -/
inductive Way.Advances (way : Way) (s s' : MessageDispatcher Envelope) (e : Event Envelope) : Prop
  | fails (h : way.Fails s')
  | keeps (h : way.Keeps s s') (hother : e.thread ≠ some way.thread)
      (hmaster : e.thread = some .master → s.master.toStarted = 0)
  | starts (harrived : way.arrived s' = way.arrived s) (hqueued : way.queued s' = way.queued s)
      (htoNext : way.toNext s' ≤ way.toNext s) (hlt : s'.master.toStarted < s.master.toStarted)
      (hfails : way.Fails s → way.Fails s')
  | nears (harrived : way.arrived s' = way.arrived s) (hqueued : way.queued s' = way.queued s)
      (hlt : way.toNext s' < way.toNext s) (hmaster : s'.master = s.master)
  | arrives (harrived : (way.arrived s').length = (way.arrived s).length + 1)
      (hqueued : way.queued s' = way.queued s) (hmoves : 0 < way.toNext s)
      (hle : way.toNext s' ≤ 6) (hmaster : s'.master = s.master)
  | waits (hempty : (way.queued s).length ≤ (way.arrived s).length)
      (harrived : way.arrived s' = way.arrived s) (hqueued : way.queued s' = way.queued s)
      (hmoves : 0 < way.toNext s) (hle : way.toNext s' ≤ 6) (hmaster : s'.master = s.master)

theorem Way.Keeps.outgoing {e : Event Envelope} (hs : step classId s e = some s')
    (houtgoing : s'.outgoing = s.outgoing) (hput : s'.put = s.put)
    (hqueued : s.mOutgoingQueue.pushed.length ≤ s'.mOutgoingQueue.pushed.length)
    (hstarted : s'.master.toStarted = s.master.toStarted) : Way.outgoing.Keeps s s' where
  arrived := hput
  toNext := congrArg OutgoingPc.toPut houtgoing
  toStarted := hstarted
  queued := hqueued
  fails := by
    rintro (hexiting | ⟨reason, hpc⟩)
    · exact .inl (isExiting_of_step hexiting hs)
    · exact .inr ⟨reason, houtgoing.trans hpc⟩

theorem Way.Keeps.incoming {e : Event Envelope} (hs : step classId s e = some s')
    (hhandler : s'.handler = s.handler) (hhandled : s'.handled = s.handled)
    (hqueued : s.mIncomingQueue.pushed.length ≤ s'.mIncomingQueue.pushed.length)
    (hstarted : s'.master.toStarted = s.master.toStarted) : Way.incoming.Keeps s s' where
  arrived := hhandled
  toNext := congrArg HandlerPc.toHandle hhandler
  toStarted := hstarted
  queued := hqueued
  fails := by
    rintro (hexiting | ⟨reason, hpc⟩)
    · exact .inl (isExiting_of_step hexiting hs)
    · exact .inr ⟨reason, hhandler.trans hpc⟩

/-- A step of a caller or of the incoming thread, which only adds to the queues. -/
theorem Way.Advances.of_others (way : Way) {e : Event Envelope} (hs : step classId s e = some s')
    (hthread : e.thread = none ∨ e.thread = some .incoming)
    (hmaster : s'.master.toStarted = s.master.toStarted) (houtgoing : s'.outgoing = s.outgoing)
    (hhandler : s'.handler = s.handler) (hput : s'.put = s.put) (hhandled : s'.handled = s.handled)
    (hqueued : ∀ way : Way, (way.queued s).length ≤ (way.queued s').length) :
    way.Advances s s' e := by
  have hother : ∀ t : Thread, t ≠ .incoming → e.thread ≠ some t := by
    intro t ht hsome
    rcases hthread with hnone | hincoming
    · cases hnone.symm.trans hsome
    · exact ht (Option.some.inj (hsome.symm.trans hincoming))
  have hnot : e.thread = some .master → s.master.toStarted = 0 :=
    fun hsome => absurd hsome (hother .master (by nofun))
  cases way with
  | outgoing =>
    exact .keeps (.outgoing hs houtgoing hput (hqueued .outgoing) hmaster)
      (hother _ (by nofun)) hnot
  | incoming =>
    exact .keeps (.incoming hs hhandler hhandled (hqueued .incoming) hmaster)
      (hother _ (by nofun)) hnot

/-- A step of the master: it starts the threads and then waits for the exit. -/
theorem Way.Advances.of_master (way : Way) (hc : s.Creates) (hactive : s.Active)
    (hdispatching : s.mState = .Dispatching) {e : Event Envelope}
    (hthread : e.thread = some .master) (hs : step classId s e = some s') :
    way.Advances s s' e := by
  have hgoes : ¬ s.mState = .Exiting := by rw [hdispatching]; decide
  have hrunning := hactive.running
  -- the master leaves `pc` and is nearer to having started the threads
  have hstarts : ∀ {pc : MasterPc}, s.master = pc → s'.master.toStarted < pc.toStarted →
      way.arrived s' = way.arrived s → way.queued s' = way.queued s →
      way.toNext s' ≤ way.toNext s → (way.Fails s → way.Fails s') → way.Advances s s' e := by
    intro pc hpc hlt harrived hqueued htoNext hfails
    exact .starts harrived hqueued htoNext (by rw [hpc]; exact hlt) hfails
  cases e with
  | masterLocks | masterWakesDispatching =>
    obtain ⟨hpc, rfl⟩ := of_onlyIf hs
    cases way <;> exact hstarts hpc (Nat.lt_succ_self _) rfl rfl (Nat.le_refl _) id
  | masterStartsIncoming =>
    obtain ⟨hpc, rfl⟩ := of_onlyIf hs
    cases way <;> exact hstarts hpc (show 3 < 5 by decide) rfl rfl (Nat.le_refl _) id
  | masterTestsDispatching =>
    obtain ⟨hpc, rfl⟩ := of_onlyIf hs
    rw [if_pos hdispatching] at hstarts ⊢
    cases way <;> exact hstarts hpc (Nat.lt_succ_self _) rfl rfl (Nat.le_refl _) id
  | masterStartsOutgoing =>
    obtain ⟨hpc, rfl⟩ := of_onlyIf hs
    have hnew := hc.outgoing (by rw [hpc]; decide)
    cases way with
    | outgoing =>
      have hle : (.testState : OutgoingPc Envelope).toPut ≤ s.outgoing.toPut := by
        rw [hnew]
        exact Nat.le_succ 4
      have hfails : Way.outgoing.Fails s → Way.outgoing.Fails { s with
          outgoing := .testState, master := .startHandler } := by
        rintro (hexiting | ⟨reason, hpc'⟩)
        · exact .inl hexiting
        · cases hnew.symm.trans hpc'
      exact hstarts hpc (Nat.lt_succ_self _) rfl rfl hle hfails
    | incoming => exact hstarts hpc (Nat.lt_succ_self _) rfl rfl (Nat.le_refl _) id
  | masterStartsHandler =>
    obtain ⟨hpc, rfl⟩ := of_onlyIf hs
    have hnew := hc.handler (by rw [hpc]; decide)
    cases way with
    | outgoing => exact hstarts hpc (Nat.lt_succ_self _) rfl rfl (Nat.le_refl _) id
    | incoming =>
      have hle : (.testState : HandlerPc Envelope).toHandle ≤ s.handler.toHandle := by
        rw [hnew]
        exact Nat.le_succ 4
      have hfails : Way.incoming.Fails s → Way.incoming.Fails { s with
          handler := .testState, master := .testExiting } := by
        rintro (hexiting | ⟨reason, hpc'⟩)
        · exact .inl hexiting
        · cases hnew.symm.trans hpc'
      exact hstarts hpc (Nat.lt_succ_self _) rfl rfl hle hfails
  | masterTestsExiting =>
    have hstep := hs
    obtain ⟨hpc, rfl⟩ := of_onlyIf hs
    have hzero : s.master.toStarted = 0 := by rw [hpc]; rfl
    have hkept : (if s.mState = .Exiting then MasterPc.shutdownIncoming
        else .waitExiting).toStarted = s.master.toStarted := by
      rw [if_neg hgoes, hpc]
      rfl
    cases way with
    | outgoing =>
      exact .keeps (.outgoing hstep rfl rfl (Nat.le_refl _) hkept) (by nofun) fun _ => hzero
    | incoming =>
      exact .keeps (.incoming hstep rfl rfl (Nat.le_refl _) hkept) (by nofun) fun _ => hzero
  | masterWakesExiting =>
    have hstep := hs
    obtain ⟨hpc, rfl⟩ := of_onlyIf hs
    have hzero : s.master.toStarted = 0 := by rw [hpc]; rfl
    cases way with
    | outgoing =>
      exact .keeps (.outgoing hstep rfl rfl (Nat.le_refl _) hzero.symm) (by nofun) fun _ => hzero
    | incoming =>
      exact .keeps (.incoming hstep rfl rfl (Nat.le_refl _) hzero.symm) (by nofun) fun _ => hzero
  | masterJoinsIncoming | masterJoinsOutgoing | masterJoinsHandler =>
    obtain ⟨⟨hpc, -⟩, -⟩ := of_onlyIf hs
    rw [hpc] at hrunning
    cases hrunning
  | masterShutsIncoming | masterShutsOutgoing | masterShutsSource | masterUnlocks
  | masterNotifies | masterExits =>
    obtain ⟨hpc, -⟩ := of_onlyIf hs
    rw [hpc] at hrunning
    cases hrunning
  | _ => cases hthread

/-- A step of the outgoing thread. -/
theorem Way.Advances.of_outgoing (hsends : s.Sends classId) (hactive : s.Active)
    (hdispatching : s.mState = .Dispatching) {e : Event Envelope}
    (hthread : e.thread = some .outgoing) (hs : step classId s e = some s') :
    Way.outgoing.Advances s s' e := by
  have hgoes : ¬ s.mState = .Exiting := by rw [hdispatching]; decide
  -- the thread leaves `pc` and is nearer to its next call
  have hnears : ∀ {pc : OutgoingPc Envelope}, s.outgoing = pc → s'.outgoing.toPut < pc.toPut →
      s'.put = s.put → s'.mOutgoingQueue.pushed = s.mOutgoingQueue.pushed →
      s'.master = s.master → Way.outgoing.Advances s s' e := by
    intro pc hpc hlt hput hpushed hmaster
    exact .nears hput hpushed (by show _ < s.outgoing.toPut; rw [hpc]; exact hlt) hmaster
  cases e with
  | outgoingTests =>
    obtain ⟨hpc, rfl⟩ := of_onlyIf hs
    rw [if_neg hgoes] at hnears ⊢
    exact hnears hpc (Nat.lt_succ_self 3) rfl rfl rfl
  | outgoingPops =>
    obtain ⟨hpc, rfl⟩ := of_onlyIf hs
    have hput := hsends.put
    have hmore : 1 < s.outgoing.toPut := by
      rcases hpc with hpc | hpc
      · rw [hpc]
        exact (by decide : 1 < 3)
      · rw [hpc]
        exact Nat.lt_succ_self 1
    unfold MessageDispatcher.popOutgoing at hnears ⊢
    split
    · next hshut =>
      have hshutdown := ThreadsafeQueue.pop_eq_shutdownException hshut
      cases hshutdown.symm.trans hactive.outgoingOpen
    · next hempty =>
      have hnone : s.outgoing.pending = [] := by
        rcases hpc with hpc | hpc <;> rw [hpc] <;> rfl
      rw [hnone, List.append_nil] at hput
      refine .waits ?_ rfl rfl (Nat.zero_lt_of_lt hmore) (show 2 ≤ 6 by decide) rfl
      show s.mOutgoingQueue.pushed.length ≤ s.put.length
      rw [hput, ThreadsafeQueue.pushed_eq_popped_of_empty hempty]
    · next queue hpop => exact .nears rfl (ThreadsafeQueue.pop_eq_item hpop).1 hmore rfl
  | putEnvelopeCalled envelope =>
    obtain ⟨hpc, rfl⟩ := of_onlyIf hs
    have hmoves : 0 < s.outgoing.toPut := by
      rw [hpc]
      exact Nat.one_pos
    exact .arrives List.length_append rfl hmoves (Nat.le_refl 6) rfl
  | putEnvelopeReturns envelope =>
    obtain ⟨hpc, rfl⟩ := of_onlyIf hs
    exact hnears hpc (Nat.lt_succ_self 5) rfl rfl rfl
  | putEnvelopeThrows envelope e =>
    obtain ⟨hpc, rfl⟩ := of_onlyIf hs
    cases hreason : endpointError e with
    | none =>
      rw [hreason] at hnears
      exact hnears hpc (show 4 < 6 by decide) rfl rfl rfl
    | some reason => exact .fails (.inr ⟨reason, rfl⟩)
  | outgoingCounts envelope =>
    obtain ⟨hpc, rfl⟩ := of_onlyIf hs
    exact hnears hpc (Nat.lt_succ_self 4) rfl rfl rfl
  | outgoingPosts reason =>
    obtain ⟨-, rfl⟩ := of_onlyIf hs
    exact .fails (.inl (.inl rfl))
  | _ => cases hthread

/-- A step of the handler thread. -/
theorem Way.Advances.of_handler (hreceives : s.Receives) (hactive : s.Active)
    (hdispatching : s.mState = .Dispatching) {e : Event Envelope}
    (hthread : e.thread = some .handler) (hs : step classId s e = some s') :
    Way.incoming.Advances s s' e := by
  have hgoes : ¬ s.mState = .Exiting := by rw [hdispatching]; decide
  have hnears : ∀ {pc : HandlerPc Envelope}, s.handler = pc → s'.handler.toHandle < pc.toHandle →
      s'.handled = s.handled → s'.mIncomingQueue.pushed = s.mIncomingQueue.pushed →
      s'.master = s.master → Way.incoming.Advances s s' e := by
    intro pc hpc hlt hhandled hpushed hmaster
    exact .nears hhandled hpushed (by show _ < s.handler.toHandle; rw [hpc]; exact hlt) hmaster
  cases e with
  | handlerTests =>
    obtain ⟨hpc, rfl⟩ := of_onlyIf hs
    rw [if_neg hgoes] at hnears ⊢
    exact hnears hpc (Nat.lt_succ_self 3) rfl rfl rfl
  | handlerPops =>
    obtain ⟨hpc, rfl⟩ := of_onlyIf hs
    have hhandled := hreceives.handled
    have hmore : 2 < s.handler.toHandle := by
      rcases hpc with hpc | hpc
      · rw [hpc]
        exact Nat.lt_succ_self 2
      · rw [hpc]
        exact (by decide : 2 < 6)
    unfold MessageDispatcher.popIncoming at hnears ⊢
    split
    · next hshut =>
      have hshutdown := ThreadsafeQueue.pop_eq_shutdownException hshut
      cases hshutdown.symm.trans hactive.incomingOpen
    · next hempty =>
      have hnone : s.handler.pending = [] := by
        rcases hpc with hpc | hpc <;> rw [hpc] <;> rfl
      rw [hnone, List.append_nil] at hhandled
      refine .waits ?_ rfl rfl (Nat.zero_lt_of_lt hmore) (Nat.le_refl 6) rfl
      show s.mIncomingQueue.pushed.length ≤ s.handled.length
      rw [hhandled, ThreadsafeQueue.pushed_eq_popped_of_empty hempty]
    · next queue hpop => exact .nears rfl (ThreadsafeQueue.pop_eq_item hpop).1 hmore rfl
  | handlerTimesOut =>
    obtain ⟨⟨hpc, -⟩, rfl⟩ := of_onlyIf hs
    exact hnears hpc (Nat.lt_succ_self 5) rfl rfl rfl
  | handlerCounts envelope =>
    obtain ⟨hpc, rfl⟩ := of_onlyIf hs
    exact hnears hpc (Nat.lt_succ_self 1) rfl rfl rfl
  | handleMessageCalled envelope =>
    obtain ⟨hpc, rfl⟩ := of_onlyIf hs
    have hmoves : 0 < s.handler.toHandle := by
      rw [hpc]
      exact Nat.one_pos
    exact .arrives List.length_append rfl hmoves (show 5 ≤ 6 by decide) rfl
  | handlerReturns =>
    obtain ⟨hpc, rfl⟩ := of_onlyIf hs
    exact hnears hpc (Nat.lt_succ_self 4) rfl rfl rfl
  | handlerThrows e =>
    obtain ⟨hpc, rfl⟩ := of_onlyIf hs
    cases hreason : handlerError e with
    | none =>
      rw [hreason] at hnears
      exact hnears hpc (Nat.lt_succ_self 4) rfl rfl rfl
    | some reason => exact .fails (.inr ⟨reason, rfl⟩)
  | handlerPosts reason =>
    obtain ⟨-, rfl⟩ := of_onlyIf hs
    exact .fails (.inl (.inl rfl))
  | _ => cases hthread

/-- The outgoing thread leaves the incoming way alone, and the handler thread the
    outgoing way. -/
theorem Way.Keeps.of_outgoing {e : Event Envelope} (hthread : e.thread = some .outgoing)
    (hs : step classId s e = some s') : Way.incoming.Keeps s s' := by
  cases e with
  | outgoingPops =>
    have hstep := hs
    obtain ⟨-, rfl⟩ := of_onlyIf hs
    unfold MessageDispatcher.popOutgoing at hstep ⊢
    split at hstep <;> exact .incoming hstep rfl rfl (Nat.le_refl _) rfl
  | outgoingTests | putEnvelopeCalled | putEnvelopeReturns | putEnvelopeThrows | outgoingCounts
  | outgoingPosts =>
    have hstep := hs
    obtain ⟨-, rfl⟩ := of_onlyIf hs
    exact .incoming hstep rfl rfl (Nat.le_refl _) rfl
  | _ => cases hthread

theorem Way.Keeps.of_handler {e : Event Envelope} (hthread : e.thread = some .handler)
    (hs : step classId s e = some s') : Way.outgoing.Keeps s s' := by
  cases e with
  | handlerPops =>
    have hstep := hs
    obtain ⟨-, rfl⟩ := of_onlyIf hs
    unfold MessageDispatcher.popIncoming at hstep ⊢
    split at hstep <;> exact .outgoing hstep rfl rfl (Nat.le_refl _) rfl
  | handlerTests | handlerTimesOut | handlerCounts | handleMessageCalled | handlerReturns
  | handlerThrows | handlerPosts =>
    have hstep := hs
    obtain ⟨-, rfl⟩ := of_onlyIf hs
    exact .outgoing hstep rfl rfl (Nat.le_refl _) rfl
  | _ => cases hthread

/-- The steps of the callers and of the incoming thread. -/
theorem Way.Advances.of_callers (way : Way) (hdispatching : s.mState = .Dispatching)
    {e : Event Envelope} (hthread : e.thread = none ∨ e.thread = some .incoming)
    (hs : step classId s e = some s') : way.Advances s s' e := by
  have hstep := hs
  cases e with
  | send envelope =>
    cases hs
    unfold MessageDispatcher.send at hstep ⊢
    split at hstep
    · exact .of_others way hstep hthread rfl rfl rfl rfl rfl fun way => Nat.le_refl _
    · next queue hpush =>
      obtain ⟨-, -, hpushed, -⟩ := ThreadsafeQueue.push_eq_some hpush
      refine .of_others way hstep hthread rfl rfl rfl rfl rfl fun way => ?_
      cases way with
      | outgoing =>
        show s.mOutgoingQueue.pushed.length ≤ queue.pushed.length
        rw [hpushed, List.length_append]
        exact Nat.le_add_right _ _
      | incoming => exact Nat.le_refl _
  | startQueueing =>
    obtain ⟨-, rfl⟩ := of_onlyIf hs
    unfold MessageDispatcher.startQueueing at hstep ⊢
    rw [if_pos (by rw [hdispatching]; decide)] at hstep ⊢
    exact .of_others way hstep hthread rfl rfl rfl rfl rfl fun way => Nat.le_refl _
  | startDispatching =>
    obtain ⟨-, rfl⟩ := of_onlyIf hs
    unfold MessageDispatcher.startDispatching at hstep ⊢
    rw [if_pos (by rw [hdispatching]; decide)] at hstep ⊢
    exact .of_others way hstep hthread rfl rfl rfl rfl rfl fun way => Nat.le_refl _
  | postQuit =>
    obtain ⟨-, rfl⟩ := of_onlyIf hs
    have hrunning : ¬ (s.mState = .Exiting ∨ s.mState = .Exited) := by
      rw [hdispatching]
      decide
    unfold MessageDispatcher.postQuit
    rw [if_neg hrunning]
    cases way <;> exact .fails (.inl (.inl rfl))
  | postError reason =>
    obtain ⟨-, rfl⟩ := of_onlyIf hs
    cases way <;> exact .fails (.inl (.inl rfl))
  | incomingPosts reason =>
    obtain ⟨-, rfl⟩ := of_onlyIf hs
    cases way <;> exact .fails (.inl (.inl rfl))
  | joinMaster | waitForExitReturns | incomingTests | getEnvelopeReturns | getEnvelopeThrows =>
    obtain ⟨-, rfl⟩ := of_onlyIf hs
    refine .of_others way hstep hthread rfl rfl rfl rfl rfl fun way => ?_
    cases way <;> exact Nat.le_refl _
  | incomingPushes envelope =>
    obtain ⟨-, rfl⟩ := of_onlyIf hs
    unfold MessageDispatcher.pushIncoming at hstep ⊢
    split at hstep
    · refine .of_others way hstep hthread rfl rfl rfl rfl rfl fun way => ?_
      cases way <;> exact Nat.le_refl _
    · next queue hpush =>
      obtain ⟨-, -, hpushed, -⟩ := ThreadsafeQueue.push_eq_some hpush
      refine .of_others way hstep hthread rfl rfl rfl rfl rfl fun way => ?_
      cases way with
      | outgoing => exact Nat.le_refl _
      | incoming =>
        show s.mIncomingQueue.pushed.length ≤ queue.pushed.length
        rw [hpushed, List.length_append]
        exact Nat.le_add_right _ _
  | _ => rcases hthread with hthread | hthread <;> cases hthread

/-- What a step does on a way of a dispatcher that dispatches. -/
theorem advances_of_step (way : Way) (hI : s.Invariant classId) (hactive : s.Active)
    (hdispatching : s.mState = .Dispatching) {e : Event Envelope}
    (hs : step classId s e = some s') : way.Advances s s' e := by
  cases hthread : e.thread with
  | none => exact .of_callers way hdispatching (.inl hthread) hs
  | some t =>
    cases t with
    | master => exact .of_master way hI.creates hactive hdispatching hthread hs
    | incoming => exact .of_callers way hdispatching (.inr hthread) hs
    | outgoing =>
      cases way with
      | outgoing => exact .of_outgoing hI.sends hactive hdispatching hthread hs
      | incoming =>
        exact .keeps (.of_outgoing hthread hs) (by rw [hthread]; nofun) (by rw [hthread]; nofun)
    | handler =>
      cases way with
      | outgoing =>
        exact .keeps (.of_handler hthread hs) (by rw [hthread]; nofun) (by rw [hthread]; nofun)
      | incoming => exact .of_handler hI.receives hactive hdispatching hthread hs

/-! ## Up to the last of what was taken -/

omit [DecidableEq Envelope] in
theorem Way.Fails.isExiting_of_toNext_pos {way : Way} (h : way.Fails s)
    (hmoves : 0 < way.toNext s) : s.isExiting := by
  cases way with
  | outgoing =>
    rcases h with hexiting | ⟨reason, hpc⟩
    · exact hexiting
    · have hzero : s.outgoing.toPut = 0 := by rw [hpc]; rfl
      exact absurd hzero (Nat.ne_of_gt hmoves)
  | incoming =>
    rcases h with hexiting | ⟨reason, hpc⟩
    · exact hexiting
    · have hzero : s.handler.toHandle = 0 := by rw [hpc]; rfl
      exact absurd hzero (Nat.ne_of_gt hmoves)

omit [DecidableEq Envelope] in
theorem Way.Fails.of_isExiting (way : Way) (h : s.isExiting) : way.Fails s := by
  cases way <;> exact .inl h

/-- What was taken stays taken. -/
theorem taken_of_step (way : Way) {e : Event Envelope} (hs : step classId s e = some s') :
    way.taken s <+: way.taken s' := by
  have hsame : s'.sent = s.sent → s'.got = s.got → way.taken s <+: way.taken s' := by
    intro hsent hgot
    cases way with
    | outgoing => exact ⟨[], (List.append_nil _).trans hsent.symm⟩
    | incoming => exact ⟨[], (List.append_nil _).trans hgot.symm⟩
  cases e with
  | send envelope =>
    cases hs
    unfold MessageDispatcher.send at hsame ⊢
    split at hsame
    · exact hsame rfl rfl
    · cases way with
      | outgoing => exact List.prefix_append _ _
      | incoming => exact List.prefix_refl _
  | getEnvelopeReturns envelope =>
    obtain ⟨-, rfl⟩ := of_onlyIf hs
    cases way with
    | outgoing => exact List.prefix_refl _
    | incoming => exact List.prefix_append _ _
  | startQueueing =>
    obtain ⟨-, rfl⟩ := of_onlyIf hs
    refine hsame ?_ ?_ <;> unfold MessageDispatcher.startQueueing <;> split <;> rfl
  | startDispatching =>
    obtain ⟨-, rfl⟩ := of_onlyIf hs
    refine hsame ?_ ?_ <;> unfold MessageDispatcher.startDispatching <;> split <;> rfl
  | postQuit =>
    obtain ⟨-, rfl⟩ := of_onlyIf hs
    refine hsame ?_ ?_ <;> unfold MessageDispatcher.postQuit <;> split <;> rfl
  | incomingPushes envelope =>
    obtain ⟨-, rfl⟩ := of_onlyIf hs
    refine hsame ?_ ?_ <;> unfold MessageDispatcher.pushIncoming <;> split <;> rfl
  | outgoingPops =>
    obtain ⟨-, rfl⟩ := of_onlyIf hs
    refine hsame ?_ ?_ <;> unfold MessageDispatcher.popOutgoing <;> split <;> rfl
  | handlerPops =>
    obtain ⟨-, rfl⟩ := of_onlyIf hs
    refine hsame ?_ ?_ <;> unfold MessageDispatcher.popIncoming <;> split <;> rfl
  | _ =>
    obtain ⟨-, rfl⟩ := of_onlyIf hs
    exact hsame rfl rfl

/-- A dispatcher that dispatches, or did, and that has taken these envelopes. -/
structure Way.Takes (classId : Envelope → UUID) (way : Way) (envelopes : List Envelope)
    (s : MessageDispatcher Envelope) : Prop where
  reachable : (system classId).Reachable s
  state : s.mState = .Dispatching ∨ s.isExiting
  active : ¬ s.isExiting → s.Active
  taken : envelopes <+: way.taken s

variable {way : Way} {envelopes : List Envelope}

theorem Way.Takes.step (h : way.Takes classId envelopes s) {e : Event Envelope}
    (hs : step classId s e = some s') : way.Takes classId envelopes s' where
  reachable := h.reachable.next trivial hs
  state := by
    rcases h.state with hdispatching | hexiting
    · exact dispatching_of_step hdispatching hs
    · exact .inr (isExiting_of_step hexiting hs)
  active hgoes := by
    have hbefore : ¬ s.isExiting := fun hexiting => hgoes (isExiting_of_step hexiting hs)
    exact (h.active hbefore).step hs hgoes
  taken := h.taken.trans (taken_of_step way hs)

/-- The way has failed, or all of them have arrived. -/
def Way.Done (way : Way) (envelopes : List Envelope) (s : MessageDispatcher Envelope) : Prop :=
  way.Fails s ∨ envelopes.length ≤ (way.arrived s).length

theorem Way.Takes.advances (h : way.Takes classId envelopes s) (hgoes : ¬ s.isExiting)
    {e : Event Envelope} (hs : MessageDispatcher.step classId s e = some s') :
    way.Advances s s' e :=
  advances_of_step way (invariant_of_reachable h.reachable) (h.active hgoes)
    (h.state.resolve_right hgoes) hs

/-- What is done stays done. -/
theorem Way.Takes.done (h : way.Takes classId envelopes s) (hdone : way.Done envelopes s)
    {e : Event Envelope} (hs : MessageDispatcher.step classId s e = some s') :
    way.Done envelopes s' := by
  by_cases hexiting : s.isExiting
  · exact .inl (.of_isExiting way (isExiting_of_step hexiting hs))
  · have hmore : ∀ {n}, n ≤ (way.arrived s).length → way.arrived s' = way.arrived s →
        n ≤ (way.arrived s').length := fun hle harrived => harrived ▸ hle
    have hfailed : way.Fails s → 0 < way.toNext s → way.Done envelopes s' := fun hfails hmoves =>
      absurd (hfails.isExiting_of_toNext_pos hmoves) hexiting
    cases h.advances hexiting hs with
    | fails hfails => exact .inl hfails
    | keeps hkeeps => exact hdone.imp hkeeps.fails fun hle => hmore hle hkeeps.arrived
    | starts harrived _ _ _ hfails => exact hdone.imp hfails fun hle => hmore hle harrived
    | nears harrived _ hlt =>
      rcases hdone with hfails | hle
      · exact hfailed hfails (Nat.zero_lt_of_lt hlt)
      · exact .inr (hmore hle harrived)
    | arrives harrived _ hmoves =>
      rcases hdone with hfails | hle
      · exact hfailed hfails hmoves
      · exact .inr (harrived ▸ Nat.le_succ_of_le hle)
    | waits _ harrived _ hmoves =>
      rcases hdone with hfails | hle
      · exact hfailed hfails hmoves
      · exact .inr (hmore hle harrived)

open Classical in
/-- The rounds that are left, and what is left of this one. -/
noncomputable def Way.left (way : Way) (envelopes : List Envelope)
    (s : MessageDispatcher Envelope) : Nat :=
  if way.Done envelopes s then 0
  else 16 * (envelopes.length - (way.arrived s).length) +
    if envelopes.length ≤ (way.queued s).length then way.toNext s + s.master.toStarted else 15

omit [DecidableEq Envelope] in
theorem Way.left_pos (hnot : ¬ way.Done envelopes s) : 0 < way.left envelopes s := by
  have hless : ¬ envelopes.length ≤ (way.arrived s).length := fun hle => hnot (.inr hle)
  rw [Way.left, if_neg hnot]
  omega

omit [DecidableEq Envelope] in
/-- Everything is queued: what is left of the round are the steps to the next call. -/
theorem Way.left_of_queued (hnot : ¬ way.Done envelopes s)
    (hqueued : envelopes.length ≤ (way.queued s).length) :
    way.left envelopes s =
      16 * (envelopes.length - (way.arrived s).length) + (way.toNext s + s.master.toStarted) := by
  rw [Way.left, if_neg hnot, if_pos hqueued]

omit [DecidableEq Envelope] in
theorem Way.left_of_not_queued (hnot : ¬ way.Done envelopes s)
    (hqueued : ¬ envelopes.length ≤ (way.queued s).length) :
    way.left envelopes s = 16 * (envelopes.length - (way.arrived s).length) + 15 := by
  rw [Way.left, if_neg hnot, if_neg hqueued]

omit [DecidableEq Envelope] in
theorem Way.toNext_le (way : Way) (s : MessageDispatcher Envelope) : way.toNext s ≤ 6 := by
  cases way with
  | outgoing =>
    show s.outgoing.toPut ≤ 6
    cases s.outgoing <;> simp [OutgoingPc.toPut]
  | incoming =>
    show s.handler.toHandle ≤ 6
    cases s.handler <;> simp [HandlerPc.toHandle]

theorem toStarted_le (pc : MasterPc) : pc.toStarted ≤ 6 := by cases pc <;> decide

/-- A step uses up some of what is left, or it is a step of a thread that cannot. -/
theorem Way.Takes.left_of_step (h : way.Takes classId envelopes s)
    (hnot : ¬ way.Done envelopes s) {e : Event Envelope}
    (hs : MessageDispatcher.step classId s e = some s') (hnot' : ¬ way.Done envelopes s') :
    way.left envelopes s' < way.left envelopes s ∨
      way.left envelopes s' = way.left envelopes s ∧
        (envelopes.length ≤ (way.queued s).length ∧ envelopes.length ≤ (way.queued s').length ∧
            s'.master.toStarted = s.master.toStarted ∧ e.thread ≠ some way.thread ∧
            (e.thread = some .master → s.master.toStarted = 0) ∨
          ¬ envelopes.length ≤ (way.queued s).length ∧
            ¬ envelopes.length ≤ (way.queued s').length) := by
  have hgoes : ¬ s.isExiting := fun hexiting => hnot (.inl (.of_isExiting way hexiting))
  have hless : ¬ envelopes.length ≤ (way.arrived s).length := fun hle => hnot (.inr hle)
  have hless' : ¬ envelopes.length ≤ (way.arrived s').length := fun hle => hnot' (.inr hle)
  have hnext := way.toNext_le s'
  have hstarted := toStarted_le s'.master
  by_cases hqueued : envelopes.length ≤ (way.queued s).length
  · rw [Way.left_of_queued hnot hqueued]
    cases h.advances hgoes hs with
    | fails hfails => exact absurd (.inl hfails) hnot'
    | keeps hkeeps hother hmaster =>
      have hqueued' := hqueued.trans hkeeps.queued
      rw [Way.left_of_queued hnot' hqueued', hkeeps.arrived, hkeeps.toNext, hkeeps.toStarted]
      exact .inr ⟨rfl, .inl ⟨hqueued, hqueued', rfl, hother, hmaster⟩⟩
    | starts harrived hsame htoNext hlt =>
      rw [Way.left_of_queued hnot' (hsame ▸ hqueued), harrived]
      omega
    | nears harrived hsame hlt hmaster =>
      rw [Way.left_of_queued hnot' (hsame ▸ hqueued), harrived, hmaster]
      omega
    | arrives harrived hsame hmoves hle hmaster =>
      rw [Way.left_of_queued hnot' (hsame ▸ hqueued), hmaster]
      omega
    | waits hempty => exact absurd (hqueued.trans hempty) hless
  · rw [Way.left_of_not_queued hnot hqueued]
    have harrived : (way.arrived s).length ≤ (way.arrived s').length := by
      cases h.advances hgoes hs with
      | fails hfails => exact absurd (.inl hfails) hnot'
      | keeps hkeeps => rw [hkeeps.arrived]
      | starts hsame | nears hsame => rw [hsame]
      | arrives hmore => exact hmore ▸ Nat.le_succ _
      | waits _ hsame => rw [hsame]
    by_cases hqueued' : envelopes.length ≤ (way.queued s').length
    · rw [Way.left_of_queued hnot' hqueued']
      omega
    · rw [Way.left_of_not_queued hnot' hqueued']
      omega

/-! ## Who brings it nearer -/

/-- The incoming thread when the last of the envelopes is not queued yet, then the
    master until the threads are there, then the thread of the way. -/
def Way.Helps (way : Way) (envelopes : List Envelope) (t : Thread)
    (s : MessageDispatcher Envelope) : Prop :=
  ¬ way.Done envelopes s ∧
    (¬ envelopes.length ≤ (way.queued s).length ∧ t = .incoming ∨
      envelopes.length ≤ (way.queued s).length ∧
        (0 < s.master.toStarted ∧ t = .master ∨ s.master.toStarted = 0 ∧ t = way.thread))

/-- What was taken and is not queued is with the incoming thread. -/
theorem Way.Takes.pushes (h : way.Takes classId envelopes s) (hgoes : ¬ s.isExiting)
    (hqueued : ¬ envelopes.length ≤ (way.queued s).length) :
    way = .incoming ∧ ∃ envelope, s.incoming = .push envelope := by
  have hI := invariant_of_reachable h.reachable
  have htaken := h.taken.length_le
  cases way with
  | outgoing =>
    refine absurd ?_ hqueued
    show envelopes.length ≤ s.mOutgoingQueue.pushed.length
    rw [← hI.sends.sent]
    exact htaken
  | incoming =>
    refine ⟨rfl, ?_⟩
    have hgot := hI.receives.got (h.active hgoes).incomingOpen
    have hlength : envelopes.length ≤ s.got.length := htaken
    rw [hgot, List.length_append] at hlength
    cases hpc : s.incoming with
    | push envelope => exact ⟨envelope, rfl⟩
    | _ =>
      rw [hpc] at hlength
      exact absurd hlength hqueued

/-- The incoming thread queues what it has got. -/
theorem Way.Takes.queues (h : way.Takes classId envelopes s) (hgoes : ¬ s.isExiting)
    (hqueued : ¬ envelopes.length ≤ (way.queued s).length) {e : Event Envelope}
    (hthread : e.thread = some .incoming) (hs : MessageDispatcher.step classId s e = some s') :
    envelopes.length ≤ (way.queued s').length := by
  obtain ⟨rfl, envelope, hpc⟩ := h.pushes hgoes hqueued
  have hopen := (h.active hgoes).incomingOpen
  have htaken : envelopes.length ≤ s.got.length := h.taken.length_le
  rw [(invariant_of_reachable h.reachable).receives.got hopen, hpc] at htaken
  cases e with
  | incomingPushes envelope' =>
    obtain ⟨hpc', rfl⟩ := of_onlyIf hs
    cases hpc.symm.trans hpc'
    show envelopes.length ≤ (s.pushIncoming envelope).mIncomingQueue.pushed.length
    unfold MessageDispatcher.pushIncoming
    split
    · next hnone =>
      have hshut := ThreadsafeQueue.push_eq_none hnone
      cases hshut.symm.trans hopen
    · next queue hpush =>
      show envelopes.length ≤ queue.pushed.length
      rw [(ThreadsafeQueue.push_eq_some hpush).2.2.1]
      exact htaken
  | incomingTests | getEnvelopeReturns | getEnvelopeThrows =>
    obtain ⟨hpc', -⟩ := of_onlyIf hs
    cases hpc.symm.trans hpc'
  | incomingPosts reason =>
    obtain ⟨⟨hpc', -⟩, -⟩ := of_onlyIf hs
    cases hpc.symm.trans hpc'
  | _ => cases hthread

theorem Way.Takes.ready (h : way.Takes classId envelopes s) {t : Thread}
    (ht : way.Helps envelopes t s) : (system classId).Ready Event.thread t s := by
  obtain ⟨hnot, hhelps⟩ := ht
  have hgoes : ¬ s.isExiting := fun hexiting => hnot (.inl (.of_isExiting way hexiting))
  have hactive := h.active hgoes
  have hmaster := hactive.master (by rw [h.state.resolve_right hgoes]; decide)
  have hrunning := hactive.running
  rcases hhelps with ⟨hqueued, rfl⟩ | ⟨-, ⟨hstarted, rfl⟩ | ⟨hstarted, rfl⟩⟩
  · obtain ⟨-, envelope, hpc⟩ := h.pushes hgoes hqueued
    exact ⟨.incomingPushes envelope, rfl, onlyIf_isSome hpc⟩
  · cases hpc : s.master with
    | lock => exact ⟨.masterLocks, rfl, onlyIf_isSome hpc⟩
    | startIncoming => exact ⟨.masterStartsIncoming, rfl, onlyIf_isSome hpc⟩
    | testDispatching => exact ⟨.masterTestsDispatching, rfl, onlyIf_isSome hpc⟩
    | waitDispatching => exact ⟨.masterWakesDispatching, rfl, onlyIf_isSome hpc⟩
    | startOutgoing => exact ⟨.masterStartsOutgoing, rfl, onlyIf_isSome hpc⟩
    | startHandler => exact ⟨.masterStartsHandler, rfl, onlyIf_isSome hpc⟩
    | _ =>
      rw [hpc] at hstarted
      exact absurd hstarted (Nat.not_lt_zero _)
  · have hstage : 3 ≤ s.master.stage := by
      cases hpc : s.master with
      | notCreated => exact absurd hpc hmaster
      | lock | startIncoming | testDispatching | waitDispatching | startOutgoing | startHandler =>
        rw [hpc] at hstarted
        cases hstarted
      | _ => exact Nat.le_refl 3
    cases way with
    | outgoing =>
      have hruns := hactive.outgoing (Nat.le_of_succ_le hstage)
      exact ready_outgoing (OutgoingPc.not_ended_of_runs hruns) fun reason hpc =>
        absurd (.inl (.inr ⟨reason, hpc⟩)) hnot
    | incoming =>
      have hruns := hactive.handler hstage
      exact ready_handler (HandlerPc.not_ended_of_runs hruns) fun reason hpc =>
        absurd (.inl (.inr ⟨reason, hpc⟩)) hnot

omit [DecidableEq Envelope] in
theorem Way.exists_helps (hnot : ¬ way.Done envelopes s) : ∃ t, way.Helps envelopes t s := by
  by_cases hqueued : envelopes.length ≤ (way.queued s).length
  · rcases Nat.eq_zero_or_pos s.master.toStarted with hzero | hstarted
    · exact ⟨way.thread, hnot, .inr ⟨hqueued, .inr ⟨hzero, rfl⟩⟩⟩
    · exact ⟨.master, hnot, .inr ⟨hqueued, .inl ⟨hstarted, rfl⟩⟩⟩
  · exact ⟨.incoming, hnot, .inl ⟨hqueued, rfl⟩⟩

omit [DecidableEq Envelope] in
/-- Less is left when what was left is done. -/
theorem Way.left_lt_of_done (hnot : ¬ way.Done envelopes s) (hdone : way.Done envelopes s') :
    way.left envelopes s' < way.left envelopes s := by
  have hpos := Way.left_pos hnot
  rw [Way.left, if_pos hdone]
  exact hpos

/-- A step of a thread that helps uses up some of what is left. -/
theorem Way.Takes.left_lt (h : way.Takes classId envelopes s) {t : Thread}
    (ht : way.Helps envelopes t s) {e : Event Envelope} (hthread : e.thread = some t)
    (hs : MessageDispatcher.step classId s e = some s') :
    way.left envelopes s' < way.left envelopes s := by
  obtain ⟨hnot, hhelps⟩ := ht
  by_cases hdone' : way.Done envelopes s'
  · exact Way.left_lt_of_done hnot hdone'
  have hgoes : ¬ s.isExiting := fun hexiting => hnot (.inl (.of_isExiting way hexiting))
  rcases h.left_of_step hnot hs hdone' with
    hlt | ⟨-, ⟨hqueued, -, -, hother, hmaster⟩ | ⟨hqueued, hqueued'⟩⟩
  · exact hlt
  · rcases hhelps with ⟨hnone, -⟩ | ⟨-, ⟨hstarted, rfl⟩ | ⟨-, rfl⟩⟩
    · exact absurd hqueued hnone
    · exact absurd (hmaster hthread) (Nat.ne_of_gt hstarted)
    · exact absurd hthread hother
  · rcases hhelps with ⟨-, rfl⟩ | ⟨hsome, -⟩
    · exact absurd (h.queues hgoes hqueued hthread hs) hqueued'
    · exact absurd hsome hqueued

/-- And while nobody does, it goes on helping. -/
theorem Way.Takes.helps_or_left_lt (h : way.Takes classId envelopes s) {t : Thread}
    (ht : way.Helps envelopes t s) {e : Event Envelope}
    (hs : MessageDispatcher.step classId s e = some s') :
    way.left envelopes s' < way.left envelopes s ∨ way.Helps envelopes t s' := by
  obtain ⟨hnot, hhelps⟩ := ht
  by_cases hdone' : way.Done envelopes s'
  · exact .inl (Way.left_lt_of_done hnot hdone')
  rcases h.left_of_step hnot hs hdone' with
    hlt | ⟨-, ⟨hqueued, hqueued', hstarted, -⟩ | ⟨hqueued, hqueued'⟩⟩
  · exact .inl hlt
  · rcases hhelps with ⟨hnone, -⟩ | ⟨-, hwho⟩
    · exact absurd hqueued hnone
    · exact .inr ⟨hdone', .inr ⟨hqueued', by rw [hstarted]; exact hwho⟩⟩
  · rcases hhelps with ⟨-, rfl⟩ | ⟨hsome, -⟩
    · exact .inr ⟨hdone', .inl ⟨hqueued', rfl⟩⟩
    · exact absurd hsome hqueued

/-! ## Every fair run -/

theorem Way.Takes.of_startedIn {s₀ : MessageDispatcher Envelope}
    (h₀ : way.Takes classId envelopes s₀)
    (h : ((system classId).startedIn s₀).Reachable s) : way.Takes classId envelopes s := by
  refine h.invariant ?_ ?_
  · rintro _ rfl
    exact h₀
  · intro s e s' hI _ hs
    exact hI.step hs

theorem Way.progress {s₀ : MessageDispatcher Envelope} (h₀ : way.Takes classId envelopes s₀) :
    ((system classId).startedIn s₀).Progress Event.thread (way.Done envelopes)
      (way.left envelopes) (way.Helps envelopes) := by
  refine ⟨?_, ?_, ?_, ?_, ?_⟩
  · intro t s hreach ht
    exact (h₀.of_startedIn hreach).ready ht
  · intro s _ hnot
    exact Way.exists_helps hnot
  · intro s e s' hreach hs
    have h := h₀.of_startedIn hreach
    by_cases hdone : way.Done envelopes s
    · rw [Way.left, if_pos (h.done hdone hs)]
      exact Nat.zero_le _
    · by_cases hdone' : way.Done envelopes s'
      · exact Nat.le_of_lt (Way.left_lt_of_done hdone hdone')
      · rcases h.left_of_step hdone hs hdone' with hlt | ⟨heq, -⟩
        · exact Nat.le_of_lt hlt
        · exact Nat.le_of_eq heq
  · intro t s e s' hreach ht hown hs
    exact (h₀.of_startedIn hreach).left_lt ht hown hs
  · intro t s e s' hreach ht hs
    exact (h₀.of_startedIn hreach).helps_or_left_lt ht hs

theorem active_of_reachable (h : (system classId).Reachable s) (hgoes : ¬ s.isExiting) :
    s.Active := by
  revert hgoes
  apply h.invariant (I := fun s => ¬ s.isExiting → s.Active)
  · rintro _ ⟨reason, idleInterval, rfl⟩ -
    exact ⟨fun hstate => absurd rfl hstate, rfl, rfl, rfl,
      fun hle => absurd hle (show ¬ 2 ≤ 0 by decide),
      fun hle => absurd hle (show ¬ 3 ≤ 0 by decide)⟩
  · intro s e s' hI _ hs hgoes
    have hbefore : ¬ s.isExiting := fun hexiting => hgoes (isExiting_of_step hexiting hs)
    exact (hI hbefore).step hs hgoes

/-- What has arrived is the first of what was taken. -/
theorem arrived_prefix_taken (way : Way) (h : (system classId).Reachable s) :
    way.arrived s <+: way.taken s := by
  have hI := invariant_of_reachable h
  cases way with
  | outgoing =>
    have hput : s.put <+: s.mOutgoingQueue.popped := hI.sends.put ▸ List.prefix_append _ _
    show s.put <+: s.sent
    rw [hI.sends.sent]
    exact hput.trans (ThreadsafeQueue.popped_prefix_pushed _)
  | incoming =>
    have hhandled : s.handled <+: s.mIncomingQueue.popped :=
      hI.receives.handled ▸ List.prefix_append _ _
    exact (hhandled.trans (ThreadsafeQueue.popped_prefix_pushed _)).trans hI.receives.pushed

/-- **What is taken arrives.**  In every fair run what was sent, and what was received,
    while the dispatcher dispatches has at some time all been put, and all been handled,
    in its order, if the dispatcher does not exit and the thread has no error to post. -/
theorem arrives {state : Nat → MessageDispatcher Envelope}
    {event : Nat → Option (Event Envelope)}
    (h : (system classId).FairRun Event.thread state event) (way : Way) {n : Nat}
    (hdispatching : (state n).mState = .Dispatching) :
    ∃ k, way.Fails (state (n + k)) ∨ way.taken (state n) <+: way.arrived (state (n + k)) := by
  have hreach := h.reachable n
  have htakes : way.Takes classId (way.taken (state n)) (state n) :=
    ⟨hreach, .inl hdispatching, active_of_reachable hreach, List.prefix_refl _⟩
  obtain ⟨k, hfails | hle⟩ := (h.drop n).eventually (Way.progress htakes)
  · exact ⟨k, .inl hfails⟩
  · refine ⟨k, .inr ?_⟩
    have harrived := arrived_prefix_taken way (h.reachable (n + k))
    have htaken := (htakes.of_startedIn ((h.drop n).reachable k)).taken
    exact List.prefix_of_prefix_length_le htaken harrived hle

/-- The dispatcher quits when it has received one message and put another. -/
def quits : List (Event UUID) :=
  [.postQuit, .masterWakesExiting, .masterTestsExiting, .masterShutsIncoming,
    .masterShutsOutgoing, .masterShutsSource, .masterUnlocks, .incomingTests,
    .masterJoinsIncoming, .outgoingTests, .masterJoinsOutgoing, .handlerReturns, .handlerTests,
    .masterJoinsHandler, .masterNotifies, .masterExits]

theorem arrives_quits : ∃ state : Nat → MessageDispatcher UUID, (state 18).sent = [UUID.null] ∧
    ∃ k, Way.outgoing.Fails (state (18 + k)) ∨ (state 18).sent <+: (state (18 + k)).put := by
  have hall : ∃ s,
      (system id).run newDispatcher (deliversTwo UUID.null UUID.null ++ quits) = some s ∧
      s.master = .returned := by decide +kernel
  have hsends : ∃ s, (system id).run newDispatcher
      ((deliversTwo UUID.null UUID.null).take 18) = some s ∧
      s.mState = .Dispatching ∧ s.sent = [UUID.null] := by decide +kernel
  obtain ⟨s, hrun, hmaster⟩ := hall
  obtain ⟨s₁, hrun₁, hdispatching, hsent⟩ := hsends
  have hreach : (system id).Reachable s := ⟨_, newDispatcher_init, System.run_steps hrun⟩
  obtain ⟨state, event, hfair, hstate⟩ :=
    System.exists_fairRun_of_run newDispatcher_init hrun (not_ready_of_returned hreach hmaster)
  have hat : state 18 = s₁ := hstate 18 s₁ hrun₁
  have hinstance := arrives hfair .outgoing (n := 18) (by rw [hat]; exact hdispatching)
  exact ⟨state, by rw [hat]; exact hsent, hinstance⟩

end MessageDispatcher

end Arras4Core.Dispatch
