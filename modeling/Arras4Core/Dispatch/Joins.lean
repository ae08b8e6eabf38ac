/-
  Arras4Core.Dispatch.Joins

  The master thread of the dispatcher is the last to return: it joins the three
  threads it has created before it notifies the observer and sets the state to
  `Exited`.  A thread that has returned takes no further step, and the master
  does not create another one.
-/

import Arras4Core.Dispatch.MessageDispatcher

namespace Arras4Core.Dispatch

open Arras4Core.Lib
open Arras4Core.Api (Exception UUID)

variable {Envelope : Type*}

/-- How many of the three threads the master has joined. -/
def MasterPc.joined : MasterPc → Nat
  | joinOutgoing => 1
  | joinHandler => 2
  | notifyObserver | setExited | returned => 3
  | _ => 0

/-- A thread that has returned, or was never created. -/
def IncomingPc.ended (pc : IncomingPc Envelope) : Prop := pc = .notCreated ∨ pc = .returned
def OutgoingPc.ended (pc : OutgoingPc Envelope) : Prop := pc = .notCreated ∨ pc = .returned
def HandlerPc.ended (pc : HandlerPc Envelope) : Prop := pc = .notCreated ∨ pc = .returned

namespace MessageDispatcher

variable {classId : Envelope → UUID} {s s' : MessageDispatcher Envelope}

/-- The threads the master has joined have ended. -/
structure Joins (s : MessageDispatcher Envelope) : Prop where
  incoming : 1 ≤ s.master.joined → s.incoming.ended
  outgoing : 2 ≤ s.master.joined → s.outgoing.ended
  handler : 3 ≤ s.master.joined → s.handler.ended

/-- None of the three threads runs. -/
structure ThreadsEnded (s : MessageDispatcher Envelope) : Prop where
  master : s.master = .returned
  incoming : s.incoming.ended
  outgoing : s.outgoing.ended
  handler : s.handler.ended

theorem Joins.threadsEnded (h : s.Joins) (hmaster : s.master = .returned) : s.ThreadsEnded where
  master := hmaster
  incoming := h.incoming (by rw [hmaster]; decide)
  outgoing := h.outgoing (by rw [hmaster]; decide)
  handler := h.handler (by rw [hmaster]; decide)

/-- A move of the master to a place where it has joined no more than before. -/
theorem Joins.masterMoves (h : s.Joins) {pc : MasterPc} (hjoined : pc.joined ≤ s.master.joined) :
    ({ s with master := pc }).Joins where
  incoming hle := h.incoming (hle.trans hjoined)
  outgoing hle := h.outgoing (hle.trans hjoined)
  handler hle := h.handler (hle.trans hjoined)

/-- A step of a thread that has not been joined. -/
theorem Joins.incomingMoves (h : s.Joins) (hpc : ¬ s.incoming.ended) (pc : IncomingPc Envelope) :
    ({ s with incoming := pc }).Joins :=
  { h with incoming := fun hle => absurd (h.incoming hle) hpc }

theorem Joins.outgoingMoves (h : s.Joins) (hpc : ¬ s.outgoing.ended) (pc : OutgoingPc Envelope) :
    ({ s with outgoing := pc }).Joins :=
  { h with outgoing := fun hle => absurd (h.outgoing hle) hpc }

theorem Joins.handlerMoves (h : s.Joins) (hpc : ¬ s.handler.ended) (pc : HandlerPc Envelope) :
    ({ s with handler := pc }).Joins :=
  { h with handler := fun hle => absurd (h.handler hle) hpc }

variable [DecidableEq Envelope]

theorem Joins.step (h : s.Joins) {e : Event Envelope} (hs : step classId s e = some s') :
    s'.Joins := by
  cases e with
  | send envelope =>
    cases hs
    unfold MessageDispatcher.send
    split <;> exact { h with }
  | startQueueing =>
    obtain ⟨-, rfl⟩ := of_onlyIf hs
    unfold MessageDispatcher.startQueueing
    split
    · exact h
    · have hmoved : ({ s with master := .lock }).Joins := h.masterMoves (Nat.zero_le _)
      exact { hmoved with }
  | startDispatching =>
    obtain ⟨-, rfl⟩ := of_onlyIf hs
    unfold MessageDispatcher.startDispatching
    split
    · exact h
    · exact { h with }
  | postQuit =>
    obtain ⟨-, rfl⟩ := of_onlyIf hs
    unfold MessageDispatcher.postQuit
    split
    · exact h
    · exact { h with }
  | postError | joinMaster | waitForExitReturns =>
    obtain ⟨-, rfl⟩ := of_onlyIf hs
    exact { h with }
  | incomingTests | getEnvelopeReturns | getEnvelopeThrows =>
    obtain ⟨hpc, rfl⟩ := of_onlyIf hs
    have hmoved := h.incomingMoves (by rw [hpc]; rintro (h | h) <;> cases h)
    exact { hmoved _ with }
  | incomingPushes envelope =>
    obtain ⟨hpc, rfl⟩ := of_onlyIf hs
    have hmoved := h.incomingMoves (by rw [hpc]; rintro (h | h) <;> cases h)
    unfold MessageDispatcher.pushIncoming
    split <;> exact { hmoved _ with }
  | incomingPosts reason =>
    obtain ⟨⟨hpc, -⟩, rfl⟩ := of_onlyIf hs
    have hmoved := h.incomingMoves (by rw [hpc]; rintro (h | h) <;> cases h)
    exact { hmoved _ with }
  | outgoingTests | putEnvelopeCalled | putEnvelopeReturns | putEnvelopeThrows | outgoingCounts =>
    obtain ⟨hpc, rfl⟩ := of_onlyIf hs
    have hmoved := h.outgoingMoves (by rw [hpc]; rintro (h | h) <;> cases h)
    exact { hmoved _ with }
  | outgoingPops =>
    obtain ⟨hpc, rfl⟩ := of_onlyIf hs
    have hmoved := h.outgoingMoves (by
      rintro (h | h) <;> rcases hpc with hpc | hpc <;> cases h.symm.trans hpc)
    unfold MessageDispatcher.popOutgoing
    split <;> exact { hmoved _ with }
  | outgoingPosts reason =>
    obtain ⟨⟨hpc, -⟩, rfl⟩ := of_onlyIf hs
    have hmoved := h.outgoingMoves (by rw [hpc]; rintro (h | h) <;> cases h)
    exact { hmoved _ with }
  | handlerTests | handlerCounts | handleMessageCalled | handlerReturns | handlerThrows =>
    obtain ⟨hpc, rfl⟩ := of_onlyIf hs
    have hmoved := h.handlerMoves (by rw [hpc]; rintro (h | h) <;> cases h)
    exact { hmoved _ with }
  | handlerPops =>
    obtain ⟨hpc, rfl⟩ := of_onlyIf hs
    have hmoved := h.handlerMoves (by
      rintro (h | h) <;> rcases hpc with hpc | hpc <;> cases h.symm.trans hpc)
    unfold MessageDispatcher.popIncoming
    split <;> exact { hmoved _ with }
  | handlerTimesOut | handlerPosts =>
    obtain ⟨⟨hpc, -⟩, rfl⟩ := of_onlyIf hs
    have hmoved := h.handlerMoves (by rw [hpc]; rintro (h | h) <;> cases h)
    exact { hmoved _ with }
  | masterJoinsIncoming =>
    obtain ⟨⟨-, hended⟩, rfl⟩ := of_onlyIf hs
    exact { incoming := fun _ => hended, outgoing := nofun, handler := nofun }
  | masterJoinsOutgoing =>
    obtain ⟨⟨hpc, hended⟩, rfl⟩ := of_onlyIf hs
    have hincoming := h.incoming (by rw [hpc]; decide)
    exact { incoming := fun _ => hincoming, outgoing := fun _ => hended, handler := nofun }
  | masterJoinsHandler =>
    obtain ⟨⟨hpc, hended⟩, rfl⟩ := of_onlyIf hs
    have hincoming := h.incoming (by rw [hpc]; decide)
    have houtgoing := h.outgoing (by rw [hpc]; decide)
    exact { incoming := fun _ => hincoming, outgoing := fun _ => houtgoing
            handler := fun _ => hended }
  | masterNotifies | masterExits =>
    obtain ⟨hpc, rfl⟩ := of_onlyIf hs
    have hmoved : ({ s with master := .returned }).Joins := h.masterMoves (by rw [hpc]; decide)
    exact { hmoved with }
  | masterTestsDispatching =>
    obtain ⟨hpc, rfl⟩ := of_onlyIf hs
    refine h.masterMoves ?_
    split
    · exact Nat.zero_le _
    · split <;> exact Nat.zero_le _
  | masterTestsExiting =>
    obtain ⟨hpc, rfl⟩ := of_onlyIf hs
    refine h.masterMoves ?_
    split <;> exact Nat.zero_le _
  | _ =>
    -- the master has joined nobody yet
    obtain ⟨-, rfl⟩ := of_onlyIf hs
    exact { incoming := nofun, outgoing := nofun, handler := nofun }

/-- The master thread is created by `startQueueing`, is there from then on, and takes
    no step when it has returned. -/
theorem master_of_step {e : Event Envelope} (hs : step classId s e = some s') :
    s'.master = s.master ∨ (e = .startQueueing ∧ s'.master = .lock) ∨
      (s.master ≠ .notCreated ∧ s.master ≠ .returned ∧ s'.master ≠ .notCreated) := by
  cases e with
  | send envelope =>
    cases hs
    unfold MessageDispatcher.send
    split <;> exact .inl rfl
  | startQueueing =>
    obtain ⟨-, rfl⟩ := of_onlyIf hs
    unfold MessageDispatcher.startQueueing
    split
    · exact .inl rfl
    · exact .inr (.inl ⟨rfl, rfl⟩)
  | startDispatching =>
    obtain ⟨-, rfl⟩ := of_onlyIf hs
    unfold MessageDispatcher.startDispatching
    split <;> exact .inl rfl
  | postQuit =>
    obtain ⟨-, rfl⟩ := of_onlyIf hs
    unfold MessageDispatcher.postQuit
    split <;> exact .inl rfl
  | incomingPushes envelope =>
    obtain ⟨-, rfl⟩ := of_onlyIf hs
    unfold MessageDispatcher.pushIncoming
    split <;> exact .inl rfl
  | outgoingPops =>
    obtain ⟨-, rfl⟩ := of_onlyIf hs
    unfold MessageDispatcher.popOutgoing
    split <;> exact .inl rfl
  | handlerPops =>
    obtain ⟨-, rfl⟩ := of_onlyIf hs
    unfold MessageDispatcher.popIncoming
    split <;> exact .inl rfl
  | masterLocks | masterStartsIncoming | masterWakesDispatching | masterStartsOutgoing
  | masterStartsHandler | masterWakesExiting | masterShutsIncoming | masterShutsOutgoing
  | masterShutsSource | masterUnlocks | masterNotifies | masterExits =>
    obtain ⟨hpc, rfl⟩ := of_onlyIf hs
    rw [hpc]
    exact .inr (.inr ⟨nofun, nofun, nofun⟩)
  | masterJoinsIncoming | masterJoinsOutgoing | masterJoinsHandler =>
    obtain ⟨⟨hpc, -⟩, rfl⟩ := of_onlyIf hs
    rw [hpc]
    exact .inr (.inr ⟨nofun, nofun, nofun⟩)
  | masterTestsDispatching =>
    obtain ⟨hpc, rfl⟩ := of_onlyIf hs
    rw [hpc]
    refine .inr (.inr ⟨nofun, nofun, ?_⟩)
    show (if _ then _ else _) ≠ MasterPc.notCreated
    split
    · nofun
    · split <;> nofun
  | masterTestsExiting =>
    obtain ⟨hpc, rfl⟩ := of_onlyIf hs
    rw [hpc]
    refine .inr (.inr ⟨nofun, nofun, ?_⟩)
    show (if _ then _ else _) ≠ MasterPc.notCreated
    split <;> nofun
  | _ =>
    obtain ⟨-, rfl⟩ := of_onlyIf hs
    exact .inl rfl

/-- Steps that write `mState`, the calls of other threads aside. -/
def Event.writesState : Event Envelope → Bool
  | .incomingPosts _ | .outgoingPosts _ | .handlerPosts _ | .masterExits
  | .startQueueing | .startDispatching | .postQuit | .postError _ => true
  | _ => false

theorem mState_of_step {e : Event Envelope} (he : e.writesState = false)
    (hs : step classId s e = some s') : s'.mState = s.mState := by
  cases e with
  | incomingPosts | outgoingPosts | handlerPosts | masterExits | startQueueing | startDispatching
  | postQuit | postError => cases he
  | send envelope =>
    cases hs
    unfold MessageDispatcher.send
    split <;> rfl
  | incomingPushes envelope =>
    obtain ⟨-, rfl⟩ := of_onlyIf hs
    unfold MessageDispatcher.pushIncoming
    split <;> rfl
  | outgoingPops =>
    obtain ⟨-, rfl⟩ := of_onlyIf hs
    unfold MessageDispatcher.popOutgoing
    split <;> rfl
  | handlerPops =>
    obtain ⟨-, rfl⟩ := of_onlyIf hs
    unfold MessageDispatcher.popIncoming
    split <;> rfl
  | _ =>
    obtain ⟨-, rfl⟩ := of_onlyIf hs
    rfl

/-- When the master thread has returned, so have the others. -/
theorem threadsEnded_of_reachable (h : (system classId).Reachable s)
    (hmaster : s.master = .returned) : s.ThreadsEnded := by
  have hjoins : s.Joins := by
    apply h.invariant (I := Joins)
    · rintro s₀ ⟨reason, idleInterval, rfl⟩
      exact { incoming := nofun, outgoing := nofun, handler := nofun }
    · intro s₁ e s₂ hI _ hs
      exact hI.step hs
  exact hjoins.threadsEnded hmaster

end MessageDispatcher

end Arras4Core.Dispatch
