/-
  Arras4Core.Connection.Parties

  The two programs at the ends of a connection, as far as the endpoint sees them: which
  steps are the end of a call of `putEnvelope` or `getEnvelope`, and what these steps
  and the others do to the histories of the calls.
-/

import Arras4Core.Client.Messages
import Arras4Core.Computation.CompEnvironmentImpl
import Arras4Core.Connection.InOrder

namespace Arras4Core.Connection

open Arras4Core.Lib
open Arras4Core.Api (Exception ClassID UUID)
open Arras4Core.Chunking (ChunkingConfig ContentRegistry)
open Arras4Core.Client (MessageClient)
open Arras4Core.Dispatch (MessageDispatcher)
open Arras4Core.Computation (CompEnvironmentImpl)

variable {Envelope : Type*} {classId : Envelope → UUID}

/-! ## The client -/

namespace ClientEnd

open Arras4Core.Client.MessageClient (Event)

variable {s s' : MessageClient Envelope}

/-- The steps that end a call of the endpoint. -/
def isCall : Event Envelope → Bool
  | .putEnvelopeReturns | .putEnvelopeThrows _ | .getEnvelopeReturns _ | .getEnvelopeThrows _
  | .shutsEndpoint => true
  | _ => false

/-- The calls of `putEnvelope` that returned. -/
def putReturned (s : MessageClient Envelope) : List Envelope :=
  s.calls.filterMap fun call => if call.2.isOk then some call.1 else none

/-- What a step adds to the histories of the calls. -/
def returnedIn (s : MessageClient Envelope) : Event Envelope → List Envelope
  | .putEnvelopeReturns => s.putting.toList
  | _ => []

def gotIn : Event Envelope → List Envelope
  | .getEnvelopeReturns envelope => [envelope]
  | _ => []

theorem act_of_step {e : Event Envelope} (hs : MessageClient.step classId s e = some s') :
    s.act classId e = some s' := by
  unfold MessageClient.step at hs
  split at hs
  · cases hs
  · exact hs

theorem putReturned_putEnds (s : MessageClient Envelope) (envelope : Envelope)
    (result : Except Exception Unit) :
    putReturned (s.putEnds (envelope, result))
      = putReturned s ++ if result.isOk then [envelope] else [] := by
  have hcalls : (s.putEnds (envelope, result)).calls = s.calls ++ [(envelope, result)] := by
    unfold MessageClient.putEnds
    split <;> rfl
  unfold putReturned
  rw [hcalls, List.filterMap_append, List.filterMap_cons, List.filterMap_nil]
  dsimp only
  split <;> simp_all

/-- What the calls in which nothing is got or put leave alone. -/
theorem histories_of_kept (hcalls : s'.calls = s.calls) (hgot : s'.got = s.got)
    (hsent : s'.sent = s.sent) :
    putReturned s' = putReturned s ++ [] ∧ s'.got = s.got ++ [] ∧ s.sent ⊆ s'.sent := by
  refine ⟨?_, ?_, ?_⟩
  · rw [List.append_nil]
    unfold putReturned
    rw [hcalls]
  · rw [List.append_nil, hgot]
  · rw [hsent]
    exact List.Subset.refl _

theorem sent_subset_send (s : MessageClient Envelope) (envelope : Envelope) :
    s.sent ⊆ (s.send envelope).sent := by
  unfold MessageClient.send
  split
  · exact List.Subset.refl _
  · split
    · split
      · exact List.Subset.refl _
      · exact List.subset_append_left ..
    · exact List.subset_append_left ..

theorem histories_of_step {e : Event Envelope}
    (hs : MessageClient.step classId s e = some s') :
    putReturned s' = putReturned s ++ returnedIn s e ∧ s'.got = s.got ++ gotIn e ∧
      s.sent ⊆ s'.sent := by
  have hnothing : ∀ history : List Envelope, history = history ++ [] := fun history =>
    (List.append_nil history).symm
  have hact := act_of_step hs
  cases e with
  | putEnvelopeReturns =>
    obtain ⟨envelope, hputting, rfl⟩ := Option.map_eq_some_iff.mp hact
    have hreturned := putReturned_putEnds s envelope (.ok ())
    obtain ⟨calls, sendProc, sending, hkept⟩ := s.putEnds_kept (envelope, .ok ())
    rw [hkept] at hreturned ⊢
    rw [hreturned, returnedIn, hputting]
    exact ⟨rfl, hnothing _, List.Subset.refl _⟩
  | putEnvelopeThrows e =>
    obtain ⟨envelope, hputting, rfl⟩ := Option.map_eq_some_iff.mp hact
    have hreturned := putReturned_putEnds s envelope (.error e)
    obtain ⟨calls, sendProc, sending, hkept⟩ := s.putEnds_kept (envelope, .error e)
    rw [hkept] at hreturned ⊢
    exact ⟨hreturned, hnothing _, List.Subset.refl _⟩
  | send envelope =>
    simp only [MessageClient.act] at hact
    split at hact
    · cases hact
      have hsent := sent_subset_send s envelope
      obtain ⟨mOutgoingQueue, sending, sent, hkept⟩ := s.send_kept envelope
      rw [hkept] at hsent ⊢
      exact ⟨hnothing _, hnothing _, hsent⟩
    · cases hact
  | sendProcPops =>
    obtain ⟨mOutgoingQueue, sendProc, hkept⟩ := s.pop_kept
    have hpop : s' = s.pop := by
      simp only [MessageClient.act] at hact
      split at hact <;> cases hact <;> rfl
    rw [hpop, hkept]
    exact histories_of_kept rfl rfl rfl
  | getEnvelopeReturns envelope =>
    simp only [MessageClient.act] at hact
    split at hact
    · cases hact
      exact ⟨hnothing _, rfl, List.Subset.refl _⟩
    · cases hact
  | getEnvelopeThrows e =>
    simp only [MessageClient.act] at hact
    split at hact
    · cases hact
      obtain ⟨threadProc, terminated, hkept⟩ := s.catchException_kept e
      rw [hkept]
      exact histories_of_kept rfl rfl rfl
    · cases hact
  | componentThrows e =>
    simp only [MessageClient.act] at hact
    split at hact
    · next envelope hpc =>
      cases hact
      obtain ⟨threadProc, terminated, hkept⟩ :=
        (s.callComponents classId envelope).catchException_kept e
      rw [hkept]
      exact histories_of_kept rfl rfl rfl
    · cases hact
  | terminates data =>
    simp only [MessageClient.act] at hact
    split at hact
    · obtain ⟨-, rfl⟩ := of_onlyIf hact
      exact histories_of_kept rfl rfl rfl
    · obtain ⟨-, rfl⟩ := of_onlyIf hact
      exact histories_of_kept rfl rfl rfl
    · cases hact
  | testsState | terminationTestsState =>
    simp only [MessageClient.act] at hact
    split at hact
    · split at hact
      · cases hact
        exact histories_of_kept rfl rfl rfl
      · cases hact
        exact histories_of_kept rfl rfl rfl
    · cases hact
  | createSends | sendProcTests | sendProcReports | threadProcTests | dispatches
  | callsComponents | setsDisconnected | reports | setsConnectionError | notifiesComponents
  | terminationSetsDisconnected =>
    simp only [MessageClient.act] at hact
    split at hact <;> cases hact <;> exact histories_of_kept rfl rfl rfl
  | setsDisconnecting =>
    cases hact
    exact histories_of_kept rfl rfl rfl
  | createThrows | createSetsConnected | createSetsIsLocal | createSetsEngineReady
  | disconnects | stopsRun | shutsQueue | shutsEndpoint =>
    obtain ⟨-, rfl⟩ := of_onlyIf hact
    exact histories_of_kept rfl rfl rfl

theorem putReturned_sublist_sent (h : (MessageClient.system classId).Reachable s) :
    (putReturned s).Sublist s.sent := by
  have hcalls : (putReturned s).Sublist (s.calls.map Prod.fst) := by
    unfold putReturned
    induction s.calls with
    | nil => exact List.Sublist.refl _
    | cons call calls ih =>
      rw [List.filterMap_cons, List.map_cons]
      split
      · exact ih.trans (List.sublist_cons_self ..)
      · next hok =>
        split at hok
        · rw [← Option.some.inj hok]
          exact ih.cons_cons call.1
        · cases hok
  have hprefix := (MessageClient.invariant_of_reachable h).sends.calls_prefix
  exact hcalls.trans ((List.sublist_append_left ..).trans hprefix.sublist)

/-- The end of a call of `putEnvelope`. -/
def putEvent : Except Exception Unit → Event Envelope
  | .ok _ => .putEnvelopeReturns
  | .error e => .putEnvelopeThrows e

end ClientEnd

/-! ## The dispatcher of the computation -/

namespace DispatcherEnd

open Arras4Core.Dispatch.MessageDispatcher (Event)

variable [DecidableEq Envelope] {s s' : MessageDispatcher Envelope}

/-- The steps that end a call of the endpoint. -/
def isCall : Event Envelope → Bool
  | .putEnvelopeReturns _ | .putEnvelopeThrows _ _ | .getEnvelopeReturns _ | .getEnvelopeThrows _
  | .masterShutsSource => true
  | _ => false

def gotBy : Event Envelope → List Envelope
  | .getEnvelopeReturns envelope => [envelope]
  | _ => []

def returnedBy : Event Envelope → List Envelope
  | .putEnvelopeReturns envelope => [envelope]
  | _ => []

/-- What a step adds to the histories. -/
theorem histories_of_step {e : Event Envelope}
    (hs : MessageDispatcher.step classId s e = some s') :
    s'.got = s.got ++ gotBy e ∧ s'.putReturned = s.putReturned ++ returnedBy e ∧
      s.sent ⊆ s'.sent := by
  have hnothing : ∀ history : List Envelope, history = history ++ [] := fun history =>
    (List.append_nil history).symm
  cases e with
  | send envelope =>
    cases hs
    unfold MessageDispatcher.send
    split
    · exact ⟨hnothing _, hnothing _, List.Subset.refl _⟩
    · exact ⟨hnothing _, hnothing _, List.subset_append_left ..⟩
  | startQueueing =>
    obtain ⟨-, rfl⟩ := of_onlyIf hs
    unfold MessageDispatcher.startQueueing
    split <;> exact ⟨hnothing _, hnothing _, List.Subset.refl _⟩
  | startDispatching =>
    obtain ⟨-, rfl⟩ := of_onlyIf hs
    unfold MessageDispatcher.startDispatching
    split <;> exact ⟨hnothing _, hnothing _, List.Subset.refl _⟩
  | postQuit =>
    obtain ⟨-, rfl⟩ := of_onlyIf hs
    unfold MessageDispatcher.postQuit
    split <;> exact ⟨hnothing _, hnothing _, List.Subset.refl _⟩
  | getEnvelopeReturns envelope =>
    obtain ⟨-, rfl⟩ := of_onlyIf hs
    exact ⟨rfl, hnothing _, List.Subset.refl _⟩
  | incomingPushes envelope =>
    obtain ⟨-, rfl⟩ := of_onlyIf hs
    unfold MessageDispatcher.pushIncoming
    split <;> exact ⟨hnothing _, hnothing _, List.Subset.refl _⟩
  | handlerPops =>
    obtain ⟨-, rfl⟩ := of_onlyIf hs
    unfold MessageDispatcher.popIncoming
    split <;> exact ⟨hnothing _, hnothing _, List.Subset.refl _⟩
  | outgoingPops =>
    obtain ⟨-, rfl⟩ := of_onlyIf hs
    unfold MessageDispatcher.popOutgoing
    split <;> exact ⟨hnothing _, hnothing _, List.Subset.refl _⟩
  | putEnvelopeReturns envelope =>
    obtain ⟨-, rfl⟩ := of_onlyIf hs
    exact ⟨hnothing _, rfl, List.Subset.refl _⟩
  | _ =>
    obtain ⟨-, rfl⟩ := of_onlyIf hs
    exact ⟨hnothing _, hnothing _, List.Subset.refl _⟩

/-- The envelope that the thread is putting. -/
def putting : Dispatch.OutgoingPc Envelope → List Envelope
  | .inPut envelope => [envelope]
  | _ => []

/-- Of the calls of `putEnvelope` only the last one may not have ended. -/
def Puts (s : MessageDispatcher Envelope) : Prop :=
  ∃ ended, s.put = ended ++ putting s.outgoing ∧ s.putReturned.Sublist ended

omit [DecidableEq Envelope] in
/-- No call is being made any more. -/
theorem Puts.idle (h : Puts s) (hput : s'.put = s.put) (hreturned : s'.putReturned = s.putReturned)
    (hidle : putting s'.outgoing = []) : Puts s' := by
  obtain ⟨ended, hended, hsub⟩ := h
  refine ⟨s.put, by rw [hput, hidle, List.append_nil], ?_⟩
  rw [hreturned, hended]
  exact hsub.trans (List.sublist_append_left ..)

theorem Puts.step (h : Puts s) {e : Event Envelope}
    (hs : MessageDispatcher.step classId s e = some s') : Puts s' := by
  cases e with
  | send envelope =>
    cases hs
    unfold MessageDispatcher.send
    split <;> exact h
  | startQueueing =>
    obtain ⟨-, rfl⟩ := of_onlyIf hs
    unfold MessageDispatcher.startQueueing
    split <;> exact h
  | startDispatching =>
    obtain ⟨-, rfl⟩ := of_onlyIf hs
    unfold MessageDispatcher.startDispatching
    split <;> exact h
  | postQuit =>
    obtain ⟨-, rfl⟩ := of_onlyIf hs
    unfold MessageDispatcher.postQuit
    split <;> exact h
  | incomingPushes envelope =>
    obtain ⟨-, rfl⟩ := of_onlyIf hs
    unfold MessageDispatcher.pushIncoming
    split <;> exact h
  | handlerPops =>
    obtain ⟨-, rfl⟩ := of_onlyIf hs
    unfold MessageDispatcher.popIncoming
    split <;> exact h
  | outgoingTests =>
    obtain ⟨-, rfl⟩ := of_onlyIf hs
    refine h.idle rfl rfl ?_
    dsimp only
    split <;> rfl
  | outgoingPops =>
    obtain ⟨-, rfl⟩ := of_onlyIf hs
    unfold MessageDispatcher.popOutgoing
    split <;> exact h.idle rfl rfl rfl
  | putEnvelopeCalled envelope =>
    obtain ⟨hpc, rfl⟩ := of_onlyIf hs
    obtain ⟨ended, hended, hsub⟩ := h
    rw [hpc] at hended
    refine ⟨s.put, rfl, ?_⟩
    rw [hended]
    exact hsub.trans (List.sublist_append_left ..)
  | putEnvelopeReturns envelope =>
    obtain ⟨hpc, rfl⟩ := of_onlyIf hs
    obtain ⟨ended, hended, hsub⟩ := h
    rw [hpc] at hended
    refine ⟨s.put, (List.append_nil _).symm, ?_⟩
    rw [hended]
    exact hsub.append (List.Sublist.refl _)
  | putEnvelopeThrows envelope e =>
    obtain ⟨-, rfl⟩ := of_onlyIf hs
    refine h.idle rfl rfl ?_
    unfold Dispatch.OutgoingPc.afterThrow
    cases Dispatch.endpointError e <;> rfl
  | outgoingCounts | outgoingPosts | masterStartsOutgoing =>
    obtain ⟨-, rfl⟩ := of_onlyIf hs
    exact h.idle rfl rfl rfl
  | _ =>
    obtain ⟨-, rfl⟩ := of_onlyIf hs
    exact h

theorem puts_of_reachable (h : (MessageDispatcher.system classId).Reachable s) : Puts s := by
  refine h.invariant ?_ fun s e s' hi _ hs => hi.step hs
  rintro _ ⟨reason, idleInterval, rfl⟩
  exact ⟨[], rfl, List.Sublist.refl _⟩

theorem put_prefix_sent (h : (MessageDispatcher.system classId).Reachable s) :
    s.put <+: s.sent := by
  have hsends := (MessageDispatcher.invariant_of_reachable h).sends
  rw [hsends.sent]
  have hpopped : s.put <+: s.mOutgoingQueue.popped := hsends.put ▸ List.prefix_append _ _
  exact hpopped.trans s.mOutgoingQueue.popped_prefix_pushed

/-- An envelope that is being put was sent. -/
theorem mem_sent_of_reachable (h : (MessageDispatcher.system classId).Reachable s)
    {envelope : Envelope} (hpc : s.outgoing = .inPut envelope) : envelope ∈ s.sent := by
  obtain ⟨ended, hended, -⟩ := puts_of_reachable h
  refine (put_prefix_sent h).subset ?_
  rw [hended, hpc]
  exact List.mem_append_right _ (List.mem_singleton_self _)

theorem putReturned_sublist_sent (h : (MessageDispatcher.system classId).Reachable s) :
    s.putReturned.Sublist s.sent := by
  obtain ⟨ended, hended, hsub⟩ := puts_of_reachable h
  refine (hsub.trans ?_).trans (put_prefix_sent h).sublist
  rw [hended]
  exact List.sublist_append_left ..

end DispatcherEnd

/-! ## The computation -/

namespace ComputationEnd

open Arras4Core.Computation.CompEnvironmentImpl (Event)
open DispatcherEnd (gotBy returnedBy)

variable [DecidableEq Envelope] {parse : String → Computation.ParseOutcome}
  {uuid_parse : String → Option UUID} {mAddress : Api.Address}
  {s s' : CompEnvironmentImpl Envelope}

/-- The steps that end a call of the endpoint, or are taken in one. -/
def isCall : Event Envelope → Bool
  | .dispatcher e => DispatcherEnd.isCall e
  | .controlMessage _ _ => true
  | _ => false

/-- A step of the computation is one of the dispatcher, or leaves it alone.  Only the
    dispatcher's own threads call the endpoint. -/
theorem dispatcher_of_step {e : Event Envelope}
    (hs : CompEnvironmentImpl.step classId parse uuid_parse mAddress s e = some s') :
    (s'.mDispatcher = s.mDispatcher ∧ ∀ d, e ≠ .dispatcher d) ∨
    ∃ d, MessageDispatcher.step classId s.mDispatcher d = some s'.mDispatcher ∧
      (e = .dispatcher d ∨ (∀ d, e ≠ .dispatcher d) ∧ gotBy d = [] ∧ returnedBy d = []) := by
  cases hmain : e.isMain with
  | true =>
    have hother : ∀ d, e ≠ .dispatcher d := by
      rintro d rfl
      cases hmain
    cases Computation.CompEnvironmentImpl.mainStep hmain hs with
    | startsQueueing hpc hd | sendsReady hpc hd | postsQuit hpc hd | startsDispatching hpc hd
    | joinsDispatcher hpc hd | readsExitReason hpc hd =>
      exact .inr ⟨_, hd, .inr ⟨hother, rfl, rfl⟩⟩
    | _ => exact .inl ⟨rfl, hother⟩
  | false =>
    cases e with
    | dispatcher d =>
      obtain ⟨-, t, ht, rfl⟩ := Computation.CompEnvironmentImpl.of_dispatches hs
      exact .inr ⟨d, ht, .inl rfl⟩
    | monitorSetsRun | monitorTests =>
      obtain ⟨-, m, hm, rfl⟩ := Computation.CompEnvironmentImpl.of_monitors hs
      exact .inl ⟨rfl, fun _ h => by cases h⟩
    | sendsHeartbeat heartbeat =>
      obtain ⟨t, ht, rfl⟩ := Option.map_eq_some_iff.mp hs
      obtain ⟨-, m, hm, rfl⟩ := Computation.CompEnvironmentImpl.of_monitors ht
      exact .inr ⟨.send heartbeat, rfl, .inr ⟨(fun _ h => by cases h), rfl, rfl⟩⟩
    | controlMessage command data =>
      simp only [CompEnvironmentImpl.step] at hs
      split at hs
      · unfold CompEnvironmentImpl.takesControlMessage at hs
        split at hs
        · cases hs
          exact .inl ⟨rfl, fun _ h => by cases h⟩
        · cases hs
          exact .inl ⟨rfl, fun _ h => by cases h⟩
        · cases hs
          exact .inl ⟨rfl, fun _ h => by cases h⟩
        · obtain ⟨-, d, hd, rfl⟩ := Computation.CompEnvironmentImpl.of_dispatches hs
          exact .inr ⟨_, hd, .inr ⟨(fun _ h => by cases h), rfl, rfl⟩⟩
      · cases hs
    | controlPostsQuit =>
      simp only [CompEnvironmentImpl.step] at hs
      obtain ⟨-, d, hd, rfl⟩ := Computation.CompEnvironmentImpl.of_dispatches hs
      exact .inr ⟨_, hd, .inr ⟨(fun _ h => by cases h), rfl, rfl⟩⟩
    | _ => cases hmain

/-- What a step adds to the histories of the dispatcher. -/
def gotIn : Event Envelope → List Envelope
  | .dispatcher e => gotBy e
  | _ => []

def returnedIn : Event Envelope → List Envelope
  | .dispatcher e => returnedBy e
  | _ => []

theorem histories_of_step {e : Event Envelope}
    (hs : CompEnvironmentImpl.step classId parse uuid_parse mAddress s e = some s') :
    s'.mDispatcher.got = s.mDispatcher.got ++ gotIn e ∧
      s'.mDispatcher.putReturned = s.mDispatcher.putReturned ++ returnedIn e ∧
      s.mDispatcher.sent ⊆ s'.mDispatcher.sent := by
  have hnone : (∀ d, e ≠ .dispatcher d) → gotIn e = [] ∧ returnedIn e = [] := by
    intro hother
    cases e with
    | dispatcher d => exact absurd rfl (hother d)
    | _ => exact ⟨rfl, rfl⟩
  rcases dispatcher_of_step hs with ⟨hsame, hother⟩ | ⟨d, hd, hevent⟩
  · rw [hsame, (hnone hother).1, (hnone hother).2, List.append_nil, List.append_nil]
    exact ⟨rfl, rfl, List.Subset.refl _⟩
  · obtain ⟨hgot, hreturned, hsent⟩ := DispatcherEnd.histories_of_step hd
    rcases hevent with rfl | ⟨hother, hgotBy, hreturnedBy⟩
    · exact ⟨hgot, hreturned, hsent⟩
    · rw [hgot, hreturned, hgotBy, hreturnedBy, (hnone hother).1, (hnone hother).2]
      exact ⟨rfl, rfl, hsent⟩

end ComputationEnd

/-! ## The channel -/

/-- The envelope that a pass returns. -/
def Received.envelope? : Received → Option Message.Envelope
  | .returned envelope => some envelope
  | .consumed _ | .threw _ => none

namespace Channel

variable {mConfig : ChunkingConfig} {registry : ContentRegistry} {consumes : ClassID → Bool}

/-- What a step adds to the histories of the calls. -/
def putIn (mConfig : ChunkingConfig) (s : Channel) : Event → List Message.Envelope
  | .putEnvelope envelope => if (s.putEnvelope mConfig envelope).1.isOk then [envelope] else []
  | _ => []

def receivedIn (registry : ContentRegistry) (consumes : ClassID → Bool) (s : Channel) :
    Event → List Received
  | .passes => (s.pass registry consumes).1.toList
  | _ => []

/-- The envelope that a call is made with. -/
def puttingIn : Event → Option Message.Envelope
  | .putEnvelope envelope | .putBreaks envelope _ => some envelope
  | _ => none

theorem histories_of_step {s s' : Channel} {e : Event}
    (hs : step mConfig registry consumes s e = some s') :
    s'.put = s.put ++ putIn mConfig s e ∧
      s'.received = s.received ++ receivedIn registry consumes s e := by
  have hputs : s.put = s.put ++ [] := (List.append_nil _).symm
  have hreceives : s.received = s.received ++ [] := (List.append_nil _).symm
  cases e with
  | putEnvelope envelope =>
    cases hs
    rw [putIn]
    unfold putEnvelope
    split
    · exact ⟨hputs, hreceives⟩
    · split
      · exact ⟨rfl, hreceives⟩
      · exact ⟨hputs, hreceives⟩
  | putBreaks envelope n =>
    simp only [step, putBreaks] at hs
    split at hs
    all_goals
      obtain ⟨-, rfl⟩ := of_onlyIf hs
      exact ⟨hputs, hreceives⟩
  | passes =>
    obtain ⟨-, rfl⟩ := of_onlyIf hs
    refine ⟨(pass_kept registry consumes s).1.trans hputs, ?_⟩
    -- the pass itself leaves the history to `record`
    have hkept : (s.pass registry consumes).2.received = s.received := by
      unfold pass
      split
      · rfl
      · split
        · rfl
        · split <;> rfl
    rw [record, hkept]
    rfl
  | putShutdown | getShutdown | breaks =>
    cases hs
    exact ⟨hputs, hreceives⟩
  | transfers | disconnects | getsShutdown =>
    obtain ⟨-, rfl⟩ := of_onlyIf hs
    exact ⟨hputs, hreceives⟩

end Channel

end Arras4Core.Connection
