/-
  Arras4Core.Client.ProgressSender

  `ProgressSender` of client/api as a transition system: the callers of
  `progress`, the thread that is in `sendProc`, and one call of `stopSending`.  A
  step is one critical section, one test, one attempt to connect or one call of
  `send_or_throw`, whose outcome is that of the remote end.

  A message leaves the queue before its two parts are sent.  When one of them
  fails the message is neither in the queue nor sent, and it is not sent again;
  nor is any other message, since the peer keeps its socket and `connect` then
  throws.
-/

import Arras4Core.Api.Object
import Arras4Core.Dispatch.ThreadsafeQueue

namespace Arras4Core.Client

open Arras4Core.Api (Object)
open Arras4Core.Dispatch (ThreadsafeQueue)
open Arras4Core.Lib

/-- Where the thread is in `sendProc`. -/
inductive SenderPc
  | notStarted
  /-- the first attempt to connect -/
  | connect
  /-- the tests of `mRun` and `ok` behind it -/
  | testRun
  | firstWait
  /-- the test of the outer loop, and of `ok` -/
  | outer
  | retry
  | retryWait
  /-- the test of the inner loop -/
  | inner
  | pop
  | sendSize (msg : Object)
  | sendText (msg : Object)
  /-- in `sendWait(5)` of the handler -/
  | caught
  | returned

/-- One part of a message on the connection. -/
inductive Part
  | size (len : Nat)
  | text (smsg : String)

/-- The messages that `sendProc` has taken and not sent. -/
def SenderPc.held : SenderPc → List Object
  | .sendSize msg => [msg]
  | .sendText msg => [msg]
  | _ => []

/-- There is no thread. -/
def SenderPc.ended : SenderPc → Bool
  | .notStarted => true
  | .returned => true
  | _ => false

/-- The members, the local variables of `sendProc`, and what has happened: the
    parts that were sent, the messages that `progress` was called with and those
    that were sent completely, in order. -/
structure ProgressSender where
  mAddress : String := ""
  mQueue : ThreadsafeQueue Object := {}
  mRun : Bool := true
  mIsSending : Bool := false
  /-- the calls of `progress` that have pushed and call `startSending` next -/
  callers : Nat := 0
  sendThread : SenderPc := .notStarted
  ok : Bool := false
  /-- `peer.mSocket` is a socket -/
  hasSocket : Bool := false
  wire : List Part := []
  given : List Object := []
  sent : List Object := []

namespace ProgressSender

def isDisabled (s : ProgressSender) : Bool := s.mAddress = ""

def setChannel (channel : String) (s : ProgressSender) : ProgressSender :=
  if channel = "" then { s with mAddress := "" }
  else { s with mAddress := "/tmp/arrasprog_" ++ channel ++ ".ipc" }

/-- `progress` up to its call of `startSending`.  The exception of a queue that was
    shut down is caught. -/
def progress (message : Object) (s : ProgressSender) : ProgressSender :=
  if s.isDisabled then s
  else
    { s with
      mQueue := (s.mQueue.push message).getD s.mQueue
      callers := s.callers + 1
      given := s.given ++ [message] }

def startSending (s : ProgressSender) : ProgressSender :=
  if !s.mIsSending && s.mRun then
    { s with
      callers := s.callers - 1
      sendThread := .connect
      hasSocket := false
      mIsSending := true }
  else { s with callers := s.callers - 1 }

/-- `tryConnect(peer, mAddress)`, with the answer of the remote end.  `connect`
    throws when the peer has a socket, and for a name that is empty or too long. -/
def tryConnect (accepted : Bool) (s : ProgressSender) : ProgressSender :=
  if s.hasSocket || s.isDisabled || 107 < s.mAddress.length then { s with ok := false }
  else { s with ok := accepted, hasSocket := accepted }

inductive Event
  | setsChannel (channel : String)
  | progresses (message : Object)
  | startsSending
  /-- the three statements of `stopSending` -/
  | clearsRun
  | shutsDown
  | joins
  | tests
  | connects (accepted : Bool)
  /-- a wait ends: it is notified, it times out, or for no reason -/
  | wakes
  | pops
  | sends (taken : Bool)

variable (objectToString : Object → String)

/-- The parts of a message. -/
def parts (msg : Object) : List Part :=
  [.size (objectToString msg).utf8ByteSize, .text (objectToString msg)]

/-- The tests of `mRun`, with that of `ok` that follows. -/
def test (s : ProgressSender) : Option ProgressSender :=
  match s.sendThread with
  | .testRun =>
    some { s with
      sendThread := if !s.mRun then .returned else if !s.ok then .firstWait else .outer }
  | .outer =>
    some { s with
      sendThread := if !s.mRun then .returned else if !s.ok then .retry else .inner }
  | .inner => some { s with sendThread := if s.mRun then .pop else .outer }
  | _ => none

def wake (s : ProgressSender) : Option ProgressSender :=
  match s.sendThread with
  | .firstWait => some { s with sendThread := .outer }
  | .retryWait => some { s with sendThread := .outer }
  | .caught => some { s with ok := false, sendThread := .outer }
  | _ => none

def connect (accepted : Bool) (s : ProgressSender) : Option ProgressSender :=
  let s' := s.tryConnect accepted
  match s.sendThread with
  | .connect => some { s' with sendThread := .testRun }
  | .retry => some { s' with sendThread := if s'.ok then .inner else .retryWait }
  | _ => none

/-- `mQueue.pop(msg)`.  It waits while the queue is empty. -/
def popMessage (s : ProgressSender) : Option ProgressSender :=
  match s.sendThread with
  | .pop =>
    match s.mQueue.pop with
    | .shutdownException => some { s with sendThread := .caught }
    | .empty => none
    | .item msg mQueue => some { s with mQueue, sendThread := .sendSize msg }
  | _ => none

/-- `peer.send_or_throw` of a part; it throws unless the whole part was `taken`. -/
def sendPart (taken : Bool) (s : ProgressSender) : Option ProgressSender :=
  match s.sendThread with
  | .sendSize msg =>
    if taken then
      some { s with
        wire := s.wire ++ [.size (objectToString msg).utf8ByteSize]
        sendThread := .sendText msg }
    else some { s with sendThread := .caught }
  | .sendText msg =>
    if taken then
      some { s with
        wire := s.wire ++ [.text (objectToString msg)]
        sent := s.sent ++ [msg]
        sendThread := .inner }
    else some { s with sendThread := .caught }
  | _ => none

def step (s : ProgressSender) : Event → Option ProgressSender
  | .setsChannel channel => some (s.setChannel channel)
  | .progresses message => some (s.progress message)
  | .startsSending => onlyIf (0 < s.callers) s.startSending
  | .clearsRun => some { s with mRun := false }
  | .shutsDown =>
    onlyIf (s.mRun = false ∧ s.mIsSending = true) { s with mQueue := s.mQueue.shutdown }
  | .joins =>
    match s.sendThread with
    | .returned => onlyIf (s.mRun = false) { s with mIsSending := false }
    | _ => none
  | .tests => s.test
  | .connects accepted => s.connect accepted
  | .wakes => s.wake
  | .pops => s.popMessage
  | .sends taken => s.sendPart objectToString taken

def system : System ProgressSender Event where
  init s := s = {}
  step := step objectToString

variable {s s' : ProgressSender}

/-! ## What no step loses -/

/-- The part of a held message that is on the connection already. -/
def heldParts : SenderPc → List Part
  | .sendText msg => [.size (objectToString msg).utf8ByteSize]
  | _ => []

/-- While the sender runs, what was given to it is what was sent, what the thread
    holds and what is queued, in this order; and what is on the connection is what
    was sent. -/
structure NothingLost (s : ProgressSender) : Prop where
  conserved : s.mRun = true → s.given = s.sent ++ s.sendThread.held ++ s.mQueue.mQueue
  complete : s.wire = s.sent.flatMap (parts objectToString)
    ++ heldParts objectToString s.sendThread

/-- No part of a message fails to be sent. -/
def PartsTaken (_ : ProgressSender) : Event → Prop
  | .sends taken => taken = true
  | _ => True

/-- What was popped was sent or is held; and while the sender runs its queue is
    open, and what was given was pushed. -/
structure Invariant (s : ProgressSender) : Prop where
  sending : s.sendThread.ended = false → s.mIsSending = true
  popped : s.mQueue.popped = s.sent ++ s.sendThread.held
  wire : s.wire = s.sent.flatMap (parts objectToString) ++ heldParts objectToString s.sendThread
  isOpen : s.mRun = true → s.mQueue.mShutdown = false
  pushed : s.mRun = true → s.mQueue.pushed = s.given

variable {objectToString}

theorem Invariant.nothingLost (h : Invariant objectToString s) : NothingLost objectToString s where
  conserved hrun := by rw [← h.pushed hrun, ← s.mQueue.fifo, h.popped]
  complete := h.wire

theorem heldParts_of_held {pc : SenderPc} (h : pc.held = []) :
    heldParts objectToString pc = [] := by
  cases pc with
  | sendText msg => cases h
  | _ => rfl

theorem held_of_ended {pc : SenderPc} (h : pc.ended = true) : pc.held = [] := by
  cases pc with
  | notStarted => rfl
  | returned => rfl
  | _ => cases h

/-- A step of the thread between two places where it holds no message. -/
theorem Invariant.moves (h : Invariant objectToString s) (hended : s.sendThread.ended = false)
    (hheld : s.sendThread.held = []) (hheld' : s'.sendThread.held = [])
    (hqueue : s'.mQueue = s.mQueue) (hsent : s'.sent = s.sent) (hwire : s'.wire = s.wire)
    (hrun : s'.mRun = s.mRun) (hgiven : s'.given = s.given)
    (hsending : s'.mIsSending = s.mIsSending) : Invariant objectToString s' where
  sending _ := hsending.trans (h.sending hended)
  popped := by rw [hqueue, hsent, hheld', ← hheld, h.popped]
  wire := by rw [hwire, hsent, heldParts_of_held hheld', ← heldParts_of_held hheld, h.wire]
  isOpen hrun' := by
    rw [hqueue]
    exact h.isOpen (hrun ▸ hrun')
  pushed hrun' := by
    rw [hqueue, hgiven]
    exact h.pushed (hrun ▸ hrun')

theorem Invariant.progress (h : Invariant objectToString s) (message : Object) :
    Invariant objectToString (s.progress message) := by
  unfold ProgressSender.progress
  split
  · exact h
  · cases hpush : s.mQueue.push message with
    | none =>
      -- the queue was shut down, so the sender does not run
      have hstopped : ¬s.mRun = true := by
        intro hrun
        have := (h.isOpen hrun).symm.trans (ThreadsafeQueue.push_eq_none hpush)
        cases this
      exact ⟨h.sending, h.popped, h.wire, h.isOpen, fun hrun => absurd hrun hstopped⟩
    | some mQueue =>
      obtain ⟨-, hopen, hpushed, hpopped⟩ := ThreadsafeQueue.push_eq_some hpush
      refine ⟨h.sending, hpopped.trans h.popped, h.wire, fun _ => hopen, fun hrun => ?_⟩
      exact hpushed.trans (congrArg (· ++ [message]) (h.pushed hrun))

/-- The thread starts where there was none, so that no message is held. -/
theorem Invariant.startSending (h : Invariant objectToString s) :
    Invariant objectToString s.startSending := by
  unfold ProgressSender.startSending
  split
  · next hstart =>
    have hidle : s.mIsSending = false := by
      simpa using (Bool.and_eq_true_iff.mp hstart).1
    have hended : s.sendThread.ended = true := by
      cases hthread : s.sendThread.ended with
      | true => rfl
      | false => cases hidle.symm.trans (h.sending hthread)
    have hheld := held_of_ended hended
    -- so what was popped was sent
    have hpopped := h.popped
    have hwire := h.wire
    rw [hheld] at hpopped
    rw [heldParts_of_held hheld] at hwire
    exact ⟨fun _ => rfl, hpopped, hwire, h.isOpen, h.pushed⟩
  · exact ⟨h.sending, h.popped, h.wire, h.isOpen, h.pushed⟩

theorem Invariant.test (h : Invariant objectToString s) (hs : s.test = some s') :
    Invariant objectToString s' := by
  unfold ProgressSender.test at hs
  split at hs
  · next hpc =>
    cases hs
    refine h.moves (by rw [hpc]; rfl) (by rw [hpc]; rfl) ?_ rfl rfl rfl rfl rfl rfl
    dsimp only
    split
    · rfl
    · split <;> rfl
  · next hpc =>
    cases hs
    refine h.moves (by rw [hpc]; rfl) (by rw [hpc]; rfl) ?_ rfl rfl rfl rfl rfl rfl
    dsimp only
    split
    · rfl
    · split <;> rfl
  · next hpc =>
    cases hs
    refine h.moves (by rw [hpc]; rfl) (by rw [hpc]; rfl) ?_ rfl rfl rfl rfl rfl rfl
    dsimp only
    split <;> rfl
  · cases hs

theorem Invariant.wake (h : Invariant objectToString s) (hs : s.wake = some s') :
    Invariant objectToString s' := by
  unfold ProgressSender.wake at hs
  split at hs
  · next hpc =>
    cases hs
    exact h.moves (by rw [hpc]; rfl) (by rw [hpc]; rfl) rfl rfl rfl rfl rfl rfl rfl
  · next hpc =>
    cases hs
    exact h.moves (by rw [hpc]; rfl) (by rw [hpc]; rfl) rfl rfl rfl rfl rfl rfl rfl
  · next hpc =>
    cases hs
    exact h.moves (by rw [hpc]; rfl) (by rw [hpc]; rfl) rfl rfl rfl rfl rfl rfl rfl
  · cases hs

/-- An attempt to connect changes `ok` and the socket alone. -/
theorem tryConnect_eq (accepted : Bool) (s : ProgressSender) :
    ∃ ok hasSocket, s.tryConnect accepted = { s with ok, hasSocket } := by
  unfold tryConnect
  split
  · exact ⟨false, s.hasSocket, rfl⟩
  · exact ⟨accepted, accepted, rfl⟩

theorem Invariant.connect (h : Invariant objectToString s) {accepted : Bool}
    (hs : s.connect accepted = some s') : Invariant objectToString s' := by
  obtain ⟨ok, hasSocket, heq⟩ := tryConnect_eq accepted s
  unfold ProgressSender.connect at hs
  simp only [heq] at hs
  split at hs
  · next hpc =>
    cases hs
    exact h.moves (by rw [hpc]; rfl) (by rw [hpc]; rfl) rfl rfl rfl rfl rfl rfl rfl
  · next hpc =>
    cases hs
    refine h.moves (by rw [hpc]; rfl) (by rw [hpc]; rfl) ?_ rfl rfl rfl rfl rfl rfl
    dsimp only
    split <;> rfl
  · cases hs

/-- A message that is popped is held. -/
theorem Invariant.popMessage (h : Invariant objectToString s) (hs : s.popMessage = some s') :
    Invariant objectToString s' := by
  unfold ProgressSender.popMessage at hs
  split at hs
  · next hpc =>
    split at hs
    · cases hs
      exact h.moves (by rw [hpc]; rfl) (by rw [hpc]; rfl) rfl rfl rfl rfl rfl rfl rfl
    · cases hs
    · next msg mQueue hpop =>
      cases hs
      obtain ⟨hpushed, hpopped, hshutdown⟩ := ThreadsafeQueue.pop_eq_item hpop
      have hbefore := h.popped
      rw [hpc] at hbefore
      -- the message goes from the queue to the thread
      refine ⟨fun _ => h.sending (by rw [hpc]; rfl), ?_, ?_, fun hrun => ?_, fun hrun => ?_⟩
      · exact hpopped.trans (congrArg (· ++ [msg]) (hbefore.trans (List.append_nil _)))
      · have hwire := h.wire
        rw [hpc] at hwire
        exact hwire
      · exact hshutdown.trans (h.isOpen hrun)
      · exact hpushed.trans (h.pushed hrun)
  · cases hs

/-- A part that is taken goes from what is held to what is sent. -/
theorem Invariant.sendPart (h : Invariant objectToString s)
    (hs : s.sendPart objectToString true = some s') : Invariant objectToString s' := by
  have hpopped := h.popped
  have hwire := h.wire
  unfold ProgressSender.sendPart at hs
  split at hs
  · next msg hpc =>
    -- the size: the message is still held
    cases hs
    rw [hpc] at hpopped hwire
    refine ⟨fun _ => h.sending (by rw [hpc]; rfl), hpopped, ?_, h.isOpen, h.pushed⟩
    exact congrArg (· ++ [_]) (hwire.trans (List.append_nil _))
  · next msg hpc =>
    -- the text: the message is complete
    cases hs
    rw [hpc] at hpopped hwire
    refine ⟨fun _ => h.sending (by rw [hpc]; rfl), ?_, ?_, h.isOpen, h.pushed⟩
    · exact hpopped.trans (List.append_nil _).symm
    · have hparts : (s.sent ++ [msg]).flatMap (parts objectToString)
          = s.sent.flatMap (parts objectToString) ++ parts objectToString msg := by
        rw [List.flatMap_append, List.flatMap_singleton]
      show s.wire ++ [.text (objectToString msg)] = _ ++ []
      rw [hwire, hparts, List.append_nil, List.append_assoc]
      rfl
  · cases hs

theorem Invariant.step (h : Invariant objectToString s) {e : Event} (hC : PartsTaken s e)
    (hs : s.step objectToString e = some s') : Invariant objectToString s' := by
  cases e with
  | setsChannel channel =>
    cases hs
    unfold setChannel
    split <;> exact ⟨h.sending, h.popped, h.wire, h.isOpen, h.pushed⟩
  | progresses message =>
    cases hs
    exact h.progress message
  | startsSending =>
    obtain ⟨-, rfl⟩ := of_onlyIf hs
    exact h.startSending
  | clearsRun =>
    cases hs
    exact ⟨h.sending, h.popped, h.wire, fun hrun => absurd hrun Bool.noConfusion,
      fun hrun => absurd hrun Bool.noConfusion⟩
  | shutsDown =>
    obtain ⟨⟨hstopped, -⟩, rfl⟩ := of_onlyIf hs
    have hnot : ¬s.mRun = true := by rw [hstopped]; exact Bool.noConfusion
    exact ⟨h.sending, h.popped, h.wire, fun hrun => absurd hrun hnot, fun hrun => absurd hrun hnot⟩
  | joins =>
    unfold ProgressSender.step at hs
    dsimp only at hs
    split at hs
    · next hpc =>
      obtain ⟨-, rfl⟩ := of_onlyIf hs
      have hended : s.sendThread.ended = true := by rw [hpc]; rfl
      refine ⟨fun hnot => ?_, h.popped, h.wire, h.isOpen, h.pushed⟩
      cases hended.symm.trans hnot
    · cases hs
  | tests => exact h.test hs
  | connects accepted => exact h.connect hs
  | wakes => exact h.wake hs
  | pops => exact h.popMessage hs
  | sends taken =>
    cases hC
    exact h.sendPart hs

/-- **No message is lost** in a run in which no part of a message fails to be sent,
    whatever else fails: each is sent, held or queued, in the order in which they
    were given, each once. -/
theorem nothingLost_of_partsTaken (h : (system objectToString).ReachableWhen PartsTaken s) :
    NothingLost objectToString s := by
  have hinv : Invariant objectToString s := by
    apply h.invariant
    · rintro s₀ rfl
      exact ⟨Bool.noConfusion, rfl, rfl, fun _ => rfl, fun _ => rfl⟩
    · intro s₁ e s₂ hI hC hs
      exact hI.step hC hs
  exact hinv.nothingLost

/-- A part that fails: its message is no longer held, and nothing else is changed. -/
theorem of_sendPart_false (hs : s.sendPart objectToString false = some s') :
    s.sendThread.held.length = 1 ∧ s'.sendThread.held = [] ∧ s'.sent = s.sent
      ∧ s'.mQueue = s.mQueue ∧ s'.given = s.given ∧ s'.mRun = s.mRun := by
  unfold sendPart at hs
  split at hs
  · next msg hpc =>
    cases hs
    rw [hpc]
    exact ⟨rfl, rfl, rfl, rfl, rfl, rfl⟩
  · next msg hpc =>
    cases hs
    rw [hpc]
    exact ⟨rfl, rfl, rfl, rfl, rfl, rfl⟩
  · cases hs

/-- A part that fails loses its message, in every run. -/
theorem not_nothingLost_of_sends (h : NothingLost objectToString s) (hrun : s.mRun = true)
    (hs : s.step objectToString (.sends false) = some s') : ¬NothingLost objectToString s' := by
  intro h'
  obtain ⟨hheld, hheld', hsent, hqueue, hgiven, hrun'⟩ := of_sendPart_false hs
  -- both sides have the same messages, but for the one that was held
  have hbefore := congrArg List.length (h.conserved hrun)
  have hafter := congrArg List.length (h'.conserved (hrun'.trans hrun))
  rw [hgiven, hsent, hheld', hqueue] at hafter
  simp only [List.length_append, List.length_nil] at hbefore hafter
  omega

/-! ## Two runs -/

theorem tryConnect_of_no_socket (hsocket : s.hasSocket = false) (hdisabled : s.isDisabled = false)
    {address : String} (haddress : s.mAddress = address) (hlength : address.length ≤ 107)
    (accepted : Bool) :
    s.tryConnect accepted = { s with ok := accepted, hasSocket := accepted } := by
  rw [tryConnect, hsocket, hdisabled, Bool.false_or, Bool.false_or, haddress,
    if_neg (by simpa using hlength)]

/-- The sender with a message, once it has connected. -/
def connected (message : Object) : ProgressSender where
  mAddress := "/tmp/arrasprog_1.ipc"
  mQueue := { mQueue := [message], pushed := [message] }
  mIsSending := true
  sendThread := .testRun
  ok := true
  hasSocket := true
  given := [message]

theorem reachable_connected (objectToString : Object → String) (message : Object) :
    (system objectToString).ReachableWhen PartsTaken (connected message) := by
  have h₀ : (system objectToString).ReachableWhen PartsTaken {} := .init rfl
  have haddress : setChannel "1" {} = { mAddress := "/tmp/arrasprog_1.ipc" } := rfl
  have hlength : "/tmp/arrasprog_1.ipc".length ≤ 107 := by decide
  have h₁ := h₀.next (e := Event.setsChannel "1") trivial rfl
  rw [haddress] at h₁
  have h₂ := h₁.next (e := Event.progresses message) trivial rfl
  have h₃ := h₂.next (e := Event.startsSending) trivial rfl
  have htry := tryConnect_of_no_socket
    (s := startSending (progress message { mAddress := "/tmp/arrasprog_1.ipc" })) rfl rfl rfl
    hlength true
  have hconnect : (startSending (progress message { mAddress := "/tmp/arrasprog_1.ipc" })).connect
      true = some (connected message) := by
    rw [connect, htry]
    rfl
  exact h₃.next (e := Event.connects true) trivial hconnect

/-- The message has left the queue, and its size is sent next. -/
def popped (message : Object) : ProgressSender :=
  { connected message with
    mQueue := { popped := [message], pushed := [message] }
    sendThread := .sendSize message }

theorem reachable_popped (objectToString : Object → String) (message : Object) :
    (system objectToString).ReachableWhen PartsTaken (popped message) := by
  have h₁ := (reachable_connected objectToString message).next (e := Event.tests) trivial rfl
  have h₂ := h₁.next (e := Event.tests) trivial rfl
  have h₃ := h₂.next (e := Event.tests) trivial rfl
  exact h₃.next (e := Event.pops) trivial rfl

/-- A message is sent, and the sender runs on. -/
theorem nothingLost_sent : ∃ s, (system fun _ => "null").ReachableWhen PartsTaken s ∧
    s.mRun = true ∧ s.sent.length = 1 ∧ NothingLost (fun _ => "null") s := by
  have h₁ := (reachable_popped (fun _ => "null") .null).next (e := Event.sends true) rfl rfl
  have h₂ := h₁.next (e := Event.sends true) rfl rfl
  exact ⟨_, h₂, rfl, rfl, nothingLost_of_partsTaken h₂⟩

/-- A message whose size is not taken: it is neither sent nor held nor queued. -/
theorem lost_size : ∃ s, (system fun _ => "null").Reachable s ∧ s.mRun = true ∧
    s.given.length = 1 ∧ s.sent = [] ∧ s.sendThread.held = [] ∧ s.mQueue.mQueue = [] ∧
      ¬NothingLost (fun _ => "null") s := by
  have hreachable : (system fun _ => "null").Reachable (popped .null) :=
    (reachable_popped (fun _ => "null") .null).restrict fun _ _ _ _ => trivial
  refine ⟨_, hreachable.next (e := Event.sends false) trivial rfl, rfl, rfl, rfl, rfl, rfl,
    fun h => ?_⟩
  cases congrArg List.length (h.conserved rfl)

end ProgressSender

end Arras4Core.Client
