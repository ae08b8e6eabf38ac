/-
  Arras4Core.Connection.Conversation

  A client and a computation that talk to each other: the client's threads, the
  threads of `runComputation`, and a channel each way.  Whenever a thread is in a call
  of its endpoint, the call ends as the channel says; everything else the threads do by
  themselves.

  Main result: `Conversation.carries`.
-/

import Arras4Core.Computation.ApplyChunkingConfig
import Arras4Core.Connection.Parties
import Arras4Core.Lib.Parts

namespace Arras4Core.Connection

open Arras4Core.Lib
open Arras4Core.Api (Exception ClassID UUID)
open Arras4Core.Chunking (ChunkingConfig ContentRegistry MessageChunk)
open Arras4Core.Client (MessageClient ThreadProcPc componentCall)
open Arras4Core.Computation (CompEnvironmentImpl)
open Arras4Core.Dispatch (MessageDispatcher)
open Arras4Core.Message (ControlMessage CoreMessage Envelope MetadataImpl)

/-- What the two programs are set up with. -/
structure Session where
  /-- `mChunkingConfig` of the client -/
  clientConfig : ChunkingConfig
  /-- `mChunkingConfig` of the computation -/
  computationConfig : ChunkingConfig
  clientRegistry : ContentRegistry
  computationRegistry : ContentRegistry
  /-- `contentAs<ControlMessage>`, with the command and the data -/
  controlContent : Envelope → Option (String × String)
  parse : String → Computation.ParseOutcome
  uuid_parse : String → Option UUID
  /-- the address of the computation -/
  mAddress : Api.Address

namespace Session

/-- `ControlMessageEndpoint` takes the control messages. -/
def takesControl (classId : ClassID) : Bool := decide (classId = ControlMessage.ID)

/-- The client has no filter under the chunking one. -/
def takesNothing (_ : ClassID) : Bool := false

variable (p : Session)

/-- From the client to the computation. -/
def forth : System Channel Channel.Event :=
  Channel.system p.clientConfig p.computationRegistry takesControl

/-- From the computation to the client. -/
def back : System Channel Channel.Event :=
  Channel.system p.computationConfig p.clientRegistry takesNothing

def client : System (MessageClient Envelope) (MessageClient.Event Envelope) :=
  MessageClient.system Envelope.classId

variable [DecidableEq Envelope]

def computation : System (CompEnvironmentImpl Envelope) (CompEnvironmentImpl.Event Envelope) :=
  CompEnvironmentImpl.system Envelope.classId p.parse p.uuid_parse p.mAddress

end Session

structure Conversation where
  client : MessageClient Envelope
  toComputation : Channel
  computation : CompEnvironmentImpl Envelope
  toClient : Channel

namespace Conversation

/-- The events of the connection itself. -/
def isTransport : Channel.Event → Bool
  | .transfers _ | .breaks _ => true
  | _ => false

inductive Event
  -- the client
  | client (e : MessageClient.Event Envelope)
  | clientPuts
  | clientPutBreaks (n : Nat)
  | clientPasses
  | clientDisconnects
  | clientGetsShutdown
  | clientShutsEndpoint
  -- the computation
  | computation (e : CompEnvironmentImpl.Event Envelope)
  | computationPuts
  | computationPutBreaks (n : Nat)
  | computationPasses
  | computationDisconnects
  | computationGetsShutdown
  | computationShutsSource
  -- the connection
  | forth (e : Channel.Event)
  | back (e : Channel.Event)

/-! ## The calls of the endpoints -/

/-- `threadProc` is in `getEnvelope`. -/
def clientGets (s : Conversation) : Bool :=
  match s.client.threadProc with
  | .getEnvelope => true
  | _ => false

/-- The envelope that the outgoing thread is putting. -/
def computationPutting (s : Conversation) : Option Envelope :=
  match s.computation.mDispatcher.outgoing with
  | .inPut envelope => some envelope
  | _ => none

/-- The client takes a step, if there is one. -/
def clientSteps (s : Conversation) (e : Option (MessageClient.Event Envelope)) :
    Option Conversation :=
  match e with
  | none => some s
  | some e => (Session.client.step s.client e).map fun client => { s with client }

/-- How a pass ends the call of `getEnvelope` that the client is in. -/
def clientReceives : Option Received → Option (MessageClient.Event Envelope)
  | none | some (.consumed _) => none
  | some (.returned envelope) => some (.getEnvelopeReturns envelope)
  | some (.threw e) => some (.getEnvelopeThrows e)

/-- The same for the computation, which handles control messages in the call. -/
def computationReceives (p : Session) :
    Option Received → Option (CompEnvironmentImpl.Event Envelope)
  | none => none
  | some (.consumed envelope) =>
    (p.controlContent envelope).map fun content => .controlMessage content.1 content.2
  | some (.returned envelope) => some (.dispatcher (.getEnvelopeReturns envelope))
  | some (.threw e) => some (.dispatcher (.getEnvelopeThrows e))

/-- How a call of `putEnvelope` that the computation is in ends. -/
def computationPutEvent (envelope : Envelope) :
    Except Exception Unit → CompEnvironmentImpl.Event Envelope
  | .ok _ => .dispatcher (.putEnvelopeReturns envelope)
  | .error e => .dispatcher (.putEnvelopeThrows envelope e)

section

variable {s s' : Conversation}

theorem of_clientSteps {e : Option (MessageClient.Event Envelope)}
    (hs : s.clientSteps e = some s') :
    ∃ client, Session.client.MaybeStep s.client e client ∧ s' = { s with client } := by
  cases e with
  | none =>
    cases hs
    exact ⟨s.client, rfl, rfl⟩
  | some e =>
    obtain ⟨client, hstep, rfl⟩ := Option.map_eq_some_iff.mp hs
    exact ⟨client, hstep, rfl⟩

theorem putting_of_computationPutting {envelope : Envelope}
    (h : s.computationPutting = some envelope) :
    s.computation.mDispatcher.outgoing = .inPut envelope := by
  unfold computationPutting at h
  split at h
  · next hpc => rw [hpc, Option.some.inj h]
  · cases h

theorem returnedIn_putEvent {envelope : Envelope} (hputting : s.client.putting = some envelope)
    (result : Except Exception Unit) :
    ClientEnd.returnedIn s.client (ClientEnd.putEvent result)
      = if result.isOk then [envelope] else [] := by
  cases result with
  | error e => rfl
  | ok u =>
    rw [ClientEnd.putEvent, ClientEnd.returnedIn, hputting]
    rfl

theorem gotIn_putEvent (result : Except Exception Unit) :
    ClientEnd.gotIn (ClientEnd.putEvent result : MessageClient.Event Envelope) = [] := by
  cases result <;> rfl

theorem returnedIn_computationPutEvent (envelope : Envelope) (result : Except Exception Unit) :
    ComputationEnd.returnedIn (computationPutEvent envelope result)
      = if result.isOk then [envelope] else [] := by
  cases result <;> rfl

theorem gotIn_computationPutEvent (envelope : Envelope) (result : Except Exception Unit) :
    ComputationEnd.gotIn (computationPutEvent envelope result) = [] := by
  cases result <;> rfl

/-- What the client is told by the pass of the loop. -/
theorem clientReceives_histories (received : Option Received) :
    received.toList.filterMap Received.envelope?
        = (clientReceives received).elim [] ClientEnd.gotIn ∧
      (clientReceives received).elim [] (ClientEnd.returnedIn s.client) = [] := by
  rcases received with _ | (envelope | envelope | e) <;> exact ⟨rfl, rfl⟩

theorem computationReceives_histories (p : Session) (received : Option Received) :
    received.toList.filterMap Received.envelope?
        = (computationReceives p received).elim [] ComputationEnd.gotIn ∧
      (computationReceives p received).elim [] ComputationEnd.returnedIn = [] := by
  rcases received with _ | (envelope | envelope | e)
  · exact ⟨rfl, rfl⟩
  · exact ⟨rfl, rfl⟩
  · rw [computationReceives]
    cases p.controlContent envelope <;> exact ⟨rfl, rfl⟩
  · exact ⟨rfl, rfl⟩

end

/-! ## The steps -/

section Steps

variable (p : Session) [DecidableEq Envelope]

/-- The incoming thread is in `getEnvelope`, and not in `signalStop`. -/
def computationGets (s : Conversation) : Bool :=
  decide (s.computation.mDispatcher.incoming = .getEnvelope) && !s.computation.stopping

def computationSteps (s : Conversation) (e : Option (CompEnvironmentImpl.Event Envelope)) :
    Option Conversation :=
  match e with
  | none => some s
  | some e => (p.computation.step s.computation e).map fun computation => { s with computation }

def step (s : Conversation) : Event → Option Conversation
  -- the client
  | .client e => if ClientEnd.isCall e then none else s.clientSteps (some e)
  | .clientPuts => do
    let envelope ← s.client.putting
    let toComputation ← p.forth.step s.toComputation (.putEnvelope envelope)
    let result := (s.toComputation.putEnvelope p.clientConfig envelope).1
    { s with toComputation }.clientSteps (some (ClientEnd.putEvent result))
  | .clientPutBreaks n => do
    let envelope ← s.client.putting
    let toComputation ← p.forth.step s.toComputation (.putBreaks envelope n)
    let result := .error (disconnected s.toComputation.putShutdown)
    { s with toComputation }.clientSteps (some (ClientEnd.putEvent result))
  | .clientPasses =>
    if s.clientGets then do
      let toClient ← p.back.step s.toClient .passes
      let received := (s.toClient.pass p.clientRegistry Session.takesNothing).1
      { s with toClient }.clientSteps (clientReceives received)
    else none
  | .clientDisconnects =>
    if s.clientGets then do
      let toClient ← p.back.step s.toClient .disconnects
      { s with toClient }.clientSteps
        (some (.getEnvelopeThrows (disconnected s.toClient.getShutdown)))
    else none
  | .clientGetsShutdown =>
    if s.clientGets then do
      let toClient ← p.back.step s.toClient .getsShutdown
      { s with toClient }.clientSteps
        (some (.getEnvelopeThrows (disconnected s.toClient.getShutdown)))
    else none
  | .clientShutsEndpoint => do
    let toComputation ← p.forth.step s.toComputation .putShutdown
    let toClient ← p.back.step s.toClient .getShutdown
    { s with toComputation, toClient }.clientSteps (some .shutsEndpoint)
  -- the computation
  | .computation e => if ComputationEnd.isCall e then none else s.computationSteps p (some e)
  | .computationPuts => do
    let envelope ← s.computationPutting
    let toClient ← p.back.step s.toClient (.putEnvelope envelope)
    let result := (s.toClient.putEnvelope p.computationConfig envelope).1
    { s with toClient }.computationSteps p (some (computationPutEvent envelope result))
  | .computationPutBreaks n => do
    let envelope ← s.computationPutting
    let toClient ← p.back.step s.toClient (.putBreaks envelope n)
    let result := .error (disconnected s.toClient.putShutdown)
    { s with toClient }.computationSteps p (some (computationPutEvent envelope result))
  | .computationPasses =>
    if s.computationGets then do
      let toComputation ← p.forth.step s.toComputation .passes
      let received := (s.toComputation.pass p.computationRegistry Session.takesControl).1
      { s with toComputation }.computationSteps p (computationReceives p received)
    else none
  | .computationDisconnects =>
    if s.computationGets then do
      let toComputation ← p.forth.step s.toComputation .disconnects
      { s with toComputation }.computationSteps p
        (some (.dispatcher (.getEnvelopeThrows (disconnected s.toComputation.getShutdown))))
    else none
  | .computationGetsShutdown =>
    if s.computationGets then do
      let toComputation ← p.forth.step s.toComputation .getsShutdown
      { s with toComputation }.computationSteps p
        (some (.dispatcher (.getEnvelopeThrows (disconnected s.toComputation.getShutdown))))
    else none
  | .computationShutsSource => do
    let toComputation ← p.forth.step s.toComputation .getShutdown
    let toClient ← p.back.step s.toClient .putShutdown
    { s with toComputation, toClient }.computationSteps p (some (.dispatcher .masterShutsSource))
  -- the connection
  | .forth e =>
    if isTransport e then
      (p.forth.step s.toComputation e).map fun toComputation => { s with toComputation }
    else none
  | .back e =>
    if isTransport e then (p.back.step s.toClient e).map fun toClient => { s with toClient }
    else none

/-- The two ends are connected, and nothing has been said. -/
def system : System Conversation Event where
  init s := Session.client.init s.client ∧ p.forth.init s.toComputation ∧
    p.computation.init s.computation ∧ p.back.init s.toClient
  step := step p

variable {p} {s s' : Conversation}

/-! ## One step -/

/-- The parts take a step each, or are left alone. -/
structure Moves (p : Session) (s s' : Conversation) (client : Option (MessageClient.Event Envelope))
    (forth : Option Channel.Event) (computation : Option (CompEnvironmentImpl.Event Envelope))
    (back : Option Channel.Event) : Prop where
  client : Session.client.MaybeStep s.client client s'.client
  forth : p.forth.MaybeStep s.toComputation forth s'.toComputation
  computation : p.computation.MaybeStep s.computation computation s'.computation
  back : p.back.MaybeStep s.toClient back s'.toClient

/-- The steps fit together: a call of an endpoint ends as the channel says. -/
structure Fits (p : Session) (s : Conversation) (client : Option (MessageClient.Event Envelope))
    (forth : Option Channel.Event) (computation : Option (CompEnvironmentImpl.Event Envelope))
    (back : Option Channel.Event) : Prop where
  forthPut : forth.elim [] (Channel.putIn p.clientConfig s.toComputation)
    = client.elim [] (ClientEnd.returnedIn s.client)
  forthGot : (forth.elim []
      (Channel.receivedIn p.computationRegistry Session.takesControl s.toComputation)).filterMap
        Received.envelope?
    = computation.elim [] ComputationEnd.gotIn
  backPut : back.elim [] (Channel.putIn p.computationConfig s.toClient)
    = computation.elim [] ComputationEnd.returnedIn
  backGot : (back.elim []
      (Channel.receivedIn p.clientRegistry Session.takesNothing s.toClient)).filterMap
        Received.envelope?
    = client.elim [] ClientEnd.gotIn
  forthPutting : ∀ e ∈ forth, ∀ envelope ∈ Channel.puttingIn e, s.client.putting = some envelope
  backPutting : ∀ e ∈ back, ∀ envelope ∈ Channel.puttingIn e,
    s.computation.mDispatcher.outgoing = .inPut envelope

theorem of_computationSteps {e : Option (CompEnvironmentImpl.Event Envelope)}
    (hs : s.computationSteps p e = some s') :
    ∃ computation, p.computation.MaybeStep s.computation e computation ∧
      s' = { s with computation } := by
  cases e with
  | none =>
    cases hs
    exact ⟨s.computation, rfl, rfl⟩
  | some e =>
    obtain ⟨computation, hstep, rfl⟩ := Option.map_eq_some_iff.mp hs
    exact ⟨computation, hstep, rfl⟩

/-- A step of the whole is a step of some of the parts. -/
theorem moves_of_step {e : Event} (hs : step p s e = some s') :
    ∃ client forth computation back, Moves p s s' client forth computation back ∧
      Fits p s client forth computation back := by
  have hidle : ∀ {P : Channel.Event → Envelope → Prop}, ∀ e ∈ (none : Option Channel.Event),
      ∀ envelope ∈ Channel.puttingIn e, P e envelope :=
    fun e he => absurd he (Option.not_mem_none e)
  cases e with
  | client e =>
    simp only [step] at hs
    split at hs
    · cases hs
    · next hcall =>
      -- a step of the client's own adds to neither history of its endpoint
      obtain ⟨client, hclient, rfl⟩ := of_clientSteps hs
      have hno : ClientEnd.returnedIn s.client e = [] ∧ ClientEnd.gotIn e = [] := by
        cases e with
        | putEnvelopeReturns | getEnvelopeReturns => exact absurd rfl hcall
        | _ => exact ⟨rfl, rfl⟩
      exact ⟨some e, none, none, none, ⟨hclient, .idle _, .idle _, .idle _⟩,
        ⟨hno.1.symm, rfl, rfl, hno.2.symm, hidle, hidle⟩⟩
  | clientPuts =>
    -- the call returns, or throws, as that of the channel does
    simp only [step] at hs
    obtain ⟨envelope, hputting, hs⟩ := Option.bind_eq_some_iff.mp hs
    obtain ⟨toComputation, hchannel, hs⟩ := Option.bind_eq_some_iff.mp hs
    obtain ⟨client, hclient, rfl⟩ := of_clientSteps hs
    refine ⟨_, some _, none, none, ⟨hclient, hchannel, .idle _, .idle _⟩,
      ?_, rfl, rfl, ?_, ?_, hidle⟩
    · exact (returnedIn_putEvent hputting _).symm
    · exact (gotIn_putEvent _).symm
    · rintro _ ⟨⟩ _ ⟨⟩
      exact hputting
  | clientPutBreaks n =>
    simp only [step] at hs
    obtain ⟨envelope, hputting, hs⟩ := Option.bind_eq_some_iff.mp hs
    obtain ⟨toComputation, hchannel, hs⟩ := Option.bind_eq_some_iff.mp hs
    obtain ⟨client, hclient, rfl⟩ := of_clientSteps hs
    refine ⟨_, some _, none, none, ⟨hclient, hchannel, .idle _, .idle _⟩,
      rfl, rfl, rfl, rfl, ?_, hidle⟩
    rintro _ ⟨⟩ _ ⟨⟩
    exact hputting
  | clientPasses =>
    simp only [step] at hs
    split at hs
    · obtain ⟨toClient, hchannel, hs⟩ := Option.bind_eq_some_iff.mp hs
      obtain ⟨client, hclient, rfl⟩ := of_clientSteps hs
      obtain ⟨hgot, hreturned⟩ := clientReceives_histories (s := s)
        (s.toClient.pass p.clientRegistry Session.takesNothing).1
      refine ⟨_, none, none, some .passes, ⟨hclient, .idle _, .idle _, hchannel⟩,
        hreturned.symm, rfl, rfl, hgot, hidle, ?_⟩
      rintro _ ⟨⟩ _ ⟨⟩
    · cases hs
  | clientDisconnects =>
    simp only [step] at hs
    split at hs
    · obtain ⟨toClient, hchannel, hs⟩ := Option.bind_eq_some_iff.mp hs
      obtain ⟨client, hclient, rfl⟩ := of_clientSteps hs
      refine ⟨_, none, none, some .disconnects, ⟨hclient, .idle _, .idle _, hchannel⟩,
        rfl, rfl, rfl, rfl, hidle, ?_⟩
      rintro _ ⟨⟩ _ ⟨⟩
    · cases hs
  | clientGetsShutdown =>
    simp only [step] at hs
    split at hs
    · obtain ⟨toClient, hchannel, hs⟩ := Option.bind_eq_some_iff.mp hs
      obtain ⟨client, hclient, rfl⟩ := of_clientSteps hs
      refine ⟨_, none, none, some .getsShutdown, ⟨hclient, .idle _, .idle _, hchannel⟩,
        rfl, rfl, rfl, rfl, hidle, ?_⟩
      rintro _ ⟨⟩ _ ⟨⟩
    · cases hs
  | clientShutsEndpoint =>
    -- both channels see the shutdown
    simp only [step] at hs
    obtain ⟨toComputation, hforth, hs⟩ := Option.bind_eq_some_iff.mp hs
    obtain ⟨toClient, hback, hs⟩ := Option.bind_eq_some_iff.mp hs
    obtain ⟨client, hclient, rfl⟩ := of_clientSteps hs
    refine ⟨_, some .putShutdown, none, some .getShutdown, ⟨hclient, hforth, .idle _, hback⟩,
      rfl, rfl, rfl, rfl, ?_, ?_⟩
    · rintro _ ⟨⟩ _ ⟨⟩
    · rintro _ ⟨⟩ _ ⟨⟩
  | computation e =>
    simp only [step] at hs
    split at hs
    · cases hs
    · next hcall =>
      obtain ⟨computation, hcomputation, rfl⟩ := of_computationSteps hs
      have hno : ComputationEnd.returnedIn e = [] ∧ ComputationEnd.gotIn e = [] := by
        cases e with
        | dispatcher d =>
          cases d with
          | getEnvelopeReturns | putEnvelopeReturns => exact absurd rfl hcall
          | _ => exact ⟨rfl, rfl⟩
        | _ => exact ⟨rfl, rfl⟩
      exact ⟨none, none, some e, none, ⟨.idle _, .idle _, hcomputation, .idle _⟩,
        ⟨rfl, hno.2.symm, hno.1.symm, rfl, hidle, hidle⟩⟩
  | computationPuts =>
    simp only [step] at hs
    obtain ⟨envelope, hputting, hs⟩ := Option.bind_eq_some_iff.mp hs
    obtain ⟨toClient, hchannel, hs⟩ := Option.bind_eq_some_iff.mp hs
    obtain ⟨computation, hcomputation, rfl⟩ := of_computationSteps hs
    refine ⟨none, none, _, some _, ⟨.idle _, .idle _, hcomputation, hchannel⟩,
      rfl, ?_, ?_, rfl, hidle, ?_⟩
    · exact (gotIn_computationPutEvent envelope _).symm
    · exact (returnedIn_computationPutEvent envelope _).symm
    · rintro _ ⟨⟩ _ ⟨⟩
      exact putting_of_computationPutting hputting
  | computationPutBreaks n =>
    simp only [step] at hs
    obtain ⟨envelope, hputting, hs⟩ := Option.bind_eq_some_iff.mp hs
    obtain ⟨toClient, hchannel, hs⟩ := Option.bind_eq_some_iff.mp hs
    obtain ⟨computation, hcomputation, rfl⟩ := of_computationSteps hs
    refine ⟨none, none, _, some _, ⟨.idle _, .idle _, hcomputation, hchannel⟩,
      rfl, rfl, rfl, rfl, hidle, ?_⟩
    rintro _ ⟨⟩ _ ⟨⟩
    exact putting_of_computationPutting hputting
  | computationPasses =>
    simp only [step] at hs
    split at hs
    · obtain ⟨toComputation, hchannel, hs⟩ := Option.bind_eq_some_iff.mp hs
      obtain ⟨computation, hcomputation, rfl⟩ := of_computationSteps hs
      obtain ⟨hgot, hreturned⟩ := computationReceives_histories p
        (s.toComputation.pass p.computationRegistry Session.takesControl).1
      refine ⟨none, some .passes, _, none, ⟨.idle _, hchannel, hcomputation, .idle _⟩, rfl, hgot,
        hreturned.symm, rfl, ?_, hidle⟩
      rintro _ ⟨⟩ _ ⟨⟩
    · cases hs
  | computationDisconnects =>
    simp only [step] at hs
    split at hs
    · obtain ⟨toComputation, hchannel, hs⟩ := Option.bind_eq_some_iff.mp hs
      obtain ⟨computation, hcomputation, rfl⟩ := of_computationSteps hs
      refine ⟨none, some .disconnects, _, none, ⟨.idle _, hchannel, hcomputation, .idle _⟩,
        rfl, rfl, rfl, rfl, ?_, hidle⟩
      rintro _ ⟨⟩ _ ⟨⟩
    · cases hs
  | computationGetsShutdown =>
    simp only [step] at hs
    split at hs
    · obtain ⟨toComputation, hchannel, hs⟩ := Option.bind_eq_some_iff.mp hs
      obtain ⟨computation, hcomputation, rfl⟩ := of_computationSteps hs
      refine ⟨none, some .getsShutdown, _, none, ⟨.idle _, hchannel, hcomputation, .idle _⟩,
        rfl, rfl, rfl, rfl, ?_, hidle⟩
      rintro _ ⟨⟩ _ ⟨⟩
    · cases hs
  | computationShutsSource =>
    simp only [step] at hs
    obtain ⟨toComputation, hforth, hs⟩ := Option.bind_eq_some_iff.mp hs
    obtain ⟨toClient, hback, hs⟩ := Option.bind_eq_some_iff.mp hs
    obtain ⟨computation, hcomputation, rfl⟩ := of_computationSteps hs
    refine ⟨none, some .getShutdown, _, some .putShutdown, ⟨.idle _, hforth, hcomputation, hback⟩,
      rfl, rfl, rfl, rfl, ?_, ?_⟩
    · rintro _ ⟨⟩ _ ⟨⟩
    · rintro _ ⟨⟩ _ ⟨⟩
  -- the bytes on the way are no concern of the two programs
  | forth e =>
    simp only [step] at hs
    split at hs
    · next htransport =>
      obtain ⟨toComputation, hchannel, rfl⟩ := Option.map_eq_some_iff.mp hs
      cases e with
      | transfers | breaks =>
        refine ⟨none, some _, none, none, ⟨.idle _, hchannel, .idle _, .idle _⟩,
          rfl, rfl, rfl, rfl, ?_, hidle⟩
        rintro _ ⟨⟩ _ ⟨⟩
      | _ => cases htransport
    · cases hs
  | back e =>
    simp only [step] at hs
    split at hs
    · next htransport =>
      obtain ⟨toClient, hchannel, rfl⟩ := Option.map_eq_some_iff.mp hs
      cases e with
      | transfers | breaks =>
        refine ⟨none, none, none, some _, ⟨.idle _, .idle _, .idle _, hchannel⟩,
          rfl, rfl, rfl, rfl, hidle, ?_⟩
        rintro _ ⟨⟩ _ ⟨⟩
      | _ => cases htransport
    · cases hs

/-! ## Every run -/

/-- What a part has done by itself holds of it in the whole, and the histories of the
    calls at both sides of an endpoint are the same. -/
structure Invariant (p : Session) (s : Conversation) : Prop where
  client : Session.client.Reachable s.client
  dispatcher : (MessageDispatcher.system Envelope.classId).Reachable s.computation.mDispatcher
  forth : (∀ envelope ∈ s.client.sent, Sendable p.clientConfig p.computationRegistry envelope) →
    p.forth.ReachableWhen (Channel.PutsSendable p.clientConfig p.computationRegistry)
      s.toComputation
  back : (∀ envelope ∈ s.computation.mDispatcher.sent,
      Sendable p.computationConfig p.clientRegistry envelope) →
    p.back.ReachableWhen (Channel.PutsSendable p.computationConfig p.clientRegistry) s.toClient
  forthPut : s.toComputation.put = ClientEnd.putReturned s.client
  forthGot : s.toComputation.received.filterMap Received.envelope? = s.computation.mDispatcher.got
  backPut : s.toClient.put = s.computation.mDispatcher.putReturned
  backGot : s.toClient.received.filterMap Received.envelope? = s.client.got

/-- The dispatcher of the computation takes a step of its own system, or none. -/
theorem dispatcher_of_maybeStep {e : Option (CompEnvironmentImpl.Event Envelope)}
    (h : (MessageDispatcher.system Envelope.classId).Reachable s.computation.mDispatcher)
    (hs : p.computation.MaybeStep s.computation e s'.computation) :
    (MessageDispatcher.system Envelope.classId).Reachable s'.computation.mDispatcher := by
  cases e with
  | none =>
    have hsame : s'.computation = s.computation := hs
    rwa [hsame]
  | some e =>
    rcases ComputationEnd.dispatcher_of_step hs with ⟨hsame, -⟩ | ⟨d, hd, -⟩
    · rwa [hsame]
    · exact h.next trivial hd

theorem Invariant.next (h : s.Invariant p) {client : Option (MessageClient.Event Envelope)}
    {forth back : Option Channel.Event} {computation : Option (CompEnvironmentImpl.Event Envelope)}
    (hmoves : Moves p s s' client forth computation back)
    (hfits : Fits p s client forth computation back) : s'.Invariant p := by
  have hclientSent : s.client.sent ⊆ s'.client.sent :=
    hmoves.client.grows MessageClient.sent
      fun _ _ _ hs => (ClientEnd.histories_of_step hs).2.2
  have hdispatcherSent : s.computation.mDispatcher.sent ⊆ s'.computation.mDispatcher.sent :=
    hmoves.computation.grows (fun c => c.mDispatcher.sent)
      fun _ _ _ hs => (ComputationEnd.histories_of_step hs).2.2
  refine
    { client := h.client.maybe (fun _ _ => trivial) hmoves.client
      dispatcher := dispatcher_of_maybeStep h.dispatcher hmoves.computation
      forth := fun hsendable => ?_
      back := fun hsendable => ?_
      forthPut := ?_
      forthGot := ?_
      backPut := ?_
      backGot := ?_ }
  · -- what can be sent now could be sent before
    have hbefore := fun envelope hmem => hsendable envelope (hclientSent hmem)
    refine (h.forth hbefore).maybe (fun e he => ?_) hmoves.forth
    -- what is put was sent
    have hput : ∀ envelope ∈ Channel.puttingIn e,
        Sendable p.clientConfig p.computationRegistry envelope := by
      intro envelope henvelope
      have hcalls := (MessageClient.invariant_of_reachable h.client).sends.calls_prefix
      refine hbefore envelope (hcalls.subset (List.mem_append_right _ ?_))
      rw [hfits.forthPutting e he envelope henvelope]
      exact List.mem_singleton_self _
    cases e with
    | putEnvelope envelope | putBreaks envelope => exact hput envelope rfl
    | _ => trivial
  · have hbefore := fun envelope hmem => hsendable envelope (hdispatcherSent hmem)
    refine (h.back hbefore).maybe (fun e he => ?_) hmoves.back
    have hput : ∀ envelope ∈ Channel.puttingIn e,
        Sendable p.computationConfig p.clientRegistry envelope := fun envelope henvelope =>
      hbefore envelope (DispatcherEnd.mem_sent_of_reachable h.dispatcher
        (hfits.backPutting e he envelope henvelope))
    cases e with
    | putEnvelope envelope | putBreaks envelope => exact hput envelope rfl
    | _ => trivial
  -- a history of both sides grows by the same calls
  · rw [hmoves.forth.history _ _ fun _ _ _ hs => (Channel.histories_of_step hs).1,
      hmoves.client.history _ _ fun _ _ _ hs => (ClientEnd.histories_of_step hs).1, h.forthPut,
      hfits.forthPut]
  · rw [hmoves.forth.history _ _ fun _ _ _ hs => (Channel.histories_of_step hs).2,
      hmoves.computation.history (fun c => c.mDispatcher.got) (fun _ => ComputationEnd.gotIn)
        fun _ _ _ hs => (ComputationEnd.histories_of_step hs).1,
      List.filterMap_append, h.forthGot, hfits.forthGot]
  · rw [hmoves.back.history _ _ fun _ _ _ hs => (Channel.histories_of_step hs).1,
      hmoves.computation.history (fun c => c.mDispatcher.putReturned)
        (fun _ => ComputationEnd.returnedIn)
        fun _ _ _ hs => (ComputationEnd.histories_of_step hs).2.1,
      h.backPut, hfits.backPut]
  · rw [hmoves.back.history _ _ fun _ _ _ hs => (Channel.histories_of_step hs).2,
      hmoves.client.history MessageClient.got (fun _ => ClientEnd.gotIn)
        fun _ _ _ hs => (ClientEnd.histories_of_step hs).2.1,
      List.filterMap_append, h.backGot, hfits.backGot]

theorem invariant_of_reachable (h : (system p).Reachable s) : s.Invariant p := by
  refine h.invariant ?_ fun s e s' hi _ hs => ?_
  · rintro s ⟨hclient, hforth, hcomputation, hback⟩
    have hclientNew : s.client.calls = [] ∧ s.client.got = [] := by
      rw [hclient.2]
      exact ⟨rfl, rfl⟩
    obtain ⟨waitForGo, go, dispatcher, hdispatcher, hcomputationIs⟩ := hcomputation
    have hdispatcherIs : s.computation.mDispatcher = dispatcher := by rw [hcomputationIs]
    have hnew : dispatcher.got = [] ∧ dispatcher.putReturned = [] := by
      obtain ⟨reason, idleInterval, rfl⟩ := hdispatcher
      exact ⟨rfl, rfl⟩
    exact
      { client := .init hclient
        dispatcher := hdispatcherIs ▸ .init hdispatcher
        forth := fun _ => .init hforth
        back := fun _ => .init hback
        forthPut := by rw [hforth.1, ClientEnd.putReturned, hclientNew.1]; rfl
        forthGot := by rw [hforth.1, hdispatcherIs, hnew.1]; rfl
        backPut := by rw [hback.1, hdispatcherIs, hnew.2]
        backGot := by rw [hback.1, hclientNew.2]; rfl }
  · obtain ⟨client, forth, computation, back, hmoves, hfits⟩ := moves_of_step hs
    exact hi.next hmoves hfits

/-- Of the messages put, in order, a first part has come out, each as what `Delivers`
    allows; `handled` is a first part of the envelopes that came out. -/
def Carries (Delivers : Envelope → Received → Prop) (put handled : List Envelope) : Prop :=
  ∃ done rest received, put = done ++ rest ∧ List.Forall₂ Delivers done received ∧
    handled <+: received.filterMap Received.envelope?

/-- **A conversation.**  Whatever the threads of the two programs and the connection do,
    the computation handles what the client sent and the components of the client are
    told of what the computation sent: those of the messages for which the call of the
    endpoint returned come out in the order in which they were sent, none is left out and
    none comes twice.  Each direction needs that what is sent in it is `Sendable`. -/
theorem carries (h : (system p).Reachable s) :
    ((∀ envelope ∈ s.client.sent, Sendable p.clientConfig p.computationRegistry envelope) →
      (ClientEnd.putReturned s.client).Sublist s.client.sent ∧
      Carries (Delivers p.clientConfig p.computationRegistry Session.takesControl)
        (ClientEnd.putReturned s.client) s.computation.mDispatcher.handled) ∧
    ((∀ envelope ∈ s.computation.mDispatcher.sent,
        Sendable p.computationConfig p.clientRegistry envelope) →
      s.computation.mDispatcher.putReturned.Sublist s.computation.mDispatcher.sent ∧
      ∃ told, s.client.told = told.filterMap (componentCall Envelope.classId) ∧
        Carries (Delivers p.computationConfig p.clientRegistry Session.takesNothing)
          s.computation.mDispatcher.putReturned told) := by
  have hi := invariant_of_reachable h
  constructor
  · intro hsendable
    refine ⟨ClientEnd.putReturned_sublist_sent hi.client, ?_⟩
    obtain ⟨way, haligned⟩ := Channel.aligned_of_reachable (by decide) (hi.forth hsendable)
    obtain ⟨rest, hput, -⟩ := haligned.done_prefix
    refine ⟨way.done, rest, s.toComputation.received, hi.forthPut ▸ hput, haligned.delivered, ?_⟩
    rw [hi.forthGot]
    have hreceives := (MessageDispatcher.invariant_of_reachable hi.dispatcher).receives
    have hhandled : s.computation.mDispatcher.handled
        <+: s.computation.mDispatcher.mIncomingQueue.popped :=
      hreceives.handled ▸ List.prefix_append _ _
    exact (hhandled.trans
      s.computation.mDispatcher.mIncomingQueue.popped_prefix_pushed).trans hreceives.pushed
  · intro hsendable
    refine ⟨DispatcherEnd.putReturned_sublist_sent hi.dispatcher, ?_⟩
    obtain ⟨way, haligned⟩ := Channel.aligned_of_reachable rfl (hi.back hsendable)
    obtain ⟨rest, hput, -⟩ := haligned.done_prefix
    obtain ⟨told, hgot, htold⟩ := (MessageClient.invariant_of_reachable hi.client).delivers.told
    refine ⟨told, htold, way.done, rest, s.toClient.received, hi.backPut ▸ hput,
      haligned.delivered, ?_⟩
    rw [hi.backGot, hgot]
    exact List.prefix_append _ _

/-! ## Steps of one part -/

/-- The computation goes on by itself. -/
theorem reachable_computation (h : (system p).Reachable s)
    {events : List (CompEnvironmentImpl.Event Envelope)}
    (hown : ∀ e ∈ events, ComputationEnd.isCall e = false)
    {computation : CompEnvironmentImpl Envelope}
    (hrun : p.computation.run s.computation events = some computation) :
    (system p).Reachable { s with computation } := by
  induction events generalizing s with
  | nil =>
    cases hrun
    exact h
  | cons e events ih =>
    obtain ⟨c, hstep, hrest⟩ := Option.bind_eq_some_iff.mp hrun
    have hcall : ¬ ComputationEnd.isCall e = true := by simp [hown e List.mem_cons_self]
    have hnext : step p s (.computation e) = some { s with computation := c } := by
      simp only [step, if_neg hcall, computationSteps, hstep, Option.map_some]
    exact ih (s := { s with computation := c }) (h.next (e := .computation e) trivial hnext)
      (fun e he => hown e (List.mem_cons_of_mem _ he)) hrest

/-- The client puts a message that can be sent. -/
theorem reachable_clientPuts (h : (system p).Reachable s) {envelope : Envelope}
    (hputting : s.client.putting = some envelope) {toComputation : Channel}
    (hput : s.toComputation.putEnvelope p.clientConfig envelope = (.ok (), toComputation))
    {client : MessageClient Envelope}
    (hclient : Session.client.step s.client .putEnvelopeReturns = some client) :
    (system p).Reachable { s with client, toComputation } := by
  have hforth : p.forth.step s.toComputation (.putEnvelope envelope) = some toComputation :=
    congrArg (fun result : Except Exception Unit × Channel => some result.2) hput
  have hnext : step p s .clientPuts = some { s with client, toComputation } := by
    simp only [step, hputting, hforth, hput, ClientEnd.putEvent, clientSteps, hclient,
      Option.bind_eq_bind, Option.bind_some, Option.map_some]
  exact h.next (e := .clientPuts) trivial hnext

/-- Everything that is on its way to the computation arrives. -/
theorem reachable_transfers (h : (system p).Reachable s) :
    (system p).Reachable { s with
      toComputation := { s.toComputation with
        mReader := arrive s.toComputation.wire s.toComputation.mReader
        wire := [] } } := by
  have hforth : p.forth.step s.toComputation (.transfers s.toComputation.wire.length)
      = some { s.toComputation with
          mReader := arrive (s.toComputation.wire.take s.toComputation.wire.length)
            s.toComputation.mReader
          wire := s.toComputation.wire.drop s.toComputation.wire.length } :=
    if_pos (Nat.le_refl _)
  rw [List.take_length, List.drop_length] at hforth
  refine h.next (e := .forth (.transfers s.toComputation.wire.length)) trivial ?_
  exact congrArg (Option.map fun toComputation => { s with toComputation }) hforth

/-- The incoming thread of the computation gets a message. -/
theorem reachable_computationPasses (h : (system p).Reachable s)
    (hgets : s.computationGets = true)
    (hframe : hasFrame s.toComputation.mReader.stream = true)
    (hopen : s.toComputation.getShutdown = false) {envelope : Envelope} {toComputation : Channel}
    (hpass : s.toComputation.pass p.computationRegistry Session.takesControl
      = (some (.returned envelope), toComputation))
    {computation : CompEnvironmentImpl Envelope}
    (hcomputation : p.computation.step s.computation
      (.dispatcher (.getEnvelopeReturns envelope)) = some computation) :
    (system p).Reachable { s with
      toComputation := Channel.record (some (.returned envelope), toComputation)
      computation } := by
  have hforth : p.forth.step s.toComputation .passes
      = some (Channel.record (some (.returned envelope), toComputation)) := by
    have hpassed : p.forth.step s.toComputation .passes
        = some (Channel.record (s.toComputation.pass p.computationRegistry Session.takesControl)) :=
      if_pos ⟨hframe, hopen⟩
    rw [hpassed, hpass]
  refine h.next (e := .computationPasses) trivial ?_
  show (if s.computationGets = true then _ else none) = _
  rw [if_pos hgets, hforth, hpass]
  show (p.computation.step s.computation _).map _ = _
  rw [hcomputation]
  rfl

end Steps

/-! ## One conversation -/

/-- Two programs that know no classes. -/
def plainSession : Session where
  clientConfig := Computation.defaults
  computationConfig := Computation.defaults
  clientRegistry _ _ := none
  computationRegistry _ _ := none
  controlContent _ := none
  parse _ := .refused .null
  uuid_parse _ := none
  mAddress := {}

/-- A client that does not send asynchronously, and a computation that is not waited
    for. -/
def newConversation : Conversation where
  client := .postConnect false false true
  toComputation := Channel.newChannel
  computation :=
    { waitForGo := false
      mGo := false
      mDispatcher :=
        { mExitReason := .None
          mIdleInterval := 0
          mIncomingQueue := .newQueue
          mOutgoingQueue := .newQueue } }
  toClient := Channel.newChannel

/-- The message that the computation sends when it is ready. -/
def readyMessage : Envelope where
  mContent := some (.objectContent (CoreMessage.toContent (.control { mCommand := [0x72] })))
  mMetadata := some { MetadataImpl.new with mRoutingName := [0x43] }
  mTo := []

theorem sendable_readyMessage :
    Sendable plainSession.computationConfig plainSession.clientRegistry readyMessage := by
  have hwhole : IsWhole plainSession.computationConfig readyMessage := by
    right
    intro content hcontent
    cases hcontent
    decide
  have hsent : readyMessage.outcome = .ok () := Envelope.isSent_iff.mp (by decide +kernel)
  exact .of_decodes hwhole (decodes_unregistered rfl (by decide) hsent rfl) (by decide)

/-- The computation starts up, and its threads wait for messages. -/
def startUp : List (CompEnvironmentImpl.Event Envelope) :=
  [.clearsGo, .startsMonitor, .startsQueueing, .sendsReady readyMessage, .startReturns,
    .startsDispatching, .dispatcher .masterLocks, .dispatcher .masterStartsIncoming,
    .dispatcher .masterTestsDispatching, .dispatcher .masterStartsOutgoing,
    .dispatcher .masterStartsHandler, .dispatcher .incomingTests, .dispatcher .handlerTests]

/-- The handler thread is given what the incoming thread has got. -/
def handles (envelope : Envelope) : List (CompEnvironmentImpl.Event Envelope) :=
  [.dispatcher (.incomingPushes envelope), .dispatcher .handlerPops,
    .dispatcher (.handlerCounts envelope), .dispatcher (.handleMessageCalled envelope)]

/-- The threads wait for messages. -/
structure Waits (c : CompEnvironmentImpl Envelope) : Prop where
  incoming : c.mDispatcher.incoming = .getEnvelope
  handler : c.mDispatcher.handler = .pop
  queue : c.mDispatcher.mIncomingQueue = .newQueue
  stopping : c.stopping = false

section

variable [DecidableEq Envelope] {p : Session}

theorem run_startUp : ∃ c,
    plainSession.computation.run newConversation.computation startUp = some c ∧
      Waits c ∧ c.mDispatcher.handled = [] ∧ c.mDispatcher.sent = [readyMessage] :=
  ⟨_, rfl, ⟨rfl, rfl, rfl, rfl⟩, rfl, rfl⟩

theorem run_handles {c : CompEnvironmentImpl Envelope} (h : Waits c) (envelope : Envelope) :
    ∃ c₁ c₂, p.computation.step c (.dispatcher (.getEnvelopeReturns envelope)) = some c₁ ∧
      p.computation.run c₁ (handles envelope) = some c₂ ∧
      c₂.mDispatcher.handled = c.mDispatcher.handled ++ [envelope] ∧
      c₂.mDispatcher.sent = c.mDispatcher.sent := by
  obtain ⟨hincoming, hhandler, hqueue, hstopping⟩ := h
  refine ⟨{ c with mDispatcher := { c.mDispatcher with
      incoming := .push envelope
      got := c.mDispatcher.got ++ [envelope] } }, ?_⟩
  simp [Session.computation, CompEnvironmentImpl.system, CompEnvironmentImpl.step,
    CompEnvironmentImpl.dispatches, CompEnvironmentImpl.isThread,
    CompEnvironmentImpl.leavesGetEnvelope, MessageDispatcher.step, onlyIf, handles, System.run,
    MessageDispatcher.pushIncoming, MessageDispatcher.popIncoming, hincoming, hhandler, hqueue,
    hstopping, Dispatch.ThreadsafeQueue.push, Dispatch.ThreadsafeQueue.pop,
    Dispatch.ThreadsafeQueue.newQueue]

/-- The client sends a message, which arrives at a computation that waits for one. -/
theorem exists_arrived : ∃ s : Conversation, (system plainSession).Reachable s ∧
    s.client.sent = [Channel.threeBytes] ∧
    (Waits s.computation ∧ s.computation.mDispatcher.handled = [] ∧
      s.computation.mDispatcher.sent = [readyMessage]) ∧
    s.toComputation.mReader.stream = Network.frame Channel.threeBytes.bytes ++ [] ∧
    s.toComputation.getShutdown = false := by
  have hwhole : IsWhole plainSession.clientConfig Channel.threeBytes := Channel.isWhole_threeBytes
  have hsent : ∀ piece ∈ [Channel.threeBytes], piece.outcome = .ok () :=
    List.forall_mem_singleton.mpr Channel.threeBytes_outcome
  have hinit : (system plainSession).Reachable newConversation :=
    .init ⟨⟨fun _ => ⟨rfl, rfl⟩, rfl⟩, ⟨rfl, rfl⟩,
      ⟨false, false, _, ⟨.None, 0, rfl⟩, rfl⟩, ⟨rfl, rfl⟩⟩
  -- the computation starts up, and the client sends its message
  obtain ⟨c, hrun, hwaits⟩ := run_startUp
  have hstarted := reachable_computation hinit (by decide) hrun
  have hsends := hstarted.next (e := .client (.send Channel.threeBytes)) trivial rfl
  -- the endpoint writes one frame
  obtain ⟨w, hwrite, hstream⟩ := forM_write hsent Channel.newChannel.mWriter
  have hput : Channel.newChannel.putEnvelope plainSession.clientConfig Channel.threeBytes
      = (.ok (), { Channel.newChannel with
          mWriter := w
          wire := Channel.newChannel.onWire (Channel.newChannel.written w)
          put := Channel.newChannel.put ++ [Channel.threeBytes] }) := by
    unfold Channel.putEnvelope
    rw [if_neg (by decide), putThrough_whole hwhole, hwrite]
  have hputs := reachable_clientPuts hsends rfl hput rfl
  -- all of which arrives
  have harrives := reachable_transfers hputs
  have hthere : (arrive (Channel.newChannel.onWire (Channel.newChannel.written w))
      Channel.newChannel.mReader).stream = Network.frame Channel.threeBytes.bytes ++ [] := by
    have hwritten : Channel.newChannel.written w = frames [Channel.threeBytes] := by
      rw [Channel.written, hstream, List.drop_left]
    rw [stream_arrive, hwritten]
    rfl
  exact ⟨_, harrives, rfl, hwaits, hthere, rfl⟩

/-- And it gets to the handler. -/
theorem exists_handled : ∃ (s : Conversation) (received : Envelope),
    (system plainSession).Reachable s ∧ s.client.sent = [Channel.threeBytes] ∧
    s.computation.mDispatcher.handled = [received] ∧
    s.computation.mDispatcher.sent = [readyMessage] := by
  obtain ⟨s, hreach, hsent, ⟨hwaits, hnone, hready⟩, hstream, hopen⟩ := exists_arrived
  obtain ⟨received, channel, hpass⟩ : ∃ received channel,
      s.toComputation.pass plainSession.computationRegistry Session.takesControl
        = (some (.returned received), channel) :=
    Aligned.pass_returned Channel.threeBytes_outcome hstream
      (decodes_unregistered rfl (by decide) Channel.threeBytes_outcome rfl) (by decide) (by decide)
  obtain ⟨c₁, c₂, hgets, hhandles, hhandled, hkept⟩ :=
    run_handles (p := plainSession) hwaits received
  have hwaiting : s.computationGets = true := by
    rw [computationGets, hwaits.incoming, hwaits.stopping]
    rfl
  have hframe : hasFrame s.toComputation.mReader.stream = true := by
    rw [hstream]
    exact hasFrame_frame (Envelope.length_le_of_sent Channel.threeBytes_outcome) []
  have hgot := reachable_computationPasses hreach hwaiting hframe hopen hpass hgets
  -- from there the computation goes on by itself
  refine ⟨_, received, reachable_computation hgot (fun e he => ?_) hhandles, hsent, ?_, ?_⟩
  · simp only [handles, List.mem_cons, List.not_mem_nil, or_false] at he
    rcases he with rfl | rfl | rfl | rfl <;> rfl
  · rw [hhandled, hnone]
    rfl
  · rw [hkept, hready]

end

/-- The conversation in which the computation handles what the client sent. -/
theorem carries_threeBytes : ∃ s : Conversation,
    (s.client.sent = [Channel.threeBytes] ∧ s.computation.mDispatcher.handled.length = 1) ∧
    ((ClientEnd.putReturned s.client).Sublist s.client.sent ∧
      Carries (Delivers plainSession.clientConfig plainSession.computationRegistry
          Session.takesControl)
        (ClientEnd.putReturned s.client) s.computation.mDispatcher.handled) ∧
    s.computation.mDispatcher.putReturned.Sublist s.computation.mDispatcher.sent ∧
    ∃ told, s.client.told = told.filterMap (componentCall Envelope.classId) ∧
      Carries (Delivers plainSession.computationConfig plainSession.clientRegistry
          Session.takesNothing)
        s.computation.mDispatcher.putReturned told := by
  let _ : DecidableEq Envelope := Classical.decEq Envelope
  obtain ⟨s, received, hreach, hsent, hhandled, hready⟩ := exists_handled
  have hsendable : Sendable plainSession.clientConfig plainSession.computationRegistry
      Channel.threeBytes := Channel.sendable_threeBytes
  obtain ⟨hforth, hback⟩ := carries hreach
  refine ⟨s, ⟨hsent, by rw [hhandled]; rfl⟩, hforth ?_, hback ?_⟩
  · rw [hsent]
    exact List.forall_mem_singleton.mpr hsendable
  · rw [hready]
    exact List.forall_mem_singleton.mpr sendable_readyMessage

end Conversation

end Arras4Core.Connection
