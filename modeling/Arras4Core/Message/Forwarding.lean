/-
  Arras4Core.Message.Forwarding

  A node that only passes messages on reads them as opaque content: the receive
  buffer, read as far as the end of the header, is handed to the sink of another
  connection as it is.  `takeBuffer` leaves the source without a buffer, so
  nothing the reader does afterwards can reach the bytes on their way.

  Main result: `forwardAll_transparent`.  After any number of such hops, amid
  any other traffic, the message is the one that was sent.
-/

import Arras4Core.Message.EnvelopeCodec

namespace Arras4Core.Message

open Arras4Core.Lib
open Arras4Core.Api (Exception addressBytes addressBytes_length)
open Arras4Core.Network

/-! ## An envelope that carries a message unopened -/

namespace Envelope

/-- The bytes of the content. -/
def payload (env : Envelope) : Bytes := (env.contentEval env.header.length).1

/-- `received` is the message `env`, its content not deserialized. -/
structure Carries (env received : Envelope) : Prop where
  metadata : received.mMetadata = env.mMetadata
  destinations : received.mTo = env.mTo
  content : ∃ c, received.mContent = some (.opaqueContent c) ∧ c.mClassId = env.classId ∧
    c.mVersion = env.classVersion ∧ c.mData.contents = env.payload

namespace Carries

variable {env received : Envelope}

theorem classId (h : Carries env received) : received.classId = env.classId := by
  obtain ⟨c, hcontent, hclassId, -, -⟩ := h.content
  simp only [Envelope.classId, hcontent, MessageContent.classId, hclassId]

theorem classVersion (h : Carries env received) : received.classVersion = env.classVersion := by
  obtain ⟨c, hcontent, -, hversion, -⟩ := h.content
  simp only [Envelope.classVersion, hcontent, MessageContent.classVersion, hversion]

theorem serialize (h : Carries env received) : received.serialize = env.serialize := by
  unfold Envelope.serialize
  rw [h.metadata, h.destinations, h.classId, h.classVersion]

theorem header (h : Carries env received) : received.header = env.header := by
  rw [Envelope.header, Envelope.header, h.serialize]

theorem contentEval (h : Carries env received) (n : Nat) :
    received.contentEval n = (env.payload, .ok ()) := by
  obtain ⟨c, hcontent, -, -, hdata⟩ := h.content
  simp only [Envelope.contentEval, hcontent, hdata]

/-- It is sent as the same bytes. -/
theorem bytes (h : Carries env received) : received.bytes = env.bytes := by
  rw [Envelope.bytes, Envelope.bytes, h.contentEval, h.header]
  rfl

/-- It can be sent wherever the message could be. -/
theorem outcome (h : Carries env received) (hsent : env.outcome = .ok ()) :
    received.outcome = .ok () := by
  unfold Envelope.outcome at hsent ⊢
  rw [h.serialize, h.contentEval, h.bytes]
  cases hheader : (env.serialize.eval 0).2 with
  | error e => simp only [hheader, reduceCtorEq] at hsent
  | ok u =>
    cases hcontent : (env.contentEval env.header.length).2 with
    | error e => simp only [hheader, hcontent, reduceCtorEq] at hsent
    | ok u' => simpa only [hheader, hcontent] using hsent

/-- What carries the envelope that carries a message carries the message. -/
theorem trans {last : Envelope} (h : Carries env received) (h' : Carries received last) :
    Carries env last := by
  obtain ⟨c, hcontent, hclassId, hversion, hdata⟩ := h'.content
  have hpayload : received.payload = env.payload := by rw [Envelope.payload, h.contentEval]
  exact ⟨h'.metadata.trans h.metadata, h'.destinations.trans h.destinations, c, hcontent,
    hclassId.trans h.classId, hversion.trans h.classVersion, hdata.trans hpayload⟩

end Carries

/-! ## Messages that were sent -/

theorem serialize_ok_of_sent {env : Envelope} (hsent : env.outcome = .ok ()) :
    (env.serialize.eval 0).2 = .ok () := by
  unfold outcome at hsent
  split at hsent
  · cases hsent
  · next h => exact h

/-- The class of the content alone makes a message longer than nothing. -/
theorem bytes_ne_nil_of_sent {env : Envelope} (hsent : env.outcome = .ok ()) : env.bytes ≠ [] := by
  have hok := serialize_ok_of_sent hsent
  have hclass : 16 ≤ env.header.length := by
    cases hmetadata : env.mMetadata with
    | none =>
      unfold header serialize
      simp only [hmetadata]
      rw [OutProgram.eval_writeAll]
      simp only [List.flatten_cons, List.length_append, Api.uuidBytes_length]
      omega
    | some metadata =>
      by_cases hname : metadata.nameLen = 0
      · -- an empty name is not sent
        unfold serialize MetadataImpl.serialize at hok
        simp only [hmetadata, if_pos hname] at hok
        cases hok
      · rw [header_eq hmetadata hname]
        simp only [List.length_append, Api.uuidBytes_length]
        omega
  intro hnil
  rw [bytes, List.append_eq_nil_iff] at hnil
  rw [hnil.1, List.length_nil] at hclass
  omega

/-- Each destination takes 48 bytes of the frame, so there are fewer of them than
    the count can hold. -/
theorem destinations_lt_of_sent {env : Envelope} {metadata : MetadataImpl}
    (hmetadata : env.mMetadata = some metadata) (hname : metadata.nameLen ≠ 0)
    (hsent : env.outcome = .ok ()) : env.mTo.length < 2 ^ 32 - 1 := by
  have haddrs : (env.mTo.map addressBytes).flatten.length = 48 * env.mTo.length := by
    induction env.mTo with
    | nil => rfl
    | cons addr addrs ih =>
      rw [List.map_cons, List.flatten_cons, List.length_append, ih, addressBytes_length,
        List.length_cons]
      omega
  have hlen := length_le_of_sent hsent
  rw [bytes, header_eq hmetadata hname, MetadataImpl.fields, List.flatten_append,
    List.length_append, List.length_append, List.length_append, haddrs] at hlen
  simp only [maxFrameLength] at hlen
  omega

/-- The bytes of a message, read without the registry. -/
theorem decode_bytes (registry : ContentFactories) {env : Envelope} {metadata : MetadataImpl}
    (hmetadata : env.mMetadata = some metadata) (hpos : 1 ≤ metadata.mRoutingName.length)
    (hname : metadata.mRoutingName.length ≤ 65535) (hsent : env.outcome = .ok ()) :
    ∃ message, decode registry false ⟨0, env.bytes⟩
      = .ok { mContent := some (.opaqueContent ⟨env.classId, env.classVersion, .filled env.payload⟩)
              mMetadata := some metadata
              mTo := env.mTo } message := by
  have hlt : metadata.mRoutingName.length < 2 ^ 16 := by omega
  have hnameLen : metadata.nameLen ≠ 0 := by
    simp only [MetadataImpl.nameLen]
    omega
  have hto := destinations_lt_of_sent hmetadata hnameLen hsent
  have hends := ends_deserialize .new hmetadata rfl hpos hname hto []
    (by simp only [List.length_nil]; omega) 0
  rw [extend_nil_header hmetadata hpos hname hto] at hends
  have hrun : BufferedSource.onMessage Envelope.new.deserialize.toCode ⟨0, env.bytes⟩
      = .ok ({ mContent := none, mMetadata := some metadata, mTo := env.mTo }, env.classId,
          env.classVersion) ⟨0 + env.header.length, env.payload⟩ :=
    Reading.run_of_ends hends env.payload
  refine ⟨⟨0 + env.header.length, env.payload⟩, ?_⟩
  unfold decode
  rw [bind_of_ok hrun]
  rfl

/-- An envelope with the fields and the bytes of a message carries it, whatever
    the block its buffer is in. -/
theorem carries_of_compact {env received : Envelope}
    (h : received.compact
      = { mContent := some (.opaqueContent ⟨env.classId, env.classVersion, .filled env.payload⟩)
          mMetadata := env.mMetadata
          mTo := env.mTo }) : Carries env received := by
  have hmetadata : received.compact.mMetadata = env.mMetadata := by rw [h]
  have hdestinations : received.compact.mTo = env.mTo := by rw [h]
  exact ⟨hmetadata, hdestinations, opaqueContent_of_compact (congrArg Envelope.mContent h)⟩

end Envelope

/-! ## Hops -/

open MessageReader (readAll)

/-- A reader whose next frame is a message returns an envelope that carries it. -/
theorem MessageReader.read_carries (registry : ContentFactories) {env : Envelope}
    {metadata : MetadataImpl} (hmetadata : env.mMetadata = some metadata)
    (hpos : 1 ≤ metadata.mRoutingName.length) (hname : metadata.mRoutingName.length ≤ 65535)
    (hsent : env.outcome = .ok ()) {r : MessageReader} {rest : Bytes}
    (hstream : r.stream = frame env.bytes ++ rest) :
    ∃ received r', read registry false r = .ok received r' ∧ env.Carries received := by
  obtain ⟨outcome, r', message', hread, hdecode, -⟩ := read_outcome registry false hstream
    (Envelope.bytes_ne_nil_of_sent hsent) (Envelope.length_le_of_sent hsent)
  obtain ⟨message, hbytes⟩ := Envelope.decode_bytes registry hmetadata hpos hname hsent
  rw [hbytes] at hdecode
  cases outcome with
  | error e => cases hdecode
  | ok received =>
    have hcompact := (EStateM.Result.ok.inj hdecode).1
    exact ⟨received, r', hread, Envelope.carries_of_compact (hmetadata ▸ hcompact.symm)⟩

theorem MessageReader.readAll_returns (calls : List (ContentFactories × Bool)) (r : MessageReader) :
    ∃ outcomes r', readAll calls r = .ok outcomes r' := by
  induction calls generalizing r with
  | nil => exact ⟨[], r, rfl⟩
  | cons call calls ih =>
    obtain ⟨outcome, r₁, hread⟩ := exists_eq_resultOf (read call.1 call.2 r)
    obtain ⟨outcomes, r₂, hall⟩ := ih r₁
    refine ⟨outcome :: outcomes, r₂, ?_⟩
    rw [readAll, bind_of_ok (attempt_of_resultOf hread), bind_of_ok hall, pure_run]

/-- The messages that can be written. -/
def Envelope.isSent (env : Envelope) : Bool :=
  match env.outcome with
  | .ok _ => true
  | .error _ => false

theorem Envelope.isSent_iff {env : Envelope} : env.isSent = true ↔ env.outcome = .ok () := by
  unfold isSent
  cases env.outcome with
  | ok u => exact ⟨fun _ => rfl, fun _ => rfl⟩
  | error e => exact ⟨fun h => absurd h Bool.false_ne_true, fun h => by cases h⟩

/-- A writer puts the frames of the messages it can write on its connection. -/
theorem MessageWriter.stream_writeAll (envs : List Envelope) (w : MessageWriter) :
    (writeAll envs w).2.stream
      = w.stream ++ ((envs.filter Envelope.isSent).map Envelope.bytes).flatMap frame := by
  induction envs generalizing w with
  | nil => simp [writeAll]
  | cons env envs ih =>
    obtain ⟨w', hall, hstream⟩ := writeAll_cons env envs w
    rw [hall, ih w', hstream, List.append_assoc]
    cases houtcome : env.outcome with
    | ok u =>
      have hisSent : env.isSent = true := Envelope.isSent_iff.mpr houtcome
      rw [List.filter_cons_of_pos hisSent, List.map_cons, List.flatMap_cons, sentFrame_ok]
    | error e =>
      have hisSent : ¬ env.isSent = true := by
        rw [Envelope.isSent, houtcome]
        exact Bool.false_ne_true
      rw [List.filter_cons_of_neg hisSent, sentFrame_error, List.nil_append]

/-- One hop: a reader and a writer on two connections, each in the state it is in
    when its connection begins, and all that is read and written there besides
    the message. -/
structure Hop where
  reader : MessageReader
  registry : ContentFactories
  earlierReads : List (ContentFactories × Bool)
  laterReads : List (ContentFactories × Bool)
  writer : MessageWriter
  earlierWrites : List Envelope
  laterWrites : List Envelope

namespace Hop

/-- The reader on a connection that carries `arriving`. -/
def connectReader (hop : Hop) (arriving : Bytes) : MessageReader :=
  hop.reader.setSource { hop.reader.mSource with mInputSource := .new arriving }

/-- The writer on a connection that nothing has been sent on. -/
def connectWriter (hop : Hop) : MessageWriter :=
  hop.writer.setSink { hop.writer.mSink with mOutputSink := .new [] }

/-- Read the message and write it; the reader goes on before the message is
    written.  Returns what the outgoing connection carries in the end. -/
def forward (hop : Hop) : EStateM Exception MessageReader Bytes := do
  discard (readAll hop.earlierReads)
  let env ← MessageReader.read hop.registry false
  discard (readAll hop.laterReads)
  return (MessageWriter.writeAll (hop.earlierWrites ++ env :: hop.laterWrites)
    hop.connectWriter).2.stream

/-- The number of messages on the outgoing connection before the one passed on. -/
def sentBefore (hop : Hop) : Nat := (hop.earlierWrites.filter Envelope.isSent).length

end Hop

/-- A chain of hops: what a hop sends arrives at the next one. -/
def forwardAll : List Hop → Bytes → Except Exception Bytes
  | [], arriving => .ok arriving
  | hop :: hops, arriving =>
    match hop.forward (hop.connectReader arriving) with
    | .ok sent _ => forwardAll hops sent
    | .error e _ => .error e

/-- Each hop forwards the message it is about: with `n` messages before it on the
    connection, the reader has been called `n` times before. -/
def Aligned : Nat → List Hop → Prop
  | _, [] => True
  | n, hop :: hops => hop.earlierReads.length = n ∧ Aligned hop.sentBefore hops

/-- The number of messages before the one passed on, where it arrives last. -/
def arrivesAfter : Nat → List Hop → Nat
  | n, [] => n
  | _, hop :: hops => arrivesAfter hop.sentBefore hops

/-- What a reader takes as one message each. -/
def AreFrames (payloads : List Bytes) : Prop :=
  ∀ p ∈ payloads, p ≠ [] ∧ p.length ≤ maxFrameLength

section Message

variable {env : Envelope} {metadata : MetadataImpl} (hmetadata : env.mMetadata = some metadata)
  (hpos : 1 ≤ metadata.mRoutingName.length) (hname : metadata.mRoutingName.length ≤ 65535)
  (hsent : env.outcome = .ok ())

include hmetadata hpos hname hsent

/-- One hop passes the bytes of the message on, amid the other messages. -/
theorem Hop.forward_ok (hop : Hop) {before : List Bytes} (after : Bytes)
    (hbefore : AreFrames before)
    (hreads : hop.earlierReads.length = before.length) :
    ∃ before' after' r, hop.forward
        (hop.connectReader (before.flatMap frame ++ (frame env.bytes ++ after)))
          = .ok (before'.flatMap frame ++ (frame env.bytes ++ after')) r ∧
      before'.length = hop.sentBefore ∧ AreFrames before' := by
  obtain ⟨outcomes, r₁, hearlier, hstream₁⟩ := MessageReader.readAll_stream hop.earlierReads before
    (r := hop.connectReader (before.flatMap frame ++ (frame env.bytes ++ after))) rfl hbefore hreads
  obtain ⟨received, r₂, hread, hcarries⟩ :=
    MessageReader.read_carries hop.registry hmetadata hpos hname hsent hstream₁
  -- whatever is read next, the envelope keeps its buffer
  obtain ⟨outcomes', r₃, hlater⟩ := MessageReader.readAll_returns hop.laterReads r₂
  have hreceived : received.isSent = true := Envelope.isSent_iff.mpr (hcarries.outcome hsent)
  have hwritten : (MessageWriter.writeAll (hop.earlierWrites ++ received :: hop.laterWrites)
      hop.connectWriter).2.stream
        = ((hop.earlierWrites.filter Envelope.isSent).map Envelope.bytes).flatMap frame ++
          (frame env.bytes ++
            ((hop.laterWrites.filter Envelope.isSent).map Envelope.bytes).flatMap frame) := by
    have hempty : hop.connectWriter.stream = [] := rfl
    rw [MessageWriter.stream_writeAll, hempty, List.nil_append, List.filter_append,
      List.filter_cons_of_pos hreceived, List.map_append, List.map_cons, List.flatMap_append,
      List.flatMap_cons, hcarries.bytes]
  refine ⟨(hop.earlierWrites.filter Envelope.isSent).map Envelope.bytes,
    ((hop.laterWrites.filter Envelope.isSent).map Envelope.bytes).flatMap frame, r₃, ?_,
    List.length_map _, ?_⟩
  · unfold forward
    rw [bind_of_ok (discard_of_ok hearlier), bind_of_ok hread, bind_of_ok (discard_of_ok hlater),
      pure_run, hwritten]
  · intro p hp
    obtain ⟨written, hwritten, rfl⟩ := List.mem_map.mp hp
    have hok := Envelope.isSent_iff.mp (List.mem_filter.mp hwritten).2
    exact ⟨Envelope.bytes_ne_nil_of_sent hok, Envelope.length_le_of_sent hok⟩

theorem forwardAll_ok (hops : List Hop) {before : List Bytes} (after : Bytes)
    (hbefore : AreFrames before) (haligned : Aligned before.length hops) :
    ∃ before' after', forwardAll hops (before.flatMap frame ++ (frame env.bytes ++ after))
        = .ok (before'.flatMap frame ++ (frame env.bytes ++ after')) ∧
      before'.length = arrivesAfter before.length hops ∧ AreFrames before' := by
  induction hops generalizing before after with
  | nil => exact ⟨before, after, rfl, rfl, hbefore⟩
  | cons hop hops ih =>
    obtain ⟨before₁, after₁, r, hforward, hlength, hbefore₁⟩ :=
      hop.forward_ok hmetadata hpos hname hsent after hbefore haligned.1
    obtain ⟨before', after', hall, hlength', hbefore'⟩ :=
      ih after₁ hbefore₁ (hlength ▸ haligned.2)
    refine ⟨before', after', ?_, ?_, hbefore'⟩
    · rw [forwardAll, hforward]
      exact hall
    · rw [hlength', hlength]
      rfl

end Message

/-- Opaque forwarding is transparent: whatever else is read and written on the
    connections, the message comes out of any number of hops as the bytes it was
    sent as, and read there it has the metadata, the destinations, the class and
    the payload it had. -/
theorem forwardAll_transparent (env : Envelope) (metadata : MetadataImpl)
    (hmetadata : env.mMetadata = some metadata) (hpos : 1 ≤ metadata.mRoutingName.length)
    (hname : metadata.mRoutingName.length ≤ 65535) (hsent : env.outcome = .ok ())
    (before : List Bytes) (after : Bytes) (hbefore : AreFrames before) (hops : List Hop)
    (haligned : Aligned before.length hops) :
    ∃ (before' : List Bytes) (after' : Bytes),
      forwardAll hops (before.flatMap frame ++ (frame env.bytes ++ after))
        = .ok (before'.flatMap frame ++ (frame env.bytes ++ after')) ∧
      before'.length = arrivesAfter before.length hops ∧
      ∀ (r : MessageReader) (calls : List (ContentFactories × Bool)) (registry : ContentFactories),
        r.stream = before'.flatMap frame ++ (frame env.bytes ++ after') →
        calls.length = before'.length →
        ∃ outcomes r₁ received r₂, readAll calls r = .ok outcomes r₁ ∧
          MessageReader.read registry false r₁ = .ok received r₂ ∧ env.Carries received := by
  obtain ⟨before', after', hall, hlength, hbefore'⟩ :=
    forwardAll_ok hmetadata hpos hname hsent hops after hbefore haligned
  refine ⟨before', after', hall, hlength, ?_⟩
  intro r calls registry hstream hcount
  obtain ⟨outcomes, r₁, hearlier, hstream₁⟩ :=
    MessageReader.readAll_stream calls before' hstream hbefore' hcount
  obtain ⟨received, r₂, hread, hcarries⟩ :=
    MessageReader.read_carries registry hmetadata hpos hname hsent hstream₁
  exact ⟨outcomes, r₁, received, r₂, hearlier, hread, hcarries⟩

/-- A message without content bytes over two hops; the first sends another
    message before it. -/
theorem forwardAll_transparent_twoHops :
    let env : Envelope :=
      { mContent := some (.opaqueContent ⟨.null, 1, .filled []⟩)
        mMetadata := some ⟨.null, .null, {}, [65], true⟩ }
    let registry : ContentFactories := fun _ _ => none
    let hop (reads : List (ContentFactories × Bool)) (writes : List Envelope) : Hop :=
      { reader := { mSource := .new (.new []) }
        registry := registry
        earlierReads := reads
        laterReads := []
        writer := { mSink := .new (.new []) }
        earlierWrites := writes
        laterWrites := [] }
    let hops := [hop [] [env], hop [(registry, true)] []]
    ∃ (before' : List Bytes) (after' : Bytes), forwardAll hops (frame env.bytes ++ [])
        = .ok (before'.flatMap frame ++ (frame env.bytes ++ after')) ∧
      before'.length = arrivesAfter 0 hops ∧
      ∀ (r : MessageReader) (calls : List (ContentFactories × Bool)) (registry : ContentFactories),
        r.stream = before'.flatMap frame ++ (frame env.bytes ++ after') →
        calls.length = before'.length →
        ∃ outcomes r₁ received r₂, readAll calls r = .ok outcomes r₁ ∧
          MessageReader.read registry false r₁ = .ok received r₂ ∧ env.Carries received := by
  intro env registry hop hops
  exact forwardAll_transparent env _ rfl (by decide) (by decide) rfl [] [] (by simp [AreFrames])
    hops ⟨rfl, rfl, trivial⟩

end Arras4Core.Message
