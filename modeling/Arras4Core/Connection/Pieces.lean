/-
  Arras4Core.Connection.Pieces

  The messages a channel carries, and what one call or one pass does with them: a
  message that is not chunked is one frame, and what comes out is what its bytes say;
  a chunked message is a frame for each chunk, and comes out whole with the last one.
-/

import Arras4Core.Connection.Channel
import Arras4Core.Message.Forwarding

namespace Arras4Core.Connection

open Arras4Core.Lib
open Arras4Core.Api (Exception ClassID)
open Arras4Core.Chunking (ChunkingConfig ContentRegistry MessageChunk ChunkableMessage UnchunkerMap
  chunkEnvelope)
open Arras4Core.Message (ContentFactories Envelope MessageReader MessageWriter decode)
open Arras4Core.Network (Bytes Buffer Frame BufferedSource frame maxFrameLength)

/-! ## Writing -/

/-- The frames of some envelopes. -/
def frames (envelopes : List Envelope) : Bytes := envelopes.flatMap fun env => frame env.bytes

@[simp] theorem frames_nil : frames [] = [] := rfl

@[simp] theorem frames_cons (env : Envelope) (envelopes : List Envelope) :
    frames (env :: envelopes) = frame env.bytes ++ frames envelopes := rfl

@[simp] theorem frames_append (front back : List Envelope) :
    frames (front ++ back) = frames front ++ frames back := List.flatMap_append

theorem frame_ne_nil (data : Bytes) : frame data ≠ [] := by
  intro h
  have hlen := congrArg List.length h
  simp [frame, Frame.size] at hlen

/-- Envelopes that can all be sent are written one behind the other. -/
theorem forM_write {envelopes : List Envelope} (h : ∀ env ∈ envelopes, env.outcome = .ok ())
    (w : MessageWriter) :
    ∃ w', envelopes.forM MessageWriter.write w = .ok ⟨⟩ w' ∧
      w'.stream = w.stream ++ frames envelopes := by
  induction envelopes generalizing w with
  | nil => exact ⟨w, rfl, (List.append_nil _).symm⟩
  | cons env envelopes ih =>
    obtain ⟨w₁, hwrite, hstream₁, -⟩ := MessageWriter.write_outcome env w
    rw [h env List.mem_cons_self] at hwrite hstream₁
    obtain ⟨w₂, hrest, hstream₂⟩ := ih (fun e he => h e (List.mem_cons_of_mem env he)) w₁
    refine ⟨w₂, ?_, ?_⟩
    · rw [forM_cons_of_ok hwrite, hrest]
    · rw [hstream₂, hstream₁, MessageWriter.sentFrame_ok, frames_cons, List.append_assoc]

/-- The envelopes that the chunking filter hands on. -/
def handedOn (mConfig : ChunkingConfig) (envelope : Envelope) : List Envelope :=
  match Chunking.putEnvelope mConfig envelope [] with
  | .ok _ envelopes | .error _ envelopes => envelopes

/-! ## The messages -/

section Messages

variable (mConfig : ChunkingConfig) (registry : ContentRegistry) (consumes : ClassID → Bool)

/-- The chunking filter passes the message through. -/
def IsWhole (envelope : Envelope) : Prop :=
  mConfig.enabled = false ∨ ∀ content, envelope.mContent = some (.objectContent content) →
    content.serializedLength < mConfig.minChunkingSize

/-- What the bytes of a message say: the envelope they are read into, or what the code
    of the content throws. -/
def Decodes (envelope : Envelope) (outcome : Except Exception Envelope) : Prop :=
  ∃ message, decode (factories registry) true ⟨0, envelope.bytes⟩
    = resultOf (outcome.map Envelope.compact) message

/-- A message that a program sends: one that the filter passes through and that does
    not come out as a chunk, or one that gets chunked, has a name of a length that can
    be told, and whose chunks can be sent. -/
inductive Sendable : Envelope → Prop
  | whole {envelope : Envelope} (hwhole : IsWhole mConfig envelope)
      (hclass : ∀ env, Decodes registry envelope (.ok env) → env.classId ≠ MessageChunk.ID) :
      Sendable envelope
  | chunked (m : ChunkableMessage mConfig registry) (henabled : mConfig.enabled = true)
      (hname : m.metadata.mRoutingName.length < 2 ^ 16)
      (hsent : ∀ piece ∈ m.chunkEnvelopes, piece.outcome = .ok ()) : Sendable m.envelope

/-- What a message comes out as at the other end. -/
inductive Delivers : Envelope → Received → Prop
  | returned {envelope env : Envelope} (hwhole : IsWhole mConfig envelope)
      (hdecodes : Decodes registry envelope (.ok env)) (hkept : consumes env.classId = false) :
      Delivers envelope (.returned env)
  | consumed {envelope env : Envelope} (hwhole : IsWhole mConfig envelope)
      (hdecodes : Decodes registry envelope (.ok env)) (htaken : consumes env.classId = true) :
      Delivers envelope (.consumed env)
  | threw {envelope : Envelope} {e : Exception} (hwhole : IsWhole mConfig envelope)
      (hdecodes : Decodes registry envelope (.error e)) : Delivers envelope (.threw e)
  | unchunked (m : ChunkableMessage mConfig registry) : Delivers m.envelope (.returned m.received)

end Messages

variable {mConfig : ChunkingConfig} {registry : ContentRegistry} {consumes : ClassID → Bool}

theorem putEnvelope_whole {envelope : Envelope} (h : IsWhole mConfig envelope)
    (sent : List Envelope) :
    Chunking.putEnvelope mConfig envelope sent = .ok () (sent ++ [envelope]) := by
  unfold Chunking.putEnvelope
  rcases h with hdisabled | hshort
  · rw [hdisabled]
    rfl
  · cases hcontent : envelope.mContent with
    | none => split <;> rfl
    | some content =>
      cases content with
      | opaqueContent c => split <;> rfl
      | other id version => split <;> rfl
      | objectContent c =>
        have hlt := hshort c hcontent
        simp only [hlt, if_true]
        split <;> rfl

theorem handedOn_whole {envelope : Envelope} (h : IsWhole mConfig envelope) :
    handedOn mConfig envelope = [envelope] := by
  rw [handedOn, putEnvelope_whole h]
  rfl

theorem handedOn_chunked (m : ChunkableMessage mConfig registry)
    (henabled : mConfig.enabled = true) : handedOn mConfig m.envelope = m.chunkEnvelopes := by
  rw [handedOn, m.putEnvelope_eq henabled []]
  rfl

theorem putThrough_whole {envelope : Envelope} (h : IsWhole mConfig envelope) :
    putThrough MessageWriter.write mConfig envelope = [envelope].forM MessageWriter.write := by
  rw [putThrough, putEnvelope_whole h]
  rfl

/-- A call that can be made returns with all its frames written, or throws with
    nothing written. -/
theorem putThrough_outcome {envelope : Envelope} (h : Sendable mConfig registry envelope)
    (w : MessageWriter) :
    (∃ w', putThrough MessageWriter.write mConfig envelope w = .ok ⟨⟩ w' ∧
      (∀ piece ∈ handedOn mConfig envelope, piece.outcome = .ok ()) ∧
      w'.stream = w.stream ++ frames (handedOn mConfig envelope)) ∨
    ∃ e w', putThrough MessageWriter.write mConfig envelope w = .error e w' ∧
      w'.stream = w.stream := by
  cases h with
  | whole hwhole hclass =>
    rw [putThrough_whole hwhole, handedOn_whole hwhole]
    cases houtcome : envelope.outcome with
    | ok u =>
      have hsent : ∀ piece ∈ [envelope], piece.outcome = .ok () := by
        intro piece hpiece
        rw [List.mem_singleton.mp hpiece]
        exact houtcome
      obtain ⟨w', hforM, hstream⟩ := forM_write hsent w
      exact .inl ⟨w', hforM, hsent, hstream⟩
    | error e =>
      obtain ⟨w', hwrite, hstream, -⟩ := MessageWriter.write_outcome envelope w
      rw [houtcome] at hwrite hstream
      refine .inr ⟨e, w', ?_, ?_⟩
      · exact bind_of_error hwrite
      · rw [hstream, MessageWriter.sentFrame_error, List.append_nil]
  | chunked m henabled hname hsent =>
    have hput : putThrough MessageWriter.write mConfig m.envelope w
        = m.chunkEnvelopes.forM MessageWriter.write w := by
      rw [putThrough, m.putEnvelope_eq henabled []]
      rfl
    rw [hput, handedOn_chunked m henabled]
    obtain ⟨w', hforM, hstream⟩ := forM_write hsent w
    exact .inl ⟨w', hforM, hsent, hstream⟩

/-! ## Frames at the front of a stream -/

/-- The length of a frame survives the 32 bits of its header. -/
theorem toNat_length {data : Bytes} (hlen : data.length ≤ maxFrameLength) :
    (UInt32.ofNat data.length).toNat = data.length := by
  have hlt : data.length < 2 ^ 32 := by
    simp only [maxFrameLength] at hlen
    omega
  exact UInt32.toNat_ofNat_of_lt hlt

/-- A complete frame, with what follows it. -/
theorem hasFrame_frame {data : Bytes} (hlen : data.length ≤ maxFrameLength) (rest : Bytes) :
    hasFrame (frame data ++ rest) = true := by
  have hheader : (frame data ++ rest).take Frame.size
      = { mType := .frameBinary, mLength := UInt32.ofNat data.length : Frame }.toBytes := by
    rw [frame, List.append_assoc]
    exact List.take_left' (Frame.toBytes_length _)
  rw [hasFrame, hheader, Frame.ofBytes_toBytes, decide_eq_true_eq, toNat_length hlen, frame]
  simp only [List.length_append, Frame.toBytes_length]
  omega

/-- Bytes that hold a complete frame, and that begin as a frame does, hold that
    frame. -/
theorem of_hasFrame {stream later data rest : Bytes} (hlen : data.length ≤ maxFrameLength)
    (heq : stream ++ later = frame data ++ rest) (h : hasFrame stream = true) :
    ∃ rest', stream = frame data ++ rest' ∧ rest = rest' ++ later := by
  rw [hasFrame, decide_eq_true_eq] at h
  have hsize : Frame.size ≤ stream.length := by omega
  have hheader : stream.take Frame.size
      = { mType := .frameBinary, mLength := UInt32.ofNat data.length : Frame }.toBytes := by
    have htake := congrArg (List.take Frame.size) heq
    rw [List.take_append_of_le_length hsize, frame, List.append_assoc,
      List.take_left' (Frame.toBytes_length _)] at htake
    exact htake
  rw [hheader, Frame.ofBytes_toBytes, toNat_length hlen] at h
  have hframe : (frame data).length ≤ stream.length := by
    rw [frame, List.length_append, Frame.toBytes_length]
    exact h
  -- the frame is the front part of the stream
  have hfront : stream.take (frame data).length = frame data := by
    have htake := congrArg (List.take (frame data).length) heq
    rwa [List.take_append_of_le_length hframe, List.take_left] at htake
  refine ⟨stream.drop (frame data).length, ?_, ?_⟩
  · conv_lhs => rw [← List.take_append_drop (frame data).length stream]
    rw [hfront]
  · have hdrop := congrArg (List.drop (frame data).length) heq
    rw [List.drop_append_of_le_length hframe, List.drop_left] at hdrop
    exact hdrop.symm

theorem hasFrame_nil : hasFrame [] = false := by decide

/-! ## Reading -/

/-- The reader takes the frame of a message that was sent, and ends as its bytes say. -/
theorem read_sent (registry : ContentRegistry) {env : Envelope} (hsent : env.outcome = .ok ())
    {r : MessageReader} {rest : Bytes}
    (hstream : r.stream = frame env.bytes ++ rest) :
    ∃ outcome r', MessageReader.read (factories registry) true r = resultOf outcome r' ∧
      Decodes registry env outcome ∧ r'.stream = rest := by
  obtain ⟨outcome, r', message, hread, hdecode, hrest, -⟩ :=
    MessageReader.read_outcome (factories registry) true hstream
      (Envelope.bytes_ne_nil_of_sent hsent) (Envelope.length_le_of_sent hsent)
  exact ⟨outcome, r', hread, ⟨message, hdecode⟩, hrest⟩

theorem factories_chunk (version : UInt32) :
    factories registry MessageChunk.ID version = some MessageChunk.create.toCode := if_pos rfl

theorem factories_of_ne {classId : ClassID} (h : classId ≠ MessageChunk.ID) (version : UInt32) :
    factories registry classId version = (registry classId version).map Lib.InProgram.toCode :=
  if_neg h

/-- The bytes of a message that was sent say what its metadata and its destinations
    were, and then what the code for its class makes of the rest. -/
theorem decodes_of_content {env : Envelope} {metadata : Message.MetadataImpl}
    (hmetadata : env.mMetadata = some metadata) (hname : metadata.mRoutingName.length < 2 ^ 16)
    (hsent : env.outcome = .ok ()) (content : Message.MessageContent) (message : Reading)
    (hcompact : content.compact = content)
    (hcontent : Message.decodeContent (factories registry) true env.classId env.classVersion
      ⟨env.header.length, env.payload⟩ = .ok content message) :
    Decodes registry env (.ok { env with mContent := some content }) := by
  have hnameLen : metadata.nameLen ≠ 0 := by
    intro hzero
    have hok := Envelope.serialize_ok_of_sent hsent
    unfold Envelope.serialize Message.MetadataImpl.serialize at hok
    simp only [hmetadata, if_pos hzero] at hok
    cases hok
  have hpos : 1 ≤ metadata.mRoutingName.length := by
    simp only [Message.MetadataImpl.nameLen] at hnameLen
    omega
  have hto := Envelope.destinations_lt_of_sent hmetadata hnameLen hsent
  have hheader := Envelope.ends_deserialize .new hmetadata rfl hpos (by omega) hto []
    (by simp only [List.length_nil]; omega) 0
  rw [Envelope.extend_nil_header hmetadata hpos (by omega) hto] at hheader
  have hrun : BufferedSource.onMessage Envelope.new.deserialize.toCode ⟨0, env.bytes⟩
      = .ok ({ mContent := none, mMetadata := some metadata, mTo := env.mTo }, env.classId,
          env.classVersion) ⟨0 + env.header.length, env.payload⟩ :=
    Reading.run_of_ends hheader env.payload
  have hwhole : ({ env with mContent := some content } : Envelope).compact
      = { mContent := none, mMetadata := some metadata, mTo := env.mTo : Envelope }.setContent
          content := by
    rw [← hmetadata]
    simp only [Envelope.compact, Option.map_some, hcompact, Envelope.setContent]
  rw [Nat.zero_add] at hrun
  refine ⟨message, ?_⟩
  unfold decode
  rw [bind_of_ok hrun]
  refine (bind_of_ok hcontent).trans ?_
  rw [pure_run, Except.map, hwhole, resultOf_ok]

/-- An object of a registered class is read into the object that the code for the class
    makes of its bytes. -/
theorem decodes_registered {env : Envelope} {metadata : Message.MetadataImpl}
    {program : Api.DataInStream Message.ObjectContent} {restored : Message.ObjectContent}
    (hmetadata : env.mMetadata = some metadata) (hname : metadata.mRoutingName.length < 2 ^ 16)
    (hsent : env.outcome = .ok ())
    (hprogram : factories registry env.classId env.classVersion = some program.toCode)
    (hreads : program.Ends env.header.length env.payload (.ok restored)) :
    Decodes registry env (.ok { env with mContent := some (.objectContent restored) }) := by
  have hrun : BufferedSource.onMessage program.toCode ⟨env.header.length, env.payload ++ []⟩
      = .ok restored ⟨env.header.length + env.payload.length, []⟩ :=
    Reading.run_of_ends hreads []
  rw [List.append_nil] at hrun
  refine decodes_of_content hmetadata hname hsent (.objectContent restored)
    ⟨env.header.length + env.payload.length, []⟩ rfl ?_
  unfold Message.decodeContent
  rw [if_pos rfl, hprogram]
  exact bind_of_ok hrun

/-- Content of a class that is not registered comes out as its bytes. -/
theorem decodes_unregistered {env : Envelope} {metadata : Message.MetadataImpl}
    (hmetadata : env.mMetadata = some metadata) (hname : metadata.mRoutingName.length < 2 ^ 16)
    (hsent : env.outcome = .ok ())
    (hnone : factories registry env.classId env.classVersion = none) :
    Decodes registry env (.ok { env with
      mContent :=
        some (.opaqueContent ⟨env.classId, env.classVersion, .filled env.payload⟩) }) := by
  refine decodes_of_content hmetadata hname hsent _ ⟨env.header.length, env.payload⟩ ?_ ?_
  · rw [Message.MessageContent.compact, Buffer.contents_filled]
  · unfold Message.decodeContent
    rw [if_pos rfl, hnone]
    rfl

/-- The bytes of a chunk say what the chunk was, up to the size of its block. -/
theorem decodes_chunk (registry : ContentRegistry) (env : Envelope)
    {metadata : Message.MetadataImpl} {chunk : MessageChunk}
    (hmetadata : env.mMetadata = some metadata) (hname : metadata.mRoutingName.length < 2 ^ 16)
    (hfits : chunk.Fits) (hsent : (chunkEnvelope env chunk).outcome = .ok ()) :
    Decodes registry (chunkEnvelope env chunk) (.ok (chunkEnvelope env chunk.compact)) := by
  have hmetadata' : (chunkEnvelope env chunk).mMetadata = some metadata := hmetadata
  have hpayload : (chunkEnvelope env chunk).payload = chunk.bytes := by
    show (chunk.serialize.eval _).1 = _
    rw [chunk.serialize_eval]
  exact decodes_registered hmetadata' hname hsent (factories_chunk _)
    (hpayload ▸ MessageChunk.ends_create hfits _)

/-- Reading is a function: a message decodes to one thing, up to the block of opaque
    content. -/
theorem Decodes.map_compact {env : Envelope} {outcome outcome' : Except Exception Envelope}
    (h : Decodes registry env outcome) (h' : Decodes registry env outcome') :
    outcome.map Envelope.compact = outcome'.map Envelope.compact := by
  obtain ⟨message, hdecode⟩ := h
  obtain ⟨message', hdecode'⟩ := h'
  exact (resultOf_inj (hdecode.symm.trans hdecode')).1

/-- An object has no block. -/
theorem Decodes.object {env decoded : Envelope} {content : Message.ObjectContent}
    {outcome : Except Exception Envelope} (h : Decodes registry env (.ok decoded))
    (hcontent : decoded.mContent = some (.objectContent content))
    (h' : Decodes registry env outcome) : outcome = .ok decoded := by
  have heq := h.map_compact h'
  cases outcome with
  | error e => cases heq
  | ok other =>
    have hcompact : decoded.compact = other.compact := Except.ok.inj heq
    have hsame : decoded.compact.mContent = some (.objectContent content) := by
      simp only [Envelope.compact, hcontent, Option.map_some, Message.MessageContent.compact]
    rw [hcompact] at hsame
    have hother := Envelope.objectContent_of_compact hsame
    have hmetadata := congrArg Envelope.mMetadata hcompact
    have hto := congrArg Envelope.mTo hcompact
    obtain ⟨mContent, mMetadata, mTo⟩ := decoded
    obtain ⟨mContent', mMetadata', mTo'⟩ := other
    simp only [Envelope.compact] at hcontent hother hmetadata hto
    rw [hcontent, hother, hmetadata, hto]

theorem classId_compact (env : Envelope) : env.compact.classId = env.classId := by
  unfold Envelope.classId Envelope.compact
  cases env.mContent with
  | none => rfl
  | some content => cases content <;> rfl

/-- Everything that the bytes decode to has the same class. -/
theorem Decodes.classId_eq {env decoded other : Envelope}
    (hdecodes : Decodes registry env (.ok decoded)) (hother : Decodes registry env (.ok other)) :
    other.classId = decoded.classId := by
  have hcompact : decoded.compact = other.compact := Except.ok.inj (hdecodes.map_compact hother)
  rw [← classId_compact, ← hcompact, classId_compact]

/-- A message that is not chunked, by one thing that it decodes to. -/
theorem Sendable.of_decodes {env decoded : Envelope} (hwhole : IsWhole mConfig env)
    (hdecodes : Decodes registry env (.ok decoded)) (hclass : decoded.classId ≠ MessageChunk.ID) :
    Sendable mConfig registry env := by
  refine .whole hwhole fun other hother => ?_
  rw [hdecodes.classId_eq hother]
  exact hclass

end Arras4Core.Connection
