/-
  Arras4Core.Chunking.ChunkingMessageEndpoint

  The endpoint filter that cuts long messages into chunks on the way out and
  puts them together again on the way in.

  Sending: the state of a call is the list of envelopes handed on to the
  underlying endpoint.  Receiving: the underlying endpoint delivers a given
  list of envelopes; a call that finds no more of them waits.
-/

import Arras4Core.Message.Envelope
import Arras4Core.Network.MultiBufferRead

namespace Arras4Core.Chunking

open Arras4Core.Lib
open Arras4Core.Api (Exception UUID ClassID DataInStream)
open Arras4Core.Message (Envelope ObjectContent MessageContent MetadataImpl)
open Arras4Core.Network

/-- `api::ContentRegistry`: the code that creates an object of a class and
    deserializes it from a stream, for the classes that are registered. -/
abbrev ContentRegistry := ClassID → UInt32 → Option (DataInStream ObjectContent)

/-! ## Sending -/

/-- Chunk `index` of a message, with the buffer that holds its bytes. -/
def makeChunk (mConfig : ChunkingConfig) (envelope : Envelope) (metadata : MetadataImpl)
    (numChunks unchunkedSize index : Nat) (buf : Buffer) : MessageChunk where
  mChunkingMethod := 0
  mNumberOfChunks := numChunks
  mChunkIndex := index
  mOffset := (index * mConfig.chunkSize) % 2 ^ 64
  mUnchunkedSize := unchunkedSize
  internalId := envelope.classId
  internalRoutingName := metadata.mRoutingName
  internalInstanceId := metadata.mInstanceId
  internalOriginId := metadata.mSourceId
  internalClassVersion := envelope.classVersion
  mPayloadLength := buf.bytesWritten % 2 ^ 32
  mPayload := buf.mData

/-- The envelope a chunk is sent in has the metadata and the destinations of the
    whole message. -/
def chunkEnvelope (envelope : Envelope) (chunk : MessageChunk) : Envelope where
  mContent := some (.objectContent (.ofMessageChunk chunk))
  mMetadata := envelope.mMetadata
  mTo := envelope.mTo

/-- `mSource.putEnvelope`. -/
def putSource (envelope : Envelope) : EStateM Exception (List Envelope) Unit :=
  modify fun sent => sent ++ [envelope]

/-- Serialize content into a multibuffer that splits it into chunks. -/
def splitContent (mConfig : ChunkingConfig) (content : ObjectContent) :
    EStateM.Result Exception MultiBuffer Unit :=
  content.serialize.run (fun data mb => mb.write data) MultiBuffer.mBytesWritten
    (MultiBuffer.new mConfig.chunkSize mConfig.chunkSize mConfig.chunkSize_pos)

/-- One round of the loop that sends the chunks. -/
def putChunk (mConfig : ChunkingConfig) (envelope : Envelope) (metadata : MetadataImpl)
    (unchunkedSize : Nat) (mb : MultiBuffer) (index : Nat) :
    EStateM Exception (List Envelope) Unit :=
  match mb.mBuffers[index]? with
  | none => throw .undefinedBehaviour
  | some buf =>
    putSource (chunkEnvelope envelope
      (makeChunk mConfig envelope metadata mb.bufferCount unchunkedSize index buf))

/-- The second half of `putEnvelope`: split and send. -/
def putChunks (mConfig : ChunkingConfig) (envelope : Envelope) (content : ObjectContent) :
    EStateM Exception (List Envelope) Unit := do
  match splitContent mConfig content with
  | .error e _ => throw e
  | .ok _ mb =>
    if mb.bufferCount > 65535 then
      throw (.internalError
        "[ChunkingMessageEndpoint/putEnvelope] Message is too large for chunking")
    match envelope.mMetadata with
    | none => throw .undefinedBehaviour
    | some metadata =>
      (List.range mb.bufferCount).forM
        (putChunk mConfig envelope metadata content.serializedLength mb)

def putEnvelope (mConfig : ChunkingConfig) (envelope : Envelope) :
    EStateM Exception (List Envelope) Unit :=
  if !mConfig.enabled then putSource envelope
  else
    match envelope.mContent with
    | some (.objectContent content) =>
      if content.serializedLength < mConfig.minChunkingSize then putSource envelope
      else putChunks mConfig envelope content
    | _ => putSource envelope

/-! ## Collecting the chunks of one message -/

/-- `impl::MessageUnchunker`; the vector is as long as the chunk count says. -/
structure MessageUnchunker where
  mNumChunks : Nat
  mInstanceId : UUID
  mCount : Nat
  mChunks : List (Option MessageChunk)
  size_eq : mChunks.length = mNumChunks

namespace MessageUnchunker

def addChunk (u : MessageUnchunker) (chunk : MessageChunk) : Except Exception MessageUnchunker :=
  if chunk.mNumberOfChunks ≠ u.mNumChunks ∨ chunk.internalInstanceId ≠ u.mInstanceId then
    .error (.internalError "[MessageChunker/addChunk] Chunk data mismatch")
  else
    match u.mChunks[chunk.mChunkIndex]? with
    | none => .error .undefinedBehaviour
    | some (some _) => .error (.internalError "[MessageChunker/addChunk] Duplicate chunk received")
    | some none =>
      .ok { u with
        mChunks := u.mChunks.set chunk.mChunkIndex (some chunk)
        mCount := u.mCount + 1
        size_eq := by rw [List.length_set]; exact u.size_eq }

/-- The constructor, from the first chunk received. -/
def new (chunk : MessageChunk) : Except Exception MessageUnchunker :=
  if chunk.mNumberOfChunks < 1 then
    .error (.internalError "[MessageChunker] Chunk count is less than 1")
  else
    addChunk
      { mNumChunks := chunk.mNumberOfChunks
        mInstanceId := chunk.internalInstanceId
        mCount := 0
        mChunks := List.replicate chunk.mNumberOfChunks none
        size_eq := List.length_replicate }
      chunk

/-- The sum of the payload lengths; every chunk has to be there. -/
def sumLen : List (Option MessageChunk) → Except Exception Nat
  | [] => .ok 0
  | none :: _ => .error (.internalError "[MessageUnchunker/getUnchunked] Missing chunk")
  | some chunk :: rest =>
    match sumLen rest with
    | .ok n => .ok (chunk.mPayloadLength + n)
    | .error e => .error e

/-- The buffers that present the payloads to the deserializer. -/
def payloadBuffers (chunks : List (Option MessageChunk)) : List Buffer :=
  chunks.filterMap (Option.map fun chunk => Buffer.filled chunk.payload)

/-- Deserialize from the buffers of the chunks. -/
def deserialize (program : DataInStream ObjectContent) (chunks : List (Option MessageChunk)) :
    Except Exception ObjectContent :=
  let mb := (MultiBuffer.new INITIAL_BUFFER_SIZE LINEAR_BUFFER_SIZE initial_size_pos).ofBuffers
    (payloadBuffers chunks)
  match program.run MultiBuffer.read (fun length => discard (MultiBuffer.skip length))
      MultiBuffer.mBytesRead mb with
  | .ok content _ => .ok content
  | .error e _ => .error e

/-- `none` while chunks are missing; otherwise `envOut` with the content of the
    whole message. -/
def getUnchunked (registry : ContentRegistry) (u : MessageUnchunker) (envOut : Envelope) :
    Except Exception (Option Envelope) :=
  if u.mCount < u.mNumChunks then .ok none
  else
    match u.mChunks.head? with
    | some (some chunk0) => do
      let total ← sumLen u.mChunks
      if total ≠ chunk0.mUnchunkedSize then
        throw (.internalError "[MessageUnchunker/getUnchunked] Chunk size mismatch")
      match registry chunk0.internalId chunk0.internalClassVersion with
      | none =>
        throw (.internalError
          ("[MessageUnchunker/getUnchunked] Failed to instantiate message class :"
            ++ chunk0.internalId.toString))
      | some program =>
        let content ← deserialize program u.mChunks
        return some { envOut with mContent := some (.objectContent content) }
    | _ => .error .undefinedBehaviour

end MessageUnchunker

/-! ## Receiving -/

/-- The partially collected messages, by instance id. -/
abbrev UnchunkerMap := Std.TreeMap UUID MessageUnchunker

/-- `envelope.contentAs<MessageChunk>()`. -/
def asMessageChunk (envelope : Envelope) : Option MessageChunk :=
  match envelope.mContent with
  | some (.objectContent content) => content.asMessageChunk
  | _ => none

/-- The chunk an envelope carries, if it carries one. -/
def chunkOf (env : Envelope) : Option MessageChunk :=
  if env.classId = MessageChunk.ID then asMessageChunk env else none

/-- The unchunker of the chunk's message, made if there is none, with the chunk
    added. -/
def collect (mUnchunkers : UnchunkerMap) (chunk : MessageChunk) :
    Except Exception MessageUnchunker :=
  match mUnchunkers[chunk.internalInstanceId]? with
  | none => MessageUnchunker.new chunk
  | some unchunker => unchunker.addChunk chunk

/-- One pass of the loop of `getEnvelope`: an envelope to return, or `none` to go
    on with the next one. -/
def receive (registry : ContentRegistry) (envelope : Envelope) (mUnchunkers : UnchunkerMap) :
    Except Exception (Option Envelope) × UnchunkerMap :=
  if envelope.classId ≠ MessageChunk.ID then (.ok (some envelope), mUnchunkers)
  else
    match asMessageChunk envelope with
    | none => (.error .undefinedBehaviour, mUnchunkers)
    | some chunk =>
      match collect mUnchunkers chunk with
      | .error e => (.error e, mUnchunkers)
      | .ok unchunker =>
        let mUnchunkers := mUnchunkers.insert chunk.internalInstanceId unchunker
        match unchunker.getUnchunked registry envelope with
        | .ok (some env) => (.ok (some env), mUnchunkers.erase chunk.internalInstanceId)
        | r => (r, mUnchunkers)

/-- How a call of `getEnvelope` ends: with an envelope, with an exception, or not
    yet, and what is left of the deliveries and of the map. -/
def getEnvelope (registry : ContentRegistry) :
    List Envelope → UnchunkerMap → Option (Except Exception Envelope) × List Envelope × UnchunkerMap
  | [], mUnchunkers => (none, [], mUnchunkers)
  | envelope :: rest, mUnchunkers =>
    match receive registry envelope mUnchunkers with
    | (.error e, mUnchunkers') => (some (.error e), rest, mUnchunkers')
    | (.ok (some env), mUnchunkers') => (some (.ok env), rest, mUnchunkers')
    | (.ok none, mUnchunkers') => getEnvelope registry rest mUnchunkers'

/-- `calls` calls of `getEnvelope` one after the other, as far as they end. -/
def getEnvelopes (registry : ContentRegistry) :
    Nat → List Envelope → UnchunkerMap →
      List (Except Exception Envelope) × List Envelope × UnchunkerMap
  | 0, arrivals, mUnchunkers => ([], arrivals, mUnchunkers)
  | calls + 1, arrivals, mUnchunkers =>
    match getEnvelope registry arrivals mUnchunkers with
    | (none, arrivals', mUnchunkers') => ([], arrivals', mUnchunkers')
    | (some r, arrivals', mUnchunkers') =>
      (r :: (getEnvelopes registry calls arrivals' mUnchunkers').1,
        (getEnvelopes registry calls arrivals' mUnchunkers').2)

end Arras4Core.Chunking
