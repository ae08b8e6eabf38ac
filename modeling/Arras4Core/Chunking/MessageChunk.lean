/-
  Arras4Core.Chunking.MessageChunk

  `impl::MessageChunk`, the message a piece of a chunked message travels in, and
  the settings that decide what is chunked.
-/

import Arras4Core.Api.DataStream
import Arras4Core.Network.Buffer

namespace Arras4Core.Chunking

open Arras4Core.Lib
open Arras4Core.Api (UUID ClassID DataOutStream uuidBytes stringBytes)
open Arras4Core.Network (Bytes Buffer)

/-- `impl::ChunkingConfig`.  A chunk size of zero would make the sender allocate
    empty buffers for ever. -/
structure ChunkingConfig where
  enabled : Bool := true
  minChunkingSize : Nat := 2047 * 1024 * 1024
  chunkSize : Nat := 1024 * 1024 * 1024
  chunkSize_pos : 0 < chunkSize := by decide

/-- `impl::MessageChunk`.  The payload is a block of which the first
    `mPayloadLength` bytes count. -/
structure MessageChunk where
  mProtocolVersion : Nat := 0
  mChunkingMethod : Nat := 0
  mNumberOfChunks : Nat
  mChunkIndex : Nat
  mOffset : Nat
  mUnchunkedSize : Nat
  internalId : ClassID
  internalRoutingName : Bytes
  internalInstanceId : UUID
  internalOriginId : UUID
  internalClassVersion : UInt32
  mPayloadLength : Nat := 0
  mPayload : Bytes := []

namespace MessageChunk

/-- 164a8601-dbf7-42e5-b469-3ad1c58dbe83 -/
def ID : ClassID :=
  ⟨#v[0x16, 0x4a, 0x86, 0x01, 0xdb, 0xf7, 0x42, 0xe5,
      0xb4, 0x69, 0x3a, 0xd1, 0xc5, 0x8d, 0xbe, 0x83]⟩

def VERSION : UInt32 := 0

/-- The bytes of the payload. -/
def payload (chunk : MessageChunk) : Bytes := chunk.mPayload.take chunk.mPayloadLength

def serialize (chunk : MessageChunk) : DataOutStream Unit :=
  .writeAll <|
    [leBytes 2 chunk.mProtocolVersion,
      leBytes 2 chunk.mChunkingMethod,
      leBytes 2 chunk.mNumberOfChunks,
      leBytes 2 chunk.mChunkIndex,
      leBytes 8 chunk.mOffset,
      leBytes 8 chunk.mUnchunkedSize,
      uuidBytes chunk.internalId] ++ stringBytes chunk.internalRoutingName ++
    [uuidBytes chunk.internalInstanceId,
      uuidBytes chunk.internalOriginId,
      leBytes 4 chunk.internalClassVersion.toNat,
      leBytes 4 chunk.mPayloadLength,
      chunk.payload]

end MessageChunk

end Arras4Core.Chunking
