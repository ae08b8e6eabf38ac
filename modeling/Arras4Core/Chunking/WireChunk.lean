/-
  Arras4Core.Chunking.WireChunk

  A message chunk as the receiving side gets it: `MessageChunk::deserialize` reads
  back what `serialize` wrote, with a block that holds the payload and no more.
  The unchunker looks at nothing else of the block, so it makes no difference to it.
-/

import Arras4Core.Chunking.RoundTrip
import Arras4Core.Message.LengthPrefix

namespace Arras4Core.Chunking

open Arras4Core.Lib
open Arras4Core.Api (Exception UUID ClassID DataInStream readNat readUUID ends_readNat ends_readUUID
  uuidBytes stringBytes)
open Arras4Core.Message (Envelope ObjectContent MetadataImpl InStreamImpl.read ends_readString)
open Arras4Core.Network (Bytes Buffer)

/-! ## Reading a chunk -/

namespace MessageChunk

/-- Version 0 of the chunking protocol is the only one. -/
def checkProtocolVersion (mProtocolVersion : Nat) : DataInStream Unit :=
  if mProtocolVersion ≠ 0 then
    .throw (.messageFormatError
      "Unknown chunking protocol version in MessageChunk::deserialize")
  else pure ()

def deserialize : DataInStream MessageChunk := do
  let mProtocolVersion ← readNat 2
  checkProtocolVersion mProtocolVersion
  let mChunkingMethod ← readNat 2
  let mNumberOfChunks ← readNat 2
  let mChunkIndex ← readNat 2
  let mOffset ← readNat 8
  let mUnchunkedSize ← readNat 8
  let internalId ← readUUID
  let internalRoutingName ← InStreamImpl.read
  let internalInstanceId ← readUUID
  let internalOriginId ← readUUID
  let internalClassVersion ← readNat 4
  let mPayloadLength ← readNat 4
  let mPayload ← .readBlock mPayloadLength
  return {
    mProtocolVersion, mChunkingMethod, mNumberOfChunks, mChunkIndex, mOffset, mUnchunkedSize,
    internalId, internalRoutingName, internalInstanceId, internalOriginId,
    internalClassVersion := UInt32.ofNat internalClassVersion, mPayloadLength, mPayload }

/-- The chunk with a block that holds its payload and no more. -/
def compact (chunk : MessageChunk) : MessageChunk := { chunk with mPayload := chunk.payload }

@[simp] theorem payload_compact (chunk : MessageChunk) : chunk.compact.payload = chunk.payload :=
  List.take_of_length_le (List.length_take_le _ _)

/-- The values of the fields are values of their types in the source, and the block is
    as long as the payload length says. -/
structure Fits (chunk : MessageChunk) : Prop where
  protocolVersion : chunk.mProtocolVersion = 0
  chunkingMethod : chunk.mChunkingMethod < 2 ^ 16
  numberOfChunks : chunk.mNumberOfChunks < 2 ^ 16
  chunkIndex : chunk.mChunkIndex < 2 ^ 16
  offset : chunk.mOffset < 2 ^ 64
  unchunkedSize : chunk.mUnchunkedSize < 2 ^ 64
  routingName : chunk.internalRoutingName.length < 2 ^ 32
  payloadLength : chunk.mPayloadLength < 2 ^ 32
  payload : chunk.payload.length = chunk.mPayloadLength

/-- The bytes that `serialize` writes. -/
def bytes (chunk : MessageChunk) : Bytes := (chunk.serialize.eval 0).1

theorem serialize_eval (chunk : MessageChunk) (n : Nat) :
    chunk.serialize.eval n = (chunk.bytes, .ok ()) := by
  unfold bytes serialize
  rw [OutProgram.eval_writeAll, OutProgram.eval_writeAll]

/-- The fields one after the other. -/
theorem bytes_eq {chunk : MessageChunk} (h : chunk.Fits) :
    chunk.bytes = leBytes 2 chunk.mProtocolVersion ++ (leBytes 2 chunk.mChunkingMethod ++
      (leBytes 2 chunk.mNumberOfChunks ++ (leBytes 2 chunk.mChunkIndex ++
      (leBytes 8 chunk.mOffset ++ (leBytes 8 chunk.mUnchunkedSize ++ (uuidBytes chunk.internalId ++
      ((leBytes 4 chunk.internalRoutingName.length ++ chunk.internalRoutingName) ++
      (uuidBytes chunk.internalInstanceId ++ (uuidBytes chunk.internalOriginId ++
      (leBytes 4 chunk.internalClassVersion.toNat ++
      (leBytes 4 chunk.mPayloadLength ++ chunk.payload))))))))))) := by
  have hname : chunk.internalRoutingName.length % 2 ^ 32 = chunk.internalRoutingName.length :=
    Nat.mod_eq_of_lt h.routingName
  unfold bytes serialize
  rw [OutProgram.eval_writeAll]
  simp only [stringBytes, hname, List.take_length, List.cons_append, List.nil_append,
    List.flatten_cons, List.flatten_nil, List.append_nil, List.append_assoc]

theorem ends_checkProtocolVersion {chunk : MessageChunk} (h : chunk.Fits) (n : Nat) :
    (checkProtocolVersion chunk.mProtocolVersion).Ends n [] (.ok ()) := by
  unfold checkProtocolVersion
  rw [if_neg (not_not_intro h.protocolVersion)]
  exact InProgram.ends_pure () n

/-- The chunk is read back, up to the size of its block. -/
theorem ends_deserialize {chunk : MessageChunk} (h : chunk.Fits) (n : Nat) :
    deserialize.Ends n chunk.bytes (.ok chunk.compact) := by
  have hversion : chunk.mProtocolVersion < 256 ^ 2 := by
    rw [h.protocolVersion]
    decide
  rw [bytes_eq h]
  unfold deserialize
  -- one line for each field, in the order of the source
  refine (ends_readNat hversion _).bind ?_
  refine (ends_checkProtocolVersion h _).bind_nil ?_
  refine (ends_readNat h.chunkingMethod _).bind ?_
  refine (ends_readNat h.numberOfChunks _).bind ?_
  refine (ends_readNat h.chunkIndex _).bind ?_
  refine (ends_readNat h.offset _).bind ?_
  refine (ends_readNat h.unchunkedSize _).bind ?_
  refine (ends_readUUID chunk.internalId _).bind ?_
  refine (ends_readString h.routingName _).bind ?_
  refine (ends_readUUID chunk.internalInstanceId _).bind ?_
  refine (ends_readUUID chunk.internalOriginId _).bind ?_
  refine (ends_readNat chunk.internalClassVersion.toNat_lt _).bind ?_
  refine (ends_readNat h.payloadLength _).bind ?_
  rw [← List.append_nil chunk.payload]
  refine (InProgram.ends_readBlock h.payload _).bind ?_
  rw [UInt32.ofNat_toNat]
  exact InProgram.ends_pure _ _

/-- `MessageChunk` as the content registry creates it. -/
def create : DataInStream ObjectContent := do
  let chunk ← deserialize
  return .ofMessageChunk chunk

theorem ends_create {chunk : MessageChunk} (h : chunk.Fits) (n : Nat) :
    create.Ends n chunk.bytes (.ok (.ofMessageChunk chunk.compact)) := by
  unfold create
  rw [← List.append_nil chunk.bytes]
  exact (ends_deserialize h n).bind (InProgram.ends_pure _ _)

end MessageChunk

/-! ## The blocks make no difference to the unchunker -/

namespace MessageUnchunker

/-- The unchunker with compact chunks. -/
def compact (u : MessageUnchunker) : MessageUnchunker where
  mNumChunks := u.mNumChunks
  mInstanceId := u.mInstanceId
  mCount := u.mCount
  mChunks := u.mChunks.map (Option.map MessageChunk.compact)
  size_eq := by rw [List.length_map]; exact u.size_eq

theorem addChunk_compact (u : MessageUnchunker) (chunk : MessageChunk) :
    u.compact.addChunk chunk.compact = (u.addChunk chunk).map compact := by
  unfold addChunk
  by_cases hmismatch : chunk.mNumberOfChunks ≠ u.mNumChunks ∨
      chunk.internalInstanceId ≠ u.mInstanceId
  · rw [if_pos hmismatch, if_pos (show chunk.compact.mNumberOfChunks ≠ u.compact.mNumChunks ∨
      chunk.compact.internalInstanceId ≠ u.compact.mInstanceId from hmismatch)]
    rfl
  · rw [if_neg hmismatch, if_neg (show ¬ (chunk.compact.mNumberOfChunks ≠ u.compact.mNumChunks ∨
      chunk.compact.internalInstanceId ≠ u.compact.mInstanceId) from hmismatch)]
    have hget : u.compact.mChunks[chunk.compact.mChunkIndex]?
        = u.mChunks[chunk.mChunkIndex]?.map (Option.map MessageChunk.compact) :=
      List.getElem?_map
    rw [hget]
    cases hslot : u.mChunks[chunk.mChunkIndex]? with
    | none => rfl
    | some slot =>
      cases slot with
      | some taken => rfl
      | none =>
        have hslots : (u.mChunks.map (Option.map MessageChunk.compact)).set
            chunk.compact.mChunkIndex (some chunk.compact)
              = (u.mChunks.set chunk.mChunkIndex (some chunk)).map
                  (Option.map MessageChunk.compact) := by
          rw [List.map_set]
          rfl
        simp only [Option.map_some, Option.map_none, Except.map, Except.ok.injEq]
        simp only [compact, hslots]

theorem new_compact (chunk : MessageChunk) :
    MessageUnchunker.new chunk.compact = (MessageUnchunker.new chunk).map compact := by
  unfold MessageUnchunker.new
  by_cases hcount : chunk.mNumberOfChunks < 1
  · rw [if_pos hcount, if_pos (show chunk.compact.mNumberOfChunks < 1 from hcount)]
    rfl
  · rw [if_neg hcount, if_neg (show ¬ chunk.compact.mNumberOfChunks < 1 from hcount),
      ← addChunk_compact]
    congr 1
    simp only [compact, List.map_replicate, Option.map_none]
    rfl

theorem sumLen_compact (chunks : List (Option MessageChunk)) :
    sumLen (chunks.map (Option.map MessageChunk.compact)) = sumLen chunks := by
  induction chunks with
  | nil => rfl
  | cons chunk chunks ih =>
    cases chunk with
    | none => rfl
    | some chunk =>
      rw [List.map_cons, Option.map_some, sumLen, sumLen, ih]
      rfl

theorem payloadBuffers_compact (chunks : List (Option MessageChunk)) :
    payloadBuffers (chunks.map (Option.map MessageChunk.compact)) = payloadBuffers chunks := by
  unfold payloadBuffers
  rw [List.filterMap_map]
  congr 1
  funext chunk
  cases chunk with
  | none => rfl
  | some chunk => simp only [Function.comp, Option.map_some, MessageChunk.payload_compact]

/-- The message comes out in the same way. -/
theorem getUnchunked_compact (registry : ContentRegistry) (u : MessageUnchunker)
    (envOut : Envelope) :
    u.compact.getUnchunked registry envOut = u.getUnchunked registry envOut := by
  have hdeserialize : ∀ program, deserialize program u.compact.mChunks
      = deserialize program u.mChunks := by
    intro program
    unfold deserialize
    rw [show u.compact.mChunks = u.mChunks.map (Option.map MessageChunk.compact) from rfl,
      payloadBuffers_compact]
  have hsum : sumLen u.compact.mChunks = sumLen u.mChunks := sumLen_compact u.mChunks
  have hhead : u.compact.mChunks.head?
      = u.mChunks.head?.map (Option.map MessageChunk.compact) := List.head?_map
  unfold getUnchunked
  rw [hhead, hsum]
  simp only [hdeserialize]
  cases u.mChunks.head? with
  | none => rfl
  | some slot =>
    cases slot with
    | none => rfl
    | some chunk => rfl

end MessageUnchunker

/-- The maps hold the same, up to the sizes of the chunks' blocks. -/
def SameChunks (mUnchunkers compacted : UnchunkerMap) : Prop :=
  ∀ id : UUID, compacted[id]? = mUnchunkers[id]?.map MessageUnchunker.compact

namespace SameChunks

variable {mUnchunkers compacted : UnchunkerMap}

theorem empty : SameChunks ∅ ∅ := by
  intro id
  rw [Std.TreeMap.getElem?_emptyc]
  rfl

theorem insert (h : SameChunks mUnchunkers compacted) (id : UUID) (u : MessageUnchunker) :
    SameChunks (mUnchunkers.insert id u) (compacted.insert id u.compact) := by
  intro id'
  rw [Std.TreeMap.getElem?_insert, Std.TreeMap.getElem?_insert]
  split
  · rfl
  · exact h id'

theorem erase (h : SameChunks mUnchunkers compacted) (id : UUID) :
    SameChunks (mUnchunkers.erase id) (compacted.erase id) := by
  intro id'
  rw [Std.TreeMap.getElem?_erase, Std.TreeMap.getElem?_erase]
  split
  · rfl
  · exact h id'

theorem collect (h : SameChunks mUnchunkers compacted) (chunk : MessageChunk) :
    Chunking.collect compacted chunk.compact
      = (Chunking.collect mUnchunkers chunk).map MessageUnchunker.compact := by
  have hget : compacted[chunk.compact.internalInstanceId]?
      = mUnchunkers[chunk.internalInstanceId]?.map MessageUnchunker.compact :=
    h chunk.internalInstanceId
  unfold Chunking.collect
  rw [hget]
  cases mUnchunkers[chunk.internalInstanceId]? with
  | none => exact MessageUnchunker.new_compact chunk
  | some u => exact u.addChunk_compact chunk

/-- What of the last chunk's envelope gets into the whole message is the same. -/
theorem getUnchunked_chunkEnvelope (registry : ContentRegistry) (u : MessageUnchunker)
    (envelope : Envelope) (chunk : MessageChunk) :
    u.compact.getUnchunked registry (chunkEnvelope envelope chunk.compact)
      = u.getUnchunked registry (chunkEnvelope envelope chunk) := by
  rw [u.getUnchunked_compact]
  rfl

/-- One pass of the loop ends alike on a chunk and on its compact copy. -/
theorem receive (h : SameChunks mUnchunkers compacted) (registry : ContentRegistry)
    (envelope : Envelope) (chunk : MessageChunk) :
    (Chunking.receive registry (chunkEnvelope envelope chunk.compact) compacted).1
        = (Chunking.receive registry (chunkEnvelope envelope chunk) mUnchunkers).1 ∧
      SameChunks (Chunking.receive registry (chunkEnvelope envelope chunk) mUnchunkers).2
        (Chunking.receive registry (chunkEnvelope envelope chunk.compact) compacted).2 := by
  have hclass : ∀ c, (chunkEnvelope envelope c).classId = MessageChunk.ID := fun _ => rfl
  have hcast : ∀ c, asMessageChunk (chunkEnvelope envelope c) = some c := fun _ => rfl
  unfold Chunking.receive
  rw [if_neg (not_not_intro (hclass _)), if_neg (not_not_intro (hclass _)), hcast, hcast]
  simp only [h.collect chunk]
  cases Chunking.collect mUnchunkers chunk with
  | error e => exact ⟨rfl, h⟩
  | ok u =>
    have hid : chunk.compact.internalInstanceId = chunk.internalInstanceId := rfl
    have hinsert := h.insert chunk.internalInstanceId u
    simp only [Except.map, hid, getUnchunked_chunkEnvelope]
    cases u.getUnchunked registry (chunkEnvelope envelope chunk) with
    | error e => exact ⟨rfl, hinsert⟩
    | ok r =>
      cases r with
      | none => exact ⟨rfl, hinsert⟩
      | some env => exact ⟨rfl, hinsert.erase chunk.internalInstanceId⟩

end SameChunks

end Arras4Core.Chunking
