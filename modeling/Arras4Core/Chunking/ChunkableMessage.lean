/-
  Arras4Core.Chunking.ChunkableMessage

  What the sending endpoint makes of a message that it cuts into chunks
  (`putEnvelope_chunks`), and a message together with what its content class
  promises about it: its chunks (`chunks`), whose payloads together are the
  serialized content (`payload_flatten`), each handed on in an envelope with the
  metadata of the whole message (`putEnvelope_eq`).
-/

import Arras4Core.Chunking.ChunkingMessageEndpoint
import Arras4Core.Network.MultiBufferFixed

namespace Arras4Core.Chunking

open Arras4Core.Lib
open Arras4Core.Api (Exception UUID ClassID DataInStream AddressList)
open Arras4Core.Message (Envelope ObjectContent MessageContent MetadataImpl)
open Arras4Core.Network

/-- Serialized content is cut into pieces of the chunk size, of which only the last
    may be shorter. -/
theorem splitContent_fixed (config : ChunkingConfig) (content : ObjectContent) :
    ∃ mb, mb.Fixed config.chunkSize ∧ mb.contents = (content.serialize.eval 0).1 ∧
      splitContent config content = resultOf (content.serialize.eval 0).2 mb := by
  obtain ⟨mb, hfixed, hcontents, hrun⟩ :=
    OutProgram.run_eval (fun data mb => mb.write data) MultiBuffer.mBytesWritten
      (fun mb => mb.Fixed config.chunkSize) MultiBuffer.contents
      (fun data mb h => ⟨h.write config.chunkSize_pos data, MultiBuffer.contents_write mb data,
        MultiBuffer.mBytesWritten_write mb data⟩)
      content.serialize (MultiBuffer.Fixed.new config.chunkSize_pos)
  have hzero : (MultiBuffer.new config.chunkSize config.chunkSize
      config.chunkSize_pos).mBytesWritten = 0 := rfl
  rw [hzero, MultiBuffer.contents_new, List.nil_append] at hcontents
  rw [hzero] at hrun
  exact ⟨mb, hfixed, hcontents, hrun⟩

/-! ## The loop that sends the chunks -/

/-- The chunks made from the buffers of a multibuffer. -/
def madeChunks (config : ChunkingConfig) (envelope : Envelope) (metadata : MetadataImpl)
    (unchunkedSize : Nat) (mb : MultiBuffer) : List MessageChunk :=
  mb.mBuffers.mapIdx (makeChunk config envelope metadata mb.bufferCount unchunkedSize)

/-- Looking up the indices of a list gives the list. -/
theorem filterMap_getElem?_range {α : Type} (l : List α) (n : Nat) :
    (List.range n).filterMap (fun i => l[i]?) = l.take n := by
  induction n with
  | zero => rfl
  | succ n ih =>
    rw [List.range_succ, List.filterMap_append, ih, List.take_add_one]
    cases hget : l[n]? <;> simp [hget]

section Loop

variable (config : ChunkingConfig) (envelope : Envelope) (metadata : MetadataImpl)
  (unchunkedSize : Nat) (mb : MultiBuffer)

/-- One round of the loop hands on one chunk. -/
theorem putChunk_ok {index : Nat} (hindex : index < mb.mBuffers.length) (sent : List Envelope) :
    ∃ chunk, (madeChunks config envelope metadata unchunkedSize mb)[index]? = some chunk ∧
      putChunk config envelope metadata unchunkedSize mb index sent
        = .ok () (sent ++ [chunkEnvelope envelope chunk]) := by
  refine ⟨makeChunk config envelope metadata mb.bufferCount unchunkedSize index
    mb.mBuffers[index], ?_, ?_⟩
  · rw [madeChunks, List.getElem?_mapIdx, List.getElem?_eq_getElem hindex, Option.map_some]
  · rw [putChunk, List.getElem?_eq_getElem hindex]
    rfl

/-- The loop hands on the chunks it comes to, one after the other. -/
theorem forM_putChunk (indices : List Nat) (sent : List Envelope)
    (hlt : ∀ i ∈ indices, i < mb.mBuffers.length) :
    indices.forM (putChunk config envelope metadata unchunkedSize mb) sent
      = .ok () (sent ++ (indices.filterMap fun i =>
          (madeChunks config envelope metadata unchunkedSize mb)[i]?).map
            (chunkEnvelope envelope)) := by
  induction indices generalizing sent with
  | nil =>
    rw [List.filterMap_nil, List.map_nil, List.append_nil]
    rfl
  | cons index indices ih =>
    obtain ⟨chunk, hchunk, hput⟩ := putChunk_ok config envelope metadata unchunkedSize mb
      (hlt index List.mem_cons_self) sent
    have hrest := ih (sent ++ [chunkEnvelope envelope chunk])
      fun i hi => hlt i (List.mem_cons_of_mem index hi)
    rw [forM_cons_of_ok hput, hrest, List.filterMap_cons_some hchunk, List.map_cons,
      List.append_assoc, List.singleton_append]

end Loop

/-- What a call that gets to the loop hands on: the chunks made from the buffers in
    use. -/
theorem putEnvelope_chunks {config : ChunkingConfig} {envelope : Envelope}
    {content : ObjectContent} {metadata : MetadataImpl} {mb : MultiBuffer}
    (henabled : config.enabled = true)
    (hcontent : envelope.mContent = some (.objectContent content))
    (hlong : config.minChunkingSize ≤ content.serializedLength)
    (hsplit : splitContent config content = .ok () mb) (hfew : mb.bufferCount ≤ 65535)
    (hmetadata : envelope.mMetadata = some metadata) (sent : List Envelope) :
    putEnvelope config envelope sent = .ok () (sent ++
      ((madeChunks config envelope metadata content.serializedLength mb).take mb.bufferCount).map
        (chunkEnvelope envelope)) := by
  have hput : putEnvelope config envelope = putChunks config envelope content := by
    simp only [putEnvelope, henabled, hcontent, Nat.not_lt.mpr hlong, if_false, Bool.not_true,
      Bool.false_eq_true]
  have hloop := forM_putChunk config envelope metadata content.serializedLength mb
    (List.range mb.bufferCount) sent
    fun i hi => Nat.lt_of_lt_of_le (List.mem_range.mp hi) mb.used_le
  rw [filterMap_getElem?_range] at hloop
  rw [hput, putChunks, hsplit]
  dsimp only
  rw [if_neg (Nat.not_lt.mpr hfew), hmetadata]
  exact hloop

/-! ## Messages whose content keeps its promises -/

/-- A message that gets chunked, together with what its content class promises:
    `serializedLength` is the number of bytes serialized, the class is
    registered, and its `deserialize` reads exactly these bytes, by reads
    alone, into an object of the same class. -/
structure ChunkableMessage (config : ChunkingConfig) (registry : ContentRegistry) where
  metadata : MetadataImpl
  destinations : AddressList
  content : ObjectContent
  data : Bytes
  restored : ObjectContent
  program : DataInStream ObjectContent
  serialize_eval : content.serialize.eval 0 = (data, .ok ())
  serializedLength_eq : content.serializedLength = data.length
  minChunkingSize_le : config.minChunkingSize ≤ data.length
  data_pos : 0 < data.length
  chunkSize_lt : config.chunkSize < 2 ^ 32
  chunkCount_le : (data.length + (config.chunkSize - 1)) / config.chunkSize ≤ 65535
  registered : registry content.classId content.classVersion = some program
  reads : program.ReadsExactly 0 data restored
  restored_classId : restored.classId = content.classId
  restored_classVersion : restored.classVersion = content.classVersion

namespace ChunkableMessage

variable {config : ChunkingConfig} {registry : ContentRegistry}

/-- The message as it is given to the sending endpoint. -/
def envelope (m : ChunkableMessage config registry) : Envelope where
  mContent := some (.objectContent m.content)
  mMetadata := some m.metadata
  mTo := m.destinations

/-- The message as the receiving endpoint returns it. -/
def received (m : ChunkableMessage config registry) : Envelope where
  mContent := some (.objectContent m.restored)
  mMetadata := some m.metadata
  mTo := m.destinations

def instanceId (m : ChunkableMessage config registry) : UUID := m.metadata.mInstanceId

/-! ## What the sender makes of a message -/

/-- The multibuffer after serialization. -/
def split (m : ChunkableMessage config registry) : MultiBuffer :=
  match splitContent config m.content with
  | .ok _ mb => mb
  | .error _ mb => mb

theorem splitContent_eq (m : ChunkableMessage config registry) :
    splitContent config m.content = .ok () m.split ∧ m.split.Fixed config.chunkSize ∧
      m.split.contents = m.data := by
  obtain ⟨mb, hfixed, hcontents, hsplit⟩ := splitContent_fixed config m.content
  rw [m.serialize_eval] at hcontents hsplit
  rw [resultOf_ok] at hsplit
  have hmb : m.split = mb := by rw [split, hsplit]
  rw [hmb]
  exact ⟨hsplit, hfixed, hcontents⟩

theorem split_fixed (m : ChunkableMessage config registry) : m.split.Fixed config.chunkSize :=
  m.splitContent_eq.2.1

theorem split_contents (m : ChunkableMessage config registry) : m.split.contents = m.data :=
  m.splitContent_eq.2.2

/-- The number of chunks. -/
def numChunks (m : ChunkableMessage config registry) : Nat := m.split.bufferCount

theorem numChunks_eq (m : ChunkableMessage config registry) :
    m.numChunks = m.split.mBuffers.length := m.split_fixed.used_eq

theorem numChunks_le (m : ChunkableMessage config registry) : m.numChunks ≤ 65535 := by
  rw [numChunks, m.split_fixed.bufferCount_eq config.chunkSize_pos, m.split_contents]
  exact m.chunkCount_le

theorem numChunks_pos (m : ChunkableMessage config registry) : 0 < m.numChunks := by
  rw [numChunks, m.split_fixed.bufferCount_eq config.chunkSize_pos, m.split_contents]
  have := m.data_pos
  exact Nat.div_pos (by omega) config.chunkSize_pos

/-- The chunks in order. -/
def chunks (m : ChunkableMessage config registry) : List MessageChunk :=
  m.split.mBuffers.mapIdx
    (makeChunk config m.envelope m.metadata m.numChunks m.content.serializedLength)

@[simp] theorem chunks_length (m : ChunkableMessage config registry) :
    m.chunks.length = m.numChunks := by
  rw [chunks, List.length_mapIdx, numChunks_eq]

/-- What the receiver checks a chunk for. -/
theorem chunks_getElem (m : ChunkableMessage config registry) {i : Nat} {chunk : MessageChunk}
    (h : m.chunks[i]? = some chunk) :
    i < m.numChunks ∧ chunk.mNumberOfChunks = m.numChunks ∧ chunk.mChunkIndex = i ∧
      chunk.internalInstanceId = m.instanceId ∧ chunk.mUnchunkedSize = m.data.length ∧
      chunk.internalId = m.content.classId ∧
      chunk.internalClassVersion = m.content.classVersion := by
  have hlt : i < m.numChunks := by
    rw [← chunks_length]
    exact (List.getElem?_eq_some_iff.mp h).1
  rw [chunks, List.getElem?_mapIdx, Option.map_eq_some_iff] at h
  obtain ⟨buf, -, rfl⟩ := h
  exact ⟨hlt, rfl, rfl, rfl, m.serializedLength_eq, rfl, rfl⟩

/-- The payloads are the pieces the multibuffer cut the data into. -/
theorem chunks_payload (m : ChunkableMessage config registry) :
    m.chunks.map MessageChunk.payload = m.split.mBuffers.map Buffer.written ∧
      m.chunks.map MessageChunk.mPayloadLength
        = m.split.mBuffers.map fun buf => buf.written.length := by
  have hlen : ∀ buf ∈ m.split.mBuffers, buf.bytesWritten % 2 ^ 32 = buf.written.length := by
    intro buf hbuf
    have hle := m.split_fixed.written_length_le hbuf
    have hlt := m.chunkSize_lt
    rw [Buffer.written_length] at hle ⊢
    exact Nat.mod_eq_of_lt (by omega)
  constructor
  · apply List.ext_getElem
    · simp [chunks]
    · intro i h₁ h₂
      rw [List.length_map] at h₂
      have hbuf := List.getElem_mem h₂
      simp only [chunks, List.getElem_map, List.getElem_mapIdx, MessageChunk.payload, makeChunk]
      rw [hlen _ hbuf, Buffer.written_length]
      rfl
  · apply List.ext_getElem
    · simp [chunks]
    · intro i h₁ h₂
      rw [List.length_map] at h₂
      simp only [chunks, List.getElem_map, List.getElem_mapIdx, makeChunk]
      exact hlen _ (List.getElem_mem h₂)

theorem payload_flatten (m : ChunkableMessage config registry) :
    (m.chunks.map MessageChunk.payload).flatten = m.data := by
  rw [m.chunks_payload.1, m.split_fixed.written_flatten, m.split_contents]

theorem payloadLength_sum (m : ChunkableMessage config registry) :
    (m.chunks.map MessageChunk.mPayloadLength).sum = m.data.length := by
  rw [m.chunks_payload.2, ← m.payload_flatten, m.chunks_payload.1, List.length_flatten,
    List.map_map]
  rfl

/-- The envelopes the chunks are sent in. -/
def chunkEnvelopes (m : ChunkableMessage config registry) : List Envelope :=
  m.chunks.map (chunkEnvelope m.envelope)

/-- The sender hands on the chunks in order. -/
theorem putEnvelope_eq (m : ChunkableMessage config registry) (henabled : config.enabled = true)
    (sent : List Envelope) :
    putEnvelope config m.envelope sent = .ok () (sent ++ m.chunkEnvelopes) := by
  have hlong : config.minChunkingSize ≤ m.content.serializedLength := by
    rw [m.serializedLength_eq]
    exact m.minChunkingSize_le
  have hall : m.chunks.take m.numChunks = m.chunks := by
    rw [← m.chunks_length, List.take_length]
  have hcontent : m.envelope.mContent = some (.objectContent m.content) := rfl
  have hput :=
    putEnvelope_chunks henabled hcontent hlong m.splitContent_eq.1 m.numChunks_le rfl sent
  exact hput.trans (congrArg
    (fun chunks => EStateM.Result.ok () (sent ++ chunks.map (chunkEnvelope m.envelope))) hall)

end ChunkableMessage

end Arras4Core.Chunking
