/-
  Arras4Core.Chunking.PayloadLength

  The length a chunk is sent with.  `mPayloadLength` has 32 bits, the number of
  bytes in the buffer that becomes the payload is a `size_t`, and
  `putEnvelope` casts the one to the other.

  A buffer holds at most `chunkSize` bytes, and content that is long enough
  fills one to the brim, so the cast keeps every length exactly when chunking
  is off or the chunk size itself fits into 32 bits (`keepsLengths_iff`).
-/

import Arras4Core.Chunking.ChunkableMessage

namespace Arras4Core.Chunking

open Arras4Core.Lib
open Arras4Core.Api (UUID)
open Arras4Core.Message (Envelope ObjectContent MessageContent MetadataImpl)
open Arras4Core.Network

variable {config : ChunkingConfig} {envelope : Envelope} {content : ObjectContent}
  {mb : MultiBuffer}

/-- A call of `putEnvelope` gets past its tests with the content serialized into
    `mb`. -/
structure CutsInto (config : ChunkingConfig) (envelope : Envelope) (content : ObjectContent)
    (mb : MultiBuffer) : Prop where
  enabled : config.enabled = true
  content_eq : envelope.mContent = some (.objectContent content)
  long : config.minChunkingSize ≤ content.serializedLength
  split_eq : splitContent config content = .ok () mb
  few : mb.bufferCount ≤ 65535

/-- Every call that returns has handed on, for each buffer the content was cut
    into, a chunk that has the buffer's block as its payload and the number of
    bytes written to it as its length. -/
def KeepsLengths (config : ChunkingConfig) : Prop :=
  ∀ envelope content mb sent sent', CutsInto config envelope content mb →
    putEnvelope config envelope sent = .ok () sent' →
    ∀ index < mb.bufferCount, ∀ buf, mb.mBuffers[index]? = some buf →
      ∃ chunk, sent'[sent.length + index]? = some (chunkEnvelope envelope chunk) ∧
        chunk.mPayload = buf.mData ∧ chunk.mPayloadLength = buf.bytesWritten

/-- The pieces are those of a multibuffer with one buffer size. -/
theorem CutsInto.fixed (h : CutsInto config envelope content mb) :
    mb.Fixed config.chunkSize ∧ mb.contents = (content.serialize.eval 0).1 := by
  obtain ⟨mb', hfixed, hcontents, hsplit⟩ := splitContent_fixed config content
  generalize hend : (content.serialize.eval 0).2 = r at hsplit
  rw [h.split_eq] at hsplit
  cases r with
  | error e => cases hsplit
  | ok u =>
    obtain rfl := (EStateM.Result.ok.inj hsplit).2
    exact ⟨hfixed, hcontents⟩

/-- A call that returns has metadata to send, and hands on the chunks made from the
    buffers. -/
theorem CutsInto.sent_eq (h : CutsInto config envelope content mb) {sent sent' : List Envelope}
    (hput : putEnvelope config envelope sent = .ok () sent') {index : Nat}
    (hindex : index < mb.bufferCount) {buf : Buffer} (hbuf : mb.mBuffers[index]? = some buf) :
    ∃ metadata, sent'[sent.length + index]? = some (chunkEnvelope envelope
      (makeChunk config envelope metadata mb.bufferCount content.serializedLength index buf)) := by
  cases hmetadata : envelope.mMetadata with
  | none =>
    -- the first thing the loop does is to look at the metadata
    simp only [putEnvelope, h.enabled, h.content_eq, Nat.not_lt.mpr h.long, putChunks, h.split_eq,
      hmetadata, Bool.not_true, Bool.false_eq_true, if_false, gt_iff_lt,
      Nat.not_lt.mpr h.few] at hput
    cases hput
  | some metadata =>
    refine ⟨metadata, ?_⟩
    have hsent := putEnvelope_chunks h.enabled h.content_eq h.long h.split_eq h.few hmetadata sent
    rw [hput] at hsent
    obtain rfl := (EStateM.Result.ok.inj hsent).2
    rw [List.getElem?_append_right (Nat.le_add_right _ _), Nat.add_sub_cancel_left,
      List.getElem?_map, List.getElem?_take_of_lt hindex, madeChunks, List.getElem?_mapIdx, hbuf]
    rfl

/-- A chunk is found in the envelope it is sent in. -/
theorem asMessageChunk_chunkEnvelope (envelope : Envelope) (chunk : MessageChunk) :
    asMessageChunk (chunkEnvelope envelope chunk) = some chunk := rfl

/-- The cast keeps every length below 2^32. -/
theorem keepsLengths_of_lt (h : config.chunkSize < 2 ^ 32) : KeepsLengths config := by
  intro envelope content mb sent sent' hcuts hput index hindex buf hbuf
  obtain ⟨metadata, hsent⟩ := hcuts.sent_eq hput hindex hbuf
  refine ⟨_, hsent, rfl, ?_⟩
  have hle := hcuts.fixed.1.written_length_le (List.mem_of_getElem? hbuf)
  rw [Buffer.written_length] at hle
  exact Nat.mod_eq_of_lt (Nat.lt_of_le_of_lt hle h)

/-! ## Content that fills a buffer -/

/-- An object that is serialized as the given bytes, and says it is as long as
    chunking asks for. -/
def plainContent (config : ChunkingConfig) (data : Bytes) : ObjectContent where
  classId := UUID.null
  classVersion := 0
  serializedLength := config.minChunkingSize
  serialize := .write data (.ret ())

/-- Bytes that fit into one buffer are cut into that one piece. -/
theorem cutsInto_one (henabled : config.enabled = true) {data : Bytes} (hpos : 0 < data.length)
    (hle : data.length ≤ config.chunkSize)
    (hcontent : envelope.mContent = some (.objectContent (plainContent config data))) :
    ∃ mb buf, CutsInto config envelope (plainContent config data) mb ∧ mb.bufferCount = 1 ∧
      mb.mBuffers[0]? = some buf ∧ buf.bytesWritten = data.length := by
  obtain ⟨mb, hfixed, hcontents, hsplit⟩ := splitContent_fixed config (plainContent config data)
  have hdata : (plainContent config data).serialize.eval 0 = (data, .ok ()) :=
    Prod.ext (List.append_nil data) rfl
  rw [hdata] at hcontents hsplit
  dsimp only at hcontents
  have hcount : mb.bufferCount = 1 := by
    rw [hfixed.bufferCount_eq config.chunkSize_pos, hcontents]
    exact Nat.div_eq_of_lt_le (by omega) (by omega)
  have hlength : mb.mBuffers.length = 1 := hfixed.used_eq.symm.trans hcount
  obtain ⟨buf, hbuf⟩ := List.length_eq_one_iff.mp hlength
  have hwritten := congrArg List.length hfixed.written_flatten
  rw [hbuf, hcontents, List.map_singleton, List.flatten_singleton, Buffer.written_length]
    at hwritten
  refine ⟨mb, buf, ⟨henabled, hcontent, Nat.le_refl _, hsplit, ?_⟩, hcount, ?_, hwritten⟩
  · rw [hcount]
    decide
  · rw [hbuf]
    rfl

/-- The envelope of a message with the given content. -/
def plainEnvelope (content : ObjectContent) : Envelope where
  mContent := some (.objectContent content)
  mMetadata := some .new

/-- A buffer of 2^32 bytes or more can be filled with 2^32 bytes, which the cast makes
    zero. -/
theorem not_keepsLengths (henabled : config.enabled = true) (h : 2 ^ 32 ≤ config.chunkSize) :
    ¬ KeepsLengths config := by
  intro hkeeps
  obtain ⟨data, hdata⟩ : ∃ data : Bytes, data.length = 2 ^ 32 :=
    ⟨List.replicate (2 ^ 32) 0, List.length_replicate⟩
  have hcontent : (plainEnvelope (plainContent config data)).mContent
      = some (.objectContent (plainContent config data)) := rfl
  obtain ⟨mb, buf, hcuts, hcount, hbuf, hwritten⟩ :=
    cutsInto_one henabled (by omega) (by omega) hcontent
  have hput := putEnvelope_chunks hcuts.enabled hcuts.content_eq hcuts.long hcuts.split_eq
    hcuts.few rfl []
  obtain ⟨metadata, hsent⟩ := hcuts.sent_eq hput (by omega) hbuf
  obtain ⟨chunk, hchunk, -, hlength⟩ := hkeeps _ _ _ _ _ hcuts hput 0 (by omega) buf hbuf
  rw [hsent] at hchunk
  have hsame := congrArg asMessageChunk (Option.some.inj hchunk)
  rw [asMessageChunk_chunkEnvelope, asMessageChunk_chunkEnvelope] at hsame
  obtain rfl := Option.some.inj hsame
  have hzero : buf.bytesWritten % 2 ^ 32 = buf.bytesWritten := hlength
  omega

/-- The cast keeps the lengths exactly when chunking is off or the chunk size fits
    into 32 bits. -/
theorem keepsLengths_iff (config : ChunkingConfig) :
    KeepsLengths config ↔ config.enabled = false ∨ config.chunkSize < 2 ^ 32 := by
  constructor
  · intro hkeeps
    by_contra hnot
    rw [not_or, Bool.not_eq_false, Nat.not_lt] at hnot
    exact not_keepsLengths hnot.1 hnot.2 hkeeps
  · rintro (hdisabled | hlt)
    · intro envelope content mb sent sent' hcuts
      exact absurd (hdisabled.symm.trans hcuts.enabled) Bool.false_ne_true
    · exact keepsLengths_of_lt hlt

end Arras4Core.Chunking
