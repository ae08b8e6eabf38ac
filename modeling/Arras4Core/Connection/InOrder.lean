/-
  Arras4Core.Connection.InOrder

  What comes out of a channel is what was put into it: every message once, whole and
  in order, up to where the connection broke.

  The invariant (`Aligned`) accounts for every byte between the two ends.  The bytes
  that can be read, those on the way and those that were lost are the frames of the
  chunks still missing of the message that is being collected, then the frames of the
  messages after it.  A pass takes one frame off the front.

  Main result: `delivers_inOrder`.
-/

import Arras4Core.Connection.Pieces

namespace Arras4Core.Connection

open Arras4Core.Lib
open Arras4Core.Api (Exception ClassID)
open Arras4Core.Chunking (ChunkingConfig ContentRegistry MessageChunk ChunkableMessage UnchunkerMap
  Arrival Collected SameChunks chunkEnvelope missing)
open Arras4Core.Message (Envelope MessageReader MessageWriter)
open Arras4Core.Network (Bytes Buffer frame maxFrameLength)

variable {mConfig : ChunkingConfig} {registry : ContentRegistry} {consumes : ClassID → Bool}

/-! ## The chunks of a message -/

theorem data_length_lt (m : ChunkableMessage mConfig registry) : m.data.length < 2 ^ 64 := by
  have hcount := m.chunkCount_le
  have hsize := m.chunkSize_lt
  have hpos := mConfig.chunkSize_pos
  have hlt : m.data.length + (mConfig.chunkSize - 1) < 65536 * mConfig.chunkSize :=
    Nat.lt_mul_of_div_lt (by omega) hpos
  omega

/-- The fields of a chunk are in their ranges. -/
theorem fits_of_mem (m : ChunkableMessage mConfig registry)
    (hname : m.metadata.mRoutingName.length < 2 ^ 16) {chunk : MessageChunk}
    (hchunk : chunk ∈ m.chunks) : chunk.Fits := by
  obtain ⟨i, hi⟩ := List.mem_iff_getElem?.mp hchunk
  obtain ⟨hlt, hnumber, hindex, -, hsize, -, -⟩ := m.chunks_getElem hi
  have hcount := m.numChunks_le
  have hdata := data_length_lt m
  rw [ChunkableMessage.chunks, List.getElem?_mapIdx, Option.map_eq_some_iff] at hi
  obtain ⟨buf, hbuf, rfl⟩ := hi
  have hwritten := m.split_fixed.written_length_le (List.mem_of_getElem? hbuf)
  have hchunkSize := m.chunkSize_lt
  rw [Buffer.written_length] at hwritten
  have hlen : buf.bytesWritten % 2 ^ 32 = buf.bytesWritten := Nat.mod_eq_of_lt (by omega)
  exact
    { protocolVersion := rfl
      chunkingMethod := Nat.pow_pos (by decide)
      numberOfChunks := by rw [hnumber]; omega
      chunkIndex := by rw [hindex]; omega
      offset := Nat.mod_lt _ (by decide)
      unchunkedSize := by rw [hsize]; omega
      routingName := Nat.lt_trans hname (by decide)
      payloadLength := Nat.mod_lt _ (by decide)
      payload := by
        show (buf.mData.take (buf.bytesWritten % 2 ^ 32)).length = buf.bytesWritten % 2 ^ 32
        rw [hlen]
        exact buf.written_length }

theorem chunks_ne_nil (m : ChunkableMessage mConfig registry) : m.chunks ≠ [] := by
  intro hnil
  have hlen := m.chunks_length
  have hpos := m.numChunks_pos
  rw [hnil, List.length_nil] at hlen
  omega

/-- A message is collected from nothing. -/
theorem collected_arrivals (m : ChunkableMessage mConfig registry) :
    Collected [m] m.arrivals ∅ := by
  have hothers : ∀ env ∈ ([] : List Envelope), env.classId ≠ MessageChunk.ID := fun _ h =>
    absurd h List.not_mem_nil
  have hperm : m.arrivals.Perm (Chunking.allArrivals [m] [] hothers) := by
    simp [Chunking.allArrivals, Chunking.otherArrivals]
  refine Collected.start ?_ hperm
  rw [List.map_singleton]
  exact List.nodup_singleton _

/-- Only what the map holds matters. -/
theorem collected_congr {messages : List (ChunkableMessage mConfig registry)}
    {later : List (Arrival mConfig registry)} {mUnchunkers mUnchunkers' : UnchunkerMap}
    (h : Collected messages later mUnchunkers)
    (heq : ∀ id : Api.UUID, mUnchunkers'[id]? = mUnchunkers[id]?) :
    Collected messages later mUnchunkers' where
  known := h.known
  distinct := h.distinct
  nodup := h.nodup
  entry_eq m hm := by rw [heq, h.entry_eq m hm]
  others_eq id hid := by rw [heq, h.others_eq id hid]

/-- With all chunks of a message received, nothing is left of it. -/
theorem collected_nil {m : ChunkableMessage mConfig registry} {mUnchunkers : UnchunkerMap}
    (h : Collected [m] [] mUnchunkers) : Collected [] ([] : List (Arrival mConfig registry))
      mUnchunkers where
  known _ _ _ _ hmem := absurd hmem List.not_mem_nil
  distinct := List.nodup_nil
  nodup := h.nodup
  entry_eq _ hm := absurd hm List.not_mem_nil
  others_eq id _ := by
    have hempty := Std.TreeMap.isEmpty_iff_forall_not_mem.mp h.isEmpty id
    exact Std.TreeMap.getElem?_eq_none hempty

/-- As long as chunks of the message are to come, one of them is missing. -/
theorem missing_ne_nil {m : ChunkableMessage mConfig registry}
    {later : List (Arrival mConfig registry)}
    (hall : ∀ a ∈ later, ∃ i c h, a = Arrival.chunk m i c h) (hne : later ≠ []) :
    missing m.instanceId later ≠ [] := by
  cases later with
  | nil => exact absurd rfl hne
  | cons a later =>
    obtain ⟨i, c, h, rfl⟩ := hall a List.mem_cons_self
    rw [missing, if_pos rfl]
    exact List.cons_ne_nil _ _

/-! ## The invariant -/

variable (mConfig registry) in
/-- Where the messages are. -/
structure Way where
  /-- come out at the other end -/
  done : List Envelope
  /-- begun to be collected -/
  current : Option (ChunkableMessage mConfig registry)
  /-- its chunks that are to come -/
  later : List (Arrival mConfig registry)
  /-- written, and not begun -/
  waiting : List Envelope
  /-- the message in which the connection broke, if it broke in one -/
  cut : List Envelope
  /-- put after the connection broke -/
  dropped : List Envelope
  /-- the bytes that the connection lost -/
  lost : Bytes

namespace Way

/-- The messages that have begun to be written and have not come out. -/
def remaining (way : Way mConfig registry) : List Envelope :=
  (way.current.map ChunkableMessage.envelope).toList ++ way.waiting

/-- Their frames, from the next one on. -/
def bytes (way : Way mConfig registry) : Bytes :=
  frames (way.later.map Arrival.envelope) ++ frames (way.waiting.flatMap (handedOn mConfig))

end Way

variable (consumes) in
/-- The account of a channel. -/
structure Aligned (s : Channel) (way : Way mConfig registry) : Prop where
  delivered : List.Forall₂ (Delivers mConfig registry consumes) way.done s.received
  order : ∃ carried, s.put = carried ++ way.dropped ∧ way.done ++ way.remaining = carried ++ way.cut
  bytes : s.mReader.stream ++ (s.wire ++ way.lost) = way.bytes
  unbroken : s.broken = false → way.dropped = [] ∧ way.cut = [] ∧ way.lost = []
  cut : way.cut ≠ [] → way.lost ≠ []
  cut_le : way.cut.length ≤ 1
  waiting : ∀ env ∈ way.waiting, Sendable mConfig registry env ∧
    ∀ piece ∈ handedOn mConfig env, piece.outcome = .ok ()
  later : ∀ a ∈ way.later, a.envelope.outcome = .ok () ∧
    ∀ m ∈ way.current, ∃ i c h, a = Arrival.chunk m i c h
  begun : way.current = none ↔ way.later = []
  named : ∀ m ∈ way.current, m.metadata.mRoutingName.length < 2 ^ 16
  collected : ∃ mUnchunkers, Collected way.current.toList way.later mUnchunkers ∧
    SameChunks mUnchunkers s.mUnchunkers

namespace Aligned

variable {s : Channel} {way : Way mConfig registry}

/-- With no message on its way there are no bytes. -/
theorem bytes_eq_nil (h : Aligned consumes s way) (hnone : way.remaining = []) :
    way.bytes = [] := by
  obtain ⟨hcurrent, hwaiting⟩ := List.append_eq_nil_iff.mp hnone
  have hnocurrent : way.current = none := by
    cases hcur : way.current with
    | none => rfl
    | some m => rw [hcur] at hcurrent; cases hcurrent
  have hlater := h.begun.mp hnocurrent
  rw [Way.bytes, hlater, hwaiting]
  rfl

/-- What has come out is among what was put. -/
theorem done_prefix (h : Aligned consumes s way) : ∃ rest, s.put = way.done ++ rest ∧
    (s.broken = false → rest = way.remaining) := by
  obtain ⟨carried, hput, horder⟩ := h.order
  have hle := h.cut_le
  by_cases hcut : way.cut = []
  · rw [hcut, List.append_nil] at horder
    refine ⟨way.remaining ++ way.dropped, ?_, fun hbroken => ?_⟩
    · rw [hput, ← horder, List.append_assoc]
    · rw [(h.unbroken hbroken).1, List.append_nil]
  · -- the message that was cut has not come out: some of its bytes are lost
    have hremaining : way.remaining ≠ [] := by
      intro hnil
      have hbytes := h.bytes
      rw [h.bytes_eq_nil hnil] at hbytes
      have hlost := (List.append_eq_nil_iff.mp (List.append_eq_nil_iff.mp hbytes).2).2
      exact h.cut hcut hlost
    have hshort : way.done.length ≤ carried.length := by
      have hlen := congrArg List.length horder
      have hpos := List.length_pos_iff.mpr hremaining
      simp only [List.length_append] at hlen
      omega
    have hprefix : way.done <+: carried :=
      List.prefix_of_prefix_length_le ⟨_, horder⟩ ⟨_, rfl⟩ hshort
    obtain ⟨rest, rfl⟩ := hprefix
    refine ⟨rest ++ way.dropped, ?_, fun hbroken => absurd (h.unbroken hbroken).2.1 hcut⟩
    rw [hput, List.append_assoc]

/-! ## The sending end -/

/-- The part of the account that the sending end has no part in. -/
theorem of_written (h : Aligned consumes s way) (s' : Channel)
    (waiting cut dropped : List Envelope) (lost : Bytes) (hreader : s'.mReader = s.mReader)
    (hunchunkers : s'.mUnchunkers = s.mUnchunkers)
    (hreceived : s'.received = s.received)
    (horder : ∃ carried, s'.put = carried ++ dropped ∧
      way.done ++ (way.remaining ++ waiting) = carried ++ cut)
    (hbytes : s'.wire ++ lost = s.wire ++ way.lost ++ frames (waiting.flatMap (handedOn mConfig)))
    (hunbroken : s'.broken = false → dropped = [] ∧ cut = [] ∧ lost = [])
    (hcut : cut ≠ [] → lost ≠ []) (hcut_le : cut.length ≤ 1)
    (hwaiting : ∀ env ∈ waiting, Sendable mConfig registry env ∧
      ∀ piece ∈ handedOn mConfig env, piece.outcome = .ok ()) :
    Aligned consumes s' { way with waiting := way.waiting ++ waiting, cut, dropped, lost } where
  delivered := by rw [hreceived]; exact h.delivered
  order := by
    obtain ⟨carried, hput, hway⟩ := horder
    refine ⟨carried, hput, ?_⟩
    rw [← hway, Way.remaining, Way.remaining, List.append_assoc]
  bytes := by
    rw [hreader, hbytes, ← List.append_assoc, h.bytes]
    simp only [Way.bytes, List.flatMap_append, frames_append, List.append_assoc]
  unbroken := hunbroken
  cut := hcut
  cut_le := hcut_le
  waiting env henv := by
    rcases List.mem_append.mp henv with henv | henv
    · exact h.waiting env henv
    · exact hwaiting env henv
  later := h.later
  begun := h.begun
  named := h.named
  collected := by rw [hunchunkers]; exact h.collected

/-- A step at the sending end, or of the connection, that writes no message. -/
theorem of_unwritten (h : Aligned consumes s way) (s' : Channel) (lost : Bytes)
    (hreader : s'.mReader = s.mReader) (hunchunkers : s'.mUnchunkers = s.mUnchunkers)
    (hreceived : s'.received = s.received) (hput : s'.put = s.put)
    (hbytes : s'.wire ++ lost = s.wire ++ way.lost)
    (hunbroken : s'.broken = false → s.broken = false ∧ lost = [])
    (hlost : way.lost ≠ [] → lost ≠ []) :
    Aligned consumes s' { way with lost := lost } := by
  obtain ⟨carried, hcarried, horder⟩ := h.order
  have hsame := h.of_written s' [] way.cut way.dropped lost hreader hunchunkers hreceived
    ⟨carried, by rw [hput, hcarried], by rw [List.append_nil, horder]⟩
    (by rw [hbytes]; exact (List.append_nil _).symm)
    (fun hbroken => ⟨(h.unbroken (hunbroken hbroken).1).1, (h.unbroken (hunbroken hbroken).1).2.1,
      (hunbroken hbroken).2⟩)
    (fun hcut => hlost (h.cut hcut)) h.cut_le
    (fun env henv => absurd henv List.not_mem_nil)
  rwa [List.append_nil] at hsame

theorem written_eq {w : MessageWriter} {data : Bytes}
    (hstream : w.stream = s.mWriter.stream ++ data) : s.written w = data := by
  rw [Channel.written, hstream, List.drop_left]

theorem putEnvelope (h : Aligned consumes s way) {envelope : Envelope}
    (hsendable : Sendable mConfig registry envelope) :
    ∃ way' : Way mConfig registry, Aligned consumes (s.putEnvelope mConfig envelope).2 way' := by
  unfold Channel.putEnvelope
  split
  · exact ⟨_, h.of_unwritten _ way.lost rfl rfl rfl rfl rfl
      (fun hb => ⟨hb, (h.unbroken hb).2.2⟩) id⟩
  · rcases putThrough_outcome hsendable s.mWriter with
      ⟨w, hput, hsent, hstream⟩ | ⟨e, w, hput, hstream⟩
    · rw [hput]
      obtain ⟨carried, hcarried, horder⟩ := h.order
      cases hbroken : s.broken with
      | true =>
        -- the bytes go nowhere
        have hbrokenWire : s.onWire (s.written w) = s.wire := by rw [Channel.onWire, hbroken]; rfl
        have hsame := h.of_written
          { s with mWriter := w, wire := s.onWire (s.written w), put := s.put ++ [envelope] }
          [] way.cut (way.dropped ++ [envelope]) way.lost rfl rfl rfl
          ⟨carried, by rw [hcarried, List.append_assoc], by rw [List.append_nil, horder]⟩
          (by
            show s.onWire (s.written w) ++ way.lost = _
            rw [hbrokenWire]
            exact (List.append_nil _).symm)
          (fun hb => absurd (hbroken.symm.trans hb) (by decide)) h.cut h.cut_le
          (fun env henv => absurd henv List.not_mem_nil)
        rw [hbroken] at hsame
        exact ⟨_, hsame⟩
      | false =>
        obtain ⟨hdropped, hcut, hlost⟩ := h.unbroken hbroken
        rw [hdropped, List.append_nil] at hcarried
        rw [hcut, List.append_nil] at horder
        have hwire : s.onWire (s.written w) = s.wire ++ frames (handedOn mConfig envelope) := by
          rw [Channel.onWire, hbroken, written_eq hstream]
          rfl
        have hnext := h.of_written
          { s with mWriter := w, wire := s.onWire (s.written w), put := s.put ++ [envelope] }
          [envelope] [] [] [] rfl rfl rfl
          ⟨carried ++ [envelope], by rw [hcarried, List.append_nil], by
            rw [← List.append_assoc, horder, List.append_nil]⟩
          (by
            show s.onWire (s.written w) ++ [] = _
            rw [hwire, hlost, List.append_nil, List.append_nil, List.flatMap_singleton])
          (fun _ => ⟨rfl, rfl, rfl⟩) (fun hne => absurd rfl hne) (Nat.zero_le _)
          (fun env henv => by rw [List.mem_singleton.mp henv]; exact ⟨hsendable, hsent⟩)
        rw [hbroken] at hnext
        exact ⟨_, hnext⟩
    · rw [hput]
      have hnothing : s.written w = [] :=
        written_eq (hstream.trans (List.append_nil _).symm)
      have hwire : s.onWire (s.written w) = s.wire := by
        rw [Channel.onWire, hnothing, List.append_nil, ite_self]
      refine ⟨_, h.of_unwritten _ way.lost rfl rfl rfl rfl ?_
        (fun hb => ⟨hb, (h.unbroken hb).2.2⟩) id⟩
      show s.onWire (s.written w) ++ way.lost = _
      rw [hwire]

theorem putBreaks (h : Aligned consumes s way) {envelope : Envelope} {n : Nat} {s' : Channel}
    (hsendable : Sendable mConfig registry envelope)
    (hs : s.putBreaks mConfig envelope n = some s') :
    ∃ way' : Way mConfig registry, Aligned consumes s' way' := by
  unfold Channel.putBreaks at hs
  rcases putThrough_outcome hsendable s.mWriter with
    ⟨w, hput, hsent, hstream⟩ | ⟨e, w, hput, hstream⟩
  · rw [hput] at hs
    obtain ⟨hn, rfl⟩ := of_onlyIf hs
    cases hbroken : s.broken with
    | true =>
      refine ⟨_, h.of_unwritten _ way.lost rfl rfl rfl rfl ?_ nofun id⟩
      show s.onWire _ ++ way.lost = _
      rw [Channel.onWire, hbroken]
      rfl
    | false =>
      -- the frames are on their way up to the byte where the connection breaks
      obtain ⟨carried, hcarried, horder⟩ := h.order
      obtain ⟨hdropped, hcut, hlost⟩ := h.unbroken hbroken
      rw [hdropped, List.append_nil] at hcarried
      rw [hcut, List.append_nil] at horder
      refine ⟨_, h.of_written _ [envelope] [envelope] [] ((s.written w).drop n) rfl rfl rfl
        ⟨carried, by rw [hcarried, List.append_nil], by rw [← List.append_assoc, horder]⟩
        ?_ nofun (fun _ => ?_) (Nat.le_refl _)
        (fun env henv => by rw [List.mem_singleton.mp henv]; exact ⟨hsendable, hsent⟩)⟩
      · show s.onWire _ ++ _ = _
        rw [Channel.onWire, hbroken, if_neg (by decide), List.append_assoc, List.take_append_drop,
          hlost, List.append_nil, List.flatMap_singleton, written_eq hstream]
      · exact fun hnil => absurd (List.drop_eq_nil_iff.mp hnil) (Nat.not_le.mpr hn)
  · -- nothing was written that could be cut
    rw [hput] at hs
    obtain ⟨hn, -⟩ := of_onlyIf hs
    rw [written_eq (hstream.trans (List.append_nil _).symm)] at hn
    exact absurd hn (Nat.not_lt_zero n)

/-! ## The connection -/

theorem transfers (h : Aligned consumes s way) (n : Nat) :
    Aligned consumes
      { s with mReader := arrive (s.wire.take n) s.mReader, wire := s.wire.drop n } way := by
  have hbytes : (arrive (s.wire.take n) s.mReader).stream ++ (s.wire.drop n ++ way.lost)
      = way.bytes := by
    rw [stream_arrive, List.append_assoc, ← List.append_assoc (s.wire.take n),
      List.take_append_drop]
    exact h.bytes
  exact { h with bytes := hbytes }

theorem breaks (h : Aligned consumes s way) (n : Nat) :
    ∃ way' : Way mConfig registry,
      Aligned consumes { s with wire := s.wire.take n, broken := true } way' := by
  refine ⟨_, h.of_unwritten _ (s.wire.drop n ++ way.lost) rfl rfl rfl rfl ?_ nofun ?_⟩
  · rw [← List.append_assoc, List.take_append_drop]
  · intro hne hnil
    exact hne (List.append_eq_nil_iff.mp hnil).2

/-- Nothing more arrives: what the reader had of a frame is lost with the rest. -/
theorem disconnects (h : Aligned consumes s way) (hbroken : s.broken = true) (hwire : s.wire = [])
    (failures : List Exception) :
    ∃ way' : Way mConfig registry,
      Aligned consumes { s with mReader := exhaust s.mReader, failures := failures } way' := by
  have hbytes : (exhaust s.mReader).stream ++ (s.wire ++ (s.mReader.stream ++ way.lost))
      = way.bytes := by
    rw [stream_exhaust, ← h.bytes, hwire]
    rfl
  exact ⟨{ way with lost := s.mReader.stream ++ way.lost },
    { h with
      bytes := hbytes
      unbroken := fun hb => absurd (hbroken.symm.trans hb) (by decide)
      cut := fun hcut hnil => h.cut hcut (List.append_eq_nil_iff.mp hnil).2 }⟩

/-! ## The receiving end -/

/-- A pass over an envelope that no filter takes, as the unchunker ends. -/
theorem pass_of_receive {envelope : Envelope} {r : MessageReader} {x : Option Envelope}
    (hread : MessageReader.read (factories registry) true s.mReader = .ok envelope r)
    (hkept : consumes envelope.classId = false)
    (hreceive : (Chunking.receive registry envelope s.mUnchunkers).1 = .ok x) :
    s.pass registry consumes = (x.map .returned, { s with
      mReader := r
      mUnchunkers := (Chunking.receive registry envelope s.mUnchunkers).2 }) := by
  unfold Channel.pass
  rw [hread]
  simp only [hkept, Bool.false_eq_true, if_false]
  generalize Chunking.receive registry envelope s.mUnchunkers = result at hreceive
  obtain ⟨outcome, mUnchunkers⟩ := result
  obtain rfl : outcome = .ok x := hreceive
  cases x with
  | none => rfl
  | some env => rfl

/-- A pass over an envelope that is no chunk and that no filter takes. -/
theorem pass_of_classId_ne {envelope : Envelope} {r : MessageReader}
    (hread : MessageReader.read (factories registry) true s.mReader = .ok envelope r)
    (hkept : consumes envelope.classId = false) (hclass : envelope.classId ≠ MessageChunk.ID) :
    s.pass registry consumes = (some (.returned envelope), { s with mReader := r }) := by
  have hreceive : Chunking.receive registry envelope s.mUnchunkers
      = (.ok (some envelope), s.mUnchunkers) := by
    rw [Chunking.receive, if_pos hclass]
  rw [pass_of_receive (s := s) hread hkept (congrArg Prod.fst hreceive), hreceive]
  rfl

/-- The frame of a message that is not chunked and that no filter takes is there: a pass
    returns the message. -/
theorem pass_returned {envelope decoded : Envelope} {rest : Bytes}
    (hsent : envelope.outcome = .ok ())
    (hstream : s.mReader.stream = frame envelope.bytes ++ rest)
    (hdecodes : Decodes registry envelope (.ok decoded))
    (hclass : decoded.classId ≠ MessageChunk.ID) (hkept : consumes decoded.classId = false) :
    ∃ received s', s.pass registry consumes = (some (.returned received), s') := by
  obtain ⟨outcome, r, hread, hread', -⟩ := read_sent registry hsent hstream
  cases outcome with
  | error e => cases hdecodes.map_compact hread'
  | ok received =>
    have hid := hdecodes.classId_eq hread'
    refine ⟨received, _, pass_of_classId_ne hread ?_ ?_⟩
    · rw [hid]
      exact hkept
    · rw [hid]
      exact hclass

/-- A chunked message is begun: its chunks are the next to come. -/
theorem begins (h : Aligned consumes s way) (hnone : way.current = none)
    {m : ChunkableMessage mConfig registry} {waiting : List Envelope}
    (hwaiting : way.waiting = m.envelope :: waiting) (henabled : mConfig.enabled = true)
    (hname : m.metadata.mRoutingName.length < 2 ^ 16)
    (hsent : ∀ piece ∈ m.chunkEnvelopes, piece.outcome = .ok ()) :
    Aligned consumes s
      { way with current := some m, later := m.arrivals, waiting := waiting } := by
  have hlater := h.begun.mp hnone
  -- nothing is collected between two messages
  obtain ⟨mUnchunkers, hcollected, hsame⟩ := h.collected
  rw [hnone, hlater] at hcollected
  have hempty : ∀ id : Api.UUID, mUnchunkers[id]? = none := fun id =>
    hcollected.others_eq id fun m hm => absurd hm List.not_mem_nil
  have harrivals : m.arrivals ≠ [] := by
    intro hnil
    have hmap := m.arrivals_envelope
    rw [hnil, List.map_nil, ChunkableMessage.chunkEnvelopes] at hmap
    exact chunks_ne_nil m (List.map_eq_nil_iff.mp hmap.symm)
  have horder : ∃ carried, s.put = carried ++ way.dropped ∧
      way.done ++ ([m.envelope] ++ waiting) = carried ++ way.cut := by
    obtain ⟨carried, hput, horder⟩ := h.order
    refine ⟨carried, hput, ?_⟩
    rw [← horder, Way.remaining, hnone, hwaiting]
    rfl
  have hbytes : s.mReader.stream ++ (s.wire ++ way.lost)
      = frames (m.arrivals.map Arrival.envelope) ++
        frames (waiting.flatMap (handedOn mConfig)) := by
    rw [h.bytes, Way.bytes, hlater, hwaiting, List.flatMap_cons, frames_append,
      handedOn_chunked m henabled, m.arrivals_envelope]
    rfl
  exact
    { h with
      order := horder
      bytes := hbytes
      waiting := fun env henv => h.waiting env (hwaiting ▸ List.mem_cons_of_mem _ henv)
      later := fun a ha => by
        refine ⟨hsent _ ?_, fun m' hm' => ?_⟩
        · rw [← m.arrivals_envelope]
          exact List.mem_map_of_mem ha
        · obtain rfl := Option.mem_some_iff.mp hm'
          obtain ⟨i, hi, rfl⟩ := List.mem_pmap.mp ha
          exact ⟨i, _, _, rfl⟩
      begun := ⟨fun hsome => absurd hsome (Option.some_ne_none m),
        fun hnil => absurd hnil harrivals⟩
      named := fun m' hm' => by
        obtain rfl := Option.mem_some_iff.mp hm'
        exact hname
      collected := ⟨mUnchunkers, collected_congr (collected_arrivals m) (fun id => by
        rw [hempty, Std.TreeMap.getElem?_emptyc]), hsame⟩ }

/-- A pass takes a chunk off the front. -/
theorem pass_chunk (h : Aligned consumes s way) (hconsumes : consumes MessageChunk.ID = false)
    {m : ChunkableMessage mConfig registry} (hcurrent : way.current = some m)
    (hframe : hasFrame s.mReader.stream = true) :
    ∃ way' : Way mConfig registry,
      Aligned consumes (Channel.record (s.pass registry consumes)) way' ∧
        way'.bytes.length < way.bytes.length := by
  have hmem : m ∈ way.current := Option.mem_def.mpr hcurrent
  cases hlater : way.later with
  | nil => exact absurd (hcurrent.symm.trans (h.begun.mpr hlater)) (Option.some_ne_none m)
  | cons a later =>
    obtain ⟨hsent, hchunk⟩ := h.later a (hlater ▸ List.mem_cons_self)
    obtain ⟨i, c, hc, rfl⟩ := hchunk m hmem
    have hrest : ∀ a ∈ later, a.envelope.outcome = .ok () ∧
        ∀ m ∈ way.current, ∃ i c h, a = Arrival.chunk m i c h :=
      fun a ha => h.later a (hlater ▸ List.mem_cons_of_mem _ ha)
    -- the frame of the chunk is what can be read
    have hbytes := h.bytes
    rw [Way.bytes, hlater, List.map_cons, frames_cons, List.append_assoc] at hbytes
    obtain ⟨rest, hstream, hrestBytes⟩ :=
      of_hasFrame (Envelope.length_le_of_sent hsent) hbytes hframe
    obtain ⟨outcome, r, hread, hdecodes, hr⟩ := read_sent registry hsent hstream
    have hchunkDecodes := decodes_chunk registry m.envelope rfl
      (h.named m hmem) (fits_of_mem m (h.named m hmem) (List.mem_of_getElem? hc)) hsent
    obtain rfl := hchunkDecodes.object rfl hdecodes
    -- the unchunker takes the compact copy as it would take the chunk
    obtain ⟨mUnchunkers, hcollected, hsame⟩ := h.collected
    rw [hcurrent, hlater] at hcollected
    obtain ⟨mUnchunkers', hcollected', hreceive⟩ := hcollected.receive_chunk
    obtain ⟨hresult, hsame'⟩ := hsame.receive registry m.envelope c
    rw [hreceive] at hresult hsame'
    have hpass := pass_of_receive (s := s) hread hconsumes hresult
    have hshort : (frames (later.map Arrival.envelope) ++
        frames (way.waiting.flatMap (handedOn mConfig))).length < way.bytes.length := by
      have hpos := List.length_pos_iff.mpr (frame_ne_nil (Arrival.chunk m i c hc).envelope.bytes)
      simp only [Way.bytes, hlater, List.map_cons, frames_cons, List.length_append]
      omega
    have hleft : r.stream ++ (s.wire ++ way.lost) = frames (later.map Arrival.envelope) ++
        frames (way.waiting.flatMap (handedOn mConfig)) := by
      rw [hr]
      exact hrestBytes.symm
    have hdone : ∃ carried, s.put = carried ++ way.dropped ∧
        way.done ++ (m.envelope :: way.waiting) = carried ++ way.cut := by
      have horder := h.order
      rw [Way.remaining, hcurrent] at horder
      exact horder
    by_cases hlast : later = []
    · -- the message is whole
      have hnone : missing m.instanceId later = [] := by rw [hlast]; rfl
      rw [if_pos hnone] at hpass
      rw [hpass]
      refine ⟨{ way with
        done := way.done ++ [m.envelope], current := none, later := [] }, ?_, ?_⟩
      · rw [hlast] at hcollected' hleft
        exact
          { h with
            delivered := List.rel_append h.delivered (.cons (.unchunked m) .nil)
            order := by
              obtain ⟨carried, hput, hway⟩ := hdone
              refine ⟨carried, hput, ?_⟩
              rw [← hway, Way.remaining, List.append_assoc]
              rfl
            bytes := hleft
            later := fun a ha => absurd ha List.not_mem_nil
            begun := ⟨fun _ => rfl, fun _ => rfl⟩
            named := fun m' hm' => absurd hm' (Option.not_mem_none m')
            collected := ⟨mUnchunkers', collected_nil hcollected', hsame'⟩ }
      · rw [hlast] at hshort
        exact hshort
    · -- chunks are still to come, and nothing comes out
      have hsome : missing m.instanceId later ≠ [] :=
        missing_ne_nil (fun a ha => (hrest a ha).2 m hmem) hlast
      rw [if_neg hsome] at hpass
      rw [hpass]
      refine ⟨{ way with later := later }, ?_, hshort⟩
      exact
        { h with
          delivered := by
            show List.Forall₂ _ _ (s.received ++ [])
            rw [List.append_nil]
            exact h.delivered
          bytes := hleft
          later := hrest
          begun := by
            rw [hcurrent]
            exact ⟨fun hsome => absurd hsome (Option.some_ne_none m), fun hnil => absurd hnil hlast⟩
          collected := ⟨mUnchunkers', by rw [hcurrent]; exact hcollected', hsame'⟩ }

/-- The next message has come out, and its frame is gone. -/
theorem of_received (h : Aligned consumes s way) (hnone : way.current = none) {env : Envelope}
    {waiting : List Envelope} (hwaiting : way.waiting = env :: waiting)
    (hwhole : IsWhole mConfig env) {result : Received}
    (hdelivers : Delivers mConfig registry consumes env result) {r : MessageReader}
    (hstream : r.stream ++ (s.wire ++ way.lost) = frames (waiting.flatMap (handedOn mConfig))) :
    ∃ way' : Way mConfig registry,
      Aligned consumes { s with mReader := r, received := s.received ++ [result] } way' ∧
        way'.bytes.length < way.bytes.length := by
  have hlater := h.begun.mp hnone
  have hwayBytes : way.bytes = frame env.bytes ++ frames (waiting.flatMap (handedOn mConfig)) := by
    rw [Way.bytes, hlater, hwaiting, List.flatMap_cons, handedOn_whole hwhole]
    rfl
  have hbytes : ({ way with done := way.done ++ [env], waiting := waiting } :
      Way mConfig registry).bytes = frames (waiting.flatMap (handedOn mConfig)) := by
    rw [Way.bytes, hlater]
    rfl
  refine ⟨{ way with done := way.done ++ [env], waiting := waiting }, ?_, ?_⟩
  · exact
      { h with
        delivered := List.rel_append h.delivered (.cons hdelivers .nil)
        order := by
          obtain ⟨carried, hput, horder⟩ := h.order
          refine ⟨carried, hput, ?_⟩
          rw [← horder, Way.remaining, Way.remaining, hnone, hwaiting, List.append_assoc]
          rfl
        bytes := by
          rw [hbytes]
          exact hstream
        waiting := fun e he => h.waiting e (hwaiting ▸ List.mem_cons_of_mem _ he) }
  · have hpos := List.length_pos_iff.mpr (frame_ne_nil env.bytes)
    rw [hbytes, hwayBytes, List.length_append]
    omega

/-- A pass takes a message that is not chunked off the front. -/
theorem pass_whole (h : Aligned consumes s way) (hnone : way.current = none) {env : Envelope}
    {waiting : List Envelope} (hwaiting : way.waiting = env :: waiting)
    (hwhole : IsWhole mConfig env)
    (hclass : ∀ env', Decodes registry env (.ok env') → env'.classId ≠ MessageChunk.ID)
    (hframe : hasFrame s.mReader.stream = true) :
    ∃ way' : Way mConfig registry,
      Aligned consumes (Channel.record (s.pass registry consumes)) way' ∧
        way'.bytes.length < way.bytes.length := by
  have hsent : env.outcome = .ok () := by
    have hpieces := (h.waiting env (hwaiting ▸ List.mem_cons_self)).2
    rw [handedOn_whole hwhole] at hpieces
    exact hpieces env (List.mem_singleton.mpr rfl)
  have hbytes := h.bytes
  rw [Way.bytes, h.begun.mp hnone, hwaiting, List.flatMap_cons, handedOn_whole hwhole,
    List.map_nil, frames_nil, List.nil_append, frames_append, frames_cons, frames_nil,
    List.append_nil] at hbytes
  obtain ⟨rest, hstream, hrestBytes⟩ :=
    of_hasFrame (Envelope.length_le_of_sent hsent) hbytes hframe
  obtain ⟨outcome, r, hread, hdecodes, hr⟩ := read_sent registry hsent hstream
  have hleft : r.stream ++ (s.wire ++ way.lost) = frames (waiting.flatMap (handedOn mConfig)) := by
    rw [hr]
    exact hrestBytes.symm
  -- the reader throws, a filter takes what it returns, or a pass returns it
  cases outcome with
  | error e =>
    have hpass : s.pass registry consumes = (some (.threw e), { s with mReader := r }) := by
      unfold Channel.pass
      rw [hread]
      rfl
    rw [hpass]
    exact h.of_received hnone hwaiting hwhole (.threw hwhole hdecodes) hleft
  | ok env' =>
    cases htaken : consumes env'.classId with
    | true =>
      have hpass : s.pass registry consumes = (some (.consumed env'), { s with mReader := r }) := by
        unfold Channel.pass
        rw [hread, resultOf_ok]
        simp only [htaken, if_true]
      rw [hpass]
      exact h.of_received hnone hwaiting hwhole (.consumed hwhole hdecodes htaken) hleft
    | false =>
      rw [pass_of_classId_ne hread htaken (hclass env' hdecodes)]
      exact h.of_received hnone hwaiting hwhole (.returned hwhole hdecodes htaken) hleft

/-- A pass takes a frame off the front, whatever it is the frame of. -/
theorem passes (h : Aligned consumes s way) (hconsumes : consumes MessageChunk.ID = false)
    (hframe : hasFrame s.mReader.stream = true) :
    ∃ way' : Way mConfig registry,
      Aligned consumes (Channel.record (s.pass registry consumes)) way' ∧
        way'.bytes.length < way.bytes.length := by
  cases hcurrent : way.current with
  | some m => exact h.pass_chunk hconsumes hcurrent hframe
  | none =>
    cases hwaiting : way.waiting with
    | nil =>
      -- there is nothing to read
      have hremaining : way.remaining = [] := by
        rw [Way.remaining, hcurrent, hwaiting]
        rfl
      have hbytes := h.bytes
      rw [h.bytes_eq_nil hremaining] at hbytes
      rw [(List.append_eq_nil_iff.mp hbytes).1, hasFrame_nil] at hframe
      cases hframe
    | cons env waiting =>
      have hsendable := (h.waiting env (hwaiting ▸ List.mem_cons_self)).1
      cases hsendable with
      | whole hwhole hclass => exact h.pass_whole hcurrent hwaiting hwhole hclass hframe
      | chunked m henabled hname hsent =>
        have hbegun := h.begins hcurrent hwaiting henabled hname hsent
        obtain ⟨way', haligned, hshort⟩ := hbegun.pass_chunk hconsumes rfl hframe
        refine ⟨way', haligned, ?_⟩
        -- the bytes are the same, before the message is begun and after
        have hsame := congrArg List.length (hbegun.bytes.symm.trans h.bytes)
        omega

/-- As long as a message is on its way and nothing is lost, the next frame can be read. -/
theorem hasFrame_of_remaining (h : Aligned consumes s way) (hremaining : way.remaining ≠ [])
    (hwire : s.wire = []) (hbroken : s.broken = false) : hasFrame s.mReader.stream = true := by
  obtain ⟨-, -, hlost⟩ := h.unbroken hbroken
  have hbytes := h.bytes
  rw [hwire, hlost, List.append_nil, List.append_nil] at hbytes
  rw [hbytes, Way.bytes]
  cases hlater : way.later with
  | cons a later =>
    have hsent := (h.later a (hlater ▸ List.mem_cons_self)).1
    rw [List.map_cons, frames_cons, List.append_assoc]
    exact hasFrame_frame (Envelope.length_le_of_sent hsent) _
  | nil =>
    have hnone := h.begun.mpr hlater
    cases hwaiting : way.waiting with
    | nil =>
      rw [Way.remaining, hnone, hwaiting] at hremaining
      exact absurd rfl hremaining
    | cons env waiting =>
      obtain ⟨hsendable, hpieces⟩ := h.waiting env (hwaiting ▸ List.mem_cons_self)
      have hne : handedOn mConfig env ≠ [] := by
        cases hsendable with
        | whole hwhole hclass =>
          rw [handedOn_whole hwhole]
          exact List.cons_ne_nil _ _
        | chunked m henabled hname hsent =>
          rw [handedOn_chunked m henabled, ChunkableMessage.chunkEnvelopes]
          exact fun hnil => chunks_ne_nil m (List.map_eq_nil_iff.mp hnil)
      obtain ⟨piece, pieces, hcons⟩ := List.exists_cons_of_ne_nil hne
      rw [List.map_nil, frames_nil, List.nil_append, List.flatMap_cons, hcons, List.cons_append,
        frames_cons]
      exact hasFrame_frame
        (Envelope.length_le_of_sent (hpieces piece (hcons ▸ List.mem_cons_self))) _

end Aligned

/-! ## Every run -/

namespace Channel

/-- A pass changes nothing but the receiving end. -/
theorem pass_kept (registry : ContentRegistry) (consumes : ClassID → Bool) (s : Channel) :
    (record (s.pass registry consumes)).put = s.put ∧
      (record (s.pass registry consumes)).wire = s.wire ∧
      (record (s.pass registry consumes)).broken = s.broken ∧
      (record (s.pass registry consumes)).getShutdown = s.getShutdown := by
  unfold record pass
  cases MessageReader.read (factories registry) true s.mReader with
  | error e r => exact ⟨rfl, rfl, rfl, rfl⟩
  | ok envelope r =>
    dsimp only
    split
    · exact ⟨rfl, rfl, rfl, rfl⟩
    · generalize Chunking.receive registry envelope s.mUnchunkers = result
      obtain ⟨outcome, mUnchunkers⟩ := result
      rcases outcome with e | (_ | whole) <;> exact ⟨rfl, rfl, rfl, rfl⟩

/-- What is put can be sent. -/
def PutsSendable (mConfig : ChunkingConfig) (registry : ContentRegistry) (_ : Channel) :
    Event → Prop
  | .putEnvelope envelope | .putBreaks envelope _ => Sendable mConfig registry envelope
  | _ => True

theorem step_aligned (hconsumes : consumes MessageChunk.ID = false) {s s' : Channel} {e : Event}
    (h : ∃ way : Way mConfig registry, Aligned consumes s way)
    (he : PutsSendable mConfig registry s e)
    (hs : step mConfig registry consumes s e = some s') :
    ∃ way : Way mConfig registry, Aligned consumes s' way := by
  obtain ⟨way, h⟩ := h
  cases e with
  | putEnvelope envelope =>
    cases hs
    exact h.putEnvelope he
  | putBreaks envelope n => exact h.putBreaks he hs
  | putShutdown =>
    cases hs
    exact ⟨way, { h with }⟩
  | transfers n =>
    obtain ⟨-, rfl⟩ := of_onlyIf hs
    exact ⟨way, h.transfers n⟩
  | breaks n =>
    cases hs
    exact h.breaks n
  | passes =>
    obtain ⟨⟨hframe, -⟩, rfl⟩ := of_onlyIf hs
    obtain ⟨way', haligned, -⟩ := h.passes hconsumes hframe
    exact ⟨way', haligned⟩
  | disconnects =>
    obtain ⟨⟨-, -, hbroken, hwire⟩, rfl⟩ := of_onlyIf hs
    exact h.disconnects hbroken hwire _
  | getsShutdown =>
    obtain ⟨-, rfl⟩ := of_onlyIf hs
    exact ⟨way, { h with }⟩
  | getShutdown =>
    cases hs
    exact ⟨way, { h with }⟩

theorem aligned_of_reachable (hconsumes : consumes MessageChunk.ID = false) {s : Channel}
    (h : (system mConfig registry consumes).ReachableWhen (PutsSendable mConfig registry) s) :
    ∃ way : Way mConfig registry, Aligned consumes s way := by
  refine h.invariant ?_ fun s e s' hi he hs => step_aligned hconsumes hi he hs
  rintro s ⟨hs, hstream⟩
  rw [hs] at hstream ⊢
  refine ⟨⟨[], none, [], [], [], [], []⟩, ?_⟩
  exact
    { delivered := .nil
      order := ⟨[], rfl, rfl⟩
      bytes := by rw [hstream]; rfl
      unbroken := fun _ => ⟨rfl, rfl, rfl⟩
      cut := fun hne => absurd rfl hne
      cut_le := Nat.zero_le _
      waiting := fun _ henv => absurd henv List.not_mem_nil
      later := fun _ ha => absurd ha List.not_mem_nil
      begun := ⟨fun _ => rfl, fun _ => rfl⟩
      named := nofun
      collected := ⟨∅, ⟨fun _ _ _ _ hmem => absurd hmem List.not_mem_nil, List.nodup_nil,
        fun _ => List.nodup_nil, fun _ hm => absurd hm List.not_mem_nil,
        fun _ _ => Std.TreeMap.getElem?_emptyc⟩, .empty⟩ }

/-- With everything arrived, passes alone get all of it. -/
theorem drains (hconsumes : consumes MessageChunk.ID = false) {s : Channel}
    {way : Way mConfig registry} (h : Aligned consumes s way) (hwire : s.wire = [])
    (hbroken : s.broken = false) (hopen : s.getShutdown = false) :
    ∃ n s', (system mConfig registry consumes).run s (List.replicate n .passes) = some s' ∧
      List.Forall₂ (Delivers mConfig registry consumes) s.put s'.received := by
  induction hn : way.bytes.length using Nat.strongRecOn generalizing s way with
  | ind n ih =>
    by_cases hremaining : way.remaining = []
    · obtain ⟨rest, hput, hrest⟩ := h.done_prefix
      rw [hrest hbroken, hremaining, List.append_nil] at hput
      exact ⟨0, s, rfl, hput ▸ h.delivered⟩
    · have hframe := h.hasFrame_of_remaining hremaining hwire hbroken
      obtain ⟨way', haligned, hshort⟩ := h.passes hconsumes hframe
      have hkept := pass_kept registry consumes s
      obtain ⟨k, s', hrun, hdelivered⟩ := ih _ (hn ▸ hshort) haligned (hkept.2.1.trans hwire)
        (hkept.2.2.1.trans hbroken) (hkept.2.2.2.trans hopen) rfl
      refine ⟨k + 1, s', ?_, hkept.1 ▸ hdelivered⟩
      have hstep : step mConfig registry consumes s .passes
          = some (record (s.pass registry consumes)) := if_pos ⟨hframe, hopen⟩
      rw [List.replicate_succ, System.run]
      exact (congrArg (Option.bind · _) hstep).trans hrun

/-- **A connection delivers in order.**  In every run in which the messages put are
    `Sendable`, over endpoints that take no chunk from under the unchunker, what the
    passes ended with is, message by message, what a first part of the messages put
    comes out as.  While the connection holds, the rest comes out as well: when its
    bytes have arrived, the next passes of the loop get it. -/
theorem delivers_inOrder (hconsumes : consumes MessageChunk.ID = false) {s : Channel}
    (h : (system mConfig registry consumes).ReachableWhen (PutsSendable mConfig registry) s) :
    (∃ done rest, s.put = done ++ rest ∧
      List.Forall₂ (Delivers mConfig registry consumes) done s.received) ∧
    (s.broken = false → s.getShutdown = false → ∃ n s',
      (system mConfig registry consumes).run s
        (.transfers s.wire.length :: List.replicate n .passes) = some s' ∧
      List.Forall₂ (Delivers mConfig registry consumes) s.put s'.received) := by
  obtain ⟨way, haligned⟩ := aligned_of_reachable hconsumes h
  constructor
  · obtain ⟨rest, hput, -⟩ := haligned.done_prefix
    exact ⟨way.done, rest, hput, haligned.delivered⟩
  · intro hbroken hopen
    have hstep : step mConfig registry consumes s (.transfers s.wire.length)
        = some { s with
            mReader := arrive (s.wire.take s.wire.length) s.mReader
            wire := s.wire.drop s.wire.length } := if_pos (Nat.le_refl _)
    obtain ⟨n, s', hrun, hdelivered⟩ := drains hconsumes (haligned.transfers s.wire.length)
      (List.drop_length ..) hbroken hopen
    refine ⟨n, s', ?_, hdelivered⟩
    rw [System.run]
    exact (congrArg (Option.bind · _) hstep).trans hrun

/-- A call of `putEnvelope` changes nothing but the sending end. -/
theorem putEnvelope_kept (mConfig : ChunkingConfig) (s : Channel) (envelope : Envelope) :
    (s.putEnvelope mConfig envelope).2.broken = s.broken ∧
      (s.putEnvelope mConfig envelope).2.getShutdown = s.getShutdown ∧
      (s.putEnvelope mConfig envelope).2.putShutdown = s.putShutdown := by
  unfold putEnvelope
  split
  · exact ⟨rfl, rfl, rfl⟩
  · split <;> exact ⟨rfl, rfl, rfl⟩

/-- A message is put when the writer sends the pieces that the filter hands on. -/
theorem exists_put {s : Channel}
    (h : (system mConfig registry consumes).ReachableWhen (PutsSendable mConfig registry) s)
    (hopen : s.putShutdown = false) {envelope : Envelope} {pieces : List Envelope}
    (hsendable : Sendable mConfig registry envelope)
    (hhandsOn : Chunking.putEnvelope mConfig envelope [] = .ok ⟨⟩ pieces)
    (hsent : ∀ piece ∈ pieces, piece.outcome = .ok ()) :
    ∃ s', (system mConfig registry consumes).ReachableWhen (PutsSendable mConfig registry) s' ∧
      s'.put = s.put ++ [envelope] ∧ s'.broken = s.broken ∧ s'.getShutdown = s.getShutdown ∧
      s'.putShutdown = s.putShutdown := by
  obtain ⟨w, hwrite, -⟩ := forM_write hsent s.mWriter
  have hthrough : putThrough MessageWriter.write mConfig envelope s.mWriter = .ok ⟨⟩ w := by
    rw [putThrough, hhandsOn]
    exact hwrite
  have hput : (s.putEnvelope mConfig envelope).2.put = s.put ++ [envelope] := by
    unfold putEnvelope
    rw [if_neg (by simp [hopen]), hthrough]
  exact ⟨_, h.next (e := .putEnvelope envelope) hsendable rfl, hput,
    putEnvelope_kept mConfig s envelope⟩

/-- A message of three opaque bytes. -/
def threeBytes : Envelope where
  mContent := some (.opaqueContent ⟨.null, 1, .filled [7, 8, 9]⟩)
  mMetadata := some ⟨.null, .null, {}, [65], false⟩

theorem threeBytes_outcome : threeBytes.outcome = .ok () :=
  Envelope.isSent_iff.mp (by decide +kernel)

theorem isWhole_threeBytes : IsWhole mConfig threeBytes := by
  right
  intro content hcontent
  cases hcontent

/-- To a program that knows no classes. -/
theorem sendable_threeBytes : Sendable mConfig (fun _ _ => none) threeBytes :=
  .of_decodes isWhole_threeBytes
    (decodes_unregistered rfl (by decide) threeBytes_outcome rfl) (by decide)

/-- To a program that reads three bytes for every class. -/
theorem sendable_threeBytes_registered :
    Sendable mConfig Chunking.threeBytesRegistry threeBytes :=
  .of_decodes isWhole_threeBytes
    (decodes_registered rfl (by decide) threeBytes_outcome rfl ⟨by decide, rfl, rfl⟩) (by decide)

theorem twoChunks_outcome :
    ∀ piece ∈ Chunking.threeBytes.chunkEnvelopes, piece.outcome = .ok () := by
  have hall : Chunking.threeBytes.chunkEnvelopes.all Envelope.isSent = true := by decide +kernel
  exact fun piece hpiece => Envelope.isSent_iff.mp (List.all_eq_true.mp hall piece hpiece)

/-- A message of two chunks, to the same program. -/
theorem sendable_twoChunks :
    Sendable Chunking.twoByteChunks Chunking.threeBytesRegistry Chunking.threeBytes.envelope :=
  .chunked Chunking.threeBytes rfl (by decide) twoChunks_outcome

def newChannel : Channel where
  mWriter := { mSink := .new (.new []) }
  mReader := { mSource := .new (.new []) }

/-- A message of two chunks is put, then a short one, and both can be got. -/
theorem delivers_inOrder_twoChunks :
    ∃ s : Channel, s.put = [Chunking.threeBytes.envelope, threeBytes] ∧ ∃ n s',
      (system Chunking.twoByteChunks Chunking.threeBytesRegistry fun _ => false).run s
        (.transfers s.wire.length :: List.replicate n .passes) = some s' ∧
      List.Forall₂ (Delivers Chunking.twoByteChunks Chunking.threeBytesRegistry fun _ => false)
        s.put s'.received := by
  have hshort : ∀ piece ∈ [threeBytes], piece.outcome = .ok () :=
    List.forall_mem_singleton.mpr threeBytes_outcome
  have hnew :
      (system Chunking.twoByteChunks Chunking.threeBytesRegistry fun _ => false).ReachableWhen
        (PutsSendable Chunking.twoByteChunks Chunking.threeBytesRegistry) newChannel :=
    .init ⟨rfl, rfl⟩
  obtain ⟨s₁, hreach₁, hput₁, hbroken₁, hget₁, hputOpen₁⟩ :=
    exists_put hnew rfl sendable_twoChunks (Chunking.threeBytes.putEnvelope_eq rfl [])
      twoChunks_outcome
  obtain ⟨s₂, hreach₂, hput₂, hbroken₂, hget₂, -⟩ :=
    exists_put hreach₁ (hputOpen₁.trans rfl) sendable_threeBytes_registered
      (putEnvelope_whole isWhole_threeBytes []) hshort
  refine ⟨s₂, ?_, (delivers_inOrder rfl hreach₂).2 (hbroken₂.trans hbroken₁) (hget₂.trans hget₁)⟩
  rw [hput₂, hput₁]
  rfl

end Channel

end Arras4Core.Connection
