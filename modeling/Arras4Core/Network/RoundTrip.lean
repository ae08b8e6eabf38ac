/-
  Arras4Core.Network.RoundTrip

  What a `BufferedSink` sends through a `BasicFramingSink`, a `BufferedSource`
  over a `BasicFramingSource` reads back, message by message, in whatever
  pieces the two sides write and read.

  Main result: `readFrames_sendMessages`.  The lemmas about one message hold
  from every state of the sink and the source, so nothing left in a reused
  buffer can reach a later message.
-/

import Arras4Core.Network.Buffered

namespace Arras4Core.Network

open Arras4Core.Lib
open Arras4Core.Api (Exception)

/-! ## Sending -/

/-- A message as it is handed to a sink: the writes, then the appended buffers. -/
structure SentMessage where
  writes : List Bytes
  appends : List Buffer := []

namespace SentMessage

def bytes (m : SentMessage) : Bytes := m.writes.flatten ++ m.appends.flatMap Buffer.contents

end SentMessage

namespace BufferedSink

def sendMessage (m : SentMessage) : EStateM Exception BufferedSink Unit := do
  modify openFrame
  m.writes.forM fun data => modify (write data)
  m.appends.forM fun buf => modify (appendBuffer buf)
  discard closeFrame

def sendMessages (ms : List SentMessage) : EStateM Exception BufferedSink Unit :=
  ms.forM sendMessage

theorem foldl_write (writes : List Bytes) (s : BufferedSink) (h : s.mAppendedBuffers = []) :
    (writes.foldl (fun s data => s.write data) s).contents = s.contents ++ writes.flatten ∧
      (writes.foldl (fun s data => s.write data) s).stream = s.stream := by
  induction writes generalizing s with
  | nil => exact ⟨by simp, rfl⟩
  | cons data writes ih =>
    obtain ⟨hcontents, hstream⟩ := ih (s.write data) h
    rw [List.foldl_cons]
    refine ⟨?_, hstream⟩
    rw [hcontents, contents_write h, List.flatten_cons, List.append_assoc]

theorem foldl_appendBuffer (appends : List Buffer) (s : BufferedSink) :
    (appends.foldl (fun s buf => s.appendBuffer buf) s).contents
        = s.contents ++ appends.flatMap Buffer.contents ∧
      (appends.foldl (fun s buf => s.appendBuffer buf) s).stream = s.stream := by
  induction appends generalizing s with
  | nil => exact ⟨by simp, rfl⟩
  | cons buf appends ih =>
    obtain ⟨hcontents, hstream⟩ := ih (s.appendBuffer buf)
    rw [List.foldl_cons]
    refine ⟨?_, hstream⟩
    rw [hcontents, contents_appendBuffer, List.flatMap_cons, List.append_assoc]

/-- Sending a message puts one complete frame on the stream, whatever an
    earlier message left in the sink. -/
theorem sendMessage_ok (m : SentMessage) (s : BufferedSink)
    (h : m.bytes.length ≤ maxFrameLength) :
    ∃ s', sendMessage m s = .ok () s' ∧ s'.stream = s.stream ++ frame m.bytes := by
  obtain ⟨hcontents₁, hstream₁⟩ := foldl_write m.writes s.openFrame rfl
  obtain ⟨hcontents₂, hstream₂⟩ := foldl_appendBuffer m.appends
    (m.writes.foldl (fun s data => s.write data) s.openFrame)
  have hbytes : (m.appends.foldl (fun s buf => s.appendBuffer buf)
      (m.writes.foldl (fun s data => s.write data) s.openFrame)).contents = m.bytes := by
    rw [hcontents₂, hcontents₁, contents_openFrame, List.nil_append]
    rfl
  obtain ⟨s', hclose, hstream, -⟩ := closeFrame_ok _ (by rw [hbytes]; exact h)
  refine ⟨s', ?_, ?_⟩
  · unfold sendMessage
    rw [modify_bind, bind_of_ok (forM_modify _ _ _), bind_of_ok (forM_modify _ _ _),
      discard_of_ok hclose]
  · rw [hstream, hbytes, hstream₂, hstream₁, stream_openFrame]

theorem sendMessages_ok (ms : List SentMessage) (s : BufferedSink)
    (h : ∀ m ∈ ms, m.bytes.length ≤ maxFrameLength) :
    ∃ s', sendMessages ms s = .ok () s' ∧
      s'.stream = s.stream ++ ms.flatMap fun m => frame m.bytes := by
  induction ms generalizing s with
  | nil => exact ⟨s, rfl, by simp⟩
  | cons m ms ih =>
    obtain ⟨s₁, hsend, hstream₁⟩ := sendMessage_ok m s (h m List.mem_cons_self)
    obtain ⟨s₂, hrest, hstream₂⟩ := ih s₁ fun m' hm' => h m' (List.mem_cons_of_mem m hm')
    refine ⟨s₂, ?_, ?_⟩
    · show (sendMessage m >>= fun _ => sendMessages ms) s = _
      rw [bind_of_ok hsend, hrest]
    · rw [hstream₂, hstream₁, List.flatMap_cons, List.append_assoc]

end BufferedSink

/-! ## Reading -/

/-- What a reader does with one frame: the sizes it reads, and whether it then
    takes the buffer away. -/
structure FrameReads where
  sizes : List Nat
  takesBuffer : Bool := false

namespace BufferedSource

/-- Consecutive reads. -/
def readAll : List Nat → EStateM Exception BufferedSource (List Bytes)
  | [] => pure []
  | length :: lengths => do
    let data ← read length
    let rest ← readAll lengths
    return data :: rest

/-- One frame: its size, and the data of the reads. -/
def readFrame (r : FrameReads) : EStateM Exception BufferedSource (Nat × List Bytes) := do
  let size ← nextFrame
  let data ← readAll r.sizes
  if r.takesBuffer then discard takeBuffer
  modify endFrame
  return (size, data)

def readFrames : List FrameReads → EStateM Exception BufferedSource (List (Nat × List Bytes))
  | [] => pure []
  | r :: rs => do
    let first ← readFrame r
    let rest ← readFrames rs
    return first :: rest

theorem readAll_ok (lengths : List Nat) (s : BufferedSource) (buf : Buffer)
    (hbuf : s.mBuffer = some buf) (h : lengths.sum ≤ buf.contents.length) :
    ∃ s', readAll lengths s = .ok (pieces lengths buf.contents) s' ∧ s'.stream = s.stream := by
  induction lengths generalizing s buf with
  | nil => exact ⟨s, rfl, rfl⟩
  | cons length lengths ih =>
    rw [List.sum_cons] at h
    have hfirst : length ≤ buf.contents.length := by omega
    obtain ⟨s₁, buf₁, hread, hstream₁, hbuf₁, hcontents₁⟩ := read_ok hbuf hfirst
    obtain ⟨s₂, hrest, hstream₂⟩ := ih s₁ buf₁ hbuf₁ (by
      rw [hcontents₁, List.length_drop]; omega)
    refine ⟨s₂, ?_, hstream₂.trans hstream₁⟩
    rw [readAll, bind_of_ok hread, bind_of_ok hrest, pure_run, hcontents₁, pieces]

/-- From any state of the source, the next frame on the stream is read whole
    and the reads return its consecutive bytes. -/
theorem readFrame_ok (r : FrameReads) (s : BufferedSource) {data rest : Bytes}
    (hs : s.stream = frame data ++ rest) (hpos : data ≠ []) (hlen : data.length ≤ maxFrameLength)
    (hsum : r.sizes.sum ≤ data.length) :
    ∃ s', readFrame r s = .ok (data.length, pieces r.sizes data) s' ∧ s'.stream = rest := by
  obtain ⟨s₁, buf, hnext, hstream₁, hbuf, -, hcontents⟩ := nextFrame_ok hs hpos hlen
  obtain ⟨s₂, hread, hstream₂⟩ := readAll_ok r.sizes s₁ buf hbuf (by rw [hcontents]; exact hsum)
  unfold readFrame
  rw [bind_of_ok hnext, bind_of_ok hread, hcontents]
  cases r.takesBuffer with
  | false => exact ⟨s₂.endFrame, rfl, hstream₂.trans hstream₁⟩
  | true => exact ⟨({ s₂ with mBuffer := none } : BufferedSource).endFrame, rfl,
      hstream₂.trans hstream₁⟩

theorem readFrames_ok (ms : List SentMessage) (reads : List FrameReads) (s : BufferedSource)
    {rest : Bytes} (hs : s.stream = (ms.flatMap fun m => frame m.bytes) ++ rest)
    (hcount : reads.length ≤ ms.length)
    (hsize : ∀ m ∈ ms, 1 ≤ m.bytes.length ∧ m.bytes.length ≤ maxFrameLength)
    (hsum : ∀ p ∈ ms.zip reads, p.2.sizes.sum ≤ p.1.bytes.length) :
    ∃ s', readFrames reads s
      = .ok ((ms.zip reads).map fun p => (p.1.bytes.length, pieces p.2.sizes p.1.bytes)) s' ∧
      s'.stream = ((ms.drop reads.length).flatMap fun m => frame m.bytes) ++ rest := by
  induction reads generalizing ms s with
  | nil => exact ⟨s, by simp [readFrames, pure_run], hs⟩
  | cons r reads ih =>
    cases ms with
    | nil => simp at hcount
    | cons m ms =>
      rw [List.flatMap_cons, List.append_assoc] at hs
      obtain ⟨hpos, hlen⟩ := hsize m List.mem_cons_self
      obtain ⟨s₁, hfirst, hstream₁⟩ := readFrame_ok r s hs (List.length_pos_iff.mp hpos) hlen
        (hsum (m, r) (by simp))
      obtain ⟨s₂, hrest, hstream₂⟩ := ih ms s₁ hstream₁ (by simpa using hcount)
        (fun m' hm' => hsize m' (List.mem_cons_of_mem m hm'))
        (fun p hp => hsum p (by rw [List.zip_cons_cons]; exact List.mem_cons_of_mem _ hp))
      refine ⟨s₂, ?_, hstream₂⟩
      rw [readFrames, bind_of_ok hfirst, bind_of_ok hrest, pure_run, List.zip_cons_cons,
        List.map_cons]

end BufferedSource

/-! ## The two ends together -/

/-- Messages sent over a stream are read back one frame a message: each
    `nextFrame` gives the size of the next message, and reads of any sizes that
    do not go past its end give its consecutive bytes. -/
theorem readFrames_sendMessages (ms : List SentMessage) (reads : List FrameReads)
    (hcount : reads.length ≤ ms.length)
    (hsize : ∀ m ∈ ms, 1 ≤ m.bytes.length ∧ m.bytes.length ≤ maxFrameLength)
    (hsum : ∀ p ∈ ms.zip reads, p.2.sizes.sum ≤ p.1.bytes.length) :
    ∃ sink source,
      BufferedSink.sendMessages ms (.new (.new [])) = .ok () sink ∧
      BufferedSource.readFrames reads (.new (.new sink.stream))
        = .ok ((ms.zip reads).map fun p => (p.1.bytes.length, pieces p.2.sizes p.1.bytes)) source ∧
      source.stream = (ms.drop reads.length).flatMap fun m => frame m.bytes := by
  obtain ⟨sink, hsend, hstream⟩ := BufferedSink.sendMessages_ok ms (.new (.new []))
    fun m hm => (hsize m hm).2
  have hsource : (BufferedSource.new (.new sink.stream)).stream
      = (ms.flatMap fun m => frame m.bytes) ++ [] := by
    rw [List.append_nil]
    exact hstream
  obtain ⟨source, hread, hrest⟩ := BufferedSource.readFrames_ok ms reads _ hsource hcount hsize hsum
  exact ⟨sink, source, hsend, hread, by rw [hrest, List.append_nil]⟩

/-- Two messages, the first with an appended buffer and read in three pieces. -/
theorem readFrames_sendMessages_two :
    ∃ sink source,
      BufferedSink.sendMessages [⟨[[1, 2], [3]], [Buffer.filled [4, 5]]⟩, ⟨[[6]], []⟩]
        (.new (.new [])) = .ok () sink ∧
      BufferedSource.readFrames [⟨[2, 2, 1], false⟩, ⟨[1], true⟩] (.new (.new sink.stream))
        = .ok [(5, [[1, 2], [3, 4], [5]]), (1, [[6]])] source ∧
      source.stream = [] :=
  readFrames_sendMessages [⟨[[1, 2], [3]], [Buffer.filled [4, 5]]⟩, ⟨[[6]], []⟩]
    [⟨[2, 2, 1], false⟩, ⟨[1], true⟩] (by decide) (by decide) (by decide)

end Arras4Core.Network
