/-
  Arras4Core.Message.Recording

  Messages saved to files, and `playFile` of the msgPlay command, which sends
  such a file as a message.

  A writer saves what its sink has collected, out of the used buffers and the
  appended ones; a reader saves the part of its receive buffer that the frame
  fills.  `playFile` announces the length of the file as the frame's, and copies
  the file through a buffer of 16 KB.  The copy loop ends with a read that finds
  less than a buffer full, which for a length that is a multiple of the
  buffer's finds nothing at all.

  Main result: `recordings_faithful`.
-/

import Arras4Core.Message.MessageReader
import Arras4Core.Message.MessageWriter

namespace Arras4Core.Message

open Arras4Core.Lib
open Arras4Core.Api (Exception)
open Arras4Core.Network

/-! ## Playing a file -/

def READBUF_SIZE : Nat := 16 * 1024

/-- A `std::ifstream`: the bytes still to come, whether an error comes in place of
    their end, and the state bits.  `eofbit` and `failbit` are set together. -/
structure InFileStream where
  rest : Bytes
  breaks : Bool := false
  fail : Bool := false
  bad : Bool := false

namespace InFileStream

/-- `read`: the `gcount()` bytes that are stored, and the stream afterwards. -/
def read (length : Nat) (ifs : InFileStream) : Bytes × InFileStream :=
  if length ≤ ifs.rest.length then
    (ifs.rest.take length, { ifs with rest := ifs.rest.drop length })
  else (ifs.rest, { ifs with rest := [], fail := true, bad := ifs.breaks })

/-- `operator bool()` -/
def good (ifs : InFileStream) : Bool := !ifs.fail && !ifs.bad

/-- Bounds the rounds of a loop that reads while the stream is good. -/
def measure (ifs : InFileStream) : Nat := if ifs.good then ifs.rest.length + 1 else 0

theorem measure_read {length : Nat} (hpos : 0 < length) {ifs : InFileStream}
    (hgood : ifs.good = true) : (ifs.read length).2.measure < ifs.measure := by
  have hbefore : ifs.measure = ifs.rest.length + 1 := if_pos hgood
  unfold read
  by_cases hlen : length ≤ ifs.rest.length
  · have hafter : ({ ifs with rest := ifs.rest.drop length } : InFileStream).measure
        = (ifs.rest.drop length).length + 1 := if_pos hgood
    rw [if_pos hlen, hafter, hbefore, List.length_drop]
    omega
  · rw [if_neg hlen, hbefore]
    exact Nat.succ_pos _

/-- A read takes its bytes off those to come, and a file that does not break never
    makes the stream bad. -/
theorem read_eq (length : Nat) {ifs : InFileStream} (hgood : ifs.good = true)
    (hbreaks : ifs.breaks = false) :
    (ifs.read length).1 ++ (ifs.read length).2.rest = ifs.rest ∧
      (ifs.read length).2.bad = false ∧ (ifs.read length).2.breaks = false := by
  have hbad : ifs.bad = false := by
    rw [good, Bool.and_eq_true, Bool.not_eq_true', Bool.not_eq_true'] at hgood
    exact hgood.2
  unfold read
  by_cases hlen : length ≤ ifs.rest.length
  · rw [if_pos hlen]
    exact ⟨List.take_append_drop length ifs.rest, hbad, hbreaks⟩
  · rw [if_neg hlen]
    exact ⟨List.append_nil ifs.rest, hbreaks, hbreaks⟩

/-- A stream that is not good has delivered all its bytes. -/
theorem rest_of_read {length : Nat} {ifs : InFileStream} (hgood : ifs.good = true)
    (hdone : (ifs.read length).2.good = false) : (ifs.read length).2.rest = [] := by
  unfold read at hdone ⊢
  by_cases hlen : length ≤ ifs.rest.length
  · rw [if_pos hlen] at hdone
    have hsame : ifs.good = false := hdone
    rw [hsame] at hgood
    exact absurd hgood Bool.false_ne_true
  · rw [if_neg hlen]

end InFileStream

/-- The `while` loop of `playFile`. -/
def playLoop (ifs : InFileStream) : EStateM Exception BasicFramingSink InFileStream :=
  if _hgood : ifs.good then
    if (ifs.read READBUF_SIZE).2.bad then pure (ifs.read READBUF_SIZE).2
    else do
      discard (BasicFramingSink.write (ifs.read READBUF_SIZE).1)
      playLoop (ifs.read READBUF_SIZE).2
  else pure ifs
termination_by ifs.measure
decreasing_by exact InFileStream.measure_read (by decide) _hgood

/-- What the file system says of a file: its size, if it can be had, and the stream
    it is opened as, if it can be opened. -/
structure MessageFile where
  size : Option Nat
  opened : Option InFileStream

/-- A file with the given contents that does not change and can be read. -/
def MessageFile.ofBytes (bytes : Bytes) : MessageFile where
  size := some bytes.length
  opened := some { rest := bytes }

/-- Returns whether the file was sent. -/
def playFile (file : MessageFile) : EStateM Exception BasicFramingSink Bool :=
  match file.size with
  | none => pure false
  | some size => do
    discard (BasicFramingSink.openFrame size)
    match file.opened with
    | none => pure false
    | some ifs => do
      let ifs ← playLoop ifs
      if ifs.bad then return false
      discard BasicFramingSink.closeFrame
      return true

/-- One round of the loop: what was read is in the frame. -/
theorem playLoop_step {ifs : InFileStream} (hgood : ifs.good = true)
    (hbreaks : ifs.breaks = false) {sink : BasicFramingSink}
    (hroom : (ifs.read READBUF_SIZE).1.length ≤ sink.remaining) :
    ∃ sink', playLoop ifs sink = playLoop (ifs.read READBUF_SIZE).2 sink' ∧
      sink'.mOutputSink = sink.mOutputSink ++ (ifs.read READBUF_SIZE).1 ∧
      sink'.remaining = sink.remaining - (ifs.read READBUF_SIZE).1.length := by
  obtain ⟨sink', hwrite, hstream, hremaining⟩ := BasicFramingSink.write_ok hroom
  obtain ⟨-, hbad, -⟩ := InFileStream.read_eq READBUF_SIZE hgood hbreaks
  refine ⟨sink', ?_, hstream, hremaining⟩
  conv_lhs => rw [playLoop, dif_pos hgood, hbad, if_neg Bool.false_ne_true]
  exact bind_of_ok (discard_of_ok hwrite)

/-- The loop copies what is left of the file, as long as the frame has room for it. -/
theorem playLoop_ok (ifs : InFileStream) (hgood : ifs.good = true) (hbreaks : ifs.breaks = false)
    (sink : BasicFramingSink) (hroom : ifs.rest.length ≤ sink.remaining) :
    ∃ ifs' sink', playLoop ifs sink = .ok ifs' sink' ∧ ifs'.bad = false ∧
      sink'.mOutputSink = sink.mOutputSink ++ ifs.rest ∧
      sink'.remaining = sink.remaining - ifs.rest.length := by
  induction hn : ifs.measure using Nat.strongRecOn generalizing ifs sink with
  | _ n ih =>
    obtain ⟨hrest, hbad, hbreaks'⟩ := InFileStream.read_eq READBUF_SIZE hgood hbreaks
    have hlen := congrArg List.length hrest
    rw [List.length_append] at hlen
    have hroom₁ : (ifs.read READBUF_SIZE).1.length ≤ sink.remaining := by omega
    obtain ⟨sink₁, hstep, hstream₁, hremaining₁⟩ := playLoop_step hgood hbreaks hroom₁
    rw [hstep, ← hrest, List.length_append]
    cases hgood' : (ifs.read READBUF_SIZE).2.good with
    | true =>
      have hless : (ifs.read READBUF_SIZE).2.measure < ifs.measure :=
        InFileStream.measure_read (by decide) hgood
      obtain ⟨ifs', sink', hloop, hbad', hstream, hremaining⟩ :=
        ih _ (hn ▸ hless) _ hgood' hbreaks' sink₁ (by omega) rfl
      refine ⟨ifs', sink', hloop, hbad', ?_, ?_⟩
      · rw [hstream, hstream₁, List.append_assoc]
      · omega
    | false =>
      -- the last read found less than a buffer full
      refine ⟨_, sink₁, ?_, hbad, ?_, ?_⟩
      · rw [playLoop, dif_neg (by rw [hgood']; exact Bool.false_ne_true)]
        rfl
      · rw [hstream₁, InFileStream.rest_of_read hgood hgood', List.append_nil]
      · rw [hremaining₁, InFileStream.rest_of_read hgood hgood', List.length_nil, Nat.add_zero]

/-- A file that fits into a frame is sent as the payload of one frame. -/
theorem playFile_ok {bytes : Bytes} (hlen : bytes.length ≤ maxFrameLength)
    (sink : BasicFramingSink) :
    ∃ sink', playFile (.ofBytes bytes) sink = .ok true sink' ∧
      sink'.mOutputSink = sink.mOutputSink ++ frame bytes := by
  obtain ⟨sink₁, hopen, hremaining₁, hstream₁⟩ := BasicFramingSink.openFrame_ok hlen sink
  obtain ⟨ifs, sink₂, hloop, hbad, hstream₂, hremaining₂⟩ :=
    playLoop_ok { rest := bytes } rfl rfl sink₁ (Nat.le_of_eq hremaining₁.symm)
  have hfull : sink₂.remaining = 0 := by
    rw [hremaining₂, hremaining₁]
    exact Nat.sub_self _
  obtain ⟨sink₃, hclose, hstream₃⟩ := BasicFramingSink.closeFrame_ok hfull
  refine ⟨sink₃, ?_, ?_⟩
  · refine (bind_of_ok (discard_of_ok hopen)).trans ((bind_of_ok hloop).trans ?_)
    rw [hbad, if_neg Bool.false_ne_true]
    exact bind_of_ok (discard_of_ok hclose)
  · rw [hstream₃, hstream₂, hstream₁, frame, List.append_assoc]

/-! ## Saved messages -/

/-- From any state of the sink, playing a file with these contents sends one frame with
    them as its payload, and nothing else. -/
def PlaysBack (payload : Bytes) : Prop :=
  ∀ sink : BasicFramingSink, ∃ sink', playFile (.ofBytes payload) sink = .ok true sink' ∧
    sink'.mOutputSink = sink.mOutputSink ++ frame payload

/-- Recordings are faithful: a call of `write` that returns sends a frame and saves one
    file with the frame's payload, a call of `read` that takes a frame saves one file with
    its payload whatever it makes of it, and a file so saved plays back. -/
theorem recordings_faithful :
    (∀ (env : Envelope) (w w' : MessageWriter), w.mIsAutosaving = true →
      MessageWriter.write env w = .ok () w' →
      ∃ payload, w'.stream = w.stream ++ frame payload ∧
        w'.mSaved = w.mSaved ++ [(w.mAutosaveDirectory, payload)] ∧ PlaysBack payload) ∧
    (∀ (registry : ContentFactories) (useRegistry : Bool) (r : MessageReader)
      (payload rest : Bytes), r.mIsAutosaving = true → r.stream = frame payload ++ rest →
      payload ≠ [] → payload.length ≤ maxFrameLength →
      ∃ outcome r', MessageReader.read registry useRegistry r = resultOf outcome r' ∧
        r'.stream = rest ∧
        r'.mSaved = r.mSaved ++ [(r.mAutosaveDirectory, payload)] ∧ PlaysBack payload) := by
  constructor
  · intro env w w' hautosaving hwrite
    obtain ⟨w₁, hwrite₁, hstream, hsaved⟩ := MessageWriter.write_outcome env w
    obtain ⟨hout, rfl⟩ := of_resultOf_ok (hwrite₁.symm.trans hwrite)
    have hlen : env.bytes.length ≤ maxFrameLength := Envelope.length_le_of_sent hout
    refine ⟨env.bytes, ?_, ?_, fun sink => playFile_ok hlen sink⟩
    · rw [hstream, hout, MessageWriter.sentFrame_ok]
    · rw [hsaved hout, MessageWriter.newFiles, if_pos hautosaving]
  · intro registry useRegistry r payload rest hautosaving hstream hpos hlen
    obtain ⟨outcome, r', -, hread, -, hstream', hsaved⟩ :=
      MessageReader.read_outcome registry useRegistry hstream hpos hlen
    refine ⟨outcome, r', hread, hstream', ?_, fun sink => playFile_ok hlen sink⟩
    rw [hsaved, MessageReader.newFiles, if_pos hautosaving]

/-- A message of one writer that is autosaving, and a frame with two bytes that a reader
    takes. -/
theorem recordings_faithful_oneEach :
    let env : Envelope :=
      { mContent := some (.opaqueContent ⟨.null, 1, .filled [7, 8, 9]⟩)
        mMetadata := some ⟨.null, .null, {}, [65], false⟩ }
    let w : MessageWriter :=
      { mSink := .new (.new []), mIsAutosaving := true, mAutosaveDirectory := "sent" }
    let r : MessageReader :=
      { mSource := .new (.new (frame [1, 2] ++ [3]))
        mIsAutosaving := true
        mAutosaveDirectory := "received" }
    (∃ w' payload, MessageWriter.write env w = .ok () w' ∧ w'.stream = w.stream ++ frame payload ∧
      w'.mSaved = w.mSaved ++ [("sent", payload)] ∧ PlaysBack payload) ∧
    (∃ outcome r', MessageReader.read (fun _ _ => none) true r = resultOf outcome r' ∧
      r'.stream = [3] ∧ r'.mSaved = r.mSaved ++ [("received", [1, 2])] ∧ PlaysBack [1, 2]) := by
  intro env w r
  have hout : env.outcome = .ok () := rfl
  obtain ⟨w', hwrite, -⟩ := MessageWriter.write_outcome env w
  rw [hout] at hwrite
  obtain ⟨payload, hsent⟩ := recordings_faithful.1 env w w' rfl hwrite
  exact ⟨⟨w', payload, hwrite, hsent⟩,
    recordings_faithful.2 (fun _ _ => none) true r [1, 2] [3] rfl rfl (by decide) (by decide)⟩

end Arras4Core.Message
