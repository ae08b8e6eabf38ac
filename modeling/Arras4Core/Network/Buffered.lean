/-
  Arras4Core.Network.Buffered

  `BufferedSink` collects a frame in memory, so that its length is known before
  the first byte is passed on; `BufferedSource` reads a whole frame into one
  buffer.  Both keep their buffers from frame to frame.

  A sink carries that its two length counters agree with what it holds, so
  `closeFrame` announces the length it then writes.
-/

import Arras4Core.Lib.Stream
import Arras4Core.Network.Framing
import Arras4Core.Network.MultiBuffer

namespace Arras4Core.Network

open Arras4Core.Lib
open Arras4Core.Api (Exception)

/-! ## The sink -/

/-- `network::BufferedSink`. -/
structure BufferedSink where
  mOutputSink : BasicFramingSink
  mMultiBuffer : MultiBuffer
  mAppendedLength : Nat := 0
  mAppendedBuffers : List Buffer := []
  written_eq : mMultiBuffer.mBytesWritten = mMultiBuffer.contents.length
  appended_eq : mAppendedLength = (mAppendedBuffers.flatMap Buffer.contents).length

namespace BufferedSink

/-- The constructor; the multibuffer has the default sizes. -/
def new (outputSink : BasicFramingSink) : BufferedSink where
  mOutputSink := outputSink
  mMultiBuffer := MultiBuffer.new INITIAL_BUFFER_SIZE LINEAR_BUFFER_SIZE initial_size_pos
  written_eq := rfl
  appended_eq := rfl

def bytesWritten (s : BufferedSink) : Nat := s.mMultiBuffer.mBytesWritten + s.mAppendedLength

/-- The bytes of the frame under construction. -/
def contents (s : BufferedSink) : Bytes :=
  s.mMultiBuffer.contents ++ s.mAppendedBuffers.flatMap Buffer.contents

/-- The bytes passed on to the stream so far. -/
def stream (s : BufferedSink) : Bytes := s.mOutputSink.mOutputSink

def reset (s : BufferedSink) : BufferedSink :=
  { s with
    mMultiBuffer := s.mMultiBuffer.reset
    mAppendedBuffers := []
    mAppendedLength := 0
    written_eq := by rw [MultiBuffer.contents_reset]; rfl
    appended_eq := rfl }

def appendBuffer (buf : Buffer) (s : BufferedSink) : BufferedSink :=
  { s with
    mAppendedBuffers := s.mAppendedBuffers ++ [buf]
    mAppendedLength := s.mAppendedLength + buf.remaining
    appended_eq := by
      rw [List.flatMap_append, List.length_append, List.flatMap_singleton, Buffer.contents_length,
        s.appended_eq] }

def openFrame (s : BufferedSink) : BufferedSink := s.reset

def write (data : Bytes) (s : BufferedSink) : BufferedSink :=
  { s with
    mMultiBuffer := s.mMultiBuffer.write data
    written_eq := by
      rw [MultiBuffer.mBytesWritten_write, MultiBuffer.contents_write, List.length_append,
        s.written_eq] }

def shrinkTo (maxCapacity : Nat) (s : BufferedSink) : BufferedSink :=
  { s with
    mMultiBuffer := s.mMultiBuffer.shrinkTo maxCapacity
    written_eq := by rw [MultiBuffer.contents_shrinkTo]; exact s.written_eq }

/-- A call on the output sink. -/
def onOutput {α : Type} (x : EStateM Exception BasicFramingSink α) :
    EStateM Exception BufferedSink α :=
  onField mOutputSink (fun s out => { s with mOutputSink := out }) x

theorem onOutput_of_ok {α : Type} {x : EStateM Exception BasicFramingSink α} {s : BufferedSink}
    {a : α} {out : BasicFramingSink} (h : x s.mOutputSink = .ok a out) :
    onOutput x s = .ok a { s with mOutputSink := out } := onField_of_ok h

theorem onOutput_of_error {α : Type} {x : EStateM Exception BasicFramingSink α}
    {s : BufferedSink} {e : Exception} {out : BasicFramingSink}
    (h : x s.mOutputSink = .error e out) :
    onOutput x s = .error e { s with mOutputSink := out } := onField_of_error h

/-- Pass the contents of some buffers on to the output sink. -/
def writeBuffers (bufs : List Buffer) : EStateM Exception BufferedSink Unit :=
  bufs.forM fun buf => discard (onOutput (BasicFramingSink.write buf.contents))

def closeFrame : EStateM Exception BufferedSink Bool := do
  let s ← get
  let ok ← onOutput (BasicFramingSink.openFrame s.bytesWritten)
  if !ok then return false
  writeBuffers s.mMultiBuffer.usedBuffers
  writeBuffers s.mAppendedBuffers
  discard (onOutput BasicFramingSink.closeFrame)
  modify reset
  return true

/-- What `writeToFile` puts into the file. -/
def writeToFile (s : BufferedSink) : Bytes :=
  (s.mMultiBuffer.usedBuffers ++ s.mAppendedBuffers).flatMap Buffer.contents

@[simp] theorem contents_reset (s : BufferedSink) : s.reset.contents = [] := by
  simp [contents, reset]

@[simp] theorem contents_openFrame (s : BufferedSink) : s.openFrame.contents = [] :=
  s.contents_reset

@[simp] theorem contents_shrinkTo (maxCapacity : Nat) (s : BufferedSink) :
    (s.shrinkTo maxCapacity).contents = s.contents := by
  simp [contents, shrinkTo]

@[simp] theorem stream_openFrame (s : BufferedSink) : s.openFrame.stream = s.stream := rfl
@[simp] theorem stream_write (data : Bytes) (s : BufferedSink) :
    (s.write data).stream = s.stream := rfl
@[simp] theorem stream_appendBuffer (buf : Buffer) (s : BufferedSink) :
    (s.appendBuffer buf).stream = s.stream := rfl
@[simp] theorem stream_shrinkTo (maxCapacity : Nat) (s : BufferedSink) :
    (s.shrinkTo maxCapacity).stream = s.stream := rfl

/-- A write comes before the appended buffers, so it goes to the end of the
    frame only while nothing has been appended. -/
theorem contents_write {s : BufferedSink} (h : s.mAppendedBuffers = []) (data : Bytes) :
    (s.write data).contents = s.contents ++ data := by
  simp only [contents, write, MultiBuffer.contents_write, h, List.flatMap_nil, List.append_nil]

theorem contents_appendBuffer (buf : Buffer) (s : BufferedSink) :
    (s.appendBuffer buf).contents = s.contents ++ buf.contents := by
  simp only [contents, appendBuffer, List.flatMap_append, List.flatMap_singleton,
    List.append_assoc]

theorem bytesWritten_eq (s : BufferedSink) : s.bytesWritten = s.contents.length := by
  rw [bytesWritten, contents, List.length_append, s.written_eq, s.appended_eq]

theorem writeToFile_eq (s : BufferedSink) : s.writeToFile = s.contents := by
  rw [writeToFile, List.flatMap_append]
  rfl

/-! ### Closing a frame -/

/-- As long as the frame has room, the buffers are passed on one after the
    other and only the output sink changes. -/
theorem writeBuffers_ok (bufs : List Buffer) (s : BufferedSink)
    (h : (bufs.flatMap Buffer.contents).length ≤ s.mOutputSink.remaining) :
    ∃ s', writeBuffers bufs s = .ok () s' ∧
      s'.stream = s.stream ++ bufs.flatMap Buffer.contents ∧
      s'.mOutputSink.remaining
        = s.mOutputSink.remaining - (bufs.flatMap Buffer.contents).length := by
  induction bufs generalizing s with
  | nil => exact ⟨s, rfl, by simp, by simp⟩
  | cons buf bufs ih =>
    rw [List.flatMap_cons, List.length_append] at h
    have hroom : buf.contents.length ≤ s.mOutputSink.remaining := by omega
    obtain ⟨out, hwrite, hstream, hrem⟩ := BasicFramingSink.write_ok hroom
    obtain ⟨s', hrest, hstream', hrem'⟩ := ih { s with mOutputSink := out } (by
      simp only [hrem]; omega)
    refine ⟨s', ?_, ?_, ?_⟩
    · show (discard (onOutput (BasicFramingSink.write buf.contents)) >>=
        fun _ => writeBuffers bufs) s = _
      rw [bind_of_ok (discard_of_ok (onOutput_of_ok hwrite))]
      exact hrest
    · rw [hstream', List.flatMap_cons, ← List.append_assoc]
      simp only [stream, hstream]
    · rw [hrem', List.flatMap_cons, List.length_append]
      simp only [hrem]
      omega

/-- A frame of a length the header can hold is passed on whole, and the sink
    is empty again. -/
theorem closeFrame_ok (s : BufferedSink) (h : s.contents.length ≤ maxFrameLength) :
    ∃ s', closeFrame s = .ok true s' ∧ s'.stream = s.stream ++ frame s.contents ∧
      s'.contents = [] := by
  have hsize : s.bytesWritten ≤ maxFrameLength := by rw [bytesWritten_eq]; exact h
  obtain ⟨out₀, hopen, hrem₀, hstream₀⟩ := BasicFramingSink.openFrame_ok hsize s.mOutputSink
  have hlen : s.contents.length = s.mMultiBuffer.contents.length
      + (s.mAppendedBuffers.flatMap Buffer.contents).length := List.length_append
  rw [bytesWritten_eq] at hrem₀ hstream₀
  obtain ⟨s₁, hwrite₁, hstream₁, hrem₁⟩ :=
    writeBuffers_ok s.mMultiBuffer.usedBuffers { s with mOutputSink := out₀ } (by
      show s.mMultiBuffer.contents.length ≤ out₀.remaining
      omega)
  have hrem₁' : s₁.mOutputSink.remaining = out₀.remaining - s.mMultiBuffer.contents.length := hrem₁
  -- the multibuffer first, then what was appended; together they fill the frame
  obtain ⟨s₂, hwrite₂, hstream₂, hrem₂⟩ :=
    writeBuffers_ok s.mAppendedBuffers s₁ (by omega)
  obtain ⟨out₃, hclose, hstream₃⟩ :=
    BasicFramingSink.closeFrame_ok (s := s₂.mOutputSink) (by omega)
  refine ⟨({ s₂ with mOutputSink := out₃ } : BufferedSink).reset, ?_, ?_, contents_reset _⟩
  · unfold closeFrame
    rw [get_bind, bind_of_ok (onOutput_of_ok hopen)]
    show (writeBuffers s.mMultiBuffer.usedBuffers >>= fun _ => _) _ = _
    rw [bind_of_ok hwrite₁, bind_of_ok hwrite₂, bind_of_ok (discard_of_ok (onOutput_of_ok hclose)),
      modify_bind, pure_run]
  · show out₃.mOutputSink = _
    have h₂ : s₂.mOutputSink.mOutputSink
        = s₁.stream ++ s.mAppendedBuffers.flatMap Buffer.contents := hstream₂
    have h₁ : s₁.stream = out₀.mOutputSink ++ s.mMultiBuffer.contents := hstream₁
    rw [hstream₃, h₂, h₁, hstream₀, frame, contents]
    simp only [stream, List.append_assoc]

/-- A frame that is too long is refused before a byte of it is passed on. -/
theorem closeFrame_error (s : BufferedSink) (h : maxFrameLength < s.contents.length) :
    closeFrame s = .error
      (.framingError "Data is too long for the framing protocol. Limit is ~2Gb") s := by
  have hopen : BasicFramingSink.openFrame s.bytesWritten s.mOutputSink = .error
      (.framingError "Data is too long for the framing protocol. Limit is ~2Gb") s.mOutputSink := by
    rw [bytesWritten_eq, BasicFramingSink.openFrame, if_pos h]
  unfold closeFrame
  rw [get_bind, bind_of_error (onOutput_of_error hopen)]

end BufferedSink

/-! ## The source -/

/-- `network::BufferedSource`. -/
structure BufferedSource where
  mInputSource : BasicFramingSource
  mIsInFrame : Bool := false
  mBuffer : Option Buffer := none

namespace BufferedSource

def new (inputSource : BasicFramingSource) : BufferedSource where
  mInputSource := inputSource

def bytesRead (s : BufferedSource) : Nat := (s.mBuffer.map Buffer.consumed).getD 0

/-- A call on the input source. -/
def onInput {α : Type} (x : EStateM Exception BasicFramingSource α) :
    EStateM Exception BufferedSource α :=
  onField mInputSource (fun s src => { s with mInputSource := src }) x

theorem onInput_of_ok {α : Type} {x : EStateM Exception BasicFramingSource α}
    {s : BufferedSource} {a : α} {src : BasicFramingSource} (h : x s.mInputSource = .ok a src) :
    onInput x s = .ok a { s with mInputSource := src } := onField_of_ok h

/-- Give the buffer away. -/
def takeBuffer : EStateM Exception BufferedSource (Option Buffer) := fun s =>
  .ok s.mBuffer { s with mBuffer := none }

def read (length : Nat) : EStateM Exception BufferedSource Bytes := fun s =>
  match s.mBuffer with
  | none => .error (.framingError "Attempt to read without message data") s
  | some buf =>
    if length > buf.remaining then
      .error (.framingError "Attempt to read beyond end of message data") s
    else .ok (buf.read length).1 { s with mBuffer := some (buf.read length).2 }

/-- Returns the length asked for; the number of bytes the buffer skipped is not
    looked at. -/
def skip (length : Nat) : EStateM Exception BufferedSource Nat := fun s =>
  match s.mBuffer with
  | none => .error (.framingError "Attempt to skip without message data") s
  | some buf =>
    if length > buf.remaining then
      .error (.framingError "Attempt to skip beyond end of message data") s
    else .ok length { s with mBuffer := some (buf.skip length).2 }

/-- The buffer `prepForFill` fills: the one there if it is large enough. -/
def fillBuffer (s : BufferedSource) (size : Nat) : Buffer :=
  match s.mBuffer with
  | none => Buffer.alloc size
  | some buf => if size > buf.capacity then Buffer.alloc size else buf

/-- Returns the address to fill, an offset into the buffer's block. -/
def prepForFill (size : Nat) : EStateM Exception BufferedSource Nat := fun s =>
  let filled := (s.fillBuffer size).reset.assign size
  .ok filled.1 { s with mBuffer := some filled.2 }

/-- The bytes the input source stores at the fill address. -/
def fill (fillPtr : Nat) (data : Bytes) (s : BufferedSource) : BufferedSource :=
  { s with mBuffer := s.mBuffer.map fun buf => buf.store fillPtr data }

def nextFrame : EStateM Exception BufferedSource Nat := do
  let frameSize ← onInput BasicFramingSource.nextFrame
  if frameSize = 0 then return frameSize
  let fillPtr ← prepForFill frameSize
  let data ← onInput (BasicFramingSource.read frameSize)
  modify (fill fillPtr data)
  modify fun s => { s with mInputSource := s.mInputSource.endFrame, mIsInFrame := true }
  return frameSize

def endFrame (s : BufferedSource) : BufferedSource := { s with mIsInFrame := false }

def shrinkTo (maxCapacity : Nat) (s : BufferedSource) : BufferedSource :=
  match s.mBuffer with
  | none => s
  | some buf =>
    if !s.mIsInFrame && decide (buf.capacity > maxCapacity) then { s with mBuffer := none } else s

/-- What `writeToFile` puts into the file: the bytes from `initial()` on, or
    nothing where there is no buffer. -/
def writeToFile (s : BufferedSource) : Option Bytes :=
  s.mBuffer.map fun buf => buf.mData.take buf.mEnd

/-- The bytes still to come on the stream. -/
def stream (s : BufferedSource) : Bytes := s.mInputSource.mInputSource

theorem fillBuffer_capacity (s : BufferedSource) (size : Nat) :
    size ≤ (s.fillBuffer size).capacity := by
  unfold fillBuffer
  split
  · rw [Buffer.capacity_alloc]
  · split
    · rw [Buffer.capacity_alloc]
    · omega

/-- The next frame replaces the contents of the buffer, whatever it held. -/
theorem nextFrame_ok {s : BufferedSource} {data rest : Bytes}
    (hs : s.stream = frame data ++ rest) (hpos : data ≠ []) (hlen : data.length ≤ maxFrameLength) :
    ∃ s' buf, nextFrame s = .ok data.length s' ∧ s'.stream = rest ∧ s'.mBuffer = some buf ∧
      buf.consumed = 0 ∧ buf.contents = data := by
  obtain ⟨src₁, hnext, hstream₁, hrem₁⟩ := BasicFramingSource.nextFrame_ok hs hlen
  obtain ⟨src₂, hread, hstream₂, -⟩ :=
    BasicFramingSource.read_ok hstream₁ (Nat.le_of_eq hrem₁.symm)
  have hne : data.length ≠ 0 := fun h => hpos (List.eq_nil_of_length_eq_zero h)
  let filled := (s.fillBuffer data.length).reset.assign data.length
  refine ⟨{ mInputSource := src₂.endFrame, mIsInFrame := true,
            mBuffer := some (filled.2.store filled.1 data) },
    filled.2.store filled.1 data, ?_, hstream₂, rfl, Buffer.consumed_fill _ _ _ _,
    Buffer.contents_fill _ (s.fillBuffer_capacity _)⟩
  unfold nextFrame
  rw [bind_of_ok (onInput_of_ok hnext)]
  simp only [if_neg hne]
  have hprep : prepForFill data.length { s with mInputSource := src₁ }
      = .ok filled.1 { s with mInputSource := src₁, mBuffer := some filled.2 } := rfl
  rw [bind_of_ok hprep, bind_of_ok (onInput_of_ok hread), modify_bind, modify_bind, pure_run]
  rfl

theorem read_ok {s : BufferedSource} {buf : Buffer} (hbuf : s.mBuffer = some buf) {length : Nat}
    (h : length ≤ buf.contents.length) :
    ∃ s' buf', read length s = .ok (buf.contents.take length) s' ∧ s'.stream = s.stream ∧
      s'.mBuffer = some buf' ∧ buf'.contents = buf.contents.drop length := by
  rw [Buffer.contents_length] at h
  refine ⟨{ s with mBuffer := some (buf.read length).2 }, (buf.read length).2, ?_, rfl, rfl,
    (buf.read_eq length).2⟩
  simp only [read, hbuf, if_neg (Nat.not_lt.mpr h), (buf.read_eq length).1]

/-! ### The message in the buffer -/

/-- The buffer holds the message `r`, read as far as `r` says, and the stream is
    at `rest`. -/
def Shows (rest : Bytes) (s : BufferedSource) (r : Reading) : Prop :=
  s.stream = rest ∧
    ∃ buf, s.mBuffer = some buf ∧ buf.consumed = r.consumed ∧ buf.contents = r.remaining

/-- The refusal of a read that asks for more than the message has. -/
def readBeyond : Exception := .framingError "Attempt to read beyond end of message data"

/-- The refusal of a skip that asks for more than the message has. -/
def skipBeyond : Exception := .framingError "Attempt to skip beyond end of message data"

theorem shows_bytesRead {rest : Bytes} {s : BufferedSource} {r : Reading} (h : Shows rest s r) :
    s.bytesRead = r.consumed := by
  obtain ⟨-, buf, hbuf, hconsumed, -⟩ := h
  simp only [bytesRead, hbuf, Option.map_some, Option.getD_some, hconsumed]

/-- Reading `length` bytes, or as many as there are, advances the message. -/
theorem shows_advance {rest : Bytes} {s : BufferedSource} {buf : Buffer} {r : Reading}
    (hstream : s.stream = rest) (hconsumed : buf.consumed = r.consumed)
    (hcontents : buf.contents = r.remaining) (length : Nat) :
    Shows rest { s with mBuffer := some (buf.read length).2 } (r.advance length) := by
  refine ⟨hstream, (buf.read length).2, rfl, ?_, ?_⟩
  · rw [Buffer.consumed_read, hconsumed, hcontents]
    rfl
  · rw [(buf.read_eq length).2, hcontents]
    rfl

theorem read_endsAlike (rest : Bytes) (length : Nat) (s : BufferedSource) (r : Reading)
    (h : Shows rest s r) :
    EndsAlike (Shows rest) (read length s) (Reading.read readBeyond length r) := by
  obtain ⟨hstream, buf, hbuf, hconsumed, hcontents⟩ := h
  have hremaining : buf.remaining = r.remaining.length := by
    rw [← Buffer.contents_length, hcontents]
  simp only [read, hbuf, Reading.read, hremaining]
  split
  · exact .error ⟨hstream, buf, hbuf, hconsumed, hcontents⟩
  · rw [(buf.read_eq length).1, hcontents]
    exact .ok (shows_advance hstream hconsumed hcontents length)

theorem skip_endsAlike (rest : Bytes) (length : Nat) (s : BufferedSource) (r : Reading)
    (h : Shows rest s r) :
    EndsAlike (Shows rest) (skip length s) (Reading.skip skipBeyond length r) := by
  obtain ⟨hstream, buf, hbuf, hconsumed, hcontents⟩ := h
  have hremaining : buf.remaining = r.remaining.length := by
    rw [← Buffer.contents_length, hcontents]
  simp only [skip, hbuf, Reading.skip, hremaining]
  split
  · exact .error ⟨hstream, buf, hbuf, hconsumed, hcontents⟩
  · rw [buf.skip_eq_read]
    exact .ok (shows_advance hstream hconsumed hcontents length)

/-- Code on the bytes of a message alone. -/
def onMessage {α : Type} (p : InCode Exception α) : EStateM Exception Reading α :=
  p.run (Reading.read readBeyond) (Reading.skip skipBeyond) Reading.consumed

/-- What code does with the message in the buffer is what it does with the bytes
    of the message alone; the stream stays where it is. -/
theorem run_endsAlike {α : Type} {rest : Bytes} (p : InCode Exception α) {s : BufferedSource}
    {r : Reading} (h : Shows rest s r) :
    EndsAlike (Shows rest) (p.run read skip bytesRead s) (onMessage p r) :=
  InCode.run_endsAlike (read_endsAlike rest) (skip_endsAlike rest)
    (fun _ _ hs => shows_bytesRead hs) p h

/-- Code that goes through the first bytes of the buffer leaves the source at the
    bytes after them. -/
theorem run_of_ends {α : Type} {p : InProgram Exception α} {s : BufferedSource} {buf : Buffer}
    {data rest : Bytes} {r : Except Exception α} (hbuf : s.mBuffer = some buf)
    (hcontents : buf.contents = data ++ rest) (h : p.Ends buf.consumed data r) :
    ∃ s' buf', p.toCode.run read skip bytesRead s = resultOf r s' ∧ s'.stream = s.stream ∧
      s'.mBuffer = some buf' ∧ buf'.contents = rest := by
  have hshows : Shows s.stream s ⟨buf.consumed, data ++ rest⟩ := ⟨rfl, buf, hbuf, rfl, hcontents⟩
  have hends := run_endsAlike p.toCode hshows
  rw [onMessage, Reading.run_of_ends h rest] at hends
  obtain ⟨s', hrun, hstream, buf', hbuf', -, hcontents'⟩ := hends.exists_resultOf
  exact ⟨s', buf', hrun, hstream, hbuf', hcontents'⟩

/-- After `nextFrame` the buffer shows the whole message. -/
theorem nextFrame_shows {s : BufferedSource} {data rest : Bytes}
    (hs : s.stream = frame data ++ rest) (hpos : data ≠ []) (hlen : data.length ≤ maxFrameLength) :
    ∃ s', nextFrame s = .ok data.length s' ∧ Shows rest s' ⟨0, data⟩ := by
  obtain ⟨s', buf, hnext, hstream, hbuf, hconsumed, hcontents⟩ := nextFrame_ok hs hpos hlen
  exact ⟨s', hnext, hstream, buf, hbuf, hconsumed, hcontents⟩

end BufferedSource

end Arras4Core.Network
