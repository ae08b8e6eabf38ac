/-
  Arras4Core.Network.Framing

  The basic framing protocol: a 16-byte header that gives the length of the
  data after it.  `BasicFramingSink` and `BasicFramingSource` are modelled over
  a reliable ordered byte stream that neither fails nor times out: the sink's
  stream is the bytes passed on so far, the source's is the bytes still to
  come, and a read that the stream cannot satisfy finds the peer disconnected.
-/

import Arras4Core.Api.Exception
import Arras4Core.Lib.Call
import Arras4Core.Network.Buffer

namespace Arras4Core.Network

open Arras4Core.Lib
open Arras4Core.Api (Exception)

/-! ## The header -/

inductive FrameType
  | frameBinary
  | frameUtf8
  | frameUnknown
  deriving DecidableEq

namespace FrameType

def code : FrameType → Nat
  | frameBinary => 0
  | frameUtf8 => 1
  | frameUnknown => 2

def ofCode : Nat → FrameType
  | 0 => frameBinary
  | 1 => frameUtf8
  | _ => frameUnknown

end FrameType

/-- `network::Frame`, the header of a frame. -/
structure Frame where
  mType : FrameType := .frameUnknown
  mLength : UInt32 := 0
  mReserved1 : UInt32 := 0
  mReserved2 : UInt32 := 0
  deriving DecidableEq

namespace Frame

/-- `sizeof(Frame)`. -/
def size : Nat := 16

/-- The bytes of a header in memory: four 32-bit little-endian words. -/
def toBytes (f : Frame) : Bytes :=
  leBytes 4 f.mType.code ++ leBytes 4 f.mLength.toNat ++ leBytes 4 f.mReserved1.toNat ++
    leBytes 4 f.mReserved2.toNat

def ofBytes (bytes : Bytes) : Frame where
  mType := FrameType.ofCode (leNat (bytes.take 4))
  mLength := UInt32.ofNat (leNat ((bytes.drop 4).take 4))
  mReserved1 := UInt32.ofNat (leNat ((bytes.drop 8).take 4))
  mReserved2 := UInt32.ofNat (leNat ((bytes.drop 12).take 4))

@[simp] theorem toBytes_length (f : Frame) : f.toBytes.length = size := by
  simp only [toBytes, List.length_append, leBytes_length, size]

/-- A header survives the trip through its bytes. -/
theorem ofBytes_toBytes (f : Frame) : ofBytes f.toBytes = f := by
  obtain ⟨type, length, reserved1, reserved2⟩ := f
  have hlt : ∀ n : UInt32, n.toNat < 256 ^ 4 := fun n => n.toNat_lt
  have hcode : type.code < 256 ^ 4 := by cases type <;> decide
  have htake : ∀ (n : Nat) (rest : Bytes), (leBytes 4 n ++ rest).take 4 = leBytes 4 n :=
    fun n rest => List.take_left' (leBytes_length 4 n)
  have hdrop : ∀ (n : Nat) (rest : Bytes), (leBytes 4 n ++ rest).drop 4 = rest :=
    fun n rest => List.drop_left' (leBytes_length 4 n)
  have hlast : ∀ n : Nat, (leBytes 4 n).take 4 = leBytes 4 n :=
    fun n => List.take_of_length_le (Nat.le_of_eq (leBytes_length 4 n))
  have h8 : ∀ bytes : Bytes, bytes.drop 8 = (bytes.drop 4).drop 4 := fun _ => by rw [List.drop_drop]
  have h12 : ∀ bytes : Bytes, bytes.drop 12 = ((bytes.drop 4).drop 4).drop 4 :=
    fun _ => by rw [List.drop_drop, List.drop_drop]
  simp only [ofBytes, toBytes, List.append_assoc, h8, h12, htake, hdrop, hlast,
    leNat_leBytes_of_lt, hlt, hcode, UInt32.ofNat_toNat]
  cases type <;> rfl

end Frame

/-- A complete frame: the header, then the data. -/
def frame (data : Bytes) : Bytes :=
  { mType := .frameBinary, mLength := UInt32.ofNat data.length : Frame }.toBytes ++ data

/-- Largest length the header can hold (`std::numeric_limits<unsigned int>::max()`). -/
def maxFrameLength : Nat := 4294967295

/-- With no frame open there is nothing to transfer. -/
theorem no_frame_le : (0 : Nat) ≤ 0 := Nat.le_refl 0

/-! ## The sink -/

/-- `network::BasicFramingSink`. -/
structure BasicFramingSink where
  mOutputSink : Bytes
  mBytesWritten : Nat := 0
  mFrameSize : Nat := 0
  written_le : mBytesWritten ≤ mFrameSize

namespace BasicFramingSink

def new (outputSink : Bytes) : BasicFramingSink where
  mOutputSink := outputSink
  written_le := no_frame_le

def remaining (s : BasicFramingSink) : Nat := s.mFrameSize - s.mBytesWritten

def write (data : Bytes) : EStateM Exception BasicFramingSink Nat := fun s =>
  if h : data.length ≤ s.remaining then
    .ok data.length
      { s with
        mOutputSink := s.mOutputSink ++ data
        mBytesWritten := s.mBytesWritten + data.length
        written_le := by have := s.written_le; simp only [remaining] at h; omega }
  else .error (.framingError "Attempt to write beyond end of data frame") s

def openFrame (frameSize : Nat) : EStateM Exception BasicFramingSink Bool := fun s =>
  if frameSize > maxFrameLength then
    .error (.framingError "Data is too long for the framing protocol. Limit is ~2Gb") s
  else
    let frameHdr : Frame := { mType := .frameBinary, mLength := UInt32.ofNat frameSize }
    .ok true
      { mOutputSink := s.mOutputSink ++ frameHdr.toBytes
        mFrameSize := frameSize
        mBytesWritten := 0
        written_le := Nat.zero_le _ }

def closeFrame : EStateM Exception BasicFramingSink Bool := fun s =>
  if s.remaining ≠ 0 then .error (.framingError "Not enough data written to fill frame") s
  else .ok true { s with mFrameSize := 0, mBytesWritten := 0, written_le := no_frame_le }

/-- A write within the frame passes the data on. -/
theorem write_ok {s : BasicFramingSink} {data : Bytes} (h : data.length ≤ s.remaining) :
    ∃ s', write data s = .ok data.length s' ∧ s'.mOutputSink = s.mOutputSink ++ data ∧
      s'.remaining = s.remaining - data.length := by
  refine ⟨_, by rw [write, dif_pos h], rfl, ?_⟩
  simp only [remaining]
  omega

theorem openFrame_ok {frameSize : Nat} (h : frameSize ≤ maxFrameLength) (s : BasicFramingSink) :
    ∃ s', openFrame frameSize s = .ok true s' ∧ s'.remaining = frameSize ∧
      s'.mOutputSink = s.mOutputSink ++
        { mType := .frameBinary, mLength := UInt32.ofNat frameSize : Frame }.toBytes := by
  refine ⟨_, by rw [openFrame, if_neg (Nat.not_lt.mpr h)], ?_, rfl⟩
  simp only [remaining, Nat.sub_zero]

theorem closeFrame_ok {s : BasicFramingSink} (h : s.remaining = 0) :
    ∃ s', closeFrame s = .ok true s' ∧ s'.mOutputSink = s.mOutputSink :=
  ⟨_, if_neg (not_not_intro h), rfl⟩

end BasicFramingSink

/-! ## The source -/

/-- `DataSource::read` on the stream: all of the bytes, or the peer is gone. -/
def readStream (length : Nat) : EStateM Exception Bytes Bytes := fun stream =>
  if length ≤ stream.length then .ok (stream.take length) (stream.drop length)
  else .error .peerDisconnectException stream

/-- `DataSource::skip` on the stream; `skips` is false for a `PeerSourceAndSink`. -/
def skipStream (skips : Bool) (length : Nat) : EStateM Exception Bytes Nat := fun stream =>
  if !skips then .error (.peerException "Skip not supported for Peer source") stream
  else if length ≤ stream.length then .ok length (stream.drop length)
  else .error .peerDisconnectException stream

/-- `network::BasicFramingSource`. -/
structure BasicFramingSource where
  mInputSource : Bytes
  mBytesRead : Nat := 0
  mFrameSize : Nat := 0
  read_le : mBytesRead ≤ mFrameSize

namespace BasicFramingSource

def new (inputSource : Bytes) : BasicFramingSource where
  mInputSource := inputSource
  read_le := no_frame_le

def remaining (s : BasicFramingSource) : Nat := s.mFrameSize - s.mBytesRead

def read (length : Nat) : EStateM Exception BasicFramingSource Bytes := fun s =>
  if h : length ≤ s.remaining then
    match readStream length s.mInputSource with
    | .ok data rest =>
      .ok data
        { s with
          mInputSource := rest
          mBytesRead := s.mBytesRead + length
          read_le := by have := s.read_le; simp only [remaining] at h; omega }
    | .error e rest => .error e { s with mInputSource := rest }
  else .error (.framingError "Attempt to read beyond end of data frame") s

def skip (skips : Bool) (length : Nat) : EStateM Exception BasicFramingSource Nat := fun s =>
  if h : length ≤ s.remaining then
    match skipStream skips length s.mInputSource with
    | .ok skipped rest =>
      .ok skipped
        { s with
          mInputSource := rest
          mBytesRead := s.mBytesRead + length
          read_le := by have := s.read_le; simp only [remaining] at h; omega }
    | .error e rest => .error e { s with mInputSource := rest }
  else .error (.framingError "Attempt to skip beyond end of data frame") s

def nextFrame : EStateM Exception BasicFramingSource Nat := fun s =>
  match readStream Frame.size s.mInputSource with
  | .ok bytes rest =>
    .ok (Frame.ofBytes bytes).mLength.toNat
      { mInputSource := rest
        mFrameSize := (Frame.ofBytes bytes).mLength.toNat
        mBytesRead := 0
        read_le := Nat.zero_le _ }
  | .error e rest => .error e { s with mInputSource := rest }

def endFrame (s : BasicFramingSource) : BasicFramingSource :=
  { s with mFrameSize := 0, mBytesRead := 0, read_le := no_frame_le }

/-- The next frame's length is read off its header. -/
theorem nextFrame_ok {s : BasicFramingSource} {data rest : Bytes}
    (hs : s.mInputSource = frame data ++ rest) (hlen : data.length ≤ maxFrameLength) :
    ∃ s', nextFrame s = .ok data.length s' ∧ s'.mInputSource = data ++ rest ∧
      s'.remaining = data.length := by
  have hread : readStream Frame.size s.mInputSource
      = .ok { mType := .frameBinary, mLength := UInt32.ofNat data.length : Frame }.toBytes
          (data ++ rest) := by
    rw [hs, frame, List.append_assoc, readStream, if_pos (by simp),
      List.take_left' (Frame.toBytes_length _), List.drop_left' (Frame.toBytes_length _)]
  have hlt : data.length < 2 ^ 32 := by
    simp only [maxFrameLength] at hlen
    omega
  -- the length survives its 32 bits
  have hback : (UInt32.ofNat data.length).toNat = data.length := UInt32.toNat_ofNat_of_lt hlt
  rw [nextFrame, hread]
  simp only [Frame.ofBytes_toBytes, hback]
  exact ⟨_, rfl, rfl, by simp only [remaining, Nat.sub_zero]⟩

/-- A read within the frame takes the next bytes of the stream. -/
theorem read_ok {s : BasicFramingSource} {data rest : Bytes}
    (hs : s.mInputSource = data ++ rest) (hlen : data.length ≤ s.remaining) :
    ∃ s', read data.length s = .ok data s' ∧ s'.mInputSource = rest ∧
      s'.remaining = s.remaining - data.length := by
  have hread : readStream data.length s.mInputSource = .ok data rest := by
    rw [hs, readStream, if_pos (by simp), List.take_left, List.drop_left]
  refine ⟨_, by rw [read, dif_pos hlen, hread], rfl, ?_⟩
  simp only [remaining]
  omega

/-- A skip within the frame does the same to the stream, where the stream can. -/
theorem skip_ok {s : BasicFramingSource} {data rest : Bytes}
    (hs : s.mInputSource = data ++ rest) (hlen : data.length ≤ s.remaining) :
    ∃ s', skip true data.length s = .ok data.length s' ∧ s'.mInputSource = rest ∧
      s'.remaining = s.remaining - data.length := by
  have hskip : skipStream true data.length s.mInputSource = .ok data.length rest := by
    rw [hs, skipStream, if_neg (by simp), if_pos (by simp), List.drop_left]
  refine ⟨_, by rw [skip, dif_pos hlen, hskip], rfl, ?_⟩
  simp only [remaining]
  omega

theorem skip_unsupported {s : BasicFramingSource} {length : Nat} (hlen : length ≤ s.remaining) :
    skip false length s = .error (.peerException "Skip not supported for Peer source") s := by
  rw [skip, dif_pos hlen]
  rfl

end BasicFramingSource

end Arras4Core.Network
