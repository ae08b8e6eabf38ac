/-
  Arras4Core.Connection.Channel

  One direction of a connection between two `PeerMessageEndpoint`s, each under the
  chunking filter: the writer at one end, the bytes on the way, the reader at the
  other.  The socket takes bytes in order and may break at any byte.

  A step is a call of `putEnvelope`, some bytes that arrive, or one pass of the loop
  that `getEnvelope` makes around the reader.  A pass waits until the whole frame is
  there.
-/

import Arras4Core.Chunking.WireChunk
import Arras4Core.Lib.System

namespace Arras4Core.Connection

open Arras4Core.Lib
open Arras4Core.Api (Exception ClassID)
open Arras4Core.Chunking (ChunkingConfig ContentRegistry MessageChunk UnchunkerMap)
open Arras4Core.Message (ContentFactories Envelope MessageReader MessageWriter)
open Arras4Core.Network (Bytes Frame)

/-! ## The sending end -/

/-- `ChunkingMessageEndpoint::putEnvelope` over an endpoint with the given `putEnvelope`:
    the envelopes it hands on are put one after the other, and the first that is
    refused ends the call. -/
def putThrough {σ : Type} (put : Envelope → EStateM Exception σ Unit) (mConfig : ChunkingConfig)
    (envelope : Envelope) : EStateM Exception σ Unit :=
  match Chunking.putEnvelope mConfig envelope [] with
  | .ok _ handedOn => handedOn.forM put
  | .error e handedOn => do
    handedOn.forM put
    throw e

/-- What a call of a `PeerMessageEndpoint` throws when it finds the peer
    disconnected. -/
def disconnected (mShutdown : Bool) : Exception :=
  if mShutdown then .shutdownException else .peerDisconnectException

/-! ## The receiving end -/

/-- The content registry: the classes of the program and the library's own chunk. -/
def factories (registry : ContentRegistry) : ContentFactories := fun classId version =>
  if classId = MessageChunk.ID then some MessageChunk.create.toCode
  else (registry classId version).map Lib.InProgram.toCode

/-- A complete frame is at the front of the bytes. -/
def hasFrame (stream : Bytes) : Bool :=
  decide (Frame.size + (Frame.ofBytes (stream.take Frame.size)).mLength.toNat ≤ stream.length)

/-- More bytes to read. -/
def arrive (data : Bytes) (r : MessageReader) : MessageReader :=
  r.setSource { r.mSource with
    mInputSource := { r.mSource.mInputSource with
      mInputSource := r.mSource.mInputSource.mInputSource ++ data } }

/-- A read that the disconnect interrupts has taken what there was. -/
def exhaust (r : MessageReader) : MessageReader :=
  r.setSource { r.mSource with mInputSource := { r.mSource.mInputSource with mInputSource := [] } }

@[simp] theorem stream_arrive (data : Bytes) (r : MessageReader) :
    (arrive data r).stream = r.stream ++ data := rfl

@[simp] theorem stream_exhaust (r : MessageReader) : (exhaust r).stream = [] := rfl

/-- What one pass of the loop of `getEnvelope` ends with. -/
inductive Received
  /-- the call returns the envelope -/
  | returned (envelope : Envelope)
  /-- a filter under the chunking filter took the envelope -/
  | consumed (envelope : Envelope)
  /-- the call throws -/
  | threw (e : Exception)

/-! ## The channel -/

/-- The two ends and the bytes between them, with the history of the calls. -/
structure Channel where
  mWriter : MessageWriter
  mReader : MessageReader
  mUnchunkers : UnchunkerMap := ∅
  /-- `mShutdown` of the endpoint that puts -/
  putShutdown : Bool := false
  /-- `mShutdown` of the endpoint that gets -/
  getShutdown : Bool := false
  /-- written to the socket, and not yet at the other end -/
  wire : Bytes := []
  /-- the connection is lost: nothing more gets on the way -/
  broken : Bool := false
  /-- those for which `putEnvelope` returned -/
  put : List Envelope := []
  /-- those for which it threw -/
  refused : List (Envelope × Exception) := []
  /-- what the passes ended with -/
  received : List Received := []
  /-- thrown by the transport at the receiving end -/
  failures : List Exception := []

namespace Channel

variable (mConfig : ChunkingConfig) (registry : ContentRegistry) (consumes : ClassID → Bool)

/-- The bytes that a call has written. -/
def written (s : Channel) (w : MessageWriter) : Bytes := w.stream.drop s.mWriter.stream.length

/-- Bytes get on the way as long as the connection holds. -/
def onWire (s : Channel) (data : Bytes) : Bytes := if s.broken then s.wire else s.wire ++ data

/-- `putEnvelope`; all that it writes gets to the socket. -/
def putEnvelope (s : Channel) (envelope : Envelope) : Except Exception Unit × Channel :=
  if s.putShutdown then
    (.error .shutdownException,
      { s with refused := s.refused ++ [(envelope, .shutdownException)] })
  else
    match putThrough MessageWriter.write mConfig envelope s.mWriter with
    | .ok _ w =>
      (.ok (), { s with mWriter := w, wire := s.onWire (s.written w), put := s.put ++ [envelope] })
    | .error e w =>
      (.error e,
        { s with
          mWriter := w
          wire := s.onWire (s.written w)
          refused := s.refused ++ [(envelope, e)] })

/-- `putEnvelope`, in which the connection breaks after `n` bytes. -/
def putBreaks (s : Channel) (envelope : Envelope) (n : Nat) : Option Channel :=
  match putThrough MessageWriter.write mConfig envelope s.mWriter with
  | .ok _ w | .error _ w =>
    onlyIf (n < (s.written w).length)
      { s with
        mWriter := w
        wire := s.onWire ((s.written w).take n)
        broken := true
        refused := s.refused ++ [(envelope, disconnected s.putShutdown)] }

/-- One pass of the loop: the reader, the filter and the unchunker.  Nothing, when the
    loop goes on. -/
def pass (s : Channel) : Option Received × Channel :=
  match MessageReader.read (factories registry) true s.mReader with
  | .error e r => (some (.threw e), { s with mReader := r })
  | .ok envelope r =>
    if consumes envelope.classId then (some (.consumed envelope), { s with mReader := r })
    else
      match Chunking.receive registry envelope s.mUnchunkers with
      | (.error e, mUnchunkers) => (some (.threw e), { s with mReader := r, mUnchunkers })
      | (.ok none, mUnchunkers) => (none, { s with mReader := r, mUnchunkers })
      | (.ok (some whole), mUnchunkers) =>
        (some (.returned whole), { s with mReader := r, mUnchunkers })

/-- The history after a pass. -/
def record (result : Option Received × Channel) : Channel :=
  { result.2 with received := result.2.received ++ result.1.toList }

inductive Event
  -- the sending end
  | putEnvelope (envelope : Envelope)
  | putBreaks (envelope : Envelope) (n : Nat)
  | putShutdown
  -- the connection
  | transfers (n : Nat)
  | breaks (n : Nat)
  -- the receiving end
  | passes
  | disconnects
  | getsShutdown
  | getShutdown

def step (s : Channel) : Event → Option Channel
  | .putEnvelope envelope => some (s.putEnvelope mConfig envelope).2
  | .putBreaks envelope n => s.putBreaks mConfig envelope n
  | .putShutdown => some { s with putShutdown := true }
  | .transfers n =>
    onlyIf (n ≤ s.wire.length)
      { s with mReader := arrive (s.wire.take n) s.mReader, wire := s.wire.drop n }
  | .breaks n => some { s with wire := s.wire.take n, broken := true }
  | .passes =>
    onlyIf (hasFrame s.mReader.stream = true ∧ s.getShutdown = false)
      (record (s.pass registry consumes))
  | .disconnects =>
    -- the rest of the frame will not come
    onlyIf (hasFrame s.mReader.stream = false ∧ s.getShutdown = false ∧ s.broken = true ∧
        s.wire = [])
      { s with
        mReader := exhaust s.mReader
        failures := s.failures ++ [disconnected s.getShutdown] }
  | .getsShutdown =>
    -- refused at once, or interrupted
    onlyIf (s.getShutdown = true) { s with failures := s.failures ++ [disconnected s.getShutdown] }
  | .getShutdown => some { s with getShutdown := true }

/-- Nothing is on its way, and the reader has nothing to read. -/
def system : System Channel Event where
  init s := s = { mWriter := s.mWriter, mReader := s.mReader } ∧ s.mReader.stream = []
  step := step mConfig registry consumes

end Channel

end Arras4Core.Connection
