/-
  Arras4Core.Message.Envelope

  Messages as they are written to a stream: the header (`MetadataImpl`), the
  content class, and content that is either user code (`ObjectContent`) or an
  already serialized block (`OpaqueContent`).
-/

import Arras4Core.Chunking.MessageChunk

namespace Arras4Core.Message

open Arras4Core.Lib
open Arras4Core.Api (Exception UUID ClassID Address AddressList DataOutStream DataInStream uuidBytes
  addressBytes readNat readUUID readAddress)
open Arras4Core.Chunking (MessageChunk)
open Arras4Core.Network (Bytes Buffer)

/-! ## Content -/

/-- `impl::OpaqueContent`. -/
structure OpaqueContent where
  mClassId : ClassID
  mVersion : UInt32
  mData : Buffer

/-- `api::ObjectContent`: what the library uses of an object of a user's content
    class.  `asMessageChunk` is the outcome of a dynamic cast to the library's
    own content class. -/
structure ObjectContent where
  classId : ClassID
  classVersion : UInt32
  serializedLength : Nat := 0
  serialize : DataOutStream Unit
  asMessageChunk : Option MessageChunk := none

/-- A message chunk as message content. -/
def ObjectContent.ofMessageChunk (chunk : MessageChunk) : ObjectContent where
  classId := MessageChunk.ID
  classVersion := MessageChunk.VERSION
  serialize := chunk.serialize
  asMessageChunk := some chunk

/-- `api::MessageContent`, by the outcome of the writer's dynamic casts. -/
inductive MessageContent
  | opaqueContent (content : OpaqueContent)
  | objectContent (content : ObjectContent)
  | other (classId : ClassID) (classVersion : UInt32)

namespace MessageContent

def classId : MessageContent → ClassID
  | opaqueContent c => c.mClassId
  | objectContent c => c.classId
  | other id _ => id

def classVersion : MessageContent → UInt32
  | opaqueContent c => c.mVersion
  | objectContent c => c.classVersion
  | other _ version => version

end MessageContent

/-! ## The header -/

def versionMajor : Nat := 4
def versionMinor : Nat := 0

def flagsMaskTrace : Nat := 0x01

/-- `impl::MetadataImpl`; the creation time is not sent. -/
structure MetadataImpl where
  mInstanceId : UUID
  mSourceId : UUID
  mFrom : Address
  mRoutingName : Bytes
  mTrace : Bool := false
  deriving DecidableEq

namespace MetadataImpl

/-- `nameLen`, a `uint16_t`. -/
def nameLen (m : MetadataImpl) : Nat := m.mRoutingName.length % 2 ^ 16

/-- The blocks of the header, one for each write. -/
def fields (m : MetadataImpl) (destinations : AddressList) : List Bytes :=
  [leBytes 4 (42 + m.nameLen),
    leBytes 2 (versionMajor * 2 ^ 8 + versionMinor),
    leBytes 2 (if m.mTrace then flagsMaskTrace else 0),
    uuidBytes m.mInstanceId,
    uuidBytes m.mSourceId,
    leBytes 2 m.nameLen,
    m.mRoutingName.take m.nameLen,
    leBytes 4 ((destinations.length + 1) % 2 ^ 32),
    addressBytes m.mFrom] ++ destinations.map addressBytes

def serialize (m : MetadataImpl) (destinations : AddressList) : DataOutStream Unit :=
  if m.nameLen = 0 then .throw (.messageFormatError "Routing name has zero length")
  else .writeAll (m.fields destinations)

/-- The constructor.  It draws random ids, which are null here; reading a header
    replaces them. -/
def new : MetadataImpl where
  mInstanceId := UUID.null
  mSourceId := UUID.null
  mFrom := {}
  mRoutingName := []

/-- Any version 4.x of the protocol is accepted. -/
def checkVersion (protocolVer : Nat) : DataInStream Unit :=
  let verMajor := protocolVer / 2 ^ 8
  if verMajor ≠ versionMajor then
    .throw (.messageFormatError
      s!"Incorrect messaging protocol major version {verMajor} : expected {versionMajor}")
  else pure ()

def readRoutingName (nameLen : Nat) : DataInStream Bytes :=
  if nameLen > 0 then .readBlock nameLen else pure []

/-- Skip the 'extension' section, up to `addrOffset`. -/
def skipExtension (initBytes addrOffset : Nat) : DataInStream Unit :=
  .bytesRead fun nowRead =>
    let bytesRead := nowRead - initBytes
    if bytesRead > addrOffset then .throw (.messageFormatError "Header length is too short")
    else if bytesRead < addrOffset then .skip (addrOffset - bytesRead) (.ret ())
    else pure ()

def checkAddressCount (nAddr : Nat) : DataInStream Unit :=
  if nAddr = 0 then .throw (.messageFormatError "Message must contain 'from' address")
  else pure ()

/-- The loop that reads the destinations: each is added at the end of the list,
    then read. -/
def readDestinations : Nat → AddressList → DataInStream AddressList
  | 0, destinations => pure destinations
  | count + 1, destinations => do
    let addr ← readAddress
    readDestinations count (destinations ++ [addr])

/-- The end of the header: the sender and the destinations. -/
def deserializeAddresses (destinations : AddressList) : DataInStream (Address × AddressList) := do
  let nAddr ← readNat 4
  checkAddressCount nAddr
  let sender ← readAddress
  let destinations ← readDestinations (nAddr - 1) destinations
  return (sender, destinations)

/-- What a header that is refused had set before is not kept: the envelope it
    was read into goes with it. -/
def deserialize (m : MetadataImpl) (destinations : AddressList) :
    DataInStream (MetadataImpl × AddressList) := do
  let initBytes ← .bytesRead .ret
  let addrOffset ← readNat 4
  let protocolVer ← readNat 2
  let flags ← readNat 2
  checkVersion protocolVer
  let instanceId ← readUUID
  let sourceId ← readUUID
  let nameLen ← readNat 2
  let routingName ← readRoutingName nameLen
  skipExtension initBytes addrOffset
  let addresses ← deserializeAddresses destinations
  return ({ m with
    mTrace := flags &&& flagsMaskTrace ≠ 0
    mInstanceId := instanceId
    mSourceId := sourceId
    mRoutingName := routingName
    mFrom := addresses.1 }, addresses.2)

theorem serialize_eval (m : MetadataImpl) (destinations : AddressList) (n : Nat) :
    (m.serialize destinations).eval n =
      if m.nameLen = 0 then
        ([], .error (.messageFormatError "Routing name has zero length"))
      else ((m.fields destinations).flatten, .ok ()) := by
  unfold serialize
  split
  · rfl
  · exact OutProgram.eval_writeAll _ _

end MetadataImpl

/-! ## The envelope -/

/-- `impl::Envelope`.  Both pointers may be null. -/
structure Envelope where
  mContent : Option MessageContent
  mMetadata : Option MetadataImpl
  mTo : AddressList := []

namespace Envelope

def classId (env : Envelope) : ClassID :=
  match env.mContent with
  | none => UUID.null
  | some content => content.classId

def classVersion (env : Envelope) : UInt32 :=
  match env.mContent with
  | none => 0
  | some content => content.classVersion

def serialize (env : Envelope) : DataOutStream Unit := do
  match env.mMetadata with
  | none => pure ()
  | some metadata => metadata.serialize env.mTo
  .writeAll [uuidBytes env.classId, leBytes 4 env.classVersion.toNat]

/-- `Envelope()`. -/
def new : Envelope where
  mContent := none
  mMetadata := some .new

def deserializeMetadata (env : Envelope) : DataInStream Envelope :=
  match env.mMetadata with
  | none => pure env
  | some metadata => do
    let header ← metadata.deserialize env.mTo
    return { env with mMetadata := some header.1, mTo := header.2 }

/-- Returns the envelope with the class and the version of the content. -/
def deserialize (env : Envelope) : DataInStream (Envelope × ClassID × UInt32) := do
  let env ← env.deserializeMetadata
  let classId ← readUUID
  let version ← readNat 4
  return (env, classId, UInt32.ofNat version)

def setContent (env : Envelope) (content : MessageContent) : Envelope :=
  { env with mContent := some content }

end Envelope

end Arras4Core.Message
