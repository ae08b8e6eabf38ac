/-
  Arras4Core.Message.CoreMessages

  The library's own content classes, and the registry that knows how to create an
  object of a class.  Each class writes its members one after the other and reads them
  in the same order, so an object comes back from a stream as it was.

  Main result: `CoreMessage.decodes_self`.
-/

import Arras4Core.Connection.Pieces
import Arras4Core.Dispatch.MessageDispatcher
import Arras4Core.Lib.Codec

namespace Arras4Core.Message

open Arras4Core.Lib
open Arras4Core.Api
open Arras4Core.Chunking (ContentRegistry MessageChunk)
open Arras4Core.Connection (Decodes)
open Arras4Core.Network (Bytes)

/-! ## Members -/

instance : Codec Exception UUID where
  put id := .write (uuidBytes id) (.ret ())
  get := readUUID
  bytes := uuidBytes
  Fits _ := True
  put_eval id n := by
    show (uuidBytes id ++ [], _) = _
    rw [List.append_nil]
    rfl
  ends_get id n _ := ends_readUUID id n

/-- `std::string`. -/
instance : Codec Exception Bytes where
  put := OutStreamImpl.write
  get := InStreamImpl.read
  bytes val := leBytes 4 (val.length % 256 ^ 4) ++ val.take (val.length % 256 ^ 4)
  Fits val := val.length < 2 ^ 32
  put_eval val n := by
    unfold OutStreamImpl.write writeString
    rw [OutProgram.eval_writeAll]
    simp only [List.flatten_cons, List.flatten_nil, List.append_nil]
  ends_get val n h := by
    have hlt : val.length < 256 ^ 4 := h
    rw [Nat.mod_eq_of_lt hlt, List.take_length]
    exact ends_readString h n

/-- `to << val`. -/
abbrev write {α : Type} [Codec Exception α] (val : α) : DataOutStream Unit := Codec.put val

/-- `from >> val`. -/
abbrev read {α : Type} [Codec Exception α] : DataInStream α := Codec.get

/-- A member of a type of fixed size always fits, a string by its length. -/
abbrev Fits {α : Type} [Codec Exception α] (val : α) : Prop := Codec.Fits Exception val

/-- The bytes of a member. -/
abbrev memberBytes {α : Type} [Codec Exception α] (val : α) : Bytes := Codec.bytes Exception val

/-! ## The classes -/

structure ControlMessage where
  mCommand : Bytes
  mData : Bytes := []
  mExtra : Bytes := []

namespace ControlMessage

/-- 0f5db360-a67d-4485-b6a4-e1652a399925 -/
def ID : ClassID :=
  ⟨#v[0x0f, 0x5d, 0xb3, 0x60, 0xa6, 0x7d, 0x44, 0x85,
      0xb6, 0xa4, 0xe1, 0x65, 0x2a, 0x39, 0x99, 0x25]⟩

def serialize (m : ControlMessage) : DataOutStream Unit := do
  write m.mCommand
  write m.mData
  write m.mExtra

def deserialize : DataInStream ControlMessage := do
  let mCommand ← read
  let mData ← read
  let mExtra ← read
  return { mCommand, mData, mExtra }

instance : Codec Exception ControlMessage where
  put := serialize
  get := deserialize
  bytes m := memberBytes m.mCommand ++ (memberBytes m.mData ++ memberBytes m.mExtra)
  Fits m := Fits m.mCommand ∧ Fits m.mData ∧ Fits m.mExtra
  put_eval m n := by
    unfold serialize
    rw [Codec.eval_put_bind, Codec.eval_put_bind, Codec.put_eval]
  ends_get m n h := by
    refine Codec.ends_get_bind h.1 (Codec.ends_get_bind h.2.1 ?_)
    exact Codec.ends_get_pure h.2.2 _ _

end ControlMessage

structure EngineReadyMessage where
  mEncoderOutputUri : Bytes := []
  mSDPData : Bytes := []

namespace EngineReadyMessage

/-- 5ed7ec10-3386-452f-b138-aa9f52d581af -/
def ID : ClassID :=
  ⟨#v[0x5e, 0xd7, 0xec, 0x10, 0x33, 0x86, 0x45, 0x2f,
      0xb1, 0x38, 0xaa, 0x9f, 0x52, 0xd5, 0x81, 0xaf]⟩

def serialize (m : EngineReadyMessage) : DataOutStream Unit := do
  write m.mEncoderOutputUri
  write m.mSDPData

def deserialize : DataInStream EngineReadyMessage := do
  let mEncoderOutputUri ← read
  let mSDPData ← read
  return { mEncoderOutputUri, mSDPData }

instance : Codec Exception EngineReadyMessage where
  put := serialize
  get := deserialize
  bytes m := memberBytes m.mEncoderOutputUri ++ memberBytes m.mSDPData
  Fits m := Fits m.mEncoderOutputUri ∧ Fits m.mSDPData
  put_eval m n := by
    unfold serialize
    rw [Codec.eval_put_bind, Codec.put_eval]
  ends_get m n h := Codec.ends_get_bind h.1 (Codec.ends_get_pure h.2 _ _)

end EngineReadyMessage

/-- The floating point members are the four bytes they are written as. -/
structure ExecutorHeartbeat where
  mTransmitSecs : UInt64 := 0
  mTransmitMicroSecs : UInt64 := 0
  mThreads : UInt16 := 0
  mCpuUsage5SecsCurrent : UInt32 := 0
  mCpuUsage60SecsCurrent : UInt32 := 0
  mCpuUsageTotalSecs : UInt32 := 0
  mHyperthreaded : Bool := false
  mMemoryUsageBytesCurrent : UInt64 := 0
  mSentMessages5Sec : UInt64 := 0
  mSentMessages60Sec : UInt64 := 0
  mSentMessagesTotal : UInt64 := 0
  mReceivedMessages5Sec : UInt64 := 0
  mReceivedMessages60Sec : UInt64 := 0
  mReceivedMessagesTotal : UInt64 := 0
  mStatus : Bytes := []

namespace ExecutorHeartbeat

def ID : ClassID := Dispatch.ExecutorHeartbeat.CLASS_ID

def serialize (m : ExecutorHeartbeat) : DataOutStream Unit := do
  write m.mTransmitSecs
  write m.mTransmitMicroSecs
  write m.mThreads
  write m.mCpuUsage5SecsCurrent
  write m.mCpuUsage60SecsCurrent
  write m.mCpuUsageTotalSecs
  write m.mHyperthreaded
  write m.mMemoryUsageBytesCurrent
  write m.mSentMessages5Sec
  write m.mSentMessages60Sec
  write m.mSentMessagesTotal
  write m.mReceivedMessages5Sec
  write m.mReceivedMessages60Sec
  write m.mReceivedMessagesTotal
  write m.mStatus

def deserialize : DataInStream ExecutorHeartbeat := do
  let mTransmitSecs ← read
  let mTransmitMicroSecs ← read
  let mThreads ← read
  let mCpuUsage5SecsCurrent ← read
  let mCpuUsage60SecsCurrent ← read
  let mCpuUsageTotalSecs ← read
  let mHyperthreaded ← read
  let mMemoryUsageBytesCurrent ← read
  let mSentMessages5Sec ← read
  let mSentMessages60Sec ← read
  let mSentMessagesTotal ← read
  let mReceivedMessages5Sec ← read
  let mReceivedMessages60Sec ← read
  let mReceivedMessagesTotal ← read
  let mStatus ← read
  return {
    mTransmitSecs, mTransmitMicroSecs, mThreads, mCpuUsage5SecsCurrent, mCpuUsage60SecsCurrent,
    mCpuUsageTotalSecs, mHyperthreaded, mMemoryUsageBytesCurrent, mSentMessages5Sec,
    mSentMessages60Sec, mSentMessagesTotal, mReceivedMessages5Sec, mReceivedMessages60Sec,
    mReceivedMessagesTotal, mStatus }

instance : Codec Exception ExecutorHeartbeat where
  put := serialize
  get := deserialize
  bytes m := memberBytes m.mTransmitSecs ++ (memberBytes m.mTransmitMicroSecs ++
    (memberBytes m.mThreads ++ (memberBytes m.mCpuUsage5SecsCurrent ++
    (memberBytes m.mCpuUsage60SecsCurrent ++ (memberBytes m.mCpuUsageTotalSecs ++
    (memberBytes m.mHyperthreaded ++ (memberBytes m.mMemoryUsageBytesCurrent ++
    (memberBytes m.mSentMessages5Sec ++ (memberBytes m.mSentMessages60Sec ++
    (memberBytes m.mSentMessagesTotal ++ (memberBytes m.mReceivedMessages5Sec ++
    (memberBytes m.mReceivedMessages60Sec ++ (memberBytes m.mReceivedMessagesTotal ++
    memberBytes m.mStatus)))))))))))))
  Fits m := Fits m.mStatus
  put_eval m n := by
    unfold serialize
    simp only [Codec.eval_put_bind, Codec.put_eval]
  ends_get m n h := by
    unfold deserialize
    -- the numbers always fit
    iterate 14 refine Codec.ends_get_bind trivial ?_
    exact Codec.ends_get_pure h _ _

end ExecutorHeartbeat

structure PingMessage where
  mRequestType : Bytes := []

namespace PingMessage

/-- a400811c-524a-4c8a-b316-55af530fc3ca -/
def ID : ClassID :=
  ⟨#v[0xa4, 0x00, 0x81, 0x1c, 0x52, 0x4a, 0x4c, 0x8a,
      0xb3, 0x16, 0x55, 0xaf, 0x53, 0x0f, 0xc3, 0xca]⟩

def serialize (m : PingMessage) : DataOutStream Unit := write m.mRequestType

def deserialize : DataInStream PingMessage := do
  let mRequestType ← read
  return { mRequestType }

instance : Codec Exception PingMessage where
  put := serialize
  get := deserialize
  bytes m := memberBytes m.mRequestType
  Fits m := Fits m.mRequestType
  put_eval m n := Codec.put_eval m.mRequestType n
  ends_get _ n h := Codec.ends_get_pure h _ n

end PingMessage

structure PongMessage where
  mSourceId : UUID
  mName : Bytes := []
  mEntityType : Bytes := []
  mResponseType : Bytes := []
  mTimeSecs : UInt64 := 0
  mTimeMicroSecs : UInt32 := 0
  mPayload : Bytes := []

namespace PongMessage

/-- 1f8a6b11-0cb1-4bdd-b751-d66f6c71d8e2 -/
def ID : ClassID :=
  ⟨#v[0x1f, 0x8a, 0x6b, 0x11, 0x0c, 0xb1, 0x4b, 0xdd,
      0xb7, 0x51, 0xd6, 0x6f, 0x6c, 0x71, 0xd8, 0xe2]⟩

def serialize (m : PongMessage) : DataOutStream Unit := do
  write m.mSourceId
  write m.mName
  write m.mEntityType
  write m.mResponseType
  write m.mTimeSecs
  write m.mTimeMicroSecs
  write m.mPayload

def deserialize : DataInStream PongMessage := do
  let mSourceId ← read
  let mName ← read
  let mEntityType ← read
  let mResponseType ← read
  let mTimeSecs ← read
  let mTimeMicroSecs ← read
  let mPayload ← read
  return { mSourceId, mName, mEntityType, mResponseType, mTimeSecs, mTimeMicroSecs, mPayload }

instance : Codec Exception PongMessage where
  put := serialize
  get := deserialize
  bytes m := memberBytes m.mSourceId ++ (memberBytes m.mName ++ (memberBytes m.mEntityType ++
    (memberBytes m.mResponseType ++ (memberBytes m.mTimeSecs ++ (memberBytes m.mTimeMicroSecs ++
    memberBytes m.mPayload)))))
  Fits m := Fits m.mName ∧ Fits m.mEntityType ∧ Fits m.mResponseType ∧ Fits m.mPayload
  put_eval m n := by
    unfold serialize
    simp only [Codec.eval_put_bind, Codec.put_eval]
  ends_get m n h := by
    obtain ⟨hname, hentity, hresponse, hpayload⟩ := h
    unfold deserialize
    refine Codec.ends_get_bind trivial ?_
    refine Codec.ends_get_bind hname ?_
    refine Codec.ends_get_bind hentity ?_
    refine Codec.ends_get_bind hresponse ?_
    refine Codec.ends_get_bind trivial ?_
    refine Codec.ends_get_bind trivial ?_
    exact Codec.ends_get_pure hpayload _ _

end PongMessage

structure SessionStatusMessage where
  mValue : Bytes := []

namespace SessionStatusMessage

/-- 98e3f258-14b7-45f0-87f7-f5382e2ddca1 -/
def ID : ClassID :=
  ⟨#v[0x98, 0xe3, 0xf2, 0x58, 0x14, 0xb7, 0x45, 0xf0,
      0x87, 0xf7, 0xf5, 0x38, 0x2e, 0x2d, 0xdc, 0xa1]⟩

def serialize (m : SessionStatusMessage) : DataOutStream Unit := write m.mValue

def deserialize : DataInStream SessionStatusMessage := do
  let mValue ← read
  return { mValue }

instance : Codec Exception SessionStatusMessage where
  put := serialize
  get := deserialize
  bytes m := memberBytes m.mValue
  Fits m := Fits m.mValue
  put_eval m n := Codec.put_eval m.mValue n
  ends_get _ n h := Codec.ends_get_pure h _ n

end SessionStatusMessage

/-! ## The registry -/

/-- `api::ContentFactory`, with the `deserialize` of the object it creates. -/
abbrev ContentFactory := UInt32 → DataInStream ObjectContent

/-- `ContentRegistry::mMap`. -/
abbrev FactoryMap := List (ClassID × ContentFactory)

namespace FactoryMap

/-- A null factory is ignored, and `insert` keeps a class that is there. -/
def registerFactory (mMap : FactoryMap) (classId : ClassID) : Option ContentFactory → FactoryMap
  | none => mMap
  | some factory => if mMap.any (·.1 = classId) then mMap else mMap ++ [(classId, factory)]

/-- `create`, and then `deserialize` of the new object. -/
def create (mMap : FactoryMap) : ContentRegistry := fun classId version =>
  (mMap.find? (·.1 = classId)).map fun entry => entry.2 version

/-- The registrations of the program, in the order of static initialization. -/
def registerAll (registrations : List (ClassID × Option ContentFactory)) : FactoryMap :=
  registrations.foldl (fun mMap r => mMap.registerFactory r.1 r.2) []

/-- A class keeps the factory that it has. -/
theorem create_registerFactory (mMap : FactoryMap) (classId : ClassID)
    (factory : Option ContentFactory) (id : ClassID) (version : UInt32) :
    (mMap.registerFactory classId factory).create id version
      = (mMap.create id version).or
          (if classId = id then factory.map fun f => f version else none) := by
  cases factory with
  | none =>
    rw [registerFactory, Option.map_none, ite_self, Option.or_none]
  | some f =>
    rw [registerFactory, create, create, Option.map_some]
    by_cases hthere : mMap.any (·.1 = classId) = true
    · rw [if_pos hthere]
      by_cases hid : classId = id
      · subst hid
        obtain ⟨entry, hmem, heq⟩ := List.any_eq_true.mp hthere
        have hfound : (mMap.find? (·.1 = classId)).isSome :=
          List.find?_isSome.mpr ⟨entry, hmem, heq⟩
        obtain ⟨there, hfind⟩ := Option.isSome_iff_exists.mp hfound
        rw [hfind, Option.map_some, Option.some_or]
      · rw [if_neg hid, Option.or_none]
    · rw [if_neg hthere, List.find?_append, List.find?_singleton]
      by_cases hid : classId = id
      · simp only [hid, decide_true, if_true, Option.map_or, Option.map_some]
      · simp only [hid, decide_false, if_false, Bool.false_eq_true, Option.or_none]

/-- What a class is created by, in terms of all registrations. -/
theorem create_registerAll (registrations : List (ClassID × Option ContentFactory)) (id : ClassID)
    (version : UInt32) :
    (registerAll registrations).create id version
      = registrations.findSome? fun r => if r.1 = id then r.2.map fun f => f version else none := by
  have hgeneral : ∀ (mMap : FactoryMap),
      (registrations.foldl (fun m r => registerFactory m r.1 r.2) mMap).create id version
        = (mMap.create id version).or (registrations.findSome? fun r =>
            if r.1 = id then r.2.map fun f => f version else none) := by
    intro mMap
    induction registrations generalizing mMap with
    | nil => rw [List.foldl_nil, List.findSome?_nil, Option.or_none]
    | cons r rest ih =>
      rw [List.foldl_cons, ih, create_registerFactory, List.findSome?_cons]
      cases hfirst : mMap.create id version with
      | some program => simp only [Option.some_or]
      | none =>
        rw [Option.none_or, Option.none_or]
        cases (if r.1 = id then r.2.map fun f => f version else none) with
        | none => rw [Option.none_or]
        | some program => rw [Option.some_or]
  exact (hgeneral []).trans Option.none_or

/-- A class that only one factory is registered for. -/
theorem create_of_only {registrations : List (ClassID × Option ContentFactory)} {id : ClassID}
    {factory : ContentFactory} (hmem : (id, some factory) ∈ registrations)
    (honly : ∀ r ∈ registrations, r.1 = id → r.2 = some factory) (version : UInt32) :
    (registerAll registrations).create id version = some (factory version) := by
  rw [create_registerAll]
  have hsome : (registrations.findSome? fun r =>
      if r.1 = id then r.2.map fun f => f version else none).isSome := by
    rw [List.findSome?_isSome_iff]
    refine ⟨(id, some factory), hmem, ?_⟩
    rw [if_pos rfl]
    rfl
  obtain ⟨program, hprogram⟩ := Option.isSome_iff_exists.mp hsome
  rw [hprogram]
  obtain ⟨r, hr, heq⟩ := List.exists_of_findSome?_eq_some hprogram
  by_cases hid : r.1 = id
  · rw [if_pos hid, honly r hr hid] at heq
    exact heq.symm
  · rw [if_neg hid] at heq
    cases heq

end FactoryMap

/-! ## The library's own classes -/

/-- An object of one of the classes. -/
inductive CoreMessage
  | control (m : ControlMessage)
  | engineReady (m : EngineReadyMessage)
  | executorHeartbeat (m : ExecutorHeartbeat)
  | ping (m : PingMessage)
  | pong (m : PongMessage)
  | sessionStatus (m : SessionStatusMessage)

namespace CoreMessage

/-- `ARRAS_CONTENT_CLASS`: the class, its id and its version, which is 0 for all of
    them. -/
def contentOf {α : Type} [Codec Exception α] (classId : ClassID) (m : α) : ObjectContent where
  classId := classId
  classVersion := 0
  serialize := write m

/-- `SimpleContentFactory::create`, and `deserialize`. -/
def factoryOf (α : Type) [Codec Exception α] (classId : ClassID) : ContentFactory := fun _ => do
  let m : α ← read
  return contentOf classId m

def toContent : CoreMessage → ObjectContent
  | .control m => contentOf ControlMessage.ID m
  | .engineReady m => contentOf EngineReadyMessage.ID m
  | .executorHeartbeat m => contentOf ExecutorHeartbeat.ID m
  | .ping m => contentOf PingMessage.ID m
  | .pong m => contentOf PongMessage.ID m
  | .sessionStatus m => contentOf SessionStatusMessage.ID m

/-- The strings have a length that can be told. -/
def Fits : CoreMessage → Prop
  | .control m => Message.Fits m
  | .engineReady m => Message.Fits m
  | .executorHeartbeat m => Message.Fits m
  | .ping m => Message.Fits m
  | .pong m => Message.Fits m
  | .sessionStatus m => Message.Fits m

/-- `ARRAS_CONTENT_IMPL`, once for each class. -/
def registrations : List (ClassID × Option ContentFactory) :=
  [(ControlMessage.ID, some (factoryOf ControlMessage ControlMessage.ID)),
    (EngineReadyMessage.ID, some (factoryOf EngineReadyMessage EngineReadyMessage.ID)),
    (ExecutorHeartbeat.ID, some (factoryOf ExecutorHeartbeat ExecutorHeartbeat.ID)),
    (PingMessage.ID, some (factoryOf PingMessage PingMessage.ID)),
    (PongMessage.ID, some (factoryOf PongMessage PongMessage.ID)),
    (SessionStatusMessage.ID, some (factoryOf SessionStatusMessage SessionStatusMessage.ID))]

def classIds : List ClassID := registrations.map Prod.fst

theorem classIds_nodup : classIds.Nodup := by decide +kernel

/-- The factory of a class, when the other registrations are for other classes. -/
theorem create_core {program : List (ClassID × Option ContentFactory)}
    {others : List (ClassID × Option ContentFactory)}
    (horder : program.Perm (registrations ++ others)) (hothers : ∀ r ∈ others, r.1 ∉ classIds)
    {classId : ClassID} {factory : ContentFactory} (hcore : (classId, some factory) ∈ registrations)
    (version : UInt32) :
    (FactoryMap.registerAll program).create classId version = some (factory version) := by
  have hclass : classId ∈ classIds := List.mem_map_of_mem (f := Prod.fst) hcore
  refine FactoryMap.create_of_only (horder.symm.subset (List.mem_append_left others hcore)) ?_
    version
  intro r hr hid
  rcases List.mem_append.mp (horder.subset hr) with hown | hother
  · -- no class is registered twice
    have hsame : r = (classId, some factory) :=
      List.inj_on_of_nodup_map classIds_nodup hown hcore hid
    exact congrArg Prod.snd hsame
  · exact absurd (hid ▸ hclass) (hothers r hother)

/-- What the factory reads from the bytes that the object wrote. -/
theorem ends_factoryOf {α : Type} [Codec Exception α] (classId : ClassID) {m : α}
    (hfits : Message.Fits m) (version : UInt32) (n : Nat) :
    (factoryOf α classId version).Ends n (memberBytes m) (.ok (contentOf classId m)) :=
  Codec.ends_get_pure hfits _ n

section Decoding

variable {registry : ContentRegistry} {env : Envelope} {metadata : MetadataImpl}

/-- An object of a class that is created by its factory is read as it was. -/
theorem decodes_contentOf {α : Type} [Codec Exception α] {classId : ClassID} {m : α}
    (hfits : Message.Fits m) (hclass : classId ≠ MessageChunk.ID)
    (hcreate : registry classId 0 = some (factoryOf α classId 0))
    (hcontent : env.mContent = some (.objectContent (contentOf classId m)))
    (hmetadata : env.mMetadata = some metadata) (hname : metadata.mRoutingName.length < 2 ^ 16)
    (hsent : env.outcome = .ok ()) : Decodes registry env (.ok env) := by
  have hid : env.classId = classId := by
    simp only [Envelope.classId, hcontent, MessageContent.classId, contentOf]
  have hversion : env.classVersion = 0 := by
    simp only [Envelope.classVersion, hcontent, MessageContent.classVersion, contentOf]
  have hpayload : env.payload = memberBytes m := by
    simp only [Envelope.payload, Envelope.contentEval, hcontent, contentOf, write, Codec.put_eval]
  have hprogram : Connection.factories registry env.classId env.classVersion
      = some (factoryOf α classId 0).toCode := by
    rw [hid, hversion, Connection.factories_of_ne hclass, hcreate, Option.map_some]
  have hreads := ends_factoryOf classId hfits 0 env.header.length
  rw [← hpayload] at hreads
  have hdecodes := Connection.decodes_registered hmetadata hname hsent hprogram hreads
  rwa [← hcontent] at hdecodes

end Decoding

/-- Whatever the order in which the classes of a program get registered, and as long as
    the others have ids of their own, an object of one of the library's own classes is
    read from its message as it was written.  Its strings and the routing name have
    lengths that can be told. -/
theorem decodes_self {program others : List (ClassID × Option ContentFactory)}
    (horder : program.Perm (registrations ++ others)) (hothers : ∀ r ∈ others, r.1 ∉ classIds)
    {env : Envelope} {metadata : MetadataImpl} (msg : CoreMessage) (hfits : msg.Fits)
    (hcontent : env.mContent = some (.objectContent msg.toContent))
    (hmetadata : env.mMetadata = some metadata) (hname : metadata.mRoutingName.length < 2 ^ 16)
    (hsent : env.outcome = .ok ()) :
    Decodes (FactoryMap.registerAll program).create env (.ok env) := by
  have hclass : ∀ {α : Type} [Codec Exception α] {classId : ClassID} {m : α}, Message.Fits m →
      classId ≠ MessageChunk.ID → (classId, some (factoryOf α classId)) ∈ registrations →
      msg.toContent = contentOf classId m →
      Decodes (FactoryMap.registerAll program).create env (.ok env) := by
    intro α _ classId m hm hne hcore heq
    rw [heq] at hcontent
    exact decodes_contentOf hm hne (create_core horder hothers hcore 0) hcontent hmetadata hname
      hsent
  cases msg with
  | control m => exact hclass hfits (by decide) (by simp [registrations]) rfl
  | engineReady m => exact hclass hfits (by decide) (by simp [registrations]) rfl
  | executorHeartbeat m => exact hclass hfits (by decide) (by simp [registrations]) rfl
  | ping m => exact hclass hfits (by decide) (by simp [registrations]) rfl
  | pong m => exact hclass hfits (by decide) (by simp [registrations]) rfl
  | sessionStatus m => exact hclass hfits (by decide) (by simp [registrations]) rfl

/-- A control message, when a class of the program is registered before the library's
    own. -/
theorem decodes_self_control :
    Decodes (FactoryMap.registerAll ((UUID.null, none) :: registrations)).create
      { mContent := some (.objectContent (toContent (.control { mCommand := [0x67, 0x6f] })))
        mMetadata := some { MetadataImpl.new with mRoutingName := [0x43] }
        mTo := [] }
      (.ok { mContent := some (.objectContent (toContent (.control { mCommand := [0x67, 0x6f] })))
             mMetadata := some { MetadataImpl.new with mRoutingName := [0x43] }
             mTo := [] }) := by
  have horder : ((UUID.null, none) :: registrations).Perm (registrations ++ [(UUID.null, none)]) :=
    (List.perm_append_singleton (UUID.null, none) registrations).symm
  refine decodes_self horder ?_ (.control { mCommand := [0x67, 0x6f] }) ?_ rfl rfl (by decide) ?_
  · intro r hr
    rw [List.mem_singleton.mp hr]
    decide
  · have hshort : ∀ val : Bytes, val.length < 2 ^ 32 → Message.Fits val := fun _ h => h
    exact ⟨hshort _ (by decide), hshort _ (by decide), hshort _ (by decide)⟩
  · exact Envelope.isSent_iff.mp (by decide +kernel)

end CoreMessage

end Arras4Core.Message
