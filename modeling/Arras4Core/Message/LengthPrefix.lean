/-
  Arras4Core.Message.LengthPrefix

  Text that is written with its length before it: the routing name of a header,
  with 16 bits, and strings, with 32 or 64.  The length is cut to the width of the
  prefix before it is used for anything else.
-/

import Arras4Core.Message.EnvelopeCodec
import Mathlib.Data.List.TakeDrop

namespace Arras4Core.Message

open Arras4Core.Lib
open Arras4Core.Api
open Arras4Core.Network (Bytes)

/-! ## Strings -/

/-- `writeString<LengthType>`, with a length type of `width` bytes. -/
def writeString (width : Nat) (val : Bytes) : DataOutStream Unit :=
  let length := val.length % 256 ^ width
  .writeAll [leBytes width length, val.take length]

/-- `readString<LengthType>`. -/
def readString (width : Nat) : DataInStream Bytes := do
  let stLen ← readNat width
  if stLen > 0 then .readBlock stLen else pure []

namespace OutStreamImpl

def write (val : Bytes) : DataOutStream Unit := writeString 4 val

def writeLongString (val : Bytes) : DataOutStream Unit := writeString 8 val

end OutStreamImpl

namespace InStreamImpl

def read : DataInStream Bytes := readString 4

def readLongString : DataInStream Bytes := readString 8

end InStreamImpl

/-! ## The routing name -/

namespace MetadataImpl

/-- `deserialize`, up to the address count. -/
def deserializeToAddresses : DataInStream Leading := do
  let fields ← deserializeLeading
  skipExtension fields.initBytes fields.addrOffset
  return fields

theorem deserialize_eq_addresses (m : MetadataImpl) (destinations : AddressList) :
    m.deserialize destinations = deserializeToAddresses >>= fun fields => do
      let addresses ← deserializeAddresses destinations
      return ({ m with
        mTrace := fields.flags &&& flagsMaskTrace ≠ 0
        mInstanceId := fields.instanceId
        mSourceId := fields.sourceId
        mRoutingName := fields.routingName
        mFrom := addresses.1 }, addresses.2) := by
  rw [deserialize_eq, deserializeToAddresses]
  simp only [InProgram.bind_assoc]
  rfl

/-- The blocks of the header behind the routing name. -/
def addressFields (m : MetadataImpl) (destinations : AddressList) : Bytes :=
  leBytes 4 ((destinations.length + 1) % 2 ^ 32) ++
    (addressBytes m.mFrom ++ destinations.flatMap addressBytes)

/-- The routing name that the header has. -/
def sentName (m : MetadataImpl) : Bytes := m.mRoutingName.take m.nameLen

theorem length_sentName (m : MetadataImpl) : m.sentName.length = m.nameLen :=
  List.length_take_of_le (Nat.mod_le _ _)

theorem fields_eq (m : MetadataImpl) (destinations : AddressList) :
    (m.fields destinations).flatten
      = leading (42 + m.nameLen) (versionMajor * 2 ^ 8 + versionMinor)
          (if m.mTrace then flagsMaskTrace else 0) m.mInstanceId m.mSourceId m.sentName ++
        m.addressFields destinations := by
  rw [leading, length_sentName]
  simp only [fields, sentName, addressFields, List.flatMap, List.cons_append, List.nil_append,
    List.flatten_cons, List.append_assoc]

theorem ends_deserializeToAddresses {flags : Nat} (hflags : flags < 2 ^ 16)
    (instanceId sourceId : UUID) {name : Bytes} (hname : name.length < 2 ^ 16) (n : Nat) :
    deserializeToAddresses.Ends n
      (leading (42 + name.length) (versionMajor * 2 ^ 8 + versionMinor) flags instanceId sourceId
        name)
      (.ok ⟨n, 42 + name.length, flags, instanceId, sourceId, name⟩) := by
  have hoffset : 42 + name.length < 2 ^ 32 := by omega
  rw [← List.append_nil (leading _ _ _ _ _ _)]
  refine (ends_deserializeLeading hoffset (by decide) hflags hname).bind ?_
  rw [length_leading]
  exact (ends_skipExtension (by simp only [List.length_nil]; omega)).bind_nil
    (InProgram.ends_pure _ _)

end MetadataImpl

/-! ## What is read back -/

/-- The writing throws, or reading what it has written gives a value that `recovers`
    holds of and leaves the stream at the fields `later`. -/
def ReadBack {α : Type} (writing : DataOutStream Unit) (reading : DataInStream α)
    (recovers : α → Prop) (later : Bytes) : Prop :=
  ∀ n, (∃ e, (writing.eval n).2 = .error e) ∨
    ∀ (beyondRead beyondSkip : Exception) (k : Nat) (rest : Bytes), ∃ a consumed, recovers a ∧
      reading.toCode.run (Reading.read beyondRead) (Reading.skip beyondSkip) Reading.consumed
        ⟨k, (writing.eval n).1 ++ rest⟩ = .ok a ⟨consumed, later ++ rest⟩

/-- The routing name is read back, and the addresses come next. -/
def NameReadBack (m : MetadataImpl) (destinations : AddressList) : Prop :=
  ReadBack (m.serialize destinations) MetadataImpl.deserializeToAddresses
    (fun fields => fields.routingName = m.mRoutingName) (m.addressFields destinations)

/-- The string is read back, and nothing else. -/
def StringReadBack (val : Bytes) : Prop :=
  ReadBack (OutStreamImpl.write val) InStreamImpl.read (fun read => read = val) []

/-- Reading is a function: what is read of the bytes is known from any way to go
    through them. -/
theorem readBack_iff {α : Type} {writing : DataOutStream Unit} {reading : DataInStream α}
    {recovers : α → Prop} {data later : Bytes} {a : Nat → α} {p : Prop}
    (hwriting : ∀ n, writing.eval n = (data ++ later, .ok ()))
    (hreading : ∀ k, reading.Ends k data (.ok (a k))) (hrecovers : ∀ k, recovers (a k) ↔ p) :
    ReadBack writing reading recovers later ↔ p := by
  have hrun : ∀ (beyondRead beyondSkip : Exception) (k : Nat) (rest : Bytes),
      reading.toCode.run (Reading.read beyondRead) (Reading.skip beyondSkip) Reading.consumed
        ⟨k, data ++ later ++ rest⟩ = .ok (a k) ⟨k + data.length, later ++ rest⟩ := by
    intro beyondRead beyondSkip k rest
    rw [List.append_assoc]
    exact Reading.run_of_ends (hreading k) (later ++ rest)
  constructor
  · intro h
    rcases h 0 with ⟨e, he⟩ | h
    · rw [hwriting] at he
      cases he
    · obtain ⟨a', consumed, ha', heq⟩ := h (.internalError "") (.internalError "") 0 []
      rw [hwriting, hrun] at heq
      cases heq
      exact (hrecovers 0).mp ha'
  · intro hp n
    refine .inr fun beyondRead beyondSkip k rest =>
      ⟨a k, k + data.length, (hrecovers k).mpr hp, ?_⟩
    rw [hwriting]
    exact hrun beyondRead beyondSkip k rest

/-! ## Where the length is cut -/

theorem nameReadBack_iff (m : MetadataImpl) (destinations : AddressList) :
    NameReadBack m destinations ↔
      m.mRoutingName.length < 2 ^ 16 ∨ m.mRoutingName.length % 2 ^ 16 = 0 := by
  by_cases hzero : m.nameLen = 0
  · -- `serialize` throws
    refine ⟨fun _ => .inr hzero, fun _ n => .inl ?_⟩
    rw [m.serialize_eval, if_pos hzero]
    exact ⟨_, rfl⟩
  · have hname : m.sentName.length < 2 ^ 16 := by
      rw [m.length_sentName]
      exact Nat.mod_lt _ (by decide)
    have hflags : (if m.mTrace then flagsMaskTrace else 0) < 2 ^ 16 := by
      split <;> decide
    have hback : NameReadBack m destinations ↔ m.sentName = m.mRoutingName := by
      refine readBack_iff (fun n => ?_)
        (MetadataImpl.ends_deserializeToAddresses hflags m.mInstanceId m.mSourceId hname)
        fun _ => Iff.rfl
      rw [m.serialize_eval, if_neg hzero, m.fields_eq, m.length_sentName]
    rw [hback, MetadataImpl.sentName, List.take_eq_self_iff]
    simp only [MetadataImpl.nameLen] at hzero ⊢
    omega

theorem ends_readString {width : Nat} {val : Bytes} (h : val.length < 256 ^ width) (n : Nat) :
    (readString width).Ends n (leBytes width val.length ++ val) (.ok val) := by
  unfold readString
  exact (ends_readNat h n).bind (MetadataImpl.ends_readRoutingName val _)

theorem writeString_readBack_iff (width : Nat) (val : Bytes) :
    ReadBack (writeString width val) (readString width) (fun read => read = val) [] ↔
      val.length < 256 ^ width := by
  have hpos : 0 < 256 ^ width := Nat.pow_pos (by decide)
  have hlength : (val.take (val.length % 256 ^ width)).length = val.length % 256 ^ width :=
    List.length_take_of_le (Nat.mod_le _ _)
  have hlt : (val.take (val.length % 256 ^ width)).length < 256 ^ width := by
    rw [hlength]
    exact Nat.mod_lt _ hpos
  have hback : ReadBack (writeString width val) (readString width) (fun read => read = val) [] ↔
      val.take (val.length % 256 ^ width) = val := by
    refine readBack_iff (fun n => ?_) (ends_readString hlt) fun _ => Iff.rfl
    rw [writeString, OutProgram.eval_writeAll, hlength]
    simp
  rw [hback, List.take_eq_self_iff]
  constructor
  · intro hle
    exact Nat.lt_of_le_of_lt hle (Nat.mod_lt _ hpos)
  · intro h
    exact Nat.le_of_eq (Nat.mod_eq_of_lt h).symm

/-- A length that is a `size_t` fits the 64 bits. -/
theorem longString_readBack {val : Bytes} (h : val.length < 2 ^ 64) :
    ReadBack (OutStreamImpl.writeLongString val) InStreamImpl.readLongString
      (fun read => read = val) [] :=
  (writeString_readBack_iff 8 val).mpr h

theorem stringReadBack_iff (val : Bytes) : StringReadBack val ↔ val.length < 2 ^ 32 :=
  writeString_readBack_iff 4 val

/-- **Text is read back as it was written**, or not written at all, if and only if it
    fits its prefix or, for a routing name, the prefix would be zero. -/
theorem text_readBack_iff (m : MetadataImpl) (destinations : AddressList) (val : Bytes) :
    (NameReadBack m destinations ↔
      m.mRoutingName.length < 2 ^ 16 ∨ m.mRoutingName.length % 2 ^ 16 = 0) ∧
    (StringReadBack val ↔ val.length < 2 ^ 32) :=
  ⟨nameReadBack_iff m destinations, stringReadBack_iff val⟩

/-- A name of 65537 characters is sent as its first one. -/
theorem not_readBack_long_name :
    ¬ ((∀ (m : MetadataImpl) (destinations : AddressList), NameReadBack m destinations) ∧
      ∀ val : Bytes, StringReadBack val) := by
  rintro ⟨hall, -⟩
  have hback := hall ⟨.null, .null, {}, List.replicate 65537 97, false⟩ []
  rw [nameReadBack_iff] at hback
  simp only [List.length_replicate] at hback
  omega

end Arras4Core.Message
