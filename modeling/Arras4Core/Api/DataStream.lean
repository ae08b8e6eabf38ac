/-
  Arras4Core.Api.DataStream

  `api::DataOutStream` and `api::DataInStream` as user code sees them, and the
  encodings of the types they write and read.
-/

import Arras4Core.Api.Address
import Arras4Core.Api.Exception
import Arras4Core.Lib.Bytes
import Arras4Core.Lib.Stream

namespace Arras4Core.Api

open Arras4Core.Lib

/-- Code with a `DataOutStream&` parameter, as the calls it makes on it. -/
abbrev DataOutStream (α : Type) := OutProgram Exception α

/-- Code with a `DataInStream&` parameter, as the calls it makes on it. -/
abbrev DataInStream (α : Type) := InProgram Exception α

abbrev ClassID := UUID

/-- `sizeof(UUID)` bytes of an id. -/
def uuidBytes (id : UUID) : List UInt8 := id.mBytes.toList

/-- `sizeof(Address)` bytes of an address. -/
def addressBytes (addr : Address) : List UInt8 :=
  uuidBytes addr.session ++ uuidBytes addr.node ++ uuidBytes addr.computation

/-- A string with its 32-bit length before it. -/
def stringBytes (s : List UInt8) : List (List UInt8) :=
  [leBytes 4 (s.length % 2 ^ 32), s.take (s.length % 2 ^ 32)]

/-! ## Reading -/

/-- The id with the given bytes in memory. -/
def uuidOfBytes (bytes : List UInt8) : UUID := ⟨Vector.ofFn fun i => bytes.getD i 0⟩

/-- The address with the given bytes in memory. -/
def addressOfBytes (bytes : List UInt8) : Address where
  session := uuidOfBytes (bytes.take 16)
  node := uuidOfBytes ((bytes.drop 16).take 16)
  computation := uuidOfBytes ((bytes.drop 32).take 16)

/-- `from >> val` for an unsigned number of `width` bytes. -/
def readNat (width : Nat) : DataInStream Nat := do
  let data ← .readBlock width
  return leNat data

/-- `from >> val` for an id. -/
def readUUID : DataInStream UUID := do
  let data ← .readBlock 16
  return uuidOfBytes data

/-- `from >> val` for an address. -/
def readAddress : DataInStream Address := do
  let data ← .readBlock 48
  return addressOfBytes data

/-! ## What was written is read back -/

@[simp] theorem uuidBytes_length (id : UUID) : (uuidBytes id).length = 16 := by
  simp only [uuidBytes, Vector.length_toList]

@[simp] theorem addressBytes_length (addr : Address) : (addressBytes addr).length = 48 := by
  simp only [addressBytes, List.length_append, uuidBytes_length]

theorem uuidOfBytes_uuidBytes (id : UUID) : uuidOfBytes (uuidBytes id) = id := by
  obtain ⟨bytes⟩ := id
  simp only [uuidOfBytes, uuidBytes]
  refine congrArg UUID.mk (Vector.ext fun i hi => ?_)
  simp

theorem addressOfBytes_addressBytes (addr : Address) :
    addressOfBytes (addressBytes addr) = addr := by
  obtain ⟨session, node, computation⟩ := addr
  have htake : ∀ (id : UUID) (rest : List UInt8), (uuidBytes id ++ rest).take 16 = uuidBytes id :=
    fun id rest => List.take_left' (uuidBytes_length id)
  have hdrop : ∀ (id : UUID) (rest : List UInt8), (uuidBytes id ++ rest).drop 16 = rest :=
    fun id rest => List.drop_left' (uuidBytes_length id)
  have hlast : ∀ id : UUID, (uuidBytes id).take 16 = uuidBytes id :=
    fun id => List.take_of_length_le (Nat.le_of_eq (uuidBytes_length id))
  have h32 : ∀ bytes : List UInt8, bytes.drop 32 = (bytes.drop 16).drop 16 :=
    fun _ => by rw [List.drop_drop]
  simp only [addressOfBytes, addressBytes, List.append_assoc, h32, htake, hdrop, hlast,
    uuidOfBytes_uuidBytes]

theorem ends_readNat {width value : Nat} (h : value < 256 ^ width) (n : Nat) :
    (readNat width).Ends n (leBytes width value) (.ok value) :=
  InProgram.ends_decode (leBytes_length width value) (leNat_leBytes_of_lt h) n

theorem ends_readUUID (id : UUID) (n : Nat) : readUUID.Ends n (uuidBytes id) (.ok id) :=
  InProgram.ends_decode (uuidBytes_length id) (uuidOfBytes_uuidBytes id) n

theorem ends_readAddress (addr : Address) (n : Nat) :
    readAddress.Ends n (addressBytes addr) (.ok addr) :=
  InProgram.ends_decode (addressBytes_length addr) (addressOfBytes_addressBytes addr) n

end Arras4Core.Api
