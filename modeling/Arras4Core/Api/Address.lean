/-
  Arras4Core.Api.Address

  `api::UUID` and `api::Address`.
-/

import Mathlib.Tactic.Linarith

namespace Arras4Core.Api

/-- A 16-byte id. -/
structure UUID where
  mBytes : Vector UInt8 16
  deriving DecidableEq

namespace UUID

/-- `operator<`: the bytes are compared from the first on. -/
instance : Ord UUID := ⟨fun u v => compare u.mBytes.toList v.mBytes.toList⟩

/-- The id all of whose bytes are zero. -/
def null : UUID := ⟨Vector.replicate 16 0⟩

def valid (u : UUID) : Bool := u != null

instance : Std.TransOrd UUID where
  eq_swap {u v} := Std.OrientedOrd.eq_swap (a := u.mBytes.toList) (b := v.mBytes.toList)
  isLE_trans {u v w} h₁ h₂ := Std.TransOrd.isLE_trans (a := u.mBytes.toList)
    (b := v.mBytes.toList) (c := w.mBytes.toList) h₁ h₂

instance : Std.LawfulEqOrd UUID where
  compare_self {u} := Std.ReflOrd.compare_self (a := u.mBytes.toList)
  eq_of_compare {u v} h := by
    have hb : u.mBytes.toList = v.mBytes.toList := Std.LawfulEqOrd.eq_of_compare h
    cases u; cases v; simpa [Vector.toList_inj] using hb

/-- One lower-case hexadecimal digit. -/
def hexDigit (n : Nat) : Char := "0123456789abcdef".toList.getD n '0'

/-- The two hexadecimal digits of a byte. -/
def hexByte (b : UInt8) : List Char := [hexDigit (b.toNat / 16), hexDigit (b.toNat % 16)]

/-- `uuid_unparse_lower` of libuuid, by its documented behaviour: the 8-4-4-4-12 form
    in lower case. -/
def toString (u : UUID) : String :=
  let digits := u.mBytes.toList.map hexByte
  let group (start count : Nat) := ((digits.drop start).take count).flatten
  String.ofList (group 0 4 ++ '-' :: group 4 2 ++ '-' :: group 6 2 ++ '-' :: group 8 2 ++
    '-' :: group 10 6)

end UUID

/-- The source or destination of a message. -/
structure Address where
  session : UUID := UUID.null
  node : UUID := UUID.null
  computation : UUID := UUID.null
  deriving DecidableEq

/-- `api::AddressList`, a `std::list`. -/
abbrev AddressList := List Address

end Arras4Core.Api
