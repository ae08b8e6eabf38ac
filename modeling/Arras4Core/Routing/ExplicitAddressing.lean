/-
  Arras4Core.Routing.ExplicitAddressing

  `Addresser::addressTo`: an envelope is given the addresses that are listed in an
  option of the message.  The source address is set first; the addresses are then
  appended one by one as they are converted.

  Main result: `failsAtomically_iff`.
-/

import Arras4Core.Message.Envelope
import Arras4Core.Routing.AddressObject
import Arras4Core.Routing.Addressing

namespace Arras4Core.Routing

open Arras4Core.Api
open Arras4Core.Lib
open Arras4Core.Message (Envelope)

namespace Addresser

/-- The values that are converted: the elements of an array, or the one value. -/
def values : Object → List Object
  | .array elements => elements
  | addresses => [addresses]

/-- The conversions, each followed by `push_back`.  False when one throws. -/
def appendAddresses (uuid_parse : String → Option UUID) :
    List Object → AddressList → AddressList × Bool
  | [], mTo => (mTo, true)
  | obj :: objs, mTo =>
    match Address.fromObject uuid_parse obj with
    | .ok addr => appendAddresses uuid_parse objs (mTo ++ [addr])
    | .error _ => (mTo, false)

def addressTo (uuid_parse : String → Option UUID) (mAddressing : Addressing)
    (envelope : Envelope) (addresses : Object) : Except Exception (Envelope × Bool) :=
  match envelope.mMetadata with
  | none => .error .undefinedBehaviour
  | some metadata =>
    let (mTo, ok) := appendAddresses uuid_parse (values addresses) envelope.mTo
    .ok ({ envelope with
      mMetadata := some { metadata with mFrom := mAddressing.mSourceAddress }
      mTo := mTo }, ok)

/-! ## All or nothing -/

def fromOf (envelope : Envelope) : Option Address := envelope.mMetadata.map (·.mFrom)

/-- True: the addresses are appended in order.  False: the addresses are the old ones. -/
def FailsAtomically (uuid_parse : String → Option UUID) (mAddressing : Addressing)
    (envelope : Envelope) (addresses : Object) : Prop :=
  ∃ after ok, addressTo uuid_parse mAddressing envelope addresses = .ok (after, ok) ∧
    (ok = true → ∃ addrs,
      (values addresses).mapM (Address.fromObject uuid_parse) = .ok addrs ∧
      after.mTo = envelope.mTo ++ addrs) ∧
    (ok = false → after.mTo = envelope.mTo ∧ fromOf after = fromOf envelope)

/-- Everything can be converted; or not even the first value, and the source address
    is there already. -/
def ConvertsOrFailsFirst (mAddressing : Addressing) (envelope : Envelope) (addresses : Object) :
    Prop :=
  ∃ metadata ∈ envelope.mMetadata,
    (∀ obj ∈ values addresses, Address.Convertible obj) ∨
    ((∀ obj ∈ (values addresses).head?, ¬ Address.Convertible obj) ∧
      metadata.mFrom = mAddressing.mSourceAddress)

section

variable {uuid_parse : String → Option UUID}

variable (uuid_parse) in
theorem appendAddresses_of_convertible {objs : List Object}
    (h : ∀ obj ∈ objs, Address.Convertible obj) (mTo : AddressList) :
    ∃ addrs, objs.mapM (Address.fromObject uuid_parse) = .ok addrs ∧
      appendAddresses uuid_parse objs mTo = (mTo ++ addrs, true) := by
  induction objs generalizing mTo with
  | nil => exact ⟨[], rfl, by rw [List.append_nil]; rfl⟩
  | cons obj objs ih =>
    obtain ⟨hobj, hobjs⟩ := List.forall_mem_cons.mp h
    obtain ⟨addr, hfrom⟩ : ∃ addr, Address.fromObject uuid_parse obj = .ok addr :=
      ⟨_, Address.fromObject_of_convertible uuid_parse hobj⟩
    obtain ⟨addrs, hmap, happend⟩ := ih hobjs (mTo ++ [addr])
    refine ⟨addr :: addrs, ?_, ?_⟩
    · rw [List.mapM_cons, except_bind_of_ok hfrom, except_bind_of_ok hmap]
      rfl
    · rw [appendAddresses, hfrom]
      dsimp only
      rw [happend, List.append_assoc]
      rfl

variable (uuid_parse) in
/-- What was converted before a value that cannot be stays appended. -/
theorem appendAddresses_of_not_convertible {objs : List Object}
    (h : ¬ ∀ obj ∈ objs, Address.Convertible obj) (mTo : AddressList) :
    ∃ addrs, appendAddresses uuid_parse objs mTo = (mTo ++ addrs, false) ∧
      (addrs = [] ↔ ∀ obj ∈ objs.head?, ¬ Address.Convertible obj) := by
  induction objs generalizing mTo with
  | nil => exact absurd nofun h
  | cons obj objs ih =>
    rw [List.head?_cons, appendAddresses]
    by_cases hobj : Address.Convertible obj
    · obtain ⟨addr, hfrom⟩ : ∃ addr, Address.fromObject uuid_parse obj = .ok addr :=
        ⟨_, Address.fromObject_of_convertible uuid_parse hobj⟩
      rw [hfrom]
      have hobjs : ¬ ∀ obj ∈ objs, Address.Convertible obj :=
        fun hobjs => h (List.forall_mem_cons.mpr ⟨hobj, hobjs⟩)
      obtain ⟨addrs, happend, -⟩ := ih hobjs (mTo ++ [addr])
      -- this address has been appended, whatever follows
      refine ⟨addr :: addrs, happend.trans (by rw [List.append_assoc]; rfl), ?_⟩
      exact iff_of_false nofun fun hnot => hnot obj rfl hobj
    · rw [Address.fromObject_of_not_convertible uuid_parse hobj]
      refine ⟨[], by rw [List.append_nil], iff_of_true rfl fun other hother => ?_⟩
      obtain rfl := Option.some.inj hother
      exact hobj

/-- A call that fails leaves the envelope alone exactly if it fails at the first value,
    of an envelope that has the source address already. -/
theorem failsAtomically_iff (uuid_parse : String → Option UUID) (mAddressing : Addressing)
    (envelope : Envelope) (addresses : Object) :
    FailsAtomically uuid_parse mAddressing envelope addresses ↔
      ConvertsOrFailsFirst mAddressing envelope addresses := by
  rw [FailsAtomically, ConvertsOrFailsFirst, addressTo]
  cases hmetadata : envelope.mMetadata with
  | none =>
    refine iff_of_false ?_ nofun
    rintro ⟨after, ok, h, -⟩
    cases h
  | some metadata =>
    by_cases hall : ∀ obj ∈ values addresses, Address.Convertible obj
    · obtain ⟨addrs, hmap, happend⟩ :=
        appendAddresses_of_convertible uuid_parse hall envelope.mTo
      rw [happend]
      exact iff_of_true ⟨_, _, rfl, fun _ => ⟨addrs, hmap, rfl⟩, nofun⟩
        ⟨metadata, rfl, .inl hall⟩
    · obtain ⟨addrs, happend, hnil⟩ :=
        appendAddresses_of_not_convertible uuid_parse hall envelope.mTo
      rw [happend]
      constructor
      · rintro ⟨after, ok, h, -, hfalse⟩
        cases h
        obtain ⟨hto, hfrom⟩ := hfalse rfl
        refine ⟨metadata, rfl, .inr ⟨hnil.mp (List.append_right_eq_self.mp hto), ?_⟩⟩
        rw [fromOf, fromOf, hmetadata] at hfrom
        exact (Option.some.inj hfrom).symm
      · rintro ⟨_, ⟨⟩, hconvertible | ⟨hfirst, hfrom⟩⟩
        · exact absurd hconvertible hall
        · refine ⟨_, _, rfl, nofun, fun _ => ⟨?_, ?_⟩⟩
          · rw [hnil.mpr hfirst]
            exact List.append_nil _
          · rw [fromOf, fromOf, hmetadata]
            exact congrArg some hfrom.symm

end

/-- An address and behind it a number: the address stays in the envelope. -/
theorem not_failsAtomically_number :
    ¬ FailsAtomically (fun _ => none) {} ⟨none, some .new, []⟩
      (.array [.object [], .int 5]) := by
  rintro ⟨after, ok, h, -, hfalse⟩
  have hcall : addressTo (fun _ => none) {} ⟨none, some .new, []⟩ (.array [.object [], .int 5])
      = .ok (⟨none, some .new, [{}]⟩, false) := rfl
  cases hcall.symm.trans h
  cases (hfalse rfl).1

end Addresser

end Arras4Core.Routing
