/-
  Arras4Core.Routing.AddressObject

  `Address::toObject` and `Address::fromObject`: an address as an object of three
  texts.  Reading assigns the fields one after the other; what is left of an
  address when it throws is used nowhere, and is not kept here.
-/

import Arras4Core.Routing.ComputationMap

namespace Arras4Core.Routing

open Arras4Core.Api
open Arras4Core.Lib

namespace Address

def toObject (a : Address) (obj : Object) : Except Exception Object := do
  let obj ← obj.set "session" (.string a.session.toString)
  let obj ← obj.set "node" (.string a.node.toString)
  obj.set "computation" (.string a.computation.toString)

/-- `obj[key].asString()`. -/
def textOf (obj : Object) (key : String) : Except Exception String := do
  (← obj.get key).asString

def fromObject (uuid_parse : String → Option UUID) (obj : Object) : Except Exception Address := do
  let session ← textOf obj "session"
  let node ← textOf obj "node"
  let computation ← textOf obj "computation"
  return ⟨parseUUID uuid_parse session, parseUUID uuid_parse node,
    parseUUID uuid_parse computation⟩

/-- The values that an address can be read from. -/
def Convertible (obj : Object) : Prop :=
  obj.isObjectOrNull = true ∧ (obj.member "session").isScalar = true ∧
    (obj.member "node").isScalar = true ∧ (obj.member "computation").isScalar = true

instance (obj : Object) : Decidable (Convertible obj) := by
  unfold Convertible; infer_instance

theorem textOf_of_isScalar {obj : Object} {key : String} (hobj : obj.isObjectOrNull)
    (h : (obj.member key).isScalar) : textOf obj key = .ok (obj.member key).text := by
  rw [textOf, except_bind_of_ok (Object.get_of_isObjectOrNull hobj key), Object.asString_eq,
    if_pos h]

theorem textOf_of_not_isScalar {obj : Object} {key : String} (hobj : obj.isObjectOrNull)
    (h : ¬ (obj.member key).isScalar) : textOf obj key = .error .jsonLogicError := by
  rw [textOf, except_bind_of_ok (Object.get_of_isObjectOrNull hobj key), Object.asString_eq,
    if_neg h]

theorem textOf_of_not_isObjectOrNull {obj : Object} (hobj : ¬ obj.isObjectOrNull) (key : String) :
    textOf obj key = .error .jsonLogicError := by
  rw [textOf, except_bind_of_error (by rw [Object.get_eq, if_neg hobj])]

theorem fromObject_of_convertible (uuid_parse : String → Option UUID) {obj : Object}
    (h : Convertible obj) :
    fromObject uuid_parse obj = .ok ⟨parseUUID uuid_parse (obj.member "session").text,
      parseUUID uuid_parse (obj.member "node").text,
      parseUUID uuid_parse (obj.member "computation").text⟩ := by
  obtain ⟨hobj, hsession, hnode, hcomputation⟩ := h
  rw [fromObject, except_bind_of_ok (textOf_of_isScalar hobj hsession),
    except_bind_of_ok (textOf_of_isScalar hobj hnode),
    except_bind_of_ok (textOf_of_isScalar hobj hcomputation)]
  rfl

theorem fromObject_of_not_convertible (uuid_parse : String → Option UUID) {obj : Object}
    (h : ¬ Convertible obj) : fromObject uuid_parse obj = .error .jsonLogicError := by
  rw [fromObject]
  by_cases hobj : obj.isObjectOrNull = true
  · by_cases hsession : (obj.member "session").isScalar = true
    · rw [except_bind_of_ok (textOf_of_isScalar hobj hsession)]
      by_cases hnode : (obj.member "node").isScalar = true
      · rw [except_bind_of_ok (textOf_of_isScalar hobj hnode)]
        have hcomputation : ¬ (obj.member "computation").isScalar = true := fun hc =>
          h ⟨hobj, hsession, hnode, hc⟩
        exact except_bind_of_error (textOf_of_not_isScalar hobj hcomputation) _
      · exact except_bind_of_error (textOf_of_not_isScalar hobj hnode) _
    · exact except_bind_of_error (textOf_of_not_isScalar hobj hsession) _
  · exact except_bind_of_error (textOf_of_not_isObjectOrNull hobj "session") _

/-- An address that is written is read back, where the text of an id is. -/
theorem exists_toObject {uuid_parse : String → Option UUID}
    (hparse : ∀ u : UUID, uuid_parse u.toString = some u) (a : Address) {obj : Object}
    (hobj : obj.isObjectOrNull) :
    ∃ written, toObject a obj = .ok written ∧ written.isObjectOrNull = true ∧
      fromObject uuid_parse written = .ok a := by
  obtain ⟨o₁, hset₁, hnull₁, hmember₁⟩ :=
    Object.set_of_isObjectOrNull hobj "session" (.string a.session.toString)
  obtain ⟨o₂, hset₂, hnull₂, hmember₂⟩ :=
    Object.set_of_isObjectOrNull hnull₁ "node" (.string a.node.toString)
  obtain ⟨o₃, hset₃, hnull₃, hmember₃⟩ :=
    Object.set_of_isObjectOrNull hnull₂ "computation" (.string a.computation.toString)
  have hsession : o₃.member "session" = .string a.session.toString := by
    rw [hmember₃, if_neg (by decide), hmember₂, if_neg (by decide), hmember₁, if_pos rfl]
  have hnode : o₃.member "node" = .string a.node.toString := by
    rw [hmember₃, if_neg (by decide), hmember₂, if_pos rfl]
  have hcomputation : o₃.member "computation" = .string a.computation.toString := by
    rw [hmember₃, if_pos rfl]
  refine ⟨o₃, ?_, hnull₃, ?_⟩
  · rw [toObject, except_bind_of_ok hset₁, except_bind_of_ok hset₂, hset₃]
  · have hconvertible : Convertible o₃ := by
      refine ⟨hnull₃, ?_, ?_, ?_⟩
      · rw [hsession]
        rfl
      · rw [hnode]
        rfl
      · rw [hcomputation]
        rfl
    rw [fromObject_of_convertible uuid_parse hconvertible, hsession, hnode, hcomputation]
    simp only [Object.text, parseUUID, hparse, Option.getD_some]

end Address

end Arras4Core.Routing
