/-
  Arras4Core.Api.Object

  `api::Object`, the dynamic value of message_api/Object.h.  It is a typedef
  for `Json::Value`; this file models the part of that type's interface that
  the code uses.  The type itself belongs to jsoncpp: its accessors are modelled by
  their documented behaviour.

  A `Json::Value` object is a `std::map` from member names to values, so its
  iterators visit the members in the order of their names.  `Object.object`
  lists the members in iteration order.
-/

import Arras4Core.Api.Exception
import Arras4Core.Lib.Succeeds

namespace Arras4Core.Api

open Arras4Core.Lib

/-- A `Json::Value`.  A double is kept as the text it prints as. -/
inductive Object
  | null
  | bool (b : Bool)
  | int (n : Int)
  | real (text : String)
  | string (s : String)
  | array (elements : List Object)
  | object (members : List (String × Object))

namespace Object

/-- `Value::asString()`: numbers and booleans are converted, an array or an
    object is not. -/
def asString : Object → Except Exception String
  | null => .ok ""
  | bool b => .ok (if b then "true" else "false")
  | int n => .ok (toString n)
  | real text => .ok text
  | string s => .ok s
  | array _ => .error .jsonLogicError
  | object _ => .error .jsonLogicError

/-- `Value::operator[](key) const`: null for a missing member, and for any
    member of null.  Every other type is a logic error. -/
def get (o : Object) (key : String) : Except Exception Object :=
  match o with
  | null => .ok null
  | object members => .ok ((members.lookup key).getD null)
  | _ => .error .jsonLogicError

/-- The members with a value for `key`, in the order of the names. -/
def insertMember (key : String) (value : Object) :
    List (String × Object) → List (String × Object)
  | [] => [(key, value)]
  | (name, old) :: members =>
    if key = name then (key, value) :: members
    else if key < name then (key, value) :: (name, old) :: members
    else (name, old) :: insertMember key value members

/-- `(*this)[key] = value`: null becomes an object. -/
def set (o : Object) (key : String) (value : Object) : Except Exception Object :=
  match o with
  | null => .ok (object [(key, value)])
  | object members => .ok (object (insertMember key value members))
  | _ => .error .jsonLogicError

/-- `(*this)[key]` of a value that may be changed: a missing member is added, as
    null. -/
def touch (o : Object) (key : String) : Except Exception Object :=
  match o with
  | object members =>
    if (members.lookup key).isSome then .ok (object members)
    else .ok (object (insertMember key null members))
  | _ => o.set key null

/-- `Value::removeMember(key)`. -/
def removeMember (o : Object) (key : String) : Except Exception Object :=
  match o with
  | null => .ok null
  | object members => .ok (object (members.filter (·.1 ≠ key)))
  | _ => .error .jsonLogicError

/-- `Value::isMember(key) const`. -/
def isMember (o : Object) (key : String) : Except Exception Bool :=
  match o with
  | null => .ok false
  | object members => .ok (members.lookup key).isSome
  | _ => .error .jsonLogicError

/-- What `begin()`..`end()` visits, with `memberName()` of each position.  The
    elements of an array have an empty member name. -/
def members : Object → List (String × Object)
  | array elements => elements.map fun e => ("", e)
  | object members => members
  | _ => []

/-- The elements of an array that are strings, in order. -/
def strings : Object → List String
  | array elements => elements.filterMap fun
    | string s => some s
    | _ => none
  | _ => []

/-- The values `operator[]` may be applied to. -/
def isObjectOrNull : Object → Bool
  | null => true
  | object _ => true
  | _ => false

theorem get_isOk {o : Object} (h : o.isObjectOrNull = true) (key : String) :
    ∃ v, o.get key = .ok v := by
  cases o <;> simp_all [isObjectOrNull, get]

/-- `isObject() && !isNull()`.  Some versions of the library count null as an
    object. -/
def isObject : Object → Bool
  | object _ => true
  | _ => false

/-- The values `asString` may be applied to. -/
def isScalar : Object → Bool
  | array _ => false
  | object _ => false
  | _ => true

/-- The integer that a value is, where `Value::isIntegral()` holds.  `realIntegral`
    is the library's test of the number that a real value prints as the text of. -/
def integral? (realIntegral : String → Option Int) : Object → Option Int
  | int n => some n
  | real text => realIntegral text
  | _ => none

/-- The range of an `int`. -/
def inInt (n : Int) : Bool := -2147483648 ≤ n ∧ n < 2147483648

/-- `Value::asInt()` of a value that is the integer `n`. -/
def asInt (n : Int) : Except Exception Int :=
  if inInt n then .ok n else .error .jsonLogicError

/-! ## Where the two functions throw -/

/-- What `operator[]` returns where it returns. -/
def member (o : Object) (key : String) : Object :=
  match o with
  | object members => (members.lookup key).getD null
  | _ => null

/-- What `asString` returns where it returns. -/
def text : Object → String
  | bool b => if b then "true" else "false"
  | int n => toString n
  | real text => text
  | string s => s
  | _ => ""

theorem get_eq (o : Object) (key : String) :
    o.get key = if o.isObjectOrNull then .ok (o.member key) else .error .jsonLogicError := by
  cases o <;> rfl

/-- What `isMember` returns where it returns. -/
def hasMember (o : Object) (key : String) : Bool :=
  match o with
  | object members => (members.lookup key).isSome
  | _ => false

theorem isMember_eq (o : Object) (key : String) :
    o.isMember key
      = if o.isObjectOrNull then .ok (o.hasMember key) else .error .jsonLogicError := by
  cases o <;> rfl

theorem asString_eq (o : Object) :
    o.asString = if o.isScalar then .ok o.text else .error .jsonLogicError := by
  cases o <;> rfl

theorem get_of_isObjectOrNull {o : Object} (h : o.isObjectOrNull) (key : String) :
    o.get key = .ok (o.member key) := by
  rw [get_eq, if_pos h]

theorem isObjectOrNull_of_isObject {o : Object} (h : o.isObject) : o.isObjectOrNull := by
  cases o with
  | object _ => rfl
  | _ => cases h

theorem lookup_member_cons (name key : String) (value : Object)
    (members : List (String × Object)) :
    ((key, value) :: members).lookup name
      = if name = key then some value else members.lookup name := by
  by_cases hname : name = key
  · subst hname
    simp
  · rw [List.lookup_cons, beq_false_of_ne hname, if_neg hname]

theorem lookup_insertMember (key name : String) (value : Object)
    (members : List (String × Object)) :
    (insertMember key value members).lookup name
      = if name = key then some value else members.lookup name := by
  induction members with
  | nil => rw [insertMember, lookup_member_cons]
  | cons member members ih =>
    obtain ⟨other, old⟩ := member
    rw [insertMember]
    by_cases heq : key = other
    · subst heq
      rw [if_pos rfl, lookup_member_cons, lookup_member_cons]
      by_cases hname : name = key <;> simp [hname]
    · rw [if_neg heq]
      by_cases hlt : key < other
      · rw [if_pos hlt, lookup_member_cons]
      · -- the name of `member` is not the one that is set
        rw [if_neg hlt, lookup_member_cons, lookup_member_cons, ih]
        by_cases hname : name = key
        · subst hname
          rw [if_neg heq, if_pos rfl, if_pos rfl]
        · rw [if_neg hname, if_neg hname]

/-- A member that is set has its value afterwards, and the others keep theirs. -/
theorem set_of_isObjectOrNull {o : Object} (h : o.isObjectOrNull) (key : String)
    (value : Object) :
    ∃ o', o.set key value = .ok o' ∧ o'.isObjectOrNull = true ∧
      ∀ name, o'.member name = if name = key then value else o.member name := by
  cases o with
  | null =>
    refine ⟨_, rfl, rfl, fun name => ?_⟩
    show (List.lookup name [(key, value)]).getD null = _
    rw [lookup_member_cons]
    split <;> rfl
  | object members =>
    refine ⟨_, rfl, rfl, fun name => ?_⟩
    show (List.lookup name (insertMember key value members)).getD null = _
    rw [lookup_insertMember]
    split <;> rfl
  | _ => cases h

theorem member_of_isMember_false {o : Object} {key : String} (h : o.isMember key = .ok false) :
    o.member key = null := by
  cases o with
  | null => rfl
  | object members =>
    rw [member, Option.isSome_eq_false_iff.mp (Except.ok.inj h) |> Option.isNone_iff_eq_none.mp]
    rfl
  | _ => cases h

/-- A member that is added as null changes no value. -/
theorem touch_of_isObjectOrNull {o : Object} (h : o.isObjectOrNull) (key : String) :
    ∃ o', o.touch key = .ok o' ∧ o'.isObject = true ∧
      (∀ name, o'.member name = o.member name) ∧
      ∀ name ≠ key, o'.isMember name = o.isMember name := by
  cases o with
  | null =>
    refine ⟨_, rfl, rfl, fun name => ?_, fun name hne => ?_⟩
    · show (List.lookup name [(key, null)]).getD null = null
      rw [lookup_member_cons]
      split <;> rfl
    · show Except.ok (List.lookup name [(key, null)]).isSome = _
      rw [lookup_member_cons, if_neg hne]
      rfl
  | object members =>
    by_cases hmem : (members.lookup key).isSome
    · exact ⟨_, if_pos hmem, rfl, fun _ => rfl, fun _ _ => rfl⟩
    · refine ⟨_, if_neg hmem, rfl, fun name => ?_, fun name hne => ?_⟩
      · show (List.lookup name (insertMember key null members)).getD null = _
        rw [lookup_insertMember]
        split
        · next heq => rw [heq, member, Option.not_isSome_iff_eq_none.mp hmem, Option.getD_none,
            Option.getD_some]
        · rfl
      · show Except.ok (List.lookup name (insertMember key null members)).isSome = _
        rw [lookup_insertMember, if_neg hne]
        rfl
  | _ => cases h

theorem lookup_filter_of_ne {key name : String} (hne : name ≠ key)
    (members : List (String × Object)) :
    (members.filter (·.1 ≠ key)).lookup name = members.lookup name := by
  induction members with
  | nil => rfl
  | cons member members ih =>
    obtain ⟨other, value⟩ := member
    rw [List.filter_cons, lookup_member_cons]
    by_cases hkey : other = key
    · rw [if_neg (by simpa using hkey), ih, if_neg (fun heq => hne (heq.trans hkey))]
    · rw [if_pos (by simpa using hkey), lookup_member_cons, ih]

theorem removeMember_of_isObjectOrNull {o : Object} (h : o.isObjectOrNull) (key : String) :
    ∃ o', o.removeMember key = .ok o' ∧ o'.isObjectOrNull = true ∧
      ∀ name ≠ key, o'.member name = o.member name := by
  cases o with
  | null => exact ⟨_, rfl, rfl, fun _ _ => rfl⟩
  | object members =>
    refine ⟨_, rfl, rfl, fun name hne => ?_⟩
    exact congrArg (Option.getD · null) (lookup_filter_of_ne hne members)
  | _ => cases h

theorem succeeds_get (o : Object) (key : String) :
    Succeeds (o.get key) ↔ o.isObjectOrNull = true := by
  rw [get_eq]
  split
  · next h => exact iff_of_true ⟨_, rfl⟩ h
  · next h => exact iff_of_false (not_succeeds_error _) h

theorem succeeds_asString (o : Object) : Succeeds o.asString ↔ o.isScalar = true := by
  rw [asString_eq]
  split
  · next h => exact iff_of_true ⟨_, rfl⟩ h
  · next h => exact iff_of_false (not_succeeds_error _) h

end Object

end Arras4Core.Api
