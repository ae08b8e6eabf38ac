/-
  Arras4Core.Execute.Environment

  `impl::Environment`, the variables a process is started with, so far as it is
  filled from objects.  A value that is set replaces the one before, unless
  `override` is false, and its default is true.
-/

import Arras4Core.Api.Object
import Arras4Core.Lib.Call
import Std.Data.TreeMap

namespace Arras4Core.Execute

open Arras4Core.Lib
open Arras4Core.Api (Exception Object)
open Std (TreeMap)

structure Environment where
  mMap : TreeMap String String := ∅

namespace Environment

def has (env : Environment) (name : String) : Bool := env.mMap.contains name

def set (env : Environment) (name val : String) (override : Bool := true) : Environment :=
  if !override && env.has name then env
  else { env with mMap := env.mMap.insert name val }

def get (env : Environment) (name : String) (deflt : String := "") : String :=
  (env.mMap[name]?).getD deflt

/-- One round of the loop below. -/
def setMember (member : String × Object) : EStateM Exception Environment PUnit := fun env =>
  match member.2.asString with
  | .ok val => .ok ⟨⟩ (env.set member.1 val)
  | .error e => .error e env

/-- `setFrom(api::ObjectConstRef)`.  It throws at the first member that is not a
    scalar, with the ones before it set. -/
def setFrom (obj : Object) : EStateM Exception Environment PUnit := obj.members.forM setMember

/-- The string a name has as its value in an object.  The names of an object's
    members are distinct; of equal ones the last would count. -/
def valueIn (obj : Object) (name : String) : Option String :=
  (obj.members.reverse.lookup name).map Object.text

/-- The object whose members are all scalars. -/
def allScalar (obj : Object) : Bool := obj.members.all fun member => member.2.isScalar

/-! ## What is in the map afterwards -/

theorem mMap_set (env : Environment) (name val var : String) :
    (env.set name val).mMap[var]? = if name = var then some val else env.mMap[var]? := by
  unfold set
  rw [Bool.not_true, Bool.false_and, if_neg Bool.false_ne_true, TreeMap.getElem?_insert]
  simp

theorem setMember_ok {member : String × Object} (h : member.2.isScalar = true)
    (env : Environment) : setMember member env = .ok ⟨⟩ (env.set member.1 member.2.text) := by
  rw [setMember, Object.asString_eq, if_pos h]

theorem isScalar_of_setMember {member : String × Object} {env env' : Environment}
    (h : setMember member env = .ok ⟨⟩ env') : member.2.isScalar = true := by
  cases hscalar : member.2.isScalar with
  | true => rfl
  | false =>
    rw [setMember, Object.asString_eq, hscalar] at h
    cases h

/-- What the loop does to the map. -/
def setAll (members : List (String × Object)) (env : Environment) : Environment :=
  members.foldl (fun env member => env.set member.1 member.2.text) env

theorem mMap_setAll (members : List (String × Object)) (env : Environment) (var : String) :
    (setAll members env).mMap[var]?
      = ((members.reverse.lookup var).map Object.text).or env.mMap[var]? := by
  induction members generalizing env with
  | nil => rfl
  | cons member members ih =>
    obtain ⟨name, value⟩ := member
    have hrest : (setAll ((name, value) :: members) env).mMap[var]? = _ :=
      ih (env.set name value.text)
    rw [hrest, mMap_set, List.reverse_cons, List.lookup_append]
    -- the members after this one come first
    cases members.reverse.lookup var with
    | some later => rfl
    | none =>
      by_cases hname : name = var
      · subst hname
        simp
      · have hnot : (var == name) = false := beq_eq_false_iff_ne.mpr (Ne.symm hname)
        simp [hname, List.lookup_cons, hnot]

/-- The members are set one after the other. -/
theorem setFrom_ok {obj : Object} (h : allScalar obj = true) (env : Environment) :
    setFrom obj env = .ok ⟨⟩ (setAll obj.members env) := by
  unfold setFrom allScalar at *
  generalize obj.members = members at h ⊢
  induction members generalizing env with
  | nil => rfl
  | cons member members ih =>
    rw [List.all_cons, Bool.and_eq_true] at h
    rw [forM_cons_of_ok (setMember_ok h.1 env), ih _ h.2]
    rfl

/-- It returns only if all of them are scalars. -/
theorem allScalar_of_setFrom {obj : Object} {env env' : Environment}
    (h : setFrom obj env = .ok ⟨⟩ env') : allScalar obj = true := by
  unfold setFrom allScalar at *
  generalize obj.members = members at h ⊢
  induction members generalizing env with
  | nil => rfl
  | cons member members ih =>
    obtain ⟨_, env₁, hset, hrest⟩ := of_bind_ok h
    rw [List.all_cons, isScalar_of_setMember hset, ih hrest, Bool.and_true]

/-- A name that the object has gets the object's value, and every other one keeps
    its own. -/
theorem mMap_setFrom {obj : Object} {env env' : Environment} (h : setFrom obj env = .ok ⟨⟩ env')
    (var : String) : env'.mMap[var]? = (valueIn obj var).or env.mMap[var]? := by
  rw [setFrom_ok (allScalar_of_setFrom h)] at h
  obtain rfl := (EStateM.Result.ok.inj h).2
  exact mMap_setAll obj.members env var

end Environment

end Arras4Core.Execute
