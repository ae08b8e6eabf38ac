/-
  Arras4Core.Message.MetadataObject

  `MetadataImpl::toObject` and `MetadataImpl::fromObject`: the header of a message as
  a JSON object.  Both go through the members one after the other; what is left of
  the header when reading throws is not kept here.

  Main result: `roundTrips_iff`.
-/

import Arras4Core.Api.ArrasTime
import Arras4Core.Api.ObjectNumber
import Arras4Core.Api.UUIDText
import Arras4Core.Routing.AddressObject

namespace Arras4Core.Message

open Arras4Core.Api
open Arras4Core.Lib
open Arras4Core.Routing (parseUUID)

/-- `impl::MetadataImpl` with its creation time, and the routing name as text. -/
structure MetadataRecord where
  mInstanceId : UUID
  mSourceId : UUID
  mCreationTime : ArrasTime
  mFrom : Address
  mRoutingName : String
  mTrace : Bool := false

/-- `f(obj[key])`, where `f` changes its argument. -/
def updateMember (obj : Object) (key : String) (f : Object → Except Exception Object) :
    Except Exception Object := do
  let obj ← obj.touch key
  let value ← f (← obj.get key)
  obj.set key value

namespace MetadataRecord

def toObject (m : MetadataRecord) (obj : Object) : Except Exception Object := do
  let obj ← obj.set "instanceId" (.string m.mInstanceId.toString)
  let obj ← obj.set "sourceId" (.string m.mSourceId.toString)
  let obj ← updateMember obj "creationTime"
    fun time => time.set "seconds" (.int m.mCreationTime.seconds.toInt)
  let obj ← updateMember obj "creationTime"
    fun time => time.set "microseconds" (.int m.mCreationTime.microseconds.toInt)
  let obj ← updateMember obj "from" (Routing.Address.toObject m.mFrom)
  obj.set "routingName" (.string m.mRoutingName)

def fromObject (realValue : String → Option Rat) (uuid_parse : String → Option UUID)
    (m : MetadataRecord) (obj : Object) : Except Exception MetadataRecord := do
  let instanceId ← (← obj.get "instanceId").asString
  let sourceId ← (← obj.get "sourceId").asString
  let seconds ← (← (← obj.get "creationTime").get "seconds").asInt32 realValue
  -- the member of this name again
  let microseconds ← (← (← obj.get "creationTime").get "seconds").asInt32 realValue
  let sender ← Routing.Address.fromObject uuid_parse (← obj.get "from")
  let routingName ← (← obj.get "routingName").asString
  return { m with
    mInstanceId := parseUUID uuid_parse instanceId
    mSourceId := parseUUID uuid_parse sourceId
    mCreationTime := ⟨seconds, microseconds⟩
    mFrom := sender
    mRoutingName := routingName }

/-! ## The round trip -/

/-- The objects that a header can be written to; a new one is null. -/
def Writable (obj : Object) : Prop :=
  obj.isObjectOrNull = true ∧ (obj.member "creationTime").isObjectOrNull = true ∧
    (obj.member "from").isObjectOrNull = true

/-- What is written is read as the same ids, time, sender and name. -/
def RoundTrips (realValue : String → Option Rat) (uuid_parse : String → Option UUID)
    (m : MetadataRecord) : Prop :=
  ∀ obj, Writable obj → ∃ written, m.toObject obj = .ok written ∧
    ∀ old : MetadataRecord, old.fromObject realValue uuid_parse written
      = .ok { m with mTrace := old.mTrace }

theorem exists_updateMember {obj : Object} (hobj : obj.isObjectOrNull) (key : String)
    (f : Object → Except Exception Object) {value : Object}
    (hf : f (obj.member key) = .ok value) :
    ∃ obj', updateMember obj key f = .ok obj' ∧ obj'.isObjectOrNull = true ∧
      ∀ name, obj'.member name = if name = key then value else obj.member name := by
  obtain ⟨touched, htouch, htouched, hmember, -⟩ := Object.touch_of_isObjectOrNull hobj key
  have hnull := Object.isObjectOrNull_of_isObject htouched
  obtain ⟨obj', hset, hobj', hvalue⟩ := Object.set_of_isObjectOrNull hnull key value
  refine ⟨obj', ?_, hobj', fun name => by rw [hvalue, hmember]⟩
  rw [updateMember, except_bind_of_ok htouch,
    except_bind_of_ok (Object.get_of_isObjectOrNull hnull key), hmember, except_bind_of_ok hf, hset]

/-- The two numbers of the creation time, of which only the seconds are read. -/
theorem exists_creationTime (t : ArrasTime) {obj : Object} (hobj : obj.isObjectOrNull)
    (htime : (obj.member "creationTime").isObjectOrNull) :
    ∃ obj₁ obj₂, updateMember obj "creationTime" (·.set "seconds" (.int t.seconds.toInt))
        = .ok obj₁ ∧
      updateMember obj₁ "creationTime" (·.set "microseconds" (.int t.microseconds.toInt))
        = .ok obj₂ ∧
      obj₂.isObjectOrNull = true ∧
      ((obj₂.member "creationTime").isObjectOrNull = true ∧
        (obj₂.member "creationTime").member "seconds" = .int t.seconds.toInt) ∧
      ∀ name ≠ "creationTime", obj₂.member name = obj.member name := by
  obtain ⟨t₁, hset₁, hnull₁, hmember₁⟩ :=
    Object.set_of_isObjectOrNull htime "seconds" (.int t.seconds.toInt)
  obtain ⟨obj₁, hupdate₁, hobj₁, hvalue₁⟩ :=
    exists_updateMember hobj "creationTime" (·.set "seconds" (.int t.seconds.toInt)) hset₁
  obtain ⟨t₂, hset₂, hnull₂, hmember₂⟩ :=
    Object.set_of_isObjectOrNull hnull₁ "microseconds" (.int t.microseconds.toInt)
  have htime₁ : obj₁.member "creationTime" = t₁ := by rw [hvalue₁, if_pos rfl]
  obtain ⟨obj₂, hupdate₂, hobj₂, hvalue₂⟩ :=
    exists_updateMember hobj₁ "creationTime"
      (·.set "microseconds" (.int t.microseconds.toInt)) (htime₁ ▸ hset₂)
  refine ⟨obj₁, obj₂, hupdate₁, hupdate₂, hobj₂, ?_, fun name hne => ?_⟩
  · rw [hvalue₂, if_pos rfl]
    exact ⟨hnull₂, by rw [hmember₂, if_neg (by decide), hmember₁, if_pos rfl]⟩
  · rw [hvalue₂, if_neg hne, hvalue₁, if_neg hne]

section

variable {realValue : String → Option Rat} {uuid_parse : String → Option UUID}

/-- The object that is written, member by member. -/
theorem exists_toObject (hparse : ∀ u : UUID, uuid_parse u.toString = some u)
    (m : MetadataRecord) {obj : Object} (hobj : Writable obj) :
    ∃ written, m.toObject obj = .ok written ∧ written.isObjectOrNull = true ∧
      written.member "instanceId" = .string m.mInstanceId.toString ∧
      written.member "sourceId" = .string m.mSourceId.toString ∧
      ((written.member "creationTime").isObjectOrNull = true ∧
        (written.member "creationTime").member "seconds"
          = .int m.mCreationTime.seconds.toInt) ∧
      Routing.Address.fromObject uuid_parse (written.member "from") = .ok m.mFrom ∧
      written.member "routingName" = .string m.mRoutingName := by
  obtain ⟨hnull, htime, hfrom⟩ := hobj
  -- the two ids
  obtain ⟨o₁, hset₁, hnull₁, hmember₁⟩ :=
    Object.set_of_isObjectOrNull hnull "instanceId" (.string m.mInstanceId.toString)
  obtain ⟨o₂, hset₂, hnull₂, hmember₂⟩ :=
    Object.set_of_isObjectOrNull hnull₁ "sourceId" (.string m.mSourceId.toString)
  have htime₂ : (o₂.member "creationTime").isObjectOrNull := by
    rw [hmember₂, if_neg (by decide), hmember₁, if_neg (by decide)]
    exact htime
  -- the creation time
  obtain ⟨o₃, o₄, hset₃, hset₄, hnull₄, hseconds, hother⟩ :=
    exists_creationTime m.mCreationTime hnull₂ htime₂
  -- the sender, where the members of the object are still the old ones
  have hfrom₄ : o₄.member "from" = obj.member "from" := by
    rw [hother _ (by decide), hmember₂, if_neg (by decide), hmember₁, if_neg (by decide)]
  obtain ⟨sender, hsender, -, hread⟩ := Routing.Address.exists_toObject hparse m.mFrom hfrom
  obtain ⟨o₅, hset₅, hnull₅, hmember₅⟩ := exists_updateMember hnull₄ "from"
    (Routing.Address.toObject m.mFrom) (by rw [hfrom₄, hsender])
  obtain ⟨o₆, hset₆, hnull₆, hmember₆⟩ :=
    Object.set_of_isObjectOrNull hnull₅ "routingName" (.string m.mRoutingName)
  have hold : ∀ name, name ≠ "routingName" → name ≠ "from" →
      o₆.member name = o₄.member name := fun name hname hfrom => by
    rw [hmember₆, if_neg hname, hmember₅, if_neg hfrom]
  refine ⟨o₆, ?_, hnull₆, ?_, ?_, ?_, ?_, by rw [hmember₆, if_pos rfl]⟩
  · rw [toObject, except_bind_of_ok hset₁, except_bind_of_ok hset₂, except_bind_of_ok hset₃,
      except_bind_of_ok hset₄, except_bind_of_ok hset₅, hset₆]
  · rw [hold _ (by decide) (by decide), hother _ (by decide), hmember₂, if_neg (by decide),
      hmember₁, if_pos rfl]
  · rw [hold _ (by decide) (by decide), hother _ (by decide), hmember₂, if_pos rfl]
  · rw [hold _ (by decide) (by decide)]
    exact hseconds
  · rw [hmember₆, if_neg (by decide), hmember₅, if_pos rfl, hread]

variable (realValue) in
/-- The header that is read has the seconds in place of the microseconds. -/
theorem fromObject_toObject (hparse : ∀ u : UUID, uuid_parse u.toString = some u)
    (m : MetadataRecord) {obj : Object} (hobj : Writable obj) :
    ∃ written, m.toObject obj = .ok written ∧
      ∀ old : MetadataRecord, old.fromObject realValue uuid_parse written
        = .ok { m with
            mCreationTime := ⟨m.mCreationTime.seconds, m.mCreationTime.seconds⟩
            mTrace := old.mTrace } := by
  obtain ⟨written, hwritten, hnull, hinstance, hsource, ⟨htime, hseconds⟩, hfrom, hname⟩ :=
    exists_toObject hparse m hobj
  refine ⟨written, hwritten, fun old => ?_⟩
  have hget := Object.get_of_isObjectOrNull hnull
  have hgetTime := Object.get_of_isObjectOrNull htime
  have hread : ((written.member "creationTime").member "seconds").asInt32 realValue
      = .ok m.mCreationTime.seconds := by
    rw [hseconds, Object.asInt32_int]
  rw [fromObject, except_bind_of_ok (hget "instanceId"), hinstance,
    except_bind_of_ok (rfl : Object.asString (.string _) = .ok _),
    except_bind_of_ok (hget "sourceId"), hsource,
    except_bind_of_ok (rfl : Object.asString (.string _) = .ok _),
    except_bind_of_ok (hget "creationTime"), except_bind_of_ok (hgetTime "seconds"),
    except_bind_of_ok hread, except_bind_of_ok (hget "creationTime"),
    except_bind_of_ok (hgetTime "seconds"), except_bind_of_ok hread,
    except_bind_of_ok (hget "from"), except_bind_of_ok hfrom,
    except_bind_of_ok (hget "routingName"), hname,
    except_bind_of_ok (rfl : Object.asString (.string _) = .ok _)]
  simp only [parseUUID, hparse, Option.getD_some]
  rfl

/-- A header that is written to a new object. -/
theorem microseconds_of_roundTrips (hparse : ∀ u : UUID, uuid_parse u.toString = some u)
    {m : MetadataRecord} (h : RoundTrips realValue uuid_parse m) :
    m.mCreationTime.microseconds = m.mCreationTime.seconds := by
  have hnew : Writable .null := ⟨rfl, rfl, rfl⟩
  obtain ⟨written, hwritten, hread⟩ := h .null hnew
  obtain ⟨other, hother, hseconds⟩ :=
    fromObject_toObject realValue hparse m hnew
  obtain rfl := Except.ok.inj (hwritten.symm.trans hother)
  exact congrArg (·.mCreationTime.microseconds)
    (Except.ok.inj ((hread m).symm.trans (hseconds m)))

/-- A header is read as it was written exactly if its time has as many microseconds as
    seconds. -/
theorem roundTrips_iff (hparse : ∀ u : UUID, uuid_parse u.toString = some u)
    (m : MetadataRecord) :
    RoundTrips realValue uuid_parse m ↔
      m.mCreationTime.microseconds = m.mCreationTime.seconds := by
  refine ⟨microseconds_of_roundTrips hparse, fun h obj hobj => ?_⟩
  obtain ⟨written, hwritten, hread⟩ :=
    fromObject_toObject realValue hparse m hobj
  refine ⟨written, hwritten, fun old => (hread old).trans ?_⟩
  have htime : ArrasTime.mk m.mCreationTime.seconds m.mCreationTime.seconds
      = m.mCreationTime := congrArg (ArrasTime.mk m.mCreationTime.seconds) h.symm
  rw [htime]

end

/-- A message that was created one second after the epoch. -/
def oneSecond : MetadataRecord := ⟨.null, .null, ⟨1, 0⟩, {}, "message", false⟩

theorem roundTrips_iff_oneSecond :
    RoundTrips (fun _ => none) UUID.Windows.uuid_parse oneSecond ↔
      oneSecond.mCreationTime.microseconds = oneSecond.mCreationTime.seconds :=
  roundTrips_iff UUID.Windows.uuid_parse_toString oneSecond

/-- It is read with a microsecond more. -/
theorem not_roundTrips_oneSecond :
    ¬ RoundTrips (fun _ => none) UUID.Windows.uuid_parse oneSecond :=
  fun h => absurd (microseconds_of_roundTrips UUID.Windows.uuid_parse_toString h) (by decide)

end MetadataRecord

end Arras4Core.Message
