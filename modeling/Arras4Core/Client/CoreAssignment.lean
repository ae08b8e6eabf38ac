/-
  Arras4Core.Client.CoreAssignment

  How many cores a local computation is given, and how many the coordinator is
  told.  The first is computed by `LocalSession::processComputation`, the second
  by `SessionNotification::updateCores` in a copy of the definition; both start
  from the same optional members of the 'resources' object.

  Of `setDefinition` and `processComputation` this file has the checks of the
  definition and the limits.  What `processComputation` does with the environment,
  the packaging and the configuration of a computation, when it has the limits, is a
  parameter `configure`, which can throw.  `hardware` is
  `std::thread::hardware_concurrency()`.

  Main result: `cores_iff`.
-/

import Arras4Core.Api.ObjectNumber
import Arras4Core.Client.ComputationEnvironment

namespace Arras4Core.Client

open Arras4Core.Lib
open Arras4Core.Api (Exception Object)

section

variable (realValue : String → Option Rat)

namespace LocalSession

def DEFAULT_MEMORY_MB : UInt32 := 2048
def RESERVED_CORES : UInt32 := 1

/-- The limits in `mSpawnArgs`. -/
structure Limits where
  assignedMb : UInt32
  assignedCores : UInt32

/-- `mSpawnArgs.assignedCores`. -/
def assignedCores (hardware : UInt32) (resources : Object) : Except Exception UInt32 := do
  let coresVal ← resources.get "cores"
  if ← coresVal.isNatural realValue then coresVal.asUInt realValue
  else
    let maxCores ← (← resources.get "maxCores").asUIntOr realValue 1024
    let reservedCores ← (← resources.get "reservedCores").asUIntOr realValue RESERVED_CORES
    let assignedCores := hardware - reservedCores
    return if assignedCores > maxCores then maxCores else assignedCores

def assignLimits (hardware : UInt32) (resources : Object) : Except Exception Limits := do
  let assignedMb ← (← resources.get "memoryMB").asUIntOr realValue DEFAULT_MEMORY_MB
  return ⟨assignedMb, ← assignedCores realValue hardware resources⟩

def processComputation (hardware : UInt32) (configure : String → Object → Except Exception Unit)
    (name : String) (definition : Object) : Except Exception Limits := do
  let requirements ← getObject definition "requirements"
  let resources ← getObject requirements "resources"
  let limits ← assignLimits realValue hardware resources
  configure name definition
  return limits

/-- Returns the limits of the computation that is processed last. -/
def setDefinition (hardware : UInt32) (configure : String → Object → Except Exception Unit)
    (definition : Object) : Except Exception Limits := do
  let comps ← definition.get "computations"
  let client := comps.member "(client)"
  if !comps.isObject || comps.members.length != 2 || client.isNull then
    throw (.sessionError "Local session definitions must contain client and one computation")
  else
    let limits ← comps.members.foldlM (fun limits comp =>
      if comp.1 ≠ "(client)" then processComputation realValue hardware configure comp.1 comp.2
      else return limits) ⟨0, 0⟩
    -- `buildRouting`
    if client.isObject then return limits
    else throw (.sessionError "Invalid client definition")

end LocalSession

namespace SessionNotification

/-- What `updateCores` makes of a 'resources' object. -/
def updateResources (hardware : UInt32) (resources : Object) : Except Exception Object := do
  let resources ← resources.touch "cores"
  let coresVal ← resources.get "cores"
  if ← coresVal.isNatural realValue then return resources
  else if ← resources.isMember "maxCores" then
    let maxCores ← (← resources.get "maxCores").asUIntOr realValue 1024
    let assignedCores := hardware - 1
    let assignedCores := if assignedCores > maxCores then maxCores else assignedCores
    let resources ← resources.set "cores" (.int assignedCores.toNat)
    (← resources.removeMember "maxCores").removeMember "minCores"
  else resources.set "cores" (.int 1)

/-- The computation with its 'resources' updated in place. -/
def updateRequirements (hardware : UInt32) (computation requirements : Object) :
    Except Exception Object := do
  let resources ← updateResources realValue hardware (← requirements.get "resources")
  let requirements ← requirements.set "resources" resources
  computation.set "requirements" requirements

/-- One round of the loop; `none` when it goes on. -/
def updateComputation (hardware : UInt32) (computation : Object) :
    Except Exception (Option Object) := do
  if ← computation.isMember "requirements" then
    let requirements ← computation.get "requirements"
    if ← requirements.isMember "resources" then
      return some (← updateRequirements realValue hardware computation requirements)
    else return none
  else return none

def updateComputations (hardware : UInt32) :
    List (String × Object) → Except Exception (List (String × Object))
  | [] => return []
  | (name, computation) :: rest => do
    match ← updateComputation realValue hardware computation with
    | some computation => return (name, computation) :: rest
    | none => return (name, computation) :: (← updateComputations hardware rest)

def updateCores (hardware : UInt32) (aDefinition : Object) : Except Exception Object := do
  let definition ← aDefinition.touch "computations"
  let computations ← definition.get "computations"
  let members ← updateComputations realValue hardware computations.members
  match computations with
  | .array _ => definition.set "computations" (.array (members.map Prod.snd))
  | .object _ => definition.set "computations" (.object members)
  | _ => return definition

end SessionNotification

end

/-! ## What the two are for -/

def resourcesOf (computation : Object) : Object :=
  (computation.member "requirements").member "resources"

/-- The 'resources' of a computation in a definition. -/
def resourcesIn (definition : Object) (name : String) : Object :=
  resourcesOf ((definition.member "computations").member name)

section

variable (realValue : String → Option Rat) (hardware : UInt32)

/-- The cores that the computation asks for and keeps free, as numbers. -/
def maxCoresOf (resources : Object) : Nat := (resources.member "maxCores").countOr realValue 1024
def reservedCoresOf (resources : Object) : Nat :=
  (resources.member "reservedCores").countOr realValue 1

/-- No more cores than there are besides the reserved ones, and no more than the maximum. -/
def AssignsWithin (resources : Object) : Prop :=
  ∃ limits, LocalSession.assignLimits realValue hardware resources = .ok limits ∧
    limits.assignedCores.toNat = min (maxCoresOf realValue resources)
      (hardware.toNat - reservedCoresOf realValue resources)

/-- The coordinator is told that the computation has this number of cores. -/
def Reports (definition : Object) (name : String) (cores : Nat) : Prop :=
  ∃ reported, SessionNotification.updateCores realValue hardware definition = .ok reported ∧
    (resourcesIn reported name).member "cores" = .int cores

/-- It is told the number that is assigned. -/
def ReportsAssigned (configure : String → Object → Except Exception Unit) (definition : Object)
    (name : String) : Prop :=
  ∀ limits, LocalSession.setDefinition realValue hardware configure definition = .ok limits →
    Reports realValue hardware definition name limits.assignedCores.toNat

/-- The three numbers of the cores can be read. -/
def ReadableCores (resources : Object) : Prop :=
  (resources.member "cores").Readable realValue ∧
  (resources.member "maxCores").Readable realValue ∧
  (resources.member "reservedCores").Readable realValue

/-- And that of the memory. -/
def ReadableLimits (resources : Object) : Prop :=
  (resources.member "memoryMB").Readable realValue ∧ ReadableCores realValue resources

/-- The source's difference, which wraps around. -/
def remaining (reserved : Nat) : Nat :=
  (4294967296 - reserved + hardware.toNat) % 4294967296

/-- There are as many cores as are reserved, or none are to be used. -/
def HasReserved (resources : Object) : Prop :=
  reservedCoresOf realValue resources ≤ hardware.toNat ∨ maxCoresOf realValue resources = 0

end

/-- The two computations of a local definition. -/
structure IsLocal (definition : Object) (name : String) (client computation : Object) :
    Prop where
  name_ne : name ≠ "(client)"
  computations :
    definition.member "computations" = .object [("(client)", client), (name, computation)] ∨
    definition.member "computations" = .object [(name, computation), ("(client)", client)]

/-- The loop of `updateCores` goes on behind the computation. -/
def PassedOver (computation : Object) : Prop :=
  (computation.member "requirements").isMember "resources" = .ok false

/-- When the two numbers are the same, of a session that is set up: the loop gets to the
    computation, and the one reserved core of `updateCores` makes no difference. -/
def ReportsIf (realValue : String → Option Rat) (hardware : UInt32)
    (configure : String → Object → Except Exception Unit) (definition : Object) (name : String)
    (client computation : Object) : Prop :=
  ReadableLimits realValue (resourcesOf computation) → configure name computation = .ok () →
    client.isObject →
    ((definition.member "computations").members.head?.map Prod.fst ≠ some name →
      PassedOver client) ∧
    (reservedCoresOf realValue (resourcesOf computation) = 1 ∨
      maxCoresOf realValue (resourcesOf computation) ≤ remaining hardware 1 ∧
      maxCoresOf realValue (resourcesOf computation)
        ≤ remaining hardware (reservedCoresOf realValue (resourcesOf computation)))

/-! ## The cores that are assigned -/

section

variable {realValue : String → Option Rat} {hardware : UInt32} {resources : Object}

theorem toNat_min_sub {reserved maxCores : UInt32} :
    (if hardware - reserved > maxCores then maxCores else hardware - reserved).toNat
      = min maxCores.toNat (remaining hardware reserved.toNat) := by
  have hsub : (hardware - reserved).toNat = remaining hardware reserved.toNat :=
    UInt32.toNat_sub ..
  rw [← hsub]
  split
  · next h =>
    have hlt : maxCores.toNat < (hardware - reserved).toNat := UInt32.lt_iff_toNat_lt.mp h
    omega
  · next h =>
    have hle : (hardware - reserved).toNat ≤ maxCores.toNat :=
      UInt32.le_iff_toNat_le.mp (UInt32.not_lt.mp h)
    omega

variable (hardware) in
/-- The cores as a number, where the three members can be read; they cannot
    otherwise. -/
theorem assignedCores_cases (hobject : resources.isObject)
    (hcores : ¬ (resources.member "cores").HasCount realValue) :
    (ReadableCores realValue resources ∧ reservedCoresOf realValue resources < 4294967296 ∧
      ∃ n, LocalSession.assignedCores realValue hardware resources = .ok n ∧
        n.toNat = min (maxCoresOf realValue resources)
          (remaining hardware (reservedCoresOf realValue resources))) ∨
    (¬ ReadableCores realValue resources ∧ ∃ e,
      LocalSession.assignedCores realValue hardware resources = .error e) := by
  have hget : ∀ key, resources.get key = .ok (resources.member key) :=
    Object.get_of_isObjectOrNull (Object.isObjectOrNull_of_isObject hobject)
  rw [LocalSession.assignedCores, except_bind_of_ok (hget "cores"), ReadableCores]
  rcases Object.isNatural_cases hcores with ⟨hread, hnatural⟩ | ⟨hread, hnatural⟩
  · rw [except_bind_of_ok hnatural, if_neg Bool.false_ne_true, except_bind_of_ok (hget "maxCores")]
    rcases Object.asUIntOr_cases realValue (resources.member "maxCores") 1024
      with ⟨hmax, maxCores, hmaxCores, htomax⟩ | ⟨hmax, herror⟩
    · rw [except_bind_of_ok hmaxCores, except_bind_of_ok (hget "reservedCores")]
      rcases Object.asUIntOr_cases realValue (resources.member "reservedCores")
          LocalSession.RESERVED_CORES
        with ⟨hreserved, reserved, hreservedCores, htoreserved⟩ | ⟨hreserved, herror⟩
      · have hto : reserved.toNat = reservedCoresOf realValue resources := htoreserved
        rw [except_bind_of_ok hreservedCores]
        refine .inl ⟨⟨hread, hmax, hreserved⟩, hto ▸ reserved.toNat_lt, _, rfl, ?_⟩
        rw [toNat_min_sub, htomax, hto]
        rfl
      · exact .inr ⟨fun h => hreserved h.2.2, _, except_bind_of_error herror _⟩
    · exact .inr ⟨fun h => hmax h.2.1, _, except_bind_of_error herror _⟩
  · refine .inr ⟨fun h => hread h.1, ?_⟩
    rcases hnatural with herror | ⟨htrue, herror⟩
    · exact ⟨_, except_bind_of_error herror _⟩
    · rw [except_bind_of_ok htrue, if_pos rfl]
      exact ⟨_, herror⟩

variable (hardware) in
theorem assignLimits_cases (hobject : resources.isObject)
    (hcores : ¬ (resources.member "cores").HasCount realValue) :
    (ReadableLimits realValue resources ∧ reservedCoresOf realValue resources < 4294967296 ∧
      ∃ limits, LocalSession.assignLimits realValue hardware resources = .ok limits ∧
        limits.assignedCores.toNat = min (maxCoresOf realValue resources)
          (remaining hardware (reservedCoresOf realValue resources))) ∨
    (¬ ReadableLimits realValue resources ∧ ∃ e,
      LocalSession.assignLimits realValue hardware resources = .error e) := by
  have hget := Object.get_of_isObjectOrNull (Object.isObjectOrNull_of_isObject hobject) "memoryMB"
  rw [LocalSession.assignLimits, except_bind_of_ok hget, ReadableLimits]
  rcases Object.asUIntOr_cases realValue (resources.member "memoryMB")
      LocalSession.DEFAULT_MEMORY_MB
    with ⟨hmemory, assignedMb, hassignedMb, -⟩ | ⟨hmemory, herror⟩
  · rw [except_bind_of_ok hassignedMb]
    rcases assignedCores_cases hardware hobject hcores with
      ⟨hread, hlt, n, hassigned, hn⟩ | ⟨hread, e, herror⟩
    · exact .inl ⟨⟨hmemory, hread⟩, hlt, _, except_bind_of_ok hassigned _, hn⟩
    · exact .inr ⟨fun h => hread h.2, _, except_bind_of_error herror _⟩
  · exact .inr ⟨fun h => hmemory h.1, _, except_bind_of_error herror _⟩

theorem assignsWithin_iff (hobject : resources.isObject)
    (hcores : ¬ (resources.member "cores").HasCount realValue) :
    AssignsWithin realValue hardware resources ↔
      ReadableLimits realValue resources ∧ HasReserved realValue hardware resources := by
  rcases assignLimits_cases hardware hobject hcores with
    ⟨hread, hlt, limits, hassigned, hn⟩ | ⟨hread, e, herror⟩
  · have hhardware : hardware.toNat < 4294967296 := hardware.toNat_lt
    have hminimum : limits.assignedCores.toNat = min (maxCoresOf realValue resources)
        (hardware.toNat - reservedCoresOf realValue resources) ↔
          HasReserved realValue hardware resources := by
      rw [hn, remaining, HasReserved]
      omega
    constructor
    · rintro ⟨_, hm, heq⟩
      obtain rfl := Except.ok.inj (hassigned.symm.trans hm)
      exact ⟨hread, hminimum.mp heq⟩
    · rintro ⟨-, hreserved⟩
      exact ⟨limits, hassigned, hminimum.mpr hreserved⟩
  · refine iff_of_false ?_ fun h => hread h.1
    rintro ⟨_, hm, -⟩
    cases herror.symm.trans hm

end

/-! ## The session's side -/

theorem isObject_of_member_isObject {o : Object} {key : String}
    (h : (o.member key).isObject = true) : o.isObject = true := by
  cases o with
  | object _ => rfl
  | _ => cases h

theorem isMember_of_member_isObject {o : Object} {key : String}
    (h : (o.member key).isObject = true) : o.isMember key = .ok true := by
  cases o with
  | object members =>
    refine congrArg Except.ok ?_
    cases hlookup : members.lookup key with
    | some _ => rfl
    | none =>
      rw [Object.member, hlookup] at h
      cases h
  | _ => cases h

theorem getObject_of_isObject {o : Object} {key : String} (h : (o.member key).isObject = true) :
    getObject o key = .ok (o.member key) := by
  have hobject := Object.isObjectOrNull_of_isObject (isObject_of_member_isObject h)
  rw [getObject, except_bind_of_ok (Object.get_of_isObjectOrNull hobject key), if_pos h]
  rfl

theorem processComputation_eq_ok (realValue : String → Option Rat) (hardware : UInt32)
    (configure : String → Object → Except Exception Unit) (name : String)
    {computation : Object} (hobject : (resourcesOf computation).isObject)
    (limits : LocalSession.Limits) :
    LocalSession.processComputation realValue hardware configure name computation = .ok limits ↔
      LocalSession.assignLimits realValue hardware (resourcesOf computation) = .ok limits ∧
        configure name computation = .ok () := by
  have hrequirements := isObject_of_member_isObject hobject
  rw [LocalSession.processComputation, except_bind_of_ok (getObject_of_isObject hrequirements),
    except_bind_of_ok (getObject_of_isObject hobject), resourcesOf]
  cases hassigned : LocalSession.assignLimits realValue hardware
      ((computation.member "requirements").member "resources") with
  | error e => exact iff_of_false nofun (fun h => nomatch h.1)
  | ok assigned =>
    rw [except_bind_of_ok rfl]
    cases hconfigure : configure name computation with
    | error e => exact iff_of_false nofun (fun h => nomatch h.2)
    | ok _ => exact (and_iff_left rfl).symm

section

variable {definition client computation : Object} {name : String}

namespace IsLocal

theorem isObject (h : IsLocal definition name client computation) :
    definition.isObject = true ∧ (definition.member "computations").isObject = true := by
  have hcomputations : (definition.member "computations").isObject = true := by
    rcases h.computations with heq | heq <;> rw [heq] <;> rfl
  exact ⟨isObject_of_member_isObject hcomputations, hcomputations⟩

theorem member_client (h : IsLocal definition name client computation) :
    (definition.member "computations").member "(client)" = client := by
  have hne : "(client)" ≠ name := h.name_ne.symm
  rcases h.computations with heq | heq
  · rw [heq]
    rfl
  · rw [heq, Object.member, Object.lookup_member_cons, if_neg hne]
    rfl

/-- The loop over the two computations processes the one that is not the client. -/
theorem foldlM_processComputation (h : IsLocal definition name client computation)
    (realValue : String → Option Rat) (hardware : UInt32)
    (configure : String → Object → Except Exception Unit) (limits : LocalSession.Limits) :
    (definition.member "computations").members.foldlM (fun limits comp =>
        if comp.1 ≠ "(client)" then
          LocalSession.processComputation realValue hardware configure comp.1 comp.2
        else return limits) limits
      = LocalSession.processComputation realValue hardware configure name computation := by
  rcases h.computations with heq | heq
  all_goals
    simp only [heq, Object.members, List.foldlM_cons, List.foldlM_nil, ne_eq, h.name_ne,
      not_true_eq_false, not_false_eq_true, if_true, if_false, pure_bind, bind_pure]

/-- The session is set up with the limits of the one computation. -/
theorem setDefinition_eq_ok (h : IsLocal definition name client computation)
    (realValue : String → Option Rat) (hardware : UInt32)
    (configure : String → Object → Except Exception Unit) (limits : LocalSession.Limits) :
    LocalSession.setDefinition realValue hardware configure definition = .ok limits ↔
      client.isObject = true ∧
        LocalSession.processComputation realValue hardware configure name computation
          = .ok limits := by
  obtain ⟨hobject, hcomps⟩ := h.isObject
  have hget := Object.get_of_isObjectOrNull (Object.isObjectOrNull_of_isObject hobject)
  have htwo : ((definition.member "computations").members.length != 2) = false := by
    rcases h.computations with heq | heq <;> rw [heq] <;> rfl
  rw [LocalSession.setDefinition, except_bind_of_ok (hget "computations")]
  dsimp only
  rw [h.member_client, hcomps, htwo, h.foldlM_processComputation]
  cases hclient : client.isObject with
  | false =>
    refine iff_of_false (fun hset => ?_) (fun hboth => Bool.false_ne_true hboth.1)
    split at hset
    · cases hset
    · cases hprocess :
        LocalSession.processComputation realValue hardware configure name computation with
      | error e => cases (except_bind_of_error hprocess _).symm.trans hset
      | ok m => cases (except_bind_of_ok hprocess _).symm.trans hset
  | true =>
    rw [Object.isNull_of_isObject hclient]
    simp

end IsLocal

end

/-! ## The notification's side -/

namespace SessionNotification

section

variable {realValue : String → Option Rat} {hardware : UInt32}

variable (hardware) in
/-- The cores that are reported in place of the maximum. -/
theorem exists_updateResources {resources : Object} (hobject : resources.isObject)
    (hcores : ¬ (resources.member "cores").HasCount realValue)
    (hread : ReadableCores realValue resources)
    (hmaxCores : resources.isMember "maxCores" = .ok true) :
    ∃ reported, updateResources realValue hardware resources = .ok reported ∧
      reported.member "cores"
        = .int (min (maxCoresOf realValue resources) (remaining hardware 1) : Nat) := by
  have hnull := Object.isObjectOrNull_of_isObject hobject
  obtain ⟨touched, htouch, htouched, hmember, hisMember⟩ :=
    Object.touch_of_isObjectOrNull hnull "cores"
  have hget := Object.get_of_isObjectOrNull (Object.isObjectOrNull_of_isObject htouched)
  have hnatural : (resources.member "cores").isNatural realValue = .ok false := by
    rcases Object.isNatural_cases hcores with ⟨-, hfalse⟩ | ⟨hnot, -⟩
    · exact hfalse
    · exact absurd hread.1 hnot
  obtain ⟨maxCores, hmax, htomax⟩ : ∃ n : UInt32,
      (resources.member "maxCores").asUIntOr realValue 1024 = .ok n ∧
        n.toNat = maxCoresOf realValue resources := by
    rcases Object.asUIntOr_cases realValue (resources.member "maxCores") 1024
      with ⟨-, hok⟩ | ⟨hnot, -⟩
    · exact hok
    · exact absurd hread.2.1 hnot
  have hmem : touched.isMember "maxCores" = .ok true :=
    (hisMember "maxCores" (by decide)).trans hmaxCores
  -- the members that are set and removed
  obtain ⟨counted, hset, hcounted, hvalue⟩ := Object.set_of_isObjectOrNull
    (Object.isObjectOrNull_of_isObject htouched) "cores"
    (.int (if hardware - 1 > maxCores then maxCores else hardware - 1).toNat)
  obtain ⟨less, hless, hlessNull, hlessMember⟩ :=
    Object.removeMember_of_isObjectOrNull hcounted "maxCores"
  obtain ⟨least, hleast, -, hleastMember⟩ :=
    Object.removeMember_of_isObjectOrNull hlessNull "minCores"
  refine ⟨least, ?_, ?_⟩
  · rw [updateResources, except_bind_of_ok htouch, except_bind_of_ok (hget "cores"), hmember,
      except_bind_of_ok hnatural, if_neg Bool.false_ne_true, except_bind_of_ok hmem, if_pos rfl,
      except_bind_of_ok (hget "maxCores"), hmember, except_bind_of_ok hmax,
      except_bind_of_ok hset, except_bind_of_ok hless, hleast]
  · rw [hleastMember "cores" (by decide), hlessMember "cores" (by decide), hvalue, if_pos rfl,
      toNat_min_sub, htomax]
    rfl

/-- A computation whose 'resources' are replaced. -/
theorem exists_updateComputation {computation resources reported : Object}
    (hresources : resourcesOf computation = resources) (hobject : resources.isObject)
    (hreported : updateResources realValue hardware resources = .ok reported) :
    ∃ updated, updateComputation realValue hardware computation = .ok (some updated) ∧
      resourcesOf updated = reported := by
  subst hresources
  have hrequirements := isObject_of_member_isObject hobject
  have hcomputation := isObject_of_member_isObject hrequirements
  have hnull := Object.isObjectOrNull_of_isObject hcomputation
  have hrequirementsNull := Object.isObjectOrNull_of_isObject hrequirements
  obtain ⟨required, hset, -, hmember⟩ :=
    Object.set_of_isObjectOrNull hrequirementsNull "resources" reported
  obtain ⟨updated, hupdated, -, hupdatedMember⟩ :=
    Object.set_of_isObjectOrNull hnull "requirements" required
  have hupdate : updateRequirements realValue hardware computation
      (computation.member "requirements") = .ok updated := by
    rw [updateRequirements,
      except_bind_of_ok (Object.get_of_isObjectOrNull hrequirementsNull "resources")]
    exact (except_bind_of_ok hreported _).trans ((except_bind_of_ok hset _).trans hupdated)
  refine ⟨updated, ?_, ?_⟩
  · rw [updateComputation, except_bind_of_ok (isMember_of_member_isObject hrequirements),
      if_pos rfl, except_bind_of_ok (Object.get_of_isObjectOrNull hnull "requirements"),
      except_bind_of_ok (isMember_of_member_isObject hobject), if_pos rfl,
      except_bind_of_ok hupdate]
    rfl
  · rw [resourcesOf, hupdatedMember, if_pos rfl, hmember, if_pos rfl]

variable (realValue hardware) in
/-- The loop goes on behind a computation exactly if it has no 'resources'. -/
theorem updateComputation_eq_none {client : Object} (hclient : client.isObject = true) :
    updateComputation realValue hardware client = .ok none ↔ PassedOver client := by
  have hget := Object.get_of_isObjectOrNull (Object.isObjectOrNull_of_isObject hclient)
  obtain ⟨hasRequirements, hmem⟩ : ∃ b, client.isMember "requirements" = .ok b := by
    cases client with
    | object members => exact ⟨_, rfl⟩
    | _ => cases hclient
  rw [updateComputation, except_bind_of_ok hmem, PassedOver]
  cases hasRequirements with
  | false =>
    have hmissing : client.member "requirements" = .null := Object.member_of_isMember_false hmem
    rw [hmissing]
    exact iff_of_true rfl rfl
  | true =>
    rw [if_pos rfl, except_bind_of_ok (hget "requirements")]
    cases hresources : (client.member "requirements").isMember "resources" with
    | error e => exact iff_of_false nofun nofun
    | ok hasResources =>
      cases hasResources with
      | false => exact iff_of_true rfl rfl
      | true =>
        refine iff_of_false (fun h => ?_) nofun
        cases hupdate : updateRequirements realValue hardware client
            (client.member "requirements") with
        | error e => cases (except_bind_of_error hupdate _).symm.trans h
        | ok updated => cases (except_bind_of_ok hupdate _).symm.trans h

section

variable {definition client computation : Object} {name : String}

/-- The members that the loop leaves are put into the definition. -/
theorem exists_updateCores_eq (realValue : String → Option Rat) (hardware : UInt32)
    (hlocal : IsLocal definition name client computation) :
    ∃ touched : Object, touched.isObjectOrNull = true ∧
      updateCores realValue hardware definition
        = updateComputations realValue hardware (definition.member "computations").members
          >>= fun members => touched.set "computations" (.object members) := by
  obtain ⟨hobject, hcomps⟩ := hlocal.isObject
  obtain ⟨touched, htouch, htouched, hmember, -⟩ :=
    Object.touch_of_isObjectOrNull (Object.isObjectOrNull_of_isObject hobject) "computations"
  have hnull := Object.isObjectOrNull_of_isObject htouched
  refine ⟨touched, hnull, ?_⟩
  rw [updateCores, except_bind_of_ok htouch,
    except_bind_of_ok (Object.get_of_isObjectOrNull hnull "computations"), hmember]
  cases hcomputations : definition.member "computations" with
  | object _ => rfl
  | _ =>
    rw [hcomputations] at hcomps
    cases hcomps

theorem exists_updateCores (hlocal : IsLocal definition name client computation)
    {members : List (String × Object)}
    (hloop : updateComputations realValue hardware (definition.member "computations").members
      = .ok members) :
    ∃ reported, updateCores realValue hardware definition = .ok reported ∧
      reported.member "computations" = .object members := by
  obtain ⟨touched, hnull, hupdate⟩ := exists_updateCores_eq realValue hardware hlocal
  obtain ⟨reported, hset, -, hvalue⟩ :=
    Object.set_of_isObjectOrNull hnull "computations" (.object members)
  refine ⟨reported, ?_, by rw [hvalue, if_pos rfl]⟩
  rw [hupdate, except_bind_of_ok hloop, hset]

theorem updateCores_of_error (hlocal : IsLocal definition name client computation)
    {e : Exception}
    (hloop : updateComputations realValue hardware (definition.member "computations").members
      = .error e) : updateCores realValue hardware definition = .error e := by
  obtain ⟨touched, -, hupdate⟩ := exists_updateCores_eq realValue hardware hlocal
  rw [hupdate, except_bind_of_error hloop]

/-- The loop gets to the computation: its 'resources' are the ones that are replaced. -/
theorem exists_updateCores_of_passedOver
    (hlocal : IsLocal definition name client computation) (hclient : client.isObject = true)
    (hpassed : (definition.member "computations").members.head?.map Prod.fst ≠ some name →
      PassedOver client)
    (hobject : (resourcesOf computation).isObject) {resources : Object}
    (hresources : updateResources realValue hardware (resourcesOf computation) = .ok resources) :
    ∃ reported, updateCores realValue hardware definition = .ok reported ∧
      resourcesIn reported name = resources := by
  obtain ⟨updated, hupdate, hupdated⟩ := exists_updateComputation rfl hobject hresources
  have hne := hlocal.name_ne
  obtain ⟨members, hloop, hlookup⟩ : ∃ members,
      updateComputations realValue hardware (definition.member "computations").members
        = .ok members ∧ members.lookup name = some updated := by
    rcases hlocal.computations with heq | heq <;> rw [heq] at hpassed ⊢
    · have hover : PassedOver client := hpassed (fun h => hne (Option.some.inj h).symm)
      have hnone := (updateComputation_eq_none realValue hardware hclient).mpr hover
      refine ⟨[("(client)", client), (name, updated)], ?_, ?_⟩
      · rw [Object.members, updateComputations, except_bind_of_ok hnone, updateComputations,
          except_bind_of_ok hupdate]
        rfl
      · rw [Object.lookup_member_cons, if_neg hne, Object.lookup_member_cons, if_pos rfl]
    · refine ⟨[(name, updated), ("(client)", client)], ?_, ?_⟩
      · rw [Object.members, updateComputations, except_bind_of_ok hupdate]
        rfl
      · rw [Object.lookup_member_cons, if_pos rfl]
  obtain ⟨reported, hreported, hmembers⟩ := exists_updateCores hlocal hloop
  refine ⟨reported, hreported, ?_⟩
  rw [resourcesIn, hmembers, Object.member, hlookup]
  exact hupdated

/-- The loop ends before it gets to the computation, which is reported as it is. -/
theorem resourcesIn_of_not_passedOver
    (hlocal : IsLocal definition name client computation) (hclient : client.isObject = true)
    (hfirst : (definition.member "computations").members.head?.map Prod.fst ≠ some name)
    (hpassed : ¬ PassedOver client) {reported : Object}
    (hreported : updateCores realValue hardware definition = .ok reported) :
    resourcesIn reported name = resourcesOf computation := by
  have hne := hlocal.name_ne
  rcases hlocal.computations with heq | heq
  · cases hupdate : updateComputation realValue hardware client with
    | error e =>
      have hloop : updateComputations realValue hardware
          (definition.member "computations").members = .error e := by
        rw [heq, Object.members, updateComputations, except_bind_of_error hupdate]
      cases (updateCores_of_error hlocal hloop).symm.trans hreported
    | ok result =>
      cases result with
      | none =>
        -- the loop would go on
        exact absurd ((updateComputation_eq_none realValue hardware hclient).mp hupdate) hpassed
      | some updated =>
        have hloop : updateComputations realValue hardware
            (definition.member "computations").members
              = .ok [("(client)", updated), (name, computation)] := by
          rw [heq, Object.members, updateComputations, except_bind_of_ok hupdate]
          rfl
        obtain ⟨other, hother, hmembers⟩ := exists_updateCores hlocal hloop
        obtain rfl := Except.ok.inj (hother.symm.trans hreported)
        rw [resourcesIn, hmembers, Object.member, Object.lookup_member_cons, if_neg hne,
          Object.lookup_member_cons, if_pos rfl]
        rfl
  · exact absurd (by rw [heq]; rfl) hfirst

end

end

end SessionNotification

/-! ## The two together -/

section

variable {realValue : String → Option Rat} {hardware : UInt32}
  {definition client computation : Object} {name : String}

/-- The two differences are the same for one reserved core only. -/
theorem min_remaining_iff {reserved maximum : Nat} (hlt : reserved < 4294967296) :
    min maximum (remaining hardware 1) = min maximum (remaining hardware reserved) ↔
      reserved = 1 ∨
        maximum ≤ remaining hardware 1 ∧ maximum ≤ remaining hardware reserved := by
  have hhardware : hardware.toNat < 4294967296 := hardware.toNat_lt
  have hinjective : remaining hardware 1 = remaining hardware reserved ↔ reserved = 1 := by
    rw [remaining, remaining]
    omega
  omega

/-- The loop gets to the computation, and one core is taken off. -/
theorem reports_iff (hlocal : IsLocal definition name client computation)
    (hobject : (resourcesOf computation).isObject)
    (hcores : ¬ ((resourcesOf computation).member "cores").HasCount realValue)
    (hmaxCores : (resourcesOf computation).isMember "maxCores" = .ok true)
    (hread : ReadableCores realValue (resourcesOf computation)) (hclient : client.isObject = true)
    (hpassed : (definition.member "computations").members.head?.map Prod.fst ≠ some name →
      PassedOver client) (cores : Nat) :
    Reports realValue hardware definition name cores ↔
      min (maxCoresOf realValue (resourcesOf computation)) (remaining hardware 1) = cores := by
  obtain ⟨resources, hresources, hvalue⟩ :=
    SessionNotification.exists_updateResources hardware hobject hcores hread hmaxCores
  obtain ⟨reported, hreported, hin⟩ :=
    SessionNotification.exists_updateCores_of_passedOver hlocal hclient hpassed hobject hresources
  have hsame : (resourcesIn reported name).member "cores" = .int cores ↔
      min (maxCoresOf realValue (resourcesOf computation)) (remaining hardware 1) = cores := by
    rw [hin, hvalue, Object.int.injEq]
    omega
  rw [← hsame]
  constructor
  · rintro ⟨other, hother, hcount⟩
    obtain rfl := Except.ok.inj (hreported.symm.trans hother)
    exact hcount
  · intro hcount
    exact ⟨reported, hreported, hcount⟩

/-- The loop has ended at the client's own 'resources': no count is reported. -/
theorem not_reports (hlocal : IsLocal definition name client computation)
    (hcores : ¬ ((resourcesOf computation).member "cores").HasCount realValue)
    (hclient : client.isObject = true)
    (hpassed : ¬ ((definition.member "computations").members.head?.map Prod.fst ≠ some name →
      PassedOver client)) (cores : Nat) : ¬ Reports realValue hardware definition name cores := by
  rintro ⟨reported, hreported, hcount⟩
  -- the client comes first, and has the 'resources' that are updated
  have hfirst := fun heq => hpassed (fun hne => absurd heq hne)
  have hnot : ¬ PassedOver client := fun hover => hpassed (fun _ => hover)
  rw [SessionNotification.resourcesIn_of_not_passedOver hlocal hclient hfirst hnot hreported]
    at hcount
  refine hcores ⟨_, by rw [hcount]; rfl, ?_⟩
  exact Rat.intCast_nonneg.mpr (Int.natCast_nonneg _)

theorem reportsAssigned_iff {configure : String → Object → Except Exception Unit}
    (hlocal : IsLocal definition name client computation)
    (hobject : (resourcesOf computation).isObject)
    (hcores : ¬ ((resourcesOf computation).member "cores").HasCount realValue)
    (hmaxCores : (resourcesOf computation).isMember "maxCores" = .ok true) :
    ReportsAssigned realValue hardware configure definition name ↔
      ReportsIf realValue hardware configure definition name client computation := by
  have hset := hlocal.setDefinition_eq_ok realValue hardware configure
  simp only [processComputation_eq_ok realValue hardware configure name hobject] at hset
  rcases assignLimits_cases hardware hobject hcores with
    ⟨hread, hlt, limits, hassigned, hn⟩ | ⟨hread, e, herror⟩
  · -- whether the session is set up is decided behind the limits
    by_cases hup : client.isObject = true ∧ configure name computation = .ok ()
    · obtain ⟨hclient, hconfigure⟩ := hup
      have hlimits := (hset limits).mpr ⟨hclient, hassigned, hconfigure⟩
      have hone : ReportsAssigned realValue hardware configure definition name ↔
          Reports realValue hardware definition name limits.assignedCores.toNat := by
        refine ⟨fun h => h limits hlimits, fun h m hm => ?_⟩
        obtain rfl := Except.ok.inj (hlimits.symm.trans hm)
        exact h
      rw [hone]
      by_cases hpassed :
          (definition.member "computations").members.head?.map Prod.fst ≠ some name →
            PassedOver client
      · rw [reports_iff hlocal hobject hcores hmaxCores hread.2 hclient hpassed, hn,
          min_remaining_iff hlt]
        exact ⟨fun h _ _ _ => ⟨hpassed, h⟩, fun h => (h hread hconfigure hclient).2⟩
      · exact iff_of_false (not_reports hlocal hcores hclient hpassed _)
          (fun h => hpassed (h hread hconfigure hclient).1)
    · refine iff_of_true (fun m hm => ?_) (fun _ hconfigure hclient => ?_)
      · obtain ⟨hclient, -, hconfigure⟩ := (hset m).mp hm
        exact absurd ⟨hclient, hconfigure⟩ hup
      · exact absurd ⟨hclient, hconfigure⟩ hup
  · refine iff_of_true (fun m hm => ?_) (fun h => absurd h hread)
    cases herror.symm.trans ((hset m).mp hm).2.1

/-- The cores are within the bounds exactly if the numbers can be read and there are
    as many cores as are reserved; and the coordinator is told the same number
    exactly if `updateCores` gets to the computation and its one reserved core makes no
    difference. -/
theorem cores_iff {realValue : String → Option Rat} {hardware : UInt32} {resources : Object}
    (hobject : resources.isObject)
    (hcores : ¬ (resources.member "cores").HasCount realValue) :
    (AssignsWithin realValue hardware resources ↔
      ReadableLimits realValue resources ∧ HasReserved realValue hardware resources) ∧
    ∀ configure definition name client computation,
      IsLocal definition name client computation → resourcesOf computation = resources →
      resources.isMember "maxCores" = .ok true →
      (ReportsAssigned realValue hardware configure definition name ↔
        ReportsIf realValue hardware configure definition name client computation) := by
  refine ⟨assignsWithin_iff hobject hcores, ?_⟩
  rintro configure definition name client computation hlocal rfl hmaxCores
  exact reportsAssigned_iff hlocal hobject hcores hmaxCores

/-- Eight cores at most, with two of them kept free. -/
def reservedResources : Object := .object [("maxCores", .int 8), ("reservedCores", .int 2)]

theorem not_hasCount_reserved :
    ¬ (reservedResources.member "cores").HasCount (fun _ => none) := by
  rintro ⟨q, hq, -⟩
  cases hq

def reservedComputation : Object :=
  .object [("requirements", .object [("resources", reservedResources)])]

/-- The definition of a session that reserves two cores. -/
def reservedDefinition : Object :=
  .object [("computations", .object [("(client)", .object []), ("comp", reservedComputation)])]

theorem isLocal_reserved : IsLocal reservedDefinition "comp" (.object []) reservedComputation :=
  ⟨by decide, .inl rfl⟩

theorem cores_iff_reserved :
    (AssignsWithin (fun _ => none) 4 reservedResources ↔
      ReadableLimits (fun _ => none) reservedResources ∧
        HasReserved (fun _ => none) 4 reservedResources) ∧
    (ReportsAssigned (fun _ => none) 4 (fun _ _ => .ok ()) reservedDefinition "comp" ↔
      ReportsIf (fun _ => none) 4 (fun _ _ => .ok ()) reservedDefinition "comp" (.object [])
        reservedComputation) := by
  obtain ⟨hassigns, hreports⟩ := cores_iff rfl not_hasCount_reserved
  exact ⟨hassigns, hreports _ _ _ _ _ isLocal_reserved rfl rfl⟩

theorem counts_reserved : maxCoresOf (fun _ => none) reservedResources = 8 ∧
    reservedCoresOf (fun _ => none) reservedResources = 2 ∧
    ReadableLimits (fun _ => none) reservedResources := by
  refine ⟨by decide, by decide, fun h => ?_, fun h => ?_, fun _ => ?_, fun _ => ?_⟩
  · cases h
  · cases h
  · exact ⟨8, rfl, .inr ⟨by decide, by decide⟩⟩
  · exact ⟨2, rfl, .inr ⟨by decide, by decide⟩⟩

/-- On a machine of one core, two reserved cores wrap around, and all eight are
    assigned; of four cores two are assigned and three are reported. -/
theorem not_assigns_reserved :
    ¬ AssignsWithin (fun _ => none) 1 reservedResources ∧
    ¬ ReportsAssigned (fun _ => none) 4 (fun _ _ => .ok ()) reservedDefinition "comp" := by
  obtain ⟨hmax, hreserved, hread⟩ := counts_reserved
  constructor
  · rw [assignsWithin_iff rfl not_hasCount_reserved]
    rintro ⟨-, hle | hzero⟩
    · rw [hreserved] at hle
      exact absurd hle (by decide)
    · rw [hmax] at hzero
      exact absurd hzero (by decide)
  · rw [reportsAssigned_iff isLocal_reserved rfl not_hasCount_reserved rfl]
    intro h
    rcases (h hread rfl rfl).2 with hone | ⟨hle, -⟩
    · exact absurd (hreserved.symm.trans hone) (by decide)
    · rw [show resourcesOf _ = reservedResources from rfl, hmax] at hle
      exact absurd hle (by decide)

end

end Arras4Core.Client
