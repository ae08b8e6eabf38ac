/-
  Arras4Core.Routing.ComputationMap

  `impl::ComputationMap`: the names, ids and addresses of a session's
  computations.  The three tables are `std::map`s.  The constructor fills them
  from routing data; the client has the entry "(client)" under the null id.

  `uuid_parse` is the platform library's function: `none` is its error return,
  after which `UUID::parse` clears the id.
-/

import Arras4Core.Api.Object
import Arras4Core.Api.Address

namespace Arras4Core.Routing

open Arras4Core.Api
open Arras4Core.Lib (Succeeds succeeds_bind succeeds_bind_of_ok succeeds_foldlM foldlM_eq_foldl)
open Std (TreeMap)

/-- `UUID::parse`. -/
def parseUUID (uuid_parse : String → Option UUID) (aStrRep : String) : UUID :=
  (uuid_parse aStrRep).getD UUID.null

/-- `impl::ComputationMap`. -/
structure ComputationMap where
  mCompNameToId : TreeMap String UUID := ∅
  mCompIdToName : TreeMap UUID String := ∅
  mCompIdToAddress : TreeMap UUID Address := ∅

namespace ComputationMap

/-- One pass of the constructor's loop, for the member `comp` of the routing
    data. -/
def addComputation (uuid_parse : String → Option UUID) (sessionId : UUID)
    (m : ComputationMap) (comp : String × Object) : Except Exception ComputationMap := do
  let compIdText ← (← comp.2.get "compId").asString
  let compId := parseUUID uuid_parse compIdText
  let nodeIdText ← (← comp.2.get "nodeId").asString
  let addr : Address :=
    { session := sessionId, node := parseUUID uuid_parse nodeIdText, computation := compId }
  return { mCompNameToId := m.mCompNameToId.insert comp.1 compId
           mCompIdToName := m.mCompIdToName.insert compId comp.1
           mCompIdToAddress := m.mCompIdToAddress.insert compId addr }

/-- The special entry for the client. -/
def addClient (sessionId : UUID) (m : ComputationMap) : ComputationMap :=
  { mCompNameToId := m.mCompNameToId.insert "(client)" UUID.null
    mCompIdToName := m.mCompIdToName.insert UUID.null "(client)"
    mCompIdToAddress := m.mCompIdToAddress.insert UUID.null { session := sessionId } }

/-- The constructor. -/
def ofObject (uuid_parse : String → Option UUID) (sessionId : UUID)
    (computationsData : Object) : Except Exception ComputationMap := do
  let m ← computationsData.members.foldlM (addComputation uuid_parse sessionId) {}
  return m.addClient sessionId

/-- `getComputationAddress(const api::UUID&)`. -/
def getComputationAddressById (m : ComputationMap) (uuid : UUID) : Except Exception Address :=
  match m.mCompIdToAddress[uuid]? with
  | none => .error (.keyError ("Computation id " ++ uuid.toString ++ " not found"))
  | some addr => .ok addr

def getComputationId (m : ComputationMap) (name : String) : Except Exception UUID :=
  match m.mCompNameToId[name]? with
  | none => .error (.keyError ("Computation " ++ name ++ " not found"))
  | some uuid => .ok uuid

def getComputationName (m : ComputationMap) (uuid : UUID) : Except Exception String :=
  match m.mCompIdToName[uuid]? with
  | none => .error (.keyError ("Computation id " ++ uuid.toString ++ " not found"))
  | some name => .ok name

/-- `getComputationAddress(const std::string&)`. -/
def getComputationAddress (m : ComputationMap) (name : String) : Except Exception Address := do
  m.getComputationAddressById (← m.getComputationId name)

/-- The addresses in the order of the ids, the client's only on request. -/
def getAllAddresses (m : ComputationMap) (includeClient : Bool) : AddressList :=
  (m.mCompIdToAddress.toList.filter fun entry => includeClient || entry.1.valid).map Prod.snd

/-! ## What the constructor accepts -/

/-- Routing data for one computation: an object (or null) whose two ids can be
    read as text. -/
def IsComputation (comp : Object) : Prop :=
  comp.isObjectOrNull ∧ (comp.member "compId").isScalar ∧ (comp.member "nodeId").isScalar

/-- The id a computation has in its routing data. -/
def compIdOf (uuid_parse : String → Option UUID) (comp : Object) : UUID :=
  parseUUID uuid_parse (comp.member "compId").text

/-- What one pass of the constructor's loop enters into the tables. -/
def addEntry (uuid_parse : String → Option UUID) (sessionId : UUID) (m : ComputationMap)
    (comp : String × Object) : ComputationMap :=
  let compId := compIdOf uuid_parse comp.2
  let addr : Address :=
    { session := sessionId
      node := parseUUID uuid_parse (comp.2.member "nodeId").text
      computation := compId }
  { mCompNameToId := m.mCompNameToId.insert comp.1 compId
    mCompIdToName := m.mCompIdToName.insert compId comp.1
    mCompIdToAddress := m.mCompIdToAddress.insert compId addr }

variable {uuid_parse : String → Option UUID} {sessionId : UUID}

theorem addComputation_of_isComputation {comp : String × Object} (h : IsComputation comp.2)
    (m : ComputationMap) : addComputation uuid_parse sessionId m comp
      = .ok (addEntry uuid_parse sessionId m comp) := by
  obtain ⟨hobj, hcomp, hnode⟩ := h
  unfold addComputation
  rw [Object.get_of_isObjectOrNull hobj, Object.get_of_isObjectOrNull hobj]
  simp only [bind, Except.bind]
  rw [Object.asString_eq, Object.asString_eq, if_pos hcomp, if_pos hnode]
  rfl

theorem succeeds_addComputation (m : ComputationMap) (comp : String × Object) :
    Succeeds (addComputation uuid_parse sessionId m comp) ↔ IsComputation comp.2 := by
  constructor
  · intro h
    unfold addComputation at h
    obtain ⟨compId, hcompId, h⟩ := (succeeds_bind ..).mp h
    have hobj := (Object.succeeds_get ..).mp ⟨compId, hcompId⟩
    rw [Object.get_of_isObjectOrNull hobj] at hcompId
    cases hcompId
    obtain ⟨compIdText, hcompText, h⟩ := (succeeds_bind ..).mp h
    rw [succeeds_bind_of_ok (Object.get_of_isObjectOrNull hobj _)] at h
    obtain ⟨nodeIdText, hnodeText, -⟩ := (succeeds_bind ..).mp h
    exact ⟨hobj, (Object.succeeds_asString _).mp ⟨_, hcompText⟩,
      (Object.succeeds_asString _).mp ⟨_, hnodeText⟩⟩
  · intro h
    exact ⟨_, addComputation_of_isComputation h m⟩

/-- The tables of routing data every computation of which can be read. -/
def ofEntries (uuid_parse : String → Option UUID) (sessionId : UUID)
    (comps : List (String × Object)) : ComputationMap :=
  (comps.foldl (addEntry uuid_parse sessionId) {}).addClient sessionId

theorem ofObject_eq (uuid_parse : String → Option UUID) (sessionId : UUID)
    {computationsData : Object}
    (h : ∀ comp ∈ computationsData.members, IsComputation comp.2) :
    ofObject uuid_parse sessionId computationsData
      = .ok (ofEntries uuid_parse sessionId computationsData.members) := by
  unfold ofObject
  rw [foldlM_eq_foldl fun m comp hcomp => addComputation_of_isComputation (h comp hcomp) m]
  rfl

theorem succeeds_ofObject (computationsData : Object) :
    Succeeds (ofObject uuid_parse sessionId computationsData) ↔
      ∀ comp ∈ computationsData.members, IsComputation comp.2 := by
  constructor
  · intro h
    obtain ⟨m, hm, -⟩ := (succeeds_bind ..).mp h
    exact (succeeds_foldlM succeeds_addComputation _ _).mp ⟨m, hm⟩
  · intro h
    exact ⟨_, ofObject_eq uuid_parse sessionId h⟩

/-! ## Which names and ids have an entry -/

/-- The name of an id: that of the last computation that has it, and "(client)"
    for the null id. -/
def nameOf (uuid_parse : String → Option UUID) (comps : List (String × Object)) (id : UUID) :
    Option String :=
  if id = UUID.null then some "(client)"
  else (comps.reverse.find? fun comp => compIdOf uuid_parse comp.2 = id).map Prod.fst

/-- Every name stands for an id that has an address. -/
def Closed (m : ComputationMap) : Prop :=
  ∀ (name : String) (id : UUID), m.mCompNameToId[name]? = some id →
    (m.mCompIdToAddress[id]?).isSome

theorem Closed.insert {m : ComputationMap} (h : m.Closed) (name : String) (id : UUID)
    (addr : Address) (idToName : TreeMap UUID String) :
    Closed { mCompNameToId := m.mCompNameToId.insert name id
             mCompIdToName := idToName
             mCompIdToAddress := m.mCompIdToAddress.insert id addr } := by
  intro name' id' hname
  simp only [Std.TreeMap.getElem?_insert, Std.LawfulEqCmp.compare_eq_iff_eq] at hname ⊢
  by_cases hid : id = id'
  · simp [hid]
  · rw [if_neg hid]
    by_cases heq : name = name'
    · rw [if_pos heq] at hname
      exact absurd (Option.some.inj hname) hid
    · rw [if_neg heq] at hname
      exact h name' id' hname

theorem closed_foldl (comps : List (String × Object)) {m : ComputationMap} (h : m.Closed) :
    (comps.foldl (addEntry uuid_parse sessionId) m).Closed := by
  induction comps generalizing m with
  | nil => exact h
  | cons comp rest ih =>
    apply ih
    exact h.insert _ _ _ _

theorem closed_ofEntries (comps : List (String × Object)) :
    (ofEntries uuid_parse sessionId comps).Closed := by
  have hempty : ({} : ComputationMap).Closed := by
    intro name id hname
    rw [Std.TreeMap.getElem?_emptyc] at hname
    cases hname
  exact (closed_foldl comps hempty).insert _ _ _ _

theorem foldl_mCompNameToId_isSome (uuid_parse : String → Option UUID) (sessionId : UUID)
    (comps : List (String × Object)) (m : ComputationMap) (name : String) :
    ((comps.foldl (addEntry uuid_parse sessionId) m).mCompNameToId[name]?).isSome ↔
      name ∈ comps.map Prod.fst ∨ (m.mCompNameToId[name]?).isSome := by
  induction comps generalizing m with
  | nil => simp
  | cons comp rest ih =>
    rw [List.foldl_cons, ih, List.map_cons, List.mem_cons]
    have hentry : ((addEntry uuid_parse sessionId m comp).mCompNameToId[name]?).isSome ↔
        name = comp.1 ∨ (m.mCompNameToId[name]?).isSome := by
      simp only [addEntry, Std.TreeMap.getElem?_insert, Std.LawfulEqCmp.compare_eq_iff_eq]
      by_cases heq : comp.1 = name
      · simp [heq]
      · rw [if_neg heq]
        simp [Ne.symm heq]
    rw [hentry]
    tauto

/-- The names that can be looked up are those of the computations and "(client)". -/
theorem succeeds_getComputationAddress (comps : List (String × Object)) (name : String) :
    Succeeds ((ofEntries uuid_parse sessionId comps).getComputationAddress name) ↔
      name = "(client)" ∨ name ∈ comps.map Prod.fst := by
  have hname : ((ofEntries uuid_parse sessionId comps).mCompNameToId[name]?).isSome ↔
      name = "(client)" ∨ name ∈ comps.map Prod.fst := by
    have hcomps := foldl_mCompNameToId_isSome uuid_parse sessionId comps {} name
    simp only [ofEntries, addClient, Std.TreeMap.getElem?_insert,
      Std.LawfulEqCmp.compare_eq_iff_eq]
    by_cases heq : "(client)" = name
    · simp [heq]
    · rw [if_neg heq, hcomps]
      simp [Ne.symm heq]
  rw [← hname]
  unfold getComputationAddress getComputationId
  cases hid : (ofEntries uuid_parse sessionId comps).mCompNameToId[name]? with
  | none => exact iff_of_false nofun nofun
  | some id =>
    refine iff_of_true ?_ rfl
    obtain ⟨addr, haddr⟩ := Option.isSome_iff_exists.mp (closed_ofEntries comps name id hid)
    refine ⟨addr, ?_⟩
    show getComputationAddressById _ id = .ok addr
    rw [getComputationAddressById, haddr]

theorem foldl_getElem?_id (uuid_parse : String → Option UUID) (sessionId : UUID)
    (comps : List (String × Object)) (m : ComputationMap) (id : UUID) :
    (comps.foldl (addEntry uuid_parse sessionId) m).mCompIdToName[id]?
      = ((comps.reverse.find? fun comp => compIdOf uuid_parse comp.2 = id).map Prod.fst).or
          m.mCompIdToName[id]? ∧
    ((comps.foldl (addEntry uuid_parse sessionId) m).mCompIdToAddress[id]?).isSome
      = ((comps.reverse.find? fun comp => compIdOf uuid_parse comp.2 = id).isSome ||
          (m.mCompIdToAddress[id]?).isSome) := by
  induction comps generalizing m with
  | nil => simp
  | cons comp rest ih =>
    rw [List.foldl_cons, (ih _).1, (ih _).2, List.reverse_cons, List.find?_append]
    simp only [addEntry, Std.TreeMap.getElem?_insert, Std.LawfulEqCmp.compare_eq_iff_eq]
    cases hlast : rest.reverse.find? fun comp => compIdOf uuid_parse comp.2 = id with
    | some last => simp
    | none => by_cases heq : compIdOf uuid_parse comp.2 = id <;> simp [heq]

/-- The id of a computation without a name has no address either. -/
theorem getElem?_ofEntries (uuid_parse : String → Option UUID) (sessionId : UUID)
    (comps : List (String × Object)) (id : UUID) :
    (ofEntries uuid_parse sessionId comps).mCompIdToName[id]? = nameOf uuid_parse comps id ∧
    ((ofEntries uuid_parse sessionId comps).mCompIdToAddress[id]?).isSome
      = (nameOf uuid_parse comps id).isSome := by
  obtain ⟨hname, haddr⟩ := foldl_getElem?_id uuid_parse sessionId comps {} id
  simp only [ofEntries, addClient, nameOf, Std.TreeMap.getElem?_insert,
    Std.LawfulEqCmp.compare_eq_iff_eq]
  by_cases heq : UUID.null = id
  · simp [heq]
  · rw [if_neg heq, if_neg heq, if_neg (Ne.symm heq), hname, haddr]
    simp

end ComputationMap

end Arras4Core.Routing
