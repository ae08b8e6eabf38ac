/-
  Arras4Core.Routing.AddressUniqueness

  Whether `Addressing::addresses` lists an address twice.  Different destinations have
  different addresses where different names have different ids.  One destination is
  appended for every string of its "accept" array, so it comes twice for a
  string that is repeated; the "ignore" array is collected in a set.
-/

import Arras4Core.Routing.Addressing
import Mathlib.Data.List.Nodup

namespace Arras4Core.Routing

open Arras4Core.Api
open Std (TreeMap)

/-! ## The addresses of a map -/

namespace ComputationMap

/-- Different names stand for different ids. -/
def DistinctIds (m : ComputationMap) : Prop :=
  ∀ (name name' : String) (id : UUID), m.mCompNameToId[name]? = some id →
    m.mCompNameToId[name']? = some id → name = name'

/-- The address under an id is that of the id. -/
def AddressesOwn (m : ComputationMap) : Prop :=
  ∀ (id : UUID) (addr : Address), m.mCompIdToAddress[id]? = some addr → addr.computation = id

variable {uuid_parse : String → Option UUID} {sessionId : UUID}

theorem AddressesOwn.insert {m : ComputationMap} (h : m.AddressesOwn)
    (nameToId : TreeMap String UUID) (idToName : TreeMap UUID String) {id : UUID} {addr : Address}
    (hid : addr.computation = id) :
    AddressesOwn { mCompNameToId := nameToId
                   mCompIdToName := idToName
                   mCompIdToAddress := m.mCompIdToAddress.insert id addr } := by
  intro id' addr' hget
  simp only [Std.TreeMap.getElem?_insert, Std.LawfulEqCmp.compare_eq_iff_eq] at hget
  split at hget
  · next heq =>
    cases hget
    exact hid.trans heq
  · exact h id' addr' hget

theorem addressesOwn_foldl (comps : List (String × Object)) {m : ComputationMap}
    (h : m.AddressesOwn) : (comps.foldl (addEntry uuid_parse sessionId) m).AddressesOwn := by
  induction comps generalizing m with
  | nil => exact h
  | cons comp rest ih => exact ih (h.insert _ _ rfl)

theorem addressesOwn_ofEntries (comps : List (String × Object)) :
    (ofEntries uuid_parse sessionId comps).AddressesOwn := by
  have hempty : ({} : ComputationMap).AddressesOwn := by
    intro id addr hget
    rw [Std.TreeMap.getElem?_emptyc] at hget
    cases hget
  exact (addressesOwn_foldl comps hempty).insert _ _ rfl

theorem addressesOwn_ofObject {computationsData : Object} {compMap : ComputationMap}
    (h : ofObject uuid_parse sessionId computationsData = .ok compMap) :
    compMap.AddressesOwn := by
  have hcomps := (succeeds_ofObject computationsData).mp ⟨compMap, h⟩
  rw [ofObject_eq uuid_parse sessionId hcomps] at h
  cases h
  exact addressesOwn_ofEntries computationsData.members

/-- The id a name stands for, if its address is known. -/
theorem of_getComputationAddress {m : ComputationMap} (hown : m.AddressesOwn) {name : String}
    {addr : Address} (h : m.getComputationAddress name = .ok addr) :
    m.mCompNameToId[name]? = some addr.computation := by
  unfold getComputationAddress getComputationId at h
  cases hid : m.mCompNameToId[name]? with
  | none =>
    rw [hid] at h
    cases h
  | some id =>
    rw [hid] at h
    replace h : m.getComputationAddressById id = .ok addr := h
    unfold getComputationAddressById at h
    cases haddr : m.mCompIdToAddress[id]? with
    | none =>
      rw [haddr] at h
      cases h
    | some addr' =>
      rw [haddr] at h
      cases h
      rw [hown id addr haddr]

/-- Destinations of different names have different addresses. -/
theorem name_eq_of_address {m : ComputationMap} (hown : m.AddressesOwn) (hids : m.DistinctIds)
    {name name' : String} {addr : Address} (h : m.getComputationAddress name = .ok addr)
    (h' : m.getComputationAddress name' = .ok addr) : name = name' :=
  hids name name' addr.computation (of_getComputationAddress hown h)
    (of_getComputationAddress hown h')

end ComputationMap

namespace Addressing

/-- The destinations that the constructor goes through: none for a source that is not
    in the map. -/
def destinations (sourceCompId : UUID) (compMap : ComputationMap) (aMessageFilters : Object) :
    List (String × Object) :=
  match compMap.getComputationAddressById sourceCompId, compMap.getComputationName sourceCompId with
  | .ok _, .ok sourceName => (aMessageFilters.member sourceName).members
  | _, _ => []

/-! ## One destination -/

/-- A destination is appended at most once for every name just if no string of its
    "accept" array is repeated. -/
theorem copies_le_one_iff (filter : Object) :
    (∀ name, copies filter name ≤ 1) ↔ (listed filter "accept").Nodup := by
  unfold copies
  by_cases hnil : listed filter "accept" = []
  · simp only [hnil, ne_eq, not_true, if_false]
    refine iff_of_true (fun name => ?_) List.nodup_nil
    split <;> omega
  · simp only [ne_eq, hnil, not_false_iff, if_true]
    exact List.nodup_iff_count_le_one.symm

/-! ## All destinations -/

/-- Every destination of a constructor that returns is in the map. -/
theorem address_of_foldlM {compMap : ComputationMap} {dests : List (String × Object)}
    {a a' : Addressing} (h : dests.foldlM (processDestination compMap) a = .ok a') :
    ∀ d ∈ dests, compMap.getComputationAddress d.1 = .ok (destAddress compMap d.1) := by
  induction dests generalizing a with
  | nil =>
    intro d hd
    cases hd
  | cons dest rest ih =>
    rw [List.foldlM_cons] at h
    cases hd : processDestination compMap a dest with
    | error e =>
      rw [hd] at h
      cases h
    | ok a₁ =>
      rw [hd] at h
      obtain ⟨addr, haddr, -⟩ := processDestination_addresses hd
      intro d hmem
      rcases List.mem_cons.mp hmem with rfl | hrest
      · rw [haddr, destAddress_of_ok haddr]
      · exact ih h d hrest

theorem addresses_of_destinations {sourceCompId : UUID} {compMap : ComputationMap}
    {aMessageFilters : Object} {a : Addressing}
    (h : ofFilters sourceCompId compMap aMessageFilters = .ok a) :
    (∀ d ∈ destinations sourceCompId compMap aMessageFilters,
      compMap.getComputationAddress d.1 = .ok (destAddress compMap d.1)) ∧
    ∀ name, a.addresses name = (destinations sourceCompId compMap aMessageFilters).flatMap
      fun d => List.replicate (copies d.2 name) (destAddress compMap d.1) := by
  unfold destinations
  cases hsource : compMap.getComputationAddressById sourceCompId with
  | error e =>
    -- the addressing is left empty
    simp only [ofFilters, hsource] at h
    constructor
    · intro d hd
      cases hd
    · intro name
      split at h
      · cases h
        simp [addresses]
      · cases h
      · next heq =>
        cases heq
  | ok sourceAddr =>
    cases hname : compMap.getComputationName sourceCompId with
    | error e =>
      simp only [ofFilters, hsource, hname, bind, Except.bind] at h
      cases h
    | ok sourceName =>
      cases hfilters : aMessageFilters.get sourceName with
      | error e =>
        simp only [ofFilters, hsource, hname, hfilters, bind, Except.bind] at h
        cases h
      | ok filters =>
        have hmember : aMessageFilters.member sourceName = filters := by
          rw [Object.get_eq] at hfilters
          split at hfilters
          · exact Except.ok.inj hfilters
          · cases hfilters
        rw [ofFilters_eq_foldlM hsource hname hfilters] at h
        simp only [hmember]
        refine ⟨address_of_foldlM h, fun name => ?_⟩
        rw [foldlM_processDestination_addresses h name]
        simp [addresses]

/-- **No destination twice.**  The addresses of every routing name are distinct just if
    no destination repeats a string in its "accept" array. -/
theorem nodup_addresses_iff (uuid_parse : String → Option UUID) (sessionId : UUID)
    (computationsData : Object) (sourceCompId : UUID) (aMessageFilters : Object)
    {compMap : ComputationMap} {a : Addressing}
    (hmap : ComputationMap.ofObject uuid_parse sessionId computationsData = .ok compMap)
    (hids : compMap.DistinctIds)
    (hnames : ((destinations sourceCompId compMap aMessageFilters).map Prod.fst).Nodup)
    (ha : ofFilters sourceCompId compMap aMessageFilters = .ok a) :
    (∀ name, (a.addresses name).Nodup) ↔
      ∀ d ∈ destinations sourceCompId compMap aMessageFilters, (listed d.2 "accept").Nodup := by
  obtain ⟨hdest, haddresses⟩ := addresses_of_destinations ha
  have hown := ComputationMap.addressesOwn_ofObject hmap
  generalize destinations sourceCompId compMap aMessageFilters = dests at *
  -- different destinations have no address in common
  have hdisjoint : ∀ name, dests.Pairwise (Function.onFun List.Disjoint fun d =>
      List.replicate (copies d.2 name) (destAddress compMap d.1)) := by
    intro name
    refine (List.pairwise_map.mp hnames).imp_of_mem fun {d d'} hd hd' hne => ?_
    intro addr haddr haddr'
    have hself := List.eq_of_mem_replicate haddr
    have hself' := List.eq_of_mem_replicate haddr'
    apply hne
    apply ComputationMap.name_eq_of_address hown hids (hdest d hd)
    rw [← hself, hself']
    exact hdest d' hd'
  simp only [haddresses, List.nodup_flatMap, List.nodup_replicate]
  constructor
  · intro h d hd
    exact (copies_le_one_iff d.2).mp fun name => (h name).1 d hd
  · intro h name
    exact ⟨fun d hd => (copies_le_one_iff d.2).mpr (h d hd) name, hdisjoint name⟩

/-! ### A string that is repeated -/

/-- Routing data of one computation. -/
def oneCompData : Object :=
  .object [("a", .object [("compId", .string "00000000-0000-0000-0000-000000000001"),
    ("nodeId", .string "00000000-0000-0000-0000-000000000002")])]

def oneCompMap : ComputationMap :=
  ((ComputationMap.ofObject sharedIdParse UUID.null oneCompData).toOption).getD {}

/-- Filters of the client, with these strings for "a" to accept. -/
def acceptFilters (accepts : List String) : Object :=
  .object [("(client)", .object [("a", .object [("accept", .array (accepts.map .string))])])]

theorem ofObject_oneCompData :
    ComputationMap.ofObject sharedIdParse UUID.null oneCompData = .ok oneCompMap := rfl

theorem distinctIds_oneCompMap : oneCompMap.DistinctIds := by
  have hmap : oneCompMap.mCompNameToId = ((∅ : TreeMap String UUID).insert "a"
      ⟨(Vector.replicate 16 0).set 15 1⟩).insert "(client)" UUID.null := rfl
  have hne : (⟨(Vector.replicate 16 0).set 15 1⟩ : UUID) ≠ UUID.null := by decide
  intro name name' id h h'
  simp only [hmap, Std.TreeMap.getElem?_insert, Std.LawfulEqCmp.compare_eq_iff_eq,
    Std.TreeMap.getElem?_emptyc] at h h'
  split at h
  · next hclient =>
    split at h'
    · next hclient' => exact hclient.symm.trans hclient'
    · split at h'
      · exact absurd (Option.some.inj (h'.trans h.symm)) hne
      · cases h'
  · split at h
    · next ha =>
      split at h'
      · exact absurd (Option.some.inj (h.trans h'.symm)) hne
      · split at h'
        · next ha' => exact ha.symm.trans ha'
        · cases h'
    · cases h

/-- A filter that accepts "go" once. -/
theorem nodup_addresses_iff_once :
    ∃ a, ofFilters UUID.null oneCompMap (acceptFilters ["go"]) = .ok a ∧
      ((∀ name, (a.addresses name).Nodup) ↔
        ∀ d ∈ destinations UUID.null oneCompMap (acceptFilters ["go"]),
          (listed d.2 "accept").Nodup) :=
  ⟨_, rfl, nodup_addresses_iff sharedIdParse UUID.null oneCompData UUID.null (acceptFilters ["go"])
    ofObject_oneCompData distinctIds_oneCompMap (by decide) rfl⟩

/-- A filter that accepts "go" twice: the address is listed twice. -/
theorem not_nodup_addresses_repeated :
    oneCompMap.DistinctIds ∧
    ∃ a, ofFilters UUID.null oneCompMap (acceptFilters ["go", "go"]) = .ok a ∧
      ¬ (a.addresses "go").Nodup :=
  ⟨distinctIds_oneCompMap, _, rfl, by decide⟩

end Addressing

end Arras4Core.Routing
