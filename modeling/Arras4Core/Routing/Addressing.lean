/-
  Arras4Core.Routing.Addressing

  `impl::Addressing`: the message filters of one source computation, turned
  into a table from routing names to destination addresses.

  The constructor goes through the destinations once.  It keeps a table of
  explicitly mentioned names (`mMessageAddressMap`) and the list of the
  destinations for every other name (`mDefaultAddresses`); a name enters the
  table with the default list of that moment.  The invariant that makes this
  right says nothing about the two tables separately: for every name, listed
  or not, each destination appends to `addresses name` exactly what its own
  filter asks for (`processDestination_addresses`).
-/

import Arras4Core.Routing.ComputationMap

namespace Arras4Core.Routing

open Arras4Core.Api
open Arras4Core.Lib (Succeeds succeeds_ok succeeds_bind succeeds_foldlM)
open Std (TreeMap)

/-- `impl::Addressing`. -/
structure Addressing where
  mSourceAddress : Address := {}
  mMessageAddressMap : TreeMap String AddressList := ∅
  mDefaultAddresses : AddressList := []
  mAllAddresses : AddressList := []

namespace Addressing

/-- The addresses for a routing name: its table entry, or the defaults. -/
def addresses (a : Addressing) (routingName : String) : AddressList :=
  (a.mMessageAddressMap[routingName]?).getD a.mDefaultAddresses

def allAddresses (a : Addressing) : AddressList := a.mAllAddresses

/-- One accepted name: create its entry from the defaults if it has none, and
    append the destination. -/
def addAccept (destAddr : Address) (a : Addressing) (msg : String) : Addressing :=
  { a with
    mMessageAddressMap := (a.mMessageAddressMap.insertIfNew msg a.mDefaultAddresses).modify msg
      (· ++ [destAddr]) }

/-- The destination receives every name except those in `ignoreSet`.  The
    unordered set is a list here: only membership in it is used, and inserting
    an entry a second time changes nothing. -/
def addIgnores (destAddr : Address) (a : Addressing) (ignoreSet : List String) : Addressing :=
  let mapped := a.mMessageAddressMap.map fun msg addrs =>
    if msg ∈ ignoreSet then addrs else addrs ++ [destAddr]
  let unmapped := ignoreSet.filter fun msg => !a.mMessageAddressMap.contains msg
  { a with
    mMessageAddressMap := unmapped.foldl (fun m msg => m.insertIfNew msg a.mDefaultAddresses) mapped
    mDefaultAddresses := a.mDefaultAddresses ++ [destAddr] }

/-- One pass of the constructor's loop, for the destination `dest` of the
    filter object. -/
def processDestination (compMap : ComputationMap) (a : Addressing) (dest : String × Object) :
    Except Exception Addressing := do
  let destAddr ← compMap.getComputationAddress dest.1
  let accepts ← dest.2.get "accept"
  -- `foundAnAccept` is set by the first string of the array
  if accepts.strings ≠ [] then
    return accepts.strings.foldl (addAccept destAddr) a
  let ignores ← dest.2.get "ignore"
  return addIgnores destAddr a ignores.strings

/-- The constructor.  A source without a map entry gets empty tables; no other
    exception is caught. -/
def ofFilters (sourceCompId : UUID) (compMap : ComputationMap) (aMessageFilters : Object) :
    Except Exception Addressing :=
  let a : Addressing := { mAllAddresses := compMap.getAllAddresses false }
  match compMap.getComputationAddressById sourceCompId with
  | .error (.keyError _) => .ok a
  | .error e => .error e
  | .ok sourceAddr => do
    let sourceName ← compMap.getComputationName sourceCompId
    let filters ← aMessageFilters.get sourceName
    filters.members.foldlM (processDestination compMap) { a with mSourceAddress := sourceAddr }

/-! ## What a destination's filter asks for -/

/-- The strings of the array under `key` in a destination's filter. -/
def listed (filter : Object) (key : String) : List String :=
  match filter.get key with
  | .ok v => v.strings
  | .error _ => []

/-- A destination with at least one accepted name accepts exactly the listed
    names; any other destination accepts every name it does not ignore. -/
def Accepts (filter : Object) (name : String) : Prop :=
  if listed filter "accept" ≠ [] then name ∈ listed filter "accept"
  else name ∉ listed filter "ignore"

instance (filter : Object) (name : String) : Decidable (Accepts filter name) := by
  unfold Accepts; infer_instance

/-- How often a destination is appended for a name: once for each time an
    accept list has it, else once unless it is ignored. -/
def copies (filter : Object) (name : String) : Nat :=
  if listed filter "accept" ≠ [] then (listed filter "accept").count name
  else if name ∈ listed filter "ignore" then 0 else 1

theorem copies_pos_iff (filter : Object) (name : String) :
    0 < copies filter name ↔ Accepts filter name := by
  unfold copies Accepts
  split
  · exact List.count_pos_iff
  · split <;> simp_all

/-! ## The two tables under one destination -/

@[simp] theorem addAccept_mDefaultAddresses (destAddr : Address) (a : Addressing) (msg : String) :
    (addAccept destAddr a msg).mDefaultAddresses = a.mDefaultAddresses := rfl

/-- An accepted name gains the destination, whether it was listed before or
    starts from the defaults; no other name changes. -/
theorem addAccept_addresses (destAddr : Address) (a : Addressing) (msg name : String) :
    (addAccept destAddr a msg).addresses name
      = a.addresses name ++ if msg = name then [destAddr] else [] := by
  simp only [addresses, addAccept, Std.TreeMap.getElem?_modify, Std.TreeMap.getElem?_insertIfNew,
    Std.LawfulEqCmp.compare_eq_iff_eq]
  by_cases hname : msg = name
  · subst hname
    cases hmsg : a.mMessageAddressMap[msg]? with
    | none =>
      -- a new entry starts from the defaults
      have hnot : msg ∉ a.mMessageAddressMap := by
        rw [Std.TreeMap.mem_iff_isSome_getElem?, hmsg]; simp
      simp [hnot]
    | some addrs =>
      have hmem : msg ∈ a.mMessageAddressMap := by
        rw [Std.TreeMap.mem_iff_isSome_getElem?, hmsg]; rfl
      simp [hmem]
  · simp [hname]

theorem foldl_addAccept_addresses (destAddr : Address) (msgs : List String) (a : Addressing)
    (name : String) :
    (msgs.foldl (addAccept destAddr) a).addresses name
      = a.addresses name ++ List.replicate (msgs.count name) destAddr := by
  induction msgs generalizing a with
  | nil => simp
  | cons msg rest ih =>
    rw [List.foldl_cons, ih, addAccept_addresses, List.append_assoc]
    congr 1
    by_cases hname : msg = name
    · simp [hname, List.replicate_succ]
    · simp [hname]

/-- Inserting names that are all new leaves every other entry alone. -/
theorem foldl_insertIfNew_getElem? (msgs : List String) (m : TreeMap String AddressList)
    (v : AddressList) (name : String) :
    (msgs.foldl (fun m msg => m.insertIfNew msg v) m)[name]?
      = if name ∈ msgs ∧ m[name]? = none then some v else m[name]? := by
  induction msgs generalizing m with
  | nil => simp
  | cons msg rest ih =>
    rw [List.foldl_cons, ih, Std.TreeMap.getElem?_insertIfNew]
    simp only [Std.LawfulEqCmp.compare_eq_iff_eq, Std.TreeMap.mem_iff_isSome_getElem?,
      List.mem_cons]
    by_cases hname : msg = name
    · subst hname
      cases hm : m[msg]? <;> simp
    · have hne : name ≠ msg := fun h => hname h.symm
      simp [hname, hne]

/-- Every name gains the destination except those it ignores.  An ignored name
    without an entry gets one, with the defaults as they were. -/
theorem addIgnores_addresses (destAddr : Address) (a : Addressing) (ignoreSet : List String)
    (name : String) :
    (addIgnores destAddr a ignoreSet).addresses name
      = a.addresses name ++ if name ∈ ignoreSet then [] else [destAddr] := by
  simp only [addresses, addIgnores, foldl_insertIfNew_getElem?, Std.TreeMap.getElem?_map,
    List.mem_filter, Bool.not_eq_true', ← Bool.not_eq_true, Std.TreeMap.contains_iff_mem,
    Std.TreeMap.mem_iff_isSome_getElem?]
  cases hname : a.mMessageAddressMap[name]? with
  | none => by_cases hig : name ∈ ignoreSet <;> simp [hig]
  | some addrs => by_cases hig : name ∈ ignoreSet <;> simp [hig]

/-- The loop invariant's step: for every name, a destination appends its own
    address as often as its filter asks for. -/
theorem processDestination_addresses {compMap : ComputationMap} {a a' : Addressing}
    {dest : String × Object} (h : processDestination compMap a dest = .ok a') :
    ∃ destAddr, compMap.getComputationAddress dest.1 = .ok destAddr ∧
      ∀ name, a'.addresses name
        = a.addresses name ++ List.replicate (copies dest.2 name) destAddr := by
  unfold processDestination at h
  cases haddr : compMap.getComputationAddress dest.1 with
  | error e => rw [haddr] at h; cases h
  | ok destAddr =>
    refine ⟨destAddr, rfl, fun name => ?_⟩
    cases hacc : dest.2.get "accept" with
    | error e => rw [haddr, hacc] at h; cases h
    | ok accepts =>
      have hlist : listed dest.2 "accept" = accepts.strings := by simp only [listed, hacc]
      rw [haddr, hacc] at h
      simp only [bind, Except.bind] at h
      split at h
      · next hne =>
        -- the ignore list is not looked at
        cases h
        rw [foldl_addAccept_addresses, copies, hlist, if_pos hne]
      · next hne =>
        cases hign : dest.2.get "ignore" with
        | error e => rw [hign] at h; cases h
        | ok ignores =>
          have hlist' : listed dest.2 "ignore" = ignores.strings := by simp only [listed, hign]
          rw [hign] at h
          cases h
          rw [addIgnores_addresses, copies, hlist, hlist', if_neg hne]
          split <;> simp

/-- A destination in the map with an object (or null) as its filter is never
    refused. -/
theorem processDestination_isOk {compMap : ComputationMap} {dest : String × Object}
    {destAddr : Address} (haddr : compMap.getComputationAddress dest.1 = .ok destAddr)
    (hobj : dest.2.isObjectOrNull = true) (a : Addressing) :
    ∃ a', processDestination compMap a dest = .ok a' := by
  obtain ⟨accepts, hacc⟩ := Object.get_isOk hobj "accept"
  obtain ⟨ignores, hign⟩ := Object.get_isOk hobj "ignore"
  unfold processDestination
  rw [haddr, hacc, hign]
  by_cases hne : accepts.strings ≠ []
  · exact ⟨_, by simp only [bind, Except.bind, if_pos hne]; rfl⟩
  · exact ⟨_, by simp only [bind, Except.bind, if_neg hne]; rfl⟩

/-! ## The whole filter object -/

/-- The address of a destination that is in the map. -/
def destAddress (compMap : ComputationMap) (destName : String) : Address :=
  match compMap.getComputationAddress destName with
  | .ok addr => addr
  | .error _ => {}

theorem destAddress_of_ok {compMap : ComputationMap} {destName : String} {addr : Address}
    (h : compMap.getComputationAddress destName = .ok addr) :
    destAddress compMap destName = addr := by
  simp only [destAddress, h]

/-- After any prefix of the destinations, and for every name, `addresses` lists
    the destinations of that prefix in order. -/
theorem foldlM_processDestination_addresses {compMap : ComputationMap}
    {dests : List (String × Object)} {a a' : Addressing}
    (h : dests.foldlM (processDestination compMap) a = .ok a') (name : String) :
    a'.addresses name = a.addresses name ++
      dests.flatMap fun d => List.replicate (copies d.2 name) (destAddress compMap d.1) := by
  induction dests generalizing a with
  | nil =>
    cases h
    simp
  | cons dest rest ih =>
    rw [List.foldlM_cons] at h
    cases hd : processDestination compMap a dest with
    | error e => rw [hd] at h; cases h
    | ok a₁ =>
      rw [hd] at h
      obtain ⟨destAddr, haddr, hstep⟩ := processDestination_addresses hd
      rw [ih h, hstep, List.flatMap_cons, destAddress_of_ok haddr, List.append_assoc]

theorem foldlM_processDestination_isOk {compMap : ComputationMap}
    {dests : List (String × Object)} (a : Addressing)
    (hdest : ∀ d ∈ dests, ∃ addr, compMap.getComputationAddress d.1 = .ok addr)
    (hobj : ∀ d ∈ dests, d.2.isObjectOrNull = true) :
    ∃ a', dests.foldlM (processDestination compMap) a = .ok a' := by
  induction dests generalizing a with
  | nil => exact ⟨a, rfl⟩
  | cons dest rest ih =>
    obtain ⟨addr, haddr⟩ := hdest dest List.mem_cons_self
    obtain ⟨a₁, h₁⟩ := processDestination_isOk haddr (hobj dest List.mem_cons_self) a
    obtain ⟨a₂, h₂⟩ := ih a₁ (fun d hd => hdest d (List.mem_cons_of_mem _ hd))
      (fun d hd => hobj d (List.mem_cons_of_mem _ hd))
    exact ⟨a₂, by rw [List.foldlM_cons, h₁]; exact h₂⟩

/-- For a source in the map the constructor is one pass over its filter object,
    starting from empty tables. -/
theorem ofFilters_eq_foldlM {compMap : ComputationMap} {sourceCompId : UUID}
    {sourceAddr : Address} {sourceName : String} {aMessageFilters filters : Object}
    (haddr : compMap.getComputationAddressById sourceCompId = .ok sourceAddr)
    (hname : compMap.getComputationName sourceCompId = .ok sourceName)
    (hfilters : aMessageFilters.get sourceName = .ok filters) :
    ofFilters sourceCompId compMap aMessageFilters
      = filters.members.foldlM (processDestination compMap)
          { mAllAddresses := compMap.getAllAddresses false, mSourceAddress := sourceAddr } := by
  simp only [ofFilters, haddr, hname, hfilters, bind, Except.bind]

/-- **Routing filter semantics.**  For a source in the map and destinations
    that are all in the map, the constructor succeeds when every destination's
    filter is an object (or null).  For every routing name, `addresses` then
    holds the addresses of the destinations that accept it and no others, in
    the order of the destinations, whatever mixture of accept lists, ignore
    lists and empty filters they have.

    Two destinations may have one address, when their names stand for the same
    computation id: the address is then there if either of them accepts. -/
theorem addresses_ofFilters (compMap : ComputationMap) (sourceCompId : UUID)
    (aMessageFilters : Object) {sourceAddr : Address} {sourceName : String} {filters : Object}
    (haddr : compMap.getComputationAddressById sourceCompId = .ok sourceAddr)
    (hname : compMap.getComputationName sourceCompId = .ok sourceName)
    (hfilters : aMessageFilters.get sourceName = .ok filters)
    (hdest : ∀ d ∈ filters.members, ∃ addr, compMap.getComputationAddress d.1 = .ok addr) :
    ((∀ d ∈ filters.members, d.2.isObjectOrNull = true) →
      ∃ a, ofFilters sourceCompId compMap aMessageFilters = .ok a) ∧
    ∀ a, ofFilters sourceCompId compMap aMessageFilters = .ok a → ∀ name,
      (∀ addr, addr ∈ a.addresses name ↔
        ∃ d ∈ filters.members, compMap.getComputationAddress d.1 = .ok addr ∧
          Accepts d.2 name) ∧
      a.addresses name = filters.members.flatMap fun d =>
        List.replicate (copies d.2 name) (destAddress compMap d.1) := by
  rw [ofFilters_eq_foldlM haddr hname hfilters]
  refine ⟨fun hobj => foldlM_processDestination_isOk _ hdest hobj, fun a h name => ?_⟩
  have hlist := foldlM_processDestination_addresses h name
  simp only [addresses, Std.TreeMap.getElem?_emptyc, Option.getD_none, List.nil_append] at hlist
  refine ⟨fun addr => ?_, hlist⟩
  rw [addresses, hlist, List.mem_flatMap]
  constructor
  · rintro ⟨d, hd, hmem⟩
    obtain ⟨hpos, rfl⟩ := List.mem_replicate.mp hmem
    obtain ⟨addr', haddr'⟩ := hdest d hd
    exact ⟨d, hd, by rw [destAddress_of_ok haddr', haddr'],
      (copies_pos_iff _ _).mp (Nat.pos_of_ne_zero hpos)⟩
  · rintro ⟨d, hd, haddr', hacc⟩
    refine ⟨d, hd, List.mem_replicate.mpr ⟨?_, (destAddress_of_ok haddr').symm⟩⟩
    exact Nat.pos_iff_ne_zero.mp ((copies_pos_iff _ _).mpr hacc)

/-! ## Filters that are refused -/

/-- A destination with a name that is in the map and an object (or null) as its
    filter. -/
def IsDestination (comps : List (String × Object)) (dest : String × Object) : Prop :=
  (dest.1 = "(client)" ∨ dest.1 ∈ comps.map Prod.fst) ∧ dest.2.isObjectOrNull

theorem succeeds_processDestination (compMap : ComputationMap) (a : Addressing)
    (dest : String × Object) : Succeeds (processDestination compMap a dest) ↔
      Succeeds (compMap.getComputationAddress dest.1) ∧ dest.2.isObjectOrNull = true := by
  constructor
  · intro h
    unfold processDestination at h
    obtain ⟨addr, haddr, h⟩ := (succeeds_bind ..).mp h
    obtain ⟨accepts, haccepts, -⟩ := (succeeds_bind ..).mp h
    exact ⟨⟨addr, haddr⟩, (Object.succeeds_get ..).mp ⟨accepts, haccepts⟩⟩
  · rintro ⟨⟨addr, haddr⟩, hobj⟩
    exact processDestination_isOk haddr hobj a

/-- A source without a name has no filters; those of any other source are refused
    exactly for one of their destinations. -/
theorem succeeds_ofFilters (uuid_parse : String → Option UUID) (sessionId : UUID)
    (comps : List (String × Object)) (sourceCompId : UUID) {filters : Object}
    (hobj : filters.isObject) :
    Succeeds (ofFilters sourceCompId (.ofEntries uuid_parse sessionId comps) filters) ↔
      ∀ name, ComputationMap.nameOf uuid_parse comps sourceCompId = some name →
        ∀ dest ∈ (filters.member name).members, IsDestination comps dest := by
  obtain ⟨hname, haddr⟩ := ComputationMap.getElem?_ofEntries uuid_parse sessionId comps
    sourceCompId
  cases hsource : ComputationMap.nameOf uuid_parse comps sourceCompId with
  | none =>
    rw [hsource] at haddr
    have hnone : (ComputationMap.ofEntries uuid_parse sessionId
        comps).mCompIdToAddress[sourceCompId]? = none :=
      Option.isNone_iff_eq_none.mp (Option.isSome_eq_false_iff.mp haddr)
    refine iff_of_true ?_ nofun
    simp only [ofFilters, ComputationMap.getComputationAddressById, hnone, succeeds_ok]
  | some name =>
    rw [hsource] at hname haddr
    obtain ⟨sourceAddr, haddr⟩ := Option.isSome_iff_exists.mp haddr
    have hsourceAddr : (ComputationMap.ofEntries uuid_parse sessionId
        comps).getComputationAddressById sourceCompId = .ok sourceAddr := by
      simp only [ComputationMap.getComputationAddressById, haddr]
    have hsourceName : (ComputationMap.ofEntries uuid_parse sessionId
        comps).getComputationName sourceCompId = .ok name := by
      simp only [ComputationMap.getComputationName, hname]
    rw [ofFilters_eq_foldlM hsourceAddr hsourceName
      (Object.get_of_isObjectOrNull (Object.isObjectOrNull_of_isObject hobj) name),
      succeeds_foldlM (succeeds_processDestination _)]
    constructor
    · rintro h name' hname' dest hdest
      cases hname'
      obtain ⟨hsucceeds, hfilter⟩ := h dest hdest
      exact ⟨(ComputationMap.succeeds_getComputationAddress comps dest.1).mp hsucceeds, hfilter⟩
    · intro h dest hdest
      obtain ⟨hknown, hfilter⟩ := h name rfl dest hdest
      exact ⟨(ComputationMap.succeeds_getComputationAddress comps dest.1).mpr hknown, hfilter⟩

/-! ### Two names for one computation id -/

/-- Routing data in which the names "a" and "b" carry the same id. -/
def sharedIdData : Object :=
  let comp : Object := .object [("compId", .string "00000000-0000-0000-0000-000000000001"),
    ("nodeId", .string "00000000-0000-0000-0000-000000000002")]
  .object [("a", comp), ("b", comp)]

/-- The parsed forms of the two ids in `sharedIdData`. -/
def sharedIdParse (text : String) : Option UUID :=
  if text = "00000000-0000-0000-0000-000000000001" then some ⟨(Vector.replicate 16 0).set 15 1⟩
  else if text = "00000000-0000-0000-0000-000000000002" then
    some ⟨(Vector.replicate 16 0).set 15 2⟩
  else none

/-- "b" ignores the name that "a" accepts. -/
def ignoreGo : Object := .object [("ignore", .array [.string "go"])]

/-- The client's filters: "a" accepts "go", "b" ignores it. -/
def sharedIdFilters : Object :=
  .object [("(client)", .object
    [("a", .object [("accept", .array [.string "go"])]), ("b", ignoreGo)])]

/-- The computation map of `sharedIdData`. -/
def sharedIdMap : ComputationMap :=
  ((ComputationMap.ofObject sharedIdParse UUID.null sharedIdData).toOption).getD {}

theorem ofObject_sharedIdData :
    ComputationMap.ofObject sharedIdParse UUID.null sharedIdData = .ok sharedIdMap := rfl

-- a filter that is just "*" is no subobject, and is refused
example : ofFilters UUID.null sharedIdMap
    (.object [("(client)", .object [("a", .string "*")])]) = .error .jsonLogicError := rfl

theorem sharedIdFilters_dest (d : String × Object)
    (hd : d ∈ [("a", Object.object [("accept", .array [.string "go"])]), ("b", ignoreGo)]) :
    ∃ addr, sharedIdMap.getComputationAddress d.1 = .ok addr := by
  refine ⟨destAddress sharedIdMap d.1, ?_⟩
  rcases List.mem_cons.mp hd with rfl | hd
  · decide
  · obtain rfl := List.mem_singleton.mp hd
    decide

/-- A destination's address alone does not tell whether that destination
    accepts: with one id under two names, "b" does not accept "go" and yet its
    address is in `addresses "go"`. -/
theorem not_forall_address_mem_iff_accepts :
    ¬ ∀ (uuid_parse : String → Option UUID) (sessionId : UUID) (computationsData : Object)
      (compMap : ComputationMap) (sourceCompId : UUID) (sourceName : String)
      (aMessageFilters filters : Object) (a : Addressing),
      ComputationMap.ofObject uuid_parse sessionId computationsData = .ok compMap →
      compMap.getComputationName sourceCompId = .ok sourceName →
      aMessageFilters.get sourceName = .ok filters →
      (∀ d ∈ filters.members, ∃ addr, compMap.getComputationAddress d.1 = .ok addr) →
      ofFilters sourceCompId compMap aMessageFilters = .ok a →
      ∀ name, ∀ d ∈ filters.members, ∀ addr,
        compMap.getComputationAddress d.1 = .ok addr →
        (addr ∈ a.addresses name ↔ Accepts d.2 name) := by
  intro h
  have hb := h sharedIdParse UUID.null sharedIdData sharedIdMap UUID.null "(client)"
    sharedIdFilters _ _ ofObject_sharedIdData (by decide) rfl sharedIdFilters_dest rfl "go"
    ("b", ignoreGo) (List.mem_cons_of_mem _ List.mem_cons_self)
    (destAddress sharedIdMap "b") (by decide)
  exact absurd hb (by decide)

/-- The theorem at the same input: "go" goes to the address of "a". -/
theorem addresses_ofFilters_sharedId :
    ∃ a, ofFilters UUID.null sharedIdMap sharedIdFilters = .ok a ∧
      destAddress sharedIdMap "a" ∈ a.addresses "go" := by
  have h := addresses_ofFilters sharedIdMap UUID.null sharedIdFilters rfl rfl rfl
    sharedIdFilters_dest
  exact ⟨_, rfl, ((h.2 _ rfl "go").1 _).mpr ⟨_, List.mem_cons_self, by decide, by decide⟩⟩

end Addressing

end Arras4Core.Routing
