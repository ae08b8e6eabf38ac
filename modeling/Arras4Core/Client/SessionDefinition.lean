/-
  Arras4Core.Client.SessionDefinition

  `SessionDefinition::load` and its search along the definition path.

  What the machine answers is a `Host`: which files `access(..,R_OK)` can read,
  the suffix in the environment, and what stands in a file.  A call of `load`
  records the file names that it looks for and the warnings that it logs.

  Main result: `searchPath_iff`.
-/

import Arras4Core.Api.Object
import Arras4Core.Execute.SpawnArgs
import Mathlib.Logic.Basic

namespace Arras4Core.Client

open Arras4Core.Lib.Text
open Arras4Core.Api (Object)
open Arras4Core.Execute.SpawnArgs (pathComponents fileIn)

/-- `DefinitionLoadError`. -/
structure DefinitionLoadError where
  mWhat : String
  deriving DecidableEq

namespace SessionDefinition

def ENV_VAR : String := "ARRAS_SESSION_PATH"

/-- What `load` asks the machine.  `contents` of a file that does not open is
    `none`, of one that does not parse the parser's `what()`. -/
structure Host where
  access : List Char → Bool
  /-- `getenv("ARRASCLIENT_OVR_SESSION_DEF_SUFFIX")` -/
  suffix : Option String
  contents : List Char → Option (Except String Object)

/-! ## The search -/

/-- The loop of `findFile` at the position `start`. -/
def findFrom (access : List Char → Bool) (filename filepath : List Char) (start : Nat) :
    List Char :=
  match hfind : find filepath ':' start with
  | none =>
    -- `npos > start+1`, and `done`
    let path := substr filepath start ++ '/' :: filename
    if access (cStr path) then path else []
  | some n =>
    let path := substr filepath start (n - start) ++ '/' :: filename
    if n > start + 1 ∧ access (cStr path) then path
    else findFrom access filename filepath (n + 1)
termination_by filepath.length - start
decreasing_by
  have := find_lt_length hfind
  omega

def findFile (access : List Char → Bool) (filename filepath : List Char) : List Char :=
  findFrom access filename filepath 0

/-- What a call of `load` looks for and logs. -/
structure Journal where
  sought : List (List Char) := []
  warnings : List String := []

def loadFromFile (host : Host) (filepath : List Char) : Except DefinitionLoadError Object :=
  match host.contents filepath with
  | none =>
    .error ⟨"Couldn't open definition file '" ++ String.ofList filepath ++ "'"⟩
  | some (.error what) =>
    .error ⟨"Couldn't load definition file '" ++ String.ofList filepath ++ "': " ++ what⟩
  | some (.ok object) => .ok object

/-- The file that a definition of the name is in. -/
def definitionFile (name : String) : List Char := (name ++ ".sessiondef").toList

/-- The debug override: the file with the suffix, if there is one. -/
def findOverride (host : Host) (name searchPath : String) : Journal × List Char :=
  match host.suffix with
  | none => ({}, [])
  | some suffix =>
    let filename := definitionFile (name ++ suffix)
    let filepath := findFile host.access filename searchPath.toList
    if filepath ≠ [] then
      (⟨[filename], ["Overriding session: " ++ name ++ " to " ++ (name ++ suffix)]⟩, filepath)
    else (⟨[filename], []⟩, filepath)

def load (host : Host) (name searchPath : String) :
    Journal × Except DefinitionLoadError Object :=
  if searchPath = "" then
    ({}, .error ⟨"Session definition search path is empty. " ++
      "Try setting the environment variable " ++ ENV_VAR⟩)
  else
    let (journal, filepath) := findOverride host name searchPath
    if filepath = [] then
      let filename := definitionFile name
      let filepath := findFile host.access filename searchPath.toList
      ({ journal with sought := journal.sought ++ [filename] },
        if filepath = [] then
          .error ⟨"Couldn't find definition file for '" ++ name ++ "' in search path"⟩
        else loadFromFile host filepath)
    else (journal, loadFromFile host filepath)

/-! ## What it is for -/

def readableIn (access : List Char → Bool) (filename d : List Char) : Bool :=
  access (cStr (fileIn filename d))

/-- The file of the first non-empty component that has it, and otherwise nothing. -/
def FindsFirst (access : List Char → Bool) (filename filepath : List Char) : Prop :=
  findFile access filename filepath
    = (((pathComponents filepath).find? (readableIn access filename)).map
        (fileIn filename)).getD []

/-- The plain name is looked for when no component has the file with the suffix, and
    only then. -/
def FallsBack (host : Host) (name searchPath : String) : Prop :=
  ∀ suffix ∈ host.suffix, searchPath ≠ "" →
    ((load host name searchPath).1.sought
        = [definitionFile (name ++ suffix), definitionFile name] ↔
      ∀ d ∈ pathComponents searchPath.toList,
        readableIn host.access (definitionFile (name ++ suffix)) d = false)

/-! ## The loop as a list of directories -/

/-- The directories that the loop looks at, of the components: one that is empty or
    a single character is left out unless it is the last. -/
def searched (ds : List (List Char)) : List (List Char) :=
  ds.dropLast.filter (2 ≤ ·.length) ++ ds.getLast?.toList

theorem searched_cons (d : List Char) {ds : List (List Char)} (hds : ds ≠ []) :
    searched (d :: ds) = if 2 ≤ d.length then d :: searched ds else searched ds := by
  obtain ⟨e, es, rfl⟩ := List.exists_cons_of_ne_nil hds
  rw [searched, List.dropLast_cons_cons, List.getLast?_cons_cons, List.filter_cons]
  by_cases hd : 2 ≤ d.length
  · rw [if_pos (by simpa using hd), if_pos hd]
    rfl
  · rw [if_neg (by simpa using hd), if_neg hd]
    rfl

/-- A round that finds a separator. -/
theorem searched_drop {filepath : List Char} {start n : Nat}
    (hfind : find filepath ':' start = some n) :
    searched ((filepath.drop start).splitOn ':')
      = if n > start + 1
        then substr filepath start (n - start) :: searched ((filepath.drop (n + 1)).splitOn ':')
        else searched ((filepath.drop (n + 1)).splitOn ':') := by
  obtain ⟨hs, hu, -⟩ := of_find hfind
  have hbound := find_lt_length hfind
  have hlen : 2 ≤ (substr filepath start (n - start)).length ↔ n > start + 1 := by
    rw [length_substr]
    omega
  rw [hs, List.splitOn_append_cons_self_of_not_mem hu, searched_cons _ (List.splitOn_ne_nil _ _)]
  simp only [hlen]

/-- The file of the first of the directories that has it. -/
def firstIn (access : List Char → Bool) (filename : List Char) (ds : List (List Char)) :
    List Char :=
  ((ds.find? (readableIn access filename)).map (fileIn filename)).getD []

theorem firstIn_cons (access : List Char → Bool) (filename d : List Char)
    (ds : List (List Char)) :
    firstIn access filename (d :: ds)
      = if readableIn access filename d then fileIn filename d
        else firstIn access filename ds := by
  rw [firstIn, List.find?_cons]
  cases hd : readableIn access filename d with
  | true => rfl
  | false => rfl

/-- The loop goes from separator to separator. -/
theorem findFrom_eq (access : List Char → Bool) (filename filepath : List Char) (start : Nat) :
    findFrom access filename filepath start
      = firstIn access filename (searched ((filepath.drop start).splitOn ':')) := by
  fun_induction findFrom access filename filepath start with
  | case1 start hfind path hacc =>
    -- the last component is tried whatever its length
    rw [List.splitOn_eq_singleton (not_mem_of_find hfind)]
    exact ((firstIn_cons ..).trans (if_pos hacc)).symm
  | case2 start hfind path hacc =>
    rw [List.splitOn_eq_singleton (not_mem_of_find hfind)]
    exact ((firstIn_cons access filename _ []).trans (if_neg hacc)).symm
  | case3 start n hfind path hacc =>
    rw [searched_drop hfind, if_pos hacc.1, firstIn_cons]
    exact (if_pos hacc.2).symm
  | case4 start n hfind path hacc ih =>
    rw [searched_drop hfind, ih]
    -- left out, or tried without success
    by_cases hlt : n > start + 1
    · have hdir : ¬ readableIn access filename (substr filepath start (n - start)) = true :=
        fun h => hacc ⟨hlt, h⟩
      rw [if_pos hlt, firstIn_cons, if_neg hdir]
    · rw [if_neg hlt]

/-! ## Which component is used -/

/-- The component behind the last separator. -/
def lastComponent (filepath : List Char) : List Char := ((filepath.splitOn ':').getLast?).getD []

/-- The components that a separator follows. -/
def earlierComponents (filepath : List Char) : List (List Char) := (filepath.splitOn ':').dropLast

theorem splitOn_eq_earlier_last (filepath : List Char) :
    filepath.splitOn ':' = earlierComponents filepath ++ [lastComponent filepath] := by
  have hne := List.splitOn_ne_nil ':' filepath
  rw [earlierComponents, lastComponent, List.getLast?_eq_some_getLast hne]
  exact (List.dropLast_concat_getLast hne).symm

theorem searched_splitOn (filepath : List Char) :
    searched (filepath.splitOn ':')
      = (earlierComponents filepath).filter (2 ≤ ·.length) ++ [lastComponent filepath] := by
  rw [searched, splitOn_eq_earlier_last, List.dropLast_concat, List.getLast?_concat]
  rfl

theorem pathComponents_eq (filepath : List Char) :
    pathComponents filepath
      = (earlierComponents filepath).filter (· ≠ []) ++
        [lastComponent filepath].filter (· ≠ []) := by
  rw [pathComponents, splitOn_eq_earlier_last, List.filter_append]

section

variable {readable : List Char → Bool} {earlier : List (List Char)} {last : List Char}

/-- A first readable component of two or more characters is the first of those. -/
theorem find?_long {d : List Char}
    (h : (earlier.filter (· ≠ [])).find? readable = some d) (hlen : 2 ≤ d.length) :
    (earlier.filter (2 ≤ ·.length)).find? readable = some d := by
  rw [List.find?_filter] at h ⊢
  obtain ⟨hd, before, behind, heq, hbefore⟩ := List.find?_eq_some_iff_append.mp h
  refine List.find?_eq_some_iff_append.mpr ⟨?_, before, behind, heq, fun e he => ?_⟩
  · simp only [decide_eq_true_eq] at hd ⊢
    exact ⟨hlen, hd.2⟩
  · have hnot := hbefore e he
    simp only [Bool.not_eq_true', decide_eq_false_iff_not, decide_eq_true_eq] at hnot ⊢
    intro hlong
    refine hnot ⟨fun hnil => ?_, hlong.2⟩
    rw [hnil] at hlong
    exact absurd hlong.1 (by simp)

theorem find?_long_eq_none :
    (earlier.filter (2 ≤ ·.length)).find? readable = none ↔
      ∀ d ∈ earlier, 2 ≤ d.length → readable d = false := by
  simp only [List.find?_eq_none, List.mem_filter, decide_eq_true_eq, and_imp,
    Bool.not_eq_true]

/-- Which component the loop uses, where the first readable one is `first`. -/
def FirstIsTried (readable : List Char → Bool) (earlier : List (List Char)) (last : List Char)
    (first : Option (List Char)) : Prop :=
  (∀ d ∈ first, d.length = 1 →
    last = d ∧ ∀ e ∈ earlier, 2 ≤ e.length → readable e = false) ∧
  (first = none → last = [] → readable [] = false)

theorem length_of_find? {d : List Char}
    (h : (earlier.filter (· ≠ [])).find? readable = some d) : d.length ≠ 0 := by
  simpa using (List.mem_filter.mp (List.mem_of_find?_eq_some h)).2

/-- A longer component is one that is not empty. -/
theorem exists_find?_of_long {e : List Char}
    (h : (earlier.filter (2 ≤ ·.length)).find? readable = some e) :
    ∃ d, (earlier.filter (· ≠ [])).find? readable = some d := by
  have hmem : e ∈ earlier ∧ 2 ≤ e.length := by simpa using List.mem_of_find?_eq_some h
  refine Option.isSome_iff_exists.mp (List.find?_isSome.mpr ⟨e, ?_, List.find?_some h⟩)
  refine List.mem_filter.mpr ⟨hmem.1, decide_eq_true fun hnil => ?_⟩
  rw [hnil] at hmem
  exact absurd hmem.2 (by simp)

/-- A longer component before the last has the file: it must be the first that has. -/
theorem eq_iff_of_long {d e : List Char}
    (hlong : (earlier.filter (2 ≤ ·.length)).find? readable = some e)
    (hshort : (earlier.filter (· ≠ [])).find? readable = some d) :
    some e = some d ↔ FirstIsTried readable earlier last (some d) := by
  have hmem : e ∈ earlier ∧ 2 ≤ e.length := by simpa using List.mem_of_find?_eq_some hlong
  have hread : readable e = true := List.find?_some hlong
  constructor
  · intro heq
    obtain rfl := Option.some.inj heq
    refine ⟨fun c hc hone => ?_, nofun⟩
    obtain rfl := Option.mem_some.mp hc
    omega
  · intro h
    have hne : d.length ≠ 0 := length_of_find? hshort
    have hone : d.length ≠ 1 := fun hone => by
      have hnot := (h.1 d rfl hone).2 e hmem.1 hmem.2
      rw [hread] at hnot
      cases hnot
    rw [← hlong]
    exact find?_long hshort (by omega)

/-- Only single characters before the last have the file: the last must be that one. -/
theorem find?_last_iff_of_short {d : List Char}
    (hlong : (earlier.filter (2 ≤ ·.length)).find? readable = none)
    (hshort : (earlier.filter (· ≠ [])).find? readable = some d) :
    [last].find? readable = some d ↔ FirstIsTried readable earlier last (some d) := by
  -- the first of them cannot have two characters, or the loop would have taken it
  have hne : d.length ≠ 0 := length_of_find? hshort
  have hshorter : ¬ 2 ≤ d.length := fun hlen => by
    rw [find?_long hshort hlen] at hlong
    cases hlong
  constructor
  · intro h
    refine ⟨fun c hc hone => ?_, nofun⟩
    obtain rfl := Option.mem_some.mp hc
    exact ⟨(List.mem_singleton.mp (List.mem_of_find?_eq_some h)).symm,
      find?_long_eq_none.mp hlong⟩
  · intro h
    obtain ⟨rfl, -⟩ := h.1 d rfl (by omega)
    exact List.find?_cons_of_pos (List.find?_some hshort)

/-- Nothing before the last has the file: an empty last one must not have it. -/
theorem find?_last_iff_of_none
    (hlong : (earlier.filter (2 ≤ ·.length)).find? readable = none) :
    [last].find? readable = ([last].filter (· ≠ [])).find? readable ↔
      FirstIsTried readable earlier last (([last].filter (· ≠ [])).find? readable) := by
  by_cases hnil : last = []
  · -- the loop tries "/file", which belongs to no component
    subst hnil
    have hfilter : ([[]] : List (List Char)).filter (· ≠ []) = [] := by simp
    rw [hfilter, List.find?_singleton]
    constructor
    · intro h
      refine ⟨nofun, fun _ _ => ?_⟩
      cases hread : readable [] with
      | false => rfl
      | true =>
        rw [if_pos hread] at h
        cases h
    · intro h
      rw [h.2 rfl rfl]
      rfl
  · have hfilter : [last].filter (· ≠ []) = [last] := by simp [hnil]
    rw [hfilter]
    refine iff_of_true rfl ⟨fun d hd _ => ⟨?_, find?_long_eq_none.mp hlong⟩, fun _ h => ?_⟩
    · exact (List.mem_singleton.mp (List.mem_of_find?_eq_some hd)).symm
    · exact absurd h hnil

/-- The loop's choice against the first of the components that are not empty. -/
theorem find?_searched_iff :
    (earlier.filter (2 ≤ ·.length) ++ [last]).find? readable
        = (earlier.filter (· ≠ []) ++ [last].filter (· ≠ [])).find? readable ↔
      FirstIsTried readable earlier last
        ((earlier.filter (· ≠ []) ++ [last].filter (· ≠ [])).find? readable) := by
  rw [List.find?_append, List.find?_append]
  cases hlong : (earlier.filter (2 ≤ ·.length)).find? readable with
  | some e =>
    obtain ⟨d, hshort⟩ := exists_find?_of_long hlong
    rw [hshort, Option.some_or, Option.some_or]
    exact eq_iff_of_long hlong hshort
  | none =>
    rw [Option.none_or]
    cases hshort : (earlier.filter (· ≠ [])).find? readable with
    | some d => exact find?_last_iff_of_short hlong hshort
    | none => exact find?_last_iff_of_none hlong

/-- No directory that the loop looks at has the file. -/
theorem find?_searched_eq_none :
    (earlier.filter (2 ≤ ·.length) ++ [last]).find? readable = none ↔
      ¬ (∃ d ∈ earlier, 2 ≤ d.length ∧ readable d = true) ∧
      ¬ (last ≠ [] ∧ readable last = true) ∧ ¬ (last = [] ∧ readable [] = true) := by
  rw [List.find?_append, Option.or_eq_none_iff, find?_long_eq_none, List.find?_eq_none]
  simp only [List.forall_mem_singleton, Bool.not_eq_true, not_exists, not_and]
  refine and_congr Iff.rfl ⟨fun h => ?_, fun h => ?_⟩
  · exact ⟨fun _ => h, fun hnil => hnil ▸ h⟩
  · by_cases hnil : last = []
    · exact hnil ▸ h.2 hnil
    · exact h.1 hnil

/-- No component that is not empty has the file. -/
theorem forall_components_iff :
    (∀ d ∈ earlier.filter (· ≠ []) ++ [last].filter (· ≠ []), readable d = false) ↔
      ¬ (∃ d ∈ earlier, 2 ≤ d.length ∧ readable d = true) ∧
      ¬ (last ≠ [] ∧ readable last = true) ∧
      ¬ (∃ d ∈ earlier, d.length = 1 ∧ readable d = true) := by
  simp only [List.forall_mem_append, List.mem_filter, List.mem_singleton, decide_eq_true_eq,
    not_exists, not_and, Bool.not_eq_true, and_imp]
  constructor
  · rintro ⟨hearlier, hlast⟩
    refine ⟨fun d hd hlen => hearlier d hd ?_, hlast last rfl,
      fun d hd hlen => hearlier d hd ?_⟩
    · exact fun hnil => absurd (hnil ▸ hlen) (by simp)
    · exact fun hnil => absurd (hnil ▸ hlen) (by simp)
  · rintro ⟨hlong, hlast, hshort⟩
    refine ⟨fun d hd hne => ?_, fun d hd => hd ▸ hlast⟩
    have hlen : d.length ≠ 0 := fun h => hne (List.length_eq_zero_iff.mp h)
    by_cases hone : d.length = 1
    · exact hshort d hd hone
    · exact hlong d hd (by omega)

/-- When the two agree on whether there is a file. -/
def AgreeOnMissing (readable : List Char → Bool) (earlier : List (List Char))
    (last : List Char) : Prop :=
  (∃ d ∈ earlier, 2 ≤ d.length ∧ readable d = true) ∨
  (last ≠ [] ∧ readable last = true) ∨
  ((last = [] ∧ readable [] = true) ↔ ∃ d ∈ earlier, d.length = 1 ∧ readable d = true)

theorem find?_searched_eq_none_iff :
    ((earlier.filter (2 ≤ ·.length) ++ [last]).find? readable = none ↔
      ∀ d ∈ earlier.filter (· ≠ []) ++ [last].filter (· ≠ []), readable d = false) ↔
    AgreeOnMissing readable earlier last := by
  rw [find?_searched_eq_none, forall_components_iff, AgreeOnMissing]
  by_cases hlong : ∃ d ∈ earlier, 2 ≤ d.length ∧ readable d = true
  · exact iff_of_true (iff_of_false (fun h => h.1 hlong) (fun h => h.1 hlong)) (.inl hlong)
  by_cases hlast : last ≠ [] ∧ readable last = true
  · refine iff_of_true ?_ (.inr (.inl hlast))
    exact iff_of_false (fun h => h.2.1 hlast) (fun h => h.2.1 hlast)
  · simp only [hlong, hlast, not_false_eq_true, true_and, false_or]
    exact not_iff_not

end

/-! ## The two functions -/

theorem findFile_eq (access : List Char → Bool) (filename filepath : List Char) :
    findFile access filename filepath
      = firstIn access filename
          ((earlierComponents filepath).filter (2 ≤ ·.length) ++ [lastComponent filepath]) := by
  rw [findFile, findFrom_eq, List.drop_zero, searched_splitOn]

theorem fileIn_ne_nil (filename d : List Char) : fileIn filename d ≠ [] :=
  List.append_ne_nil_of_right_ne_nil _ nofun

theorem firstIn_eq_nil {access : List Char → Bool} {filename : List Char}
    {ds : List (List Char)} :
    firstIn access filename ds = [] ↔ ds.find? (readableIn access filename) = none := by
  rw [firstIn]
  cases ds.find? (readableIn access filename) with
  | none => exact iff_of_true rfl rfl
  | some d => exact iff_of_false (fileIn_ne_nil filename d) nofun

/-- The file tells the directory. -/
theorem firstIn_inj {access : List Char → Bool} {filename : List Char}
    {ds es : List (List Char)} :
    firstIn access filename ds = firstIn access filename es ↔
      ds.find? (readableIn access filename) = es.find? (readableIn access filename) := by
  refine ⟨fun h => ?_, fun h => by rw [firstIn, h, firstIn]⟩
  cases hds : ds.find? (readableIn access filename) with
  | none => rw [← firstIn_eq_nil, h, firstIn_eq_nil] at hds; exact hds.symm
  | some d =>
    cases hes : es.find? (readableIn access filename) with
    | none =>
      rw [← firstIn_eq_nil, ← h, firstIn_eq_nil, hds] at hes
      cases hes
    | some e =>
      rw [firstIn, firstIn, hds, hes] at h
      exact congrArg some (List.append_cancel_right h)

/-- The first component that has the file, where it is one the loop looks at. -/
def UsesFirst (access : List Char → Bool) (filename filepath : List Char) : Prop :=
  FirstIsTried (readableIn access filename) (earlierComponents filepath) (lastComponent filepath)
    ((pathComponents filepath).find? (readableIn access filename))

theorem findsFirst_iff (access : List Char → Bool) (filename filepath : List Char) :
    FindsFirst access filename filepath ↔ UsesFirst access filename filepath := by
  rw [FindsFirst, UsesFirst, findFile_eq, pathComponents_eq]
  exact firstIn_inj.trans find?_searched_iff

/-- What a call of `load` looks for. -/
theorem sought_load {host : Host} {name suffix searchPath : String}
    (hsuffix : host.suffix = some suffix) (hpath : searchPath ≠ "") :
    (load host name searchPath).1.sought
      = definitionFile (name ++ suffix) ::
        if findFile host.access (definitionFile (name ++ suffix)) searchPath.toList = []
        then [definitionFile name] else [] := by
  rw [load, if_neg hpath, findOverride, hsuffix]
  by_cases hfound :
      findFile host.access (definitionFile (name ++ suffix)) searchPath.toList = []
  · simp only [hfound, ne_eq, not_true_eq_false, if_false, if_true]
    rfl
  · simp only [hfound, ne_eq, not_false_eq_true, if_true, if_false]

/-- When `load` falls back as it should. -/
def FallsBackIf (host : Host) (name searchPath : String) : Prop :=
  ∀ suffix ∈ host.suffix, searchPath ≠ "" →
    AgreeOnMissing (readableIn host.access (definitionFile (name ++ suffix)))
      (earlierComponents searchPath.toList) (lastComponent searchPath.toList)

theorem fallsBack_iff (host : Host) (name searchPath : String) :
    FallsBack host name searchPath ↔ FallsBackIf host name searchPath := by
  refine forall₂_congr fun suffix hsuffix => forall_congr' fun hpath => ?_
  rw [sought_load hsuffix hpath, ← find?_searched_eq_none_iff, ← pathComponents_eq,
    ← firstIn_eq_nil, ← findFile_eq]
  refine iff_congr ?_ Iff.rfl
  by_cases hfound :
      findFile host.access (definitionFile (name ++ suffix)) searchPath.toList = []
  · rw [if_pos hfound]
    exact iff_of_true rfl hfound
  · rw [if_neg hfound]
    exact iff_of_false nofun hfound

/-- `findFile` takes the first readable component, and `load` falls back when there is
    none, exactly where what the loop leaves out makes no difference. -/
theorem searchPath_iff (host : Host) (filename filepath : List Char)
    (name searchPath : String) :
    (FindsFirst host.access filename filepath ↔ UsesFirst host.access filename filepath) ∧
    (FallsBack host name searchPath ↔ FallsBackIf host name searchPath) :=
  ⟨findsFirst_iff host.access filename filepath, fallsBack_iff host name searchPath⟩

/-- A single dot before the last separator is not looked at. -/
theorem not_findsFirst_dot :
    ¬ FindsFirst (· = "./x".toList) "x".toList ".:/usr".toList := by
  rw [findsFirst_iff]
  intro h
  have hfirst : (pathComponents ".:/usr".toList).find?
      (readableIn (· = "./x".toList) "x".toList) = some ['.'] := by decide
  have hlast : lastComponent ".:/usr".toList ≠ ['.'] := by decide
  exact hlast (h.1 ['.'] hfirst rfl).1

end SessionDefinition

end Arras4Core.Client
