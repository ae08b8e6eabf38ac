/-
  Arras4Core.Execute.SpawnArgs

  `SpawnArgs`, what a process is started with, and its search for a program on
  the PATH.

  `access(path.c_str(),X_OK)` is the platform's: it is a predicate on file names
  here.  A call records the paths that it gives to `access`.  Of the fields only
  those that the search and the contexts of `WrapArgs` use are here.
-/

import Arras4Core.Execute.Environment
import Arras4Core.Lib.Text

namespace Arras4Core.Execute

open Arras4Core.Lib.Text

structure SpawnArgs where
  program : String
  args : List String
  environment : Environment := {}

namespace SpawnArgs

/-! ## The search -/

/-- The loop of `findProgramInPath` at the position `p`: the paths it tries and the
    one it takes. -/
def searchFrom (access : List Char → Bool) (name plist : List Char) (p : Nat) :
    List (List Char) × Option (List Char) :=
  match hfind : find plist ':' p with
  | none =>
    -- `npos > p`, and as `npos >= plist.size()` this is the last round
    let path := substr plist p ++ '/' :: name
    ([path], if access (cStr path) then some path else none)
  | some n =>
    -- `n >= plist.size()` is false of a position that is found
    if n > p then
      let path := substr plist p (n - p) ++ '/' :: name
      if access (cStr path) then ([path], some path)
      else
        let (tried, program) := searchFrom access name plist (n + 1)
        (path :: tried, program)
    else searchFrom access name plist (n + 1)
termination_by plist.length - p
decreasing_by
  all_goals
    have := find_lt_length hfind
    omega

/-- What a call of `findProgramInPath` returns, leaves and tries. -/
structure PathLookup where
  found : Bool
  args : SpawnArgs
  tried : List (List Char)

def findProgramInPath (access : List Char → Bool) (s : SpawnArgs) (name : String) : PathLookup :=
  let plist := (s.environment.get "PATH").toList
  if plist = [] then ⟨false, s, []⟩
  else
    match searchFrom access name.toList plist 0 with
    | (tried, some path) => ⟨true, { s with program := String.ofList path }, tried⟩
    | (tried, none) => ⟨false, s, tried⟩

/-! ## What it is for -/

/-- The components of a PATH that are not empty. -/
def pathComponents (plist : List Char) : List (List Char) :=
  (plist.splitOn ':').filter (· ≠ [])

/-- The file `name` of the directory `d`. -/
def fileIn (name d : List Char) : List Char := d ++ '/' :: name

def executableIn (access : List Char → Bool) (name d : List Char) : Bool :=
  access (cStr (fileIn name d))

/-- The arguments with `path` as their program, if there is a `path`. -/
def setProgram (s : SpawnArgs) (path : Option (List Char)) : SpawnArgs :=
  match path with
  | some path => { s with program := String.ofList path }
  | none => s

/-- The first non-empty component that has an executable file of the name is used,
    and no path is tried that is not a file of a non-empty component. -/
def LooksUp (access : List Char → Bool) (s : SpawnArgs) (name : String) : Prop :=
  let components := pathComponents (s.environment.get "PATH").toList
  let lookup := s.findProgramInPath access name
  (lookup.found = true ↔ ∃ d ∈ components, executableIn access name.toList d) ∧
  lookup.args = s.setProgram
    ((components.find? (executableIn access name.toList)).map (fileIn name.toList)) ∧
  ∀ path ∈ lookup.tried, ∃ d ∈ components, path = fileIn name.toList d

/-! ## The loop as a list of directories -/

/-- The directories that the loop looks at, of the components: an empty one is
    left out unless it is the last. -/
def searched : List (List Char) → List (List Char)
  | [] => []
  | [d] => [d]
  | d :: ds => if d = [] then searched ds else d :: searched ds

/-- One directory after the other, up to the first that has the file. -/
def tryAll (access : List Char → Bool) (name : List Char) :
    List (List Char) → List (List Char) × Option (List Char)
  | [] => ([], none)
  | d :: ds =>
    if executableIn access name d then ([fileIn name d], some (fileIn name d))
    else
      let (tried, program) := tryAll access name ds
      (fileIn name d :: tried, program)

theorem searched_cons (d : List Char) {ds : List (List Char)} (hds : ds ≠ []) :
    searched (d :: ds) = if d = [] then searched ds else d :: searched ds := by
  cases ds with
  | nil => exact absurd rfl hds
  | cons _ _ => rfl

/-- A round that finds a separator. -/
theorem searched_drop {plist : List Char} {p n : Nat} (hfind : find plist ':' p = some n) :
    searched ((plist.drop p).splitOn ':')
      = if n > p then substr plist p (n - p) :: searched ((plist.drop (n + 1)).splitOn ':')
        else searched ((plist.drop (n + 1)).splitOn ':') := by
  obtain ⟨hs, hu, -⟩ := of_find hfind
  have hbound := find_lt_length hfind
  have hnil : substr plist p (n - p) = [] ↔ ¬ n > p := by
    rw [← List.length_eq_zero_iff, length_substr]
    omega
  rw [hs, List.splitOn_append_cons_self_of_not_mem hu, searched_cons _ (List.splitOn_ne_nil _ _)]
  simp only [hnil, ite_not]

/-- The loop goes from separator to separator. -/
theorem searchFrom_eq (access : List Char → Bool) (name plist : List Char) (p : Nat) :
    searchFrom access name plist p
      = tryAll access name (searched ((plist.drop p).splitOn ':')) := by
  fun_induction searchFrom access name plist p with
  | case1 p hfind path =>
    rw [List.splitOn_eq_singleton (not_mem_of_find hfind)]
    show ([path], if executableIn access name (plist.drop p) then some path else none) = _
    cases hacc : executableIn access name (plist.drop p) <;>
      simp [searched, tryAll, hacc, path, fileIn, substr]
  | case2 p n hfind hlt path hacc =>
    rw [searched_drop hfind, if_pos hlt, tryAll]
    exact (if_pos hacc).symm
  | case3 p n hfind hlt path hacc tried program heq ih =>
    rw [searched_drop hfind, if_pos hlt, tryAll, ← ih, heq]
    exact (if_neg hacc).symm
  | case4 p n hfind hle ih =>
    rw [searched_drop hfind, if_neg hle, ih]

/-! ## Which directories are searched -/

theorem tryAll_snd (access : List Char → Bool) (name : List Char) (ds : List (List Char)) :
    (tryAll access name ds).2
      = (ds.find? (executableIn access name)).map (fileIn name) := by
  induction ds with
  | nil => rfl
  | cons d ds ih =>
    rw [tryAll, List.find?_cons]
    cases executableIn access name d with
    | true => rfl
    | false => exact ih

theorem mem_of_tryAll {access : List Char → Bool} {name path : List Char}
    {ds : List (List Char)} (h : path ∈ (tryAll access name ds).1) :
    ∃ d ∈ ds, path = fileIn name d := by
  induction ds with
  | nil => cases h
  | cons d ds ih =>
    rw [tryAll] at h
    cases hacc : executableIn access name d with
    | true =>
      rw [if_pos hacc, List.mem_singleton] at h
      exact ⟨d, List.mem_cons_self .., h⟩
    | false =>
      rw [if_neg (by simp [hacc]), List.mem_cons] at h
      rcases h with rfl | h
      · exact ⟨d, List.mem_cons_self .., rfl⟩
      · obtain ⟨e, he, rfl⟩ := ih h
        exact ⟨e, List.mem_cons_of_mem _ he, rfl⟩

/-- The search goes on behind directories without the file, and only there. -/
theorem tryAll_append_of_none {access : List Char → Bool} {name : List Char}
    {ds : List (List Char)} (h : ∀ d ∈ ds, executableIn access name d = false)
    (es : List (List Char)) :
    (tryAll access name (ds ++ es)).1 = ds.map (fileIn name) ++ (tryAll access name es).1 := by
  induction ds with
  | nil => rfl
  | cons d ds ih =>
    obtain ⟨hd, hds⟩ := List.forall_mem_cons.mp h
    rw [List.cons_append, tryAll, if_neg (by simp [hd]), List.map_cons, List.cons_append, ← ih hds]

theorem tryAll_append_of_mem {access : List Char → Bool} {name d : List Char}
    {ds : List (List Char)} (hmem : d ∈ ds) (hacc : executableIn access name d = true)
    (es : List (List Char)) : tryAll access name (ds ++ es) = tryAll access name ds := by
  induction ds with
  | nil => cases hmem
  | cons e ds ih =>
    rw [List.cons_append, tryAll, tryAll]
    by_cases he : executableIn access name e = true
    · rw [if_pos he, if_pos he]
    · have hds : d ∈ ds := by
        rcases List.mem_cons.mp hmem with rfl | hds
        · exact absurd hacc he
        · exact hds
      rw [if_neg he, if_neg he, ih hds]

/-- All the non-empty components, and behind them an empty one if it is the last. -/
theorem searched_eq {ds : List (List Char)} (hne : ds ≠ []) :
    searched ds = ds.filter (· ≠ []) ++ if ds.getLast? = some [] then [[]] else [] := by
  induction ds with
  | nil => exact absurd rfl hne
  | cons d ds ih =>
    by_cases hds : ds = []
    · subst hds
      by_cases hd : d = [] <;> simp [searched, hd]
    · have hlast : (d :: ds).getLast? = ds.getLast? := by
        obtain ⟨e, es, rfl⟩ := List.exists_cons_of_ne_nil hds
        exact List.getLast?_cons_cons
      rw [searched_cons d hds, ih hds, hlast]
      by_cases hd : d = [] <;> simp [hd]

/-- The last component is empty if a separator ends the list. -/
theorem getLast?_splitOn {plist : List Char} (hne : plist ≠ []) :
    (plist.splitOn ':').getLast? = some [] ↔ plist.getLast? = some ':' := by
  by_cases hmem : ':' ∈ plist
  · obtain ⟨u, t, rfl, ht⟩ := eq_append_last hmem
    rw [List.splitOn_append_cons_self, List.splitOn_eq_singleton ht]
    cases t with
    | nil => simp
    | cons c t =>
      have hlast : (c :: t).getLast? ≠ some ':' := fun h => ht (List.mem_of_getLast? h)
      simpa [List.getLast?_append] using hlast
  · have hlast : plist.getLast? ≠ some ':' := fun h => hmem (List.mem_of_getLast? h)
    simpa [List.splitOn_eq_singleton hmem, hne] using hlast

/-- The directories of a PATH that are searched. -/
def searchedOf (plist : List Char) : List (List Char) :=
  pathComponents plist ++ if plist.getLast? = some ':' then [[]] else []

theorem searched_splitOn {plist : List Char} (hne : plist ≠ []) :
    searched (plist.splitOn ':') = searchedOf plist := by
  rw [searched_eq (List.splitOn_ne_nil _ _), searchedOf, pathComponents]
  simp only [getLast?_splitOn hne]

/-! ## A call -/

/-- A call is a search of these directories. -/
theorem findProgramInPath_eq (access : List Char → Bool) (s : SpawnArgs) (name : String) :
    let search := tryAll access name.toList (searchedOf (s.environment.get "PATH").toList)
    s.findProgramInPath access name = ⟨search.2.isSome, s.setProgram search.2, search.1⟩ := by
  intro search
  unfold findProgramInPath
  by_cases hnil : (s.environment.get "PATH").toList = []
  · have hsearch : search = ([], none) := by
      simp [search, hnil, searchedOf, pathComponents, tryAll]
    rw [hsearch]
    simp [hnil, setProgram]
  · have hsearch : searchFrom access name.toList (s.environment.get "PATH").toList 0 = search := by
      rw [searchFrom_eq, List.drop_zero, searched_splitOn hnil]
    simp only [hnil, if_false, hsearch]
    obtain ⟨tried, program⟩ := search
    cases program with
    | none => rfl
    | some path => rfl

/-- The search is right if it is one of the non-empty components. -/
theorem looksUp_of_tryAll {access : List Char → Bool} {s : SpawnArgs} {name : String}
    (h : tryAll access name.toList (searchedOf (s.environment.get "PATH").toList)
      = tryAll access name.toList (pathComponents (s.environment.get "PATH").toList)) :
    LooksUp access s name := by
  unfold LooksUp
  simp only [findProgramInPath_eq, h, tryAll_snd, Option.isSome_map, List.find?_isSome, true_and]
  exact fun path hpath => mem_of_tryAll hpath

/-- The empty component behind the others is tried if none of them has the file. -/
theorem fileIn_nil_mem_tryAll {access : List Char → Bool} {name plist : List Char}
    (hends : plist.getLast? = some ':')
    (hnone : ∀ d ∈ pathComponents plist, executableIn access name d = false) :
    fileIn name [] ∈ (tryAll access name (searchedOf plist)).1 := by
  rw [searchedOf, if_pos hends, tryAll_append_of_none hnone, tryAll]
  apply List.mem_append_right
  split <;> exact List.mem_cons_self ..

theorem ne_nil_of_mem_pathComponents {plist d : List Char} (h : d ∈ pathComponents plist) :
    d ≠ [] := by
  simpa using (List.mem_filter.mp h).2

/-- The search is right where the PATH does not end in a separator, and also where
    it does but a component has the file. -/
theorem findProgramInPath_correct_iff (access : List Char → Bool) (s : SpawnArgs)
    (name : String) :
    LooksUp access s name ↔
      (s.environment.get "PATH").toList.getLast? ≠ some ':' ∨
        ∃ d ∈ pathComponents (s.environment.get "PATH").toList,
          executableIn access name.toList d = true := by
  constructor
  · rintro ⟨-, -, htried⟩
    rw [findProgramInPath_eq] at htried
    by_cases hends : (s.environment.get "PATH").toList.getLast? = some ':'
    · by_cases hfile : ∃ d ∈ pathComponents (s.environment.get "PATH").toList,
          executableIn access name.toList d = true
      · exact .inr hfile
      · have hnone : ∀ d ∈ pathComponents (s.environment.get "PATH").toList,
            executableIn access name.toList d = false := by
          intro d hd
          exact Bool.eq_false_iff.mpr fun hacc => hfile ⟨d, hd, hacc⟩
        obtain ⟨d, hd, heq⟩ := htried _ (fileIn_nil_mem_tryAll hends hnone)
        have hnil : d = [] := (List.append_cancel_right heq).symm
        exact absurd hnil (ne_nil_of_mem_pathComponents hd)
    · exact .inl hends
  · rintro (hends | ⟨d, hmem, hacc⟩)
    · apply looksUp_of_tryAll
      rw [searchedOf, if_neg hends, List.append_nil]
    · apply looksUp_of_tryAll
      exact tryAll_append_of_mem hmem hacc _

/-- With the PATH "/bin:" a program of the root directory is used. -/
theorem not_looksUp_of_trailing_separator :
    ¬ LooksUp (fun file => file = "/tool".toList)
      { program := "", args := [], environment := ({} : Environment).set "PATH" "/bin:" }
      "tool" := by
  rintro ⟨hfound, -, -⟩
  have hpath : ((({} : Environment).set "PATH" "/bin:").get "PATH").toList = "/bin:".toList := by
    rw [Environment.get, Environment.mMap_set]
    rfl
  rw [findProgramInPath_eq, hpath] at hfound
  obtain ⟨d, hd, hacc⟩ := hfound.mp (by decide)
  revert d
  decide

end SpawnArgs

end Arras4Core.Execute
