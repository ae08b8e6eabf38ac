/-
  Arras4Core.Execute.TaskLimits

  `ControlGroup::getTaskLimits`, the limits of a process from its membership file
  "/proc/<pid>/cgroup".  The loop over the lines of the file keeps the path of a line
  whose list of controllers is "memory", and of one whose list is "cpu".  Of
  controllers that are mounted together ("cpu,cpuacct") it finds neither.

  What `getMemoryStats` and `getCpuQuotaRaw` get from the cgroup library for a path
  are parameters.  An exception is its text.
-/

import Arras4Core.Execute.CpuQuota

namespace Arras4Core.Execute

open Arras4Core.Lib.Text

namespace ControlGroup

/-! ## The functions -/

/-- The line at the front of a file, with its newline, and what comes after it. -/
def getline : List Char → List Char × List Char
  | [] => ([], [])
  | c :: input =>
    if c = '\n' then ([c], input)
    else
      let (line, rest) := getline input
      (c :: line, rest)

/-- The two variables of the loop. -/
structure GroupPaths where
  memoryGroupPath : List Char := []
  cpuGroupPath : List Char := []

/-- `controller == "memory"` and the other comparison. -/
def keepPath (paths : GroupPaths) (controller path : List Char) : GroupPaths :=
  if controller = "memory".toList then { paths with memoryGroupPath := path }
  else if controller = "cpu".toList then { paths with cpuGroupPath := path }
  else paths

/-- What the loop does with `cgroupLine`. -/
def parseLine (cgroupFilePath : String) (paths : GroupPaths) (cgroupLine : List Char) :
    Except String GroupPaths :=
  match find cgroupLine ':' 0 with
  | none => .error ("Error parsing " ++ cgroupFilePath)
  | some first =>
    match find cgroupLine ':' (first + 1) with
    | none => .error ("Error parsing " ++ cgroupFilePath)
    | some second =>
      .ok (keepPath paths (substr cgroupLine (first + 1) (some (second - first - 1)))
        (substr cgroupLine (second + 1)))

theorem length_getline (input : List Char) :
    (getline input).1.length + (getline input).2.length = input.length := by
  induction input with
  | nil => rfl
  | cons c input ih =>
    rw [getline]
    split
    · simp [Nat.add_comm]
    · simp only [List.length_cons]
      omega

/-- The parsing loop, at `input`. -/
def parseGroups (cgroupFilePath : String) (input : List Char) (paths : GroupPaths) :
    Except String GroupPaths :=
  match _hline : getline input with
  | (line, rest) =>
    if _hsize : line.length < 1 then .ok paths
    else
      -- `line[size-1] = 0`
      match parseLine cgroupFilePath paths (cStr (line.set (line.length - 1) '\x00')) with
      | .error e => .error e
      | .ok paths => parseGroups cgroupFilePath rest paths
termination_by input.length
decreasing_by
  have hlen := length_getline input
  simp only [_hline] at hlen
  omega

structure MemoryStats where
  hierarchical_memory_limit : UInt64
  hierarchical_memsw_limit : UInt64

/-- The outputs. -/
structure TaskLimits where
  memLimitReal : UInt64
  memLimitRealAndSwap : UInt64
  cpuLimit : Float32
  period : Int64
  quota : Int64

/-- `file` is the content of the file if it can be opened. -/
def getTaskLimits (cgroup : List Char → Except String (Int64 × Int64))
    (getMemoryStats : List Char → Except String MemoryStats) (pid : Nat)
    (file : Option (List Char)) : EStateM String TaskLimits PUnit := fun out =>
  let cgroupFilePath := "/proc/" ++ toString pid ++ "/cgroup"
  match file with
  | none => .error "Can't open the processes cgroup file" out
  | some input =>
    match parseGroups cgroupFilePath input {} with
    | .error e => .error e out
    | .ok paths =>
      if paths.memoryGroupPath = [] ∨ paths.cpuGroupPath = [] then
        .error "Couldn't get the cgroups paths" out
      else
        match getMemoryStats paths.memoryGroupPath with
        | .error e => .error e out
        | .ok stats =>
          match getCpuQuota cgroup paths.cpuGroupPath ⟨-1.0, -1, -1⟩ with
          | .error e _ => .error e out
          | .ok _ limits =>
            .ok ⟨⟩
              { cpuLimit := limits.cores
                period := limits.period
                quota := limits.quota
                memLimitReal := stats.hierarchical_memory_limit
                memLimitRealAndSwap := stats.hierarchical_memsw_limit }

/-! ## The file -/

/-- A line "id:controllers:path". -/
structure CgroupLine where
  id : List Char
  controllers : List (List Char)
  path : List Char
  id_ok : ∀ c ∈ [':', '\n', '\x00'], c ∉ id
  controllers_ok : ∀ name ∈ controllers, ∀ c ∈ [':', ',', '\n', '\x00'], c ∉ name
  path_ok : '\n' ∉ path

namespace CgroupLine

/-- The comma-separated list. -/
def list (line : CgroupLine) : List Char := [','].intercalate line.controllers

def text (line : CgroupLine) : List Char := line.id ++ ':' :: (line.list ++ ':' :: line.path)

def Lists (line : CgroupLine) (controller : String) : Prop :=
  controller.toList ∈ line.controllers

/-- The controller is mounted by itself. -/
def alone (controller : String) (line : CgroupLine) : Bool :=
  line.controllers = [controller.toList]

end CgroupLine

/-- The content of a file. -/
def fileText (lines : List CgroupLine) : List Char :=
  lines.flatMap fun line => line.text ++ ['\n']

/-- The path of the loop is that of a line that lists the controller. -/
def PathOf (lines : List CgroupLine) (controller : String) (path : List Char) : Prop :=
  ∃ line ∈ lines, line.Lists controller ∧ line.path = path

/-- The loop ends with the paths of a line that lists "memory" and of one that lists
    "cpu". -/
def FindsGroups (cgroupFilePath : String) (lines : List CgroupLine) : Prop :=
  ∃ paths, parseGroups cgroupFilePath (fileText lines) {} = .ok paths ∧
    PathOf lines "memory" paths.memoryGroupPath ∧ PathOf lines "cpu" paths.cpuGroupPath

/-- The last line that has the controller by itself. -/
def aloneLine (lines : List CgroupLine) (controller : String) : Option CgroupLine :=
  (lines.filter (CgroupLine.alone controller)).getLast?

/-- The controller is by itself on some line, and the path of the last such line has no
    zero in it.  The other cases are coincidences: the path that is kept is
    that of another line. -/
def Recognized (lines : List CgroupLine) (controller : String) : Prop :=
  match aloneLine lines controller with
  | some line => '\x00' ∉ line.path ∨ PathOf lines controller (cStr line.path)
  | none => PathOf lines controller []

/-! ## One line -/

theorem not_mem_list (line : CgroupLine) {c : Char} (hc : c ∈ [':', '\n', '\x00']) :
    c ∉ line.list := by
  intro hmem
  rcases mem_intercalate hmem with rfl | ⟨name, hname, hcname⟩
  · revert hc
    decide
  · refine line.controllers_ok name hname c ?_ hcname
    simp only [List.mem_cons, List.not_mem_nil, or_false] at hc ⊢
    rcases hc with hc | hc | hc <;> simp [hc]

/-- The list is a single controller only if that is all it has. -/
theorem list_eq_iff (line : CgroupLine) {controller : List Char} (hne : controller ≠ [])
    (hcomma : ',' ∉ controller) : line.list = controller ↔ line.controllers = [controller] := by
  constructor
  · intro h
    have hsplit : line.list.splitOn ',' = [controller] := by
      rw [h, List.splitOn_eq_singleton hcomma]
    have hcontrollers : line.controllers ≠ [] := by
      intro hnil
      rw [CgroupLine.list, hnil] at h
      exact hne h.symm
    rw [← hsplit, CgroupLine.list, List.splitOn_intercalate _ _ hcontrollers]
    intro name hname
    exact line.controllers_ok name hname ',' (by decide)
  · intro h
    rw [CgroupLine.list, h]
    simp

theorem parseLine_eq (cgroupFilePath : String) (paths : GroupPaths) {id list path : List Char}
    (hid : ':' ∉ id) (hlist : ':' ∉ list) :
    parseLine cgroupFilePath paths (id ++ ':' :: (list ++ ':' :: path))
      = .ok (keepPath paths list path) := by
  have hfirst : find (id ++ ':' :: (list ++ ':' :: path)) ':' 0 = some id.length := by
    rw [find_of_drop List.drop_zero hid, Nat.zero_add]
  have hdrop : (id ++ ':' :: (list ++ ':' :: path)).drop (id.length + 1) = list ++ ':' :: path := by
    simp
  have hsecond : find (id ++ ':' :: (list ++ ':' :: path)) ':' (id.length + 1)
      = some (id.length + 1 + list.length) := find_of_drop hdrop hlist
  have hpath :
      (id ++ ':' :: (list ++ ':' :: path)).drop (id.length + 1 + list.length + 1) = path := by
    rw [Nat.add_assoc, ← List.drop_drop, hdrop]
    simp
  have hlen : id.length + 1 + list.length - id.length - 1 = list.length := by omega
  rw [parseLine, hfirst]
  simp only [hsecond, substr, hdrop, hpath, hlen]
  rw [List.take_left]

/-- What the loop does to its variables at a line. -/
def keepLine (paths : GroupPaths) (line : CgroupLine) : GroupPaths :=
  keepPath paths line.list (cStr line.path)

theorem newline_not_mem_text (line : CgroupLine) : '\n' ∉ line.text := by
  have hid : '\n' ∉ line.id := line.id_ok '\n' (by decide)
  have hlist : '\n' ∉ line.list := not_mem_list line (by decide)
  simp [CgroupLine.text, hid, hlist, line.path_ok]

theorem cStr_text (line : CgroupLine) :
    cStr (line.text ++ ['\x00']) = line.id ++ ':' :: (line.list ++ ':' :: cStr line.path) := by
  have hfront : '\x00' ∉ line.id ++ ':' :: (line.list ++ [':']) := by
    have hid : '\x00' ∉ line.id := line.id_ok '\x00' (by decide)
    have hlist : '\x00' ∉ line.list := not_mem_list line (by decide)
    simp [hid, hlist]
  have htext : line.text ++ ['\x00']
      = (line.id ++ ':' :: (line.list ++ [':'])) ++ (line.path ++ ['\x00']) := by
    simp [CgroupLine.text]
  rw [htext, cStr_append hfront, cStr_append_nul]
  simp

theorem getline_append {line : List Char} (h : '\n' ∉ line) (rest : List Char) :
    getline (line ++ '\n' :: rest) = (line ++ ['\n'], rest) := by
  induction line with
  | nil => rfl
  | cons c line ih =>
    obtain ⟨hne, hline⟩ := List.ne_and_not_mem_of_not_mem_cons h
    rw [List.cons_append, getline, if_neg hne.symm, ih hline]
    rfl

/-- A round of the loop at a line. -/
theorem parseGroups_line (cgroupFilePath : String) (line : CgroupLine) (rest : List Char)
    (paths : GroupPaths) :
    parseGroups cgroupFilePath (line.text ++ ['\n'] ++ rest) paths
      = parseGroups cgroupFilePath rest (keepLine paths line) := by
  have hline : getline (line.text ++ ['\n'] ++ rest) = (line.text ++ ['\n'], rest) := by
    rw [List.append_assoc]
    exact getline_append (newline_not_mem_text line) rest
  have hset : (line.text ++ ['\n']).set ((line.text ++ ['\n']).length - 1) '\x00'
      = line.text ++ ['\x00'] := by
    simp
  have hparse : parseLine cgroupFilePath paths (_ ++ ':' :: (_ ++ ':' :: cStr line.path)) = _ :=
    parseLine_eq cgroupFilePath paths (line.id_ok ':' (by decide))
      (not_mem_list line (c := ':') (by decide))
  rw [parseGroups]
  simp only [hline, hset, cStr_text, hparse]
  simp [keepLine]

/-! ## The file -/

/-- The loop goes over the lines. -/
theorem parseGroups_fileText (cgroupFilePath : String) (lines : List CgroupLine)
    (paths : GroupPaths) :
    parseGroups cgroupFilePath (fileText lines) paths = .ok (lines.foldl keepLine paths) := by
  induction lines generalizing paths with
  | nil =>
    rw [fileText, List.flatMap_nil, parseGroups]
    rfl
  | cons line lines ih =>
    rw [fileText, List.flatMap_cons, parseGroups_line]
    exact ih (keepLine paths line)

theorem memoryGroupPath_keepLine (paths : GroupPaths) (line : CgroupLine) :
    (keepLine paths line).memoryGroupPath
      = if line.alone "memory" then cStr line.path else paths.memoryGroupPath := by
  have halone : line.list = "memory".toList ↔ _ := list_eq_iff line (by decide) (by decide)
  unfold keepLine keepPath CgroupLine.alone
  simp only [halone, decide_eq_true_eq]
  split
  · rfl
  · split <;> rfl

theorem cpuGroupPath_keepLine (paths : GroupPaths) (line : CgroupLine) :
    (keepLine paths line).cpuGroupPath
      = if line.alone "cpu" then cStr line.path else paths.cpuGroupPath := by
  have hmemory : line.list = "memory".toList ↔ _ := list_eq_iff line (by decide) (by decide)
  have hcpu : line.list = "cpu".toList ↔ _ := list_eq_iff line (by decide) (by decide)
  unfold keepLine keepPath CgroupLine.alone
  simp only [hmemory, hcpu, decide_eq_true_eq]
  by_cases halone : line.controllers = ["memory".toList]
  · -- the list is not "cpu" as well
    rw [if_pos halone, if_neg]
    rw [halone]
    decide
  · rw [if_neg halone]
    split <;> rfl

/-- A path of the loop is that of the last line with its controller by itself. -/
theorem get_foldl_keepLine {get : GroupPaths → List Char} {controller : String}
    (hstep : ∀ paths line, get (keepLine paths line)
      = if CgroupLine.alone controller line then cStr line.path else get paths)
    (lines : List CgroupLine) (paths : GroupPaths) :
    get (lines.foldl keepLine paths)
      = ((aloneLine lines controller).map fun line => cStr line.path).getD (get paths) := by
  induction lines generalizing paths with
  | nil => rfl
  | cons line lines ih =>
    rw [List.foldl_cons, ih, hstep, aloneLine, aloneLine, List.filter_cons]
    cases hlast : (lines.filter (CgroupLine.alone controller)).getLast? with
    | some last =>
      by_cases halone : CgroupLine.alone controller line = true <;>
        simp [halone, List.getLast?_cons, hlast]
    | none =>
      have hnil := List.getLast?_eq_none_iff.mp hlast
      by_cases halone : CgroupLine.alone controller line = true <;> simp [halone, hnil]

theorem mem_of_aloneLine {lines : List CgroupLine} {controller : String} {line : CgroupLine}
    (h : aloneLine lines controller = some line) : line ∈ lines ∧ line.Lists controller := by
  obtain ⟨hmem, halone⟩ := List.mem_filter.mp (List.mem_of_getLast? h)
  refine ⟨hmem, ?_⟩
  rw [CgroupLine.Lists, of_decide_eq_true halone]
  exact List.mem_singleton_self _

theorem pathOf_iff_recognized (lines : List CgroupLine) (controller : String) :
    PathOf lines controller
        (((aloneLine lines controller).map fun line => cStr line.path).getD [])
      ↔ Recognized lines controller := by
  unfold Recognized
  cases halone : aloneLine lines controller with
  | none => exact Iff.rfl
  | some line =>
    refine ⟨Or.inr, ?_⟩
    rintro (hnul | hpath)
    · obtain ⟨hmem, hlists⟩ := mem_of_aloneLine halone
      exact ⟨line, hmem, hlists, (cStr_of_not_mem hnul).symm⟩
    · exact hpath

/-- The groups are found exactly where the file has a line for each of the two
    controllers by itself, a coincidence apart. -/
theorem getTaskLimits_findsGroups_iff (cgroupFilePath : String) (lines : List CgroupLine) :
    FindsGroups cgroupFilePath lines ↔ Recognized lines "memory" ∧ Recognized lines "cpu" := by
  rw [← pathOf_iff_recognized, ← pathOf_iff_recognized]
  have hmemory := get_foldl_keepLine memoryGroupPath_keepLine lines {}
  have hcpu := get_foldl_keepLine cpuGroupPath_keepLine lines {}
  unfold FindsGroups
  rw [parseGroups_fileText, ← hmemory, ← hcpu]
  constructor
  · rintro ⟨paths, hpaths, hfound⟩
    cases hpaths
    exact hfound
  · intro hfound
    exact ⟨_, rfl, hfound⟩

theorem not_mem_of_all {special name : List Char}
    (h : (special.all fun c => !name.contains c) = true) : ∀ c ∈ special, c ∉ name := by
  intro c hc
  simpa using List.all_eq_true.mp h c hc

theorem forall_not_mem_of_all {special : List Char} {names : List (List Char)}
    (h : (names.all fun name => special.all fun c => !name.contains c) = true) :
    ∀ name ∈ names, ∀ c ∈ special, c ∉ name :=
  fun name hname => not_mem_of_all (List.all_eq_true.mp h name hname)

/-- Where "cpu" is mounted together with "cpuacct" its path is not found. -/
theorem not_findsGroups_of_comounted :
    ¬ FindsGroups "/proc/1/cgroup"
      [{ id := ['4'], controllers := ["memory".toList], path := "/arras".toList,
         id_ok := not_mem_of_all (by decide), controllers_ok := forall_not_mem_of_all (by decide)
         path_ok := by decide },
       { id := ['3'], controllers := ["cpu".toList, "cpuacct".toList], path := "/arras".toList,
         id_ok := not_mem_of_all (by decide), controllers_ok := forall_not_mem_of_all (by decide)
         path_ok := by decide }] := by
  rintro ⟨paths, hpaths, -, hcpu⟩
  rw [parseGroups_fileText] at hpaths
  cases hpaths
  obtain ⟨line, hmem, -, hpath⟩ := hcpu
  have hnil : line.path = [] := hpath
  simp only [List.mem_cons, List.not_mem_nil, or_false] at hmem
  rcases hmem with rfl | rfl
  · cases hnil
  · cases hnil

/-! ## The limits -/

/-- The quota that is reported is never greater than -1: where a group has one, the
    output of `getCpuQuota` is not written. -/
theorem quota_of_getTaskLimits {cgroup : List Char → Except String (Int64 × Int64)}
    {getMemoryStats : List Char → Except String MemoryStats} {pid : Nat}
    {file : Option (List Char)} {out out' : TaskLimits}
    (h : getTaskLimits cgroup getMemoryStats pid file out = .ok ⟨⟩ out') :
    ¬ out'.quota > -1 := by
  unfold getTaskLimits at h
  cases file with
  | none => cases h
  | some input =>
    cases hparse : parseGroups ("/proc/" ++ toString pid ++ "/cgroup") input {} with
    | error e =>
      simp only [hparse] at h
      cases h
    | ok paths =>
      simp only [hparse] at h
      split at h
      · cases h
      · cases hstats : getMemoryStats paths.memoryGroupPath with
        | error e =>
          simp only [hstats] at h
          cases h
        | ok stats =>
          cases hquota : getCpuQuota cgroup paths.cpuGroupPath ⟨-1.0, -1, -1⟩ with
          | error e s =>
            simp only [hstats, hquota] at h
            cases h
          | ok _ limits =>
            simp only [hstats, hquota] at h
            obtain rfl := (EStateM.Result.ok.inj h).2
            exact quota_of_getCpuQuota cgroup (by decide) hquota

end ControlGroup

end Arras4Core.Execute
