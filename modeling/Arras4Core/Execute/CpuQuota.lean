/-
  Arras4Core.Execute.CpuQuota

  `ControlGroup::getCpuQuota`, the cpu quota that a control group inherits: that of
  the nearest group that has one, up to the root.

  What the cgroup library holds for a path is a parameter, the period and the
  quota of the group or the exception of `getCpuQuotaRaw`.
-/

import Arras4Core.Lib.Text
import Mathlib.Data.List.Infix

namespace Arras4Core.Execute

open Arras4Core.Lib.Text

/-- The three outputs. -/
structure CpuQuota where
  cores : Float32
  period : Int64
  quota : Int64

namespace ControlGroup

variable {ε : Type} (cgroup : List Char → Except ε (Int64 × Int64))

def getCpuQuotaRaw (groupPath : List Char) : Except ε CpuQuota :=
  match cgroup groupPath with
  | .error e => .error e
  | .ok (cpuPeriod, cpuQuota) =>
    .ok
      { cores :=
          if cpuQuota ≥ 0 && cpuPeriod > 0 then cpuQuota.toFloat32 / cpuPeriod.toFloat32 else -1.0
        period := cpuPeriod
        quota := cpuQuota }

/-- The path of the next round; `none` where the loop breaks. -/
def parentPath (localPath : List Char) : Option (List Char) :=
  match rfind localPath '/' with
  | some index => some (substr localPath 0 index)
  | none => if localPath.length = 0 then none else some []

theorem parentPath_append (parent : List Char) {name : List Char} (h : '/' ∉ name) :
    parentPath (parent ++ '/' :: name) = some parent := by
  rw [parentPath, rfind_append parent h]
  simp [substr]

theorem parentPath_of_not_mem {path : List Char} (hne : path ≠ []) (h : '/' ∉ path) :
    parentPath path = some [] := by
  rw [parentPath, rfind_of_not_mem h]
  exact if_neg fun hlen => hne (List.length_eq_zero_iff.mp hlen)

theorem length_of_parentPath {path parent : List Char} (h : parentPath path = some parent) :
    parent.length < path.length := by
  by_cases hmem : '/' ∈ path
  · obtain ⟨front, name, rfl, hname⟩ := eq_append_last hmem
    rw [parentPath_append front hname] at h
    cases h
    simp
  · by_cases hne : path = []
    · subst hne
      cases h
    · rw [parentPath_of_not_mem hne hmem] at h
      cases h
      exact List.length_pos_iff.mpr hne

/-- The loop of `getCpuQuota`.  `out` is what the outputs refer to. -/
def inheritQuota (localPath : List Char) (out : CpuQuota) : EStateM.Result ε CpuQuota PUnit :=
  match getCpuQuotaRaw cgroup localPath with
  | .error e => .error e out
  | .ok limits =>
    -- the function returns here, and the outputs are not written
    if limits.quota > -1 then .ok ⟨⟩ out
    else
      match _hparent : parentPath localPath with
      | some parent => inheritQuota parent out
      | none => .ok ⟨⟩ limits
termination_by localPath.length
decreasing_by exact length_of_parentPath _hparent

/-- The path without a leading '/'. -/
def stripSlash (groupPath : List Char) : List Char :=
  if groupPath.length > 0 && groupPath.head? = some '/' then substr groupPath 1 else groupPath

def getCpuQuota (groupPath : List Char) : EStateM ε CpuQuota PUnit := fun out =>
  inheritQuota cgroup (stripSlash groupPath) out

/-! ## What it is for -/

/-- A group and its ancestors, from the group to the root. -/
def groupAndAncestors (path : List Char) : List (List Char) :=
  ((path.splitOn '/').inits.reverse).map ['/'].intercalate

/-- The search for a quota ends at a group that has one, or whose values are not to
    be had. -/
def endsAt (group : List Char) : Bool :=
  match getCpuQuotaRaw cgroup group with
  | .error _ => true
  | .ok limits => limits.quota > -1

/-- Where the search ends, if it is not at the root for want of a quota. -/
def quotaGroup (groupPath : List Char) : Option (List Char) :=
  (groupAndAncestors (stripSlash groupPath)).find? (endsAt cgroup)

/-- The outputs are the values of the nearest group with a quota, or those of the
    root; they are left alone when a lookup throws. -/
def Inherits (groupPath : List Char) (out : CpuQuota) : Prop :=
  getCpuQuota cgroup groupPath out =
    match getCpuQuotaRaw cgroup ((quotaGroup cgroup groupPath).getD []) with
    | .ok limits => .ok ⟨⟩ limits
    | .error e => .error e out

/-! ## The way up -/

theorem groupAndAncestors_of_not_mem {path : List Char} (h : '/' ∉ path) :
    groupAndAncestors path = [path, []] := by
  rw [groupAndAncestors, List.splitOn_eq_singleton h]
  simp

/-- The ancestors of a group are its parent and the ancestors of the parent. -/
theorem groupAndAncestors_append (parent : List Char) {name : List Char} (h : '/' ∉ name) :
    groupAndAncestors (parent ++ '/' :: name)
      = (parent ++ '/' :: name) :: groupAndAncestors parent := by
  have hpath : ['/'].intercalate (parent.splitOn '/' ++ [name]) = parent ++ '/' :: name := by
    rw [← List.splitOn_eq_singleton h, ← List.splitOn_append_cons_self, List.intercalate_splitOn]
  simp only [groupAndAncestors]
  rw [List.splitOn_append_cons_self, List.splitOn_eq_singleton h, List.inits_append]
  simp [hpath]

theorem groupAndAncestors_eq_cons (path : List Char) :
    ∃ rest, groupAndAncestors path = path :: rest := by
  by_cases hmem : '/' ∈ path
  · obtain ⟨parent, name, rfl, hname⟩ := eq_append_last hmem
    exact ⟨_, groupAndAncestors_append parent hname⟩
  · exact ⟨_, groupAndAncestors_of_not_mem hmem⟩

/-- How a call ends whose search ends at `group`. -/
def endAt (group : Option (List Char)) (out : CpuQuota) : EStateM.Result ε CpuQuota PUnit :=
  match getCpuQuotaRaw cgroup (group.getD []) with
  | .error e => .error e out
  | .ok limits => .ok ⟨⟩ (if group.isSome then out else limits)

/-- A round at a group that the search ends at. -/
theorem inheritQuota_of_endsAt {path : List Char} (h : endsAt cgroup path = true)
    (out : CpuQuota) : inheritQuota cgroup path out = endAt cgroup (some path) out := by
  rw [inheritQuota, endAt, Option.getD_some]
  rw [endsAt] at h
  cases hraw : getCpuQuotaRaw cgroup path with
  | error e => rfl
  | ok limits =>
    rw [hraw] at h
    exact if_pos (of_decide_eq_true h)

/-- A round at another group. -/
theorem of_not_endsAt {path : List Char} (h : endsAt cgroup path = false) :
    ∃ limits, getCpuQuotaRaw cgroup path = .ok limits ∧ ¬ limits.quota > -1 := by
  rw [endsAt] at h
  cases hraw : getCpuQuotaRaw cgroup path with
  | error e =>
    rw [hraw] at h
    cases h
  | ok limits =>
    rw [hraw] at h
    exact ⟨limits, rfl, of_decide_eq_false h⟩

theorem inheritQuota_of_not_endsAt {path parent : List Char} (h : endsAt cgroup path = false)
    (hparent : parentPath path = some parent) (out : CpuQuota) :
    inheritQuota cgroup path out = inheritQuota cgroup parent out := by
  obtain ⟨limits, hraw, hquota⟩ := of_not_endsAt cgroup h
  rw [inheritQuota]
  simp only [hraw, hquota, if_false]
  split
  · next heq =>
    rw [hparent] at heq
    cases heq
    rfl
  · next heq =>
    rw [hparent] at heq
    cases heq

theorem inheritQuota_root (out : CpuQuota) :
    inheritQuota cgroup [] out = endAt cgroup ([[]].find? (endsAt cgroup)) out := by
  cases hends : endsAt cgroup [] with
  | true =>
    rw [inheritQuota_of_endsAt cgroup hends]
    simp [hends]
  | false =>
    obtain ⟨limits, hraw, hquota⟩ := of_not_endsAt cgroup hends
    rw [inheritQuota]
    simp [hends, hraw, hquota, endAt, parentPath, rfind]

/-- What the loop does, by the group that the search ends at. -/
theorem inheritQuota_eq (path : List Char) (out : CpuQuota) :
    inheritQuota cgroup path out
      = endAt cgroup ((groupAndAncestors path).find? (endsAt cgroup)) out := by
  induction hlen : path.length using Nat.strong_induction_on generalizing path with
  | _ n ih =>
    subst hlen
    obtain ⟨rest, hrest⟩ := groupAndAncestors_eq_cons path
    cases hends : endsAt cgroup path with
    | true =>
      rw [inheritQuota_of_endsAt cgroup hends, hrest, List.find?_cons, hends]
    | false =>
      by_cases hmem : '/' ∈ path
      · obtain ⟨parent, name, rfl, hname⟩ := eq_append_last hmem
        rw [inheritQuota_of_not_endsAt cgroup hends (parentPath_append parent hname) out,
          groupAndAncestors_append parent hname, List.find?_cons, hends]
        exact ih parent.length (by simp) parent rfl
      · rw [groupAndAncestors_of_not_mem hmem, List.find?_cons, hends]
        by_cases hne : path = []
        · subst hne
          exact inheritQuota_root cgroup out
        · rw [inheritQuota_of_not_endsAt cgroup hends (parentPath_of_not_mem hne hmem) out]
          exact inheritQuota_root cgroup out

/-! ## A call -/

/-- What the outputs get is that of the root if no group has a quota. -/
theorem getCpuQuota_eq (groupPath : List Char) (out : CpuQuota) :
    getCpuQuota cgroup groupPath out = endAt cgroup (quotaGroup cgroup groupPath) out :=
  inheritQuota_eq cgroup (stripSlash groupPath) out

/-- The outputs are right exactly where no group with a quota is found, or where
    they hold the values of the one that is found before the call. -/
theorem getCpuQuota_inherits_iff (groupPath : List Char) (out : CpuQuota) :
    Inherits cgroup groupPath out ↔
      ∀ group limits, quotaGroup cgroup groupPath = some group →
        getCpuQuotaRaw cgroup group = .ok limits → out = limits := by
  rw [Inherits, getCpuQuota_eq, endAt]
  cases hgroup : quotaGroup cgroup groupPath with
  | none =>
    rw [Option.getD_none]
    constructor
    · intro _ group limits hsome
      cases hsome
    · intro _
      cases getCpuQuotaRaw cgroup [] <;> rfl
  | some group =>
    rw [Option.getD_some]
    cases hraw : getCpuQuotaRaw cgroup group with
    | error e =>
      constructor
      · intro _ other limits hother hok
        obtain rfl := Option.some.inj hother
        rw [hraw] at hok
        cases hok
      · intro _
        rfl
    | ok limits =>
      constructor
      · rintro heq other limits' hother hok
        obtain rfl := Option.some.inj hother
        rw [hraw] at hok
        cases hok
        exact (EStateM.Result.ok.inj heq).2
      · intro h
        rw [h group limits rfl hraw]
        rfl

/-- A group of its own quota: the outputs stay as they are. -/
theorem not_inherits_of_quota :
    ¬ Inherits (ε := Unit) (fun _ => .ok (100000, 50000)) "arras".toList ⟨0.0, -1, -1⟩ := by
  intro h
  have hgroup : quotaGroup (ε := Unit) (fun _ => .ok (100000, 50000)) "arras".toList
      = some "arras".toList := by
    decide
  rw [Inherits, getCpuQuota_eq, hgroup] at h
  have hquota : (-1 : Int64) = 50000 := congrArg CpuQuota.quota (EStateM.Result.ok.inj h).2
  revert hquota
  decide

theorem root_mem_groupAndAncestors (path : List Char) : [] ∈ groupAndAncestors path :=
  List.mem_map.mpr ⟨[], by simp, rfl⟩

/-- A quota is never reported: the values that the outputs get are those of a root
    without one. -/
theorem quota_of_getCpuQuota {groupPath : List Char} {out out' : CpuQuota}
    (hout : ¬ out.quota > -1) (h : getCpuQuota cgroup groupPath out = .ok ⟨⟩ out') :
    ¬ out'.quota > -1 := by
  rw [getCpuQuota_eq, endAt] at h
  cases hraw : getCpuQuotaRaw cgroup ((quotaGroup cgroup groupPath).getD []) with
  | error e =>
    rw [hraw] at h
    cases h
  | ok limits =>
    rw [hraw] at h
    obtain rfl := (EStateM.Result.ok.inj h).2
    cases hgroup : quotaGroup cgroup groupPath with
    | some group => exact hout
    | none =>
      have hroot := List.find?_eq_none.mp hgroup [] (root_mem_groupAndAncestors _)
      obtain ⟨rootLimits, hrootRaw, hquota⟩ :=
        of_not_endsAt cgroup (Bool.eq_false_iff.mpr hroot)
      rw [hgroup, Option.getD_none, hrootRaw] at hraw
      cases hraw
      exact hquota

end ControlGroup

end Arras4Core.Execute
