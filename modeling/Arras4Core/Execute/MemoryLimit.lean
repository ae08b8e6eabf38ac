/-
  Arras4Core.Execute.MemoryLimit

  The memory limit of a control group and the loans of its process.
  `createControlSubgroup` sets the limit to the memory the process was assigned,
  or to none, and `handleOomCondition` sets it to the memory reserved for the
  process and its loans.  The two fit together as long as the process has reserved
  what its control group was created with.
-/

import Arras4Core.Execute.ControlSubgroups

namespace Arras4Core.Execute

open Arras4Core.Lib

/-! ## The limits in bytes -/

namespace ControlGroup

variable {cgroups cgroups' : String → Option Cgroup} {groupPath : String} {fails : Bool}

/-- A limit that is small enough is the limit of the group. -/
theorem createLimit_of_le {memLimit : UInt64} (hpos : 0 < memLimit) (hle : memLimit ≤ huge) :
    createLimit memLimit = memLimit := by
  unfold createLimit
  rw [if_neg (UInt64.pos_iff_ne_zero.mp hpos)]
  exact if_neg (UInt64.not_lt.mpr hle)

/-- Without a limit it is 2^48. -/
theorem createLimit_zero : createLimit 0 = huge := by decide

theorem create_eq_some {bytes : UInt64} {pauseOnOom : Bool}
    (h : create cgroups groupPath bytes bytes pauseOnOom fails = some cgroups') :
    fails = false ∧ ∃ group, group.limitInBytes = createLimit bytes ∧
      group.memswLimitInBytes = group.limitInBytes ∧ group.createdWith = group.limitInBytes ∧
      cgroups' = Function.update cgroups groupPath (some group) := by
  unfold create at h
  simp only [UInt64.lt_irrefl, if_false] at h
  cases fails with
  | true => cases h
  | false =>
    cases h
    exact ⟨rfl, _, rfl, rfl, rfl, rfl⟩

theorem changeMemoryLimit_of_some {group : Cgroup} (h : cgroups groupPath = some group)
    (total : UInt64) :
    changeMemoryLimit cgroups groupPath total total false = some (Function.update cgroups groupPath
      (some { group with limitInBytes := total, memswLimitInBytes := total })) := by
  unfold changeMemoryLimit
  rw [h]
  rfl

end ControlGroup

/-- The group under a path, when one path has been written to. -/
theorem group_of_update {cgroups : String → Option Cgroup} {path path' : String}
    {written : Option Cgroup} {group : Cgroup}
    (h : Function.update cgroups path written path' = some group) :
    path' = path ∧ written = some group ∨ path' ≠ path ∧ cgroups path' = some group := by
  by_cases hpath : path' = path
  · subst hpath
    rw [Function.update_self] at h
    exact .inl ⟨rfl, h⟩
  · rw [Function.update_of_ne hpath] at h
    exact .inr ⟨hpath, h⟩

/-- The 64-bit product of a 32-bit number of megabytes does not wrap around. -/
theorem toNat_mul_ONE_MB (mb : UInt32) : (mb.toUInt64 * ONE_MB).toNat = mb.toNat * 2 ^ 20 := by
  have hlt := mb.toNat_lt
  rw [UInt64.toNat_mul, UInt32.toNat_toUInt64]
  show mb.toNat * 2 ^ 20 % 2 ^ 64 = mb.toNat * 2 ^ 20
  omega

/-! ## What is asked of the limits -/

/-- The loan raised the limit by what was lent. -/
def Loan.Exact (loan : Loan) : Prop :=
  ∃ before after, loan.before = some before ∧ loan.after = some after ∧
    after.toNat = before.toNat + loan.borrowed.toNat * 2 ^ 20

namespace ControlSubgroups

variable {s s' : ControlSubgroups}

/-- The limit of a group that was created for a process is the one it was created with
    and what the process has borrowed, and every loan has raised it by what was lent. -/
structure LimitsExact (s : ControlSubgroups) : Prop where
  limit : ∀ p, s.mCGroupExists p = true → ∀ group, s.cgroups (s.groupPath p) = some group →
    group.limitInBytes.toNat =
        group.createdWith.toNat + (s.manager.objects p).mBorrowedMb.toNat * 2 ^ 20 ∧
      group.memswLimitInBytes = group.limitInBytes
  loans : ∀ loan ∈ s.loans, loan.Exact

/-- A group is created for a process that has borrowed nothing and shares its id with no
    other process that has a group; a loan goes to a process whose group was created with
    what is reserved for the process, the sum of its memory fits in 32 bits, and the call of
    libcgroup succeeds. -/
def LoansCovered (s : ControlSubgroups) : Event → Prop
  | .createsSubgroup t false => ∀ p ∈ s.creating t, s.mCGroupExists p = false →
    (s.manager.objects p).mBorrowedMb = 0 ∧ ∀ q < s.manager.created, q ≠ p →
      s.mCGroupExists q = true → s.groupPath q ≠ s.groupPath p
  | .lends _ p borrowed fails => fails = false ∧ s.mCGroupExists p = true ∧
    (∃ group ∈ s.cgroups (s.groupPath p),
      group.createdWith.toNat = (s.manager.objects p).mReservedMb.toNat * 2 ^ 20) ∧
    (s.manager.objects p).mBorrowedMb.toNat + borrowed.toNat +
      (s.manager.objects p).mReservedMb.toNat < 2 ^ 32
  | _ => True

instance (s : ControlSubgroups) : (e : Event) → Decidable (s.LoansCovered e)
  | .createsSubgroup _ false => inferInstanceAs (Decidable (∀ _ ∈ _, _ → _ ∧ ∀ _ < _, _))
  | .lends .. => inferInstanceAs (Decidable (_ ∧ _ ∧ (∃ _ ∈ _, _) ∧ _))
  | .manager _ | .spawns .. | .createsSubgroup _ true | .destroysSubgroup .. | .stopsMonitoring _ =>
    .isTrue trivial

/-! ## The invariant -/

/-- The limits, and whose groups they are. -/
structure LimitsKept (s : ControlSubgroups) : Prop where
  known : s.manager.Known
  constructed : ∀ p, s.mCGroupExists p = true → p < s.manager.created
  own : ∀ p q, s.mCGroupExists p = true → s.mCGroupExists q = true →
    s.groupPath p = s.groupPath q → p = q
  exact : s.LimitsExact

/-- A step that changes no limit, no loan and no id. -/
theorem LimitsKept.of_same (h : s.LimitsKept) (hknown : s'.manager.Known)
    (hcreated : s.manager.created ≤ s'.manager.created)
    (hpaths : ∀ p < s.manager.created, s'.groupPath p = s.groupPath p)
    (hborrowed : ∀ p, (s'.manager.objects p).mBorrowedMb = (s.manager.objects p).mBorrowedMb)
    (hcgroups : s'.cgroups = s.cgroups) (hexists : ∀ p, s'.mCGroupExists p = true →
      s.mCGroupExists p = true)
    (hloans : s'.loans = s.loans) : s'.LimitsKept where
  known := hknown
  constructed p hp := Nat.lt_of_lt_of_le (h.constructed p (hexists p hp)) hcreated
  own p q hp hq heq := by
    have hp := hexists p hp
    have hq := hexists q hq
    rw [hpaths p (h.constructed p hp), hpaths q (h.constructed q hq)] at heq
    exact h.own p q hp hq heq
  exact :=
    { limit := fun p hp group hgroup => by
        have hp := hexists p hp
        rw [hcgroups, hpaths p (h.constructed p hp)] at hgroup
        rw [hborrowed]
        exact h.exact.limit p hp group hgroup
      loans := hloans ▸ h.exact.loans }

/-- The path of a group, after a step of the manager. -/
theorem groupPath_eq (hgroup : s'.mControlGroup.mBaseGroup = s.mControlGroup.mBaseGroup) {p : Nat}
    (hid : (s'.manager.objects p).mId = (s.manager.objects p).mId) :
    s'.groupPath p = s.groupPath p := by
  unfold groupPath subgroupName ControlGroup.getFullGroupName
  rw [hgroup, hid]

theorem LimitsKept.manager (h : s.LimitsKept) {e : ProcessManager.Event}
    (hs : s.manager.step e = some s'.manager) (hlends : ∀ t p borrowed, e ≠ .lends t p borrowed)
    (hsame : SameGroups s s') : s'.LimitsKept := by
  replace hs := ProcessManager.next_of_step hs
  refine h.of_same (h.known.next hs) (ProcessManager.created_le_next hs) (fun p hp => ?_)
    (fun p => ?_) hsame.cgroups (fun p hp => hsame.mCGroupExists ▸ hp) hsame.loans
  · refine groupPath_eq (congrArg _ hsame.mControlGroup) ?_
    exact (ProcessManager.stepOn_next hs p).id hp
  · exact (ProcessManager.stepOn_next hs p).borrowed fun t borrowed => hlends t p borrowed

/-- What `createControlSubgroup` does, unless it does nothing. -/
theorem createControlSubgroup_cases (s : ControlSubgroups) (p : Nat) (fails : Bool) :
    s.createControlSubgroup p fails = s ∨
      fails = false ∧ s.mCGroupExists p = false ∧ ∃ group : Cgroup,
        group.createdWith = group.limitInBytes ∧
        group.memswLimitInBytes = group.limitInBytes ∧
        group.limitInBytes = ControlGroup.createLimit
          (if s.mEnforceMemory p then (s.manager.objects p).mAssignedMb.toUInt64 * ONE_MB else 0) ∧
        s.createControlSubgroup p fails =
          { s with
            cgroups := Function.update s.cgroups (s.groupPath p) (some group)
            mCGroupExists := Function.update s.mCGroupExists p true } := by
  unfold createControlSubgroup
  split
  · exact .inl rfl
  · next hexists =>
    dsimp only
    split
    · next hcreate =>
      obtain ⟨hfails, group, hlimit, hmemsw, hcreated, rfl⟩ := ControlGroup.create_eq_some hcreate
      exact .inr ⟨hfails, by simpa using hexists, group, hcreated, hmemsw, hlimit, rfl⟩
    · exact .inl rfl

/-- What `destroyControlSubgroup` does to the groups. -/
theorem destroyControlSubgroup_cases (s : ControlSubgroups) (p : Nat) (outcome : Destroyed) :
    (s.destroyControlSubgroup p outcome).mControlGroup.mBaseGroup = s.mControlGroup.mBaseGroup ∧
    (s.destroyControlSubgroup p outcome).loans = s.loans ∧
    (∀ q, (s.destroyControlSubgroup p outcome).mCGroupExists q = true →
      s.mCGroupExists q = true) ∧
    ((s.destroyControlSubgroup p outcome).cgroups = s.cgroups ∨
      s.mCGroupExists p = true ∧ (s.destroyControlSubgroup p outcome).mCGroupExists p = false ∧
      (s.destroyControlSubgroup p outcome).cgroups =
        Function.update s.cgroups (s.groupPath p) none) := by
  unfold destroyControlSubgroup
  split
  · exact ⟨rfl, rfl, fun _ hq => hq, .inl rfl⟩
  · next hexists =>
    have hforgets : ∀ q, Function.update s.mCGroupExists p false q = true →
        s.mCGroupExists q = true := by
      intro q hq
      by_cases heq : q = p
      · rw [heq, Function.update_self] at hq
        cases hq
      · rw [Function.update_of_ne heq] at hq
        exact hq
    cases outcome with
    | throws => exact ⟨rfl, rfl, fun _ hq => hq, .inl rfl⟩
    | left => exact ⟨rfl, rfl, hforgets, .inl rfl⟩
    | removed =>
      refine ⟨rfl, rfl, hforgets, .inr ⟨by simpa using hexists, ?_, rfl⟩⟩
      exact Function.update_self ..

theorem LimitsKept.creates (h : s.LimitsKept) {t p : Nat} {fails : Bool}
    (hcall : s.manager.calls t = .fork p)
    (hcond : s.LoansCovered (.createsSubgroup t fails)) (hmanager : s'.manager = s.manager)
    (hsame : SameGroups (s.createControlSubgroup p fails) s') : s'.LimitsKept := by
  have hpaths : ∀ q, s'.groupPath q = s.groupPath q := by
    intro q
    refine groupPath_eq ?_ (by rw [hmanager])
    rw [hsame.mControlGroup, createControlSubgroup_mControlGroup]
  have hknown : s'.manager.Known := hmanager ▸ h.known
  rcases s.createControlSubgroup_cases p fails with
    heq | ⟨rfl, hexists, group, hcreated, hmemsw, -, heq⟩
  · rw [heq] at hsame
    exact h.of_same hknown (by rw [hmanager]) (fun q _ => hpaths q) (fun q => by rw [hmanager])
      hsame.cgroups (fun q hq => hsame.mCGroupExists ▸ hq) hsame.loans
  · obtain ⟨hborrowed, hown⟩ := hcond p (by rw [creating, hcall]; rfl) hexists
    rw [heq] at hsame
    have hother : ∀ {q}, q ≠ p → s'.mCGroupExists q = true → s.mCGroupExists q = true := by
      intro q hq hexists'
      rw [hsame.mCGroupExists] at hexists'
      exact (Function.update_of_ne hq ..).symm.trans hexists'
    refine ⟨hknown, fun q hq => ?_, fun q r hq hr hpath => ?_, fun q hq group' hgroup => ?_,
      hsame.loans ▸ h.exact.loans⟩
    · rw [hmanager]
      by_cases hqp : q = p
      · exact hqp ▸ h.known.calls t p (by rw [hcall]; rfl)
      · exact h.constructed q (hother hqp hq)
    · rw [hpaths, hpaths] at hpath
      by_cases hqp : q = p
      · by_cases hrp : r = p
        · exact hqp.trans hrp.symm
        · exact absurd (hqp ▸ hpath).symm
            (hown r (h.constructed r (hother hrp hr)) hrp (hother hrp hr))
      · by_cases hrp : r = p
        · exact absurd (hrp ▸ hpath)
            (hown q (h.constructed q (hother hqp hq)) hqp (hother hqp hq))
        · exact h.own q r (hother hqp hq) (hother hrp hr) hpath
    · rw [hsame.cgroups, hpaths] at hgroup
      dsimp only at hgroup
      rw [hmanager]
      by_cases hqp : q = p
      · subst hqp
        obtain ⟨-, hgroup⟩ | ⟨hne, -⟩ := group_of_update hgroup
        · cases hgroup
          refine ⟨?_, hmemsw⟩
          rw [hcreated, hborrowed, UInt32.toNat_zero, Nat.zero_mul, Nat.add_zero]
        · exact absurd rfl hne
      · have hne := hown q (h.constructed q (hother hqp hq)) hqp (hother hqp hq)
        obtain ⟨heq, -⟩ | ⟨-, hgroup⟩ := group_of_update hgroup
        · exact absurd heq hne
        · exact h.exact.limit q (hother hqp hq) group' hgroup

theorem LimitsKept.destroys (h : s.LimitsKept) {p : Nat} {outcome : Destroyed}
    (hmanager : s'.manager = s.manager)
    (hsame : SameGroups (s.destroyControlSubgroup p outcome) s') : s'.LimitsKept := by
  obtain ⟨hbase, hloans, hexists, hgroups⟩ := s.destroyControlSubgroup_cases p outcome
  have hpaths : ∀ q, s'.groupPath q = s.groupPath q := by
    intro q
    exact groupPath_eq (by rw [hsame.mControlGroup, hbase]) (by rw [hmanager])
  have hknown : s'.manager.Known := hmanager ▸ h.known
  have hexists' : ∀ q, s'.mCGroupExists q = true → s.mCGroupExists q = true :=
    fun q hq => hexists q (hsame.mCGroupExists ▸ hq)
  rcases hgroups with hgroups | ⟨hp, hforgotten, hgroups⟩
  · exact h.of_same hknown (by rw [hmanager]) (fun q _ => hpaths q) (fun q => by rw [hmanager])
      (hsame.cgroups.trans hgroups) hexists' (hsame.loans.trans hloans)
  · refine ⟨hknown, fun q hq => hmanager ▸ h.constructed q (hexists' q hq),
      fun q r hq hr hpath => ?_, fun q hq group hgroup => ?_,
      (hsame.loans.trans hloans) ▸ h.exact.loans⟩
    · rw [hpaths, hpaths] at hpath
      exact h.own q r (hexists' q hq) (hexists' r hr) hpath
    · -- the group that was removed is nobody else's
      have hqp : q ≠ p := by
        rintro rfl
        rw [hsame.mCGroupExists] at hq
        cases hforgotten.symm.trans hq
      rw [hsame.cgroups, hgroups, hpaths] at hgroup
      rw [hmanager]
      obtain ⟨heq, -⟩ | ⟨-, hgroup⟩ := group_of_update hgroup
      · exact absurd (h.own q p (hexists' q hq) hp heq) hqp
      · exact h.exact.limit q (hexists' q hq) group hgroup

/-! ## What a group is created with -/

/-- A group that did not exist is created with the limit that is passed. -/
theorem createdWith_eq {p : Nat} (hexists : s.mCGroupExists p = false) :
    ∃ group, (s.createControlSubgroup p false).cgroups (s.groupPath p) = some group ∧
      group.createdWith = ControlGroup.createLimit
        (if s.mEnforceMemory p then (s.manager.objects p).mAssignedMb.toUInt64 * ONE_MB
          else 0) := by
  unfold createControlSubgroup
  simp only [hexists, Bool.false_eq_true, if_false]
  unfold ControlGroup.create
  simp only [UInt64.lt_irrefl, Bool.false_eq_true, if_false]
  exact ⟨_, Function.update_self .., rfl⟩

/-- Where limits are enforced that is the memory assigned, up to 2^28. -/
theorem createdWith_enforced {p : Nat} (hexists : s.mCGroupExists p = false)
    (henforce : s.mEnforceMemory p = true) (hpos : 0 < (s.manager.objects p).mAssignedMb.toNat)
    (hle : (s.manager.objects p).mAssignedMb.toNat ≤ 2 ^ 28) :
    ∃ group, (s.createControlSubgroup p false).cgroups (s.groupPath p) = some group ∧
      group.createdWith.toNat = (s.manager.objects p).mAssignedMb.toNat * 2 ^ 20 := by
  obtain ⟨group, hgroup, hcreated⟩ := createdWith_eq hexists
  have hbytes := toNat_mul_ONE_MB (s.manager.objects p).mAssignedMb
  refine ⟨group, hgroup, ?_⟩
  rw [hcreated, henforce, if_pos rfl, ControlGroup.createLimit_of_le, hbytes]
  · rw [UInt64.lt_iff_toNat_lt, hbytes, UInt64.toNat_zero]
    omega
  · rw [UInt64.le_iff_toNat_le, hbytes]
    have hhuge : ControlGroup.huge.toNat = 2 ^ 48 := by decide
    omega

/-- Where they are not, a loan may lower the limit. -/
theorem createdWith_not_enforced {p : Nat} (hexists : s.mCGroupExists p = false)
    (henforce : s.mEnforceMemory p = false) :
    ∃ group, (s.createControlSubgroup p false).cgroups (s.groupPath p) = some group ∧
      group.createdWith = ControlGroup.huge := by
  obtain ⟨group, hgroup, hcreated⟩ := createdWith_eq hexists
  refine ⟨group, hgroup, ?_⟩
  rw [hcreated, henforce, if_neg (by decide), ControlGroup.createLimit_zero]

/-! ## One loan -/

/-- The limit that `handleOomCondition` passes. -/
def total (s : ControlSubgroups) (p : Nat) (borrowed : UInt32) : UInt64 :=
  ((s.manager.objects p).mBorrowedMb + borrowed + (s.manager.objects p).mReservedMb).toUInt64 *
    1048576

/-- The loan raises the limit by what is lent exactly when the group was created with
    what is reserved, and the sum does not wrap around. -/
theorem total_exact_iff (s : ControlSubgroups) (p : Nat) (borrowed : UInt32) (createdWith : Nat) :
    (s.total p borrowed).toNat = createdWith +
        (s.manager.objects p).mBorrowedMb.toNat * 2 ^ 20 + borrowed.toNat * 2 ^ 20 ↔
      createdWith = (s.manager.objects p).mReservedMb.toNat * 2 ^ 20 ∧
        (s.manager.objects p).mBorrowedMb.toNat + borrowed.toNat +
          (s.manager.objects p).mReservedMb.toNat < 2 ^ 32 := by
  have htotal := toNat_mul_ONE_MB
    ((s.manager.objects p).mBorrowedMb + borrowed + (s.manager.objects p).mReservedMb)
  have hpassed : (s.total p borrowed).toNat = _ := htotal
  have hreserved := (s.manager.objects p).mReservedMb.toNat_lt
  rw [hpassed, UInt32.toNat_add, UInt32.toNat_add]
  omega

/-- The manager has added the loan to the process. -/
theorem of_lends {m : ProcessManager} {t p : Nat} {borrowed : UInt32}
    (hs : s.manager.step (.lends t p borrowed) = some m) :
    (m.objects p).mId = (s.manager.objects p).mId ∧
    (m.objects p).mBorrowedMb = (s.manager.objects p).mBorrowedMb + borrowed ∧
    (m.objects p).mReservedMb = (s.manager.objects p).mReservedMb ∧
    ∀ q, q ≠ p → m.objects q = s.manager.objects q := by
  obtain ⟨-, rfl⟩ := of_onlyIf (ProcessManager.next_of_step hs)
  unfold ProcessManager.lend
  rw [ProcessManager.setCall_objects, ProcessManager.modify_objects_self]
  exact ⟨rfl, rfl, rfl, fun q hq => ProcessManager.modify_objects_of_ne _ _ hq⟩

theorem changeLimit_of_some {m : ProcessManager} {t p : Nat} {borrowed : UInt32}
    (hs : s.manager.step (.lends t p borrowed) = some m) {group : Cgroup}
    (hgroup : s.cgroups (s.groupPath p) = some group) :
    { s with manager := m }.changeLimit p borrowed false =
      { s with
        manager := m
        cgroups := Function.update s.cgroups (s.groupPath p)
          (some { group with
            limitInBytes := s.total p borrowed
            memswLimitInBytes := s.total p borrowed })
        loans := s.loans ++
          [⟨borrowed, some group.limitInBytes, some (s.total p borrowed)⟩] } := by
  obtain ⟨hid, hborrowed, hreserved, -⟩ := of_lends hs
  have hpath : { s with manager := m }.groupPath p = s.groupPath p := groupPath_eq (by rfl) hid
  unfold changeLimit
  simp only [hpath, hgroup, ControlGroup.changeMemoryLimit_of_some hgroup, hborrowed, hreserved]
  rfl

theorem LimitsKept.lends (h : s.LimitsKept) {m : ProcessManager} {t p : Nat} {borrowed : UInt32}
    {fails : Bool} (hs : s.manager.step (.lends t p borrowed) = some m)
    (hcond : s.LoansCovered (.lends t p borrowed fails))
    (heq : s' = { s with manager := m }.changeLimit p borrowed fails) : s'.LimitsKept := by
  obtain ⟨rfl, hexists, ⟨group, hgroup, hcreated⟩, hfits⟩ := hcond
  rw [changeLimit_of_some hs hgroup] at heq
  obtain ⟨hid, hborrowed, -, hothers⟩ := of_lends hs
  obtain ⟨hlimit, -⟩ := h.exact.limit p hexists group hgroup
  have htotal := (s.total_exact_iff p borrowed group.createdWith.toNat).mpr ⟨hcreated, hfits⟩
  have hmanager : s'.manager = m := by rw [heq]
  have hexists' : s'.mCGroupExists = s.mCGroupExists := by rw [heq]
  have hcgroups : s'.cgroups = Function.update s.cgroups (s.groupPath p)
      (some { group with
        limitInBytes := s.total p borrowed
        memswLimitInBytes := s.total p borrowed }) := by rw [heq]
  have hloans : s'.loans = s.loans ++
      [⟨borrowed, some group.limitInBytes, some (s.total p borrowed)⟩] := by rw [heq]
  have hpaths : ∀ q, s'.groupPath q = s.groupPath q := by
    intro q
    refine groupPath_eq (by rw [heq]) ?_
    rw [hmanager]
    by_cases hq : q = p
    · rw [hq, hid]
    · rw [hothers q hq]
  replace hs := ProcessManager.next_of_step hs
  refine ⟨hmanager ▸ h.known.next hs, fun q hq => ?_, fun q r hq hr hpath => ?_,
    fun q hq group' hgroup' => ?_, fun loan hloan => ?_⟩
  · rw [hexists'] at hq
    rw [hmanager]
    exact Nat.lt_of_lt_of_le (h.constructed q hq) (ProcessManager.created_le_next hs)
  · rw [hexists'] at hq hr
    rw [hpaths, hpaths] at hpath
    exact h.own q r hq hr hpath
  · rw [hexists'] at hq
    rw [hcgroups, hpaths] at hgroup'
    rw [hmanager]
    obtain ⟨hpath, hnew⟩ | ⟨hpath, hold⟩ := group_of_update hgroup'
    · obtain rfl := h.own q p hq hexists hpath
      cases hnew
      refine ⟨?_, rfl⟩
      have hsum : ((s.manager.objects q).mBorrowedMb + borrowed).toNat =
          (s.manager.objects q).mBorrowedMb.toNat + borrowed.toNat := by
        rw [UInt32.toNat_add]
        omega
      rw [htotal, hborrowed, hsum, Nat.add_mul, Nat.add_assoc]
    · have hqp : q ≠ p := by
        rintro rfl
        exact hpath rfl
      rw [hothers q hqp]
      exact h.exact.limit q hq group' hold
  · rw [hloans] at hloan
    rcases List.mem_append.mp hloan with hold | hnew
    · exact h.exact.loans loan hold
    · cases List.mem_singleton.mp hnew
      refine ⟨group.limitInBytes, s.total p borrowed, rfl, rfl, ?_⟩
      rw [htotal, hlimit]

/-! ## Every run -/

theorem LimitsKept.step {e : Event} (h : s.LimitsKept) (hcond : s.LoansCovered e)
    (hs : s.step e = some s') : s'.LimitsKept := by
  cases moves hs with
  | manager hm hlends hsame => exact h.manager hm hlends hsame
  | spawns hm hsame => exact h.manager hm nofun hsame
  | lends hm heq => exact h.lends hm hcond heq
  | creates hcall hmanager hsame => exact h.creates hcall hcond hmanager hsame
  | destroys hmanager hsame => exact h.destroys hmanager hsame
  | stops hmanager hsame =>
    refine h.of_same (hmanager ▸ h.known) (by rw [hmanager]) (fun q _ => ?_)
      (fun q => by rw [hmanager]) hsame.cgroups (fun q hq => hsame.mCGroupExists ▸ hq) hsame.loans
    exact groupPath_eq (by rw [hsame.mControlGroup]; rfl) (by rw [hmanager])

/-- A loan raises the limit by what is lent in every run in which groups are created
    for processes without loans, and loans go to processes whose group was created with
    what they have reserved. -/
theorem limitsExact_of_loansCovered (h : system.ReachableWhen LoansCovered s) : s.LimitsExact := by
  have hkept : s.LimitsKept := by
    refine h.invariant ?_ fun _ _ _ hI hcond hs => hI.step hcond hs
    rintro s ⟨manager, useHierarchy, cgroups, hinit, rfl⟩
    exact ⟨(ProcessManager.balanced_known_init hinit).2, nofun, nofun, nofun, nofun⟩
  exact hkept.exact

/-! ## A loan after a shortfall -/

/-- `handleOomCondition` lends 128 to process `p`. -/
def lendsLimited (p : Nat) : List Event :=
  [.manager (.runsOutOfMemory 1 p), .manager (.borrows 1 p), .lends 1 p 128 false]

/-- A process that has reserved what it was assigned is lent 128. -/
theorem limitsExact_lent128 : ∃ s : ControlSubgroups,
    s.loans = [⟨128, some (100 * ONE_MB), some (228 * ONE_MB)⟩] ∧ s.LimitsExact := by
  obtain ⟨s, hreach, hs⟩ := System.exists_reachableWhen_of_run (M := system) (C := LoansCovered)
    (fun s => decide (s.loans = [⟨128, some (100 * ONE_MB), some (228 * ONE_MB)⟩]))
    (fun s e => decide (s.LoansCovered e)) (forksLimited ++ lendsLimited 0) ofUnlimited_init
    (fun _ _ => of_decide_eq_true) (by decide +kernel)
  exact ⟨s, of_decide_eq_true hs, limitsExact_of_loansCovered hreach⟩

/-- Of 1000, the first process reserves 800; the second is assigned 400, which is its
    limit, and gets to reserve 200. -/
def spawnsWithShortfall : List Event :=
  [adds 1, adds 2] ++ spawnsLimited 0 800 false ++
    [.manager (.forks 0 0 7), .manager (.postForks 0 0),
      .spawns 0 1 400 true false, .manager (.reserves 0 1 400),
      .manager (.findsBorrower 0 1 400 200 none), .manager (.reservesAgain 0 1 400),
      .manager (.reservesRest 0 1 200), .manager (.setsReserved 0 1 200),
      .createsSubgroup 0 false, .manager (.forks 0 1 8), .manager (.postForks 0 1)]

/-- The first process exits, and the second runs out of memory. -/
def lendsAfterShortfall : List Event :=
  ProcessManager.exits7.map .manager ++
    [.manager (.exitReleases ProcessManager.exit7), .manager (.exitClears ProcessManager.exit7),
      .destroysSubgroup .exitMonitor .removed, .manager (.erasesPid ProcessManager.exit7),
      .manager (.locksTerminated ProcessManager.exit7),
      .manager (.releasesAgain ProcessManager.exit7),
      .manager (.clearsAgain ProcessManager.exit7), .destroysSubgroup .exitMonitor .removed,
      .manager (.marks ProcessManager.exit7)] ++ lendsLimited 1

/-- The loan lowers the limit from 400 to 328. -/
theorem not_forall_limitsExact :
    ¬ ∀ s : ControlSubgroups, system.Reachable s → s.LimitsExact := by
  intro hall
  obtain ⟨s, hreach, hs⟩ := System.exists_reachable_of_run (M := system)
    (fun s => decide (s.loans = [⟨128, some (400 * ONE_MB), some (328 * ONE_MB)⟩]))
    (spawnsWithShortfall ++ lendsAfterShortfall) ofUnlimited_init (by decide +kernel)
  have hloan : (⟨128, some (400 * ONE_MB), some (328 * ONE_MB)⟩ : Loan) ∈ s.loans := by
    rw [of_decide_eq_true hs]
    exact List.mem_singleton_self _
  obtain ⟨before, after, hbefore, hafter, hraised⟩ := (hall s hreach).loans _ hloan
  cases hbefore
  cases hafter
  revert hraised
  decide

end ControlSubgroups

end Arras4Core.Execute
