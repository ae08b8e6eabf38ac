/-
  Arras4Core.Execute.MemoryLimitOrder

  The writes of `ControlGroup::changeMemoryLimit`.  The kernel holds
  "memory.limit_in_bytes" at or below "memory.memsw.limit_in_bytes", so the order
  of the two writes is chosen by comparing new and old limits; libcgroup makes the
  writes in the order in which the values are added.
-/

import Arras4Core.Execute.ControlSubgroups

namespace Arras4Core.Execute

/-- The files of the memory controller that hold a limit. -/
inductive LimitFile
  | limitInBytes
  | memswLimitInBytes

namespace Cgroup

def setLimit (group : Cgroup) : LimitFile × UInt64 → Cgroup
  | (.limitInBytes, value) => { group with limitInBytes := value }
  | (.memswLimitInBytes, value) => { group with memswLimitInBytes := value }

/-- The order that the kernel insists on. -/
def LimitsOrdered (group : Cgroup) : Prop := group.limitInBytes ≤ group.memswLimitInBytes

end Cgroup

namespace ControlGroup

/-- The values in the order in which `changeMemoryLimit` adds them to the
    controller, for a group with these limits. -/
def limitChanges (group : Cgroup) (memLimitReal memLimitRealAndSwap : UInt64) :
    List (LimitFile × UInt64) :=
  let oldRealAndSwap := group.memswLimitInBytes
  if memLimitRealAndSwap > oldRealAndSwap then
    [(.memswLimitInBytes, memLimitRealAndSwap), (.limitInBytes, memLimitReal)]
  else
    [(.limitInBytes, memLimitReal), (.memswLimitInBytes, memLimitRealAndSwap)]

/-- The group after each of the writes, and before the first. -/
def limitStates (group : Cgroup) (memLimitReal memLimitRealAndSwap : UInt64) : List Cgroup :=
  (limitChanges group memLimitReal memLimitRealAndSwap).scanl Cgroup.setLimit group

/-- What the writes leave is what `changeMemoryLimit` leaves. -/
theorem changeMemoryLimit_eq {cgroups : String → Option Cgroup} {groupPath : String}
    {group : Cgroup} (hgroup : cgroups groupPath = some group)
    (memLimitReal memLimitRealAndSwap : UInt64) :
    changeMemoryLimit cgroups groupPath memLimitReal memLimitRealAndSwap false
      = some (Function.update cgroups groupPath
          (limitStates group memLimitReal memLimitRealAndSwap).getLast?) := by
  unfold changeMemoryLimit limitStates limitChanges
  rw [hgroup]
  by_cases hgrow : memLimitRealAndSwap > group.memswLimitInBytes <;>
    simp [hgrow, Cgroup.setLimit]

/-- With a greater limit on memory with swap, that limit is written first. -/
theorem limitStates_of_gt {group : Cgroup} {memLimitReal memLimitRealAndSwap : UInt64}
    (h : memLimitRealAndSwap > group.memswLimitInBytes) :
    limitStates group memLimitReal memLimitRealAndSwap =
      [group, { group with memswLimitInBytes := memLimitRealAndSwap },
        { group with limitInBytes := memLimitReal, memswLimitInBytes := memLimitRealAndSwap }] := by
  rw [limitStates, limitChanges, if_pos h]
  rfl

/-- Otherwise the limit on real memory is. -/
theorem limitStates_of_le {group : Cgroup} {memLimitReal memLimitRealAndSwap : UInt64}
    (h : ¬ memLimitRealAndSwap > group.memswLimitInBytes) :
    limitStates group memLimitReal memLimitRealAndSwap =
      [group, { group with limitInBytes := memLimitReal },
        { group with limitInBytes := memLimitReal, memswLimitInBytes := memLimitRealAndSwap }] := by
  rw [limitStates, limitChanges, if_neg h]
  rfl

/-- The limits are in order before, between and after the two writes.  It is the
    state between them that depends on the comparison. -/
theorem limitStates_ordered {group : Cgroup} {memLimitReal memLimitRealAndSwap : UInt64}
    (hold : group.LimitsOrdered) (hnew : memLimitReal ≤ memLimitRealAndSwap) :
    ∀ state ∈ limitStates group memLimitReal memLimitRealAndSwap, state.LimitsOrdered := by
  by_cases hgrow : memLimitRealAndSwap > group.memswLimitInBytes
  · -- between the writes: the old real limit, the new limit with swap
    have hbetween : group.limitInBytes ≤ memLimitRealAndSwap :=
      UInt64.le_trans hold (UInt64.le_of_lt hgrow)
    rw [limitStates_of_gt hgrow]
    intro state hstate
    simp only [List.mem_cons, List.not_mem_nil, or_false] at hstate
    rcases hstate with rfl | rfl | rfl
    · exact hold
    · exact hbetween
    · exact hnew
  · -- between the writes: the new real limit, the old limit with swap
    have hbetween : memLimitReal ≤ group.memswLimitInBytes :=
      UInt64.le_trans hnew (UInt64.not_lt.mp hgrow)
    rw [limitStates_of_le hgrow]
    intro state hstate
    simp only [List.mem_cons, List.not_mem_nil, or_false] at hstate
    rcases hstate with rfl | rfl | rfl
    · exact hold
    · exact hbetween
    · exact hnew

/-- A call of `changeMemoryLimit` makes two writes, and the limits are in order after
    the first as well as after the second. -/
theorem changeMemoryLimit_ordered {cgroups : String → Option Cgroup} {groupPath : String}
    {group : Cgroup} {memLimitReal memLimitRealAndSwap : UInt64}
    (hgroup : cgroups groupPath = some group) (hold : group.LimitsOrdered)
    (hnew : memLimitReal ≤ memLimitRealAndSwap) :
    ∃ first second,
      limitStates group memLimitReal memLimitRealAndSwap = [group, first, second] ∧
      first.LimitsOrdered ∧ second.LimitsOrdered ∧
      changeMemoryLimit cgroups groupPath memLimitReal memLimitRealAndSwap false
        = some (Function.update cgroups groupPath (some second)) := by
  have hstates := limitStates_ordered hold hnew
  rw [changeMemoryLimit_eq hgroup]
  by_cases hgrow : memLimitRealAndSwap > group.memswLimitInBytes
  · rw [limitStates_of_gt hgrow] at hstates ⊢
    exact ⟨_, _, rfl, hstates _ (by simp), hstates _ (by simp), rfl⟩
  · rw [limitStates_of_le hgrow] at hstates ⊢
    exact ⟨_, _, rfl, hstates _ (by simp), hstates _ (by simp), rfl⟩

/-- The real limit grows from 1 to 3 while the one with swap shrinks from 4 to 3. -/
theorem changeMemoryLimit_ordered_mixed :
    ∃ first second,
      limitStates ⟨1, 4, false, 1⟩ 3 3 = [⟨1, 4, false, 1⟩, first, second] ∧
      first.LimitsOrdered ∧ second.LimitsOrdered ∧
      changeMemoryLimit (fun _ => some ⟨1, 4, false, 1⟩) "arras" 3 3 false
        = some (Function.update (fun _ => some ⟨1, 4, false, 1⟩) "arras" (some second)) :=
  changeMemoryLimit_ordered rfl (by unfold Cgroup.LimitsOrdered; decide) (by decide)

/-! ## Any number of changes -/

/-- A change of the limits that stops after some of its writes, as it may when one of
    them fails. -/
structure LimitChange where
  memLimitReal : UInt64
  memLimitRealAndSwap : UInt64
  written : Nat
  ordered : memLimitReal ≤ memLimitRealAndSwap

def applyChange (group : Cgroup) (change : LimitChange) : Cgroup :=
  ((limitChanges group change.memLimitReal change.memLimitRealAndSwap).take
    change.written).foldl Cgroup.setLimit group

theorem foldl_take_mem_scanl {α β : Type} (f : β → α → β) (b : β) (l : List α) (n : Nat) :
    (l.take n).foldl f b ∈ l.scanl f b := by
  induction l generalizing b n with
  | nil => simp
  | cons a l ih =>
    rw [List.scanl_cons]
    cases n with
    | zero => exact List.mem_cons_self ..
    | succ n => exact List.mem_cons_of_mem _ (ih (f b a) n)

theorem applyChange_ordered {group : Cgroup} (h : group.LimitsOrdered) (change : LimitChange) :
    (applyChange group change).LimitsOrdered :=
  limitStates_ordered h change.ordered _ (foldl_take_mem_scanl ..)

/-- The limits of a group stay in order over any number of changes. -/
theorem foldl_applyChange_ordered {group : Cgroup} (h : group.LimitsOrdered)
    (changes : List LimitChange) : (changes.foldl applyChange group).LimitsOrdered := by
  induction changes generalizing group with
  | nil => exact h
  | cons change changes ih => exact ih (applyChange_ordered h change)

end ControlGroup

end Arras4Core.Execute
