/-
  Arras4Core.Execute.OomCondition

  One call of `handleOomCondition`, from the list of groups to what has become
  of their processes.  No other thread takes a step in between.  A group that is
  unknown, or whose process is not (or no longer) spawned, ends the call, so that
  the groups after it are not looked at.  Main result: `allDealtWith_iff`.
-/

import Arras4Core.Execute.ControlSubgroups
import Arras4Core.Lib.Call

namespace Arras4Core.Execute

open Arras4Core.Lib
open Arras4Core.Api (UUID)

/-- A control group that is out of memory, and whether libcgroup will report an
    error when its limit is changed. -/
structure OomGroup where
  name : String
  fails : Bool

/-- The manager and its control groups, with the processes that the call has
    dealt with so far. -/
structure OomHandler where
  manager : ProcessManager
  mControlGroup : ControlGroup
  cgroups : String → Option Cgroup
  lent : List Nat := []
  asked : List Nat := []

namespace OomHandler

/-! ## The call -/

section Source

variable (uuid_parse : String → Option UUID) (t : Nat)

def getProcess (s : OomHandler) (id : UUID) : Option Nat :=
  if id = UUID.null then none else s.manager.mProcesses id

def sgNameToProcess (s : OomHandler) (name : String) : Option Nat :=
  -- a string that is not an id gives the null id
  s.getProcess ((uuid_parse name).getD UUID.null)

def subgroupName (s : OomHandler) (p : Nat) : String := (s.manager.objects p).mId.toString

/-- The path that `changeMemoryLimitSubgroup` passes on. -/
def groupPath (s : OomHandler) (p : Nat) : String :=
  s.mControlGroup.getFullGroupName (s.subgroupName p)

/-- The branch in which `borrowed` is not zero. -/
def lend (p : Nat) (borrowed : UInt32) (fails : Bool) : EStateM OomError OomHandler Bool := fun s =>
  let s := { s with
    manager := s.manager.modify p fun o => { o with mBorrowedMb := o.mBorrowedMb + borrowed } }
  let totalMb := (s.manager.objects p).mBorrowedMb + (s.manager.objects p).mReservedMb
  let total := totalMb.toUInt64 * 1048576
  match ControlGroup.changeMemoryLimit s.cgroups (s.groupPath p) total total fails with
  | none => .error .runtimeError s
  | some cgroups => .ok true { s with cgroups := cgroups, lent := s.lent ++ [p] }

/-- `pp->terminate(true)` by thread `t`, and the end of the monitoring.  That assigning
    a `mTerminationThread` which is still joinable ends the program is left out. -/
def kill (p : Nat) (group : String) : EStateM OomError OomHandler Bool := fun s =>
  .ok true
    { s with
      manager := s.manager.act p fun a => (a.terminate t true).startThread t true
      mControlGroup :=
        s.mControlGroup.monitorOom (s.mControlGroup.getFullGroupName group) false (-1)
      asked := s.asked ++ [p] }

/-- One pass of the loop; false for a `return`. -/
def handleGroup (group : OomGroup) : EStateM OomError OomHandler Bool := fun s =>
  match s.sgNameToProcess uuid_parse group.name with
  | none => .ok false s
  | some p =>
    if (s.manager.objects p).mState ≠ .Spawned then .ok false s
    else if s.manager.mLoanMemory then
      let (borrowed, memory) := s.manager.mMemory.borrow 128
      let s := { s with manager := { s.manager with mMemory := memory } }
      if borrowed > 0 then lend p borrowed group.fails s else kill t p group.name s
    else kill t p group.name s

def handleOomCondition : List OomGroup → EStateM OomError OomHandler PUnit
  | [] => pure ⟨⟩
  | group :: groups => do
    if ← handleGroup uuid_parse t group then handleOomCondition groups
    else return ⟨⟩

end Source

/-! ## What is asked of it -/

section Condition

variable (uuid_parse : String → Option UUID) (t : Nat) (s : OomHandler) (groups : List OomGroup)

/-- Before a call, nothing has been dealt with. -/
def fresh : OomHandler := { s with lent := [], asked := [] }

/-- Where a call ends, whether it returns or throws. -/
def after (r : EStateM.Result OomError OomHandler PUnit) : OomHandler :=
  match r with
  | .ok _ s' => s'
  | .error _ s' => s'

def isDealtWith (p : Nat) : Prop := p ∈ s.lent ∨ p ∈ s.asked

/-- Group `k` of the list is that of process `p`. -/
def Lists (k p : Nat) : Prop :=
  ∃ group, groups[k]? = some group ∧ s.sgNameToProcess uuid_parse group.name = some p

/-- Every listed group whose process was spawned has been lent memory, or the
    process has been asked to terminate. -/
def AllDealtWith : Prop :=
  ∀ k p, Lists uuid_parse s groups k p → (s.manager.objects p).mState = .Spawned →
    (after (handleOomCondition uuid_parse t groups s.fresh)).isDealtWith p

/-- The tracker after `k` loans were asked for. -/
def memoryAfter (k : Nat) : MemoryTracking :=
  (fun m => (m.borrow 128).2)^[k] s.manager.mMemory

/-- What pass `k` asks for is lent. -/
def Lends (k : Nat) : Prop := s.manager.mLoanMemory = true ∧ (s.memoryAfter k).fits 128

/-- Pass `k` does not leave the loop: the process is spawned, no pass before has
    asked it to terminate, and the limit can be changed if there is memory to lend. -/
def Passes (k : Nat) : Prop :=
  ∃ group p, groups[k]? = some group ∧ s.sgNameToProcess uuid_parse group.name = some p ∧
    (s.manager.objects p).mState = .Spawned ∧
    (∀ i < k, Lists uuid_parse s groups i p → s.Lends i) ∧
    (s.Lends k → (s.cgroups (s.groupPath p)).isSome ∧ group.fails = false)

end Condition

variable {uuid_parse : String → Option UUID} {t : Nat} {s₀ s : OomHandler}
  {groups : List OomGroup} {n p : Nat}

/-! ## The first passes -/

/-- What `n` passes have made of the state `s₀`. -/
structure Passed (uuid_parse : String → Option UUID) (groups : List OomGroup) (n : Nat)
    (s₀ s : OomHandler) : Prop where
  processes : s.manager.mProcesses = s₀.manager.mProcesses
  loan : s.manager.mLoanMemory = s₀.manager.mLoanMemory
  memory : s₀.manager.mLoanMemory = true → s.manager.mMemory = s₀.memoryAfter n
  paths : ∀ p, s.groupPath p = s₀.groupPath p
  cgroups : ∀ path, (s.cgroups path).isSome = (s₀.cgroups path).isSome
  spawned : ∀ p, (s.manager.objects p).mState = .Spawned ↔
    (s₀.manager.objects p).mState = .Spawned ∧
      ∀ i < n, Lists uuid_parse s₀ groups i p → s₀.Lends i
  dealt : ∀ p, s.isDealtWith p ↔ ∃ i < n, Lists uuid_parse s₀ groups i p

theorem Passed.start (uuid_parse : String → Option UUID) (groups : List OomGroup)
    (s₀ : OomHandler) : Passed uuid_parse groups 0 s₀ s₀.fresh where
  processes := rfl
  loan := rfl
  memory _ := rfl
  paths _ := rfl
  cgroups _ := rfl
  spawned p := (and_iff_left fun _ hi => absurd hi (Nat.not_lt_zero _)).symm
  dealt p := by
    simp only [isDealtWith, fresh, List.not_mem_nil, or_self, Nat.not_lt_zero, false_and,
      exists_false]

theorem Passed.sgNameToProcess (h : Passed uuid_parse groups n s₀ s) (name : String) :
    s.sgNameToProcess uuid_parse name = s₀.sgNameToProcess uuid_parse name := by
  unfold OomHandler.sgNameToProcess getProcess
  rw [h.processes]

/-- The loan of pass `n` is granted if it is one of those that are. -/
theorem Passed.lends_iff (h : Passed uuid_parse groups n s₀ s)
    (hloan : s₀.manager.mLoanMemory = true) : s₀.Lends n ↔ s.manager.mMemory.fits 128 := by
  rw [Lends, h.memory hloan]
  exact and_iff_right hloan

theorem memoryAfter_succ (s : OomHandler) (k : Nat) :
    s.memoryAfter (k + 1) = ((s.memoryAfter k).borrow 128).2 :=
  Function.iterate_succ_apply' _ k _

theorem lists_iff {group : OomGroup} (hgroup : groups[n]? = some group)
    (hp : s₀.sgNameToProcess uuid_parse group.name = some p) {q : Nat} :
    Lists uuid_parse s₀ groups n q ↔ q = p := by
  constructor
  · rintro ⟨group', hgroup', hq⟩
    obtain rfl := Option.some.inj (hgroup.symm.trans hgroup')
    exact Option.some.inj (hq.symm.trans hp)
  · rintro rfl
    exact ⟨group, hgroup, hp⟩

/-- A pass that lends to `p` or asks it to terminate. -/
structure DealsWith (s₀ : OomHandler) (n p : Nat) (s s' : OomHandler) : Prop where
  processes : s'.manager.mProcesses = s.manager.mProcesses
  loan : s'.manager.mLoanMemory = s.manager.mLoanMemory
  memory : s.manager.mLoanMemory = true → s'.manager.mMemory = (s.manager.mMemory.borrow 128).2
  paths : ∀ q, s'.groupPath q = s.groupPath q
  cgroups : ∀ path, (s'.cgroups path).isSome = (s.cgroups path).isSome
  spawned : (s'.manager.objects p).mState = .Spawned ↔ s₀.Lends n
  others : ∀ q, q ≠ p → (s'.manager.objects q).mState = (s.manager.objects q).mState
  dealt : ∀ q, s'.isDealtWith q ↔ s.isDealtWith q ∨ q = p

theorem Passed.next {s' : OomHandler} {group : OomGroup} (h : Passed uuid_parse groups n s₀ s)
    (hgroup : groups[n]? = some group)
    (hp : s₀.sgNameToProcess uuid_parse group.name = some p)
    (hspawned : (s.manager.objects p).mState = .Spawned) (hdeals : DealsWith s₀ n p s s') :
    Passed uuid_parse groups (n + 1) s₀ s' where
  processes := hdeals.processes.trans h.processes
  loan := hdeals.loan.trans h.loan
  memory hloan := by
    rw [hdeals.memory (h.loan.trans hloan), h.memory hloan, memoryAfter_succ]
  paths q := (hdeals.paths q).trans (h.paths q)
  cgroups path := (hdeals.cgroups path).trans (h.cgroups path)
  spawned q := by
    rw [Nat.forall_lt_succ_right, ← and_assoc, ← h.spawned q, lists_iff hgroup hp]
    by_cases hq : q = p
    · subst hq
      rw [hdeals.spawned]
      exact ⟨fun hlends => ⟨hspawned, fun _ => hlends⟩, fun hboth => hboth.2 rfl⟩
    · rw [hdeals.others q hq]
      exact (and_iff_left fun hqp => absurd hqp hq).symm
  dealt q := by
    rw [hdeals.dealt, Nat.exists_lt_succ_right, h.dealt, lists_iff hgroup hp]

/-! ## One pass -/

theorem groupPath_modify (s : OomHandler) (manager : ProcessManager) (g : ControlGroup)
    (hids : ∀ q, (manager.objects q).mId = (s.manager.objects q).mId)
    (hbase : g.mBaseGroup = s.mControlGroup.mBaseGroup) (q : Nat) :
    { s with manager := manager, mControlGroup := g }.groupPath q = s.groupPath q := by
  unfold groupPath subgroupName ControlGroup.getFullGroupName
  rw [hids, hbase]

theorem mId_modify (m : ProcessManager) {f : Object → Object} (hf : ∀ o, (f o).mId = o.mId)
    (q : Nat) : ((m.modify p f).objects q).mId = (m.objects q).mId := by
  by_cases hq : q = p
  · rw [hq, ProcessManager.modify_objects_self, hf]
  · rw [ProcessManager.modify_objects_of_ne _ _ hq]

/-- The limit can be changed where the group exists and libcgroup reports no error. -/
theorem changeMemoryLimit_isSome {cgroups : String → Option Cgroup} {path : String}
    {total : UInt64} {fails : Bool} :
    (ControlGroup.changeMemoryLimit cgroups path total total fails).isSome ↔
      (cgroups path).isSome ∧ fails = false := by
  unfold ControlGroup.changeMemoryLimit
  cases cgroups path <;> cases fails <;> simp

/-- A change of a limit makes and removes no group. -/
theorem isSome_of_changeMemoryLimit {cgroups cgroups' : String → Option Cgroup} {path : String}
    {total : UInt64} {fails : Bool}
    (h : ControlGroup.changeMemoryLimit cgroups path total total fails = some cgroups')
    (path' : String) : (cgroups' path').isSome = (cgroups path').isSome := by
  unfold ControlGroup.changeMemoryLimit at h
  split at h
  · cases h
  · next group hgroup =>
    split at h
    · cases h
    · cases h
      by_cases hpath : path' = path
      · rw [hpath, Function.update_self, hgroup]
        rfl
      · rw [Function.update_of_ne hpath]

/-- A loan that is noted leaves the paths alone. -/
theorem groupPath_loan (s : OomHandler) (p : Nat) (memory : MemoryTracking) (borrowed : UInt32)
    (q : Nat) :
    { s with
      manager := { s.manager with mMemory := memory }.modify p fun o =>
        { o with mBorrowedMb := o.mBorrowedMb + borrowed } }.groupPath q = s.groupPath q := by
  have hids := mId_modify (p := p) { s.manager with mMemory := memory }
    (f := fun o => { o with mBorrowedMb := o.mBorrowedMb + borrowed }) fun o => rfl
  exact groupPath_modify s _ s.mControlGroup hids rfl q

/-- A loan that is granted, when the limit can be changed. -/
theorem lend_ok {fails : Bool} (hspawned : (s.manager.objects p).mState = .Spawned)
    (hlends : s₀.Lends n) (memory : MemoryTracking) (borrowed : UInt32)
    (hmemory : s.manager.mLoanMemory = true → memory = (s.manager.mMemory.borrow 128).2)
    (hgroup : (s.cgroups (s.groupPath p)).isSome) (hfails : fails = false) :
    ∃ s', lend p borrowed fails { s with manager := { s.manager with mMemory := memory } }
        = .ok true s' ∧ DealsWith s₀ n p s s' := by
  let manager := { s.manager with mMemory := memory }.modify p fun o =>
    { o with mBorrowedMb := o.mBorrowedMb + borrowed }
  have hpaths := groupPath_loan s p memory borrowed
  let totalMb := (manager.objects p).mBorrowedMb + (manager.objects p).mReservedMb
  let total := totalMb.toUInt64 * 1048576
  have hsome : (ControlGroup.changeMemoryLimit s.cgroups ({ s with manager := manager }.groupPath p)
      total total fails).isSome :=
    changeMemoryLimit_isSome.mpr ⟨by rw [hpaths]; exact hgroup, hfails⟩
  obtain ⟨cgroups, hchange⟩ := Option.isSome_iff_exists.mp hsome
  refine ⟨{ s with manager := manager, cgroups := cgroups, lent := s.lent ++ [p] }, ?_, ?_⟩
  · unfold lend
    dsimp only
    rw [hchange]
  · exact
      { processes := rfl
        loan := rfl
        memory := hmemory
        paths := hpaths
        cgroups := isSome_of_changeMemoryLimit hchange
        spawned := by
          rw [ProcessManager.modify_objects_self]
          exact iff_of_true hspawned hlends
        others := fun q hq => by rw [ProcessManager.modify_objects_of_ne _ _ hq]
        dealt := fun q => by
          simp only [isDealtWith, List.mem_append, List.mem_singleton]
          exact or_right_comm }

/-- And when it cannot be. -/
theorem lend_throws {fails : Bool}
    (hlimit : ¬ ((s.cgroups (s.groupPath p)).isSome ∧ fails = false)) (memory : MemoryTracking)
    (borrowed : UInt32) :
    ∃ s', lend p borrowed fails { s with manager := { s.manager with mMemory := memory } }
        = .error .runtimeError s' ∧ s'.lent = s.lent ∧ s'.asked = s.asked := by
  let manager := { s.manager with mMemory := memory }.modify p fun o =>
    { o with mBorrowedMb := o.mBorrowedMb + borrowed }
  have hpaths := groupPath_loan s p memory borrowed
  rw [← hpaths, ← changeMemoryLimit_isSome, Option.not_isSome_iff_eq_none] at hlimit
  refine ⟨{ s with manager := manager }, ?_, rfl, rfl⟩
  unfold lend
  dsimp only
  rw [hlimit]

theorem not_spawned_after_terminate {a : ActiveProcess} (h : a.mState = .Spawned) :
    ((a.terminate t true).startThread t true).mState ≠ .Spawned := by
  have hterm : (a.terminate t true).mState = .Terminating := by
    unfold ActiveProcess.terminate
    rw [h]
  have hstart : ((a.terminate t true).startThread t true).mState = (a.terminate t true).mState := by
    unfold ActiveProcess.startThread
    split <;> rfl
  rw [hstart, hterm]
  exact ProcessState.noConfusion

theorem kill_ok (hspawned : (s.manager.objects p).mState = .Spawned) (hlends : ¬ s₀.Lends n)
    (group : String) (memory : MemoryTracking)
    (hmemory : s.manager.mLoanMemory = true → memory = (s.manager.mMemory.borrow 128).2) :
    ∃ s', kill t p group { s with manager := { s.manager with mMemory := memory } }
        = .ok true s' ∧ DealsWith s₀ n p s s' := by
  refine ⟨_, rfl, ?_⟩
  have hids : ∀ q,
      ((s.manager.act p fun a => (a.terminate t true).startThread t true).objects q).mId
        = (s.manager.objects q).mId := mId_modify s.manager fun o => rfl
  exact
    { processes := rfl
      loan := rfl
      memory := hmemory
      paths := groupPath_modify s _ _ hids rfl
      cgroups := fun path => rfl
      spawned := by
        refine iff_of_false ?_ hlends
        rw [ProcessManager.act, ProcessManager.modify_objects_self]
        exact not_spawned_after_terminate hspawned
      others := fun q hq => by rw [ProcessManager.act, ProcessManager.modify_objects_of_ne _ _ hq]
      dealt := fun q => by
        simp only [isDealtWith, List.mem_append, List.mem_singleton, or_assoc] }

/-- What a pass does for a process that is spawned. -/
theorem handleGroup_of_spawned {group : OomGroup}
    (hp : s.sgNameToProcess uuid_parse group.name = some p)
    (hspawned : (s.manager.objects p).mState = .Spawned) :
    handleGroup uuid_parse t group s =
      if s.manager.mLoanMemory then
        if s.manager.mMemory.fits 128 then
          lend p 128 group.fails
            { s with manager := { s.manager with mMemory := (s.manager.mMemory.borrow 128).2 } }
        else
          kill t p group.name
            { s with manager := { s.manager with mMemory := (s.manager.mMemory.borrow 128).2 } }
      else kill t p group.name s := by
  unfold handleGroup
  simp only [hp, hspawned, ne_eq, not_true_eq_false, if_false]
  split
  · by_cases hfits : s.manager.mMemory.fits 128
    · rw [if_pos hfits, MemoryTracking.borrow, if_pos hfits]
      rfl
    · rw [if_neg hfits, MemoryTracking.borrow_of_not_fits hfits]
      rfl
  · rfl

theorem handleGroup_passes {group : OomGroup} (h : Passed uuid_parse groups n s₀ s)
    (hgroup : groups[n]? = some group) (hpass : Passes uuid_parse s₀ groups n) :
    ∃ s', handleGroup uuid_parse t group s = .ok true s' ∧
      Passed uuid_parse groups (n + 1) s₀ s' := by
  obtain ⟨group', p, hgroup', hp, hspawned₀, hearlier, hlimit⟩ := hpass
  obtain rfl := Option.some.inj (hgroup.symm.trans hgroup')
  have hspawned := (h.spawned p).mpr ⟨hspawned₀, hearlier⟩
  have hp' := (h.sgNameToProcess group.name).trans hp
  suffices hdeals : ∃ s', handleGroup uuid_parse t group s = .ok true s' ∧
      DealsWith s₀ n p s s' by
    obtain ⟨s', hok, hdeals⟩ := hdeals
    exact ⟨s', hok, h.next hgroup hp hspawned hdeals⟩
  rw [handleGroup_of_spawned hp' hspawned]
  by_cases hloan : s.manager.mLoanMemory = true
  · rw [if_pos hloan]
    have hlends := h.lends_iff (h.loan.symm.trans hloan)
    by_cases hfits : s.manager.mMemory.fits 128
    · rw [if_pos hfits]
      obtain ⟨hcgroup, hfails⟩ := hlimit (hlends.mpr hfits)
      exact lend_ok hspawned (hlends.mpr hfits) _ 128 (fun _ => rfl)
        (by rw [h.paths, h.cgroups]; exact hcgroup) hfails
    · rw [if_neg hfits]
      exact kill_ok hspawned (mt hlends.mp hfits) group.name _ fun _ => rfl
  · rw [if_neg hloan]
    have hnone : ¬ s₀.Lends n := fun hlends => hloan (h.loan.trans hlends.1)
    exact kill_ok hspawned hnone group.name s.manager.mMemory fun hyes => absurd hyes hloan

/-- A pass that leaves the loop, by a `return` or an exception, has dealt with
    nothing. -/
theorem handleGroup_stops {group : OomGroup} (h : Passed uuid_parse groups n s₀ s)
    (hgroup : groups[n]? = some group) (hpass : ¬ Passes uuid_parse s₀ groups n) :
    ∃ s', (handleGroup uuid_parse t group s = .ok false s' ∨
        handleGroup uuid_parse t group s = .error .runtimeError s') ∧
      s'.lent = s.lent ∧ s'.asked = s.asked := by
  have hname := h.sgNameToProcess group.name
  cases hp : s₀.sgNameToProcess uuid_parse group.name with
  | none =>
    refine ⟨s, .inl ?_, rfl, rfl⟩
    simp only [handleGroup, hname, hp]
  | some p =>
    rw [hp] at hname
    by_cases hspawned : (s.manager.objects p).mState = .Spawned
    · -- only the limit can be the reason
      obtain ⟨hspawned₀, hearlier⟩ := (h.spawned p).mp hspawned
      have hlimit : ¬ (s₀.Lends n → (s₀.cgroups (s₀.groupPath p)).isSome ∧ group.fails = false) :=
        fun hlimit => hpass ⟨group, p, hgroup, hp, hspawned₀, hearlier, hlimit⟩
      obtain ⟨hlends, hlimit⟩ := Classical.not_imp.mp hlimit
      rw [handleGroup_of_spawned hname hspawned, if_pos (h.loan.trans hlends.1),
        if_pos ((h.lends_iff hlends.1).mp hlends)]
      rw [← h.paths, ← h.cgroups] at hlimit
      obtain ⟨s', hthrows, hsame⟩ := lend_throws hlimit (s.manager.mMemory.borrow 128).2 128
      exact ⟨s', .inr hthrows, hsame⟩
    · refine ⟨s, .inl ?_, rfl, rfl⟩
      simp only [handleGroup, hname, ne_eq, hspawned, not_false_eq_true, if_true]

/-! ## The whole call -/

/-- The call deals with the groups up to the first pass that leaves the loop. -/
theorem handleOomCondition_dealt (rest : List OomGroup) (h : Passed uuid_parse groups n s₀ s)
    (hpasses : ∀ j < n, Passes uuid_parse s₀ groups j) (hrest : groups.drop n = rest) (p : Nat) :
    (after (handleOomCondition uuid_parse t rest s)).isDealtWith p ↔
      ∃ i, Lists uuid_parse s₀ groups i p ∧ ∀ j ≤ i, Passes uuid_parse s₀ groups j := by
  induction rest generalizing n s with
  | nil =>
    show s.isDealtWith p ↔ _
    rw [h.dealt]
    constructor
    · rintro ⟨i, hi, hlists⟩
      exact ⟨i, hlists, fun j hj => hpasses j (Nat.lt_of_le_of_lt hj hi)⟩
    · rintro ⟨i, ⟨group, hgroup, hp⟩, -⟩
      refine ⟨i, ?_, group, hgroup, hp⟩
      have hlt := (List.getElem?_eq_some_iff.mp hgroup).1
      have hend := List.drop_eq_nil_iff.mp hrest
      omega
  | cons group rest ih =>
    have hgroup : groups[n]? = some group := by
      rw [← List.head?_drop, hrest, List.head?_cons]
    have hnext : groups.drop (n + 1) = rest := by
      rw [← List.tail_drop, hrest, List.tail_cons]
    by_cases hpass : Passes uuid_parse s₀ groups n
    · obtain ⟨s', hok, hpassed⟩ := handleGroup_passes (t := t) h hgroup hpass
      rw [handleOomCondition, bind_of_ok hok]
      exact ih hpassed (Nat.forall_lt_succ_right.mpr ⟨hpasses, hpass⟩) hnext
    · obtain ⟨s', hleaves, hlent, hasked⟩ := handleGroup_stops (t := t) h hgroup hpass
      have hsame : after (handleOomCondition uuid_parse t (group :: rest) s) = s' := by
        rcases hleaves with hreturns | hthrows
        · rw [handleOomCondition, bind_of_ok hreturns]
          rfl
        · rw [handleOomCondition, bind_of_error hthrows]
          rfl
      have hdealt : s'.isDealtWith p ↔ s.isDealtWith p := by
        rw [isDealtWith, hlent, hasked]
        rfl
      rw [hsame, hdealt, h.dealt]
      constructor
      · rintro ⟨i, hi, hlists⟩
        exact ⟨i, hlists, fun j hj => hpasses j (Nat.lt_of_le_of_lt hj hi)⟩
      · rintro ⟨i, hlists, hupto⟩
        exact ⟨i, Nat.lt_of_not_le fun hle => hpass (hupto n hle), hlists⟩

/-- Every spawned process of the list is dealt with if and only if each is the
    process of a group up to which no pass leaves the loop. -/
theorem allDealtWith_iff (uuid_parse : String → Option UUID) (t : Nat) (s : OomHandler)
    (groups : List OomGroup) :
    AllDealtWith uuid_parse t s groups ↔
      ∀ k p, Lists uuid_parse s groups k p → (s.manager.objects p).mState = .Spawned →
        ∃ i, Lists uuid_parse s groups i p ∧ ∀ j ≤ i, Passes uuid_parse s groups j := by
  have hdealt := handleOomCondition_dealt (t := t) groups (Passed.start uuid_parse groups s)
    (fun j hj => absurd hj (Nat.not_lt_zero j)) rfl
  constructor
  · intro hall k p hlists hspawned
    exact (hdealt p).mp (hall k p hlists hspawned)
  · intro hupto k p hlists hspawned
    exact (hdealt p).mpr (hupto k p hlists hspawned)

/-- One spawned process, and 1000 MB. -/
def oneSpawned : OomHandler where
  manager :=
    { mMemory := .set 1000
      mLoanMemory := true
      mProcesses := fun id => if id = ⟨Vector.replicate 16 1⟩ then some 0 else none
      objects := fun _ => { mState := .Spawned, mPid := 7, mId := ⟨Vector.replicate 16 1⟩ } }
  mControlGroup :=
    { mValidBase := true, mBaseGroup := "arras", mFastOomCheck := false, mOomFds := ∅ }
  cgroups := fun _ => some ⟨0, 0, true, 0⟩

/-- The group of a process that has been removed comes before the one of a process
    that is spawned. -/
theorem not_forall_allDealtWith :
    ¬ ∀ (uuid_parse : String → Option UUID) (t : Nat) (s : OomHandler) (groups : List OomGroup),
      AllDealtWith uuid_parse t s groups := by
  intro h
  let uuid_parse := fun name : String =>
    some (⟨Vector.replicate 16 (if name = "spawned" then 1 else 2)⟩ : UUID)
  have hdealt := h uuid_parse 0 oneSpawned [⟨"removed", false⟩, ⟨"spawned", false⟩] 1 0
    ⟨_, rfl, by decide⟩ rfl
  rcases hdealt with hlent | hasked
  · exact absurd hlent List.not_mem_nil
  · exact absurd hasked List.not_mem_nil

end OomHandler

end Arras4Core.Execute
