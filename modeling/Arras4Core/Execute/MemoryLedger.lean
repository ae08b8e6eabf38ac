/-
  Arras4Core.Execute.MemoryLedger

  The memory that is reserved and the memory the processes have reserved.
  `reserveMemory` makes two or three calls of the tracker and does not look at
  the result of the last, and it writes its amount over whatever the process had
  reserved before.  The tracker and the processes agree whenever no such call is
  in progress, as long as the last call is granted, nothing is overwritten, the
  calls for one process do not overlap and the 32-bit sum does not wrap around.
-/

import Arras4Core.Execute.ExitAttribution
import Arras4Core.Lib.Ledger

namespace Arras4Core.Execute

open Arras4Core.Lib
open Arras4Core.Api (UUID)

/-! ## Calls in progress -/

/-- A `reserveMemory` or `releaseMemory` that has called the tracker and has yet to
    write `mReservedMb`: the process, and the amount to be written if it is known. -/
def Call.mid : Call → Option (Nat × Nat)
  | findBorrower p _ _ | waitBorrower p _ _ _ | reserveAgain p _ | reserveRest p _
  | terminate _ _ (.reserveMemory p _ _) | startThread _ _ (.reserveMemory p _ _)
  | failedForkClear p => some (p, 0)
  | setReserved p reservation => some (p, reservation.toNat)
  | _ => none

def MonitorPc.mid : MonitorPc → Option (Nat × Nat)
  | clear x | clearAgain x => some (x.p, 0)
  | _ => none

namespace ProcessManager

variable {s s' : ProcessManager}

def mid (s : ProcessManager) : Holder → Option (Nat × Nat)
  | .caller t => (s.calls t).mid
  | .exitMonitor => s.exitMonitor.mid

/-- The tracker and the processes as a ledger. -/
def ledger (s : ProcessManager) : Ledger Holder where
  total := s.mMemory.mReservedMb.toNat
  taken p := (s.objects p).taken
  noted p := (s.objects p).mReservedMb.toNat
  mid := s.mid
  count := s.created

/-! ## What the ledger sees of a step -/

theorem mid_setCall (t : Nat) (call : Call) :
    (s.setCall t call).mid = Function.update s.mid (.caller t) call.mid := by
  funext a
  by_cases ha : a = .caller t
  · subst ha
    rw [Function.update_self]
    exact congrArg Call.mid (setCall_calls_self ..)
  · rw [Function.update_of_ne ha]
    cases a with
    | caller u =>
      have hu : u ≠ t := fun heq => ha (heq ▸ rfl)
      exact congrArg Call.mid (setCall_calls_of_ne _ _ hu)
    | exitMonitor => rfl

theorem mid_setMonitor (pc : MonitorPc) :
    (s.setMonitor pc).mid = Function.update s.mid .exitMonitor pc.mid := by
  funext a
  cases a with
  | caller t =>
    rw [Function.update_of_ne (show Holder.caller t ≠ .exitMonitor from nofun)]
    rfl
  | exitMonitor =>
    rw [Function.update_self]
    rfl

theorem ledger_setCall (t : Nat) (call : Call) :
    (s.setCall t call).ledger =
      { s.ledger with mid := Function.update s.ledger.mid (.caller t) call.mid } :=
  Ledger.ext rfl rfl rfl (mid_setCall t call) rfl

theorem ledger_setMonitor (pc : MonitorPc) :
    (s.setMonitor pc).ledger =
      { s.ledger with mid := Function.update s.ledger.mid .exitMonitor pc.mid } :=
  Ledger.ext rfl rfl rfl (mid_setMonitor pc) rfl

theorem ledger_setCall_of_eq {t : Nat} {call : Call} (h : call.mid = (s.calls t).mid) :
    (s.setCall t call).ledger = s.ledger := by
  rw [ledger_setCall, h]
  exact Ledger.ext rfl rfl rfl (Function.update_eq_self ..) rfl

theorem ledger_setMonitor_of_eq {pc : MonitorPc} (h : pc.mid = s.exitMonitor.mid) :
    (s.setMonitor pc).ledger = s.ledger := by
  rw [ledger_setMonitor, h]
  exact Ledger.ext rfl rfl rfl (Function.update_eq_self ..) rfl

/-- A change of the tracker that reserves and releases nothing. -/
theorem ledger_with_mMemory {memory : MemoryTracking}
    (h : memory.mReservedMb = s.mMemory.mReservedMb) :
    { s with mMemory := memory }.ledger = s.ledger := by
  simp only [ledger, h]
  rfl

/-- A change of an object that is not about memory. -/
theorem ledger_modify_of_eq {p : Nat} {f : Object → Object}
    (htaken : (f (s.objects p)).taken = (s.objects p).taken)
    (hnoted : (f (s.objects p)).mReservedMb = (s.objects p).mReservedMb) :
    (s.modify p f).ledger = s.ledger := by
  have hobjects : ∀ q, ((s.modify p f).objects q).taken = (s.objects q).taken ∧
      ((s.modify p f).objects q).mReservedMb = (s.objects q).mReservedMb := by
    intro q
    by_cases hq : q = p
    · subst hq
      rw [modify_objects_self]
      exact ⟨htaken, hnoted⟩
    · rw [modify_objects_of_ne _ _ hq]
      exact ⟨rfl, rfl⟩
  simp only [ledger, hobjects]
  rfl

/-- The member functions of a process leave alone what the manager writes. -/
structure SameMemory (p p' : Process) : Prop where
  reserved : p'.mReservedMb = p.mReservedMb
  borrowed : p'.mBorrowedMb = p.mBorrowedMb

theorem sameMemory_terminated (p : Process) (status : ExitStatus) :
    SameMemory p (p.terminated status) := by
  unfold Process.terminated
  split <;> exact ⟨rfl, rfl⟩

theorem sameMemory_spawn (a : ActiveProcess) (assignedMb : UInt32) (outcome : SpawnOutcome) :
    SameMemory a.toProcess (a.spawn assignedMb outcome).toProcess := by
  unfold ActiveProcess.spawn
  split
  · exact ⟨rfl, rfl⟩
  · cases outcome with
    | pipeFails | forkFails =>
      have h := sameMemory_terminated { a.toProcess with mAssignedMb := assignedMb }
        ⟨.Internal, ExitStatus.FORK_FAILED⟩
      exact ⟨h.reserved, h.borrowed⟩
    | forks => exact ⟨rfl, rfl⟩

theorem sameMemory_terminate (a : ActiveProcess) (caller : Nat) (fast : Bool) :
    SameMemory a.toProcess (a.terminate caller fast).toProcess := by
  unfold ActiveProcess.terminate
  split
  · exact sameMemory_terminated a.toProcess _
  · exact ⟨rfl, rfl⟩
  · exact ⟨rfl, rfl⟩
  · exact ⟨rfl, rfl⟩

theorem sameMemory_startThread (a : ActiveProcess) (caller : Nat) (fast : Bool) :
    SameMemory a.toProcess (a.startThread caller fast).toProcess := by
  unfold ActiveProcess.startThread
  split <;> exact ⟨rfl, rfl⟩

theorem sameMemory_act {a a' : ActiveProcess} {e : ActiveProcess.Event}
    (hs : a.act e = some a') : SameMemory a.toProcess a'.toProcess := by
  cases e with
  | spawn assignedMb outcome =>
    obtain ⟨-, rfl⟩ := of_onlyIf hs
    exact sameMemory_spawn a assignedMb outcome
  | terminate caller fast =>
    cases hs
    exact sameMemory_terminate a caller fast
  | resetsState caller =>
    obtain ⟨-, rfl⟩ := of_onlyIf hs
    exact ⟨rfl, rfl⟩
  | terminated status =>
    cases hs
    exact sameMemory_terminated a.toProcess status
  | killResumes i =>
    obtain ⟨-, rfl⟩ := of_onlyIf hs
    exact sameMemory_terminated a.toProcess _
  | _ =>
    rw [ActiveProcess.toProcess_of_not_writes rfl hs]
    exact ⟨rfl, rfl⟩

/-! ## Objects that exist -/

/-- Only objects that have been constructed are worked on or in the tables. -/
structure Known (s : ProcessManager) : Prop where
  calls : ∀ t p, (s.calls t).locked = some p → p < s.created
  processes : ∀ id p, s.mProcesses id = some p → p < s.created
  table : ∀ pid p, s.mPidToProcess pid = some p → p < s.created
  monitor : ∀ x, s.exitMonitor.childExit = some x → x.p < s.created

/-- Thread `t` moves on, and the tables stay as they are. -/
theorem Known.caller (h : s.Known) (t : Nat) (call : Call)
    (hcalls : s'.calls = Function.update s.calls t call)
    (hcall : ∀ p, call.locked = some p → p < s.created) (hcreated : s'.created = s.created)
    (hprocesses : s'.mProcesses = s.mProcesses) (htable : s'.mPidToProcess = s.mPidToProcess)
    (hmonitor : s'.exitMonitor = s.exitMonitor) : s'.Known where
  calls u p hp := by
    rw [hcalls] at hp
    rw [hcreated]
    by_cases hu : u = t
    · rw [hu, Function.update_self] at hp
      exact hcall p hp
    · rw [Function.update_of_ne hu] at hp
      exact h.calls u p hp
  processes := by rw [hcreated, hprocesses]; exact h.processes
  table := by rw [hcreated, htable]; exact h.table
  monitor := by rw [hcreated, hmonitor]; exact h.monitor

/-- A call that moves on has locked the process it had locked before, or none. -/
theorem Known.goes (h : s.Known) {t : Nat} {old call : Call} (hpc : s.calls t = old)
    (hgoes : Goes old call) : ∀ p, call.locked = some p → p < s.created := by
  intro p hp
  obtain hnone | ⟨hsame, -⟩ := hgoes
  · exact absurd (hnone.symm.trans hp) nofun
  · exact h.calls t p (by rw [hpc]; exact hsame.symm.trans hp)

theorem Known.next (h : s.Known) {e : Event} (hs : s.next e = some s') : s'.Known := by
  cases e with
  | addsProcess id =>
    obtain ⟨-, rfl⟩ := of_onlyIf hs
    exact
      { calls := fun t p hp => Nat.lt_succ_of_lt (h.calls t p hp)
        processes := fun id' p hp => by
          by_cases hid : id' = id
          · subst hid
            cases (Function.update_self ..).symm.trans hp
            exact Nat.lt_succ_self _
          · exact Nat.lt_succ_of_lt
              (h.processes id' p ((Function.update_of_ne hid ..).symm.trans hp))
        table := fun pid p hp => Nat.lt_succ_of_lt (h.table pid p hp)
        monitor := fun x hx => Nat.lt_succ_of_lt (h.monitor x hx) }
  | spawns t p assignedMb pipeFails =>
    obtain ⟨⟨-, hp, -⟩, rfl⟩ := of_onlyIf hs
    unfold ProcessManager.spawn
    split
    · exact h
    · split
      · exact { h with }
      · refine h.caller t (.reserve p assignedMb) rfl (fun q hq => ?_) rfl rfl rfl rfl
        cases hq
        exact hp
  | reserves t p reservation =>
    obtain ⟨hpc, rfl⟩ := of_onlyIf hs
    exact h.caller t _ rfl (h.goes hpc (goes_afterReserve p reservation)) rfl rfl rfl rfl
  | findsBorrower t p reservation deficit borrower =>
    obtain ⟨⟨hpc, -⟩, rfl⟩ := of_onlyIf hs
    exact h.caller t _ rfl (h.goes hpc (goes_afterFindBorrower p reservation deficit borrower))
      rfl rfl rfl rfl
  | borrowerIsReaped t p reservation borrower deficit =>
    obtain ⟨⟨hpc, -⟩, rfl⟩ := of_onlyIf hs
    exact h.caller t _ rfl (h.goes hpc (.inr ⟨rfl, fun _ => rfl, fun _ => nofun⟩)) rfl rfl rfl rfl
  | reservesAgain t p reservation =>
    obtain ⟨hpc, rfl⟩ := of_onlyIf hs
    exact h.caller t _ rfl (h.goes hpc (goes_afterReserveAgain p reservation)) rfl rfl rfl rfl
  | reservesRest t p reservation =>
    obtain ⟨hpc, rfl⟩ := of_onlyIf hs
    exact h.caller t _ rfl (h.goes hpc (.inr ⟨rfl, fun _ => rfl, fun _ => nofun⟩)) rfl rfl rfl rfl
  | setsReserved t p reservation =>
    obtain ⟨hpc, rfl⟩ := of_onlyIf hs
    exact h.caller t _ rfl (h.goes hpc (.inr ⟨rfl, fun _ => rfl, fun _ => nofun⟩)) rfl rfl rfl rfl
  | forkFails t p =>
    obtain ⟨hpc, rfl⟩ := of_onlyIf hs
    exact h.caller t _ rfl (h.goes hpc (.inr ⟨rfl, nofun, fun _ => nofun⟩)) rfl rfl rfl rfl
  | failedForkReleases t p =>
    obtain ⟨hpc, rfl⟩ := of_onlyIf hs
    exact h.caller t _ rfl (h.goes hpc (.inr ⟨rfl, nofun, fun _ => nofun⟩)) rfl rfl rfl rfl
  | failedForkClears t p =>
    obtain ⟨-, rfl⟩ := of_onlyIf hs
    exact h.caller t _ rfl nofun rfl rfl rfl rfl
  | forks t p pid =>
    obtain ⟨⟨hpc, -⟩, rfl⟩ := of_onlyIf hs
    refine h.caller t (.postFork p) rfl (fun q hq => ?_) rfl rfl rfl rfl
    cases hq
    exact h.calls t p (by rw [hpc]; rfl)
  | postForks t p =>
    obtain ⟨-, rfl⟩ := of_onlyIf hs
    have hregistered : (s.registerPid p).Known := by
      unfold registerPid
      split
      · exact h
      split
      · exact h
      · next q hq _ =>
        refine { h with table := fun pid r hr => ?_ }
        by_cases hpid : pid = (s.objects p).mPid
        · subst hpid
          cases (Function.update_self ..).symm.trans hr
          exact h.processes _ q hq
        · exact h.table pid r ((Function.update_of_ne hpid ..).symm.trans hr)
    exact hregistered.caller t .idle rfl nofun rfl rfl rfl rfl
  | callsTerminate t p fast =>
    obtain ⟨-, rfl⟩ := of_onlyIf hs
    exact h.caller t _ rfl nofun rfl rfl rfl rfl
  | terminates t p fast caller =>
    obtain ⟨⟨hpc, -⟩, rfl⟩ := of_onlyIf hs
    obtain ⟨hstart, hnext, -⟩ := goes_terminate p fast caller
    refine h.caller t _ rfl (h.goes hpc ?_) rfl rfl rfl rfl
    split
    · exact hstart
    · exact hnext
  | startsThread t p fast caller =>
    obtain ⟨hpc, rfl⟩ := of_onlyIf hs
    exact h.caller t (caller.next p) rfl (h.goes hpc (goes_terminate p fast caller).2.2)
      rfl rfl rfl rfl
  | removesProcess t id =>
    obtain ⟨-, rfl⟩ := of_onlyIf hs
    unfold removeProcess
    split
    · exact h
    · exact h.caller t _ rfl nofun rfl rfl rfl rfl
  | seesExit t id p =>
    obtain ⟨-, rfl⟩ := of_onlyIf hs
    exact h.caller t _ rfl nofun rfl rfl rfl rfl
  | erasesProcess t id =>
    obtain ⟨-, rfl⟩ := of_onlyIf hs
    have herased : ({ s with mProcesses := Function.update s.mProcesses id none }).Known :=
      { h with
        processes := fun id' p hp => by
          by_cases hid : id' = id
          · subst hid
            cases (Function.update_self ..).symm.trans hp
          · exact h.processes id' p ((Function.update_of_ne hid ..).symm.trans hp) }
    exact herased.caller t .idle rfl nofun rfl rfl rfl rfl
  | runsOutOfMemory t p =>
    obtain ⟨-, rfl⟩ := of_onlyIf hs
    refine h.caller t _ rfl (fun q hq => ?_) rfl rfl rfl rfl
    split at hq <;> cases hq
  | borrows t p =>
    obtain ⟨-, rfl⟩ := of_onlyIf hs
    rw [borrow_eq]
    generalize s.mMemory.borrow 128 = result
    refine h.caller t (if 0 < result.1 then .lend p result.1 else .terminate p true .user)
      rfl (fun q hq => ?_) rfl rfl rfl rfl
    split at hq <;> cases hq
  | lends t p borrowed =>
    obtain ⟨-, rfl⟩ := of_onlyIf hs
    exact h.caller t .idle rfl nofun rfl rfl rfl rfl
  | process p e =>
    obtain ⟨a, -, hguard⟩ := Option.bind_eq_some_iff.mp hs
    obtain ⟨-, rfl⟩ := of_onlyIf hguard
    exact { h with }
  | collects | waitpid | pollEnds =>
    obtain ⟨-, rfl⟩ := of_onlyIf hs
    exact { h with monitor := nofun }
  | handles pid status pidList =>
    obtain ⟨-, rfl⟩ := of_onlyIf hs
    unfold ProcessManager.handleChildExit
    split
    · exact { h with monitor := nofun }
    · next p hp =>
      refine { h with monitor := fun x hx => ?_ }
      cases hx
      exact h.table pid p hp
  | exitReleases x | exitClears x | releasesAgain x | clearsAgain x =>
    obtain ⟨hpc, rfl⟩ := of_onlyIf hs
    refine { h with monitor := fun y hy => ?_ }
    cases hy
    exact h.monitor x (by rw [hpc]; rfl)
  | erasesPid x =>
    obtain ⟨hpc, rfl⟩ := of_onlyIf hs
    refine { h with table := fun pid p hp => ?_, monitor := fun y hy => ?_ }
    · by_cases hpid : pid = x.pid
      · subst hpid
        cases (Function.update_self ..).symm.trans hp
      · exact h.table pid p ((Function.update_of_ne hpid ..).symm.trans hp)
    · cases hy
      exact h.monitor x (by rw [hpc]; rfl)
  | locksTerminated x =>
    obtain ⟨⟨hpc, -⟩, rfl⟩ := of_onlyIf hs
    unfold ProcessManager.lockTerminated
    split
    · exact { h with monitor := nofun }
    · refine { h with monitor := fun y hy => ?_ }
      cases hy
      exact h.monitor x (by rw [hpc]; rfl)
  | marks x =>
    obtain ⟨-, rfl⟩ := of_onlyIf hs
    exact { h with monitor := nofun }

/-! ## What a step does to the ledger -/

theorem ledger_act {p : Nat} {f : ActiveProcess → ActiveProcess}
    (h : SameMemory (s.objects p).toProcess (f (s.objects p).toActiveProcess).toProcess) :
    (s.act p f).ledger = s.ledger :=
  ledger_modify_of_eq rfl h.reserved

theorem taken_reserve (p : Nat) (amount : UInt32) :
    (s.reserve p amount).ledger.taken = Function.update s.ledger.taken p
      (if s.mMemory.fits amount then (s.objects p).taken + amount.toNat
        else (s.objects p).taken) := by
  funext q
  by_cases hq : q = p
  · subst hq
    simp only [ledger, reserve, modify_objects_self, Function.update_self]
  · simp only [ledger, reserve_objects_of_ne _ _ hq, Function.update_of_ne hq]

theorem noted_reserve (p : Nat) (amount : UInt32) :
    (s.reserve p amount).ledger.noted = s.ledger.noted := by
  funext q
  by_cases hq : q = p
  · subst hq
    simp only [ledger, reserve, modify_objects_self]
  · simp only [ledger, reserve_objects_of_ne _ _ hq]

theorem taken_release (p : Nat) :
    (s.release p).ledger.taken = Function.update s.ledger.taken p
      ((s.objects p).taken - (s.objects p).mReservedMb.toNat) := by
  funext q
  by_cases hq : q = p
  · subst hq
    simp only [ledger, release, modify_objects_self, Function.update_self]
  · simp only [ledger, release_objects_of_ne _ hq, Function.update_of_ne hq]

theorem noted_release (p : Nat) : (s.release p).ledger.noted = s.ledger.noted := by
  funext q
  by_cases hq : q = p
  · subst hq
    simp only [ledger, release, modify_objects_self]
  · simp only [ledger, release_objects_of_ne _ hq]

theorem taken_setReserved (p : Nat) (reservation : UInt32) :
    (s.setReserved p reservation).ledger.taken = s.ledger.taken := by
  funext q
  by_cases hq : q = p
  · subst hq
    simp only [ledger, setReserved, modify_objects_self]
  · simp only [ledger, setReserved_objects_of_ne _ _ hq]

theorem noted_setReserved (p : Nat) (reservation : UInt32) :
    (s.setReserved p reservation).ledger.noted =
      Function.update s.ledger.noted p reservation.toNat := by
  funext q
  by_cases hq : q = p
  · subst hq
    simp only [ledger, setReserved, modify_objects_self, Function.update_self]
  · simp only [ledger, setReserved_objects_of_ne _ _ hq, Function.update_of_ne hq]

/-- A reservation that is granted. -/
theorem ledger_reserve_of_fits {p : Nat} {reservation : UInt32}
    (hfits : s.mMemory.fits reservation) (hwrap : s.mMemory.NoWrap reservation)
    (htaken : (s.objects p).taken = 0) :
    (s.reserve p reservation).ledger =
      { s.ledger with
        total := s.ledger.total + reservation.toNat
        taken := Function.update s.ledger.taken p reservation.toNat } := by
  refine Ledger.ext (MemoryTracking.reserve_of_fits hfits hwrap) ?_ (noted_reserve p reservation)
    rfl rfl
  rw [taken_reserve, if_pos hfits, htaken, Nat.zero_add]

/-- A reservation that is not granted. -/
theorem ledger_reserve_of_not_fits {p : Nat} {reservation : UInt32}
    (hfits : ¬ s.mMemory.fits reservation) : (s.reserve p reservation).ledger = s.ledger := by
  refine Ledger.ext ?_ ?_ (noted_reserve p reservation) rfl rfl
  · exact congrArg (·.mReservedMb.toNat) (MemoryTracking.reserve_of_not_fits hfits)
  · rw [taken_reserve, if_neg hfits]
    exact Function.update_eq_self ..

/-- A release of what was taken for the process. -/
theorem ledger_release {p : Nat} (htaken : (s.objects p).taken = (s.objects p).mReservedMb.toNat)
    (hle : (s.objects p).mReservedMb ≤ s.mMemory.mReservedMb) :
    (s.release p).ledger =
      { s.ledger with
        total := s.ledger.total - s.ledger.noted p
        taken := Function.update s.ledger.taken p 0 } := by
  refine Ledger.ext (MemoryTracking.release_of_le hle) ?_ (noted_release p) rfl rfl
  rw [taken_release, htaken, Nat.sub_self]

theorem ledger_setReserved (p : Nat) (reservation : UInt32) :
    (s.setReserved p reservation).ledger =
      { s.ledger with noted := Function.update s.ledger.noted p reservation.toNat } :=
  Ledger.ext rfl (taken_setReserved p reservation) (noted_setReserved p reservation) rfl rfl

/-- Where the first call of the tracker leads, something is taken if it was granted. -/
theorem mid_afterReserve (p : Nat) (reservation : UInt32) :
    (s.afterReserve p reservation).mid =
      some (p, if s.mMemory.fits reservation then reservation.toNat else 0) := by
  have hdeficit := s.mMemory.reserve_deficit reservation
  unfold afterReserve deficit
  -- there is no deficit just when the amount was granted
  by_cases hfits : s.mMemory.fits reservation
  · rw [if_pos (hdeficit.mpr hfits), if_pos hfits]
    rfl
  · rw [if_neg fun hzero => hfits (hdeficit.mp hzero), if_neg hfits]
    split <;> rfl

theorem mid_afterReserveAgain (p : Nat) (reservation : UInt32) :
    (s.afterReserveAgain p reservation).mid =
      some (p, if s.mMemory.fits reservation then reservation.toNat else 0) := by
  have hdeficit := s.mMemory.reserve_deficit reservation
  unfold afterReserveAgain deficit
  by_cases hfits : s.mMemory.fits reservation
  · rw [if_pos (hdeficit.mpr hfits), if_pos hfits]
    rfl
  · rw [if_neg fun hzero => hfits (hdeficit.mp hzero), if_neg hfits]
    rfl

theorem mid_afterFindBorrower (p : Nat) (reservation : UInt32) (deficit : Int)
    (borrower : Option Nat) :
    (s.afterFindBorrower p reservation deficit borrower).mid = some (p, 0) := by
  cases borrower <;> rfl

theorem mid_next (p : Nat) (fast : Bool) (caller : TerminateCaller) :
    (caller.next p).mid = (Call.terminate p fast caller).mid ∧
      (Call.startThread p fast caller).mid = (Call.terminate p fast caller).mid := by
  cases caller <;> exact ⟨rfl, rfl⟩

/-! ## The ledger stays balanced -/

theorem balanced_reserve {t p : Nat} {reservation : UInt32} {call : Call}
    (h : (s.ledger.begin (.caller t) p).Balanced)
    (hwrap : s.mMemory.fits reservation → s.mMemory.NoWrap reservation)
    (hcall : call.mid = some (p, if s.mMemory.fits reservation then reservation.toNat else 0)) :
    ((s.reserve p reservation).setCall t call).ledger.Balanced := by
  have hmid : (s.ledger.begin (.caller t) p).mid (.caller t) = some (p, 0) :=
    Function.update_self ..
  rw [ledger_setCall, hcall]
  by_cases hfits : s.mMemory.fits reservation
  · rw [ledger_reserve_of_fits hfits (hwrap hfits) (h.mid _ _ _ hmid).2, if_pos hfits]
    have hgrant := h.grant hmid reservation.toNat
    rw [Ledger.begin_grant] at hgrant
    exact hgrant
  · -- the call has begun, and nothing is taken yet
    rw [ledger_reserve_of_not_fits hfits, if_neg hfits]
    exact h

/-- With no other call for the process in progress, a release takes no more than is
    reserved. -/
theorem release_le (h : s.ledger.Balanced) {p : Nat} (hp : p < s.created)
    (hquiet : s.ledger.Quiet p) : (s.objects p).mReservedMb ≤ s.mMemory.mReservedMb := by
  have htaken : s.ledger.taken p ≤ s.ledger.total := h.taken_le_total hp
  rw [h.settled p hquiet] at htaken
  exact UInt32.le_iff_toNat_le.mpr htaken

theorem balanced_release (h : s.ledger.Balanced) {p : Nat} (hp : p < s.created)
    (hquiet : s.ledger.Quiet p) {a : Holder} (hidle : s.mid a = none) :
    Ledger.Balanced
      { (s.release p).ledger with mid := Function.update s.ledger.mid a (some (p, 0)) } := by
  rw [ledger_release (h.settled p hquiet) (release_le h hp hquiet)]
  exact h.withdraw hp hidle hquiet

/-- What is written is what was taken, and the call is done. -/
theorem balanced_setReserved (h : s.ledger.Balanced) {p : Nat} {reservation : UInt32}
    {a : Holder} (hmid : s.mid a = some (p, reservation.toNat)) :
    Ledger.Balanced
      { (s.setReserved p reservation).ledger with mid := Function.update s.ledger.mid a none } := by
  rw [ledger_setReserved]
  exact h.settle hmid

/-- The conditions that keep the ledger: a reservation starts on a process with none,
    and its last call of the tracker is granted; no call for a process starts while
    another one is in progress; a sum that is granted does not wrap around. -/
def MemoryOrdered (s : ProcessManager) : Event → Prop
  | .reserves _ p reservation =>
    (s.objects p).mReservedMb = 0 ∧ s.ledger.Quiet p ∧
      (s.mMemory.fits reservation → s.mMemory.NoWrap reservation)
  | .reservesAgain _ _ reservation =>
    s.mMemory.fits reservation → s.mMemory.NoWrap reservation
  | .reservesRest _ _ reservation =>
    s.mMemory.fits reservation ∧ s.mMemory.NoWrap reservation
  | .failedForkReleases _ p => s.ledger.Quiet p
  | .exitReleases x | .releasesAgain x => s.ledger.Quiet x.p
  | _ => True

theorem balanced_next (h : s.ledger.Balanced) (hknown : s.Known) {e : Event}
    (hcond : s.MemoryOrdered e) (hs : s.next e = some s') : s'.ledger.Balanced := by
  cases e with
  | addsProcess id =>
    obtain ⟨-, rfl⟩ := of_onlyIf hs
    have hsame : (s.modify s.created fun o => { o with mId := id }).ledger = s.ledger :=
      ledger_modify_of_eq rfl rfl
    have hgrow := h.grow
    rw [← hsame] at hgrow
    exact hgrow
  | spawns t p assignedMb pipeFails =>
    obtain ⟨⟨hidle, -, -⟩, rfl⟩ := of_onlyIf hs
    unfold ProcessManager.spawn
    split
    · exact h
    · split
      · rw [ledger_act (sameMemory_spawn _ assignedMb .pipeFails)]
        exact h
      · rw [ledger_setCall_of_eq (by rw [lock, modify_calls, modify_calls, hidle]; rfl), lock,
          ledger_modify_of_eq rfl rfl, ledger_modify_of_eq rfl rfl]
        exact h
  | reserves t p reservation =>
    obtain ⟨hpc, rfl⟩ := of_onlyIf hs
    obtain ⟨hzero, hquiet, hwrap⟩ := hcond
    -- the condition: there is no reservation that the new one would write over
    have hp := hknown.calls t p (by rw [hpc]; rfl)
    have hidle : s.mid (.caller t) = none := congrArg Call.mid hpc
    refine balanced_reserve (h.begin hp hidle hquiet ?_) hwrap (mid_afterReserve p reservation)
    exact congrArg UInt32.toNat hzero
  | findsBorrower t p reservation deficit borrower =>
    obtain ⟨⟨hpc, -⟩, rfl⟩ := of_onlyIf hs
    rw [ledger_setCall_of_eq (by rw [mid_afterFindBorrower, hpc]; rfl)]
    exact h
  | borrowerIsReaped t p reservation borrower deficit =>
    obtain ⟨⟨hpc, -⟩, rfl⟩ := of_onlyIf hs
    rw [ledger_setCall_of_eq (by rw [hpc]; rfl)]
    exact h
  | reservesAgain t p reservation =>
    obtain ⟨hpc, rfl⟩ := of_onlyIf hs
    -- the call began with the first request
    refine balanced_reserve ?_ hcond (mid_afterReserveAgain p reservation)
    rw [Ledger.begin_of_mid (congrArg Call.mid hpc)]
    exact h
  | reservesRest t p reservation =>
    obtain ⟨hpc, rfl⟩ := of_onlyIf hs
    -- the condition: the last request is granted, as the code takes it to be
    refine balanced_reserve ?_ (fun _ => hcond.2) (by rw [if_pos hcond.1]; rfl)
    rw [Ledger.begin_of_mid (congrArg Call.mid hpc)]
    exact h
  | setsReserved t p reservation =>
    obtain ⟨hpc, rfl⟩ := of_onlyIf hs
    rw [ledger_setCall]
    exact balanced_setReserved h (congrArg Call.mid hpc)
  | forkFails t p =>
    obtain ⟨hpc, rfl⟩ := of_onlyIf hs
    rw [ProcessManager.forkFails, ledger_setCall_of_eq (by rw [act, modify_calls, hpc]; rfl),
      ledger_act (sameMemory_spawn _ _ .forkFails)]
    exact h
  | failedForkReleases t p =>
    obtain ⟨hpc, rfl⟩ := of_onlyIf hs
    have hp := hknown.calls t p (by rw [hpc]; rfl)
    rw [ledger_setCall]
    exact balanced_release h hp hcond (congrArg Call.mid hpc)
  | failedForkClears t p =>
    obtain ⟨hpc, rfl⟩ := of_onlyIf hs
    rw [ledger_setCall, unlock, ledger_modify_of_eq rfl rfl]
    exact balanced_setReserved h (congrArg Call.mid hpc)
  | forks t p pid =>
    obtain ⟨⟨hpc, -⟩, rfl⟩ := of_onlyIf hs
    have hsame : ((s.act p fun a => a.spawn a.mAssignedMb (.forks pid)).setCall t
        (.postFork p)).ledger = s.ledger := by
      rw [ledger_setCall_of_eq (by rw [act, modify_calls, hpc]; rfl),
        ledger_act (sameMemory_spawn _ _ (.forks pid))]
    rw [← hsame] at h
    exact h
  | postForks t p =>
    obtain ⟨⟨hpc, -⟩, rfl⟩ := of_onlyIf hs
    obtain ⟨pids, hregister⟩ := s.registerPid_eq p
    rw [postFork_cb,
      ledger_setCall_of_eq (by rw [unlock, modify_calls, registerPid_calls, hpc]; rfl), unlock,
      ledger_modify_of_eq rfl rfl, hregister]
    exact h
  | callsTerminate t p fast =>
    obtain ⟨⟨hpc, -⟩, rfl⟩ := of_onlyIf hs
    rw [ledger_setCall_of_eq (by rw [hpc]; rfl)]
    exact h
  | terminates t p fast caller =>
    obtain ⟨⟨hpc, -⟩, rfl⟩ := of_onlyIf hs
    obtain ⟨hnext, hstart⟩ := mid_next p fast caller
    rw [ProcessManager.terminate, ledger_setCall_of_eq, ledger_act (sameMemory_terminate _ t fast)]
    · exact h
    · rw [act, modify_calls, hpc]
      split
      · exact hstart
      · exact hnext
  | startsThread t p fast caller =>
    obtain ⟨hpc, rfl⟩ := of_onlyIf hs
    obtain ⟨hnext, hstart⟩ := mid_next p fast caller
    have hsame : ((s.act p fun a => a.startThread t fast).setCall t (caller.next p)).ledger =
        s.ledger := by
      rw [ledger_setCall_of_eq (by rw [act, modify_calls, hpc, hnext, hstart]),
        ledger_act (sameMemory_startThread _ t fast)]
    rw [← hsame] at h
    exact h
  | removesProcess t id =>
    obtain ⟨⟨hpc, -⟩, rfl⟩ := of_onlyIf hs
    unfold removeProcess
    split
    · exact h
    · rw [ledger_setCall_of_eq (by rw [hpc]; rfl)]
      exact h
  | seesExit t id p =>
    obtain ⟨⟨hpc, -⟩, rfl⟩ := of_onlyIf hs
    rw [ledger_setCall_of_eq (by rw [hpc]; rfl)]
    exact h
  | erasesProcess t id =>
    obtain ⟨⟨hpc, -⟩, rfl⟩ := of_onlyIf hs
    rw [eraseProcess, ledger_setCall_of_eq (by exact (congrArg Call.mid hpc).symm)]
    exact h
  | runsOutOfMemory t p =>
    obtain ⟨⟨hpc, -⟩, rfl⟩ := of_onlyIf hs
    rw [ledger_setCall_of_eq (by rw [hpc]; split <;> rfl)]
    exact h
  | borrows t p =>
    obtain ⟨hpc, rfl⟩ := of_onlyIf hs
    -- loans are counted apart from reservations
    rw [borrow_eq, ledger_setCall_of_eq, ledger_with_mMemory (s.mMemory.borrow_mReservedMb 128)]
    · exact h
    · refine Eq.trans ?_ (congrArg Call.mid hpc).symm
      split <;> rfl
  | lends t p borrowed =>
    obtain ⟨⟨hpc, -⟩, rfl⟩ := of_onlyIf hs
    rw [lend, ledger_setCall_of_eq (by rw [modify_calls, hpc]; rfl), ledger_modify_of_eq rfl rfl]
    exact h
  | process p e =>
    obtain ⟨a, hact, hguard⟩ := Option.bind_eq_some_iff.mp hs
    obtain ⟨-, rfl⟩ := of_onlyIf hguard
    rw [ledger_act (sameMemory_act hact)]
    exact h
  | collects pidList =>
    obtain ⟨⟨hpc, -⟩, rfl⟩ := of_onlyIf hs
    rw [ledger_setMonitor_of_eq (by rw [hpc]; rfl)]
    exact h
  | waitpid pid status pidList =>
    obtain ⟨⟨hpc, -⟩, rfl⟩ := of_onlyIf hs
    have hsame : (s.setMonitor (.handle pid status (pidList.erase pid))).ledger = s.ledger :=
      ledger_setMonitor_of_eq (by rw [hpc]; rfl)
    rw [← hsame] at h
    exact h
  | pollEnds pidList =>
    obtain ⟨hpc, rfl⟩ := of_onlyIf hs
    rw [ledger_setMonitor_of_eq (by rw [hpc]; rfl)]
    exact h
  | handles pid status pidList =>
    obtain ⟨hpc, rfl⟩ := of_onlyIf hs
    unfold ProcessManager.handleChildExit
    split
    · rw [ledger_setMonitor_of_eq (by rw [hpc]; rfl)]
      exact h
    · rw [ledger_setMonitor_of_eq (by rw [hpc]; rfl)]
      exact h
  | exitReleases x =>
    obtain ⟨hpc, rfl⟩ := of_onlyIf hs
    have hp := hknown.monitor x (by rw [hpc]; rfl)
    rw [ledger_setMonitor]
    exact balanced_release h hp hcond (congrArg MonitorPc.mid hpc)
  | exitClears x =>
    obtain ⟨hpc, rfl⟩ := of_onlyIf hs
    rw [ledger_setMonitor]
    exact balanced_setReserved h (congrArg MonitorPc.mid hpc)
  | erasesPid x =>
    obtain ⟨hpc, rfl⟩ := of_onlyIf hs
    rw [ledger_setMonitor_of_eq (by exact (congrArg MonitorPc.mid hpc).symm)]
    exact h
  | locksTerminated x =>
    obtain ⟨⟨hpc, -⟩, rfl⟩ := of_onlyIf hs
    unfold ProcessManager.lockTerminated
    split
    · rw [ledger_setMonitor_of_eq (by rw [hpc]; rfl)]
      exact h
    · rw [ledger_setMonitor_of_eq (by rw [lock, modify_exitMonitor, hpc]; rfl), lock,
        ledger_modify_of_eq rfl rfl]
      exact h
  | releasesAgain x =>
    -- the `exit_cb` inside `terminated`: there is nothing left to release by now
    obtain ⟨hpc, rfl⟩ := of_onlyIf hs
    have hp := hknown.monitor x (by rw [hpc]; rfl)
    rw [ledger_setMonitor]
    exact balanced_release h hp hcond (congrArg MonitorPc.mid hpc)
  | clearsAgain x =>
    obtain ⟨hpc, rfl⟩ := of_onlyIf hs
    rw [ledger_setMonitor]
    exact balanced_setReserved h (congrArg MonitorPc.mid hpc)
  | marks x =>
    obtain ⟨hpc, rfl⟩ := of_onlyIf hs
    rw [markTerminated, unlock, act, modify_modify,
      ledger_setMonitor_of_eq (by rw [modify_exitMonitor, hpc]; rfl),
      ledger_modify_of_eq rfl (sameMemory_terminated _ x.status).reserved]
    exact h

/-! ## Every run -/

theorem balanced_known_next (h : s.ledger.Balanced ∧ s.Known) {e : Event}
    (hcond : s.MemoryOrdered e) (hs : s.next e = some s') : s'.ledger.Balanced ∧ s'.Known :=
  ⟨balanced_next h.1 h.2 hcond hs, h.2.next hs⟩

theorem balanced_known_init {s : ProcessManager} (h : system.init s) :
    s.ledger.Balanced ∧ s.Known := by
  obtain ⟨availableMemoryMb, loanMemory, rfl⟩ := h
  constructor
  · exact
      { total := rfl
        settled := fun _ _ => rfl
        mid := fun a _ _ hmid => by cases a <;> cases hmid
        one := fun a _ _ _ _ hmid => by cases a <;> cases hmid
        fresh := fun _ _ => ⟨rfl, rfl⟩ }
  · exact
      { calls := fun _ _ hp => nomatch hp
        processes := fun _ _ hp => nomatch hp
        table := fun _ _ hp => nomatch hp
        monitor := fun _ hx => nomatch hx }

theorem balanced_of_reachable (h : system.ReachableWhen MemoryOrdered s) :
    s.ledger.Balanced ∧ s.Known :=
  h.invariant (I := fun s => s.ledger.Balanced ∧ s.Known) (fun _ => balanced_known_init)
    fun _ _ _ hi hcond hs => balanced_known_next hi hcond (next_of_step hs)

/-- The process whose reservation a step releases. -/
def Event.released : Event → Option Nat
  | .failedForkReleases _ p => some p
  | .exitReleases x | .releasesAgain x => some x.p
  | _ => none

theorem MemoryOrdered.quiet {e : Event} {p : Nat} (h : s.MemoryOrdered e)
    (hreleased : e.released = some p) : s.ledger.Quiet p := by
  cases e with
  | failedForkReleases | exitReleases | releasesAgain =>
    cases hreleased
    exact h
  | _ => cases hreleased

theorem Known.released (h : s.Known) {e : Event} {p : Nat} (hs : s.next e = some s')
    (hreleased : e.released = some p) : p < s.created := by
  cases e with
  | failedForkReleases t q =>
    obtain ⟨hpc, -⟩ := of_onlyIf hs
    cases hreleased
    exact h.calls t p (by rw [hpc]; rfl)
  | exitReleases x | releasesAgain x =>
    obtain ⟨hpc, -⟩ := of_onlyIf hs
    cases hreleased
    exact h.monitor x (by rw [hpc]; rfl)
  | _ => cases hreleased

/-- The reserved memory, before any step that satisfies `C`. -/
structure LedgerExact (C : ProcessManager → Event → Prop) (s : ProcessManager) : Prop where
  /-- While no `reserveMemory` or `releaseMemory` is in progress, the tracker has
      reserved what the processes have. -/
  total : (∀ a, s.mid a = none) →
    s.mMemory.mReservedMb.toNat =
      Finset.sum (Finset.range s.created) fun p => (s.objects p).mReservedMb.toNat
  /-- No release takes more than is reserved. -/
  releases : ∀ e s' p, C s e → s.step e = some s' → e.released = some p →
    (s.objects p).mReservedMb ≤ s.mMemory.mReservedMb

/-- **The reserved memory adds up** in every run that keeps the conditions. -/
theorem ledgerExact_of_memoryOrdered (h : system.ReachableWhen MemoryOrdered s) :
    LedgerExact MemoryOrdered s := by
  obtain ⟨hbalanced, hknown⟩ := balanced_of_reachable h
  refine { total := hbalanced.total_eq_sum_noted, releases := fun e s' p hcond hs hreleased => ?_ }
  exact release_le hbalanced (hknown.released (next_of_step hs) hreleased) (hcond.quiet hreleased)

/-- A process has reserved 100. -/
theorem ledgerExact_reserved : ∃ s, system.ReachableWhen MemoryOrdered s ∧
    s.mMemory.mReservedMb = 100 ∧ LedgerExact MemoryOrdered s := by
  have h₀ : system.ReachableWhen MemoryOrdered { mMemory := .set 1000, mLoanMemory := false } :=
    .init ⟨1000, false, rfl⟩
  have h₁ := h₀.next (e := Event.addsProcess (idOf 1)) trivial rfl
  have h₂ := h₁.next (e := Event.spawns 0 0 100 false) trivial rfl
  have h₃ := h₂.next (e := Event.reserves 0 0 100)
    ⟨rfl, fun a _ => match a with
      | .caller 0 => nofun
      | .caller (_ + 1) => nofun
      | .exitMonitor => nofun, fun _ => by decide⟩ rfl
  have h₄ := h₃.next (e := Event.setsReserved 0 0 100) trivial rfl
  exact ⟨_, h₄, rfl, ledgerExact_of_memoryOrdered h₄⟩

/-! ## A shortfall that is gone by the second call -/

def ofAvailable (availableMemoryMb : UInt32) : ProcessManager :=
  { mMemory := .set availableMemoryMb, mLoanMemory := false }

def addsThree : List Event :=
  [.addsProcess (idOf 1), .addsProcess (idOf 2), .addsProcess (idOf 3)]

/-- The second process asks for 60 and settles for the 50 that are left, but the third
    gets 30 of them first. -/
def overlaps : List Event :=
  [.spawns 0 1 60 false, .reserves 0 1 60,
    .spawns 1 2 30 false, .reserves 1 2 30, .setsReserved 1 2 30,
    .reservesRest 0 1 50, .setsReserved 0 1 50]

/-- Of 100, the first process has 50. -/
def overlappingSpawns : List Event := addsThree ++ (spawnsAs 0 50 7 ++ overlaps)

theorem overlappingSpawns_mid (a : Holder) :
    ((system.run (ofAvailable 100) overlappingSpawns).map fun s => s.mid a) = some none :=
  match a with
  | .caller 0 => rfl
  | .caller 1 => rfl
  | .caller (_ + 2) => rfl
  | .exitMonitor => rfl

theorem overlappingSpawns_reserved :
    ((system.run (ofAvailable 100) overlappingSpawns).map fun s =>
      (s.created, s.mMemory.mReservedMb, (s.objects 0).mReservedMb, (s.objects 1).mReservedMb,
        (s.objects 2).mReservedMb)) = some (3, 80, 50, 50, 30) := by
  decide

theorem not_forall_ledgerExact :
    ¬ ∀ s, system.Reachable s → LedgerExact (fun _ _ => True) s := by
  intro hall
  obtain ⟨s, hrun, hreserved⟩ := Option.map_eq_some_iff.mp overlappingSpawns_reserved
  have hidle : ∀ a, s.mid a = none := by
    intro a
    have hmid := overlappingSpawns_mid a
    rw [hrun] at hmid
    exact Option.some.inj hmid
  have hreach : system.Reachable s := ⟨_, ⟨100, false, rfl⟩, System.run_steps hrun⟩
  have htotal := (hall s hreach).total hidle
  simp only [Prod.mk.injEq] at hreserved
  obtain ⟨hcreated, hmemory, hfirst, hsecond, hthird⟩ := hreserved
  simp only [hcreated, Finset.sum_range_succ, Finset.sum_range_zero, hmemory, hfirst, hsecond,
    hthird] at htotal
  exact absurd htotal (by decide)

end ProcessManager

end Arras4Core.Execute
