/-
  Arras4Core.Execute.LoanLedger

  The memory that is lent and the memory the processes have borrowed.  The
  out-of-memory monitor borrows from the tracker and adds the loan to the
  process, in two steps; nothing in the program pays a loan back.  The two agree
  as long as loans go to live processes and no process that has borrowed is
  marked as terminated or reset.
-/

import Arras4Core.Execute.MemoryLedger

namespace Arras4Core.Execute

open Arras4Core.Lib

/-- A loan that the tracker has granted and that is not added to the process yet. -/
def Call.lent : Call → Nat
  | lend _ borrowed => borrowed.toNat
  | _ => 0

namespace ProcessManager

variable {s s' : ProcessManager}

/-- What the live processes have borrowed. -/
def liveLoans (s : ProcessManager) : Nat :=
  Finset.sum (Finset.range s.created) fun p =>
    if (s.objects p).mState = .Spawned ∨ (s.objects p).mState = .Terminating then
      (s.objects p).mBorrowedMb.toNat
    else 0

/-- The borrowed memory. -/
structure LoansExact (s : ProcessManager) : Prop where
  /-- The tracker has lent what the live processes have borrowed, and the loans that
      some threads have yet to add to their process. -/
  total : ∃ lenders : Finset Nat, (∀ t, t ∉ lenders → (s.calls t).lent = 0) ∧
    s.mMemory.mBorrowedMb.toNat =
      s.liveLoans + Finset.sum lenders fun t => (s.calls t).lent
  settled : (∀ t p borrowed, s.calls t ≠ .lend p borrowed) →
    s.mMemory.mBorrowedMb.toNat = s.liveLoans
  terminated : ∀ p < s.created, (s.objects p).mState = .Terminated →
    (s.objects p).mBorrowedMb = 0

/-- The conditions that keep the loans: a loan that is granted does not wrap around
    and goes to a process that is still live, and no process that has borrowed is
    marked as terminated or reset. -/
def BorrowersLive (s : ProcessManager) : Event → Prop
  | .borrows _ _ => s.mMemory.fits 128 → s.mMemory.mBorrowedMb.toNat + 128 < 2 ^ 32
  | .lends _ p _ => (s.objects p).isLive
  | .marks x => (s.objects x.p).mBorrowedMb = 0
  | .process p (.killResumes _) | .process p (.resetsState _) => (s.objects p).mBorrowedMb = 0
  | _ => True

/-! ## The invariant -/

/-- The loans add up, and only live processes have any. -/
structure LoansHeld (s : ProcessManager) (lenders : Finset Nat) : Prop where
  others : ∀ t, t ∉ lenders → (s.calls t).lent = 0
  total : s.mMemory.mBorrowedMb.toNat =
    (Finset.sum (Finset.range s.created) fun p => (s.objects p).mBorrowedMb.toNat) +
      Finset.sum lenders fun t => (s.calls t).lent
  live : ∀ p, (s.objects p).mBorrowedMb ≠ 0 → (s.objects p).isLive
  constructed : ∀ p, (s.objects p).isLive → p < s.created

/-- What has borrowed nothing counts the same whether it is live or not. -/
theorem LoansHeld.liveLoans_eq {lenders : Finset Nat} (h : s.LoansHeld lenders) :
    s.liveLoans = Finset.sum (Finset.range s.created) fun p => (s.objects p).mBorrowedMb.toNat := by
  refine Finset.sum_congr rfl fun p _ => ?_
  by_cases hlive : (s.objects p).isLive
  · exact if_pos hlive
  · have hzero : (s.objects p).mBorrowedMb = 0 := by
      by_contra hne
      exact hlive (h.live p hne)
    rw [hzero]
    exact if_neg hlive

theorem LoansHeld.exact {lenders : Finset Nat} (h : s.LoansHeld lenders) : s.LoansExact where
  total := ⟨lenders, h.others, by rw [h.liveLoans_eq]; exact h.total⟩
  settled hnone := by
    have hzero : ∀ t ∈ lenders, (s.calls t).lent = 0 := by
      intro t _
      cases hcall : s.calls t with
      | lend p borrowed => exact absurd hcall (hnone t p borrowed)
      | _ => rfl
    rw [h.total, h.liveLoans_eq, Finset.sum_eq_zero hzero, Nat.add_zero]
  terminated p _ hterm := by
    by_contra hne
    exact Process.not_isLive_of_terminated hterm (h.live p hne)

/-- A thread may always be counted among the lenders. -/
theorem LoansHeld.insert {lenders : Finset Nat} (h : s.LoansHeld lenders) (t : Nat) :
    s.LoansHeld (Insert.insert t lenders) :=
  { h with
    others := fun u hu => h.others u fun hmem => hu (Finset.mem_insert_of_mem hmem)
    total := by
      by_cases hmem : t ∈ lenders
      · rw [Finset.insert_eq_of_mem hmem]
        exact h.total
      · rw [Finset.sum_insert hmem, h.others t hmem, Nat.zero_add]
        exact h.total }

/-! ## Steps that leave the loans alone -/

/-- An object that keeps its loan, and stays live if it has one. -/
structure LoanKept (o o' : Object) : Prop where
  borrowed : o'.mBorrowedMb = o.mBorrowedMb
  live : o.mBorrowedMb ≠ 0 → o.isLive → o'.isLive

/-- Nothing happens to the loans; an object that becomes live has been constructed. -/
structure LoansKept (s s' : ProcessManager) : Prop where
  memory : s'.mMemory.mBorrowedMb = s.mMemory.mBorrowedMb
  created : s'.created = s.created
  lent : ∀ t, (s'.calls t).lent = (s.calls t).lent
  objects : ∀ p, LoanKept (s.objects p) (s'.objects p)
  constructed : ∀ p, (s'.objects p).isLive → (s.objects p).isLive ∨ p < s.created

theorem LoanKept.refl (o : Object) : LoanKept o o := ⟨rfl, fun _ => id⟩

theorem LoansKept.refl (s : ProcessManager) : LoansKept s s where
  memory := rfl
  created := rfl
  lent _ := rfl
  objects _ := .refl _
  constructed _ := .inl

theorem LoansKept.trans {s₁ s₂ s₃ : ProcessManager} (h₁ : LoansKept s₁ s₂) (h₂ : LoansKept s₂ s₃) :
    LoansKept s₁ s₃ where
  memory := h₂.memory.trans h₁.memory
  created := h₂.created.trans h₁.created
  lent t := (h₂.lent t).trans (h₁.lent t)
  objects p :=
    { borrowed := (h₂.objects p).borrowed.trans (h₁.objects p).borrowed
      live := fun hne hlive =>
        (h₂.objects p).live ((h₁.objects p).borrowed ▸ hne) ((h₁.objects p).live hne hlive) }
  constructed p hlive := by
    rcases h₂.constructed p hlive with hlive | hlt
    · exact h₁.constructed p hlive
    · exact .inr (h₁.created ▸ hlt)

theorem LoansHeld.kept {lenders : Finset Nat} (h : s.LoansHeld lenders) (hkept : LoansKept s s') :
    s'.LoansHeld lenders where
  others t ht := (hkept.lent t).trans (h.others t ht)
  total := by
    rw [hkept.memory, hkept.created, Finset.sum_congr rfl fun t _ => hkept.lent t,
      Finset.sum_congr rfl fun p _ => congrArg UInt32.toNat (hkept.objects p).borrowed]
    exact h.total
  live p hne := by
    have hne : (s.objects p).mBorrowedMb ≠ 0 := (hkept.objects p).borrowed ▸ hne
    exact (hkept.objects p).live hne (h.live p hne)
  constructed p hlive := by
    rw [hkept.created]
    exact (hkept.constructed p hlive).elim (h.constructed p) id

theorem loansKept_setCall {t : Nat} {call : Call} (h : call.lent = (s.calls t).lent) :
    LoansKept s (s.setCall t call) :=
  { LoansKept.refl s with
    lent := fun u => by
      by_cases hu : u = t
      · rw [hu, setCall_calls_self, h]
      · rw [setCall_calls_of_ne _ _ hu] }

theorem loansKept_setMonitor (pc : MonitorPc) : LoansKept s (s.setMonitor pc) :=
  { LoansKept.refl s with }

theorem loansKept_modify {p : Nat} {f : Object → Object}
    (hkept : LoanKept (s.objects p) (f (s.objects p)))
    (hconstructed : (f (s.objects p)).isLive → (s.objects p).isLive ∨ p < s.created) :
    LoansKept s (s.modify p f) :=
  { LoansKept.refl s with
    objects := fun q => by
      by_cases hq : q = p
      · rw [hq, modify_objects_self]
        exact hkept
      · rw [modify_objects_of_ne _ _ hq]
        exact .refl _
    constructed := fun q hlive => by
      by_cases hq : q = p
      · rw [hq, modify_objects_self] at hlive
        exact hq ▸ hconstructed hlive
      · rw [modify_objects_of_ne _ _ hq] at hlive
        exact .inl hlive }

theorem loansKept_act {p : Nat} {f : ActiveProcess → ActiveProcess}
    (hmemory : SameMemory (s.objects p).toProcess (f (s.objects p).toActiveProcess).toProcess)
    (hlive : (s.objects p).mBorrowedMb ≠ 0 → (s.objects p).isLive →
      (f (s.objects p).toActiveProcess).isLive)
    (hconstructed : (f (s.objects p).toActiveProcess).isLive →
      (s.objects p).isLive ∨ p < s.created) : LoansKept s (s.act p f) :=
  loansKept_modify ⟨hmemory.borrowed, hlive⟩ hconstructed

/-- A change of an object that leaves its state and its loan alone. -/
theorem loansKept_modify_of_eq {p : Nat} {f : Object → Object}
    (hstate : (f (s.objects p)).mState = (s.objects p).mState)
    (hborrowed : (f (s.objects p)).mBorrowedMb = (s.objects p).mBorrowedMb) :
    LoansKept s (s.modify p f) := by
  have hlive : (f (s.objects p)).isLive ↔ (s.objects p).isLive := by
    unfold Process.isLive
    rw [hstate]
  exact loansKept_modify ⟨hborrowed, fun _ => hlive.mpr⟩ fun h => .inl (hlive.mp h)

theorem loansKept_reserve (p : Nat) (amount : UInt32) : LoansKept s (s.reserve p amount) := by
  have hmodify : LoansKept s (s.modify p fun o =>
      { o with taken := if s.mMemory.fits amount then o.taken + amount.toNat else o.taken }) :=
    loansKept_modify_of_eq rfl rfl
  exact { hmodify with memory := s.mMemory.reserve_mBorrowedMb amount }

theorem loansKept_release (p : Nat) : LoansKept s (s.release p) := by
  have hmodify : LoansKept s (s.modify p fun o =>
      { o with taken := o.taken - o.mReservedMb.toNat }) := loansKept_modify_of_eq rfl rfl
  exact { hmodify with memory := rfl }

theorem loansKept_setReserved (p : Nat) (reservation : UInt32) :
    LoansKept s (s.setReserved p reservation) := loansKept_modify_of_eq rfl rfl

theorem loansKept_lock (p : Nat) (holder : Holder) : LoansKept s (s.lock p holder) :=
  loansKept_modify_of_eq rfl rfl

theorem loansKept_unlock (p : Nat) : LoansKept s (s.unlock p) := loansKept_modify_of_eq rfl rfl

/-! ## What calls have been granted -/

theorem lent_afterReserve (p : Nat) (reservation : UInt32) :
    (s.afterReserve p reservation).lent = 0 := by
  unfold afterReserve
  split
  · rfl
  · split <;> rfl

theorem lent_afterReserveAgain (p : Nat) (reservation : UInt32) :
    (s.afterReserveAgain p reservation).lent = 0 := by
  unfold afterReserveAgain
  split <;> rfl

theorem lent_afterFindBorrower (p : Nat) (reservation : UInt32) (deficit : Int)
    (borrower : Option Nat) : (s.afterFindBorrower p reservation deficit borrower).lent = 0 := by
  cases borrower <;> rfl

theorem lent_next (p : Nat) (caller : TerminateCaller) : (caller.next p).lent = 0 := by
  cases caller <;> rfl

/-! ## What a process does by itself -/

theorem isLive_spawn {a : ActiveProcess} (h : a.isLive) (assignedMb : UInt32)
    (outcome : SpawnOutcome) : (a.spawn assignedMb outcome).isLive := by
  unfold ActiveProcess.spawn
  rw [if_pos]
  · exact h
  · intro hstate
    exact Process.not_isLive_of_notSpawned hstate h

theorem isLive_terminate {a : ActiveProcess} (caller : Nat) (fast : Bool) :
    (a.terminate caller fast).isLive ↔ a.isLive := by
  unfold ActiveProcess.terminate
  split
  · next hstate =>
    have hterm := a.toProcess.terminated_mState ⟨.Internal, ExitStatus.NOT_SPAWNED⟩
    exact iff_of_false (Process.not_isLive_of_terminated hterm)
      (Process.not_isLive_of_notSpawned hstate)
  · exact .rfl
  · exact .rfl
  · next hstate => exact iff_of_true (.inr rfl) (.inl hstate)

/-! ## One step -/

/-- The steps that lend, or make room for another process. -/
def Event.changesLoans : Event → Bool
  | .addsProcess _ | .borrows _ _ | .lends _ _ _ => true
  | _ => false

theorem LoansKept.setCall (h : LoansKept s s') {t : Nat} {old call : Call}
    (hpc : s.calls t = old) (hlent : call.lent = old.lent) : LoansKept s (s'.setCall t call) :=
  h.trans (loansKept_setCall (hlent.trans (by rw [← hpc, h.lent])))

theorem loansKept_next (hknown : s.Known) {e : Event} (hcond : s.BorrowersLive e)
    (hchanges : e.changesLoans = false) (hs : s.next e = some s') : LoansKept s s' := by
  cases e with
  | addsProcess | borrows | lends => cases hchanges
  | spawns t p assignedMb pipeFails =>
    obtain ⟨⟨hidle, hp, -⟩, rfl⟩ := of_onlyIf hs
    unfold ProcessManager.spawn
    split
    · exact .refl s
    · split
      · -- the pipe fails, and the process is marked as terminated
        exact loansKept_act (sameMemory_spawn _ assignedMb .pipeFails)
          (fun _ hlive => isLive_spawn hlive assignedMb .pipeFails) fun _ => .inr hp
      · have hmodify : LoansKept s (s.modify p fun o => { o with mAssignedMb := assignedMb }) :=
          loansKept_modify_of_eq rfl rfl
        exact (hmodify.trans (loansKept_lock p (.caller t))).setCall hidle rfl
  | reserves t p reservation =>
    obtain ⟨hpc, rfl⟩ := of_onlyIf hs
    exact (loansKept_reserve p reservation).setCall hpc (lent_afterReserve p reservation)
  | findsBorrower t p reservation deficit borrower =>
    obtain ⟨⟨hpc, -⟩, rfl⟩ := of_onlyIf hs
    exact (LoansKept.refl s).setCall hpc (lent_afterFindBorrower p reservation deficit borrower)
  | borrowerIsReaped t p reservation borrower deficit =>
    obtain ⟨⟨hpc, -⟩, rfl⟩ := of_onlyIf hs
    exact (LoansKept.refl s).setCall hpc rfl
  | reservesAgain t p reservation =>
    obtain ⟨hpc, rfl⟩ := of_onlyIf hs
    exact (loansKept_reserve p reservation).setCall hpc (lent_afterReserveAgain p reservation)
  | reservesRest t p reservation =>
    obtain ⟨hpc, rfl⟩ := of_onlyIf hs
    exact (loansKept_reserve p reservation).setCall hpc rfl
  | setsReserved t p reservation =>
    obtain ⟨hpc, rfl⟩ := of_onlyIf hs
    exact (loansKept_setReserved p reservation).setCall hpc rfl
  | forkFails t p =>
    obtain ⟨hpc, rfl⟩ := of_onlyIf hs
    have hp := hknown.calls t p (by rw [hpc]; rfl)
    have hact := loansKept_act (f := fun a => a.spawn a.mAssignedMb .forkFails)
      (sameMemory_spawn (s.objects p).toActiveProcess _ .forkFails)
      (fun _ hlive => isLive_spawn hlive _ .forkFails) fun _ => .inr hp
    exact hact.setCall hpc rfl
  | failedForkReleases t p =>
    obtain ⟨hpc, rfl⟩ := of_onlyIf hs
    exact (loansKept_release p).setCall hpc rfl
  | failedForkClears t p =>
    obtain ⟨hpc, rfl⟩ := of_onlyIf hs
    exact ((loansKept_setReserved p 0).trans (loansKept_unlock p)).setCall hpc rfl
  | forks t p pid =>
    obtain ⟨⟨hpc, -⟩, rfl⟩ := of_onlyIf hs
    have hp := hknown.calls t p (by rw [hpc]; rfl)
    have hact := loansKept_act (f := fun a => a.spawn a.mAssignedMb (.forks pid))
      (sameMemory_spawn (s.objects p).toActiveProcess _ (.forks pid))
      (fun _ hlive => isLive_spawn hlive _ (.forks pid)) fun _ => .inr hp
    have hcall : LoansKept s ((s.act p fun a => a.spawn a.mAssignedMb (.forks pid)).setCall t
      (.postFork p)) := hact.setCall hpc rfl
    exact { hcall with }
  | postForks t p =>
    obtain ⟨⟨hpc, -⟩, rfl⟩ := of_onlyIf hs
    obtain ⟨pids, hregister⟩ := s.registerPid_eq p
    have hregistered : LoansKept s (s.registerPid p) := by
      rw [hregister]
      exact { LoansKept.refl s with }
    exact (hregistered.trans (loansKept_unlock p)).setCall hpc rfl
  | callsTerminate t p fast =>
    obtain ⟨⟨hpc, -⟩, rfl⟩ := of_onlyIf hs
    exact (LoansKept.refl s).setCall hpc rfl
  | terminates t p fast caller =>
    obtain ⟨⟨hpc, -⟩, rfl⟩ := of_onlyIf hs
    have hact := loansKept_act (f := fun a => a.terminate t fast)
      (sameMemory_terminate (s.objects p).toActiveProcess t fast)
      (fun _ => (isLive_terminate t fast).mpr)
      fun hlive => .inl ((isLive_terminate t fast).mp hlive)
    refine hact.setCall hpc ?_
    split
    · rfl
    · exact lent_next p caller
  | startsThread t p fast caller =>
    obtain ⟨hpc, rfl⟩ := of_onlyIf hs
    have hsame : ((s.objects p).startThread t fast).toProcess = (s.objects p).toProcess := by
      unfold ActiveProcess.startThread
      split <;> rfl
    have hact := loansKept_act (f := fun a => a.startThread t fast)
      (sameMemory_startThread (s.objects p).toActiveProcess t fast)
      (fun _ hlive => by rw [hsame]; exact hlive) fun hlive => .inl (hsame ▸ hlive)
    have hcall : LoansKept s ((s.act p fun a => a.startThread t fast).setCall t (caller.next p)) :=
      hact.setCall hpc (lent_next p caller)
    exact { hcall with }
  | removesProcess t id =>
    obtain ⟨⟨hpc, -⟩, rfl⟩ := of_onlyIf hs
    unfold removeProcess
    split
    · exact .refl s
    · exact (LoansKept.refl s).setCall hpc rfl
  | seesExit t id p =>
    obtain ⟨⟨hpc, -⟩, rfl⟩ := of_onlyIf hs
    exact (LoansKept.refl s).setCall hpc rfl
  | erasesProcess t id =>
    obtain ⟨⟨hpc, -⟩, rfl⟩ := of_onlyIf hs
    have herased : LoansKept s { s with mProcesses := Function.update s.mProcesses id none } :=
      { LoansKept.refl s with }
    exact herased.setCall hpc rfl
  | runsOutOfMemory t p =>
    obtain ⟨⟨hpc, -⟩, rfl⟩ := of_onlyIf hs
    refine (LoansKept.refl s).setCall hpc ?_
    split <;> rfl
  | process p e =>
    obtain ⟨a, hact, hguard⟩ := Option.bind_eq_some_iff.mp hs
    obtain ⟨⟨hp, hlocal, -⟩, rfl⟩ := of_onlyIf hguard
    refine loansKept_act (f := fun _ => a) (sameMemory_act hact) (fun hne hlive => ?_)
      fun _ => .inr hp
    cases e with
    | spawn | terminate | terminated => cases hlocal
    -- the condition: a borrower is neither given up on nor reset
    | killResumes i | resetsState caller => exact absurd hcond hne
    | _ =>
      rw [ActiveProcess.toProcess_of_not_writes rfl hact]
      exact hlive
  | collects | waitpid | pollEnds =>
    obtain ⟨-, rfl⟩ := of_onlyIf hs
    exact { LoansKept.refl s with }
  | handles pid status pidList =>
    obtain ⟨-, rfl⟩ := of_onlyIf hs
    unfold ProcessManager.handleChildExit
    split <;> exact loansKept_setMonitor _
  | exitReleases x | releasesAgain x =>
    obtain ⟨-, rfl⟩ := of_onlyIf hs
    exact (loansKept_release x.p).trans (loansKept_setMonitor _)
  | exitClears x | clearsAgain x =>
    obtain ⟨-, rfl⟩ := of_onlyIf hs
    exact (loansKept_setReserved x.p 0).trans (loansKept_setMonitor _)
  | erasesPid x =>
    obtain ⟨-, rfl⟩ := of_onlyIf hs
    exact { LoansKept.refl s with }
  | locksTerminated x =>
    obtain ⟨-, rfl⟩ := of_onlyIf hs
    unfold ProcessManager.lockTerminated
    split
    · exact loansKept_setMonitor _
    · exact (loansKept_lock x.p .exitMonitor).trans (loansKept_setMonitor _)
  | marks x =>
    obtain ⟨-, rfl⟩ := of_onlyIf hs
    -- the condition: what is marked has no loan
    have hterm := (s.objects x.p).toProcess.terminated_mState x.status
    have hact := loansKept_act (f := fun a => a.update (a.toProcess.terminated x.status))
      (s := s) (p := x.p) (sameMemory_terminated _ x.status) (fun hne => absurd hcond hne)
      (fun hlive => absurd hlive (Process.not_isLive_of_terminated hterm))
    exact (hact.trans (loansKept_unlock x.p)).trans (loansKept_setMonitor _)

theorem LoansHeld.addProcess {lenders : Finset Nat} (h : s.LoansHeld lenders) (id : Api.UUID) :
    (s.addProcess id).LoansHeld lenders := by
  have hkept : LoansKept s (s.modify s.created fun o => { o with mId := id }) :=
    loansKept_modify_of_eq rfl rfl
  have hmodify := h.kept hkept
  -- an object that is not constructed is not live, so it has no loan
  have hzero : (s.objects s.created).mBorrowedMb = 0 := by
    by_contra hne
    exact Nat.lt_irrefl _ (h.constructed _ (h.live _ hne))
  exact
    { hmodify with
      total := by
        simp only [ProcessManager.addProcess, Finset.sum_range_succ]
        rw [modify_objects_self]
        simp only [hzero, UInt32.toNat_zero, Nat.add_zero]
        exact hmodify.total
      constructed := fun p hlive => Nat.lt_succ_of_lt (hmodify.constructed p hlive) }

/-- What the lenders have been granted, when one of them moves on. -/
theorem sum_lent_setCall {lenders : Finset Nat} {t : Nat} (ht : t ∈ lenders) (call : Call) :
    (Finset.sum lenders fun u => ((s.setCall t call).calls u).lent) + (s.calls t).lent =
      (Finset.sum lenders fun u => (s.calls u).lent) + call.lent := by
  rw [← Ledger.sum_update (f := fun u => (s.calls u).lent) ht call.lent]
  congr 1
  refine Finset.sum_congr rfl fun u _ => ?_
  by_cases hu : u = t
  · rw [hu, setCall_calls_self, Function.update_self]
  · rw [setCall_calls_of_ne _ _ hu, Function.update_of_ne hu]

/-- What the processes have borrowed, when one of them changes. -/
theorem sum_borrowed_modify {p : Nat} (hp : p < s.created) (f : Object → Object) :
    (Finset.sum (Finset.range s.created) fun q =>
        ((s.modify p f).objects q).mBorrowedMb.toNat) + (s.objects p).mBorrowedMb.toNat =
      (Finset.sum (Finset.range s.created) fun q => (s.objects q).mBorrowedMb.toNat) +
        (f (s.objects p)).mBorrowedMb.toNat := by
  rw [← Ledger.sum_update (f := fun q => (s.objects q).mBorrowedMb.toNat)
    (Finset.mem_range.mpr hp) (f (s.objects p)).mBorrowedMb.toNat]
  congr 1
  refine Finset.sum_congr rfl fun q _ => ?_
  by_cases hq : q = p
  · rw [hq, modify_objects_self, Function.update_self]
  · rw [modify_objects_of_ne _ _ hq, Function.update_of_ne hq]

/-- A lender that moves on is still counted. -/
theorem LoansHeld.others_setCall {lenders : Finset Nat} (h : s.LoansHeld lenders) {t : Nat}
    (ht : t ∈ lenders) (call : Call) (u : Nat) (hu : u ∉ lenders) :
    ((s.setCall t call).calls u).lent = 0 := by
  have hne : u ≠ t := by
    rintro rfl
    exact hu ht
  rw [setCall_calls_of_ne _ _ hne]
  exact h.others u hu

theorem LoansHeld.borrow {lenders : Finset Nat} (h : s.LoansHeld lenders) {t p : Nat}
    (hpc : s.calls t = .borrow p)
    (hwrap : s.mMemory.fits 128 → s.mMemory.mBorrowedMb.toNat + 128 < 2 ^ 32) :
    (s.borrow t p).LoansHeld (Insert.insert t lenders) := by
  have hmem := Finset.mem_insert_self t lenders
  have h := h.insert t
  have hlent : (s.calls t).lent = 0 := by rw [hpc]; rfl
  rw [borrow_eq]
  by_cases hfits : s.mMemory.fits 128
  · -- the tracker has lent 128 more, and the thread has yet to hand them on
    obtain ⟨hamount, hmemory⟩ := MemoryTracking.borrow_of_fits hfits (hwrap hfits)
    have hsum := sum_lent_setCall (s := s) hmem (.lend p 128)
    rw [hlent, Nat.add_zero] at hsum
    rw [hamount, if_pos (by decide)]
    exact
      { others := h.others_setCall hmem (.lend p 128)
        total := by
          refine hmemory.trans ?_
          rw [h.total, Nat.add_assoc]
          exact congrArg (_ + ·) hsum.symm
        live := h.live
        constructed := h.constructed }
  · rw [MemoryTracking.borrow_of_not_fits hfits, if_neg (show ¬ (0 : UInt32) < 0 by decide)]
    exact h.kept (loansKept_setCall hlent.symm)

theorem LoansHeld.lend {lenders : Finset Nat} (h : s.LoansHeld lenders) {t p : Nat}
    {borrowed : UInt32} (hpc : s.calls t = .lend p borrowed) (hlive : (s.objects p).isLive) :
    (s.lend t p borrowed).LoansHeld (Insert.insert t lenders) := by
  have hmem := Finset.mem_insert_self t lenders
  have h := h.insert t
  have hp := h.constructed p hlive
  have hlent : (s.calls t).lent = borrowed.toNat := by rw [hpc]; rfl
  let f : Object → Object := fun o => { o with mBorrowedMb := o.mBorrowedMb + borrowed }
  -- the loan is part of what the tracker has lent, so the sum of the two does not wrap around
  have hloan : (f (s.objects p)).mBorrowedMb.toNat =
      (s.objects p).mBorrowedMb.toNat + borrowed.toNat := by
    have hborrowed := Finset.single_le_sum (f := fun q => (s.objects q).mBorrowedMb.toNat)
      (fun _ _ => Nat.zero_le _) (Finset.mem_range.mpr hp)
    have hgranted := Finset.single_le_sum (f := fun u => (s.calls u).lent)
      (fun _ _ => Nat.zero_le _) hmem
    have htotal := h.total
    have hlt := s.mMemory.mBorrowedMb.toNat_lt
    simp only [f, UInt32.toNat_add]
    omega
  -- what the thread had moves from one sum to the other
  have hborrowed := sum_borrowed_modify hp f
  have hsum := sum_lent_setCall (s := s) hmem .idle
  exact
    { others := h.others_setCall hmem .idle
      total := by
        have htotal := h.total
        show s.mMemory.mBorrowedMb.toNat =
          (Finset.sum (Finset.range s.created) fun q =>
            ((s.modify p f).objects q).mBorrowedMb.toNat) +
          Finset.sum (Insert.insert t lenders) fun u => ((s.setCall t .idle).calls u).lent
        have hidle : Call.idle.lent = 0 := rfl
        omega
      live := fun q hne => by
        by_cases hq : q = p
        · rw [hq]
          show ((s.modify p f).objects p).isLive
          rw [modify_objects_self]
          exact hlive
        · have heq : (s.lend t p borrowed).objects q = s.objects q := modify_objects_of_ne _ f hq
          rw [heq] at hne ⊢
          exact h.live q hne
      constructed := fun q hq => by
        by_cases heq : q = p
        · exact heq ▸ hp
        · have hobject : (s.lend t p borrowed).objects q = s.objects q :=
            modify_objects_of_ne _ f heq
          rw [hobject] at hq
          exact h.constructed q hq }

/-! ## Every run -/

theorem loansHeld_next {lenders : Finset Nat} (h : s.LoansHeld lenders) (hknown : s.Known)
    {e : Event} (hcond : s.BorrowersLive e) (hs : s.next e = some s') :
    ∃ lenders', s'.LoansHeld lenders' := by
  by_cases hchanges : e.changesLoans = false
  · exact ⟨lenders, h.kept (loansKept_next hknown hcond hchanges hs)⟩
  · cases e with
    | addsProcess id =>
      obtain ⟨-, rfl⟩ := of_onlyIf hs
      exact ⟨lenders, h.addProcess id⟩
    | borrows t p =>
      obtain ⟨hpc, rfl⟩ := of_onlyIf hs
      exact ⟨_, h.borrow hpc hcond⟩
    | lends t p borrowed =>
      obtain ⟨⟨hpc, -⟩, rfl⟩ := of_onlyIf hs
      exact ⟨_, h.lend hpc hcond⟩
    | _ => exact absurd rfl hchanges

theorem loansHeld_of_reachable (h : system.ReachableWhen BorrowersLive s) :
    (∃ lenders, s.LoansHeld lenders) ∧ s.Known := by
  apply h.invariant (I := fun s => (∃ lenders, s.LoansHeld lenders) ∧ s.Known)
  · intro s₀ hinit
    refine ⟨⟨∅, ?_⟩, (balanced_known_init hinit).2⟩
    obtain ⟨availableMemoryMb, loanMemory, rfl⟩ := hinit
    exact
      { others := fun _ _ => rfl
        total := rfl
        live := fun _ hne => absurd rfl hne
        constructed := fun _ hlive => by rcases hlive with h | h <;> cases h }
  · rintro s₁ e s₂ ⟨⟨lenders, hheld⟩, hknown⟩ hcond hs
    have hnext := next_of_step hs
    exact ⟨loansHeld_next hheld hknown hcond hnext, hknown.next hnext⟩

/-- **The borrowed memory adds up** in every run that keeps the conditions. -/
theorem loansExact_of_borrowersLive (h : system.ReachableWhen BorrowersLive s) :
    s.LoansExact := by
  obtain ⟨⟨_, hheld⟩, -⟩ := loansHeld_of_reachable h
  exact hheld.exact

/-- A process that is out of memory has been lent 128. -/
theorem loansExact_lent : ∃ s, system.ReachableWhen BorrowersLive s ∧
    s.mMemory.mBorrowedMb = 128 ∧ (s.objects 0).mBorrowedMb = 128 ∧ s.LoansExact := by
  have h : ∃ s, system.ReachableWhen BorrowersLive s ∧
      s.mMemory.mBorrowedMb = 128 ∧ (s.objects 0).mBorrowedMb = 128 := by
    have h₀ : system.ReachableWhen BorrowersLive { mMemory := .set 1000, mLoanMemory := true } :=
      .init ⟨1000, true, rfl⟩
    have h₁ := h₀.next (e := Event.addsProcess (idOf 1)) trivial rfl
    have h₂ := h₁.next (e := Event.spawns 0 0 100 false) trivial rfl
    have h₃ := h₂.next (e := Event.reserves 0 0 100) trivial rfl
    have h₄ := h₃.next (e := Event.setsReserved 0 0 100) trivial rfl
    have h₅ := h₄.next (e := Event.forks 0 0 7) trivial rfl
    have h₆ := h₅.next (e := Event.postForks 0 0) trivial rfl
    have h₇ := h₆.next (e := Event.runsOutOfMemory 1 0) trivial rfl
    have h₈ := h₇.next (e := Event.borrows 1 0) (fun _ => by decide) rfl
    exact ⟨_, h₈.next (e := Event.lends 1 0 128) (.inl rfl) rfl, rfl, rfl⟩
  obtain ⟨s, hreach, htracker, hprocess⟩ := h
  exact ⟨s, hreach, htracker, hprocess, loansExact_of_borrowersLive hreach⟩

/-! ## A borrower that exits -/

def isLent128 : List Event := [.runsOutOfMemory 1 0, .borrows 1 0, .lends 1 0 128]

/-- The exit of process 7, from the `exit_cb` in `handleChildExit` on. -/
def exitIsHandled : List Event :=
  [.exitReleases exit7, .exitClears exit7, .erasesPid exit7, .locksTerminated exit7,
    .releasesAgain exit7, .clearsAgain exit7, .marks exit7]

/-- Process 7 is lent 128 and exits. -/
def borrowerExits : List Event :=
  .addsProcess (idOf 1) :: (spawnsAs 0 100 7 ++ (isLent128 ++ (exits7 ++ exitIsHandled)))

/-- It keeps its loan, and so does the tracker. -/
theorem not_forall_loansExact : ¬ ∀ s, system.Reachable s → s.LoansExact := by
  intro hall
  obtain ⟨s, hreach, hs⟩ := System.exists_reachable_of_run (M := system)
    (fun s => decide (0 < s.created ∧ (s.objects 0).mState = .Terminated ∧
      (s.objects 0).mBorrowedMb = 128))
    borrowerExits (s := { mMemory := .set 1000, mLoanMemory := true }) ⟨1000, true, rfl⟩
    (by decide)
  obtain ⟨hcreated, hterm, hborrowed⟩ := of_decide_eq_true hs
  have hnone := (hall s hreach).terminated 0 hcreated hterm
  exact absurd (hborrowed.symm.trans hnone) (by decide)

end ProcessManager

end Arras4Core.Execute
