/-
  Arras4Core.Execute.StateMutex

  What the steps of the manager do to a process, whatever else goes on: who holds
  its state mutex, what stays as it is, and how it gets to be spawned.  The caller
  of `spawn` holds the mutex all the time, so nobody else spawns the process it is
  about to fork.
-/

import Arras4Core.Execute.MemoryLedger

namespace Arras4Core.Execute

open Arras4Core.Lib

namespace ProcessManager

variable {s s' : ProcessManager}

/-! ## Who holds a state mutex -/

/-- The callers of `spawn` and the exit monitor hold the mutexes they have locked. -/
structure Holds (s : ProcessManager) : Prop where
  calls : ∀ t, s.CallOk t
  monitor : ∀ x, s.exitMonitor.locked = some x → (s.objects x.p).mStateMutex = some .exitMonitor

/-- A step that leaves alone what others than `me` hold. -/
theorem Holds.of_held (h : s.Holds) (me : Option Holder)
    (hobjects : ∀ p holder, (s.objects p).mStateMutex = some holder → some holder ≠ me →
      SameCore (s.objects p) (s'.objects p))
    (hcalls : ∀ t, (s'.calls t = s.calls t ∧ some (.caller t) ≠ me) ∨ s'.CallOk t)
    (hmonitor : ∀ x, s'.exitMonitor.locked = some x →
      (s.exitMonitor.locked = some x ∧ some .exitMonitor ≠ me) ∨
        (s'.objects x.p).mStateMutex = some .exitMonitor) : s'.Holds where
  calls t := by
    obtain ⟨hsame, hne⟩ | hok := hcalls t
    · intro p hlocked
      rw [hsame] at hlocked ⊢
      obtain ⟨hmutex, hbefore, hforked⟩ := h.calls t p hlocked
      have hcore := hobjects p _ hmutex hne
      refine ⟨hcore.mutex.trans hmutex, fun hb => hcore.state.trans (hbefore hb), fun hf => ?_⟩
      unfold Forked Process.isLive
      rw [hcore.state, hcore.pid]
      exact hforked hf
    · exact hok
  monitor x hx := by
    obtain ⟨hold, hne⟩ | hnew := hmonitor x hx
    · have hmutex := h.monitor x hold
      exact (hobjects x.p _ hmutex hne).mutex.trans hmutex
    · exact hnew

theorem Holds.callMoves (h : s.Holds) {t : Nat} (hmoves : CallMoves s s' t) : s'.Holds := by
  refine h.of_held none (fun p _ _ _ => hmoves.objects p) (fun u => ?_)
    (fun x hx => .inl ⟨hmoves.monitor ▸ hx, nofun⟩)
  by_cases hu : u = t
  · exact .inr (hu ▸ (h.calls t).goes hmoves.objects hmoves.goes)
  · exact .inl ⟨hmoves.others u hu, nofun⟩

theorem Holds.setCall (h : s.Holds) {t : Nat} {call : Call} (hgoes : Goes (s.calls t) call) :
    (s.setCall t call).Holds :=
  h.callMoves (callMoves_setCall (fun _ => ⟨rfl, rfl, rfl, rfl⟩) rfl rfl rfl hgoes)

/-- A process is changed under its mutex, and the mutex is not kept. -/
theorem Holds.modify_free (h : s.Holds) {p : Nat} {f : Object → Object} (hfree : s.stateFree p) :
    (s.modify p f).Holds := by
  refine h.of_held none (fun q holder hholder _ => ?_) (fun _ => .inl ⟨rfl, nofun⟩)
    (fun x hx => .inl ⟨hx, nofun⟩)
  by_cases hq : q = p
  · subst hq
    cases hfree.symm.trans hholder
  · rw [modify_objects_of_ne _ _ hq]
    exact ⟨rfl, rfl, rfl, rfl⟩

/-- Thread `t` changes the process whose mutex it holds. -/
theorem Holds.modify_mine (h : s.Holds) {t p : Nat} {f : Object → Object} (call : Call)
    (hlocked : (s.calls t).locked = some p)
    (hcall : call.locked = none ∨ call.locked = some p ∧
      (f (s.objects p)).mStateMutex = some (.caller t) ∧
      (call.beforeFork = true → (f (s.objects p)).mState = .NotSpawned) ∧
      (call = .postFork p → Forked (f (s.objects p)))) :
    ((s.modify p f).setCall t call).Holds := by
  obtain ⟨hmutex, -, -⟩ := h.calls t p hlocked
  refine h.of_held (some (.caller t)) (fun q holder hholder hne => ?_) (fun u => ?_)
    (fun x hx => .inl ⟨hx, nofun⟩)
  · by_cases hq : q = p
    · subst hq
      exact absurd (hholder.symm.trans hmutex) hne
    · rw [setCall_objects, modify_objects_of_ne _ _ hq]
      exact ⟨rfl, rfl, rfl, rfl⟩
  · by_cases hu : u = t
    · subst hu
      exact .inr (callOk_modify hcall)
    · exact .inl ⟨setCall_calls_of_ne _ _ hu, fun heq => hu (by cases heq; rfl)⟩

/-- The exit monitor moves on, and no process changes. -/
theorem Holds.monitorMoves (h : s.Holds)
    (hobjects : ∀ p, SameCore (s.objects p) (s'.objects p)) (hcalls : s'.calls = s.calls)
    (hlocked : s'.exitMonitor.locked = none ∨ s'.exitMonitor.locked = s.exitMonitor.locked) :
    s'.Holds := by
  refine h.of_held none (fun p _ _ _ => hobjects p) (fun u => .inl ⟨congrFun hcalls u, nofun⟩)
    (fun x hx => ?_)
  obtain hnone | hsame := hlocked
  · cases hnone.symm.trans hx
  · exact .inl ⟨hsame ▸ hx, nofun⟩

theorem Holds.spawn (h : s.Holds) {t p : Nat} (hfree : s.stateFree p)
    (assignedMb : UInt32) (pipeFails : Bool) :
    (s.spawn t p assignedMb pipeFails).Holds := by
  unfold ProcessManager.spawn
  split
  · exact h
  · next hstate =>
    have hstate := Decidable.not_not.mp hstate
    split
    · exact h.modify_free hfree
    · -- the caller keeps the mutex
      have hlocks := h.modify_free (f := fun o =>
        { o with mAssignedMb := assignedMb, mStateMutex := some (.caller t) }) hfree
      rw [lock, modify_modify]
      refine hlocks.of_held none (fun _ _ _ _ => ⟨rfl, rfl, rfl, rfl⟩) (fun u => ?_)
        (fun x hx => .inl ⟨hx, Option.some_ne_none _⟩)
      by_cases hu : u = t
      · subst hu
        refine .inr (callOk_modify (.inr ⟨rfl, rfl, fun _ => hstate, fun hcall => ?_⟩))
        cases hcall
      · exact .inl ⟨setCall_calls_of_ne _ _ hu, Option.some_ne_none _⟩

theorem Holds.forks (h : s.Holds) {t p pid : Nat} (hpc : s.calls t = .fork p) (hpid : pid ≠ 0) :
    (s.forks t p pid).Holds := by
  have hlocked : (s.calls t).locked = some p := by rw [hpc]; rfl
  obtain ⟨hmutex, hstate, -⟩ := h.calls t p hlocked
  have hstate := hstate (by rw [hpc]; rfl)
  have hspawned := h.modify_mine (.postFork p)
    (f := fun o => { o with
      toActiveProcess := o.toActiveProcess.spawn o.mAssignedMb (.forks pid) }) hlocked
    (.inr ⟨rfl, hmutex, nofun, fun _ => forked_spawn hstate hpid⟩)
  exact { hspawned with }

theorem Holds.lockTerminated (h : s.Holds) {x : ChildExit} (hfree : s.stateFree x.p) :
    (s.lockTerminated x).Holds := by
  unfold ProcessManager.lockTerminated
  split
  · exact h.monitorMoves (fun _ => ⟨rfl, rfl, rfl, rfl⟩) rfl (.inl rfl)
  · have hlocks := h.modify_free (f := fun o => { o with mStateMutex := some .exitMonitor }) hfree
    refine hlocks.of_held none (fun _ _ _ _ => ⟨rfl, rfl, rfl, rfl⟩) (fun _ => .inl ⟨rfl, nofun⟩)
      (fun y hy => .inr ?_)
    cases hy
    rw [setMonitor_objects, lock, modify_objects_self]

theorem Holds.markTerminated (h : s.Holds) {x : ChildExit} (hpc : s.exitMonitor = .mark x) :
    (s.markTerminated x).Holds := by
  have hmutex := h.monitor x (by rw [hpc]; rfl)
  unfold ProcessManager.markTerminated act unlock
  rw [modify_modify]
  refine h.of_held (some .exitMonitor) (fun q holder hholder hne => ?_)
    (fun _ => .inl ⟨rfl, nofun⟩) nofun
  by_cases hq : q = x.p
  · subst hq
    exact absurd (hholder.symm.trans hmutex) hne
  · rw [setMonitor_objects, modify_objects_of_ne _ _ hq]
    exact ⟨rfl, rfl, rfl, rfl⟩

/-- A step of a process by itself. -/
theorem Holds.process (h : s.Holds) {p : Nat} {e : ActiveProcess.Event} {a : ActiveProcess}
    (hact : (s.objects p).act e = some a) (hlocks : e.locks = true → s.stateFree p) :
    (s.act p fun _ => a).Holds := by
  cases hlock : e.locks with
  | true => exact h.modify_free (hlocks hlock)
  | false =>
    obtain ⟨hprocess, hgaveUp⟩ := ActiveProcess.act_unlocked hlock hact
    have hobjects : ∀ q, SameCore (s.objects q) ((s.act p fun _ => a).objects q) :=
      sameCore_modify
        ⟨congrArg Process.mState hprocess, congrArg Process.mPid hprocess, hgaveUp, rfl⟩
    exact h.monitorMoves hobjects rfl (.inr rfl)

theorem Holds.next (h : s.Holds) {e : Event} (hs : s.next e = some s') : s'.Holds := by
  cases e with
  | addsProcess id =>
    obtain ⟨-, rfl⟩ := of_onlyIf hs
    exact h.monitorMoves (sameCore_modify (f := fun o => { o with mId := id })
      ⟨rfl, rfl, rfl, rfl⟩) rfl (.inr rfl)
  | spawns t p assignedMb pipeFails =>
    obtain ⟨⟨-, -, hfree⟩, rfl⟩ := of_onlyIf hs
    exact h.spawn hfree assignedMb pipeFails
  | reserves | findsBorrower | borrowerIsReaped | reservesAgain | reservesRest | setsReserved
  | failedForkReleases | callsTerminate | startsThread | removesProcess | seesExit | erasesProcess
  | runsOutOfMemory | borrows | lends => exact h.callMoves (callMoves_of_next rfl hs)
  | forkFails t p =>
    obtain ⟨hpc, rfl⟩ := of_onlyIf hs
    have hlocked : (s.calls t).locked = some p := by rw [hpc]; rfl
    obtain ⟨hmutex, -, -⟩ := h.calls t p hlocked
    exact h.modify_mine (.failedForkRelease p) hlocked (.inr ⟨rfl, hmutex, nofun, nofun⟩)
  | failedForkClears t p =>
    obtain ⟨hpc, rfl⟩ := of_onlyIf hs
    rw [ProcessManager.setReserved, unlock, modify_modify]
    exact h.modify_mine .idle (by rw [hpc]; rfl) (.inl rfl)
  | forks t p pid =>
    obtain ⟨⟨hpc, hpid, -⟩, rfl⟩ := of_onlyIf hs
    exact h.forks hpc hpid
  | postForks t p =>
    obtain ⟨⟨hpc, -⟩, rfl⟩ := of_onlyIf hs
    obtain ⟨pids, hregister⟩ := s.registerPid_eq p
    have hregistered : (s.registerPid p).Holds := by
      rw [hregister]
      exact { h with }
    exact hregistered.modify_mine .idle (by rw [registerPid_calls, hpc]; rfl) (.inl rfl)
  | terminates t p fast caller =>
    obtain ⟨⟨hpc, hfree⟩, rfl⟩ := of_onlyIf hs
    have hterminated := h.modify_free
      (f := fun o => { o with toActiveProcess := o.toActiveProcess.terminate t fast }) hfree
    obtain ⟨hstart, hnext, -⟩ := goes_terminate p fast caller
    refine hterminated.setCall ?_
    rw [modify_calls, hpc]
    split
    · exact hstart
    · exact hnext
  | process p e =>
    obtain ⟨a, hact, hguard⟩ := Option.bind_eq_some_iff.mp hs
    obtain ⟨⟨-, -, hlocks⟩, rfl⟩ := of_onlyIf hguard
    exact h.process hact hlocks
  | collects | waitpid | pollEnds | erasesPid =>
    obtain ⟨-, rfl⟩ := of_onlyIf hs
    exact h.monitorMoves (fun _ => ⟨rfl, rfl, rfl, rfl⟩) rfl (.inl rfl)
  | handles pid status pidList =>
    obtain ⟨-, rfl⟩ := of_onlyIf hs
    unfold ProcessManager.handleChildExit
    split
    · exact h.monitorMoves (fun _ => ⟨rfl, rfl, rfl, rfl⟩) rfl (.inl rfl)
    · exact h.monitorMoves (fun _ => ⟨rfl, rfl, rfl, rfl⟩) rfl (.inl rfl)
  | exitReleases x =>
    obtain ⟨-, rfl⟩ := of_onlyIf hs
    exact h.monitorMoves (sameCore_release x.p) rfl (.inl rfl)
  | exitClears x =>
    obtain ⟨-, rfl⟩ := of_onlyIf hs
    exact h.monitorMoves (sameCore_setReserved x.p 0) rfl (.inl rfl)
  | locksTerminated x =>
    obtain ⟨⟨-, hfree⟩, rfl⟩ := of_onlyIf hs
    exact h.lockTerminated hfree
  | releasesAgain x =>
    obtain ⟨hpc, rfl⟩ := of_onlyIf hs
    exact h.monitorMoves (sameCore_release x.p) rfl (.inr (by rw [hpc]; rfl))
  | clearsAgain x =>
    obtain ⟨hpc, rfl⟩ := of_onlyIf hs
    exact h.monitorMoves (sameCore_setReserved x.p 0) rfl (.inr (by rw [hpc]; rfl))
  | marks x =>
    obtain ⟨hpc, rfl⟩ := of_onlyIf hs
    exact h.markTerminated hpc

theorem holds_init (hinit : system.init s) : s.Holds := by
  obtain ⟨availableMemoryMb, loanMemory, rfl⟩ := hinit
  exact ⟨fun _ => callOk_of_unlocked rfl, nofun⟩

/-! ## What stays as it is -/

/-- The process keeps its id and its loan, and does not get to be spawned. -/
structure ObjectKept (o o' : Object) : Prop where
  id : o'.mId = o.mId
  borrowed : o'.mBorrowedMb = o.mBorrowedMb
  spawned : o'.mState = .Spawned → o.mState = .Spawned

/-- What a step of the manager does to process `q`. -/
structure StepOn (s : ProcessManager) (e : Event) (q : Nat) (o o' : Object) : Prop where
  id : q < s.created → o'.mId = o.mId
  borrowed : (∀ t borrowed, e ≠ .lends t q borrowed) → o'.mBorrowedMb = o.mBorrowedMb
  spawned : (∀ t pid, e ≠ .forks t q pid) → o'.mState = .Spawned → o.mState = .Spawned

theorem ObjectKept.refl (o : Object) : ObjectKept o o := ⟨rfl, rfl, fun h => h⟩

theorem ObjectKept.stepOn {o o' : Object} (h : ObjectKept o o') (s : ProcessManager) (e : Event)
    (q : Nat) : StepOn s e q o o' :=
  ⟨fun _ => h.id, fun _ => h.borrowed, fun _ => h.spawned⟩

theorem objectKept_modify {p : Nat} {f : Object → Object}
    (h : ObjectKept (s.objects p) (f (s.objects p))) (q : Nat) :
    ObjectKept (s.objects q) ((s.modify p f).objects q) := by
  by_cases hq : q = p
  · subst hq
    rw [modify_objects_self]
    exact h
  · rw [modify_objects_of_ne _ _ hq]
    exact .refl _

theorem objectKept_act {p : Nat} {f : ActiveProcess → ActiveProcess}
    (hmemory : SameMemory (s.objects p).toProcess (f (s.objects p).toActiveProcess).toProcess)
    (hspawned : (f (s.objects p).toActiveProcess).mState = .Spawned →
      (s.objects p).mState = .Spawned) (q : Nat) :
    ObjectKept (s.objects q) ((s.act p f).objects q) :=
  objectKept_modify ⟨rfl, hmemory.borrowed, hspawned⟩ q

theorem terminated_mState_ne (p : Process) (status : ExitStatus) :
    (p.terminated status).mState ≠ .Spawned := by
  rw [p.terminated_mState status]
  nofun

/-- A process that cannot be spawned is marked as terminated. -/
theorem spawned_of_spawn {a : ActiveProcess} {assignedMb : UInt32} {outcome : SpawnOutcome}
    (houtcome : outcome = .pipeFails ∨ outcome = .forkFails)
    (h : (a.spawn assignedMb outcome).mState = .Spawned) : a.mState = .Spawned := by
  unfold ActiveProcess.spawn at h
  split at h
  · exact h
  · obtain rfl | rfl := houtcome <;> exact absurd h (terminated_mState_ne _ _)

theorem spawned_of_terminate {a : ActiveProcess} {caller : Nat} {fast : Bool}
    (h : (a.terminate caller fast).mState = .Spawned) : a.mState = .Spawned := by
  unfold ActiveProcess.terminate at h
  split at h
  · exact absurd h (terminated_mState_ne _ _)
  · exact h
  · exact h
  · cases h

theorem spawned_of_startThread {a : ActiveProcess} {caller : Nat} {fast : Bool}
    (h : (a.startThread caller fast).mState = .Spawned) : a.mState = .Spawned := by
  unfold ActiveProcess.startThread at h
  split at h <;> exact h

theorem spawned_of_act {a a' : ActiveProcess} {e : ActiveProcess.Event} (hlocal : e.isLocal = true)
    (hact : a.act e = some a') (h : a'.mState = .Spawned) : a.mState = .Spawned := by
  cases e with
  | spawn | terminate | startsThread | terminated => cases hlocal
  | resetsState caller =>
    obtain ⟨-, rfl⟩ := of_onlyIf hact
    cases h
  | killResumes i =>
    obtain ⟨-, rfl⟩ := of_onlyIf hact
    exact absurd h (terminated_mState_ne _ _)
  | _ =>
    rw [ActiveProcess.toProcess_of_not_writes rfl hact] at h
    exact h

theorem stepOn_next {e : Event} (hs : s.next e = some s') (q : Nat) :
    StepOn s e q (s.objects q) (s'.objects q) := by
  cases e with
  | addsProcess id =>
    obtain ⟨-, rfl⟩ := of_onlyIf hs
    show StepOn _ _ q _ ((s.modify s.created fun o => { o with mId := id }).objects q)
    by_cases hq : q = s.created
    · subst hq
      rw [modify_objects_self]
      exact ⟨fun hlt => absurd hlt (Nat.lt_irrefl _), fun _ => rfl, fun _ h => h⟩
    · rw [modify_objects_of_ne _ _ hq]
      exact (ObjectKept.refl _).stepOn s _ q
  | spawns t p assignedMb pipeFails =>
    obtain ⟨-, rfl⟩ := of_onlyIf hs
    unfold ProcessManager.spawn
    split
    · exact (ObjectKept.refl _).stepOn s _ q
    · split
      · exact (objectKept_act (sameMemory_spawn _ assignedMb .pipeFails)
          (spawned_of_spawn (.inl rfl)) q).stepOn s _ q
      · rw [lock, modify_modify, setCall_objects]
        exact (objectKept_modify ⟨rfl, rfl, id⟩ q).stepOn s _ q
  | reserves t p reservation | reservesAgain t p reservation | reservesRest t p reservation =>
    obtain ⟨-, rfl⟩ := of_onlyIf hs
    exact (objectKept_modify (f := fun o =>
      { o with
        taken := if s.mMemory.fits reservation then o.taken + reservation.toNat else o.taken })
      ⟨rfl, rfl, id⟩ q).stepOn s _ q
  | setsReserved t p reservation =>
    obtain ⟨-, rfl⟩ := of_onlyIf hs
    exact (objectKept_modify (f := fun o => { o with mReservedMb := reservation })
      ⟨rfl, rfl, id⟩ q).stepOn s _ q
  | forkFails t p =>
    obtain ⟨-, rfl⟩ := of_onlyIf hs
    exact (objectKept_act (f := fun a => a.spawn a.mAssignedMb .forkFails)
      (sameMemory_spawn _ _ .forkFails) (spawned_of_spawn (.inr rfl)) q).stepOn s _ q
  | failedForkReleases t p =>
    obtain ⟨-, rfl⟩ := of_onlyIf hs
    exact (objectKept_modify (f := fun o => { o with taken := o.taken - o.mReservedMb.toNat })
      ⟨rfl, rfl, id⟩ q).stepOn s _ q
  | failedForkClears t p =>
    obtain ⟨-, rfl⟩ := of_onlyIf hs
    rw [ProcessManager.setReserved, unlock, modify_modify, setCall_objects]
    exact (objectKept_modify ⟨rfl, rfl, id⟩ q).stepOn s _ q
  | forks t p pid =>
    obtain ⟨-, rfl⟩ := of_onlyIf hs
    show StepOn _ _ q _ ((s.act p fun a => a.spawn a.mAssignedMb (.forks pid)).objects q)
    by_cases hq : q = p
    · subst hq
      rw [act, modify_objects_self]
      refine ⟨fun _ => rfl, fun _ => ?_, fun hne => absurd rfl (hne t pid)⟩
      exact (sameMemory_spawn _ _ (.forks pid)).borrowed
    · rw [act, modify_objects_of_ne _ _ hq]
      exact (ObjectKept.refl _).stepOn s _ q
  | postForks t p =>
    obtain ⟨-, rfl⟩ := of_onlyIf hs
    obtain ⟨pids, hregister⟩ := s.registerPid_eq p
    have hobjects : (s.registerPid p).objects = s.objects := by rw [hregister]
    have hunlock := objectKept_modify (s := s.registerPid p) (p := p)
      (f := fun o => { o with mStateMutex := none }) ⟨rfl, rfl, id⟩ q
    rw [hobjects] at hunlock
    exact hunlock.stepOn s _ q
  | terminates t p fast caller =>
    obtain ⟨-, rfl⟩ := of_onlyIf hs
    exact (objectKept_act (f := fun a => a.terminate t fast) (sameMemory_terminate _ t fast)
      spawned_of_terminate q).stepOn s _ q
  | startsThread t p fast caller =>
    obtain ⟨-, rfl⟩ := of_onlyIf hs
    exact (objectKept_act (f := fun a => a.startThread t fast) (sameMemory_startThread _ t fast)
      spawned_of_startThread q).stepOn s _ q
  | removesProcess t id =>
    obtain ⟨-, rfl⟩ := of_onlyIf hs
    unfold removeProcess
    split <;> exact (ObjectKept.refl _).stepOn s _ q
  | borrows t p =>
    obtain ⟨-, rfl⟩ := of_onlyIf hs
    rw [borrow_eq]
    exact (ObjectKept.refl _).stepOn s _ q
  | lends t p borrowed =>
    obtain ⟨-, rfl⟩ := of_onlyIf hs
    rw [lend, setCall_objects]
    by_cases hq : q = p
    · subst hq
      rw [modify_objects_self]
      exact ⟨fun _ => rfl, fun hne => absurd rfl (hne t borrowed), fun _ => id⟩
    · rw [modify_objects_of_ne _ _ hq]
      exact (ObjectKept.refl _).stepOn s _ q
  | process p e =>
    obtain ⟨a, hact, hguard⟩ := Option.bind_eq_some_iff.mp hs
    obtain ⟨⟨-, hlocal, -⟩, rfl⟩ := of_onlyIf hguard
    exact (objectKept_act (f := fun _ => a) (sameMemory_act hact) (spawned_of_act hlocal hact)
      q).stepOn s _ q
  | handles pid status pidList =>
    obtain ⟨-, rfl⟩ := of_onlyIf hs
    unfold ProcessManager.handleChildExit
    split <;> exact (ObjectKept.refl _).stepOn s _ q
  | exitReleases x | releasesAgain x =>
    obtain ⟨-, rfl⟩ := of_onlyIf hs
    exact (objectKept_modify (f := fun o => { o with taken := o.taken - o.mReservedMb.toNat })
      ⟨rfl, rfl, id⟩ q).stepOn s _ q
  | exitClears x | clearsAgain x =>
    obtain ⟨-, rfl⟩ := of_onlyIf hs
    exact (objectKept_modify (f := fun o => { o with mReservedMb := 0 })
      ⟨rfl, rfl, id⟩ q).stepOn s _ q
  | locksTerminated x =>
    obtain ⟨-, rfl⟩ := of_onlyIf hs
    unfold ProcessManager.lockTerminated
    split
    · exact (ObjectKept.refl _).stepOn s _ q
    · exact (objectKept_modify (f := fun o => { o with mStateMutex := some .exitMonitor })
        ⟨rfl, rfl, id⟩ q).stepOn s _ q
  | marks x =>
    obtain ⟨-, rfl⟩ := of_onlyIf hs
    unfold ProcessManager.markTerminated act unlock
    rw [modify_modify, setMonitor_objects]
    refine (objectKept_modify ⟨rfl, ?_, fun h => ?_⟩ q).stepOn s _ q
    · exact (sameMemory_terminated _ x.status).borrowed
    · exact absurd h (terminated_mState_ne _ _)
  | _ =>
    obtain ⟨-, rfl⟩ := of_onlyIf hs
    exact (ObjectKept.refl _).stepOn s _ q

/-- Objects stay constructed. -/
theorem created_le_next {e : Event} (hs : s.next e = some s') : s.created ≤ s'.created := by
  have hle : ∀ {t : ProcessManager}, t.created = s.created → s.created ≤ t.created :=
    fun h => Nat.le_of_eq h.symm
  cases e with
  | addsProcess id =>
    obtain ⟨-, rfl⟩ := of_onlyIf hs
    exact Nat.le_succ _
  | spawns t p assignedMb pipeFails =>
    obtain ⟨-, rfl⟩ := of_onlyIf hs
    unfold ProcessManager.spawn
    split
    · exact Nat.le_refl _
    · split <;> exact hle rfl
  | postForks t p =>
    obtain ⟨-, rfl⟩ := of_onlyIf hs
    obtain ⟨pids, hregister⟩ := s.registerPid_eq p
    show s.created ≤ (s.registerPid p).created
    rw [hregister]
  | removesProcess t id =>
    obtain ⟨-, rfl⟩ := of_onlyIf hs
    unfold removeProcess
    split <;> exact hle rfl
  | borrows t p =>
    obtain ⟨-, rfl⟩ := of_onlyIf hs
    rw [borrow_eq]
    exact hle rfl
  | process p e =>
    obtain ⟨a, -, hguard⟩ := Option.bind_eq_some_iff.mp hs
    obtain ⟨-, rfl⟩ := of_onlyIf hguard
    exact hle rfl
  | handles pid status pidList =>
    obtain ⟨-, rfl⟩ := of_onlyIf hs
    unfold ProcessManager.handleChildExit
    split <;> exact hle rfl
  | locksTerminated x =>
    obtain ⟨-, rfl⟩ := of_onlyIf hs
    unfold ProcessManager.lockTerminated
    split <;> exact hle rfl
  | _ =>
    obtain ⟨-, rfl⟩ := of_onlyIf hs
    exact hle rfl

end ProcessManager

end Arras4Core.Execute
