/-
  Arras4Core.Execute.ExitAttribution

  Which process an exit is attributed to.  The pid table keeps the pid of a
  process that was marked as uninterruptable, and the object may be reset and
  spawned again before that pid exits.  As long as no such exit is handled, no
  other object takes the place of one that is being spawned, and no reset
  finishes on a process that is in use again, `handleChildExit` acts on the
  process with that pid only.
-/

import Arras4Core.Execute.ProcessManager
import Arras4Core.Execute.ProcessStates

namespace Arras4Core.Execute

open Arras4Core.Lib
open Arras4Core.Api (UUID)

/-! ## The owner of a pid -/

namespace ActiveProcess

variable {a a' : ActiveProcess} {pid : Nat}

/-- The process is the OS process `pid`. -/
def Runs (a : ActiveProcess) (pid : Nat) : Prop := a.isLive ∧ a.mPid = pid

/-- The process is the OS process `pid`, or has given up on it. -/
def Owns (a : ActiveProcess) (pid : Nat) : Prop := pid ∈ a.gaveUp ∨ a.Runs pid

theorem Owns.of_eq (h : a.Owns pid) (hprocess : a'.toProcess = a.toProcess)
    (hgaveUp : a'.gaveUp = a.gaveUp) : a'.Owns pid := by
  unfold Owns Runs at *
  rw [hprocess, hgaveUp]
  exact h

/-- A process that owns a pid it has not given up on is not in the other two states. -/
theorem Owns.gaveUp_of_not_live (h : a.Owns pid) (hstate : ¬ a.isLive) : pid ∈ a.gaveUp :=
  h.resolve_right fun hruns => hstate hruns.1

theorem terminationProc_gaveUp (a : ActiveProcess) (i : Nat) (fast stopSent : Bool) :
    (a.terminationProc i fast stopSent).gaveUp = a.gaveUp := by
  unfold terminationProc
  split
  · rfl
  · split
    · rfl
    · split <;> rfl

/-- What a process does by itself, resets that overlap apart, leaves it the owner
    of its pid. -/
theorem Owns.act (h : a.Owns pid) {e : Event} (hlocal : e.isLocal = true)
    (hreset : ∀ caller, e = .resetsState caller → a.mState = .Terminated)
    (hs : a.act e = some a') : a'.Owns pid := by
  cases e with
  | spawn | terminate | startsThread | terminated => cases hlocal
  | signal signum sendToGroup =>
    cases hs
    unfold signal
    split <;> exact h.of_eq rfl rfl
  | reset caller =>
    cases hs
    unfold ActiveProcess.reset
    split <;> exact h.of_eq rfl rfl
  | resetsState caller =>
    obtain ⟨-, rfl⟩ := of_onlyIf hs
    -- a terminated process runs as no pid, so what it owns it has given up on
    have hstate : a.mState = .Terminated := hreset caller rfl
    exact .inl (h.gaveUp_of_not_live (Process.not_isLive_of_terminated hstate))
  | threadLocks i fast stopSent =>
    obtain ⟨-, rfl⟩ := of_onlyIf hs
    exact h.of_eq (terminationProc_frame a i fast stopSent).1
      (terminationProc_gaveUp a i fast stopSent)
  | threadWakes i pc =>
    obtain ⟨-, rfl⟩ := of_onlyIf hs
    split <;> exact h.of_eq rfl rfl
  | killResumes i =>
    obtain ⟨-, rfl⟩ := of_onlyIf hs
    refine .inl ?_
    unfold killResumes
    split
    · next hstate =>
      -- the exit came first
      exact h.gaveUp_of_not_live (Process.not_isLive_of_terminated hstate)
    · -- the pid is the one the process gives up on now
      obtain hold | hruns := h
      · exact List.mem_append_left _ hold
      · exact List.mem_append_right _ (List.mem_singleton.mpr hruns.2.symm)
  | _ =>
    obtain ⟨-, rfl⟩ := of_onlyIf hs
    exact h.of_eq rfl rfl

/-- The steps outside of the state mutex do not touch what it protects. -/
theorem act_unlocked {e : Event} (hlocks : e.locks = false) (hs : a.act e = some a') :
    a'.toProcess = a.toProcess ∧ a'.gaveUp = a.gaveUp := by
  cases e with
  | joinsThread | stopTimesOut | termTimesOut | killTimesOut =>
    obtain ⟨-, rfl⟩ := of_onlyIf hs
    exact ⟨rfl, rfl⟩
  | _ => cases hlocks

theorem Owns.terminate (h : a.Owns pid) (caller : Nat) (fast : Bool) :
    (a.terminate caller fast).Owns pid := by
  unfold ActiveProcess.terminate
  split
  · next hstate =>
    exact .inl (h.gaveUp_of_not_live (Process.not_isLive_of_notSpawned hstate))
  · exact h
  · exact h
  · exact h.imp_right fun hruns => ⟨.inr rfl, hruns.2⟩

/-- A process that is not spawned owns only pids it has given up on. -/
theorem Owns.spawn (h : a.Owns pid) (hstate : a.mState = .NotSpawned) (assignedMb : UInt32)
    (outcome : SpawnOutcome) : (a.spawn assignedMb outcome).Owns pid := by
  have hgaveUp : pid ∈ a.gaveUp :=
    h.gaveUp_of_not_live (Process.not_isLive_of_notSpawned hstate)
  unfold ActiveProcess.spawn
  rw [if_neg (not_not_intro hstate)]
  cases outcome with
  | pipeFails | forkFails => exact .inl hgaveUp
  | forks pid' =>
    by_cases heq : pid = pid'
    · exact .inr ⟨.inl rfl, heq.symm⟩
    · -- the system gave this pid out anew, so only that one is given up on no longer
      exact .inl (List.mem_filter.mpr ⟨hgaveUp, by simpa using heq⟩)

end ActiveProcess

/-! ## The mutexes -/

/-- The process whose state mutex the thread holds. -/
def Call.locked : Call → Option Nat
  | reserve p _ | findBorrower p _ _ | waitBorrower p _ _ _ | reserveAgain p _ | reserveRest p _
  | setReserved p _ | fork p | failedForkRelease p | failedForkClear p | postFork p
  | terminate _ _ (.reserveMemory p _ _) | startThread _ _ (.reserveMemory p _ _) => some p
  | _ => none

/-- The thread is in `spawn`, before the fork. -/
def Call.beforeFork : Call → Bool
  | failedForkRelease _ | failedForkClear _ | postFork _ => false
  | call => call.locked.isSome

/-- The monitor has erased the pid. -/
def MonitorPc.erased : MonitorPc → Option ChildExit
  | lock x | releaseAgain x | clearAgain x | mark x => some x
  | _ => none

/-- The monitor holds the state mutex of the process. -/
def MonitorPc.locked : MonitorPc → Option ChildExit
  | releaseAgain x | clearAgain x | mark x => some x
  | _ => none

theorem MonitorPc.childExit_of_erased {pc : MonitorPc} {x : ChildExit}
    (h : pc.erased = some x) : pc.childExit = some x := by
  cases pc <;> first | exact h | cases h

theorem MonitorPc.childExit_of_locked {pc : MonitorPc} {x : ChildExit}
    (h : pc.locked = some x) : pc.childExit = some x := by
  cases pc <;> first | exact h | cases h

namespace ProcessManager

variable {s s' : ProcessManager}

/-! ## The invariant -/

/-- The process has been forked and is not in the pid table yet. -/
def Forked (o : Object) : Prop := o.isLive ∧ o.mPid ≠ 0

/-- What holds of the process whose state mutex thread `t` holds. -/
def CallOk (s : ProcessManager) (t : Nat) : Prop :=
  ∀ p, (s.calls t).locked = some p →
    (s.objects p).mStateMutex = some (.caller t) ∧
    ((s.calls t).beforeFork = true → (s.objects p).mState = .NotSpawned) ∧
    (s.calls t = .postFork p → Forked (s.objects p))

/-- What holds of the exit that is being handled. -/
structure MonitorOk (s : ProcessManager) : Prop where
  owns : ∀ x, s.exitMonitor.childExit = some x → (s.objects x.p).Owns x.pid
  erased : ∀ x, s.exitMonitor.erased = some x → s.mPidToProcess x.pid = none
  locked : ∀ x, s.exitMonitor.locked = some x → (s.objects x.p).mStateMutex = some .exitMonitor

structure Attributed (s : ProcessManager) : Prop where
  /-- An entry of the pid table leads to the process with that pid, or to one that
      has given up on it. -/
  table : ∀ pid p, s.mPidToProcess pid = some p → (s.objects p).Owns pid
  calls : ∀ t, s.CallOk t
  monitor : s.MonitorOk

/-- What the steps of others, and all steps on other processes, leave of a process:
    its pids, and all that its mutex protects if someone else than `me` holds it. -/
structure Kept (me : Option Holder) (o o' : Object) : Prop where
  owns : ∀ pid, o.Owns pid → o'.Owns pid
  held : ∀ holder, o.mStateMutex = some holder → some holder ≠ me →
    o'.mStateMutex = some holder ∧ o'.mState = o.mState ∧ o'.mPid = o.mPid

theorem Kept.refl (me : Option Holder) (o : Object) : Kept me o o where
  owns _ h := h
  held _ h _ := ⟨h, rfl, rfl⟩

/-- Nothing that the state mutex protects has changed. -/
structure SameCore (o o' : Object) : Prop where
  state : o'.mState = o.mState
  pid : o'.mPid = o.mPid
  gaveUp : o'.gaveUp = o.gaveUp
  mutex : o'.mStateMutex = o.mStateMutex

theorem SameCore.kept {o o' : Object} (h : SameCore o o') (me : Option Holder) :
    Kept me o o' where
  owns pid howns := by
    unfold ActiveProcess.Owns ActiveProcess.Runs Process.isLive at *
    rw [h.state, h.pid, h.gaveUp]
    exact howns
  held _ hmutex _ := ⟨h.mutex.trans hmutex, h.state, h.pid⟩

/-- A step under the mutex of a process, by a thread that did not hold it before. -/
theorem Kept.of_free {me : Option Holder} {o o' : Object} (hfree : o.mStateMutex = none)
    (howns : ∀ pid, o.Owns pid → o'.Owns pid) : Kept me o o' where
  owns := howns
  held _ h _ := absurd (hfree.symm.trans h) nofun

theorem Kept.of_mine {o o' : Object} {holder : Holder} (hmine : o.mStateMutex = some holder)
    (howns : ∀ pid, o.Owns pid → o'.Owns pid) : Kept (some holder) o o' where
  owns := howns
  held _ h hne := absurd (h.symm.trans hmine) hne

/-- A change of one object. -/
theorem kept_modify {me : Option Holder} {p : Nat} {f : Object → Object}
    (h : Kept me (s.objects p) (f (s.objects p))) (q : Nat) :
    Kept me (s.objects q) ((s.modify p f).objects q) := by
  by_cases hq : q = p
  · subst hq
    rw [modify_objects_self]
    exact h
  · rw [modify_objects_of_ne _ _ hq]
    exact .refl me _

theorem callOk_of_unlocked {t : Nat} (h : (s.calls t).locked = none) : s.CallOk t :=
  fun _ hlocked => absurd (h.symm.trans hlocked) nofun

theorem monitorOk_of_free (h : s.processesFree) : s.MonitorOk where
  owns _ hx := absurd (h.symm.trans hx) nofun
  erased _ hx := absurd (h.symm.trans (MonitorPc.childExit_of_erased hx)) nofun
  locked _ hx := absurd (h.symm.trans (MonitorPc.childExit_of_locked hx)) nofun

/-- A step of `me` that keeps what the others hold. -/
theorem Attributed.of_kept (h : s.Attributed) (me : Option Holder)
    (hobjects : ∀ p, Kept me (s.objects p) (s'.objects p))
    (htable : ∀ pid p, s'.mPidToProcess pid = some p →
      s.mPidToProcess pid = some p ∨ (s'.objects p).Owns pid)
    (hcalls : ∀ t, (s'.calls t = s.calls t ∧ some (.caller t) ≠ me) ∨ s'.CallOk t)
    (hmonitor : (s'.exitMonitor = s.exitMonitor ∧ some .exitMonitor ≠ me ∧
      s'.mPidToProcess = s.mPidToProcess) ∨ s'.MonitorOk) : s'.Attributed where
  table pid p hpid := by
    obtain hold | hnew := htable pid p hpid
    · exact (hobjects p).owns pid (h.table pid p hold)
    · exact hnew
  calls t := by
    obtain ⟨hsame, hne⟩ | hok := hcalls t
    · -- the thread holds the mutex, and `me` is another one
      intro p hlocked
      rw [hsame] at hlocked ⊢
      obtain ⟨hmutex, hbefore, hforked⟩ := h.calls t p hlocked
      obtain ⟨hmutex', hstate, hpid⟩ := (hobjects p).held _ hmutex hne
      refine ⟨hmutex', fun hb => hstate.trans (hbefore hb), fun hf => ?_⟩
      unfold Forked Process.isLive
      rw [hstate, hpid]
      exact hforked hf
    · exact hok
  monitor := by
    obtain ⟨hsame, hne, htable'⟩ | hok := hmonitor
    · refine ⟨fun x hx => ?_, fun x hx => ?_, fun x hx => ?_⟩
      · exact (hobjects x.p).owns _ (h.monitor.owns x (hsame ▸ hx))
      · rw [htable']
        exact h.monitor.erased x (hsame ▸ hx)
      · exact ((hobjects x.p).held _ (h.monitor.locked x (hsame ▸ hx)) hne).1
    · exact hok

/-! ## Steps that leave the processes alone -/

/-- A call that moves on without taking a state mutex, and without forking. -/
def Goes (old new : Call) : Prop :=
  new.locked = none ∨
    new.locked = old.locked ∧ (new.beforeFork = true → old.beforeFork = true) ∧
      ∀ p, new ≠ .postFork p

theorem sameCore_modify {p : Nat} {f : Object → Object}
    (h : SameCore (s.objects p) (f (s.objects p))) (q : Nat) :
    SameCore (s.objects q) ((s.modify p f).objects q) := by
  by_cases hq : q = p
  · subst hq
    rw [modify_objects_self]
    exact h
  · rw [modify_objects_of_ne _ _ hq]
    exact ⟨rfl, rfl, rfl, rfl⟩

theorem CallOk.goes {t : Nat} (h : s.CallOk t)
    (hobjects : ∀ p, SameCore (s.objects p) (s'.objects p))
    (hgoes : Goes (s.calls t) (s'.calls t)) : s'.CallOk t := by
  intro p hlocked
  obtain hnone | ⟨hsame, hbefore, hforked⟩ := hgoes
  · exact absurd (hnone.symm.trans hlocked) nofun
  · obtain ⟨hmutex, hstate, -⟩ := h p (hsame.symm.trans hlocked)
    exact ⟨(hobjects p).mutex.trans hmutex,
      fun hb => (hobjects p).state.trans (hstate (hbefore hb)),
      fun hf => absurd hf (hforked p)⟩

/-- Thread `t` moves on, and nothing that a state mutex protects changes. -/
structure CallMoves (s s' : ProcessManager) (t : Nat) : Prop where
  objects : ∀ p, SameCore (s.objects p) (s'.objects p)
  table : s'.mPidToProcess = s.mPidToProcess
  monitor : s'.exitMonitor = s.exitMonitor
  others : ∀ u, u ≠ t → s'.calls u = s.calls u
  goes : Goes (s.calls t) (s'.calls t)

theorem callMoves_setCall {s₁ : ProcessManager} {t : Nat} {call : Call}
    (hobjects : ∀ p, SameCore (s.objects p) (s₁.objects p))
    (htable : s₁.mPidToProcess = s.mPidToProcess) (hmonitor : s₁.exitMonitor = s.exitMonitor)
    (hcalls : s₁.calls = s.calls) (hgoes : Goes (s.calls t) call) :
    CallMoves s (s₁.setCall t call) t where
  objects := hobjects
  table := htable
  monitor := hmonitor
  others u hu := (setCall_calls_of_ne _ _ hu).trans (congrFun hcalls u)
  goes := by
    rw [setCall_calls_self]
    exact hgoes

theorem Attributed.callMoves (h : s.Attributed) {t : Nat} (hmoves : CallMoves s s' t) :
    s'.Attributed := by
  refine h.of_kept none (fun p => (hmoves.objects p).kept none)
    (fun _ _ hpid => .inl (hmoves.table ▸ hpid)) (fun u => ?_)
    (.inl ⟨hmoves.monitor, nofun, hmoves.table⟩)
  by_cases hu : u = t
  · exact .inr (hu ▸ (h.calls t).goes hmoves.objects hmoves.goes)
  · exact .inl ⟨hmoves.others u hu, nofun⟩

/-- A thread moves on, and nothing else happens. -/
theorem Attributed.setCall (h : s.Attributed) {t : Nat} {call : Call}
    (hgoes : Goes (s.calls t) call) :
    (s.setCall t call).Attributed :=
  h.callMoves (callMoves_setCall (fun _ => ⟨rfl, rfl, rfl, rfl⟩) rfl rfl rfl hgoes)

/-- The exit monitor moves on, and no process changes. -/
theorem Attributed.monitorMoves (h : s.Attributed)
    (hobjects : ∀ p, SameCore (s.objects p) (s'.objects p))
    (htable : s'.mPidToProcess = s.mPidToProcess) (hcalls : s'.calls = s.calls)
    (hmonitor : s'.MonitorOk) : s'.Attributed :=
  h.of_kept none (fun p => (hobjects p).kept none) (fun _ _ hpid => .inl (htable ▸ hpid))
    (fun u => .inl ⟨congrFun hcalls u, nofun⟩) (.inr hmonitor)

/-- The exit monitor goes on with the exit it is handling. -/
theorem MonitorOk.goes (h : s.MonitorOk) {x : ChildExit} (hx : s.exitMonitor.childExit = some x)
    (hobjects : ∀ p, SameCore (s.objects p) (s'.objects p))
    (htable : s'.mPidToProcess = s.mPidToProcess)
    (hsame : s'.exitMonitor.childExit = some x)
    (herased : s'.exitMonitor.erased = none ∨ s.exitMonitor.erased = some x)
    (hlocked : s'.exitMonitor.locked = none ∨ s.exitMonitor.locked = some x) : s'.MonitorOk where
  owns y hy := by
    obtain rfl : x = y := Option.some.inj (hsame.symm.trans hy)
    exact ((hobjects x.p).kept none).owns _ (h.owns x hx)
  erased y hy := by
    obtain rfl : x = y := Option.some.inj (hsame.symm.trans (MonitorPc.childExit_of_erased hy))
    rw [htable]
    exact h.erased x (herased.resolve_left fun hnone => absurd (hnone.symm.trans hy) nofun)
  locked y hy := by
    obtain rfl : x = y := Option.some.inj (hsame.symm.trans (MonitorPc.childExit_of_locked hy))
    exact (hobjects x.p).mutex.trans
      (h.locked x (hlocked.resolve_left fun hnone => absurd (hnone.symm.trans hy) nofun))

theorem sameCore_reserve (p : Nat) (amount : UInt32) (q : Nat) :
    SameCore (s.objects q) ((s.reserve p amount).objects q) :=
  sameCore_modify
    (f := fun o =>
      { o with taken := if s.mMemory.fits amount then o.taken + amount.toNat else o.taken })
    ⟨rfl, rfl, rfl, rfl⟩ q

theorem sameCore_release (p q : Nat) : SameCore (s.objects q) ((s.release p).objects q) :=
  sameCore_modify (f := fun o => { o with taken := o.taken - o.mReservedMb.toNat })
    ⟨rfl, rfl, rfl, rfl⟩ q

theorem sameCore_setReserved (p : Nat) (reservation : UInt32) (q : Nat) :
    SameCore (s.objects q) ((s.setReserved p reservation).objects q) :=
  sameCore_modify (f := fun o => { o with mReservedMb := reservation }) ⟨rfl, rfl, rfl, rfl⟩ q

theorem goes_afterReserve (p : Nat) (reservation : UInt32) :
    Goes (.reserve p reservation) (s.afterReserve p reservation) := by
  unfold afterReserve
  split
  · exact .inr ⟨rfl, fun _ => rfl, fun _ => nofun⟩
  · split <;> exact .inr ⟨rfl, fun _ => rfl, fun _ => nofun⟩

theorem goes_afterReserveAgain (p : Nat) (reservation : UInt32) :
    Goes (.reserveAgain p reservation) (s.afterReserveAgain p reservation) := by
  unfold afterReserveAgain
  split <;> exact .inr ⟨rfl, fun _ => rfl, fun _ => nofun⟩

theorem goes_afterFindBorrower (p : Nat) (reservation : UInt32) (deficit : Int) (b : Option Nat) :
    Goes (.findBorrower p reservation deficit) (s.afterFindBorrower p reservation deficit b) := by
  cases b <;> exact .inr ⟨rfl, fun _ => rfl, fun _ => nofun⟩

theorem goes_terminate (p : Nat) (fast : Bool) (caller : TerminateCaller) :
    Goes (.terminate p fast caller) (.startThread p fast caller) ∧
    Goes (.terminate p fast caller) (caller.next p) ∧
    Goes (.startThread p fast caller) (caller.next p) := by
  cases caller with
  | user | removeProcess => exact ⟨.inl rfl, .inl rfl, .inl rfl⟩
  | reserveMemory =>
    exact ⟨.inr ⟨rfl, fun _ => rfl, fun _ => nofun⟩, .inr ⟨rfl, fun _ => rfl, fun _ => nofun⟩,
      .inr ⟨rfl, fun _ => rfl, fun _ => nofun⟩⟩

theorem sameCore_startThread (t p : Nat) (fast : Bool) (q : Nat) :
    SameCore (s.objects q) ((s.act p fun a => a.startThread t fast).objects q) := by
  refine sameCore_modify (f := fun o => { o with
    toActiveProcess := o.toActiveProcess.startThread t fast }) ?_ q
  unfold ActiveProcess.startThread
  split <;> exact ⟨rfl, rfl, rfl, rfl⟩

/-- The thread whose call the event moves on, if it changes nothing that a state mutex
    protects. -/
def Event.movesCall : Event → Option Nat
  | .reserves t .. | .findsBorrower t .. | .borrowerIsReaped t .. | .reservesAgain t ..
  | .reservesRest t .. | .setsReserved t .. | .failedForkReleases t .. | .callsTerminate t ..
  | .startsThread t .. | .removesProcess t .. | .seesExit t .. | .erasesProcess t ..
  | .runsOutOfMemory t .. | .borrows t .. | .lends t .. => some t
  | _ => none

theorem callMoves_of_next {e : Event} {t : Nat} (he : e.movesCall = some t)
    (hs : s.next e = some s') : CallMoves s s' t := by
  have hrefl : ∀ q, SameCore (s.objects q) (s.objects q) := fun _ => ⟨rfl, rfl, rfl, rfl⟩
  cases e with
  | reserves u p reservation =>
    cases he
    obtain ⟨hpc, rfl⟩ := of_onlyIf hs
    exact callMoves_setCall (sameCore_reserve p reservation) rfl rfl rfl
      (by rw [hpc]; exact goes_afterReserve p reservation)
  | findsBorrower u p reservation deficit borrower =>
    cases he
    obtain ⟨⟨hpc, -⟩, rfl⟩ := of_onlyIf hs
    exact callMoves_setCall hrefl rfl rfl rfl
      (by rw [hpc]; exact goes_afterFindBorrower p reservation deficit borrower)
  | borrowerIsReaped u p reservation borrower deficit =>
    cases he
    obtain ⟨⟨hpc, -⟩, rfl⟩ := of_onlyIf hs
    exact callMoves_setCall hrefl rfl rfl rfl
      (by rw [hpc]; exact .inr ⟨rfl, fun _ => rfl, fun _ => nofun⟩)
  | reservesAgain u p reservation =>
    cases he
    obtain ⟨hpc, rfl⟩ := of_onlyIf hs
    exact callMoves_setCall (sameCore_reserve p reservation) rfl rfl rfl
      (by rw [hpc]; exact goes_afterReserveAgain p reservation)
  | reservesRest u p reservation =>
    cases he
    obtain ⟨hpc, rfl⟩ := of_onlyIf hs
    exact callMoves_setCall (sameCore_reserve p reservation) rfl rfl rfl
      (by rw [hpc]; exact .inr ⟨rfl, fun _ => rfl, fun _ => nofun⟩)
  | setsReserved u p reservation =>
    cases he
    obtain ⟨hpc, rfl⟩ := of_onlyIf hs
    exact callMoves_setCall (sameCore_setReserved p reservation) rfl rfl rfl
      (by rw [hpc]; exact .inr ⟨rfl, fun _ => rfl, fun _ => nofun⟩)
  | failedForkReleases u p =>
    cases he
    obtain ⟨hpc, rfl⟩ := of_onlyIf hs
    exact callMoves_setCall (sameCore_release p) rfl rfl rfl
      (by rw [hpc]; exact .inr ⟨rfl, nofun, fun _ => nofun⟩)
  | startsThread u p fast caller =>
    cases he
    obtain ⟨hpc, rfl⟩ := of_onlyIf hs
    have hmoves : CallMoves s
        ((s.act p fun a => a.startThread t fast).setCall t (caller.next p)) t :=
      callMoves_setCall (sameCore_startThread t p fast) rfl rfl rfl
        (by rw [hpc]; exact (goes_terminate p fast caller).2.2)
    exact { hmoves with }
  | removesProcess u id =>
    cases he
    obtain ⟨⟨hidle, -⟩, rfl⟩ := of_onlyIf hs
    unfold removeProcess
    split
    · -- no process has the id
      exact ⟨hrefl, rfl, rfl, fun _ _ => rfl, .inl (by rw [hidle]; rfl)⟩
    · exact callMoves_setCall hrefl rfl rfl rfl (.inl rfl)
  | callsTerminate u p fast =>
    cases he
    obtain ⟨-, rfl⟩ := of_onlyIf hs
    exact callMoves_setCall hrefl rfl rfl rfl (.inl rfl)
  | seesExit u id p =>
    cases he
    obtain ⟨-, rfl⟩ := of_onlyIf hs
    exact callMoves_setCall hrefl rfl rfl rfl (.inl rfl)
  | erasesProcess u id =>
    cases he
    obtain ⟨-, rfl⟩ := of_onlyIf hs
    exact callMoves_setCall hrefl rfl rfl rfl (.inl rfl)
  | runsOutOfMemory u p =>
    cases he
    obtain ⟨-, rfl⟩ := of_onlyIf hs
    exact callMoves_setCall hrefl rfl rfl rfl (.inl (by split <;> rfl))
  | borrows u p =>
    cases he
    obtain ⟨-, rfl⟩ := of_onlyIf hs
    rw [borrow_eq]
    exact callMoves_setCall hrefl rfl rfl rfl (.inl (by split <;> rfl))
  | lends u p borrowed =>
    cases he
    obtain ⟨-, rfl⟩ := of_onlyIf hs
    exact callMoves_setCall (sameCore_modify
      (f := fun o => { o with mBorrowedMb := o.mBorrowedMb + borrowed }) ⟨rfl, rfl, rfl, rfl⟩)
      rfl rfl rfl (.inl rfl)
  | _ => cases he

/-! ## Steps that change a process -/

/-- The caller keeps the mutex of the process it has changed, or gives it up. -/
theorem callOk_modify {t p : Nat} {f : Object → Object} {call : Call}
    (hcall : call.locked = none ∨ call.locked = some p ∧
      (f (s.objects p)).mStateMutex = some (.caller t) ∧
      (call.beforeFork = true → (f (s.objects p)).mState = .NotSpawned) ∧
      (call = .postFork p → Forked (f (s.objects p)))) :
    ((s.modify p f).setCall t call).CallOk t := by
  intro q hq
  rw [setCall_calls_self] at hq ⊢
  obtain hnone | ⟨hsame, hok⟩ := hcall
  · exact absurd (hnone.symm.trans hq) nofun
  · obtain rfl : p = q := Option.some.inj (hsame.symm.trans hq)
    rw [setCall_objects, modify_objects_self]
    exact hok

theorem forked_spawn {o : Object} {pid : Nat} (hstate : o.mState = .NotSpawned) (hpid : pid ≠ 0) :
    Forked { o with toActiveProcess := o.toActiveProcess.spawn o.mAssignedMb (.forks pid) } := by
  unfold Forked Process.isLive ActiveProcess.spawn
  simp only [if_neg (not_not_intro hstate)]
  exact ⟨.inl rfl, hpid⟩

/-- A thread that holds no mutex changes one process under its mutex. -/
theorem Attributed.modify_free (h : s.Attributed) {p : Nat} {f : Object → Object}
    (hfree : s.stateFree p)
    (howns : ∀ pid, (s.objects p).Owns pid → (f (s.objects p)).Owns pid) :
    (s.modify p f).Attributed :=
  h.of_kept none (kept_modify (.of_free hfree howns)) (fun _ _ hpid => .inl hpid)
    (fun _ => .inl ⟨rfl, nofun⟩) (.inl ⟨rfl, nofun, rfl⟩)

/-- Thread `t` changes the process whose mutex it holds. -/
theorem Attributed.modify_mine (h : s.Attributed) {t p : Nat} {f : Object → Object} (call : Call)
    (hlocked : (s.calls t).locked = some p)
    (howns : ∀ pid, (s.objects p).Owns pid → (f (s.objects p)).Owns pid)
    (hcall : call.locked = none ∨ call.locked = some p ∧
      (f (s.objects p)).mStateMutex = some (.caller t) ∧
      (call.beforeFork = true → (f (s.objects p)).mState = .NotSpawned) ∧
      (call = .postFork p → Forked (f (s.objects p)))) :
    ((s.modify p f).setCall t call).Attributed := by
  obtain ⟨hmutex, -, -⟩ := h.calls t p hlocked
  refine h.of_kept (some (.caller t)) (kept_modify (.of_mine hmutex howns))
    (fun _ _ hpid => .inl hpid) (fun u => ?_) (.inl ⟨rfl, nofun, rfl⟩)
  by_cases hu : u = t
  · subst hu
    exact .inr (callOk_modify hcall)
  · exact .inl ⟨setCall_calls_of_ne _ _ hu, fun heq => hu (by cases heq; rfl)⟩

theorem Attributed.spawn (h : s.Attributed) {t p : Nat} (hfree : s.stateFree p)
    (assignedMb : UInt32) (pipeFails : Bool) :
    (s.spawn t p assignedMb pipeFails).Attributed := by
  unfold ProcessManager.spawn
  split
  · exact h
  · next hstate =>
    have hstate := Decidable.not_not.mp hstate
    split
    · exact h.modify_free hfree fun pid howns => howns.spawn hstate assignedMb .pipeFails
    · -- the caller keeps the mutex, in a state that nobody else can change now
      have hobjects : ∀ q, Kept none _ _ := kept_modify
        (f := fun o => { o with mAssignedMb := assignedMb, mStateMutex := some (.caller t) })
        (.of_free hfree fun _ howns => howns)
      rw [lock, modify_modify]
      refine h.of_kept none hobjects (fun _ _ hpid => .inl hpid) (fun u => ?_)
        (.inl ⟨rfl, nofun, rfl⟩)
      by_cases hu : u = t
      · subst hu
        exact .inr (callOk_modify (.inr ⟨rfl, rfl, fun _ => hstate, nofun⟩))
      · exact .inl ⟨setCall_calls_of_ne _ _ hu, nofun⟩

theorem Attributed.forkFails (h : s.Attributed) {t p : Nat} (hpc : s.calls t = .fork p) :
    (s.forkFails t p).Attributed := by
  have hlocked : (s.calls t).locked = some p := by rw [hpc]; rfl
  obtain ⟨hmutex, hstate, -⟩ := h.calls t p hlocked
  refine h.modify_mine (.failedForkRelease p) hlocked (fun pid howns => ?_)
    (.inr ⟨rfl, hmutex, nofun, nofun⟩)
  exact howns.spawn (hstate (by rw [hpc]; rfl)) _ .forkFails

theorem Attributed.forks (h : s.Attributed) {t p pid : Nat} (hpc : s.calls t = .fork p)
    (hpid : pid ≠ 0) : (s.forks t p pid).Attributed := by
  have hlocked : (s.calls t).locked = some p := by rw [hpc]; rfl
  obtain ⟨hmutex, hstate, -⟩ := h.calls t p hlocked
  have hstate := hstate (by rw [hpc]; rfl)
  have hspawned := h.modify_mine (.postFork p)
    (f := fun o => { o with
      toActiveProcess := o.toActiveProcess.spawn o.mAssignedMb (.forks pid) }) hlocked
    (fun pid' howns => howns.spawn hstate _ (.forks pid))
    (.inr ⟨rfl, hmutex, nofun, fun _ => forked_spawn hstate hpid⟩)
  exact { hspawned with monitor := { hspawned.monitor with } }

/-- The pid table gets the process that was forked, if it is the one its id stands for. -/
theorem Attributed.registerPid (h : s.Attributed) {t p : Nat} (hpc : s.calls t = .postFork p)
    (hfree : s.processesFree)
    (hown : ∀ q, s.mProcesses (s.objects p).mId = some q → q = p) :
    (s.registerPid p).Attributed := by
  obtain ⟨-, -, hforked⟩ := h.calls t p (by rw [hpc]; rfl)
  unfold ProcessManager.registerPid
  split
  · exact h
  split
  · exact h
  · next q hq _ =>
    -- the condition: the object under the id is the one that was forked
    obtain rfl := hown q hq
    refine { table := fun pid r hr => ?_, calls := h.calls, monitor := monitorOk_of_free hfree }
    by_cases hpid : pid = (s.objects q).mPid
    · subst hpid
      dsimp only at hr
      rw [Function.update_self] at hr
      cases hr
      exact .inr ⟨(hforked hpc).1, rfl⟩
    · dsimp only at hr
      rw [Function.update_of_ne hpid] at hr
      exact h.table pid r hr

theorem Attributed.postFork_cb (h : s.Attributed) {t p : Nat} (hpc : s.calls t = .postFork p)
    (hfree : s.processesFree)
    (hown : ∀ q, s.mProcesses (s.objects p).mId = some q → q = p) :
    (s.postFork_cb t p).Attributed :=
  (h.registerPid hpc hfree hown).modify_mine .idle (by rw [registerPid_calls, hpc]; rfl)
    (fun _ howns => howns) (.inl rfl)

theorem Attributed.terminate (h : s.Attributed) {t p : Nat} {fast : Bool} {caller : TerminateCaller}
    (hpc : s.calls t = .terminate p fast caller) (hfree : s.stateFree p) :
    (s.terminate t p fast caller).Attributed := by
  have hterminated := h.modify_free
    (f := fun o => { o with toActiveProcess := o.toActiveProcess.terminate t fast }) hfree
    fun _ howns => howns.terminate t fast
  obtain ⟨hstart, hnext, -⟩ := goes_terminate p fast caller
  refine hterminated.setCall ?_
  rw [modify_calls, hpc]
  split
  · exact hstart
  · exact hnext

/-- A step of a process by itself. -/
theorem Attributed.process (h : s.Attributed) {p : Nat} {e : ActiveProcess.Event}
    {a : ActiveProcess} (hact : (s.objects p).act e = some a) (hlocal : e.isLocal = true)
    (hlocks : e.locks = true → s.stateFree p)
    (hreset : ∀ caller, e = .resetsState caller → (s.objects p).mState = .Terminated) :
    (s.act p fun _ => a).Attributed := by
  have howns : ∀ pid, (s.objects p).Owns pid → a.Owns pid :=
    fun _ howns => howns.act hlocal hreset hact
  cases hlock : e.locks with
  | true => exact h.modify_free (hlocks hlock) howns
  | false =>
    -- somebody else may hold the mutex, but nothing it protects is changed
    obtain ⟨hprocess, hgaveUp⟩ := ActiveProcess.act_unlocked hlock hact
    have hobjects : ∀ q, SameCore (s.objects q) ((s.act p fun _ => a).objects q) :=
      sameCore_modify
        ⟨congrArg Process.mState hprocess, congrArg Process.mPid hprocess, hgaveUp, rfl⟩
    exact h.of_kept none (fun q => (hobjects q).kept none) (fun _ _ hpid => .inl hpid)
      (fun _ => .inl ⟨rfl, nofun⟩) (.inl ⟨rfl, nofun, rfl⟩)

/-! ## Steps of the exit monitor -/

theorem Attributed.handleChildExit (h : s.Attributed) (pid : Nat) (status : ExitStatus)
    (pidList : List Nat) : (s.handleChildExit pid status pidList).Attributed := by
  unfold ProcessManager.handleChildExit
  split
  · exact h.monitorMoves (fun _ => ⟨rfl, rfl, rfl, rfl⟩) rfl rfl (monitorOk_of_free rfl)
  · next p hp =>
    refine h.monitorMoves (fun _ => ⟨rfl, rfl, rfl, rfl⟩) rfl rfl
      { owns := fun x hx => ?_, erased := nofun, locked := nofun }
    cases hx
    exact h.table pid p hp

theorem Attributed.erasesPid (h : s.Attributed) {x : ChildExit} (hpc : s.exitMonitor = .erase x) :
    ({ s with mPidToProcess := Function.update s.mPidToProcess x.pid none }.setMonitor
      (.lock x)).Attributed := by
  refine h.of_kept none (fun _ => .refl none _) (fun pid p hp => .inl ?_)
    (fun _ => .inl ⟨rfl, nofun⟩)
    (.inr { owns := fun y hy => ?_, erased := fun y hy => ?_, locked := nofun })
  · by_cases hpid : pid = x.pid
    · subst hpid
      simp [setMonitor] at hp
    · simpa [setMonitor, Function.update_of_ne hpid] using hp
  · cases hy
    exact h.monitor.owns x (by rw [hpc]; rfl)
  · cases hy
    exact Function.update_self ..

theorem Attributed.lockTerminated (h : s.Attributed) {x : ChildExit} (hpc : s.exitMonitor = .lock x)
    (hfree : s.stateFree x.p) : (s.lockTerminated x).Attributed := by
  unfold ProcessManager.lockTerminated
  split
  · exact h.monitorMoves (fun _ => ⟨rfl, rfl, rfl, rfl⟩) rfl rfl (monitorOk_of_free rfl)
  · -- the mutex is kept until `markTerminated`
    have hobjects : ∀ q, Kept none (s.objects q) ((s.lock x.p .exitMonitor).objects q) :=
      kept_modify (.of_free hfree fun _ howns => howns)
    refine h.of_kept none hobjects (fun _ _ hpid => .inl hpid) (fun _ => .inl ⟨rfl, nofun⟩)
      (.inr { owns := fun y hy => ?_, erased := fun y hy => ?_, locked := fun y hy => ?_ })
    · cases hy
      exact (hobjects x.p).owns _ (h.monitor.owns x (by rw [hpc]; rfl))
    · cases hy
      exact h.monitor.erased x (by rw [hpc]; rfl)
    · cases hy
      rw [setMonitor_objects, lock, modify_objects_self]

/-- The process is marked as terminated: it loses the pid that is being handled, and
    has no other. -/
theorem Attributed.markTerminated (h : s.Attributed) {x : ChildExit} (hpc : s.exitMonitor = .mark x)
    (hown : x.pid ∉ (s.objects x.p).gaveUp) : (s.markTerminated x).Attributed := by
  have hruns : (s.objects x.p).Runs x.pid :=
    (h.monitor.owns x (by rw [hpc]; rfl)).resolve_left hown
  have hmutex := h.monitor.locked x (by rw [hpc]; rfl)
  have herased := h.monitor.erased x (by rw [hpc]; rfl)
  unfold ProcessManager.markTerminated act unlock
  rw [modify_modify]
  refine
    { table := fun pid p hpid => ?_
      calls := fun t p hlocked => ?_
      monitor := monitorOk_of_free rfl }
  · rw [setMonitor_objects]
    by_cases hp : p = x.p
    · subst hp
      rw [modify_objects_self]
      obtain hgaveUp | hother := h.table pid x.p hpid
      · exact .inl hgaveUp
      · -- the entry of the one pid the process runs as has been erased
        obtain rfl : x.pid = pid := hruns.2.symm.trans hother.2
        exact absurd (herased.symm.trans hpid) nofun
    · rw [modify_objects_of_ne _ _ hp]
      exact h.table pid p hpid
  · -- the mutex is the exit monitor's, so no caller is in a call on this process
    obtain ⟨hcaller, hrest⟩ := h.calls t p hlocked
    have hp : p ≠ x.p := by
      rintro rfl
      exact absurd (hcaller.symm.trans hmutex) nofun
    rw [setMonitor_objects, modify_objects_of_ne _ _ hp]
    exact ⟨hcaller, hrest⟩

/-! ## One step -/

/-- The exit for which a step acts on a process: it releases its memory, or marks it
    as terminated. -/
def Event.handled : Event → Option ChildExit
  | .exitReleases x | .exitClears x | .releasesAgain x | .clearsAgain x | .marks x => some x
  | _ => none

/-- The three things that go wrong are left out: the exit of an OS process that was
    given up on is handled; a process that is spawned is not the one the manager has
    under its id; `reset` ends on a process that has left `Terminated`. -/
def ExitsOwned (s : ProcessManager) : Event → Prop
  | .exitReleases x | .exitClears x | .releasesAgain x | .clearsAgain x | .marks x =>
    x.pid ∉ (s.objects x.p).gaveUp
  | .postForks _ p => ∀ q, s.mProcesses (s.objects p).mId = some q → q = p
  | .process p (.resetsState _) => (s.objects p).mState = .Terminated
  | _ => True

theorem Attributed.next (h : s.Attributed) {e : Event} (hcond : s.ExitsOwned e)
    (hs : s.next e = some s') : s'.Attributed := by
  cases e with
  | addsProcess id =>
    obtain ⟨-, rfl⟩ := of_onlyIf hs
    have hobjects := sameCore_modify (s := s) (p := s.created)
      (f := fun o => { o with mId := id }) ⟨rfl, rfl, rfl, rfl⟩
    exact h.of_kept none (fun q => (hobjects q).kept none) (fun _ _ hpid => .inl hpid)
      (fun _ => .inl ⟨rfl, nofun⟩) (.inl ⟨rfl, nofun, rfl⟩)
  | spawns t p assignedMb pipeFails =>
    obtain ⟨⟨-, -, hfree⟩, rfl⟩ := of_onlyIf hs
    exact h.spawn hfree assignedMb pipeFails
  | reserves | findsBorrower | borrowerIsReaped | reservesAgain | reservesRest | setsReserved
  | failedForkReleases | callsTerminate | startsThread | removesProcess | seesExit | erasesProcess
  | runsOutOfMemory | borrows | lends => exact h.callMoves (callMoves_of_next rfl hs)
  | forkFails t p =>
    obtain ⟨hpc, rfl⟩ := of_onlyIf hs
    exact h.forkFails hpc
  | failedForkClears t p =>
    obtain ⟨hpc, rfl⟩ := of_onlyIf hs
    rw [ProcessManager.setReserved, unlock, modify_modify]
    exact h.modify_mine .idle (by rw [hpc]; rfl) (fun _ howns => howns) (.inl rfl)
  | forks t p pid =>
    obtain ⟨⟨hpc, hpid, -⟩, rfl⟩ := of_onlyIf hs
    exact h.forks hpc hpid
  | postForks t p =>
    obtain ⟨⟨hpc, hfree⟩, rfl⟩ := of_onlyIf hs
    -- the condition: the id still stands for this object
    exact h.postFork_cb hpc hfree hcond
  | terminates t p fast caller =>
    obtain ⟨⟨hpc, hfree⟩, rfl⟩ := of_onlyIf hs
    exact h.terminate hpc hfree
  | process p e =>
    obtain ⟨a, hact, hguard⟩ := Option.bind_eq_some_iff.mp hs
    obtain ⟨⟨-, hlocal, hlocks⟩, rfl⟩ := of_onlyIf hguard
    refine h.process hact hlocal hlocks ?_
    rintro caller rfl
    -- the condition: the process is still terminated
    exact hcond
  | collects pidList =>
    obtain ⟨-, rfl⟩ := of_onlyIf hs
    exact h.monitorMoves (fun _ => ⟨rfl, rfl, rfl, rfl⟩) rfl rfl (monitorOk_of_free rfl)
  | waitpid pid status pidList =>
    obtain ⟨-, rfl⟩ := of_onlyIf hs
    exact h.monitorMoves (fun _ => ⟨rfl, rfl, rfl, rfl⟩) rfl rfl (monitorOk_of_free rfl)
  | pollEnds pidList =>
    obtain ⟨-, rfl⟩ := of_onlyIf hs
    exact h.monitorMoves (fun _ => ⟨rfl, rfl, rfl, rfl⟩) rfl rfl (monitorOk_of_free rfl)
  | handles pid status pidList =>
    obtain ⟨-, rfl⟩ := of_onlyIf hs
    exact h.handleChildExit pid status pidList
  | exitReleases x =>
    obtain ⟨hpc, rfl⟩ := of_onlyIf hs
    have hobjects := sameCore_release (s := s) x.p
    exact h.monitorMoves hobjects rfl rfl
      (h.monitor.goes (by rw [hpc]; rfl) hobjects rfl rfl (.inl rfl) (.inl rfl))
  | exitClears x =>
    obtain ⟨hpc, rfl⟩ := of_onlyIf hs
    have hobjects := sameCore_setReserved (s := s) x.p 0
    exact h.monitorMoves hobjects rfl rfl
      (h.monitor.goes (by rw [hpc]; rfl) hobjects rfl rfl (.inl rfl) (.inl rfl))
  | erasesPid x =>
    obtain ⟨hpc, rfl⟩ := of_onlyIf hs
    exact h.erasesPid hpc
  | locksTerminated x =>
    obtain ⟨⟨hpc, hfree⟩, rfl⟩ := of_onlyIf hs
    exact h.lockTerminated hpc hfree
  | releasesAgain x =>
    obtain ⟨hpc, rfl⟩ := of_onlyIf hs
    have hobjects := sameCore_release (s := s) x.p
    exact h.monitorMoves hobjects rfl rfl (h.monitor.goes (by rw [hpc]; rfl) hobjects rfl rfl
      (.inr (by rw [hpc]; rfl)) (.inr (by rw [hpc]; rfl)))
  | clearsAgain x =>
    obtain ⟨hpc, rfl⟩ := of_onlyIf hs
    have hobjects := sameCore_setReserved (s := s) x.p 0
    exact h.monitorMoves hobjects rfl rfl (h.monitor.goes (by rw [hpc]; rfl) hobjects rfl rfl
      (.inr (by rw [hpc]; rfl)) (.inr (by rw [hpc]; rfl)))
  | marks x =>
    obtain ⟨hpc, rfl⟩ := of_onlyIf hs
    -- the condition: the process has not given up on the pid that exited
    exact h.markTerminated hpc hcond

/-! ## Every run -/

theorem attributed_of_reachable (h : system.ReachableWhen ExitsOwned s) : s.Attributed := by
  refine h.invariant ?_ fun _ _ _ hi hcond hs => hi.next hcond (next_of_step hs)
  rintro _ ⟨availableMemoryMb, loanMemory, rfl⟩
  exact
    { table := nofun
      calls := fun _ => callOk_of_unlocked rfl
      monitor := monitorOk_of_free rfl }

/-- Steps of the exit monitor. -/
def Event.byExitMonitor : Event → Bool
  | .collects .. | .waitpid .. | .pollEnds .. | .handles .. | .exitReleases .. | .exitClears ..
  | .erasesPid .. | .locksTerminated .. | .releasesAgain .. | .clearsAgain .. | .marks .. => true
  | _ => false

/-- The exit monitor changes no process but the one whose exit it handles. -/
theorem monitor_frame {e : Event} (hmonitor : e.byExitMonitor = true) (hs : s.next e = some s')
    {p : Nat} (hp : ∀ x, e.handled = some x → p ≠ x.p) :
    (s'.objects p).toProcess = (s.objects p).toProcess := by
  cases e with
  | collects | waitpid | pollEnds | erasesPid =>
    obtain ⟨-, rfl⟩ := of_onlyIf hs
    rfl
  | handles pid status pidList =>
    obtain ⟨-, rfl⟩ := of_onlyIf hs
    unfold ProcessManager.handleChildExit
    split <;> rfl
  | locksTerminated x =>
    obtain ⟨-, rfl⟩ := of_onlyIf hs
    unfold ProcessManager.lockTerminated
    split
    · rfl
    · rw [setMonitor_objects, lock]
      by_cases hx : p = x.p
      · subst hx
        rw [modify_objects_self]
      · rw [modify_objects_of_ne _ _ hx]
  | exitReleases x | releasesAgain x =>
    obtain ⟨-, rfl⟩ := of_onlyIf hs
    rw [setMonitor_objects, release_objects_of_ne _ (hp x rfl)]
  | exitClears x | clearsAgain x =>
    obtain ⟨-, rfl⟩ := of_onlyIf hs
    rw [setMonitor_objects, setReserved_objects_of_ne _ _ (hp x rfl)]
  | marks x =>
    obtain ⟨-, rfl⟩ := of_onlyIf hs
    unfold ProcessManager.markTerminated act unlock
    rw [modify_modify, setMonitor_objects, modify_objects_of_ne _ _ (hp x rfl)]
  | _ => cases hmonitor

/-- What the step of `handleChildExit` from `s` to `s'` does to processes. -/
structure ExitAttributed (s : ProcessManager) (e : Event) (s' : ProcessManager) : Prop where
  /-- It releases the memory of a process, sets its status and marks it as terminated
      only while the process is spawned or terminating with the pid that exited. -/
  acts : ∀ x, e.handled = some x → (s.objects x.p).isLive ∧ (s.objects x.p).mPid = x.pid
  /-- It does nothing to other processes. -/
  others : e.byExitMonitor = true → ∀ p, (∀ x, e.handled = some x → p ≠ x.p) →
    (s'.objects p).toProcess = (s.objects p).toProcess

/-- **Exits are attributed to the right process** in every run without the three things
    that go wrong. -/
theorem exitAttributed_of_exitsOwned (h : system.ReachableWhen ExitsOwned s) {e : Event}
    (hcond : s.ExitsOwned e) (hs : s.step e = some s') : s.ExitAttributed e s' := by
  have hmonitor := (attributed_of_reachable h).monitor
  replace hs := next_of_step hs
  refine { acts := fun x hhandled => ?_, others := fun hby _ hp => monitor_frame hby hs hp }
  cases e with
  | exitReleases y | exitClears y | releasesAgain y | clearsAgain y | marks y =>
    obtain ⟨hpc, -⟩ := of_onlyIf hs
    cases hhandled
    exact (hmonitor.owns x (by rw [hpc]; rfl)).resolve_left hcond
  | _ => cases hhandled

/-! ## An exit that is attributed to a later lifetime -/

def idOf (n : UInt8) : UUID := ⟨Vector.replicate 16 n⟩

/-- `spawn`, with enough memory and a fork that gives `pid`. -/
def spawnsAs (p : Nat) (assignedMb : UInt32) (pid : Nat) : List Event :=
  [.spawns 0 p assignedMb false, .reserves 0 p assignedMb, .setsReserved 0 p assignedMb,
    .forks 0 p pid, .postForks 0 p]

/-- The exit of process 7 that is being handled. -/
def exit7 : ChildExit := ⟨7, ⟨.Exit, 0⟩, 0, []⟩

/-- A process is spawned as process 7 and exits; its memory is released while it is that
    process. -/
theorem exitAttributed_exit7 : ∃ s s', system.ReachableWhen ExitsOwned s ∧
    s.step (.exitReleases exit7) = some s' ∧ s.ExitAttributed (.exitReleases exit7) s' := by
  have h₀ : system.ReachableWhen ExitsOwned { mMemory := .set 1000, mLoanMemory := false } :=
    .init ⟨1000, false, rfl⟩
  have h₁ := h₀.next (e := Event.addsProcess (idOf 1)) trivial rfl
  have h₂ := h₁.next (e := Event.spawns 0 0 100 false) trivial rfl
  have h₃ := h₂.next (e := Event.reserves 0 0 100) trivial rfl
  have h₄ := h₃.next (e := Event.setsReserved 0 0 100) trivial rfl
  have h₅ := h₄.next (e := Event.forks 0 0 7) trivial rfl
  have h₆ := h₅.next (e := Event.postForks 0 0)
    (fun q hq => Option.some.inj ((show some 0 = some q from hq).symm)) rfl
  have h₇ := h₆.next (e := Event.collects [7]) trivial rfl
  have h₈ := h₇.next (e := Event.waitpid 7 ⟨.Exit, 0⟩ [7]) trivial rfl
  have h₉ := h₈.next (e := Event.handles 7 ⟨.Exit, 0⟩ []) trivial rfl
  exact ⟨_, _, h₉, rfl, exitAttributed_of_exitsOwned h₉ (e := Event.exitReleases exit7) nofun rfl⟩

/-- The process is told to terminate, ignores SIGKILL and is given up on. -/
def givesUp : List Event :=
  [.callsTerminate 0 0 true, .terminates 0 0 true .user, .startsThread 0 0 true .user,
    .process 0 (.threadLocks 0 true false), .process 0 (.killTimesOut 0),
    .process 0 (.killResumes 0)]

def resets : List Event :=
  [.process 0 (.reset 1), .process 0 (.joinsThread 1), .process 0 (.resetsState 1)]

/-- Process 7 exits, and the monitor gets to handling its exit. -/
def exits7 : List Event :=
  [.collects [7], .waitpid 7 ⟨.Exit, 0⟩ [7], .handles 7 ⟨.Exit, 0⟩ []]

/-- Process 7 is given up on; the object is reset and spawned again as process 8; then
    process 7 exits after all. -/
def exitsLate : List Event :=
  .addsProcess (idOf 1) ::
    (spawnsAs 0 100 7 ++ (givesUp ++ (resets ++ (spawnsAs 0 100 8 ++ exits7))))

theorem not_forall_exitAttributed :
    ¬ ∀ s e s', system.Reachable s → s.step e = some s' → s.ExitAttributed e s' := by
  intro hall
  obtain ⟨s, hreach, hs⟩ := System.exists_reachable_of_run (M := system)
    (fun s => decide ((s.objects 0).mPid = 8 ∧
      (s.step (.exitReleases ⟨7, ⟨.Exit, 0⟩, 0, []⟩)).isSome = true))
    exitsLate ⟨1000, false, rfl⟩ (by decide)
  obtain ⟨hpid, hstep⟩ := of_decide_eq_true hs
  obtain ⟨s', hs'⟩ := Option.isSome_iff_exists.mp hstep
  have hruns := (hall s _ s' hreach hs').acts _ rfl
  exact absurd (hpid.symm.trans hruns.2) (by decide)

end ProcessManager

end Arras4Core.Execute
