/-
  Arras4Core.Execute.LockOrder

  The order the mutexes are taken in.  `spawn` holds the state mutex of its
  process and takes `mProcessesMutex`, and the state mutex of a borrower; the
  exit monitor holds `mProcessesMutex` and takes the state mutex of the process
  that exited.  No set of threads waits in a circle as long as a process is not
  being spawned while the exit monitor handles an exit for it, or while
  `reserveMemory` is about to terminate it.
-/

import Arras4Core.Execute.ExitAttribution
import Arras4Core.Lib.WaitFor

namespace Arras4Core.Execute

open Arras4Core.Lib

inductive Mutex
  | processes
  | state (p : Nat)

inductive Thread
  | caller (t : Nat)
  | exitMonitor
  -- a thread inside the process, which holds its mutex only while it runs
  | inside (p : Nat)

def Holder.thread : Holder → Thread
  | caller t => .caller t
  | exitMonitor => .exitMonitor

/-- The mutexes a thread may ask for next.  A thread that is in none of the calls
    that the manager keeps track of may ask for any of them. -/
def Call.wants : Call → Mutex → Prop
  | idle, _ => True
  | findBorrower _ _ deficit, m => 0 < deficit ∧ m = .processes
  | postFork _, m | eraseProcess _, m => m = .processes
  | terminate p _ _, m | waitForExit _ p, m | lend p _, m => m = .state p
  | _, _ => False

def MonitorPc.wants : MonitorPc → Mutex → Prop
  | collect, m | handle _ _ _, m => m = .processes
  | lock x, m => m = .state x.p
  | _, _ => False

/-- The borrower that the call is about to terminate. -/
def Call.borrower : Call → Option Nat
  | terminate b _ (.reserveMemory _ _ _) => some b
  | _ => none

theorem Call.eq_of_borrower {call : Call} {b : Nat} (h : call.borrower = some b) :
    ∃ fast p reservation deficit,
      call = .terminate b fast (.reserveMemory p reservation deficit) := by
  unfold Call.borrower at h
  split at h
  · next fast p reservation deficit =>
    cases h
    exact ⟨fast, p, reservation, deficit, rfl⟩
  · cases h

namespace ProcessManager

variable {s s' : ProcessManager}

/-- The threads and the mutexes. -/
def lockGraph (s : ProcessManager) : LockGraph Thread Mutex where
  wants
    | .caller t, m => (s.calls t).wants m
    | .exitMonitor, m => s.exitMonitor.wants m
    | .inside p, m => m = .state p
  holds u
    | .processes => u = .exitMonitor ∧ ¬ s.processesFree
    | .state p => ∃ holder, (s.objects p).mStateMutex = some holder ∧ u = holder.thread

/-- The state mutex is held by a thread that spawns the process. -/
def beingSpawned (s : ProcessManager) (p : Nat) : Prop :=
  ∃ t, (s.objects p).mStateMutex = some (.caller t)

/-- A process that is being spawned is not one whose exit is handled, nor one that
    `reserveMemory` is about to terminate; and the other way round. -/
def SpawnsApart (s : ProcessManager) : Event → Prop
  | .handles pid _ _ => ∀ p, s.mPidToProcess pid = some p → ¬ s.beingSpawned p
  | .findsBorrower _ _ _ _ (some b) => ¬ s.beingSpawned b
  | .spawns _ p _ _ =>
    (∀ x, s.exitMonitor.childExit = some x → x.p ≠ p) ∧
    ∀ t fast q reservation deficit,
      s.calls t ≠ .terminate p fast (.reserveMemory q reservation deficit)
  | _ => True

/-! ## The invariant -/

structure LocksApart (s : ProcessManager) : Prop where
  -- who holds a state mutex
  caller : ∀ p t, (s.objects p).mStateMutex = some (.caller t) → (s.calls t).locked = some p
  monitor : ∀ p, (s.objects p).mStateMutex = some .exitMonitor →
    ∃ x, s.exitMonitor.locked = some x ∧ x.p = p
  -- whose state mutex no caller holds
  exiting : ∀ x, s.exitMonitor.childExit = some x → ¬ s.beingSpawned x.p
  borrower : ∀ t b, (s.calls t).borrower = some b → ¬ s.beingSpawned b

/-- The exit monitor waits for nobody. -/
theorem LocksApart.not_monitor_waits (h : s.LocksApart) (u : Thread) :
    ¬ s.lockGraph.WaitsFor .exitMonitor u := by
  rintro ⟨m, hwants, hholds⟩
  have hwants : s.exitMonitor.wants m := hwants
  cases hpc : s.exitMonitor with
  | collect | handle =>
    rw [hpc] at hwants
    cases hwants
    exact hholds.2 (by rw [processesFree, hpc]; rfl)
  | lock x =>
    rw [hpc] at hwants
    cases hwants
    obtain ⟨holder, hmutex, -⟩ := hholds
    cases holder with
    | caller t => exact h.exiting x (by rw [hpc]; rfl) ⟨t, hmutex⟩
    | exitMonitor =>
      obtain ⟨y, hlocked, -⟩ := h.monitor x.p hmutex
      rw [hpc] at hlocked
      cases hlocked
  | _ =>
    rw [hpc] at hwants
    exact hwants

/-- A thread that spawns a process waits for the exit monitor only. -/
theorem LocksApart.spawner_waits (h : s.LocksApart) {t p : Nat}
    (hmutex : (s.objects p).mStateMutex = some (.caller t)) {u : Thread}
    (hwaits : s.lockGraph.WaitsFor (.caller t) u) : u = .exitMonitor := by
  obtain ⟨m, hwants, hholds⟩ := hwaits
  have hwants : (s.calls t).wants m := hwants
  have hlocked := h.caller p t hmutex
  cases hpc : s.calls t with
  | findBorrower =>
    rw [hpc] at hwants
    obtain ⟨-, rfl⟩ := hwants
    exact hholds.1
  | postFork =>
    rw [hpc] at hwants
    cases hwants
    exact hholds.1
  | terminate b fast caller =>
    rw [hpc] at hwants hlocked
    cases hwants
    cases caller with
    | user | removeProcess => cases hlocked
    | reserveMemory q reservation deficit =>
      obtain ⟨holder, hb, rfl⟩ := hholds
      cases holder with
      | caller t' => exact absurd ⟨t', hb⟩ (h.borrower t b (by rw [hpc]; rfl))
      | exitMonitor => rfl
  | idle | waitForExit | eraseProcess | lend =>
    rw [hpc] at hlocked
    cases hlocked
  | _ =>
    rw [hpc] at hwants
    exact absurd hwants id

open Classical in
/-- The exit monitor, the threads that hold a state mutex, and the others. -/
noncomputable def rank (s : ProcessManager) : Thread → Nat
  | .exitMonitor => 0
  | .caller t => if ∃ p, (s.objects p).mStateMutex = some (.caller t) then 1 else 2
  | .inside _ => 2

theorem LocksApart.not_circularWait (h : s.LocksApart) (S : Set Thread) :
    ¬ s.lockGraph.CircularWait S := by
  refine LockGraph.not_circularWait_of_rank s.rank (fun t u v htu huv => ?_) S
  have hu : u ≠ .exitMonitor := by
    rintro rfl
    exact h.not_monitor_waits v huv
  have ht : s.rank t = 2 := by
    cases t with
    | exitMonitor => exact absurd htu (h.not_monitor_waits u)
    | inside p => rfl
    | caller t =>
      refine if_neg ?_
      rintro ⟨p, hmutex⟩
      exact hu (h.spawner_waits hmutex htu)
  -- `u` holds what `t` wants, and it is not the exit monitor
  obtain ⟨m, -, hholds⟩ := htu
  cases m with
  | processes => exact absurd hholds.1 hu
  | state p =>
    obtain ⟨holder, hmutex, rfl⟩ := hholds
    cases holder with
    | exitMonitor => exact absurd rfl hu
    | caller t' =>
      have hone : s.rank (.caller t') = 1 := if_pos ⟨p, hmutex⟩
      rw [ht]
      show s.rank (.caller t') < 2
      omega

/-! ## Steps that take no state mutex -/

/-- No state mutex changes hands. -/
def SameMutexes (s s' : ProcessManager) : Prop :=
  ∀ p, (s'.objects p).mStateMutex = (s.objects p).mStateMutex

theorem SameMutexes.beingSpawned (h : SameMutexes s s') (p : Nat) :
    s'.beingSpawned p ↔ s.beingSpawned p := by
  unfold ProcessManager.beingSpawned
  rw [h p]

theorem sameMutexes_modify {p : Nat} {f : Object → Object}
    (h : (f (s.objects p)).mStateMutex = (s.objects p).mStateMutex) :
    SameMutexes s (s.modify p f) := by
  intro q
  by_cases hq : q = p
  · rw [hq, modify_objects_self, h]
  · rw [modify_objects_of_ne _ _ hq]

/-- A caller moves on in the call it is in. -/
theorem LocksApart.caller_moves (h : s.LocksApart) (hmutexes : SameMutexes s s') {t : Nat}
    {old call : Call} (hpc : s.calls t = old) (hcalls : s'.calls = Function.update s.calls t call)
    (hmonitor : s'.exitMonitor = s.exitMonitor) (hlocked : call.locked = old.locked)
    (hborrower : call.borrower = none ∨ ∃ b, call.borrower = some b ∧ ¬ s.beingSpawned b) :
    s'.LocksApart where
  caller p u hmutex := by
    rw [hmutexes p] at hmutex
    rw [hcalls]
    by_cases hu : u = t
    · subst hu
      rw [Function.update_self, hlocked, ← hpc]
      exact h.caller p u hmutex
    · rw [Function.update_of_ne hu]
      exact h.caller p u hmutex
  monitor p hmutex := by
    rw [hmonitor]
    exact h.monitor p ((hmutexes p).symm.trans hmutex)
  exiting x hx := by
    rw [hmonitor] at hx
    rw [hmutexes.beingSpawned]
    exact h.exiting x hx
  borrower u b hu := by
    rw [hmutexes.beingSpawned]
    rw [hcalls] at hu
    by_cases hut : u = t
    · rw [hut, Function.update_self] at hu
      rcases hborrower with hnone | ⟨b', hb', hspawned⟩
      · cases hnone.symm.trans hu
      · cases hb'.symm.trans hu
        exact hspawned
    · rw [Function.update_of_ne hut] at hu
      exact h.borrower u b hu

/-- The exit monitor moves on. -/
theorem LocksApart.monitor_moves (h : s.LocksApart) (hmutexes : SameMutexes s s')
    (hcalls : s'.calls = s.calls) (hlocked : s'.exitMonitor.locked = s.exitMonitor.locked)
    (hexiting : ∀ x, s'.exitMonitor.childExit = some x → ¬ s.beingSpawned x.p) :
    s'.LocksApart where
  caller p t hmutex := by
    rw [hcalls]
    exact h.caller p t ((hmutexes p).symm.trans hmutex)
  monitor p hmutex := by
    obtain ⟨x, hx, hp⟩ := h.monitor p ((hmutexes p).symm.trans hmutex)
    exact ⟨x, hlocked.trans hx, hp⟩
  exiting x hx := by
    rw [hmutexes.beingSpawned]
    exact hexiting x hx
  borrower t b ht := by
    rw [hmutexes.beingSpawned]
    exact h.borrower t b (hcalls ▸ ht)

/-- The exit monitor moves to where it handles no exit. -/
theorem LocksApart.monitor_ends (h : s.LocksApart) (hmutexes : SameMutexes s s')
    (hcalls : s'.calls = s.calls) (hlocked : s'.exitMonitor.locked = s.exitMonitor.locked)
    (hnone : s'.exitMonitor.childExit = none) : s'.LocksApart := by
  refine h.monitor_moves hmutexes hcalls hlocked fun x hx => ?_
  cases hnone.symm.trans hx

/-! ## Steps that take or give back a state mutex -/

/-- The state mutexes of all processes but `p` stay with their holders. -/
def SameMutexesBut (p : Nat) (s s' : ProcessManager) : Prop :=
  ∀ q, q ≠ p → (s'.objects q).mStateMutex = (s.objects q).mStateMutex

/-- A caller takes the mutex of a process that it goes on to spawn. -/
theorem LocksApart.caller_locks (h : s.LocksApart) {t p : Nat} {call : Call}
    (hapart : s.SpawnsApart (.spawns t p 0 false)) (hidle : s.calls t = .idle)
    (hbut : SameMutexesBut p s s') (hmutex : (s'.objects p).mStateMutex = some (.caller t))
    (hcalls : s'.calls = Function.update s.calls t call) (hmonitor : s'.exitMonitor = s.exitMonitor)
    (hlocked : call.locked = some p) (hborrower : call.borrower = none) : s'.LocksApart where
  caller q u hq := by
    rw [hcalls]
    by_cases hqp : q = p
    · subst hqp
      cases hmutex.symm.trans hq
      rw [Function.update_self, hlocked]
    · have hu := h.caller q u ((hbut q hqp).symm.trans hq)
      have hut : u ≠ t := by
        rintro rfl
        rw [hidle] at hu
        cases hu
      rw [Function.update_of_ne hut]
      exact hu
  monitor q hq := by
    have hqp : q ≠ p := by
      rintro rfl
      cases hmutex.symm.trans hq
    rw [hmonitor]
    exact h.monitor q ((hbut q hqp).symm.trans hq)
  exiting x hx := by
    rw [hmonitor] at hx
    rintro ⟨u, hu⟩
    exact h.exiting x hx ⟨u, (hbut x.p (hapart.1 x hx)).symm.trans hu⟩
  borrower u b hu := by
    rw [hcalls] at hu
    by_cases hut : u = t
    · rw [hut, Function.update_self] at hu
      cases hborrower.symm.trans hu
    · rw [Function.update_of_ne hut] at hu
      obtain ⟨fast, q, reservation, deficit, hcall⟩ := Call.eq_of_borrower hu
      have hb : b ≠ p := by
        rintro rfl
        exact hapart.2 u fast q reservation deficit hcall
      rintro ⟨v, hv⟩
      exact h.borrower u b hu ⟨v, (hbut b hb).symm.trans hv⟩

/-- A caller gives back the mutex of the process that it has spawned. -/
theorem LocksApart.caller_unlocks (h : s.LocksApart) {t p : Nat}
    (hheld : (s.calls t).locked = some p) (hbut : SameMutexesBut p s s')
    (hmutex : (s'.objects p).mStateMutex = none)
    (hcalls : s'.calls = Function.update s.calls t .idle)
    (hmonitor : s'.exitMonitor = s.exitMonitor) : s'.LocksApart := by
  have hspawned : ∀ q, s'.beingSpawned q → s.beingSpawned q := by
    rintro q ⟨u, hu⟩
    have hqp : q ≠ p := by
      rintro rfl
      cases hmutex.symm.trans hu
    exact ⟨u, (hbut q hqp).symm.trans hu⟩
  exact
    { caller := fun q u hq => by
        have hqp : q ≠ p := by
          rintro rfl
          cases hmutex.symm.trans hq
        have hu := h.caller q u ((hbut q hqp).symm.trans hq)
        have hut : u ≠ t := by
          rintro rfl
          exact hqp (Option.some.inj (hu.symm.trans hheld))
        rw [hcalls, Function.update_of_ne hut]
        exact hu
      monitor := fun q hq => by
        have hqp : q ≠ p := by
          rintro rfl
          cases hmutex.symm.trans hq
        rw [hmonitor]
        exact h.monitor q ((hbut q hqp).symm.trans hq)
      exiting := fun x hx hp => h.exiting x (hmonitor ▸ hx) (hspawned x.p hp)
      borrower := fun u b hu hb => by
        rw [hcalls] at hu
        by_cases hut : u = t
        · rw [hut, Function.update_self] at hu
          cases hu
        · rw [Function.update_of_ne hut] at hu
          exact h.borrower u b hu (hspawned b hb) }

/-- The exit monitor takes or gives back the mutex of the process that exited. -/
theorem LocksApart.monitor_locks (h : s.LocksApart) {p : Nat} (hbut : SameMutexesBut p s s')
    (hcaller : ∀ t, (s'.objects p).mStateMutex ≠ some (.caller t)) (hcalls : s'.calls = s.calls)
    (hmonitor : ∀ q, (s'.objects q).mStateMutex = some .exitMonitor →
      ∃ x, s'.exitMonitor.locked = some x ∧ x.p = q)
    (hexiting : ∀ x, s'.exitMonitor.childExit = some x → x.p = p) : s'.LocksApart := by
  have hspawned : ∀ q, s'.beingSpawned q → s.beingSpawned q := by
    rintro q ⟨u, hu⟩
    have hqp : q ≠ p := by
      rintro rfl
      exact hcaller u hu
    exact ⟨u, (hbut q hqp).symm.trans hu⟩
  exact
    { caller := fun q u hq => by
        have hqp : q ≠ p := by
          rintro rfl
          exact hcaller u hq
        rw [hcalls]
        exact h.caller q u ((hbut q hqp).symm.trans hq)
      monitor := hmonitor
      exiting := fun x hx hp => by
        obtain ⟨u, hu⟩ := hp
        exact hcaller u (hexiting x hx ▸ hu)
      borrower := fun u b hu hb => h.borrower u b (hcalls ▸ hu) (hspawned b hb) }

/-! ## One step -/

theorem SameMutexes.refl (s : ProcessManager) : SameMutexes s s := fun _ => rfl

theorem sameMutexes_act (p : Nat) (f : ActiveProcess → ActiveProcess) :
    SameMutexes s (s.act p f) := sameMutexes_modify rfl

theorem sameMutexes_reserve (p : Nat) (amount : UInt32) : SameMutexes s (s.reserve p amount) :=
  fun q => (sameCore_reserve p amount q).mutex

theorem sameMutexes_release (p : Nat) : SameMutexes s (s.release p) :=
  fun q => (sameCore_release p q).mutex

theorem sameMutexes_setReserved (p : Nat) (reservation : UInt32) :
    SameMutexes s (s.setReserved p reservation) :=
  fun q => (sameCore_setReserved p reservation q).mutex

theorem locked_afterReserve (p : Nat) (reservation : UInt32) :
    (s.afterReserve p reservation).locked = some p ∧
      (s.afterReserve p reservation).borrower = none := by
  unfold afterReserve
  split
  · exact ⟨rfl, rfl⟩
  · split <;> exact ⟨rfl, rfl⟩

theorem locked_afterReserveAgain (p : Nat) (reservation : UInt32) :
    (s.afterReserveAgain p reservation).locked = some p ∧
      (s.afterReserveAgain p reservation).borrower = none := by
  unfold afterReserveAgain
  split <;> exact ⟨rfl, rfl⟩

theorem locked_next (p : Nat) (fast : Bool) (caller : TerminateCaller) :
    (caller.next p).locked = (Call.terminate p fast caller).locked ∧
      (caller.next p).borrower = none := by
  cases caller <;> exact ⟨rfl, rfl⟩

theorem LocksApart.next (h : s.LocksApart) {e : Event} (hcond : s.SpawnsApart e)
    (hs : s.next e = some s') : s'.LocksApart := by
  cases e with
  | addsProcess id =>
    obtain ⟨-, rfl⟩ := of_onlyIf hs
    have hsame : SameMutexes s (s.modify s.created fun o => { o with mId := id }) :=
      sameMutexes_modify rfl
    have hmoves := h.monitor_moves hsame rfl rfl h.exiting
    exact { hmoves with }
  | spawns t p assignedMb pipeFails =>
    obtain ⟨⟨hidle, -, -⟩, rfl⟩ := of_onlyIf hs
    unfold ProcessManager.spawn
    split
    · exact h
    · split
      · exact h.monitor_moves (sameMutexes_act p _) rfl rfl h.exiting
      · -- the condition: nobody but the caller is about to take the mutex
        refine h.caller_locks hcond hidle (fun q hq => ?_) ?_ rfl rfl rfl rfl
        · rw [setCall_objects, lock, modify_modify, modify_objects_of_ne _ _ hq]
        · rw [setCall_objects, lock, modify_objects_self]
  | reserves t p reservation =>
    obtain ⟨hpc, rfl⟩ := of_onlyIf hs
    obtain ⟨hlocked, hnone⟩ := locked_afterReserve (s := s) p reservation
    exact h.caller_moves (sameMutexes_reserve p reservation) hpc rfl rfl hlocked (.inl hnone)
  | findsBorrower t p reservation deficit borrower =>
    obtain ⟨⟨hpc, -⟩, rfl⟩ := of_onlyIf hs
    cases borrower with
    | none => exact h.caller_moves (.refl s) hpc rfl rfl rfl (.inl rfl)
    -- the condition: the borrower is not being spawned
    | some b => exact h.caller_moves (.refl s) hpc rfl rfl rfl (.inr ⟨b, rfl, hcond⟩)
  | borrowerIsReaped t p reservation borrower deficit =>
    obtain ⟨⟨hpc, -⟩, rfl⟩ := of_onlyIf hs
    exact h.caller_moves (.refl s) hpc rfl rfl rfl (.inl rfl)
  | reservesAgain t p reservation =>
    obtain ⟨hpc, rfl⟩ := of_onlyIf hs
    obtain ⟨hlocked, hnone⟩ := locked_afterReserveAgain (s := s) p reservation
    exact h.caller_moves (sameMutexes_reserve p reservation) hpc rfl rfl hlocked (.inl hnone)
  | reservesRest t p reservation =>
    obtain ⟨hpc, rfl⟩ := of_onlyIf hs
    exact h.caller_moves (sameMutexes_reserve p reservation) hpc rfl rfl rfl (.inl rfl)
  | setsReserved t p reservation =>
    obtain ⟨hpc, rfl⟩ := of_onlyIf hs
    exact h.caller_moves (sameMutexes_setReserved p reservation) hpc rfl rfl rfl (.inl rfl)
  | forkFails t p =>
    obtain ⟨hpc, rfl⟩ := of_onlyIf hs
    exact h.caller_moves (sameMutexes_act p fun a => a.spawn a.mAssignedMb .forkFails) hpc rfl rfl
      rfl (.inl rfl)
  | failedForkReleases t p =>
    obtain ⟨hpc, rfl⟩ := of_onlyIf hs
    exact h.caller_moves (sameMutexes_release p) hpc rfl rfl rfl (.inl rfl)
  | forks t p pid =>
    obtain ⟨⟨hpc, -⟩, rfl⟩ := of_onlyIf hs
    exact h.caller_moves (sameMutexes_act p fun a => a.spawn a.mAssignedMb (.forks pid)) hpc rfl rfl
      rfl (.inl rfl)
  | failedForkClears t p =>
    obtain ⟨hpc, rfl⟩ := of_onlyIf hs
    refine h.caller_unlocks (p := p) (by rw [hpc]; rfl) (fun q hq => ?_) ?_ rfl rfl
    · rw [setCall_objects, unlock, setReserved, modify_modify, modify_objects_of_ne _ _ hq]
    · rw [setCall_objects, unlock, modify_objects_self]
  | postForks t p =>
    obtain ⟨⟨hpc, -⟩, rfl⟩ := of_onlyIf hs
    obtain ⟨pids, hregister⟩ := s.registerPid_eq p
    have hobjects : (s.registerPid p).objects = s.objects := by rw [hregister]
    have hmonitor : (s.registerPid p).exitMonitor = s.exitMonitor := by rw [hregister]
    refine h.caller_unlocks (p := p) (by rw [hpc]; rfl) (fun q hq => ?_) ?_ ?_ hmonitor
    · rw [postFork_cb, setCall_objects, unlock, modify_objects_of_ne _ _ hq, hobjects]
    · rw [postFork_cb, setCall_objects, unlock, modify_objects_self]
    · rw [postFork_cb, setCall, unlock, modify_calls, registerPid_calls]
  | callsTerminate t p fast =>
    obtain ⟨⟨hpc, -⟩, rfl⟩ := of_onlyIf hs
    exact h.caller_moves (.refl s) hpc rfl rfl rfl (.inl rfl)
  | terminates t p fast caller =>
    obtain ⟨⟨hpc, -⟩, rfl⟩ := of_onlyIf hs
    obtain ⟨hnext, hnone⟩ := locked_next p fast caller
    refine h.caller_moves (sameMutexes_act p fun a => a.terminate t fast) hpc rfl rfl ?_ (.inl ?_)
    · split
      · cases caller <;> rfl
      · exact hnext
    · split
      · rfl
      · exact hnone
  | startsThread t p fast caller =>
    obtain ⟨hpc, rfl⟩ := of_onlyIf hs
    obtain ⟨-, hnone⟩ := locked_next p fast caller
    refine h.caller_moves (sameMutexes_act p fun a => a.startThread t fast) hpc rfl rfl ?_
      (.inl hnone)
    cases caller <;> rfl
  | removesProcess t id =>
    obtain ⟨⟨hpc, -⟩, rfl⟩ := of_onlyIf hs
    unfold removeProcess
    split
    · exact h
    · exact h.caller_moves (.refl s) hpc rfl rfl rfl (.inl rfl)
  | seesExit t id p =>
    obtain ⟨⟨hpc, -⟩, rfl⟩ := of_onlyIf hs
    exact h.caller_moves (.refl s) hpc rfl rfl rfl (.inl rfl)
  | erasesProcess t id =>
    obtain ⟨⟨hpc, -⟩, rfl⟩ := of_onlyIf hs
    exact h.caller_moves (.refl s) hpc rfl rfl rfl (.inl rfl)
  | runsOutOfMemory t p =>
    obtain ⟨⟨hpc, -⟩, rfl⟩ := of_onlyIf hs
    refine h.caller_moves (.refl s) hpc rfl rfl ?_ (.inl ?_)
    · split <;> rfl
    · split <;> rfl
  | borrows t p =>
    obtain ⟨hpc, rfl⟩ := of_onlyIf hs
    rw [borrow_eq]
    refine h.caller_moves (.refl s) hpc rfl rfl ?_ (.inl ?_)
    · split <;> rfl
    · split <;> rfl
  | lends t p borrowed =>
    obtain ⟨⟨hpc, -⟩, rfl⟩ := of_onlyIf hs
    have hsame : SameMutexes s
        (s.modify p fun o => { o with mBorrowedMb := o.mBorrowedMb + borrowed }) :=
      sameMutexes_modify rfl
    exact h.caller_moves hsame hpc rfl rfl rfl (.inl rfl)
  | process p e =>
    obtain ⟨a, -, hguard⟩ := Option.bind_eq_some_iff.mp hs
    obtain ⟨-, rfl⟩ := of_onlyIf hguard
    exact h.monitor_moves (sameMutexes_act p _) rfl rfl h.exiting
  | collects pidList =>
    obtain ⟨⟨hpc, -⟩, rfl⟩ := of_onlyIf hs
    exact h.monitor_ends (.refl s) rfl (by rw [hpc]; rfl) rfl
  | waitpid pid status pidList =>
    obtain ⟨⟨hpc, -⟩, rfl⟩ := of_onlyIf hs
    exact h.monitor_ends (.refl s) rfl (by rw [hpc]; rfl) rfl
  | pollEnds pidList =>
    obtain ⟨hpc, rfl⟩ := of_onlyIf hs
    exact h.monitor_ends (.refl s) rfl (by rw [hpc]; rfl) rfl
  | handles pid status pidList =>
    obtain ⟨hpc, rfl⟩ := of_onlyIf hs
    unfold ProcessManager.handleChildExit
    split
    · exact h.monitor_ends (.refl s) rfl (by rw [hpc]; rfl) rfl
    · next p hp =>
      refine h.monitor_moves (.refl s) rfl (by rw [hpc]; rfl) fun x hx => ?_
      cases hx
      exact hcond p hp
  | exitReleases x | releasesAgain x =>
    obtain ⟨hpc, rfl⟩ := of_onlyIf hs
    refine h.monitor_moves (sameMutexes_release x.p) rfl (by rw [hpc]; rfl) fun y hy => ?_
    cases hy
    exact h.exiting x (by rw [hpc]; rfl)
  | exitClears x | clearsAgain x =>
    obtain ⟨hpc, rfl⟩ := of_onlyIf hs
    refine h.monitor_moves (sameMutexes_setReserved x.p 0) rfl (by rw [hpc]; rfl) fun y hy => ?_
    cases hy
    exact h.exiting x (by rw [hpc]; rfl)
  | erasesPid x =>
    obtain ⟨hpc, rfl⟩ := of_onlyIf hs
    refine h.monitor_moves (.refl s) rfl (by rw [hpc]; rfl) fun y hy => ?_
    cases hy
    exact h.exiting x (by rw [hpc]; rfl)
  | locksTerminated x =>
    obtain ⟨⟨hpc, hfree⟩, rfl⟩ := of_onlyIf hs
    unfold ProcessManager.lockTerminated
    split
    · -- the process is terminated already, and the mutex is given back at once
      exact h.monitor_ends (.refl s) rfl (by rw [hpc]; rfl) rfl
    · refine h.monitor_locks (p := x.p) (fun q hq => ?_) (fun t => ?_) rfl (fun q hq => ?_)
        fun y hy => ?_
      · rw [setMonitor_objects, lock, modify_objects_of_ne _ _ hq]
      · rw [setMonitor_objects, lock, modify_objects_self]
        intro heq
        cases heq
      · by_cases hqx : q = x.p
        · exact ⟨x, rfl, hqx.symm⟩
        · rw [setMonitor_objects, lock, modify_objects_of_ne _ _ hqx] at hq
          obtain ⟨y, hy, -⟩ := h.monitor q hq
          rw [hpc] at hy
          cases hy
      · cases hy
        rfl
  | marks x =>
    obtain ⟨hpc, rfl⟩ := of_onlyIf hs
    have hobjects : ∀ q, q ≠ x.p → ((s.markTerminated x).objects q).mStateMutex =
        (s.objects q).mStateMutex := by
      intro q hq
      rw [markTerminated, setMonitor_objects, unlock, act, modify_modify,
        modify_objects_of_ne _ _ hq]
    have hfree : ((s.markTerminated x).objects x.p).mStateMutex = none := by
      rw [markTerminated, setMonitor_objects, unlock, modify_objects_self]
    refine h.monitor_locks hobjects (fun t ht => ?_) rfl (fun q hq => ?_) fun y hy => ?_
    · cases hfree.symm.trans ht
    · have hqx : q ≠ x.p := by
        rintro rfl
        cases hfree.symm.trans hq
      rw [hobjects q hqx] at hq
      obtain ⟨y, hy, rfl⟩ := h.monitor q hq
      rw [hpc] at hy
      cases hy
      exact absurd rfl hqx
    · cases hy

/-! ## Every run -/

theorem locksApart_of_reachable (h : system.ReachableWhen SpawnsApart s) : s.LocksApart := by
  apply h.invariant
  · rintro s₀ ⟨availableMemoryMb, loanMemory, rfl⟩
    exact { caller := nofun, monitor := nofun, exiting := nofun, borrower := nofun }
  · exact fun _ _ _ hi hcond hs => hi.next hcond (next_of_step hs)

/-- **No circular wait** in any run that keeps spawns apart from exits and from the
    search for borrowers. -/
theorem not_circularWait_of_spawnsApart (h : system.ReachableWhen SpawnsApart s)
    (S : Set Thread) : ¬ s.lockGraph.CircularWait S :=
  (locksApart_of_reachable h).not_circularWait S

/-- A process is forked while the exit of another one is handled: its spawn waits for
    the exit monitor. -/
theorem not_circularWait_waits : ∃ s, system.ReachableWhen SpawnsApart s ∧
    s.lockGraph.WaitsFor (.caller 1) .exitMonitor ∧ ∀ S, ¬ s.lockGraph.CircularWait S := by
  have h : ∃ s, system.ReachableWhen SpawnsApart s ∧
      s.lockGraph.WaitsFor (.caller 1) .exitMonitor := by
    have h₀ : system.ReachableWhen SpawnsApart { mMemory := .set 1000, mLoanMemory := false } :=
      .init ⟨1000, false, rfl⟩
    have h₁ := h₀.next (e := Event.addsProcess (idOf 1)) trivial rfl
    have h₂ := h₁.next (e := Event.addsProcess (idOf 2)) trivial rfl
    have h₃ := h₂.next (e := Event.spawns 0 0 100 false) ⟨nofun, nofun⟩ rfl
    have h₄ := h₃.next (e := Event.reserves 0 0 100) trivial rfl
    have h₅ := h₄.next (e := Event.setsReserved 0 0 100) trivial rfl
    have h₆ := h₅.next (e := Event.forks 0 0 7) trivial rfl
    have h₇ := h₆.next (e := Event.postForks 0 0) trivial rfl
    have h₈ := h₇.next (e := Event.spawns 1 1 100 false)
      ⟨nofun, fun t => match t with
        | 0 => nofun
        | _ + 1 => nofun⟩ rfl
    have h₉ := h₈.next (e := Event.reserves 1 1 100) trivial rfl
    have ha := h₉.next (e := Event.setsReserved 1 1 100) trivial rfl
    have hb := ha.next (e := Event.forks 1 1 8) trivial rfl
    have hc := hb.next (e := Event.collects [7]) trivial rfl
    have hd := hc.next (e := Event.waitpid 7 ⟨.Exit, 0⟩ [7]) trivial rfl
    have he := hd.next (e := Event.handles 7 ⟨.Exit, 0⟩ [])
      (fun p hp hspawned => by
        cases (show some 0 = some p from hp)
        obtain ⟨t, ht⟩ := hspawned
        cases ht) rfl
    exact ⟨_, he, .processes, rfl, rfl, nofun⟩
  obtain ⟨s, hreach, hwaits⟩ := h
  exact ⟨s, hreach, hwaits, not_circularWait_of_spawnsApart hreach⟩

/-! ## A late exit of a process that is being spawned again -/

/-- `spawn` as process 8, up to `postFork_cb`. -/
def forksAs8 : List Event :=
  [.spawns 0 0 100 false, .reserves 0 0 100, .setsReserved 0 0 100, .forks 0 0 8]

/-- `handleChildExit` up to the call of `terminated`. -/
def exitCallback : List Event := [.exitReleases exit7, .exitClears exit7, .erasesPid exit7]

/-- Process 7 is given up on; the object is reset and is being spawned as process 8 when
    process 7 exits after all. -/
def exitsWhileSpawned : List Event :=
  .addsProcess (idOf 1) ::
    (spawnsAs 0 100 7 ++ (givesUp ++ (resets ++ (forksAs8 ++ (exits7 ++ exitCallback)))))

/-- The spawn and the exit monitor wait for each other. -/
theorem not_forall_not_circularWait :
    ¬ ∀ s, system.Reachable s → ∀ S, ¬ s.lockGraph.CircularWait S := by
  intro hall
  obtain ⟨s, hreach, hs⟩ := System.exists_reachable_of_run (M := system)
    (fun s => decide (s.calls 0 = .postFork 0 ∧ s.exitMonitor = .lock exit7 ∧
      (s.objects 0).mStateMutex = some (.caller 0)))
    exitsWhileSpawned ⟨1000, false, rfl⟩ (by decide)
  obtain ⟨hcall, hmonitor, hmutex⟩ := of_decide_eq_true hs
  have hcaller : s.lockGraph.WaitsFor (.caller 0) .exitMonitor := by
    refine ⟨.processes, ?_, rfl, ?_⟩
    · show (s.calls 0).wants .processes
      rw [hcall]
      rfl
    · rw [processesFree, hmonitor]
      nofun
  have hexit : s.lockGraph.WaitsFor .exitMonitor (.caller 0) := by
    refine ⟨.state 0, ?_, .caller 0, hmutex, rfl⟩
    show s.exitMonitor.wants (.state 0)
    rw [hmonitor]
    rfl
  refine hall s hreach {.caller 0, .exitMonitor} ⟨⟨.caller 0, .inl rfl⟩, ?_⟩
  rintro t (rfl | rfl)
  · exact ⟨.exitMonitor, .inr rfl, hcaller⟩
  · exact ⟨.caller 0, .inl rfl, hexit⟩

end ProcessManager

end Arras4Core.Execute
