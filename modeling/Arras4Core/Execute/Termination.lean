/-
  Arras4Core.Execute.Termination

  What the termination thread sends its signals to.  `kill(-mPid, ..)` with
  `mPid` 0 signals the caller's own process group.  The thread never does so as
  long as no wait of it that times out gets the mutex back after an exit has
  been recorded; `waitUntilExit_wlock` does not look at the state again after a
  timeout.
-/

import Arras4Core.Execute.Process

namespace Arras4Core.Execute

open Arras4Core.Lib

/-- How many exits had been recorded when a stop or SIGTERM wait began. -/
def TerminationPc.since : TerminationPc → Option Nat
  | stopWait exits | stopTimedOut exits | termWait exits | termTimedOut exits => some exits
  | _ => none

namespace ActiveProcess

variable {s s' : ActiveProcess}

/-- There is a process group to signal. -/
def Signalable (s : ActiveProcess) : Prop := s.mPid ≠ 0 ∧ s.mState ≠ .Terminated

/-- Every signal of a termination thread went to a process that had not exited. -/
def KillsSafe (s : ActiveProcess) : Prop :=
  ∀ k ∈ s.kills, k.byTerminationProc = true → k.pid ≠ 0 ∧ k.state ≠ .Terminated

/-- When a stop or SIGTERM wait that timed out reacquires the mutex, no exit has
    been recorded since the wait began. -/
def NoExitInTimeout (s : ActiveProcess) : Event → Prop
  | .stopResumes _ exits | .termResumes _ exits => exits = s.exits
  | _ => True

/-- A thread in one of the first two waits has seen a process to signal, and will
    find it again unless an exit is recorded. -/
structure WaitsOk (s : ActiveProcess) : Prop where
  since : ∀ pc ∈ s.threads, ∀ exits, pc.since = some exits →
    exits ≤ s.exits ∧ (exits = s.exits → s.Signalable)
  kills : s.KillsSafe

/-! ## What a step does to the process -/

theorem update_terminated (s : ActiveProcess) (p : Process) (hstate : p.mState = s.mState)
    (status : ExitStatus) :
    s.exits ≤ (s.update (p.terminated status)).exits ∧
    ((s.update (p.terminated status)).exits = s.exits → s.Signalable →
      (s.update (p.terminated status)).Signalable) := by
  by_cases h : s.mState = .Terminated
  · -- nothing is recorded a second time
    have hsame : p.terminated status = p := if_neg (not_not_intro (hstate.trans h))
    have hexits : (s.update (p.terminated status)).exits = s.exits := by
      simp [update, h]
    exact ⟨Nat.le_of_eq hexits.symm, fun _ hlive => absurd h hlive.2⟩
  · have hterm : (p.terminated status).mState = .Terminated := by
      unfold Process.terminated
      rw [if_pos (hstate ▸ h)]
    have hexits : (s.update (p.terminated status)).exits = s.exits + 1 := by
      simp [update, h, hterm]
    exact ⟨by omega, fun heq => by omega⟩

/-- Unless it records an exit, a step leaves a process that can be signalled so. -/
theorem signalable_step {e : Event} (hs : s.act e = some s') :
    s.exits ≤ s'.exits ∧ (s'.exits = s.exits → s.Signalable → s'.Signalable) := by
  cases e with
  | spawn assignedMb outcome =>
    obtain ⟨hpid, rfl⟩ := of_onlyIf hs
    unfold ActiveProcess.spawn
    split
    · exact ⟨Nat.le_refl _, fun _ hlive => hlive⟩
    · cases outcome with
      | pipeFails | forkFails =>
        exact update_terminated s { s.toProcess with mAssignedMb := assignedMb } rfl _
      | forks pid =>
        have hne : pid ≠ 0 := fun hzero => hpid (hzero ▸ rfl)
        exact ⟨by simp [update], fun _ _ => ⟨hne, nofun⟩⟩
  | terminate caller fast =>
    cases hs
    unfold ActiveProcess.terminate
    split
    · exact update_terminated s s.toProcess rfl _
    · exact ⟨Nat.le_refl _, fun _ hlive => hlive⟩
    · exact ⟨Nat.le_refl _, fun _ hlive => hlive⟩
    · exact ⟨Nat.le_refl _, fun _ hlive => ⟨hlive.1, nofun⟩⟩
  | startsThread caller fast =>
    obtain ⟨-, rfl⟩ := of_onlyIf hs
    unfold startThread
    split <;> exact ⟨Nat.le_refl _, fun _ hlive => hlive⟩
  | signal signum sendToGroup =>
    cases hs
    unfold signal
    split <;> exact ⟨Nat.le_refl _, fun _ hlive => hlive⟩
  | reset caller =>
    cases hs
    unfold ActiveProcess.reset
    split <;> exact ⟨Nat.le_refl _, fun _ hlive => hlive⟩
  | resetsState caller =>
    obtain ⟨-, rfl⟩ := of_onlyIf hs
    exact ⟨Nat.le_refl _, fun _ hlive => ⟨hlive.1, nofun⟩⟩
  | terminated status =>
    cases hs
    exact update_terminated s s.toProcess rfl status
  | threadLocks i fast stopSent =>
    obtain ⟨-, rfl⟩ := of_onlyIf hs
    unfold terminationProc
    split
    · exact ⟨Nat.le_refl _, fun _ hlive => hlive⟩
    · split
      · exact ⟨Nat.le_refl _, fun _ hlive => hlive⟩
      · split <;> exact ⟨Nat.le_refl _, fun _ hlive => hlive⟩
  | threadWakes i pc =>
    obtain ⟨-, rfl⟩ := of_onlyIf hs
    split <;> exact ⟨Nat.le_refl _, fun _ hlive => hlive⟩
  | killResumes i =>
    obtain ⟨-, rfl⟩ := of_onlyIf hs
    exact update_terminated s s.toProcess rfl _
  | _ =>
    obtain ⟨-, rfl⟩ := of_onlyIf hs
    exact ⟨Nat.le_refl _, fun _ hlive => hlive⟩

/-! ## One step -/

/-- A step after which every thread is where it was, or in a place that no exit
    matters to, or in a wait that has just begun. -/
theorem WaitsOk.move (h : s.WaitsOk) {e : Event} (hs : s.act e = some s')
    (hthreads : ∀ pc ∈ s'.threads, (∃ old ∈ s.threads, pc.since = old.since) ∨ pc.since = none ∨
      (pc.since = some s'.exits ∧ s'.Signalable))
    (hkills : s'.KillsSafe) : s'.WaitsOk where
  since pc hmem exits hsince := by
    obtain ⟨hmono, hlive⟩ := signalable_step hs
    obtain ⟨old, hold, heq⟩ | hnone | ⟨hnew, hsignal⟩ := hthreads pc hmem
    · -- the count of exits only grows: if it is still what it was, this step recorded none
      obtain ⟨hle, hsame⟩ := h.since old hold exits (heq ▸ hsince)
      exact ⟨Nat.le_trans hle hmono, fun hnow => hlive (by omega) (hsame (by omega))⟩
    · exact absurd (hnone.symm.trans hsince) nofun
    · have hexits : s'.exits = exits := Option.some.inj (hnew.symm.trans hsince)
      exact ⟨Nat.le_of_eq hexits.symm, fun _ => hsignal⟩
  kills := hkills

theorem WaitsOk.frame (h : s.WaitsOk) {e : Event} (hs : s.act e = some s')
    (hthreads : s'.threads = s.threads) (hkills : s'.kills = s.kills) : s'.WaitsOk :=
  h.move hs (fun pc hmem => .inl ⟨pc, hthreads ▸ hmem, rfl⟩) (by
    unfold KillsSafe
    rw [hkills]
    exact h.kills)

/-- One thread moves on. -/
theorem WaitsOk.setThread (h : s.WaitsOk) {e : Event} (hs : s.act e = some s') {i : Nat}
    {pc : TerminationPc} (hthreads : s'.threads = s.threads.set i pc)
    (hpc : (∃ old ∈ s.threads, pc.since = old.since) ∨ pc.since = none ∨
      (pc.since = some s'.exits ∧ s'.Signalable))
    (hkills : s'.KillsSafe) : s'.WaitsOk := by
  refine h.move hs (fun pc' hmem => ?_) hkills
  rw [hthreads] at hmem
  obtain hold | hnew := List.mem_or_eq_of_mem_set hmem
  · exact .inl ⟨pc', hold, rfl⟩
  · exact hnew ▸ hpc

theorem KillsSafe.killGroup (h : s.KillsSafe) (hlive : s.Signalable) (signum : Nat) :
    (s.killGroup signum).KillsSafe := by
  intro k hmem hby
  obtain hmem | hmem := List.mem_append.mp hmem
  · exact h k hmem hby
  · rw [List.mem_singleton.mp hmem]
    exact hlive

theorem WaitsOk.step (h : s.WaitsOk) {e : Event} (hcond : s.NoExitInTimeout e)
    (hs : s.step e = some s') : s'.WaitsOk := by
  replace hs := act_of_step hs
  cases e with
  | spawn assignedMb outcome =>
    have hact := hs
    obtain ⟨-, rfl⟩ := of_onlyIf hs
    unfold ActiveProcess.spawn at hact ⊢
    split
    · exact h
    · next hstate =>
      rw [if_neg hstate] at hact
      cases outcome <;> exact h.frame hact rfl rfl
  | terminate caller fast =>
    have hact := hs
    cases hs
    refine h.frame hact ?_ ?_ <;> unfold ActiveProcess.terminate <;> split <;> rfl
  | startsThread caller fast =>
    have hact := hs
    obtain ⟨-, rfl⟩ := of_onlyIf hs
    refine h.move hact (fun pc hmem => ?_) ?_
    · unfold startThread at hmem
      split at hmem
      · exact .inl ⟨pc, hmem, rfl⟩
      · obtain hmem | hmem := List.mem_append.mp hmem
        · exact .inl ⟨pc, hmem, rfl⟩
        · -- the new thread waits for nothing yet
          exact .inr (.inl (by rw [List.mem_singleton.mp hmem]; rfl))
    · unfold startThread
      split <;> exact h.kills
  | signal signum sendToGroup =>
    have hact := hs
    cases hs
    refine h.move hact (fun pc hmem => ?_) ?_
    · unfold signal at hmem
      split at hmem <;> exact .inl ⟨pc, hmem, rfl⟩
    · unfold signal
      split
      · exact h.kills
      · intro k hmem hby
        obtain hmem | hmem := List.mem_append.mp hmem
        · exact h.kills k hmem hby
        · -- the new signal is the caller's, not a termination thread's
          rw [List.mem_singleton.mp hmem] at hby
          cases hby
  | reset caller =>
    have hact := hs
    cases hs
    refine h.frame hact ?_ ?_ <;> unfold ActiveProcess.reset <;> split <;> rfl
  | terminated status =>
    have hact := hs
    cases hs
    exact h.frame hact rfl rfl
  | threadLocks i fast stopSent =>
    have hact := hs
    obtain ⟨-, rfl⟩ := of_onlyIf hs
    unfold terminationProc at hact ⊢
    split
    · next hstate =>
      -- the process has exited before the thread got the mutex
      rw [if_pos hstate] at hact
      exact h.setThread hact rfl (.inr (.inl rfl)) h.kills
    · next hstate =>
      have hterminating : s.mState = .Terminating ∧ s.mPid ≠ 0 := by simpa using hstate
      have hlive : s.Signalable := ⟨hterminating.2, by rw [hterminating.1]; nofun⟩
      rw [if_neg hstate] at hact
      split
      · next hfast =>
        rw [if_pos hfast] at hact
        exact h.setThread hact rfl (.inr (.inl rfl)) (h.kills.killGroup hlive _)
      · next hfast =>
        rw [if_neg hfast] at hact
        split
        · next hsent =>
          rw [if_pos hsent] at hact
          exact h.setThread hact rfl (.inr (.inr ⟨rfl, hlive⟩)) h.kills
        · next hsent =>
          rw [if_neg hsent] at hact
          exact h.setThread hact rfl (.inr (.inr ⟨rfl, hlive⟩)) (h.kills.killGroup hlive _)
  | threadWakes i pc =>
    have hact := hs
    obtain ⟨-, rfl⟩ := of_onlyIf hs
    split
    · next hstate =>
      rw [if_pos hstate] at hact
      exact h.setThread hact rfl (.inr (.inl rfl)) h.kills
    · exact h
  | stopTimesOut i exits | termTimesOut i exits =>
    have hact := hs
    obtain ⟨hpc, rfl⟩ := of_onlyIf hs
    exact h.setThread hact rfl (.inl ⟨_, List.mem_of_getElem? hpc, rfl⟩) h.kills
  | killTimesOut i =>
    have hact := hs
    obtain ⟨-, rfl⟩ := of_onlyIf hs
    exact h.setThread hact rfl (.inr (.inl rfl)) h.kills
  | stopResumes i exits =>
    have hact := hs
    obtain ⟨hpc, rfl⟩ := of_onlyIf hs
    -- no exit was recorded since the wait began, so what the thread saw then is still there
    have hlive := (h.since _ (List.mem_of_getElem? hpc) exits rfl).2 hcond
    refine h.setThread hact rfl (.inr (.inr ⟨?_, hlive⟩)) (h.kills.killGroup hlive _)
    rw [if_neg hlive.2]
    rfl
  | termResumes i exits =>
    have hact := hs
    obtain ⟨hpc, rfl⟩ := of_onlyIf hs
    -- the same for SIGKILL; the wait after it ends in no signal
    have hlive := (h.since _ (List.mem_of_getElem? hpc) exits rfl).2 hcond
    refine h.setThread hact rfl (.inr (.inl ?_)) (h.kills.killGroup hlive _)
    rw [if_neg hlive.2]
    rfl
  | killResumes i =>
    have hact := hs
    obtain ⟨-, rfl⟩ := of_onlyIf hs
    exact h.setThread hact rfl (.inr (.inl rfl)) h.kills
  | _ =>
    have hact := hs
    obtain ⟨-, rfl⟩ := of_onlyIf hs
    exact h.frame hact rfl rfl

/-! ## Every run -/

theorem waitsOk_of_reachable (h : system.ReachableWhen NoExitInTimeout s) : s.WaitsOk :=
  h.invariant (fun s₀ (h₀ : s₀ = {}) => h₀ ▸ ⟨nofun, nofun⟩)
    fun _ _ _ hi hcond hs => hi.step hcond hs

/-- **Signals.**  In every run in which no exit is recorded during a wait that
    times out, the termination thread signals live processes only. -/
theorem killsSafe_of_noExitInTimeout (h : system.ReachableWhen NoExitInTimeout s) :
    s.KillsSafe :=
  (waitsOk_of_reachable h).kills

/-- A process is asked to stop, does not, and gets a SIGTERM. -/
theorem killsSafe_getsSigterm : ∃ s, system.ReachableWhen NoExitInTimeout s ∧
    s.kills = [⟨7, true, SIGTERM, .Terminating, true⟩] ∧ s.KillsSafe := by
  have h : ∃ s, system.ReachableWhen NoExitInTimeout s ∧
      s.kills = [⟨7, true, SIGTERM, .Terminating, true⟩] := by
    have h₀ : system.ReachableWhen NoExitInTimeout {} := .init rfl
    have h₁ := h₀.next (e := Event.spawn 64 (.forks 7)) trivial rfl
    have h₂ := h₁.next (e := Event.terminate 0 false) trivial rfl
    have h₃ := h₂.next (e := Event.startsThread 0 false) trivial rfl
    have h₄ := h₃.next (e := Event.threadLocks 0 false true) trivial rfl
    have h₅ := h₄.next (e := Event.stopTimesOut 0 0) trivial rfl
    exact ⟨_, h₅.next (e := Event.stopResumes 0 0) rfl rfl, rfl⟩
  obtain ⟨s, hreach, hkills⟩ := h
  exact ⟨s, hreach, hkills, killsSafe_of_noExitInTimeout hreach⟩

/-- The exit is recorded after the wait has timed out. -/
def exitsInTimeout : List Event :=
  [.spawn 64 (.forks 7), .terminate 0 false, .startsThread 0 false, .threadLocks 0 false true,
    .stopTimesOut 0 0, .terminated ⟨.Exit, 0⟩, .stopResumes 0 0]

/-- The SIGTERM then goes to the thread's own process group. -/
theorem not_forall_killsSafe : ¬ ∀ s, system.Reachable s → s.KillsSafe := by
  intro hall
  obtain ⟨s, hreach, hs⟩ := System.exists_reachable_of_run (M := system)
    (fun s => decide (s.kills = [⟨0, true, SIGTERM, .Terminated, true⟩]))
    exitsInTimeout rfl (by decide)
  have hkills := of_decide_eq_true hs
  exact absurd rfl (hall s hreach ⟨0, true, SIGTERM, .Terminated, true⟩ (by simp [hkills]) rfl).1

end ActiveProcess

end Arras4Core.Execute
