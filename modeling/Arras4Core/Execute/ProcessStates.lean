/-
  Arras4Core.Execute.ProcessStates

  The state machine of a process.  As long as resets do not overlap, a process
  has a pid exactly while it is spawned or terminating, the state moves along
  six edges only, and the exit status changes only on the way into `Terminated`.
-/

import Mathlib.Tactic.ByContra
import Arras4Core.Execute.Process

namespace Arras4Core.Execute

open Arras4Core.Lib

/-- The edges of the state machine, with the event that may take them. -/
inductive Edge : ActiveProcess.Event → ProcessState → ProcessState → Prop
  | spawned (assignedMb : UInt32) (pid : Nat) :
      Edge (.spawn assignedMb (.forks pid)) .NotSpawned .Spawned
  | notSpawned_terminated (e : ActiveProcess.Event) : Edge e .NotSpawned .Terminated
  | terminating (caller : Nat) (fast : Bool) :
      Edge (.terminate caller fast) .Spawned .Terminating
  | spawned_terminated (e : ActiveProcess.Event) : Edge e .Spawned .Terminated
  | terminating_terminated (e : ActiveProcess.Event) : Edge e .Terminating .Terminated
  | reset (caller : Nat) : Edge (.resetsState caller) .Terminated .NotSpawned

namespace Process

/-- There is an OS process. -/
def isLive (p : Process) : Prop := p.mState = .Spawned ∨ p.mState = .Terminating

theorem not_isLive_of_terminated {p : Process} (hp : p.mState = .Terminated) : ¬ p.isLive := by
  rintro (hlive | hlive) <;> exact absurd (hp.symm.trans hlive) nofun

theorem not_isLive_of_notSpawned {p : Process} (hp : p.mState = .NotSpawned) : ¬ p.isLive := by
  rintro (hlive | hlive) <;> exact absurd (hp.symm.trans hlive) nofun

theorem terminated_mState (p : Process) (status : ExitStatus) :
    (p.terminated status).mState = .Terminated := by
  unfold terminated
  split
  · rfl
  · next h => simpa using h

theorem terminated_of_terminated {p : Process} (h : p.mState = .Terminated) (status : ExitStatus) :
    p.terminated status = p := if_neg (Decidable.not_not.mpr h)

theorem terminated_mPid_of_ne {p : Process} (h : p.mState ≠ .Terminated) (status : ExitStatus) :
    (p.terminated status).mPid = 0 := by
  unfold terminated
  rw [if_pos h]

end Process

namespace ActiveProcess

variable {s s' : ActiveProcess}

/-- No two calls of `reset` are in progress at a time. -/
def OneReset (s : ActiveProcess) (e : Event) : Prop :=
  ∀ caller, e = .reset caller → s.joining = [] ∧ s.resetting = []

/-- `mPid` is valid exactly in the two live states. -/
def PidValid (s : ActiveProcess) : Prop := s.mPid ≠ 0 ↔ s.isLive

/-- What holds whenever the state mutex is free. -/
structure Consistent (s : ActiveProcess) : Prop where
  pid : s.PidValid
  resets : s.joining.length + s.resetting.length ≤ 1
  terminated : s.joining ≠ [] ∨ s.resetting ≠ [] → s.mState = .Terminated

/-! ## One step -/

theorem pidValid_terminated (h : s.PidValid) (status : ExitStatus) :
    (s.update (s.toProcess.terminated status)).PidValid := by
  have hstate := s.toProcess.terminated_mState status
  have hpid : (s.toProcess.terminated status).mPid = 0 := by
    by_cases hterm : s.mState = .Terminated
    · rw [Process.terminated_of_terminated hterm]
      by_contra hne
      exact Process.not_isLive_of_terminated hterm (h.mp hne)
    · exact Process.terminated_mPid_of_ne hterm status
  unfold PidValid Process.isLive
  simp only [update, hstate, hpid]
  decide

theorem Consistent.terminated_update (h : s.Consistent) (status : ExitStatus) :
    (s.update (s.toProcess.terminated status)).Consistent where
  pid := pidValid_terminated h.pid status
  resets := h.resets
  terminated _ := s.toProcess.terminated_mState status

/-- Steps of the termination threads that only send signals or move on. -/
theorem Consistent.frame (h : s.Consistent) (hprocess : s'.toProcess = s.toProcess)
    (hjoining : s'.joining = s.joining) (hresetting : s'.resetting = s.resetting) :
    s'.Consistent where
  pid := by unfold PidValid; rw [hprocess]; exact h.pid
  resets := by rw [hjoining, hresetting]; exact h.resets
  terminated := by rw [hjoining, hresetting, hprocess]; exact h.terminated

/-- The steps that write what the state mutex protects. -/
def Event.writes : Event → Bool
  | .spawn .. | .terminate .. | .resetsState _ | .terminated _ | .killResumes _ => true
  | _ => false

theorem terminationProc_frame (s : ActiveProcess) (i : Nat) (fast stopSent : Bool) :
    (s.terminationProc i fast stopSent).toProcess = s.toProcess ∧
    (s.terminationProc i fast stopSent).joining = s.joining ∧
    (s.terminationProc i fast stopSent).resetting = s.resetting := by
  unfold terminationProc
  split
  · exact ⟨rfl, rfl, rfl⟩
  · split
    · exact ⟨rfl, rfl, rfl⟩
    · split <;> exact ⟨rfl, rfl, rfl⟩

theorem toProcess_of_not_writes {e : Event} (hwrites : e.writes = false)
    (hs : s.act e = some s') : s'.toProcess = s.toProcess := by
  cases e with
  | spawn | terminate | resetsState | terminated | killResumes => cases hwrites
  | startsThread caller fast =>
    obtain ⟨-, rfl⟩ := of_onlyIf hs
    unfold startThread
    split <;> rfl
  | signal signum sendToGroup =>
    cases hs
    unfold signal
    split <;> rfl
  | reset caller =>
    cases hs
    unfold ActiveProcess.reset
    split <;> rfl
  | threadLocks i fast stopSent =>
    obtain ⟨-, rfl⟩ := of_onlyIf hs
    exact (terminationProc_frame s i fast stopSent).1
  | threadWakes i pc =>
    obtain ⟨-, rfl⟩ := of_onlyIf hs
    split <;> rfl
  | _ =>
    obtain ⟨-, rfl⟩ := of_onlyIf hs
    rfl

theorem Consistent.spawn (h : s.Consistent) (assignedMb : UInt32) {outcome : SpawnOutcome}
    (hpid : outcome ≠ .forks 0) : (s.spawn assignedMb outcome).Consistent := by
  unfold ActiveProcess.spawn
  split
  · exact h
  · next hstate =>
    have hstate : s.mState = .NotSpawned := Decidable.not_not.mp hstate
    -- a reset in progress would have found the process terminated
    have hnone : ¬ (s.joining ≠ [] ∨ s.resetting ≠ []) := fun hreset =>
      absurd (hstate.symm.trans (h.terminated hreset)) nofun
    cases outcome with
    | pipeFails | forkFails =>
      exact
        { pid := by
            simp [PidValid, Process.isLive, update, Process.terminated_internal,
              Process.terminated, hstate]
          resets := h.resets
          terminated := fun hreset => absurd hreset hnone }
    | forks pid =>
      have hne : pid ≠ 0 := fun hzero => hpid (hzero ▸ rfl)
      exact
        { pid := by simp [PidValid, Process.isLive, update, hne]
          resets := h.resets
          terminated := fun hreset => absurd hreset hnone }

theorem Consistent.terminate (h : s.Consistent) (caller : Nat) (fast : Bool) :
    (s.terminate caller fast).Consistent := by
  unfold ActiveProcess.terminate
  split
  · exact h.terminated_update _
  · exact h
  · exact h
  · next hstate =>
    exact
      { pid := iff_of_true (h.pid.mpr (.inl hstate)) (.inr rfl)
        resets := h.resets
        terminated := fun hreset => absurd (hstate.symm.trans (h.terminated hreset)) nofun }

theorem Consistent.step (h : s.Consistent) {e : Event} (hone : s.OneReset e)
    (hs : s.step e = some s') : s'.Consistent := by
  replace hs := act_of_step hs
  cases e with
  | spawn assignedMb outcome =>
    obtain ⟨hpid, rfl⟩ := of_onlyIf hs
    exact h.spawn assignedMb hpid
  | terminate caller fast =>
    cases hs
    exact h.terminate caller fast
  | startsThread caller fast =>
    obtain ⟨-, rfl⟩ := of_onlyIf hs
    unfold startThread
    split <;> exact h.frame rfl rfl rfl
  | signal signum sendToGroup =>
    cases hs
    unfold signal
    split <;> exact h.frame rfl rfl rfl
  | reset caller =>
    cases hs
    obtain ⟨hjoining, hresetting⟩ := hone caller rfl
    unfold ActiveProcess.reset
    split
    · exact h
    · next hstate =>
      exact
        { pid := h.pid
          resets := by simp [hjoining, hresetting]
          terminated := fun _ => Decidable.not_not.mp hstate }
  | joinsThread caller =>
    obtain ⟨⟨hmem, -⟩, rfl⟩ := of_onlyIf hs
    have hresets := h.resets
    have hlength := List.length_erase_of_mem hmem
    have hpos := List.length_pos_of_mem hmem
    exact
      { pid := h.pid
        resets := by
          simp only [joinThread, List.length_append, List.length_singleton]
          omega
        terminated := fun _ => h.terminated (.inl (List.ne_nil_of_mem hmem)) }
  | resetsState caller =>
    obtain ⟨hmem, rfl⟩ := of_onlyIf hs
    have hresets := h.resets
    have hlength := List.length_erase_of_mem hmem
    have hpos := List.length_pos_of_mem hmem
    have hstate := h.terminated (.inr (List.ne_nil_of_mem hmem))
    have hpid : s.mPid = 0 := by
      by_contra hne
      exact Process.not_isLive_of_terminated hstate (h.pid.mp hne)
    -- it was the only reset in progress
    have hnone : s.joining = [] ∧ s.resetting.erase caller = [] := by
      constructor <;> apply List.eq_nil_of_length_eq_zero <;> omega
    exact
      { pid := by simp [PidValid, Process.isLive, resetState, hpid]
        resets := by simp [resetState, hnone]
        terminated := by simp [resetState, hnone] }
  | terminated status =>
    cases hs
    exact h.terminated_update status
  | threadLocks i fast stopSent =>
    obtain ⟨-, rfl⟩ := of_onlyIf hs
    obtain ⟨hprocess, hjoining, hresetting⟩ := terminationProc_frame s i fast stopSent
    exact h.frame hprocess hjoining hresetting
  | threadWakes i pc =>
    obtain ⟨-, rfl⟩ := of_onlyIf hs
    split
    · exact h.frame rfl rfl rfl
    · exact h
  | killResumes i =>
    obtain ⟨-, rfl⟩ := of_onlyIf hs
    exact (h.terminated_update _).frame rfl rfl rfl
  | _ =>
    obtain ⟨-, rfl⟩ := of_onlyIf hs
    exact h.frame rfl rfl rfl

/-! ## The edges -/

/-- The state stays, or moves along an edge; the status stays, or changes on the
    way into `Terminated`. -/
structure Moves (e : Event) (s s' : ActiveProcess) : Prop where
  state : s'.mState = s.mState ∨ Edge e s.mState s'.mState
  status : s'.mStatus ≠ s.mStatus → s.mState ≠ .Terminated ∧ s'.mState = .Terminated

theorem Moves.of_eq {e : Event} (hprocess : s'.toProcess = s.toProcess) : Moves e s s' where
  state := .inl (congrArg Process.mState hprocess)
  status hne := absurd (congrArg Process.mStatus hprocess) hne

/-- Every state but `Terminated` has an edge into it. -/
theorem moves_terminated (e : Event) (s : ActiveProcess) (p : Process)
    (hstate : p.mState = s.mState) (hstatus : p.mStatus = s.mStatus) (status : ExitStatus)
    (hs : s'.toProcess = p.terminated status) : Moves e s s' := by
  have hterm := (congrArg Process.mState hs).trans (p.terminated_mState status)
  by_cases h : s.mState = .Terminated
  · -- the first status stays
    rw [Process.terminated_of_terminated (hstate.trans h)] at hs
    exact
      { state := .inl ((congrArg Process.mState hs).trans hstate)
        status := fun hne => absurd ((congrArg Process.mStatus hs).trans hstatus) hne }
  · refine { state := .inr ?_, status := fun _ => ⟨h, hterm⟩ }
    rw [hterm]
    cases hfrom : s.mState with
    | NotSpawned => exact .notSpawned_terminated e
    | Spawned => exact .spawned_terminated e
    | Terminating => exact .terminating_terminated e
    | Terminated => exact absurd hfrom h

theorem moves_step (h : s.Consistent) {e : Event} (hs : s.step e = some s') : Moves e s s' := by
  replace hs := act_of_step hs
  cases e with
  | spawn assignedMb outcome =>
    obtain ⟨-, rfl⟩ := of_onlyIf hs
    unfold ActiveProcess.spawn
    split
    · exact .of_eq rfl
    · next hstate =>
      have hstate : s.mState = .NotSpawned := Decidable.not_not.mp hstate
      cases outcome with
      | pipeFails | forkFails =>
        exact moves_terminated _ s { s.toProcess with mAssignedMb := assignedMb } rfl rfl _ rfl
      | forks pid =>
        refine { state := .inr ?_, status := fun hne => absurd rfl hne }
        rw [hstate]
        exact .spawned assignedMb pid
  | terminate caller fast =>
    cases hs
    unfold ActiveProcess.terminate
    split
    · exact moves_terminated _ s _ rfl rfl _ rfl
    · exact .of_eq rfl
    · exact .of_eq rfl
    · next hstate =>
      refine { state := .inr ?_, status := fun hne => absurd rfl hne }
      rw [hstate]
      exact .terminating caller fast
  | resetsState caller =>
    obtain ⟨hmem, rfl⟩ := of_onlyIf hs
    refine { state := .inr ?_, status := fun hne => absurd rfl hne }
    rw [h.terminated (.inr (List.ne_nil_of_mem hmem))]
    exact .reset caller
  | terminated status =>
    cases hs
    exact moves_terminated _ s _ rfl rfl status rfl
  | killResumes i =>
    obtain ⟨-, rfl⟩ := of_onlyIf hs
    exact moves_terminated _ s _ rfl rfl _ rfl
  | _ => exact .of_eq (toProcess_of_not_writes rfl hs)

/-! ## Every run -/

theorem consistent_of_reachable (h : system.ReachableWhen OneReset s) : s.Consistent :=
  h.invariant
    (fun s₀ (h₀ : s₀ = {}) => h₀ ▸
      { pid := by simp [PidValid, Process.isLive]
        resets := by decide
        terminated := by decide })
    fun _ _ _ hi hone hs => hi.step hone hs

/-- **The state machine.**  In every state that runs without overlapping resets
    reach, the pid is valid exactly while there is an OS process, and whatever
    such a run does next moves along an edge. -/
theorem stateMachine (h : system.ReachableWhen OneReset s) :
    (s.mPid ≠ 0 ↔ s.mState = .Spawned ∨ s.mState = .Terminating) ∧
    ∀ e s', s.OneReset e → s.step e = some s' →
      (s'.mState = s.mState ∨ Edge e s.mState s'.mState) ∧
      (s'.mStatus ≠ s.mStatus → s.mState ≠ .Terminated ∧ s'.mState = .Terminated) := by
  have hc := consistent_of_reachable h
  exact ⟨hc.pid, fun e s' _ hs => ⟨(moves_step hc hs).state, (moves_step hc hs).status⟩⟩

theorem stateMachine_spawned :
    ∃ s, system.ReachableWhen OneReset s ∧ s.mState = .Spawned ∧ s.mPid ≠ 0 := by
  have hinit : system.ReachableWhen OneReset {} := .init rfl
  have hspawned : system.ReachableWhen OneReset (ActiveProcess.spawn {} 64 (.forks 7)) :=
    hinit.next (e := .spawn 64 (.forks 7)) nofun rfl
  exact ⟨_, hspawned, rfl, (stateMachine hspawned).1.mpr (.inl rfl)⟩

end ActiveProcess

end Arras4Core.Execute
