/-
  Arras4Core.Execute.Lifetimes

  `terminate`, `reset` and `spawn` against one another.  `terminate` assigns
  `mTerminationThread` after it has released the mutex, and `reset` releases the
  mutex between its check, the join and the change of the state.  None of this
  does harm as long as a process is spawned again only after every earlier call
  of the two has come to its end and the thread has been joined.
-/

import Mathlib.Logic.Function.Basic
import Arras4Core.Execute.ProcessStates

namespace Arras4Core.Execute

open Arras4Core.Lib

/-- The thread has had the mutex and has not returned. -/
def TerminationPc.hasBegun : TerminationPc → Prop
  | start _ | returned => False
  | _ => True

/-- What happened in which lifetime of a process.  A reset ends a lifetime. -/
structure Lifetimes where
  lifetime : Nat := 0
  /-- the lifetime that a caller's last `terminate` put an end to -/
  calledIn : Nat → Nat := fun _ => 0
  /-- the lifetime each termination thread was started for -/
  threadOf : List Nat := []
  /-- what the termination threads did: the lifetime of the thread, and the one
      it acted on -/
  actions : List (Option Nat × Nat) := []
  /-- the states that `reset` has moved the process out of -/
  resetFrom : List ProcessState := []

namespace Lifetimes

/-- Thread `i` signals the process, asks it to stop, or marks it as terminated. -/
def acts (h : Lifetimes) (i : Nat) : Lifetimes :=
  { h with actions := h.actions ++ [(h.threadOf[i]?, h.lifetime)] }

def record (s : ActiveProcess) (e : ActiveProcess.Event) (h : Lifetimes) : Lifetimes :=
  match e with
  | .terminate caller _ =>
    if s.mState = .Spawned then { h with calledIn := Function.update h.calledIn caller h.lifetime }
    else h
  | .startsThread caller _ => { h with threadOf := h.threadOf ++ [h.calledIn caller] }
  | .resetsState _ =>
    if s.mState = .NotSpawned then h
    else { h with lifetime := h.lifetime + 1, resetFrom := h.resetFrom ++ [s.mState] }
  | .threadLocks i _ _ => if s.mState ≠ .Terminating ∨ s.mPid = 0 then h else h.acts i
  | .stopResumes i _ | .termResumes i _ | .killResumes i => h.acts i
  | _ => h

end Lifetimes

namespace ActiveProcess

variable {s s' : ActiveProcess} {h h' : Lifetimes}

/-- A process and its lifetimes. -/
def lifetimes : System (ActiveProcess × Lifetimes) Event := system.recording {} Lifetimes.record

/-- `mTerminationThread` was not assigned while it was joinable, every termination
    thread acted on its own lifetime only, and `reset` moved the process out of
    `Terminated` only. -/
structure RaceSafe (s : ActiveProcess) (h : Lifetimes) : Prop where
  assigns : s.aborted = false
  acts : ∀ a ∈ h.actions, a.1 = some a.2
  resets : ∀ state ∈ h.resetFrom, state = .Terminated

/-- A process is spawned only when no call of `terminate` has yet to assign
    `mTerminationThread`, the thread is not joinable, and no call of `reset` is
    in progress. -/
def SpawnsClean (s : ActiveProcess) (e : Event) : Prop :=
  ∀ assignedMb pid, e = .spawn assignedMb (.forks pid) → s.mState = .NotSpawned →
    s.starting = [] ∧ s.mTerminationThread = none ∧ s.joining = [] ∧ s.resetting = []

/-! ## The invariant -/

/-- At most one call of `terminate` or one termination thread is under way, and
    while there is an OS process it is one of the current lifetime. -/
structure OneThread (s : ActiveProcess) (h : Lifetimes) : Prop where
  safe : RaceSafe s h
  length : h.threadOf.length = s.threads.length
  -- the threads
  handle : ∀ (i : Nat) (pc : TerminationPc), s.threads[i]? = some pc → pc ≠ .returned →
    s.mTerminationThread = some i
  lifetime : ∀ (i : Nat) (pc : TerminationPc), s.threads[i]? = some pc → pc ≠ .returned →
    pc.hasBegun ∨ s.isLive → h.threadOf[i]? = some h.lifetime
  -- the calls of `terminate`
  starting : s.starting ≠ [] → s.starting.length = 1 ∧ s.mTerminationThread = none
  calledIn : s.isLive → ∀ c ∈ s.starting, h.calledIn c.1 = h.lifetime
  spawned : s.mState = .Spawned → s.starting = [] ∧ s.mTerminationThread = none
  -- the calls of `reset`
  resets : s.joining ≠ [] ∨ s.resetting ≠ [] → ¬ s.isLive
  joined : s.resetting ≠ [] → ∀ (i : Nat) (pc : TerminationPc), s.threads[i]? = some pc →
    ¬ pc.hasBegun

/-! ## One step -/

/-- Where no thread is joinable, all have returned. -/
theorem OneThread.returned (hi : OneThread s h) (hhandle : s.mTerminationThread = none) (i : Nat)
    (pc : TerminationPc) (hpc : s.threads[i]? = some pc) : pc = .returned := by
  by_contra hne
  cases hhandle.symm.trans (hi.handle i pc hpc hne)

/-- Only the state changes, and there is no OS process that was not there before. -/
theorem OneThread.frame (hi : OneThread s h) (haborted : s'.aborted = s.aborted)
    (hthreads : s'.threads = s.threads) (hhandle : s'.mTerminationThread = s.mTerminationThread)
    (hstarting : s'.starting = s.starting) (hjoining : s'.joining = s.joining)
    (hresetting : s'.resetting = s.resetting) (hlive : s'.isLive → s.isLive)
    (hspawned : s'.mState = .Spawned → s.mState = .Spawned) : OneThread s' h where
  safe := { hi.safe with assigns := haborted.trans hi.safe.assigns }
  length := by rw [hthreads]; exact hi.length
  handle := by rw [hthreads, hhandle]; exact hi.handle
  lifetime i pc hpc hne hcur := hi.lifetime i pc (hthreads ▸ hpc) hne (hcur.imp_right hlive)
  starting := by rw [hstarting, hhandle]; exact hi.starting
  calledIn hl := by rw [hstarting]; exact hi.calledIn (hlive hl)
  spawned hs := by rw [hstarting, hhandle]; exact hi.spawned (hspawned hs)
  resets hr hl := by
    rw [hjoining, hresetting] at hr
    exact hi.resets hr (hlive hl)
  joined := by rw [hresetting, hthreads]; exact hi.joined

/-- Thread `i` moves on, to a place that it may be in. -/
theorem OneThread.setThread (hi : OneThread s h) {i : Nat} {old pc : TerminationPc}
    (hold : s.threads[i]? = some old) (hne : old ≠ .returned)
    (hlifetime : pc.hasBegun ∨ s.isLive → h.threadOf[i]? = some h.lifetime)
    (hjoined : pc.hasBegun → s.resetting = []) : OneThread (s.setThread i pc) h where
  safe := { hi.safe with assigns := hi.safe.assigns }
  length := by rw [hi.length]; exact (List.length_set ..).symm
  handle j pc' hpc hne' := by
    by_cases hj : i = j
    · exact hj ▸ hi.handle i old hold hne
    · exact hi.handle j pc' (by rwa [ActiveProcess.setThread, List.getElem?_set_ne hj] at hpc) hne'
  lifetime j pc' hpc hne' hcur := by
    by_cases hj : i = j
    · subst hj
      have hlt := (List.getElem?_eq_some_iff.mp hold).1
      rw [ActiveProcess.setThread, List.getElem?_set_self hlt] at hpc
      exact hlifetime (Option.some.inj hpc ▸ hcur)
    · exact hi.lifetime j pc' (by rwa [ActiveProcess.setThread, List.getElem?_set_ne hj] at hpc)
        hne' hcur
  starting := hi.starting
  calledIn := hi.calledIn
  spawned := hi.spawned
  resets := hi.resets
  joined hr j pc' hpc := by
    by_cases hj : i = j
    · subst hj
      have hlt := (List.getElem?_eq_some_iff.mp hold).1
      rw [ActiveProcess.setThread, List.getElem?_set_self hlt] at hpc
      exact fun hbegun => hr (hjoined (Option.some.inj hpc ▸ hbegun))
    · exact hi.joined hr j pc' (by rwa [ActiveProcess.setThread, List.getElem?_set_ne hj] at hpc)

/-- A thread that is where it was, or further, is still of the current lifetime. -/
theorem OneThread.setThread_begun (hi : OneThread s h) {i : Nat} {old pc : TerminationPc}
    (hold : s.threads[i]? = some old) (hbegun : old.hasBegun) :
    OneThread (s.setThread i pc) h := by
  have hne : old ≠ .returned := by rintro rfl; exact hbegun
  refine hi.setThread hold hne (fun _ => hi.lifetime i old hold hne (.inl hbegun)) fun _ => ?_
  by_contra hr
  exact hi.joined hr i old hold hbegun

theorem OneThread.acts (hi : OneThread s h) {i : Nat}
    (hlifetime : h.threadOf[i]? = some h.lifetime) : OneThread s (h.acts i) :=
  { hi with
    safe :=
      { hi.safe with
        acts := by
          intro a hmem
          rcases List.mem_append.mp hmem with hmem | hmem
          · exact hi.safe.acts a hmem
          · rw [List.mem_singleton.mp hmem]
            exact hlifetime } }

/-- `kill` leaves everything but the record of the signals alone. -/
theorem OneThread.killGroup (hi : OneThread s h) (signum : Nat) :
    OneThread (s.killGroup signum) h :=
  hi.frame rfl rfl rfl rfl rfl rfl id id

theorem OneThread.terminated_update (hi : OneThread s h) (status : ExitStatus) :
    OneThread (s.update (s.toProcess.terminated status)) h := by
  have hterm := s.toProcess.terminated_mState status
  exact hi.frame rfl rfl rfl rfl rfl rfl
    (fun hlive => absurd hlive (Process.not_isLive_of_terminated hterm))
    (fun hspawned => absurd (hterm.symm.trans hspawned) nofun)

theorem OneThread.spawn (hi : OneThread s h) (assignedMb : UInt32) (outcome : SpawnOutcome)
    (hclean : s.SpawnsClean (.spawn assignedMb outcome)) :
    OneThread (s.spawn assignedMb outcome) h := by
  unfold ActiveProcess.spawn
  split
  · exact hi
  · next hstate =>
    have hstate : s.mState = .NotSpawned := Decidable.not_not.mp hstate
    cases outcome with
    | pipeFails | forkFails =>
      have hterm := Process.terminated_mState { s.toProcess with mAssignedMb := assignedMb }
        ⟨.Internal, ExitStatus.FORK_FAILED⟩
      exact hi.frame rfl rfl rfl rfl rfl rfl
        (fun hlive => absurd hlive (Process.not_isLive_of_terminated hterm))
        (fun hspawned => absurd (hterm.symm.trans hspawned) nofun)
    | forks pid =>
      -- nothing is left of the lifetimes before
      obtain ⟨hstarting, hhandle, hjoining, hresetting⟩ := hclean assignedMb pid rfl hstate
      exact
        { hi with
          safe := { hi.safe with assigns := hi.safe.assigns }
          lifetime := fun i pc hpc hne => absurd (hi.returned hhandle i pc hpc) hne
          calledIn := fun _ c hc => absurd (hstarting ▸ hc) List.not_mem_nil
          spawned := fun _ => ⟨hstarting, hhandle⟩
          resets := fun hr => hr.elim (absurd hjoining) (absurd hresetting) }

theorem OneThread.terminate (hi : OneThread s h) (caller : Nat) (fast : Bool) :
    OneThread (s.terminate caller fast) (.record s (.terminate caller fast) h) := by
  unfold ActiveProcess.terminate Lifetimes.record
  split
  · next hstate =>
    simp only [hstate, reduceCtorEq, if_false]
    exact hi.terminated_update _
  · next hstate => simpa only [hstate, reduceCtorEq, if_false] using hi
  · next hstate => simpa only [hstate, reduceCtorEq, if_false] using hi
  · next hstate =>
    -- this call is the only one, and its thread is for the current lifetime
    obtain ⟨hstarting, hhandle⟩ := hi.spawned hstate
    have hlive : s.isLive := .inl hstate
    simp only [hstate, if_true, hstarting, List.nil_append]
    exact
      { safe := { hi.safe with assigns := hi.safe.assigns }
        length := hi.length
        handle := hi.handle
        lifetime := fun i pc hpc hne _ => hi.lifetime i pc hpc hne (.inr hlive)
        starting := fun _ => ⟨rfl, hhandle⟩
        calledIn := fun _ c hc => by
          rw [List.mem_singleton.mp hc]
          exact Function.update_self ..
        spawned := nofun
        resets := fun hr => absurd hlive (hi.resets hr)
        joined := hi.joined }

theorem OneThread.startThread (hi : OneThread s h) {caller : Nat} {fast : Bool}
    (hmem : (caller, fast) ∈ s.starting) :
    OneThread (s.startThread caller fast) (.record s (.startsThread caller fast) h) := by
  obtain ⟨hone, hhandle⟩ := hi.starting (List.ne_nil_of_mem hmem)
  obtain ⟨c, hc⟩ := List.length_eq_one_iff.mp hone
  have hcaller : c = (caller, fast) := (List.mem_singleton.mp (hc ▸ hmem)).symm
  -- the only thread that has not returned is the new one
  have hnew : ∀ (i : Nat) (pc : TerminationPc), (s.threads ++ [.start fast])[i]? = some pc →
      pc ≠ .returned → i = s.threads.length ∧ pc = .start fast := by
    intro i pc hpc hne
    rcases Nat.lt_trichotomy i s.threads.length with hlt | heq | hgt
    · rw [List.getElem?_append_left hlt] at hpc
      exact absurd (hi.returned hhandle i pc hpc) hne
    · subst heq
      rw [List.getElem?_concat_length] at hpc
      exact ⟨rfl, (Option.some.inj hpc).symm⟩
    · rw [List.getElem?_eq_none (by simp; omega)] at hpc
      cases hpc
  unfold ActiveProcess.startThread
  rw [if_neg (by simp [hhandle]), hc, hcaller, List.erase_cons_head]
  exact
    { safe := { hi.safe with assigns := hi.safe.assigns }
      length := by simp [Lifetimes.record, hi.length]
      handle := fun i pc hpc hne => by rw [(hnew i pc hpc hne).1]
      lifetime := fun i pc hpc hne hcur => by
        obtain ⟨rfl, rfl⟩ := hnew i pc hpc hne
        have hlive : s.isLive := hcur.resolve_left id
        simp only [Lifetimes.record]
        rw [← hi.length, List.getElem?_concat_length]
        exact congrArg some (hi.calledIn hlive _ hmem)
      starting := fun hne => absurd rfl hne
      calledIn := fun _ c hc => absurd hc List.not_mem_nil
      spawned := fun hspawned =>
        absurd ((hi.spawned hspawned).1 ▸ hmem) List.not_mem_nil
      resets := hi.resets
      joined := fun hr i pc hpc hbegun => by
        obtain ⟨-, rfl⟩ := hnew i pc hpc (by rintro rfl; exact hbegun)
        exact hbegun }

theorem OneThread.terminationProc (hi : OneThread s h) {i : Nat} {fast : Bool}
    (hpc : s.threads[i]? = some (.start fast)) (stopSent : Bool) :
    OneThread (s.terminationProc i fast stopSent) (.record s (.threadLocks i fast stopSent) h) := by
  have hne : TerminationPc.start fast ≠ .returned := nofun
  unfold ActiveProcess.terminationProc Lifetimes.record
  split
  · -- the process has exited before the thread had the mutex
    exact hi.setThread hpc hne (fun hcur => hi.lifetime i _ hpc hne (hcur.imp_left False.elim))
      nofun
  · next hstate =>
    have hterminating : s.mState = .Terminating := by
      simpa using fun hne => hstate (.inl hne)
    have hlive : s.isLive := .inr hterminating
    have hlifetime := hi.lifetime i _ hpc hne (.inr hlive)
    have hresetting : s.resetting = [] := by
      by_contra hr
      exact hi.resets (.inr hr) hlive
    have hacts := hi.acts hlifetime
    split
    · exact (hacts.killGroup _).setThread hpc hne (fun _ => hlifetime) fun _ => hresetting
    · split
      · exact hacts.setThread hpc hne (fun _ => hlifetime) fun _ => hresetting
      · exact (hacts.killGroup _).setThread hpc hne (fun _ => hlifetime) fun _ => hresetting

theorem OneThread.joinThread (hi : OneThread s h) {caller : Nat} (hmem : caller ∈ s.joining)
    (hjoin : s.canJoin = true) : OneThread (s.joinThread caller) h := by
  -- the join waits for the one thread that may not have returned
  have hreturned : ∀ (i : Nat) (pc : TerminationPc), s.threads[i]? = some pc →
      pc = .returned := by
    intro i pc hpc
    by_contra hne
    have hhandle := hi.handle i pc hpc hne
    simp only [canJoin, hhandle, decide_eq_true_eq] at hjoin
    exact hne (Option.some.inj (hpc.symm.trans hjoin))
  have hnotLive := hi.resets (.inl (List.ne_nil_of_mem hmem))
  exact
    { safe := { hi.safe with assigns := hi.safe.assigns }
      length := hi.length
      handle := fun i pc hpc hne => absurd (hreturned i pc hpc) hne
      lifetime := hi.lifetime
      starting := fun hs => ⟨(hi.starting hs).1, rfl⟩
      calledIn := hi.calledIn
      spawned := fun hspawned => absurd (.inl hspawned) hnotLive
      resets := fun _ => hnotLive
      joined := fun _ i pc hpc => by
        rw [hreturned i pc hpc]
        exact id }

theorem OneThread.resetState (hi : OneThread s h) {caller : Nat} (hmem : caller ∈ s.resetting) :
    OneThread (s.resetState caller) (.record s (.resetsState caller) h) := by
  have hr := List.ne_nil_of_mem hmem
  have hnotLive := hi.resets (.inr hr)
  -- `reset` does not look at the state again, but it cannot have become live
  have hmoved : s.mState ≠ .NotSpawned → s.mState = .Terminated := by
    intro hne
    cases hstate : s.mState with
    | NotSpawned => exact absurd hstate hne
    | Spawned => exact absurd (.inl hstate) hnotLive
    | Terminating => exact absurd (.inr hstate) hnotLive
    | Terminated => rfl
  have hnotLive' : ¬ (s.resetState caller).isLive := Process.not_isLive_of_notSpawned rfl
  have hi' : OneThread (s.resetState caller) h :=
    { safe := { hi.safe with assigns := hi.safe.assigns }
      length := hi.length
      handle := hi.handle
      lifetime := fun i pc hpc _ hcur =>
        absurd (hcur.resolve_right hnotLive') (hi.joined hr i pc hpc)
      starting := hi.starting
      calledIn := fun hlive => absurd hlive hnotLive'
      spawned := nofun
      resets := fun _ => hnotLive'
      joined := fun _ => hi.joined hr }
  show OneThread (s.resetState caller) (if s.mState = .NotSpawned then h else _)
  split
  · exact hi'
  · next hne =>
    exact
      { hi' with
        safe :=
          { hi'.safe with
            resets := by
              intro state hstate
              rcases List.mem_append.mp hstate with hstate | hstate
              · exact hi.safe.resets state hstate
              · rw [List.mem_singleton.mp hstate]
                exact hmoved hne }
        -- a thread of the lifetime that ends here has returned or will do nothing
        lifetime := fun i pc hpc _ hcur =>
          absurd (hcur.resolve_right hnotLive') (hi.joined hr i pc hpc)
        calledIn := fun hlive => absurd hlive hnotLive' }

theorem OneThread.step (hi : OneThread s h) {e : Event} (hclean : s.SpawnsClean e)
    (hs : s.step e = some s') : OneThread s' (.record s e h) := by
  replace hs := act_of_step hs
  cases e with
  | spawn assignedMb outcome =>
    obtain ⟨-, rfl⟩ := of_onlyIf hs
    exact hi.spawn assignedMb outcome hclean
  | terminate caller fast =>
    cases hs
    exact hi.terminate caller fast
  | startsThread caller fast =>
    obtain ⟨hmem, rfl⟩ := of_onlyIf hs
    exact hi.startThread hmem
  | signal signum sendToGroup =>
    cases hs
    show OneThread (s.signal signum sendToGroup) h
    unfold signal
    split
    · exact hi
    · exact hi.frame rfl rfl rfl rfl rfl rfl id id
  | reset caller =>
    cases hs
    show OneThread (s.reset caller) h
    unfold ActiveProcess.reset
    split
    · exact hi
    · next hstate =>
      -- the check of the state; until the next spawn it stays not live
      have hnotLive := Process.not_isLive_of_terminated (Decidable.not_not.mp hstate)
      exact
        { hi with
          safe := { hi.safe with assigns := hi.safe.assigns }
          resets := fun _ => hnotLive }
  | joinsThread caller =>
    obtain ⟨⟨hmem, hjoin⟩, rfl⟩ := of_onlyIf hs
    exact hi.joinThread hmem hjoin
  | resetsState caller =>
    obtain ⟨hmem, rfl⟩ := of_onlyIf hs
    exact hi.resetState hmem
  | terminated status =>
    cases hs
    exact hi.terminated_update status
  | threadLocks i fast stopSent =>
    obtain ⟨hpc, rfl⟩ := of_onlyIf hs
    exact hi.terminationProc hpc stopSent
  | threadWakes i pc =>
    -- a wait ends when the process has exited; any other wake-up is spurious
    obtain ⟨⟨hpc, hwaits⟩, rfl⟩ := of_onlyIf hs
    have hbegun : pc.hasBegun := by cases pc <;> first | exact trivial | cases hwaits
    show OneThread (if s.mState = .Terminated then s.setThread i .returned else s) h
    split
    · exact hi.setThread_begun hpc hbegun
    · exact hi
  | stopTimesOut i exits | termTimesOut i exits | killTimesOut i =>
    obtain ⟨hpc, rfl⟩ := of_onlyIf hs
    exact hi.setThread_begun hpc trivial
  | stopResumes i exits | termResumes i exits =>
    obtain ⟨hpc, rfl⟩ := of_onlyIf hs
    have hlifetime := hi.lifetime i _ hpc nofun (.inl trivial)
    exact ((hi.acts hlifetime).killGroup _).setThread_begun hpc trivial
  | killResumes i =>
    obtain ⟨hpc, rfl⟩ := of_onlyIf hs
    have hlifetime := hi.lifetime i _ hpc nofun (.inl trivial)
    exact (((hi.acts hlifetime).terminated_update _).setThread_begun hpc trivial).frame
      rfl rfl rfl rfl rfl rfl id id

/-! ## Every run -/

theorem oneThread_init : OneThread {} {} where
  safe := ⟨rfl, nofun, nofun⟩
  length := rfl
  handle := nofun
  lifetime := nofun
  starting := fun hs => absurd rfl hs
  calledIn := nofun
  spawned := nofun
  resets := fun hr => hr.elim (absurd rfl) (absurd rfl)
  joined := nofun

theorem oneThread_of_reachable {t : ActiveProcess × Lifetimes}
    (ht : lifetimes.ReachableWhen (fun t e => t.1.SpawnsClean e) t) : OneThread t.1 t.2 := by
  apply ht.invariant
  · rintro ⟨s, h⟩ ⟨hs : s = {}, hh : h = {}⟩
    rw [hs, hh]
    exact oneThread_init
  · intro t e t' hi hclean hs
    obtain ⟨hs, hrecord⟩ := System.of_recording_step hs
    rw [hrecord]
    exact hi.step hclean hs

/-- **Terminate against reset.**  In every run in which a process is spawned
    clean, no joinable thread is assigned to, no termination thread acts on a later
    lifetime, and `reset` moves the process out of `Terminated` only. -/
theorem raceSafe_of_spawnsClean {t : ActiveProcess × Lifetimes}
    (ht : lifetimes.ReachableWhen (fun t e => t.1.SpawnsClean e) t) : RaceSafe t.1 t.2 :=
  (oneThread_of_reachable ht).safe

/-- A process goes through a lifetime, is reset and spawned again, and is killed. -/
theorem raceSafe_spawnedAgain : ∃ t, lifetimes.ReachableWhen (fun t e => t.1.SpawnsClean e) t ∧
    t.2.actions = [(some 0, 0), (some 1, 1)] ∧ RaceSafe t.1 t.2 := by
  have h : ∃ t, lifetimes.ReachableWhen (fun t e => t.1.SpawnsClean e) t ∧
      t.2.actions = [(some 0, 0), (some 1, 1)] := by
    have h₀ : lifetimes.ReachableWhen (fun t e => t.1.SpawnsClean e) ({}, {}) := .init ⟨rfl, rfl⟩
    have h₁ := h₀.next (e := Event.spawn 64 (.forks 7)) (fun _ _ _ _ => ⟨rfl, rfl, rfl, rfl⟩) rfl
    have h₂ := h₁.next (e := Event.terminate 0 true) nofun rfl
    have h₃ := h₂.next (e := Event.startsThread 0 true) nofun rfl
    have h₄ := h₃.next (e := Event.threadLocks 0 true false) nofun rfl
    have h₅ := h₄.next (e := Event.terminated ⟨.Signal, 9⟩) nofun rfl
    have h₆ := h₅.next (e := Event.threadWakes 0 .killWait) nofun rfl
    have h₇ := h₆.next (e := Event.reset 0) nofun rfl
    have h₈ := h₇.next (e := Event.joinsThread 0) nofun rfl
    have h₉ := h₈.next (e := Event.resetsState 0) nofun rfl
    have ha := h₉.next (e := Event.spawn 64 (.forks 8)) (fun _ _ _ _ => ⟨rfl, rfl, rfl, rfl⟩) rfl
    have hb := ha.next (e := Event.terminate 0 true) nofun rfl
    have hc := hb.next (e := Event.startsThread 0 true) nofun rfl
    exact ⟨_, hc.next (e := Event.threadLocks 1 true false) nofun rfl, rfl⟩
  obtain ⟨t, hreach, hactions⟩ := h
  exact ⟨t, hreach, hactions, raceSafe_of_spawnsClean hreach⟩

/-- A process that is terminated exits, is reset and spawned again, and terminated
    again, before the first call of `terminate` has started its thread. -/
def terminatedTwice : List Event :=
  [.spawn 64 (.forks 7), .terminate 0 true, .terminated ⟨.Exit, 0⟩, .reset 1, .joinsThread 1,
    .resetsState 1, .spawn 64 (.forks 8), .terminate 1 true, .startsThread 0 true,
    .startsThread 1 true]

/-- The second thread is assigned over the first, which ends the program. -/
theorem not_forall_raceSafe : ¬ ∀ t, lifetimes.Reachable t → RaceSafe t.1 t.2 := by
  intro hall
  obtain ⟨t, hreach, ht⟩ := System.exists_reachable_of_run (M := lifetimes)
    (fun t => t.1.aborted) terminatedTwice (s := ({}, {})) ⟨rfl, rfl⟩ (by decide)
  exact absurd ((hall t hreach).assigns.symm.trans ht) nofun

/-! ## What goes wrong otherwise -/

/-- A run from here can end in a state that is not safe. -/
def CanRace (s : ActiveProcess) (h : Lifetimes) : Prop :=
  ∃ t, lifetimes.Steps (s, h) t ∧ ¬ RaceSafe t.1 t.2

theorem CanRace.step {e : Event} (hrace : CanRace s' (.record s e h)) (hnot : s.aborted = false)
    (hact : s.act e = some s') : CanRace s h := by
  obtain ⟨t, hsteps, hunsafe⟩ := hrace
  have hstep : system.step s e = some s' := by
    show ActiveProcess.step s e = some s'
    rw [ActiveProcess.step, hnot]
    exact hact
  exact ⟨t, .head ⟨e, trivial, System.recording_step hstep h⟩ hsteps, hunsafe⟩

theorem act_startsThread {c : Nat × Bool} (hmem : c ∈ s.starting) :
    s.act (.startsThread c.1 c.2) = some (s.startThread c.1 c.2) := by
  simp [act, onlyIf, hmem]

theorem canRace_of_joinable (hnot : s.aborted = false) {c : Nat × Bool} (hmem : c ∈ s.starting)
    (hhandle : s.mTerminationThread ≠ none) : CanRace s h := by
  refine CanRace.step ?_ hnot (act_startsThread hmem)
  refine ⟨_, .refl _, fun hsafe => ?_⟩
  have hassigns := hsafe.assigns
  simp [startThread, Option.isSome_iff_ne_none, hhandle] at hassigns

theorem canRace_of_resetting (hnot : s.aborted = false) (hstate : s.mState = .Spawned)
    {caller : Nat} (hmem : caller ∈ s.resetting) : CanRace s h := by
  have hact : s.act (.resetsState caller) = some (s.resetState caller) := by
    simp [act, onlyIf, hmem]
  refine CanRace.step ?_ hnot hact
  refine ⟨_, .refl _, fun hsafe => ?_⟩
  have hmoved := hsafe.resets .Spawned (by simp [Lifetimes.record, hstate])
  cases hmoved

/-- In the spawned process, a call that is left of an earlier lifetime can still
    do what it must not. -/
theorem canRace_of_left (hnot : s.aborted = false) (hstate : s.mState = .Spawned)
    (hleft : s.starting ≠ [] ∨ s.mTerminationThread ≠ none ∨ s.joining ≠ [] ∨ s.resetting ≠ []) :
    CanRace s h := by
  have hterminate : s.act (.terminate 0 true) =
      some { s with mState := .Terminating, starting := s.starting ++ [(0, true)] } := by
    simp [act, terminate, hstate]
  by_cases hhandle : s.mTerminationThread = none
  · by_cases hstarting : s.starting = []
    · by_cases hresetting : s.resetting = []
      · -- a call of `reset` goes on as if the process were still `Terminated`
        have hjoining : s.joining ≠ [] := by simpa [hhandle, hstarting, hresetting] using hleft
        obtain ⟨caller, hmem⟩ := List.exists_mem_of_ne_nil _ hjoining
        have hact : s.act (.joinsThread caller) = some (s.joinThread caller) := by
          simp [act, onlyIf, hmem, canJoin, hhandle]
        have hmem' : caller ∈ (s.joinThread caller).resetting := by simp [joinThread]
        refine CanRace.step ?_ hnot hact
        exact canRace_of_resetting hnot hstate hmem'
      · obtain ⟨caller, hmem⟩ := List.exists_mem_of_ne_nil _ hresetting
        exact canRace_of_resetting hnot hstate hmem
    · -- both the old and a new call of `terminate` assign their thread
      obtain ⟨c, hmem⟩ := List.exists_mem_of_ne_nil _ hstarting
      refine CanRace.step ?_ hnot hterminate
      have hmem' : c ∈ s.starting ++ [(0, true)] := List.mem_append_left _ hmem
      refine CanRace.step ?_ hnot (act_startsThread hmem')
      unfold startThread
      rw [if_neg (by simp [hhandle])]
      have hlength : 0 < ((s.starting ++ [(0, true)]).erase c).length := by
        have hpos := List.length_pos_of_mem hmem
        rw [List.length_erase_of_mem hmem', List.length_append, List.length_singleton]
        omega
      obtain ⟨c', hmem''⟩ := List.exists_mem_of_length_pos hlength
      exact canRace_of_joinable hnot hmem'' (Option.some_ne_none _)
  · refine CanRace.step ?_ hnot hterminate
    have hmem : (0, true) ∈ s.starting ++ [(0, true)] := List.mem_append_right _ (.head _)
    exact canRace_of_joinable hnot hmem hhandle

/-- Nothing less will do: once a process has been spawned otherwise, some run from
    there is not safe. -/
theorem canRace_of_not_spawnsClean {e : Event} (hs : s.step e = some s')
    (hunclean : ¬ s.SpawnsClean e) : CanRace s' (.record s e h) := by
  have hnot : s.aborted = false := by
    by_contra hne
    rw [step, if_pos (by simpa using hne)] at hs
    cases hs
  replace hs := act_of_step hs
  unfold SpawnsClean at hunclean
  push Not at hunclean
  obtain ⟨assignedMb, pid, rfl, hstate, hleft⟩ := hunclean
  obtain ⟨-, rfl⟩ := of_onlyIf hs
  have hspawn : s.spawn assignedMb (.forks pid) =
      { s.update
          { s.toProcess with mAssignedMb := assignedMb, mPid := pid, mState := .Spawned } with
        gaveUp := s.gaveUp.filter (· ≠ pid) } := by
    rw [ActiveProcess.spawn, if_neg (not_not_intro hstate)]
  rw [hspawn]
  refine canRace_of_left hnot rfl ?_
  by_cases hstarting : s.starting = []
  · by_cases hhandle : s.mTerminationThread = none
    · by_cases hjoining : s.joining = []
      · exact .inr (.inr (.inr (hleft hstarting hhandle hjoining)))
      · exact .inr (.inr (.inl hjoining))
    · exact .inr (.inl hhandle)
  · exact .inl hstarting

end ActiveProcess

end Arras4Core.Execute
