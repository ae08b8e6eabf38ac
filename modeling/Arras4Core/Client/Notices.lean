/-
  Arras4Core.Client.Notices

  How often an observer is told that a process has terminated.
  `Process::terminated` and `terminated_internal` change the state only once but
  call `onTerminate` every time, and `terminated` does so after it has released
  the mutex.  A lifetime has exactly one notice as long as neither is executed
  on a process that is terminated already and no notice crosses a reset or a
  spawn.
-/

import Arras4Core.Client.LocalSession
import Arras4Core.Execute.ProcessStates

namespace Arras4Core.Client

open Arras4Core.Api (UUID)
open Arras4Core.Lib
open Arras4Core.Execute

/-- What happens from a spawn to the next reset. -/
structure Lifetime where
  /-- the process has reached `Terminated` -/
  terminated : Bool := false
  /-- the statuses `onTerminate` was called with -/
  notices : List ExitStatus := []
  /-- the calls of the termination callback -/
  callbacks : List (Bool × Api.Object) := []

/-- `onTerminate` is called, and may call the callback. -/
def Lifetime.notify (l : Lifetime) (status : ExitStatus) (callback : Option (Bool × Api.Object)) :
    Lifetime :=
  { l with notices := l.notices ++ [status], callbacks := l.callbacks ++ callback.toList }

/-- One notice at most, one if the process has terminated and all calls have given
    theirs, and one callback at most. -/
structure Lifetime.Once (l : Lifetime) (notifying : Nat) : Prop where
  atMost : l.notices.length ≤ 1
  exactly : l.terminated = true → notifying = 0 → l.notices.length = 1
  callbacks : l.callbacks.length ≤ 1

/-- A process and the session that observes it. -/
structure ObservedProcess where
  mId : UUID
  mSessionId : UUID
  process : ActiveProcess := {}
  mObserver : Option LocalSession := none
  /-- calls of `terminated` that have released the mutex and have yet to call
      `onTerminate` -/
  notifying : Nat := 0
  current : Option Lifetime := none
  ended : List Lifetime := []
  /-- the destructor has been entered -/
  deleted : Bool := false

namespace ObservedProcess

/-- `if (mObserver) mObserver->onTerminate(mId,mSessionId,mStatus)`, in lifetime `l`. -/
def notified (s : ObservedProcess) (l : Lifetime) : Lifetime :=
  match s.mObserver with
  | none => l
  | some observer =>
    l.notify s.process.mStatus (observer.onTerminate s.mId s.mSessionId s.process.mStatus)

def notify (s : ObservedProcess) : ObservedProcess :=
  { s with current := s.current.map s.notified }

/-- The process takes a step. -/
def setProcess (s : ObservedProcess) (process : ActiveProcess) : ObservedProcess :=
  { s with
    process
    current := s.current.map fun l =>
      { l with terminated := l.terminated || process.mState = .Terminated } }

/-- The step calls `terminated_internal`, which notifies while it has the mutex. -/
def callsInternal (s : ActiveProcess) : ActiveProcess.Event → Bool
  | .spawn _ outcome => s.mState = .NotSpawned && (outcome = .pipeFails || outcome = .forkFails)
  | .terminate _ _ => s.mState = .NotSpawned
  | .killResumes _ => true
  | _ => false

/-- The step is the first one of a call. -/
def beginsCall : ActiveProcess.Event → Bool
  | .spawn _ _ | .terminate _ _ | .signal _ _ | .reset _ | .terminated _ => true
  | _ => false

inductive Event
  | process (e : ActiveProcess.Event)
  /-- `spawn` with `args.observer` -/
  | spawns (assignedMb : UInt32) (outcome : SpawnOutcome) (observer : LocalSession)
  /-- the end of `terminated` -/
  | notifies
  /-- `~Process` up to the join -/
  | destroys
  -- the observer
  | stops
  | abandons

/-- A step of the process, with the notice that `terminated_internal` gives. -/
def stepProcess (s : ObservedProcess) (e : ActiveProcess.Event) : Option ObservedProcess :=
  (s.process.step e).map fun process =>
    if callsInternal s.process e then (s.setProcess process).notify else s.setProcess process

/-- The critical section of `terminated`. -/
def terminated (s : ObservedProcess) (status : ExitStatus) : Option ObservedProcess :=
  (s.stepProcess (.terminated status)).map fun s' => { s' with notifying := s'.notifying + 1 }

/-- No lifetime is under way any more. -/
def endLifetime (s : ObservedProcess) : ObservedProcess :=
  { s with current := none, ended := s.ended ++ s.current.toList }

/-- The last step of `reset`. -/
def resetsState (s : ObservedProcess) (caller : Nat) : Option ObservedProcess :=
  s.endLifetime.stepProcess (.resetsState caller)

/-- A spawn that goes ahead begins a lifetime. -/
def spawn (s : ObservedProcess) (assignedMb : UInt32) (outcome : SpawnOutcome)
    (observer : LocalSession) : Option ObservedProcess :=
  if s.process.mState = .NotSpawned then
    { s.endLifetime with mObserver := some observer, current := some {} }.stepProcess
      (.spawn assignedMb outcome)
  else s.stepProcess (.spawn assignedMb outcome)

def act (s : ObservedProcess) : Event → Option ObservedProcess
  -- a process that is observed is spawned by `spawns`
  | .process (.spawn _ _) => none
  | .process (.terminated status) => if s.deleted then none else s.terminated status
  | .process (.resetsState caller) => s.resetsState caller
  | .process e => if beginsCall e ∧ s.deleted then none else s.stepProcess e
  | .spawns assignedMb outcome observer =>
    if s.deleted then none else s.spawn assignedMb outcome observer
  | .notifies => onlyIf (0 < s.notifying) { s.notify with notifying := s.notifying - 1 }
  | .destroys =>
    if s.deleted then none
    else { s with deleted := true }.terminated ⟨.Internal, ExitStatus.PROCESS_DELETED⟩
  | .stops => some { s with mObserver := s.mObserver.map LocalSession.stop }
  | .abandons => some { s with mObserver := s.mObserver.map LocalSession.abandon }

def system : System ObservedProcess Event where
  init s := s = { mId := s.mId, mSessionId := s.mSessionId }
  step := act

/-! ## The notices -/

variable {s s' : ObservedProcess}

/-- So it is in the current lifetime and in all that have been ended by a reset. -/
structure NoticedOnce (s : ObservedProcess) : Prop where
  current : ∀ l, s.current = some l → Lifetime.Once l s.notifying
  ended : ∀ l ∈ s.ended, Lifetime.Once l 0

/-- In a lifetime, `terminated` and the end of `terminationProc` are not executed on
    a process that is terminated already, and `reset` does not end it while
    `terminated` has yet to notify; nor does a spawn begin one then. -/
def NoticeInLifetime (s : ObservedProcess) : Event → Prop
  | .process (.terminated _) | .process (.killResumes _) | .destroys =>
    s.process.mState = .Terminated → s.current = none
  | .process (.resetsState _) => s.current ≠ none → s.notifying = 0
  | .spawns _ _ _ => s.process.mState = .NotSpawned → s.notifying = 0
  | _ => True

/-! ## What a step does to the state -/

/-- `terminated` and the last step of `reset` are modelled apart. -/
def isQuiet : ActiveProcess.Event → Prop
  | .terminated _ | .resetsState _ => False
  | _ => True

theorem terminated_of_callsInternal {p p' : ActiveProcess} {e : ActiveProcess.Event}
    (hs : p.step e = some p') (hcalls : callsInternal p e = true) : p'.mState = .Terminated := by
  replace hs := ActiveProcess.act_of_step hs
  cases e with
  | spawn assignedMb outcome =>
    obtain ⟨-, rfl⟩ := of_onlyIf hs
    simp only [callsInternal, Bool.and_eq_true, decide_eq_true_eq, Bool.or_eq_true] at hcalls
    unfold ActiveProcess.spawn
    rw [if_neg (not_not_intro hcalls.1)]
    cases outcome with
    | pipeFails | forkFails => exact Process.terminated_mState _ _
    | forks pid => exact absurd hcalls.2 (by simp)
  | terminate caller fast =>
    cases hs
    have hstate : p.mState = .NotSpawned := of_decide_eq_true hcalls
    unfold ActiveProcess.terminate
    rw [hstate]
    exact Process.terminated_mState _ _
  | killResumes i =>
    obtain ⟨-, rfl⟩ := of_onlyIf hs
    exact Process.terminated_mState _ _
  | _ => cases hcalls

/-- No other step leads into `Terminated`, or out of it, or back to `NotSpawned`. -/
theorem mState_of_not_callsInternal {p p' : ActiveProcess} {e : ActiveProcess.Event}
    (hs : p.step e = some p') (hquiet : isQuiet e) (hcalls : callsInternal p e = false) :
    (p'.mState = .Terminated ↔ p.mState = .Terminated) ∧
    (p'.mState = .NotSpawned → p.mState = .NotSpawned) := by
  replace hs := ActiveProcess.act_of_step hs
  cases e with
  | spawn assignedMb outcome =>
    obtain ⟨-, rfl⟩ := of_onlyIf hs
    unfold ActiveProcess.spawn
    split
    · exact ⟨.rfl, id⟩
    · next hstate =>
      have hstate : p.mState = .NotSpawned := Decidable.not_not.mp hstate
      cases outcome with
      | pipeFails | forkFails => simp [callsInternal, hstate] at hcalls
      | forks pid => simp [ActiveProcess.update, hstate]
  | terminate caller fast =>
    cases hs
    have hstate : p.mState ≠ .NotSpawned := of_decide_eq_false hcalls
    unfold ActiveProcess.terminate
    split
    · next heq => exact absurd heq hstate
    · exact ⟨.rfl, id⟩
    · exact ⟨.rfl, id⟩
    · next heq => simp [heq]
  | resetsState caller | terminated status => exact absurd hquiet id
  | killResumes i => cases hcalls
  | _ =>
    rw [ActiveProcess.toProcess_of_not_writes rfl hs]
    exact ⟨.rfl, id⟩

/-! ## The invariant -/

/-- The notices that were given and that are to come add up to one in `Terminated`,
    and to none before. -/
structure Counts (s : ObservedProcess) (l : Lifetime) : Prop where
  observed : s.mObserver ≠ none
  terminated : l.terminated = true ↔ s.process.mState = .Terminated
  notices : l.notices.length + s.notifying = if s.process.mState = .Terminated then 1 else 0
  callbacks : l.callbacks.length ≤ l.notices.length

structure Counted (s : ObservedProcess) : Prop where
  current : ∀ l, s.current = some l → s.Counts l
  ended : ∀ l ∈ s.ended, Lifetime.Once l 0

theorem Counts.once {l : Lifetime} (h : s.Counts l) : l.Once s.notifying := by
  have hnotices := h.notices
  have hcallbacks := h.callbacks
  constructor
  · split at hnotices <;> omega
  · intro hterm hnone
    rw [if_pos (h.terminated.mp hterm)] at hnotices
    omega
  · split at hnotices <;> omega

theorem Counted.noticedOnce (h : s.Counted) : s.NoticedOnce where
  current l hl := (h.current l hl).once
  ended := h.ended

theorem notified_eq (hobserved : s.mObserver ≠ none) (l : Lifetime) :
    ∃ callback, s.notified l = l.notify s.process.mStatus callback := by
  obtain ⟨observer, hobserver⟩ := Option.ne_none_iff_exists'.mp hobserved
  refine ⟨observer.onTerminate s.mId s.mSessionId s.process.mStatus, ?_⟩
  unfold notified
  rw [hobserver]

/-- One more notice that had to come is given. -/
theorem Counts.notify {l : Lifetime} {status : ExitStatus} {callback : Option (Bool × Api.Object)}
    (hobserved : s'.mObserver ≠ none)
    (hterminated : l.terminated = true ↔ s'.process.mState = .Terminated)
    (hnotices : l.notices.length + s'.notifying + 1 =
      if s'.process.mState = .Terminated then 1 else 0)
    (hcallbacks : l.callbacks.length ≤ l.notices.length) :
    s'.Counts (l.notify status callback) where
  observed := hobserved
  terminated := hterminated
  notices := by
    rw [← hnotices, Lifetime.notify, List.length_append, List.length_singleton]
    omega
  callbacks := by
    have hcallback : callback.toList.length ≤ 1 := by cases callback <;> simp
    simp only [Lifetime.notify, List.length_append, List.length_singleton]
    omega

/-- A step of the process other than `terminated` and the end of `reset`. -/
theorem Counted.stepProcess (hc : s.Counted) {e : ActiveProcess.Event} (hquiet : isQuiet e)
    (hlive : callsInternal s.process e = true → s.process.mState = .Terminated →
      s.current = none) (hs : s.stepProcess e = some s') : s'.Counted := by
  obtain ⟨p', hp, rfl⟩ := Option.map_eq_some_iff.mp hs
  by_cases hcalls : callsInternal s.process e = true
  · -- the notice is given in the same step
    rw [if_pos hcalls]
    refine { current := fun l' hl' => ?_, ended := hc.ended }
    obtain ⟨l₁, hl₁, rfl⟩ := Option.map_eq_some_iff.mp hl'
    obtain ⟨l, hl, rfl⟩ := Option.map_eq_some_iff.mp hl₁
    have h := hc.current l hl
    obtain ⟨callback, heq⟩ := notified_eq (s := s.setProcess p') h.observed _
    rw [heq]
    have hne : s.process.mState ≠ .Terminated := by
      intro hstate
      rw [hlive hcalls hstate] at hl
      cases hl
    have hterm : p'.mState = .Terminated := terminated_of_callsInternal hp hcalls
    have hnotices := h.notices
    rw [if_neg hne] at hnotices
    refine Counts.notify h.observed (iff_of_true (by simp [hterm]) hterm) ?_ h.callbacks
    show l.notices.length + s.notifying + 1 = if p'.mState = .Terminated then 1 else 0
    rw [if_pos hterm, hnotices]
  · -- there is no notice, and `Terminated` is neither entered nor left
    rw [if_neg hcalls]
    refine { current := fun l' hl' => ?_, ended := hc.ended }
    obtain ⟨l, hl, rfl⟩ := Option.map_eq_some_iff.mp hl'
    have h := hc.current l hl
    have hiff := (mState_of_not_callsInternal hp hquiet (by simpa using hcalls)).1
    exact
      { observed := h.observed
        terminated := by simp [setProcess, h.terminated, hiff]
        notices := by simp only [setProcess, hiff, h.notices]
        callbacks := h.callbacks }

/-- `terminated` on a process that is not. -/
theorem Counted.terminated (hc : s.Counted) {status : ExitStatus}
    (hlive : s.process.mState = .Terminated → s.current = none)
    (hs : s.terminated status = some s') : s'.Counted := by
  obtain ⟨s₁, hs₁, rfl⟩ := Option.map_eq_some_iff.mp hs
  obtain ⟨p', hp, rfl⟩ := Option.map_eq_some_iff.mp hs₁
  have hp' := Option.some.inj (ActiveProcess.act_of_step hp)
  have hterm : p'.mState = .Terminated := by
    rw [← hp']
    exact Process.terminated_mState _ _
  refine { current := fun l' hl' => ?_, ended := hc.ended }
  obtain ⟨l, hl, rfl⟩ := Option.map_eq_some_iff.mp hl'
  have h := hc.current l hl
  have hne : s.process.mState ≠ .Terminated := by
    intro hstate
    rw [hlive hstate] at hl
    cases hl
  have hnotices := h.notices
  rw [if_neg hne] at hnotices
  exact
    { observed := h.observed
      terminated := iff_of_true (by simp [hterm]) hterm
      notices := by
        show l.notices.length + (s.notifying + 1) = if p'.mState = .Terminated then 1 else 0
        rw [if_pos hterm, ← Nat.add_assoc, hnotices]
      callbacks := h.callbacks }

/-- A lifetime that ends when no notice has still to come has had them all. -/
theorem Counted.endLifetime (hc : s.Counted) (hgiven : s.current ≠ none → s.notifying = 0) :
    s.endLifetime.Counted where
  current := nofun
  ended l hl := by
    rcases List.mem_append.mp hl with hl | hl
    · exact hc.ended l hl
    · have hcur : s.current = some l := Option.mem_toList.mp hl
      rw [← hgiven (by simp [hcur])]
      exact (hc.current l hcur).once

theorem Counted.resetsState (hc : s.Counted) {caller : Nat}
    (hgiven : s.current ≠ none → s.notifying = 0)
    (hs : s.resetsState caller = some s') : s'.Counted := by
  obtain ⟨p', -, rfl⟩ := Option.map_eq_some_iff.mp hs
  exact { current := nofun, ended := (hc.endLifetime hgiven).ended }

/-- A spawn begins a lifetime in which no notice comes from the one before. -/
theorem Counted.spawn (hc : s.Counted) {assignedMb : UInt32} {outcome : SpawnOutcome}
    {observer : LocalSession} (hgiven : s.process.mState = .NotSpawned → s.notifying = 0)
    (hs : s.spawn assignedMb outcome observer = some s') : s'.Counted := by
  unfold ObservedProcess.spawn at hs
  split at hs
  · next hstate =>
    have hc' : Counted { s.endLifetime with mObserver := some observer, current := some {} } :=
      { current := fun l hl => by
          cases hl
          exact
            { observed := nofun
              terminated := by simp [ObservedProcess.endLifetime, hstate]
              notices := by simp [ObservedProcess.endLifetime, hstate, hgiven hstate]
              callbacks := Nat.le_refl _ }
        ended := (hc.endLifetime fun _ => hgiven hstate).ended }
    exact hc'.stepProcess (e := .spawn assignedMb outcome) trivial
      (fun _ hterm => absurd (hstate.symm.trans hterm) nofun) hs
  · next hstate =>
    exact hc.stepProcess (e := .spawn assignedMb outcome) trivial
      (fun hcalls => absurd hcalls (by simp [callsInternal, hstate])) hs

theorem Counted.notifies (hc : s.Counted) (hpos : 0 < s.notifying) :
    Counted { s.notify with notifying := s.notifying - 1 } := by
  refine { current := fun l' hl' => ?_, ended := hc.ended }
  obtain ⟨l, hl, rfl⟩ := Option.map_eq_some_iff.mp hl'
  have h := hc.current l hl
  obtain ⟨callback, heq⟩ := notified_eq h.observed l
  rw [heq]
  refine Counts.notify h.observed h.terminated ?_ h.callbacks
  have hnotices := h.notices
  show l.notices.length + (s.notifying - 1) + 1 = if s.process.mState = .Terminated then 1 else 0
  rw [← hnotices]
  omega

theorem Counted.observer (hc : s.Counted) (f : LocalSession → LocalSession) :
    Counted { s with mObserver := s.mObserver.map f } where
  current l hl :=
    { hc.current l hl with observed := by simpa using (hc.current l hl).observed }
  ended := hc.ended

theorem Counted.act (hc : s.Counted) {e : Event} (honce : s.NoticeInLifetime e)
    (hs : s.act e = some s') : s'.Counted := by
  cases e with
  | spawns assignedMb outcome observer =>
    simp only [ObservedProcess.act] at hs
    split at hs
    · cases hs
    · exact hc.spawn honce hs
  | notifies =>
    obtain ⟨hpos, rfl⟩ := of_onlyIf hs
    exact hc.notifies hpos
  | destroys =>
    simp only [ObservedProcess.act] at hs
    split at hs
    · cases hs
    · have hc' : Counted { s with deleted := true } :=
        { current := fun l hl => { hc.current l hl with }, ended := hc.ended }
      exact hc'.terminated honce hs
  | stops =>
    cases hs
    exact hc.observer _
  | abandons =>
    cases hs
    exact hc.observer _
  | process e =>
    cases e with
    | spawn assignedMb outcome => cases hs
    | terminated status =>
      simp only [ObservedProcess.act] at hs
      split at hs
      · cases hs
      · exact hc.terminated honce hs
    | resetsState caller => exact hc.resetsState honce hs
    | terminate caller fast =>
      simp only [ObservedProcess.act] at hs
      split at hs
      · cases hs
      · -- `terminate` marks only a process that has not been spawned
        exact hc.stepProcess (e := .terminate caller fast) trivial
          (fun hcalls hterm => absurd (hterm.symm.trans (of_decide_eq_true hcalls)) nofun) hs
    | killResumes i =>
      simp only [ObservedProcess.act] at hs
      split at hs
      · cases hs
      · -- the condition: the process has not exited in the meantime
        exact hc.stepProcess (e := .killResumes i) trivial (fun _ => honce) hs
    | _ =>
      simp only [ObservedProcess.act] at hs
      split at hs
      · cases hs
      · refine Counted.stepProcess hc ?_ ?_ hs
        · trivial
        · exact nofun

/-! ## Every run -/

theorem counted_of_reachable (h : system.ReachableWhen NoticeInLifetime s) : s.Counted :=
  h.invariant (fun s₀ (h₀ : s₀ = _) => h₀ ▸ { current := nofun, ended := nofun })
    fun _ _ _ hi honce hs => hi.act honce hs

/-- **Notices.**  In every run in which nothing is terminated twice in a lifetime
    and no notice crosses a reset or a spawn, a lifetime has one notice at most, and
    exactly one once the process has terminated. -/
theorem noticedOnce_of_noticeInLifetime (h : system.ReachableWhen NoticeInLifetime s) :
    s.NoticedOnce :=
  (counted_of_reachable h).noticedOnce

/-- A session with a callback, and the process that it spawns. -/
def exampleSession : LocalSession where
  mAddress :=
    { session := ⟨Vector.replicate 16 1⟩
      node := ⟨Vector.replicate 16 2⟩
      computation := ⟨Vector.replicate 16 3⟩ }
  mName := "comp"
  mTerminateCallback := true

def exampleProcess : ObservedProcess where
  mId := exampleSession.mAddress.computation
  mSessionId := exampleSession.mAddress.session

/-- The process exits, the session is told, and the process is reset. -/
theorem noticedOnce_exits : ∃ s, system.ReachableWhen NoticeInLifetime s ∧
    s.ended.map (·.notices) = [[⟨.Exit, 0⟩]] ∧ s.NoticedOnce := by
  have h : ∃ s, system.ReachableWhen NoticeInLifetime s ∧
      s.ended.map (·.notices) = [[⟨.Exit, 0⟩]] := by
    have h₀ : system.ReachableWhen NoticeInLifetime exampleProcess := .init rfl
    have h₁ := h₀.next (e := Event.spawns 64 (.forks 7) exampleSession) (fun _ => rfl) rfl
    have h₂ := h₁.next (e := Event.process (.terminated ⟨.Exit, 0⟩)) nofun rfl
    have h₃ := h₂.next (e := Event.notifies) trivial rfl
    have h₄ := h₃.next (e := Event.process (.reset 0)) trivial rfl
    have h₅ := h₄.next (e := Event.process (.joinsThread 0)) trivial rfl
    exact ⟨_, h₅.next (e := Event.process (.resetsState 0)) (fun _ => rfl) rfl, rfl⟩
  obtain ⟨s, hreach, hnotices⟩ := h
  exact ⟨s, hreach, hnotices, noticedOnce_of_noticeInLifetime hreach⟩

/-- The session is stopped; its process survives both signals for as long as the
    termination thread waits, is given up on as uninterruptable, and exits later. -/
def exitsLate : List Event :=
  [.spawns 64 (.forks 7) exampleSession, .process (.terminate 0 false),
    .process (.startsThread 0 false), .process (.threadLocks 0 false false),
    .process (.termTimesOut 0 0), .process (.termResumes 0 0), .process (.killTimesOut 0),
    .process (.killResumes 0), .process (.terminated ⟨.Signal, 9⟩), .notifies]

/-- The session is told twice, and calls its callback twice. -/
theorem not_forall_noticedOnce : ¬ ∀ s, system.Reachable s → s.NoticedOnce := by
  intro hall
  obtain ⟨s, hreach, hs⟩ := System.exists_reachable_of_run (M := system)
    (fun s => s.current.any fun l => l.callbacks.length == 2) exitsLate
    (s := exampleProcess) rfl (by decide)
  obtain ⟨l, hl, hcallbacks⟩ := (Option.any_eq_true _ _).mp hs
  have honce := ((hall s hreach).current l hl).callbacks
  rw [eq_of_beq hcallbacks] at honce
  exact absurd honce (by decide)

end ObservedProcess

end Arras4Core.Client
