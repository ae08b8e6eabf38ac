/-
  Arras4Core.Computation.PerformanceMonitor

  `impl::PerformanceMonitor` as a transition system: the thread that is in
  `run`, and one call of `stop`.  A step is one critical section of `mRunMutex`,
  or the work of one iteration outside of it: sampling the usage and sending a
  heartbeat.  A wait of the thread may end at any time, and its test of the
  clock may come out either way.

  `run` itself sets the flag that `stop` clears.  A call of `stop` that comes
  before that first statement is overwritten by it; every later call ends the
  thread after the iteration it is in.
-/

import Arras4Core.Lib.System

namespace Arras4Core.Computation

open Arras4Core.Lib

/-- `run` on its thread.  At `wait` the thread is blocked on `mRunCondition`. -/
inductive RunPc
  | notCreated
  | setRun
  | iterate
  | test
  | wait
  | returned
  deriving DecidableEq

/-- The flag, the thread, and what has happened: how many iterations have begun,
    and how many had when `stop` cleared the flag. -/
structure PerformanceMonitor where
  mRun : Bool := false
  run : RunPc := .notCreated
  begun : Nat := 0
  stopped : Option Nat := none
  deriving DecidableEq

namespace PerformanceMonitor

def stop (s : PerformanceMonitor) : PerformanceMonitor :=
  { s with mRun := false, stopped := some s.begun }

def beginIteration (s : PerformanceMonitor) : PerformanceMonitor :=
  { s with run := .iterate, begun := s.begun + 1 }

/-- The critical section at the end of the loop, from a test of its condition to
    the next wait or to the end of the section. -/
def testRun (s : PerformanceMonitor) (timedOut : Bool) : PerformanceMonitor :=
  if s.mRun && !timedOut then { s with run := .wait }
  else if s.mRun then s.beginIteration
  else { s with run := .returned }

inductive Event
  | threadCreated
  | setsRun
  | sendsHeartbeat
  | tests (timedOut : Bool)
  | stops
  deriving DecidableEq

def step (s : PerformanceMonitor) : Event → Option PerformanceMonitor
  | .threadCreated => onlyIf (s.run = .notCreated) { s with run := .setRun }
  | .setsRun => onlyIf (s.run = .setRun) { s with mRun := true }.beginIteration
  | .sendsHeartbeat => onlyIf (s.run = .iterate) { s with run := .test }
  | .tests timedOut => onlyIf (s.run = .test ∨ s.run = .wait) (s.testRun timedOut)
  | .stops => onlyIf (s.run ≠ .notCreated ∧ s.stopped = none) s.stop

def system : System PerformanceMonitor Event where
  init s := s = {}
  step := step

variable {s s' : PerformanceMonitor}

/-! ## A monitor that stays stopped -/

/-- Once `stop` has returned: the flag is false, no iteration begins, and the
    thread comes to its end, which takes it at most two steps. -/
structure StaysStopped (s : PerformanceMonitor) : Prop where
  mRun : s.stopped.isSome → s.mRun = false
  iterations : ∀ n, s.stopped = some n → s.begun = n
  bounded : s.stopped.isSome → ∀ es s', system.run s es = some s' → es.length ≤ 2
  ends : s.stopped.isSome → s.run = .returned ∨ ∃ e, (step s e).isSome

/-- The flag is set by the time `stop` is called. -/
def StopsStarted (s : PerformanceMonitor) : Event → Prop
  | .stops => s.run ≠ .setRun
  | _ => True

/-- What holds once `stop` has come after the first statement of `run`. -/
structure Stopped (s : PerformanceMonitor) : Prop where
  started : s.run ≠ .notCreated ∧ s.run ≠ .setRun
  mRun : s.mRun = false
  begun : s.stopped = some s.begun

/-- The steps a stopped thread has left. -/
def remaining (s : PerformanceMonitor) : Nat :=
  match s.run with
  | .iterate => 2
  | .test | .wait => 1
  | _ => 0

theorem remaining_le (s : PerformanceMonitor) : s.remaining ≤ 2 := by
  unfold remaining
  split <;> omega

/-- A stopped thread leaves its loop at the next test. -/
theorem testRun_of_stopped (h : s.mRun = false) (timedOut : Bool) :
    s.testRun timedOut = { s with run := .returned } := by
  simp [testRun, h]

/-- One step of a stopped monitor: it is one of the steps its thread has left. -/
theorem Stopped.next (h : s.Stopped) {e : Event} (hs : step s e = some s') :
    s'.Stopped ∧ s'.remaining + 1 ≤ s.remaining := by
  cases e with
  | threadCreated =>
    obtain ⟨hpc, -⟩ := of_onlyIf hs
    exact absurd hpc h.started.1
  | setsRun =>
    obtain ⟨hpc, -⟩ := of_onlyIf hs
    exact absurd hpc h.started.2
  | sendsHeartbeat =>
    obtain ⟨hpc, rfl⟩ := of_onlyIf hs
    refine ⟨⟨⟨nofun, nofun⟩, h.mRun, h.begun⟩, ?_⟩
    simp [remaining, hpc]
  | tests timedOut =>
    obtain ⟨hpc, rfl⟩ := of_onlyIf hs
    rw [testRun_of_stopped h.mRun]
    refine ⟨⟨⟨nofun, nofun⟩, h.mRun, h.begun⟩, ?_⟩
    rcases hpc with hpc | hpc <;> simp [remaining, hpc]
  | stops =>
    obtain ⟨⟨-, hnone⟩, -⟩ := of_onlyIf hs
    rw [h.begun] at hnone
    cases hnone

/-- Every step of a stopped monitor counts, so its runs are short. -/
theorem Stopped.length_le (h : s.Stopped) {es : List Event} (hrun : system.run s es = some s') :
    es.length ≤ 2 := by
  have hcount := System.length_filter_le_of_run (M := system) (fun _ => true) (m := remaining)
    (fun _ _ _ hI hs => Stopped.next hI hs) h hrun
  have hle := s.remaining_le
  rw [List.filter_eq_self.mpr fun _ _ => rfl] at hcount
  omega

theorem Stopped.ends (h : s.Stopped) : s.run = .returned ∨ ∃ e, (step s e).isSome := by
  cases hpc : s.run with
  | notCreated => exact absurd hpc h.started.1
  | setRun => exact absurd hpc h.started.2
  | iterate => exact .inr ⟨.sendsHeartbeat, by simp [step, onlyIf, hpc]⟩
  | test => exact .inr ⟨.tests true, by simp [step, onlyIf, hpc]⟩
  | wait => exact .inr ⟨.tests true, by simp [step, onlyIf, hpc]⟩
  | returned => exact .inl rfl

/-- Before the call of `stop` nothing is asked for; after it the monitor is stopped. -/
theorem staysStopped (h : s.stopped.isSome → s.Stopped) : s.StaysStopped where
  mRun hs := (h hs).mRun
  iterations n hn := by
    have hbegun := (h (by rw [hn]; rfl)).begun
    rw [hn] at hbegun
    exact (Option.some.inj hbegun).symm
  bounded hs _ _ hrun := (h hs).length_le hrun
  ends hs := (h hs).ends

/-- The invariant: a call of `stop` has stopped the monitor. -/
theorem stopped_of_reachable (h : system.ReachableWhen StopsStarted s) :
    s.stopped.isSome → s.Stopped := by
  apply h.invariant (I := fun s => s.stopped.isSome → s.Stopped)
  · rintro s₀ rfl hs
    cases hs
  · intro s₁ e s₂ hI hcond hs hstopped
    by_cases hcalled : s₁.stopped.isSome
    · exact ((hI hcalled).next hs).1
    · -- only the call of `stop` makes the difference
      have hnone : s₁.stopped = none := by simpa using hcalled
      cases e with
      | stops =>
        obtain ⟨⟨hcreated, -⟩, rfl⟩ := of_onlyIf hs
        exact ⟨⟨hcreated, hcond⟩, rfl, rfl⟩
      | tests timedOut =>
        obtain ⟨-, rfl⟩ := of_onlyIf hs
        have hsame : (s₁.testRun timedOut).stopped = s₁.stopped := by
          unfold testRun
          split
          · rfl
          · split <;> rfl
        rw [hsame, hnone] at hstopped
        cases hstopped
      | _ =>
        obtain ⟨-, rfl⟩ := of_onlyIf hs
        have hstopped : s₁.stopped.isSome := hstopped
        exact absurd hstopped hcalled

/-- A thread that has returned stays so. -/
theorem returned_of_step (h : s.run = .returned) {e : Event} (hs : step s e = some s') :
    s'.run = .returned := by
  cases e with
  | stops =>
    obtain ⟨-, rfl⟩ := of_onlyIf hs
    exact h
  | tests timedOut =>
    obtain ⟨hpc, -⟩ := of_onlyIf hs
    rcases hpc with hpc | hpc <;> cases h.symm.trans hpc
  | threadCreated | setsRun | sendsHeartbeat =>
    obtain ⟨hpc, -⟩ := of_onlyIf hs
    cases h.symm.trans hpc

/-- **A stopped monitor stays stopped** when `stop` is not called before the first
    statement of `run`. -/
theorem staysStopped_of_stopsStarted (h : system.ReachableWhen StopsStarted s) :
    s.StaysStopped :=
  staysStopped (stopped_of_reachable h)

/-- A monitor that is stopped while it waits. -/
theorem staysStopped_waiting : ∃ s, system.ReachableWhen StopsStarted s ∧
    s.stopped = some 1 ∧ s.run = .wait ∧ s.StaysStopped := by
  have h₀ : system.ReachableWhen StopsStarted {} := .init rfl
  have h₁ := h₀.next (e := Event.threadCreated) trivial rfl
  have h₂ := h₁.next (e := Event.setsRun) trivial rfl
  have h₃ := h₂.next (e := Event.sendsHeartbeat) trivial rfl
  have h₄ := h₃.next (e := Event.tests false) trivial rfl
  have h₅ := h₄.next (e := Event.stops) (show RunPc.wait ≠ .setRun from nofun) rfl
  exact ⟨_, h₅, rfl, rfl, staysStopped_of_stopsStarted h₅⟩

/-! ## A call of `stop` that comes first -/

/-- A flag that is true after the call of `stop` stays true, and the thread never
    comes to its end. -/
theorem never_returns (hstopped : s.stopped.isSome) (hrun : s.mRun = true)
    (hpc : s.run ≠ .returned) (h : system.Steps s s') :
    s'.stopped.isSome ∧ s'.mRun = true ∧ s'.run ≠ .returned := by
  apply h.invariant (I := fun s => s.stopped.isSome ∧ s.mRun = true ∧ s.run ≠ .returned)
  · rintro s₁ e s₂ ⟨hstopped, hrun, hpc⟩ - hs
    cases e with
    | stops =>
      obtain ⟨⟨-, hnone⟩, -⟩ := of_onlyIf hs
      rw [hnone] at hstopped
      cases hstopped
    | tests timedOut =>
      obtain ⟨-, rfl⟩ := of_onlyIf hs
      cases timedOut <;> simp [testRun, beginIteration, hrun, hstopped]
    | setsRun =>
      obtain ⟨-, rfl⟩ := of_onlyIf hs
      exact ⟨hstopped, rfl, nofun⟩
    | threadCreated | sendsHeartbeat =>
      obtain ⟨-, rfl⟩ := of_onlyIf hs
      exact ⟨hstopped, hrun, nofun⟩
  · exact ⟨hstopped, hrun, hpc⟩

/-- The computation exits before the thread of its monitor has run. -/
theorem not_forall_staysStopped : ¬ ∀ s, system.Reachable s → s.StaysStopped := by
  intro hall
  obtain ⟨s, hreach, hs⟩ := System.exists_reachable_of_run (M := system)
    (fun s => decide (s.stopped.isSome ∧ s.mRun = true))
    [.threadCreated, .stops, .setsRun] rfl (by decide)
  obtain ⟨hstopped, hrun⟩ := of_decide_eq_true hs
  have hfalse := (hall s hreach).mRun hstopped
  rw [hrun] at hfalse
  cases hfalse

end PerformanceMonitor

end Arras4Core.Computation
