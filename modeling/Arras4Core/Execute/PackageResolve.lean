/-
  Arras4Core.Execute.PackageResolve

  `RezContext::doPackageResolve` once the resolver process is spawned, as a
  transition system: the process, the detached capture thread that reads its
  output, the exit monitor, and the thread that resolves.  The process and the
  capture thread take the steps of `IoCapture.system`.

  The exit monitor reports the exit of the process, the capture thread reports
  its output, and nothing orders the two: the output is looked at as soon as the
  exit is known.
-/

import Arras4Core.Execute.IoCapture

namespace Arras4Core.Execute

open Arras4Core.Lib

/-- The thread that is in `doPackageResolve`, after `spawn`. -/
inductive ResolvePc
  | waits
  | tests (finished : Option Int)
  | returned (ok : Bool)
  deriving DecidableEq

/-- `doPackageResolve` makes these of the exit status of the process, if it has
    exited in time, and of `mIoCapture->out()`. -/
def allErrors (finished : Option Int) (out : List UInt8) : String :=
  match finished with
  | none => " : process timed out"
  | some status =>
    (if status ≠ 0 then " : error code " ++ toString status else "") ++
      (if out = [] then " : no output context was  produced" else "")

structure PackageResolve where
  io : IoCapture
  /-- the status with which the process has exited -/
  exited : Option Int := none
  /-- `mStatus`, when the `Process` is `Terminated` -/
  mStatus : Option Int := none
  pc : ResolvePc := .waits
  /-- what the caller has taken from `mIoCapture` -/
  context : Option (List UInt8) := none

namespace PackageResolve

inductive Event
  | io (e : IoCapture.Event)
  | exits (status : Int)
  | reports
  | waitReturns
  | waitTimesOut
  | testsOutput
  | takesContext

/-- An exit closes what the process has left open. -/
def step (capacity : Nat) (s : PackageResolve) : Event → Option PackageResolve
  | .io e => (IoCapture.step capacity s.io e).map fun io => { s with io := io }
  | .exits status =>
    onlyIf (s.io.chunks = [] ∧ s.exited = none)
      { s with
        io := { s.io with pipe := fun fd => { s.io.pipe fd with closed := true } }
        exited := some status }
  | .reports => onlyIf (s.exited ≠ none ∧ s.mStatus = none) { s with mStatus := s.exited }
  | .waitReturns =>
    onlyIf (s.pc = .waits ∧ s.mStatus ≠ none) { s with pc := .tests s.mStatus }
  | .waitTimesOut => onlyIf (s.pc = .waits) { s with pc := .tests none }
  | .testsOutput =>
    match s.pc with
    | .tests finished =>
      some { s with pc := .returned (allErrors finished (s.io.captured .out)).isEmpty }
    | _ => none
  -- `resolvePackages`, or `setPackages` for `setContext`
  | .takesContext =>
    onlyIf (s.pc = .returned true ∧ s.context = none)
      { s with context := some (s.io.captured .out) }

/-- A resolver process that writes `chunks` and exits. -/
def system (capacity : Nat) (chunks : List Chunk) : System PackageResolve Event where
  init s := s = { io := { chunks := chunks } }
  step := step capacity

variable {capacity : Nat} {chunks : List Chunk} {s s' : PackageResolve}

/-! ## A context that is complete -/

/-- When `doPackageResolve` has returned true, `out()` is the whole of what the
    process wrote to its standard output, and so is the context that was taken. -/
structure Complete (chunks : List Chunk) (s : PackageResolve) : Prop where
  out : s.pc = .returned true → s.io.captured .out = bytesOf .out chunks
  context : ∀ context, s.context = some context → context = bytesOf .out chunks

/-- The capture thread has nothing left to hand over of the standard output. -/
def Drained (s : PackageResolve) : Prop :=
  (s.io.pipe .out).unread = [] ∧ s.io.pc.held .out = []

/-- The output of a process that has succeeded is looked at when it is there. -/
def TestsDrained (s : PackageResolve) : Event → Prop
  | .testsOutput => s.pc = .tests (some 0) → s.io.captured .out ≠ [] → s.Drained
  | _ => True

theorem isEmpty_allErrors {finished : Option Int} {out : List UInt8} :
    (allErrors finished out).isEmpty = true ↔ finished = some 0 ∧ out ≠ [] := by
  rw [String.isEmpty_iff]
  cases finished with
  | none => simp [allErrors]
  | some status =>
    by_cases hstatus : status = 0
    · by_cases hout : out = [] <;> simp [allErrors, hstatus, hout]
    · simp [allErrors, hstatus]

/-- What has happened to the process, by what is known of it. -/
structure Invariant (chunks : List Chunk) (s : PackageResolve) : Prop where
  flows : s.io.Flows chunks
  exited : s.exited ≠ none → s.io.chunks = []
  mStatus : s.mStatus ≠ none → s.exited ≠ none
  tests : ∀ status, s.pc = .tests (some status) → s.mStatus ≠ none
  complete : s.Complete chunks

theorem Invariant.next (h : s.Invariant chunks) {e : Event} (hcond : s.TestsDrained e)
    (hs : step capacity s e = some s') : s'.Invariant chunks := by
  cases e with
  | io e =>
    obtain ⟨io, hio, rfl⟩ := Option.map_eq_some_iff.mp hs
    have hmoves := IoCapture.moves hio
    exact
      { flows := h.flows.next hmoves
        exited := fun hexited => IoCapture.chunks_eq_nil_of_moves (h.exited hexited) hmoves
        mStatus := h.mStatus
        tests := h.tests
        complete :=
          { out := fun hpc => h.flows.captured_of_moves (h.complete.out hpc) hmoves
            context := h.complete.context } }
  | exits status =>
    obtain ⟨⟨hchunks, -⟩, rfl⟩ := of_onlyIf hs
    exact
      { flows := ⟨h.flows.flow, fun _ _ => hchunks, h.flows.atEnd, h.flows.ended⟩
        exited := fun _ => hchunks
        mStatus := fun _ => nofun
        tests := h.tests
        complete := ⟨h.complete.out, h.complete.context⟩ }
  | reports =>
    obtain ⟨⟨hexited, -⟩, rfl⟩ := of_onlyIf hs
    exact
      { h with
        mStatus := fun _ => hexited
        tests := fun _ _ => hexited
        complete := ⟨h.complete.out, h.complete.context⟩ }
  | waitReturns =>
    obtain ⟨⟨-, hstatus⟩, rfl⟩ := of_onlyIf hs
    exact { h with tests := fun _ _ => hstatus, complete := ⟨nofun, h.complete.context⟩ }
  | waitTimesOut =>
    obtain ⟨-, rfl⟩ := of_onlyIf hs
    exact { h with tests := nofun, complete := ⟨nofun, h.complete.context⟩ }
  | testsOutput =>
    simp only [step] at hs
    split at hs
    case h_2 => cases hs
    next finished hpc =>
      cases hs
      refine { h with tests := nofun, complete := ⟨fun hok => ?_, h.complete.context⟩ }
      obtain ⟨rfl, hout⟩ := isEmpty_allErrors.mp (ResolvePc.returned.inj hok)
      obtain ⟨hunread, hheld⟩ := hcond hpc hout
      -- the process has exited, so there is nothing left to come
      have hchunks := h.exited (h.mStatus (h.tests 0 hpc))
      have hflow := h.flows.flow .out
      rw [hheld, hunread, hchunks] at hflow
      simpa using hflow
  | takesContext =>
    obtain ⟨⟨hpc, -⟩, rfl⟩ := of_onlyIf hs
    refine { h with complete := ⟨h.complete.out, fun context hcontext => ?_⟩ }
    cases hcontext
    exact h.complete.out hpc

/-- **A resolved package context is complete** when the output is looked at after
    the capture thread has handed it over. -/
theorem complete_of_testsDrained (h : (system capacity chunks).ReachableWhen TestsDrained s) :
    s.Complete chunks := by
  have hinvariant : s.Invariant chunks := by
    apply h.invariant (I := Invariant chunks)
    · rintro s₀ rfl
      exact
        { flows := ⟨fun _ => rfl, nofun, nofun, nofun⟩
          exited := nofun
          mStatus := nofun
          tests := nofun
          complete := ⟨nofun, nofun⟩ }
    · intro s₁ e s₂ hI hcond hs
      exact hI.next hcond hs
  exact hinvariant.complete

/-! ## Two schedules -/

/-- A process that writes two bytes and succeeds. -/
def twoBytes : List Chunk := [(.out, [1]), (.out, [2])]

/-- The capture thread is through when the exit is reported. -/
theorem complete_twoBytes : ∃ s, (system 65536 twoBytes).ReachableWhen TestsDrained s ∧
    s.context = some [1, 2] ∧ s.Complete twoBytes := by
  have h₀ : (system 65536 twoBytes).ReachableWhen TestsDrained { io := { chunks := twoBytes } } :=
    .init rfl
  have h₁ := h₀.next (e := Event.io (.childWrites 1)) trivial rfl
  have h₂ := h₁.next (e := Event.io .childReturns) trivial rfl
  have h₃ := h₂.next (e := Event.io (.childWrites 1)) trivial rfl
  have h₄ := h₃.next (e := Event.io .childReturns) trivial rfl
  have h₅ := h₄.next (e := Event.exits 0) trivial rfl
  have h₆ := h₅.next (e := Event.io .calls) trivial rfl
  have h₇ := h₆.next (e := Event.io (.reads 2)) trivial rfl
  have h₈ := h₇.next (e := Event.io .appends) trivial rfl
  have h₉ := h₈.next (e := Event.reports) trivial rfl
  have h₁₀ := h₉.next (e := Event.waitReturns) trivial rfl
  have h₁₁ := h₁₀.next (e := Event.testsOutput) (fun _ _ => ⟨rfl, rfl⟩) rfl
  have h₁₂ := h₁₁.next (e := Event.takesContext) trivial rfl
  exact ⟨_, h₁₂, rfl, complete_of_testsDrained h₁₂⟩

/-- The exit is reported before the second byte is read. -/
theorem not_forall_complete : ¬ ∀ capacity chunks s,
    (system capacity chunks).Reachable s → s.Complete chunks := by
  intro hall
  obtain ⟨s, hreach, hs⟩ := System.exists_reachable_of_run (M := system 65536 twoBytes)
    (fun s => decide (s.pc = .returned true ∧ s.io.captured .out = [1]))
    [.io (.childWrites 1), .io .calls, .io (.reads 1), .io .appends, .io .childReturns,
      .io (.childWrites 1), .io .childReturns, .exits 0, .reports, .waitReturns, .testsOutput]
    rfl (by decide)
  obtain ⟨hpc, hout⟩ := of_decide_eq_true hs
  have hall := (hall _ _ s hreach).out hpc
  rw [hout] at hall
  cases hall

end PackageResolve

end Arras4Core.Execute
