/-
  Arras4Core.Dispatch.ExitReason

  The reason the dispatcher exits for.  `postQuit` leaves a dispatcher that is
  exiting alone; `postError` does not look at the state.  The first reason wins
  in every run in which `postError` is never executed after an exit with another
  reason, or after the exit is complete, and not in the others.
-/

import Arras4Core.Dispatch.MessageDispatcher

namespace Arras4Core.Dispatch

open Arras4Core.Lib
open Arras4Core.Api (Exception UUID)

namespace MessageDispatcher

variable {Envelope : Type*} {s s' s₁ s₂ : MessageDispatcher Envelope}

/-- The dispatcher has been told to exit. -/
def isExiting (s : MessageDispatcher Envelope) : Prop :=
  s.mState = .Exiting ∨ s.mState = .Exited

/-- The reason with which a step executes `postError`. -/
def Event.posts : Event Envelope → Option DispatcherExitReason
  | .postError reason | .incomingPosts reason | .outgoingPosts reason | .handlerPosts reason =>
    some reason
  | _ => none

/-- `postError` is not executed in state `Exited`, nor in state `Exiting` with a
    reason other than the one recorded. -/
def NoLateError (s : MessageDispatcher Envelope) (e : Event Envelope) : Prop :=
  ∀ reason, e.posts = some reason →
    s.mState ≠ .Exited ∧ (s.mState = .Exiting → reason = s.mExitReason)

/-! ## Exits with one reason -/

/-- `s'` comes after `s` without a change of the exit reason. -/
structure ExitsAs (s s' : MessageDispatcher Envelope) : Prop where
  exiting : s'.isExiting
  exited : s.mState = .Exited → s'.mState = .Exited
  reason : s'.mExitReason = s.mExitReason
  reports : ∃ reports, s'.exitReports = s.exitReports ++ reports ∧
    ∀ reason ∈ reports, reason = s.mExitReason

theorem ExitsAs.refl (h : s.isExiting) : s.ExitsAs s :=
  ⟨h, id, rfl, [], by simp, by simp⟩

theorem ExitsAs.trans (h₁ : s.ExitsAs s₁) (h₂ : s₁.ExitsAs s₂) : s.ExitsAs s₂ where
  exiting := h₂.exiting
  exited h := h₂.exited (h₁.exited h)
  reason := h₂.reason.trans h₁.reason
  reports := by
    obtain ⟨reports₁, heq₁, hall₁⟩ := h₁.reports
    obtain ⟨reports₂, heq₂, hall₂⟩ := h₂.reports
    refine ⟨reports₁ ++ reports₂, by rw [heq₂, heq₁, List.append_assoc], fun reason hmem => ?_⟩
    obtain hmem | hmem := List.mem_append.mp hmem
    · exact hall₁ reason hmem
    · exact (hall₂ reason hmem).trans h₁.reason

/-- A step that writes none of the members of the exit. -/
theorem ExitsAs.of_eq (h : s.isExiting) (hstate : s'.mState = s.mState)
    (hreason : s'.mExitReason = s.mExitReason) (hreports : s'.exitReports = s.exitReports) :
    s.ExitsAs s' where
  exiting := by unfold isExiting; rw [hstate]; exact h
  exited := hstate.trans
  reason := hreason
  reports := ⟨[], by simp [hreports], by simp⟩

theorem postQuit_of_exiting (h : s.isExiting) : s.postQuit = s := if_pos h

theorem postQuit_of_running (h : ¬ s.isExiting) :
    s.postQuit = { s with mExitReason := .Quit, mState := .Exiting } := if_neg h

/-- `postError` with the reason recorded, in state `Exiting`, writes what is there. -/
theorem exitsAs_postError (h : s.isExiting) {reason : DispatcherExitReason}
    (hlate : s.mState ≠ .Exited ∧ (s.mState = .Exiting → reason = s.mExitReason)) :
    s.ExitsAs (s.postError reason) := by
  have hstate : s.mState = .Exiting := h.resolve_right hlate.1
  exact .of_eq h hstate.symm (hlate.2 hstate) rfl

/-! ## One step, and every run -/

variable [DecidableEq Envelope] {classId : Envelope → UUID}

/-- One step of a dispatcher that is exiting. -/
theorem exitsAs_step (h : s.isExiting) {e : Event Envelope} (hlate : s.NoLateError e)
    (hs : step classId s e = some s') : s.ExitsAs s' := by
  cases e with
  | send envelope =>
    cases hs
    unfold MessageDispatcher.send
    split <;> exact .of_eq h rfl rfl rfl
  | startQueueing =>
    obtain ⟨-, rfl⟩ := of_onlyIf hs
    -- refused: the dispatcher has left `NotStarted` for good
    have hstate : s.mState ≠ .NotStarted := by obtain h | h := h <;> rw [h] <;> nofun
    rw [MessageDispatcher.startQueueing, if_pos hstate]
    exact .refl h
  | startDispatching =>
    obtain ⟨-, rfl⟩ := of_onlyIf hs
    have hstate : s.mState ≠ .Queueing := by obtain h | h := h <;> rw [h] <;> nofun
    rw [MessageDispatcher.startDispatching, if_pos hstate]
    exact .refl h
  | postQuit =>
    obtain ⟨-, rfl⟩ := of_onlyIf hs
    rw [postQuit_of_exiting h]
    exact .refl h
  | postError reason =>
    obtain ⟨-, rfl⟩ := of_onlyIf hs
    -- the condition: the reason is the one recorded
    exact exitsAs_postError h (hlate reason rfl)
  | waitForExitReturns =>
    obtain ⟨-, rfl⟩ := of_onlyIf hs
    exact { ExitsAs.refl h with reports := ⟨[s.mExitReason], rfl, by simp⟩ }
  | incomingPushes envelope =>
    obtain ⟨-, rfl⟩ := of_onlyIf hs
    unfold MessageDispatcher.pushIncoming
    split <;> exact .of_eq h rfl rfl rfl
  | incomingPosts reason | outgoingPosts reason | handlerPosts reason =>
    obtain ⟨-, rfl⟩ := of_onlyIf hs
    exact { exitsAs_postError h (hlate reason rfl) with }
  | outgoingPops =>
    obtain ⟨-, rfl⟩ := of_onlyIf hs
    unfold MessageDispatcher.popOutgoing
    split <;> exact .of_eq h rfl rfl rfl
  | handlerPops =>
    obtain ⟨-, rfl⟩ := of_onlyIf hs
    unfold MessageDispatcher.popIncoming
    split <;> exact .of_eq h rfl rfl rfl
  | masterExits =>
    obtain ⟨-, rfl⟩ := of_onlyIf hs
    exact { ExitsAs.refl h with exiting := .inr rfl, exited := fun _ => rfl }
  | _ =>
    obtain ⟨-, rfl⟩ := of_onlyIf hs
    exact .of_eq h rfl rfl rfl

/-- What `postError` leaves behind, whichever thread executes it. -/
theorem posts_step {e : Event Envelope} {reason : DispatcherExitReason}
    (hposts : e.posts = some reason) (hs : step classId s e = some s') :
    s'.mState = .Exiting ∧ s'.mExitReason = reason := by
  cases e with
  | postError r | incomingPosts r | outgoingPosts r | handlerPosts r =>
    obtain ⟨-, rfl⟩ := of_onlyIf hs
    cases hposts
    exact ⟨rfl, rfl⟩
  | _ => cases hposts

/-- The condition is exact: a late error changes the exit at once. -/
theorem exitsAs_step_iff (h : s.isExiting) {e : Event Envelope}
    (hs : step classId s e = some s') : s.ExitsAs s' ↔ s.NoLateError e := by
  refine ⟨fun hex reason hposts => ?_, fun hlate => exitsAs_step h hlate hs⟩
  obtain ⟨hstate, hreason⟩ := posts_step hposts hs
  refine ⟨fun hexited => ?_, fun _ => hreason.symm.trans hex.reason⟩
  -- `postError` would take the dispatcher back from `Exited` to `Exiting`
  exact absurd ((hex.exited hexited).symm.trans hstate) nofun

/-- A run of a dispatcher that is exiting. -/
theorem exitsAs_steps (h : s.isExiting)
    (hsteps : (system classId).StepsWhen NoLateError s s') : s.ExitsAs s' :=
  hsteps.invariant (I := fun t => s.ExitsAs t)
    (fun _ _ _ hex hlate hs => hex.trans (exitsAs_step hex.exiting hlate hs)) (.refl h)

/-- The first reason to exit wins, in every run of steps that satisfy `C`. -/
structure FirstReasonWins (classId : Envelope → UUID)
    (C : MessageDispatcher Envelope → Event Envelope → Prop) : Prop where
  /-- From the moment the dispatcher exits, neither the reason nor, but for
      `Exiting` to `Exited`, the state changes. -/
  stable : ∀ s s', (system classId).ReachableWhen C s → s.isExiting →
    (system classId).StepsWhen C s s' → s.ExitsAs s'
  /-- A quit that was accepted is what `waitForExit` reports. -/
  quit : ∀ s s₁ s₂, (system classId).ReachableWhen C s → ¬ s.isExiting →
    step classId s .postQuit = some s₁ → (system classId).StepsWhen C s₁ s₂ →
      s₂.mExitReason = .Quit ∧
      ∃ reports, s₂.exitReports = s₁.exitReports ++ reports ∧ ∀ reason ∈ reports, reason = .Quit

/-- **The first reason to exit wins** in every run without a late error. -/
theorem firstReasonWins_of_noLateError : FirstReasonWins classId NoLateError where
  stable _ _ _ hexiting hsteps := exitsAs_steps hexiting hsteps
  quit s s₁ s₂ _ hexiting hs hsteps := by
    obtain ⟨-, rfl⟩ := of_onlyIf hs
    rw [postQuit_of_running hexiting] at hsteps ⊢
    have hex := exitsAs_steps (.inl rfl) hsteps
    exact ⟨hex.reason, hex.reports⟩

/-- A dispatcher that is queueing is told to quit. -/
def acceptsQuit : List (Event UUID) :=
  [.startQueueing, .masterLocks, .masterStartsIncoming, .masterTestsDispatching,
    .incomingTests, .postQuit]

/-- The peer disconnects before the master has woken up; the dispatcher then exits
    as usual. -/
def disconnectsLate : List (Event UUID) :=
  [.getEnvelopeThrows .peerDisconnectException, .incomingPosts .Disconnected, .incomingTests,
    .masterWakesDispatching, .masterTestsDispatching,
    .masterShutsIncoming, .masterShutsOutgoing, .masterShutsSource, .masterUnlocks,
    .masterJoinsIncoming, .masterJoinsOutgoing, .masterJoinsHandler, .masterNotifies, .masterExits,
    .joinMaster, .waitForExitReturns]

/-- A quit that was accepted is reported as a disconnection. -/
theorem not_firstReasonWins :
    ¬ FirstReasonWins (id : UUID → UUID) fun _ _ => True := by
  intro hwins
  obtain ⟨s, s', hreach, hsteps, hs⟩ := System.exists_steps_of_run (M := system id)
    (fun s s' => decide (s.mState = .Exiting ∧ s.mExitReason = .Quit ∧
      s'.mState = .Exited ∧ s'.mExitReason = .Disconnected ∧ s'.exitReports = [.Disconnected]))
    acceptsQuit disconnectsLate ⟨.None, 0, rfl⟩ (by decide)
  obtain ⟨hstate, hquit, -, hdisconnected, -⟩ := of_decide_eq_true hs
  have hex := hwins.stable s s' hreach (.inl hstate) hsteps
  exact absurd (hdisconnected.symm.trans (hex.reason.trans hquit)) nofun

end MessageDispatcher

end Arras4Core.Dispatch
