/-
  Arras4Core.Lib.System

  Guarded transition systems.  A system is a set of initial states and one
  executable step function: `step s e` is `some s'` when event `e` is enabled
  in state `s` and `none` when it is not.  The same definition is used to
  replay a concrete trace (`run`, by `decide`) and to prove invariants.

  Runs may be restricted by a condition on their steps: `StepsWhen C` is a run
  every step of which is taken in a state and with an event that satisfy `C`.
  `C := fun _ _ => True` gives all runs.
-/

import Mathlib.Logic.Relation

namespace Arras4Core.Lib

/-- A guarded transition system with states `σ` and events `ε`. -/
structure System (σ ε : Type*) where
  init : σ → Prop
  step : σ → ε → Option σ

/-- A step that leads to `s` where the guard `c` holds and is disabled elsewhere. -/
def onlyIf {σ : Type*} (c : Prop) [Decidable c] (s : σ) : Option σ := if c then some s else none

theorem of_onlyIf {σ : Type*} {c : Prop} [Decidable c] {s s' : σ} (h : onlyIf c s = some s') :
    c ∧ s' = s := by
  unfold onlyIf at h
  split at h
  · next hc => exact ⟨hc, (Option.some.inj h).symm⟩
  · cases h

theorem onlyIf_isSome {σ : Type*} {c : Prop} [Decidable c] {s : σ} (hc : c) :
    (onlyIf c s).isSome = true := by
  rw [onlyIf, if_pos hc]
  rfl

namespace System

variable {σ ε : Type*} (M : System σ ε)

/-- One step whose source state and event satisfy `C`. -/
def StepWhen (C : σ → ε → Prop) (s s' : σ) : Prop :=
  ∃ e, C s e ∧ M.step s e = some s'

/-- Any number of steps, each satisfying `C`. -/
def StepsWhen (C : σ → ε → Prop) : σ → σ → Prop :=
  Relation.ReflTransGen (M.StepWhen C)

/-- States reached from an initial state by steps that all satisfy `C`. -/
def ReachableWhen (C : σ → ε → Prop) (s : σ) : Prop :=
  ∃ s₀, M.init s₀ ∧ M.StepsWhen C s₀ s

/-- Any number of steps. -/
def Steps : σ → σ → Prop := M.StepsWhen fun _ _ => True

/-- States reached by any run. -/
def Reachable : σ → Prop := M.ReachableWhen fun _ _ => True

variable {M} {C D : σ → ε → Prop} {I : σ → Prop} {s s' : σ}

theorem StepsWhen.refl (s : σ) : M.StepsWhen C s s := Relation.ReflTransGen.refl

theorem StepsWhen.tail {s'' : σ} {e : ε} (h : M.StepsWhen C s s') (hc : C s' e)
    (hs : M.step s' e = some s'') : M.StepsWhen C s s'' :=
  Relation.ReflTransGen.tail h ⟨e, hc, hs⟩

/-- A property kept by every step that satisfies `C` is kept by every run of
    such steps. -/
theorem StepsWhen.invariant (h : M.StepsWhen C s s')
    (hstep : ∀ s e s', I s → C s e → M.step s e = some s' → I s')
    (hI : I s) : I s' := by
  induction h with
  | refl => exact hI
  | tail _ hst ih =>
    obtain ⟨e, hc, he⟩ := hst
    exact hstep _ e _ ih hc he

theorem ReachableWhen.init (h : M.init s) : M.ReachableWhen C s := ⟨s, h, .refl s⟩

theorem ReachableWhen.next {e : ε} (h : M.ReachableWhen C s) (hc : C s e)
    (hs : M.step s e = some s') : M.ReachableWhen C s' := by
  obtain ⟨s₀, h₀, hsteps⟩ := h
  exact ⟨s₀, h₀, hsteps.tail hc hs⟩

theorem ReachableWhen.steps (h : M.ReachableWhen C s) (hs : M.StepsWhen C s s') :
    M.ReachableWhen C s' := by
  obtain ⟨s₀, h₀, hsteps⟩ := h
  exact ⟨s₀, h₀, Relation.ReflTransGen.trans hsteps hs⟩

/-- An inductive invariant of the steps that satisfy `C` holds in every state
    such steps reach. -/
theorem ReachableWhen.invariant (h : M.ReachableWhen C s)
    (hinit : ∀ s, M.init s → I s)
    (hstep : ∀ s e s', I s → C s e → M.step s e = some s' → I s') : I s := by
  obtain ⟨s₀, h₀, hsteps⟩ := h
  exact hsteps.invariant hstep (hinit s₀ h₀)

/-- A condition that holds in all the states that are reached is a condition on
    every run. -/
theorem ReachableWhen.restrict (h : M.ReachableWhen C s)
    (hall : ∀ s e, M.ReachableWhen C s → C s e → D s e) : M.ReachableWhen D s := by
  obtain ⟨s₀, h₀, hsteps⟩ := h
  refine ⟨s₀, h₀, ?_⟩
  induction hsteps with
  | refl => exact .refl _
  | tail hprefix hst ih =>
    obtain ⟨e, hc, he⟩ := hst
    exact ih.tail (hall _ e ⟨s₀, h₀, hprefix⟩ hc) he

/-- One step is a run. -/
theorem Steps.single {e : ε} (h : M.step s e = some s') : M.Steps s s' :=
  Relation.ReflTransGen.single ⟨e, trivial, h⟩

/-! ## Replaying a trace -/

variable (M)

/-- Replay a list of events; `none` if one of them is disabled. -/
def run : σ → List ε → Option σ
  | s, [] => some s
  | s, e :: es => (M.step s e).bind fun s' => run s' es

variable {M}

theorem run_steps : ∀ {es : List ε} {s s' : σ}, M.run s es = some s' → M.Steps s s'
  | [], s, s', h => by
    simp only [run, Option.some.injEq] at h
    exact h ▸ .refl s
  | e :: es, s, s', h => by
    obtain ⟨t, ht, hrest⟩ := Option.bind_eq_some_iff.mp h
    exact Relation.ReflTransGen.head ⟨e, trivial, ht⟩ (run_steps hrest)

/-- A trace that can be replayed from an initial state and ends in a state
    with property `p` gives a reachable state with property `p`. -/
theorem exists_reachable_of_run (p : σ → Bool) (es : List ε) (hs : M.init s)
    (h : (M.run s es).any p = true) : ∃ s', M.Reachable s' ∧ p s' = true := by
  obtain ⟨s', hrun, hp⟩ := (Option.any_eq_true _ _).mp h
  exact ⟨s', ⟨s, hs, run_steps hrun⟩, hp⟩

variable (M) in
/-- The system restricted to the steps that pass a test. -/
def guarded (ok : σ → ε → Bool) : System σ ε where
  init := M.init
  step s e := if ok s e then M.step s e else none

/-- A trace all of whose steps pass a test that implies `C`. -/
theorem exists_reachableWhen_of_run (p : σ → Bool) (ok : σ → ε → Bool) (es : List ε)
    (hs : M.init s) (hok : ∀ s e, ok s e = true → C s e)
    (h : ((M.guarded ok).run s es).any p = true) : ∃ s', M.ReachableWhen C s' ∧ p s' = true := by
  obtain ⟨s', hrun, hp⟩ := (Option.any_eq_true _ _).mp h
  refine ⟨s', ⟨s, hs, ?_⟩, hp⟩
  refine Relation.ReflTransGen.mono ?_ s s' (run_steps hrun)
  rintro t t' ⟨e, -, ht⟩
  obtain ⟨htest, ht⟩ := Option.ite_none_right_eq_some.mp ht
  exact ⟨e, hok t e htest, ht⟩

/-- A trace in two parts: what holds between the state the first part reaches
    and the state the second part ends in. -/
theorem exists_steps_of_run (p : σ → σ → Bool) (es₁ es₂ : List ε) (hs : M.init s)
    (h : ((M.run s es₁).any fun t => (M.run t es₂).any (p t)) = true) :
    ∃ t t', M.Reachable t ∧ M.Steps t t' ∧ p t t' = true := by
  obtain ⟨t, ht, hrest⟩ := (Option.any_eq_true _ _).mp h
  obtain ⟨t', ht', hp⟩ := (Option.any_eq_true _ _).mp hrest
  exact ⟨t, t', ⟨s, hs, run_steps ht⟩, run_steps ht', hp⟩

/-- A measure that no step adds to and that every step of some kind uses up bounds
    how many steps of that kind a run can have. -/
theorem length_filter_le_of_run (own : ε → Bool) {m : σ → Nat}
    (hstep : ∀ s e s', I s → M.step s e = some s' → I s' ∧ m s' + (own e).toNat ≤ m s)
    {es : List ε} (hI : I s) (h : M.run s es = some s') :
    (es.filter own).length + m s' ≤ m s := by
  induction es generalizing s with
  | nil =>
    cases h
    simp
  | cons e es ih =>
    obtain ⟨t, ht, hrest⟩ := Option.bind_eq_some_iff.mp h
    obtain ⟨hI', hle⟩ := hstep s e t hI ht
    have hrun := ih hI' hrest
    cases hown : own e with
    | false =>
      rw [List.filter_cons_of_neg (by simp [hown])]
      omega
    | true =>
      rw [hown, Bool.toNat_true] at hle
      rw [List.filter_cons_of_pos hown, List.length_cons]
      omega

/-! ## Histories -/

variable (M) in
/-- The system with a history beside its state, which the steps write and never
    read. -/
def recording {η : Type*} (h₀ : η) (record : σ → ε → η → η) : System (σ × η) ε where
  init s := M.init s.1 ∧ s.2 = h₀
  step s e := (M.step s.1 e).map fun s' => (s', record s.1 e s.2)

theorem of_recording_step {η : Type*} {h₀ : η} {record : σ → ε → η → η} {s s' : σ × η} {e : ε}
    (h : (M.recording h₀ record).step s e = some s') :
    M.step s.1 e = some s'.1 ∧ s'.2 = record s.1 e s.2 := by
  obtain ⟨t, ht, rfl⟩ := Option.map_eq_some_iff.mp h
  exact ⟨ht, rfl⟩

theorem recording_step {η : Type*} {h₀ : η} {record : σ → ε → η → η} {s s' : σ} {e : ε}
    (h : M.step s e = some s') (hist : η) :
    (M.recording h₀ record).step (s, hist) e = some (s', record s e hist) :=
  Option.map_eq_some_iff.mpr ⟨s', h, rfl⟩

end System

end Arras4Core.Lib
