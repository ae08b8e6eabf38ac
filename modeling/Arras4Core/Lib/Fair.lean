/-
  Arras4Core.Lib.Fair

  Endless runs of a transition system.  Some of its events are steps of threads,
  the others happen to it.  A run is fair when a thread that stays ready is not
  left out for ever.

  A state is reached in every fair run when some measure goes down on the way:
  no step adds to it, and as long as there is something left, there is a thread
  whose next step takes from it and which stays so until somebody does.
-/

import Arras4Core.Lib.System

namespace Arras4Core.Lib

namespace System

variable {σ ε τ : Type*}

/-- Thread `t` can take a step. -/
def Ready (M : System σ ε) (thread : ε → Option τ) (t : τ) (s : σ) : Prop :=
  ∃ e, thread e = some t ∧ (M.step s e).isSome

/-- An endless run, in which nothing may happen for a while. -/
structure FairRun (M : System σ ε) (thread : ε → Option τ) (state : Nat → σ)
    (event : Nat → Option ε) : Prop where
  init : M.init (state 0)
  next : ∀ n, event n = none ∧ state (n + 1) = state n ∨
    ∃ e, event n = some e ∧ M.step (state n) e = some (state (n + 1))
  fair : ∀ t n, ∃ k, n ≤ k ∧
    (¬ M.Ready thread t (state k) ∨ ∃ e, event k = some e ∧ thread e = some t)

/-- What is left to do, and which threads' next steps do some of it. -/
structure Progress (M : System σ ε) (thread : ε → Option τ) (Done : σ → Prop)
    (left : σ → Nat) (Helps : τ → σ → Prop) : Prop where
  ready : ∀ t s, M.Reachable s → Helps t s → M.Ready thread t s
  helps : ∀ s, M.Reachable s → ¬ Done s → ∃ t, Helps t s
  le : ∀ s e s', M.Reachable s → M.step s e = some s' → left s' ≤ left s
  own : ∀ t s e s', M.Reachable s → Helps t s → thread e = some t → M.step s e = some s' →
    left s' < left s
  other : ∀ t s e s', M.Reachable s → Helps t s → M.step s e = some s' →
    left s' < left s ∨ Helps t s'

variable {M : System σ ε} {thread : ε → Option τ} {state : Nat → σ} {event : Nat → Option ε}

theorem FairRun.reachable (h : M.FairRun thread state event) (n : Nat) : M.Reachable (state n) := by
  induction n with
  | zero => exact .init h.init
  | succ n ih =>
    rcases h.next n with ⟨-, hsame⟩ | ⟨e, -, hs⟩
    · rw [hsame]
      exact ih
    · exact ih.next trivial hs

variable {Done : σ → Prop} {left : σ → Nat} {Helps : τ → σ → Prop}

/-- From `n` on a helpful thread stays helpful until less is left. -/
theorem FairRun.helps_or_lt (h : M.FairRun thread state event)
    (hp : M.Progress thread Done left Helps) {t : τ} {n : Nat} (hn : Helps t (state n)) (k : Nat) :
    (∃ j, left (state j) < left (state n)) ∨
      Helps t (state (n + k)) ∧ left (state (n + k)) ≤ left (state n) := by
  induction k with
  | zero => exact .inr ⟨hn, Nat.le_refl _⟩
  | succ k ih =>
    rcases ih with hlt | ⟨hhelps, hle⟩
    · exact .inl hlt
    rcases h.next (n + k) with ⟨-, hsame⟩ | ⟨e, -, hs⟩
    · rw [← Nat.add_assoc, hsame]
      exact .inr ⟨hhelps, hle⟩
    · rcases hp.other t _ e _ (h.reachable _) hhelps hs with hlt | hkept
      · exact .inl ⟨n + k + 1, Nat.lt_of_lt_of_le hlt hle⟩
      · have hstep := hp.le _ e _ (h.reachable _) hs
        exact .inr ⟨hkept, Nat.le_trans hstep hle⟩

/-- Every fair run comes to its end. -/
theorem FairRun.eventually (h : M.FairRun thread state event)
    (hp : M.Progress thread Done left Helps) : ∃ n, Done (state n) := by
  -- induction on what is left: from any point on, either it is done or less is left
  have hless : ∀ m n, left (state n) = m → ∃ k, Done (state k) := by
    intro m
    induction m using Nat.strongRecOn with
    | _ m ih =>
      intro n hm
      by_cases hdone : Done (state n)
      · exact ⟨n, hdone⟩
      obtain ⟨t, ht⟩ := hp.helps _ (h.reachable n) hdone
      have hlt : ∃ j, left (state j) < left (state n) := by
        obtain ⟨k, hk, hfair⟩ := h.fair t n
        obtain ⟨d, rfl⟩ := Nat.exists_eq_add_of_le hk
        rcases h.helps_or_lt hp ht d with hlt | ⟨hhelps, hle⟩
        · exact hlt
        rcases hfair with hnot | ⟨e, he, hown⟩
        · exact absurd (hp.ready t _ (h.reachable _) hhelps) hnot
        · rcases h.next (n + d) with ⟨hnone, -⟩ | ⟨e', he', hs⟩
          · cases he.symm.trans hnone
          · cases he.symm.trans he'
            have hlt := hp.own t _ e _ (h.reachable _) hhelps hown hs
            exact ⟨n + d + 1, Nat.lt_of_lt_of_le hlt hle⟩
      obtain ⟨j, hj⟩ := hlt
      exact ih _ (hm ▸ hj) j rfl
  exact hless _ 0 rfl

/-! ## Parts of a run -/

variable (M) in
/-- The system as it goes on from a given state. -/
def startedIn (s₀ : σ) : System σ ε where
  init s := s = s₀
  step := M.step

theorem Reachable.of_startedIn {s₀ s : σ} (h₀ : M.Reachable s₀)
    (h : (M.startedIn s₀).Reachable s) : M.Reachable s := by
  obtain ⟨_, rfl, hsteps⟩ := h
  exact h₀.steps hsteps

/-- What is left of a fair run is a fair run. -/
theorem FairRun.drop (h : M.FairRun thread state event) (n : Nat) :
    (M.startedIn (state n)).FairRun thread (fun k => state (n + k)) fun k => event (n + k) where
  init := rfl
  next k := h.next (n + k)
  fair t k := by
    obtain ⟨m, hm, hfair⟩ := h.fair t (n + k)
    obtain ⟨d, rfl⟩ := Nat.exists_eq_add_of_le hm
    refine ⟨k + d, Nat.le_add_right k d, ?_⟩
    rwa [← Nat.add_assoc]

theorem run_append {s : σ} {es es' : List ε} :
    M.run s (es ++ es') = (M.run s es).bind fun s' => M.run s' es' := by
  induction es generalizing s with
  | nil => rfl
  | cons e es ih =>
    show (M.step s e).bind _ = ((M.step s e).bind _).bind _
    rw [Option.bind_assoc]
    congr 1
    funext s'
    exact ih

/-- A trace after which no thread can take a step is a fair run: nothing happens from
    then on. -/
theorem exists_fairRun_of_run {s s' : σ} {es : List ε} (hinit : M.init s)
    (hrun : M.run s es = some s') (hquiet : ∀ t, ¬ M.Ready thread t s') :
    ∃ state event, M.FairRun thread state event ∧
      ∀ k s₁, M.run s (es.take k) = some s₁ → state k = s₁ := by
  refine ⟨fun k => (M.run s (es.take k)).getD s', fun k => es[k]?, ⟨?_, ?_, ?_⟩, ?_⟩
  · exact hinit
  · intro k
    rcases Nat.lt_or_ge k es.length with hk | hk
    · refine .inr ⟨es[k], List.getElem?_eq_getElem hk, ?_⟩
      have hsplit : es = es.take (k + 1) ++ es.drop (k + 1) := (List.take_append_drop _ es).symm
      rw [hsplit, run_append] at hrun
      obtain ⟨s₂, hs₂, -⟩ := Option.bind_eq_some_iff.mp hrun
      have hlast := hs₂
      rw [List.take_succ_eq_append_getElem hk, run_append] at hlast
      obtain ⟨s₁, hs₁, hstep⟩ := Option.bind_eq_some_iff.mp hlast
      obtain ⟨s₃, hs₃, hdone⟩ := Option.bind_eq_some_iff.mp hstep
      cases hdone
      rw [hs₁, hs₂]
      exact hs₃
    · refine .inl ⟨List.getElem?_eq_none hk, ?_⟩
      rw [List.take_of_length_le hk, List.take_of_length_le (Nat.le_succ_of_le hk)]
  · intro t k
    refine ⟨k + es.length, Nat.le_add_right _ _, .inl ?_⟩
    rw [List.take_of_length_le (Nat.le_add_left _ _), hrun]
    exact hquiet t
  · intro k s₁ hs₁
    show (M.run s (es.take k)).getD s' = s₁
    rw [hs₁]
    rfl

end System

end Arras4Core.Lib
