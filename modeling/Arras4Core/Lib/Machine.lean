/-
  Arras4Core.Lib.Machine

  Objects seen through their calls.  A machine takes one call after the other
  and answers each; a call without an answer (one whose behaviour the language
  leaves undefined) ends the run.

  `answers_eq` is forward simulation: a relation between the states of two
  machines that every call keeps, and under which both give the same answer,
  makes their answers to any list of calls the same.  It may be restricted to
  runs each call of which satisfies a condition on the state it is made in.
  `runWhen_iff` exchanges one such condition for another.
-/

namespace Arras4Core.Lib

universe u v w x

/-- An object with states `σ`, calls `ι` and answers `ο`. -/
structure Machine (σ : Type u) (ι : Type v) (ο : Type w) where
  step : σ → ι → Option (ο × σ)

namespace Machine

variable {σ : Type u} {τ : Type x} {ι : Type v} {ο : Type w}

/-- The answers to a list of calls. -/
def answers (M : Machine σ ι ο) : σ → List ι → Option (List ο)
  | _, [] => some []
  | s, i :: is => (M.step s i).bind fun r => (answers M r.2 is).map (r.1 :: ·)

/-- Every call of the list is made in a state in which it satisfies `C`. -/
def RunWhen (M : Machine σ ι ο) (C : σ → ι → Prop) : σ → List ι → Prop
  | _, [] => True
  | s, i :: is => C s i ∧ ∀ o s', M.step s i = some (o, s') → RunWhen M C s' is

/-- The calls of the list, tested one by one. -/
def checks (M : Machine σ ι ο) (ok : σ → ι → Bool) : σ → List ι → Bool
  | _, [] => true
  | s, i :: is => ok s i && (M.step s i).all fun r => checks M ok r.2 is

theorem runWhen_of_checks {M : Machine σ ι ο} {C : σ → ι → Prop} (ok : σ → ι → Bool)
    (hok : ∀ s i, ok s i = true → C s i) {s : σ} {is : List ι} (h : M.checks ok s is = true) :
    M.RunWhen C s is := by
  induction is generalizing s with
  | nil => trivial
  | cons i is ih =>
    rw [checks, Bool.and_eq_true] at h
    refine ⟨hok s i h.1, fun o s' hstep => ih ?_⟩
    have hall := h.2
    rw [hstep] at hall
    exact hall

/-- Every run satisfies the condition that is always satisfied. -/
theorem runWhen_true (M : Machine σ ι ο) (s : σ) (is : List ι) :
    M.RunWhen (fun _ _ => True) s is := by
  induction is generalizing s with
  | nil => trivial
  | cons i is ih => exact ⟨trivial, fun _ s' _ => ih s'⟩

section Conditions

variable {M : Machine σ ι ο} {C D E : σ → ι → Prop} {I : σ → Prop}

/-- Two conditions that say the same of every call made where an invariant holds
    say the same of every run, provided the calls keep the invariant. -/
theorem runWhen_iff (hiff : ∀ s i, I s → E s i → (C s i ↔ D s i))
    (hstep : ∀ s i o s', I s → E s i → D s i → M.step s i = some (o, s') → I s')
    {s : σ} {is : List ι} (hI : I s) (hE : M.RunWhen E s is) :
    M.RunWhen C s is ↔ M.RunWhen D s is := by
  induction is generalizing s with
  | nil => exact Iff.rfl
  | cons i is ih =>
    obtain ⟨hfirst, hrest⟩ := hE
    have hnext : D s i → ∀ o s', M.step s i = some (o, s') →
        (M.RunWhen C s' is ↔ M.RunWhen D s' is) :=
      fun hD o s' hs => ih (hstep s i o s' hI hfirst hD hs) (hrest o s' hs)
    constructor
    · rintro ⟨hC, hafter⟩
      have hD := (hiff s i hI hfirst).mp hC
      exact ⟨hD, fun o s' hs => (hnext hD o s' hs).mp (hafter o s' hs)⟩
    · rintro ⟨hD, hafter⟩
      exact ⟨(hiff s i hI hfirst).mpr hD, fun o s' hs => (hnext hD o s' hs).mpr (hafter o s' hs)⟩

end Conditions

variable {M : Machine σ ι ο} {N : Machine τ ι ο} {C : σ → ι → Prop} {R : σ → τ → Prop}

/-- The answers of two machines agree along every run whose calls satisfy `C`. -/
theorem answers_eq
    (hstep : ∀ s t i, R s t → C s i →
      ∃ o s' t', M.step s i = some (o, s') ∧ N.step t i = some (o, t') ∧ R s' t')
    {s : σ} {t : τ} (hR : R s t) {is : List ι} (hrun : M.RunWhen C s is) :
    ∃ os, M.answers s is = some os ∧ N.answers t is = some os := by
  induction is generalizing s t with
  | nil => exact ⟨[], rfl, rfl⟩
  | cons i is ih =>
    obtain ⟨hC, hrest⟩ := hrun
    obtain ⟨o, s', t', hM, hN, hR'⟩ := hstep s t i hR hC
    obtain ⟨os, hos, hos'⟩ := ih hR' (hrest o s' hM)
    refine ⟨o :: os, ?_, ?_⟩
    · rw [answers, hM, Option.bind_some, hos, Option.map_some]
    · rw [answers, hN, Option.bind_some, hos', Option.map_some]

end Machine

end Arras4Core.Lib
