/-
  Arras4Core.Lib.Call

  Calls of stateful code that may throw, as `EStateM`: what a call changed
  before it threw stays changed.  The lemmas step over one call of a sequence
  or of a loop; `attempt` catches what a call throws; `EndsAlike` compares calls
  on two kinds of state; `onField` makes a call on a component of the state.
-/

namespace Arras4Core.Lib

universe u

variable {ε σ τ α β : Type u}

/-! ## Sequences -/

theorem bind_of_ok {x : EStateM ε σ α} {f : α → EStateM ε σ β} {s s' : σ} {a : α}
    (h : x s = .ok a s') : (x >>= f) s = f a s' := by
  show EStateM.bind x f s = _
  simp only [EStateM.bind, h]

theorem bind_of_error {x : EStateM ε σ α} {f : α → EStateM ε σ β} {s s' : σ} {e : ε}
    (h : x s = .error e s') : (x >>= f) s = .error e s' := by
  show EStateM.bind x f s = _
  simp only [EStateM.bind, h]

/-- A sequence that returns has returned from both of its calls. -/
theorem of_bind_ok {x : EStateM ε σ α} {f : α → EStateM ε σ β} {s s' : σ} {b : β}
    (h : (x >>= f) s = .ok b s') : ∃ a s₁, x s = .ok a s₁ ∧ f a s₁ = .ok b s' := by
  cases hx : x s with
  | ok a s₁ => exact ⟨a, s₁, rfl, (bind_of_ok hx).symm.trans h⟩
  | error e s₁ => cases (bind_of_error hx).symm.trans h

theorem discard_of_ok {x : EStateM ε σ α} {s s' : σ} {a : α} (h : x s = .ok a s') :
    (discard x) s = .ok ⟨⟩ s' := by
  show EStateM.map _ x s = _
  simp only [EStateM.map, h]

theorem discard_of_error {x : EStateM ε σ α} {s s' : σ} {e : ε} (h : x s = .error e s') :
    (discard x) s = .error e s' := by
  show EStateM.map _ x s = _
  simp only [EStateM.map, h]

theorem get_bind (f : σ → EStateM ε σ β) (s : σ) : (get >>= f) s = f s s := rfl

theorem modify_bind (g : σ → σ) (f : PUnit → EStateM ε σ β) (s : σ) :
    (modify g >>= f) s = f ⟨⟩ (g s) := rfl

theorem pure_run (a : α) (s : σ) : (pure a : EStateM ε σ α) s = .ok a s := rfl

/-- A call that ends as `r` says, in state `s`. -/
def resultOf (r : Except ε α) (s : σ) : EStateM.Result ε σ α :=
  match r with
  | .ok a => .ok a s
  | .error e => .error e s

@[simp] theorem resultOf_ok (a : α) (s : σ) :
    (resultOf (.ok a) s : EStateM.Result ε σ α) = .ok a s :=
  rfl

@[simp] theorem resultOf_error (e : ε) (s : σ) :
    (resultOf (.error e) s : EStateM.Result ε σ α) = .error e s := rfl

theorem of_resultOf_ok {r : Except ε α} {s s' : σ} {a : α} (h : resultOf r s = .ok a s') :
    r = .ok a ∧ s = s' := by
  cases r with
  | ok b =>
    obtain ⟨rfl, rfl⟩ := EStateM.Result.ok.inj h
    exact ⟨rfl, rfl⟩
  | error e => cases h

theorem exists_eq_resultOf (x : EStateM.Result ε σ α) : ∃ r s, x = resultOf r s := by
  cases x with
  | ok a s => exact ⟨.ok a, s, rfl⟩
  | error e s => exact ⟨.error e, s, rfl⟩

theorem resultOf_inj {r r' : Except ε α} {s s' : σ}
    (h : (resultOf r s : EStateM.Result ε σ α) = resultOf r' s') : r = r' ∧ s = s' := by
  cases r <;> cases r' <;> cases h <;> exact ⟨rfl, rfl⟩

/-- A call that ends as `x` does, up to what is made of the result, throws when `x`
    does. -/
theorem throws_iff_of_map_eq {γ : Type u} {r : Except ε α} {s : σ} {x : Except ε β} {f : α → γ}
    {g : β → γ} (h : r.map f = x.map g) :
    (∃ e s', (resultOf r s : EStateM.Result ε σ α) = .error e s') ↔ ∃ e, x = .error e := by
  cases r with
  | ok a =>
    cases x with
    | ok b =>
      constructor
      · rintro ⟨e, s', he⟩
        cases he
      · rintro ⟨e, he⟩
        cases he
    | error e => cases h
  | error e =>
    cases x with
    | ok b => cases h
    | error e' => exact ⟨fun _ => ⟨e', rfl⟩, fun _ => ⟨e, s, rfl⟩⟩

/-- And it returns when `x` does. -/
theorem returns_iff_of_map_eq {γ : Type u} {r : Except ε α} {s : σ} {x : Except ε β} {f : α → γ}
    {g : β → γ} (h : r.map f = x.map g) (y : γ) :
    (∃ a s', (resultOf r s : EStateM.Result ε σ α) = .ok a s' ∧ f a = y) ↔
      ∃ b, x = .ok b ∧ g b = y := by
  cases r with
  | ok a =>
    cases x with
    | ok b =>
      have hvalue : f a = g b := Except.ok.inj h
      constructor
      · rintro ⟨a', s', ha, hy⟩
        obtain ⟨rfl, rfl⟩ := EStateM.Result.ok.inj ha
        exact ⟨b, rfl, hvalue.symm.trans hy⟩
      · rintro ⟨b', hx, hy⟩
        obtain rfl := Except.ok.inj hx
        exact ⟨a, s, rfl, hvalue.trans hy⟩
    | error e => cases h
  | error e =>
    cases x with
    | ok b => cases h
    | error e' =>
      constructor
      · rintro ⟨a, s', ha, -⟩
        cases ha
      · rintro ⟨b, hx, -⟩
        cases hx

/-! ## Loops -/

theorem forM_cons_of_ok {f : α → EStateM ε σ PUnit} {a : α} {l : List α} {s s' : σ}
    (h : f a s = .ok ⟨⟩ s') : (a :: l).forM f s = l.forM f s' := bind_of_ok h

/-- A loop of modifications runs through the list. -/
theorem forM_modify (g : α → σ → σ) (l : List α) (s : σ) :
    l.forM (fun a => (modify (g a) : EStateM ε σ PUnit)) s
      = .ok ⟨⟩ (l.foldl (fun s a => g a s) s) := by
  induction l generalizing s with
  | nil => rfl
  | cons a l ih => exact ih (g a s)

/-! ## Catching -/

/-- The call inside a `try` block: what it throws is a value for the handler. -/
def attempt (x : EStateM ε σ α) : EStateM ε σ (Except ε α) := fun s =>
  match x s with
  | .ok a s' => .ok (.ok a) s'
  | .error e s' => .ok (.error e) s'

theorem attempt_of_ok {x : EStateM ε σ α} {s s' : σ} {a : α} (h : x s = .ok a s') :
    attempt x s = .ok (.ok a) s' := by
  simp only [attempt, h]

theorem attempt_of_error {x : EStateM ε σ α} {s s' : σ} {e : ε} (h : x s = .error e s') :
    attempt x s = .ok (.error e) s' := by
  simp only [attempt, h]

theorem attempt_of_resultOf {x : EStateM ε σ α} {s s' : σ} {r : Except ε α}
    (h : x s = resultOf r s') : attempt x s = .ok r s' := by
  cases r with
  | ok a => exact attempt_of_ok h
  | error e => exact attempt_of_error h

/-! ## The state a call leaves -/

/-- The state at the end, whether the call returned or threw. -/
def stateOf : EStateM.Result ε σ α → σ
  | .ok _ s => s
  | .error _ s => s

/-- A transitive relation between the states before and after. -/
theorem stateOf_bind {R : σ → σ → Prop} (htrans : ∀ {s₁ s₂ s₃}, R s₁ s₂ → R s₂ s₃ → R s₁ s₃)
    {x : EStateM ε σ α} {f : α → EStateM ε σ β} {s : σ} (hx : R s (stateOf (x s)))
    (hf : ∀ a s', x s = .ok a s' → R s' (stateOf (f a s'))) : R s (stateOf ((x >>= f) s)) := by
  cases h : x s with
  | ok a s' =>
    rw [bind_of_ok h]
    rw [h] at hx
    exact htrans hx (hf a s' h)
  | error e s' =>
    rw [bind_of_error h]
    rw [h] at hx
    exact hx

theorem stateOf_attempt (x : EStateM ε σ α) (s : σ) : stateOf (attempt x s) = stateOf (x s) := by
  cases h : x s with
  | ok a s' => rw [attempt_of_ok h, stateOf, stateOf]
  | error e s' => rw [attempt_of_error h, stateOf, stateOf]

/-! ## Calls on two kinds of state -/

/-- Two calls return the same or throw the same, in related states. -/
inductive EndsAlike (R : σ → τ → Prop) : EStateM.Result ε σ α → EStateM.Result ε τ α → Prop
  | ok {a : α} {s : σ} {t : τ} (h : R s t) : EndsAlike R (.ok a s) (.ok a t)
  | error {e : ε} {s : σ} {t : τ} (h : R s t) : EndsAlike R (.error e s) (.error e t)

namespace EndsAlike

variable {R : σ → τ → Prop}

/-- The call on the first state, given how the one on the second ends. -/
theorem exists_resultOf {x : EStateM.Result ε σ α} {r : Except ε α} {t : τ}
    (h : EndsAlike R x (resultOf r t)) : ∃ s, x = resultOf r s ∧ R s t := by
  generalize hy : (resultOf r t : EStateM.Result ε τ α) = y at h
  cases h with
  | ok h =>
    cases r with
    | ok a => cases hy; exact ⟨_, rfl, h⟩
    | error e => cases hy
  | error h =>
    cases r with
    | ok a => cases hy
    | error e => cases hy; exact ⟨_, rfl, h⟩

theorem attempt {x : EStateM ε σ α} {y : EStateM ε τ α} {s : σ} {t : τ}
    (h : EndsAlike R (x s) (y t)) : EndsAlike R (Lib.attempt x s) (Lib.attempt y t) := by
  unfold Lib.attempt
  generalize x s = r, y t = r' at h ⊢
  cases h with
  | ok h => exact .ok h
  | error h => exact .ok h

theorem bind {x : EStateM ε σ α} {y : EStateM ε τ α} {f : α → EStateM ε σ β}
    {g : α → EStateM ε τ β} {s : σ} {t : τ} (h : EndsAlike R (x s) (y t))
    (hnext : ∀ a s' t', R s' t' → EndsAlike R (f a s') (g a t')) :
    EndsAlike R ((x >>= f) s) ((y >>= g) t) := by
  show EndsAlike R (EStateM.bind x f s) (EStateM.bind y g t)
  unfold EStateM.bind
  generalize x s = r, y t = r' at h ⊢
  cases h with
  | ok h => exact hnext _ _ _ h
  | error h => exact .error h

end EndsAlike

/-! ## Calls on a component -/

/-- Make a call on the component that `get` reads and `set` replaces. -/
def onField (get : σ → τ) (set : σ → τ → σ) (x : EStateM ε τ α) : EStateM ε σ α := fun s =>
  match x (get s) with
  | .ok a t => .ok a (set s t)
  | .error e t => .error e (set s t)

theorem onField_of_ok {get : σ → τ} {set : σ → τ → σ} {x : EStateM ε τ α} {s : σ} {t : τ} {a : α}
    (h : x (get s) = .ok a t) : onField get set x s = .ok a (set s t) := by
  simp only [onField, h]

theorem onField_of_error {get : σ → τ} {set : σ → τ → σ} {x : EStateM ε τ α} {s : σ} {t : τ}
    {e : ε} (h : x (get s) = .error e t) : onField get set x s = .error e (set s t) := by
  simp only [onField, h]

end Arras4Core.Lib
