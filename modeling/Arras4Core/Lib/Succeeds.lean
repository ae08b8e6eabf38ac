/-
  Arras4Core.Lib.Succeeds

  Which `Except` computations return a value.  A sequence of steps does when
  each step does; a loop over a list does when no element makes it throw, as
  long as that does not depend on what the loop has accumulated.
-/

namespace Arras4Core.Lib

universe u v

variable {ε : Type u} {α β : Type v}

/-- The computation returns, it does not throw. -/
def Succeeds (x : Except ε α) : Prop := ∃ a, x = .ok a

@[simp] theorem succeeds_ok (a : α) : Succeeds (Except.ok a : Except ε α) := ⟨a, rfl⟩

@[simp] theorem not_succeeds_error (e : ε) : ¬ Succeeds (Except.error e : Except ε α) := nofun

/-- What follows a step that returns. -/
theorem except_bind_of_ok {x : Except ε α} {a : α} (h : x = .ok a) (f : α → Except ε β) :
    x >>= f = f a := by
  rw [h]
  rfl

/-- Nothing follows a step that throws. -/
theorem except_bind_of_error {x : Except ε α} {e : ε} (h : x = .error e)
    (f : α → Except ε β) : x >>= f = .error e := by
  rw [h]
  rfl

/-- A sequence that returns has returned from both of its steps. -/
theorem except_bind_eq_ok_iff {x : Except ε α} {f : α → Except ε β} {b : β} :
    (x >>= f) = .ok b ↔ ∃ a, x = .ok a ∧ f a = .ok b := by
  cases x with
  | error e =>
    constructor
    · intro h
      cases h
    · rintro ⟨a, ha, -⟩
      cases ha
  | ok a =>
    constructor
    · intro h
      exact ⟨a, rfl, h⟩
    · rintro ⟨a', ha, hf⟩
      cases ha
      exact hf

theorem except_error_ne_ok (e : ε) (a : α) : (Except.error e : Except ε α) ≠ .ok a := by
  intro h
  cases h

theorem except_mapError_eq_ok_iff {ε' : Type u} {x : Except ε α} {f : ε → ε'} {a : α} :
    x.mapError f = .ok a ↔ x = .ok a := by
  cases x with
  | error e => exact iff_of_false (except_error_ne_ok _ _) (except_error_ne_ok _ _)
  | ok b => exact ⟨fun h => congrArg _ (Except.ok.inj h), fun h => congrArg _ (Except.ok.inj h)⟩

theorem succeeds_bind (x : Except ε α) (f : α → Except ε β) :
    Succeeds (x >>= f) ↔ ∃ a, x = .ok a ∧ Succeeds (f a) := by
  constructor
  · rintro ⟨b, hb⟩
    obtain ⟨a, ha, hf⟩ := except_bind_eq_ok_iff.mp hb
    exact ⟨a, ha, b, hf⟩
  · rintro ⟨a, ha, b, hf⟩
    exact ⟨b, except_bind_eq_ok_iff.mpr ⟨a, ha, hf⟩⟩

/-- The rest of the computation, once the first step is known to return. -/
theorem succeeds_bind_of_ok {x : Except ε α} {a : α} (h : x = .ok a) (f : α → Except ε β) :
    Succeeds (x >>= f) ↔ Succeeds (f a) := by
  rw [succeeds_bind]
  constructor
  · rintro ⟨a', ha, hf⟩
    cases h.symm.trans ha
    exact hf
  · intro hf
    exact ⟨a, h, hf⟩

theorem succeeds_foldlM {f : β → α → Except ε β} {P : α → Prop}
    (h : ∀ b a, Succeeds (f b a) ↔ P a) (l : List α) (b : β) :
    Succeeds (l.foldlM f b) ↔ ∀ a ∈ l, P a := by
  induction l generalizing b with
  | nil => exact iff_of_true ⟨b, rfl⟩ nofun
  | cons a l ih =>
    rw [List.foldlM_cons, succeeds_bind, List.forall_mem_cons]
    constructor
    · rintro ⟨b', hb', hl⟩
      exact ⟨(h b a).mp ⟨b', hb'⟩, (ih b').mp hl⟩
    · rintro ⟨ha, hl⟩
      obtain ⟨b', hb'⟩ := (h b a).mpr ha
      exact ⟨b', hb', (ih b').mpr hl⟩

/-- A loop none of whose steps throws is a plain fold. -/
theorem foldlM_eq_foldl {f : β → α → Except ε β} {g : β → α → β} {l : List α}
    (h : ∀ b, ∀ a ∈ l, f b a = .ok (g b a)) (b : β) : l.foldlM f b = .ok (l.foldl g b) := by
  induction l generalizing b with
  | nil => rfl
  | cons a l ih =>
    rw [List.foldlM_cons, h b a List.mem_cons_self, List.foldl_cons]
    exact ih (fun b' a' ha' => h b' a' (List.mem_cons_of_mem a ha')) (g b a)

end Arras4Core.Lib
