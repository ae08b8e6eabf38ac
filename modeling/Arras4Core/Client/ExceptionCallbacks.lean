/-
  Arras4Core.Client.ExceptionCallbacks

  `Client::addExceptionCallback` and `Client::removeExceptionCallback`: the list of
  callbacks, each a `std::function`, and the loop that erases from it while it goes
  through it.  An iterator is a position in the list.

  Main result: `removesOnly_iff`.
-/

import Mathlib.Data.List.Basic

namespace Arras4Core.Client

/-- A `std::function<void(const std::exception&)>`, by what it holds: a plain function
    of that type, any other callable object, or nothing. -/
inductive ExceptionCallback (Function Callable : Type)
  | plain (f : Function)
  | callable (c : Callable)
  | empty
  deriving DecidableEq

variable {Function Callable : Type} [DecidableEq Function]

namespace ExceptionCallback

/-- `target<void(*)(const std::exception&)>()`, and what it points to. -/
def target : ExceptionCallback Function Callable → Option Function
  | plain f => some f
  | _ => none

/-- The two hold the same plain function. -/
def SamePlain (callback other : ExceptionCallback Function Callable) : Prop :=
  ∃ f, callback.target = some f ∧ other.target = some f

instance (callback other : ExceptionCallback Function Callable) :
    Decidable (SamePlain callback other) :=
  decidable_of_iff (callback.target.isSome = true ∧ callback.target = other.target) <| by
    rw [SamePlain, Option.isSome_iff_exists]
    constructor
    · rintro ⟨⟨f, hf⟩, heq⟩
      exact ⟨f, hf, heq.symm.trans hf⟩
    · rintro ⟨f, hf, hother⟩
      exact ⟨⟨f, hf⟩, hf.trans hother.symm⟩

end ExceptionCallback

/-- `mExceptionCallbacks`. -/
abbrev ExceptionCallbacks (Function Callable : Type) := List (ExceptionCallback Function Callable)

namespace ExceptionCallbacks

def addExceptionCallback (callbacks : ExceptionCallbacks Function Callable)
    (callback : ExceptionCallback Function Callable) : ExceptionCallbacks Function Callable :=
  callbacks ++ [callback]

/-- The test of the loop, `!f1 || (f1 && del && *f1 == *del)`. -/
def erases (del f1 : Option Function) : Bool :=
  match f1 with
  | none => true
  | some f => del == some f

/-- The loop at the iterator `it`. -/
def removeFrom (del : Option Function) (callbacks : ExceptionCallbacks Function Callable)
    (it : Nat) : ExceptionCallbacks Function Callable :=
  if h : it < callbacks.length then
    -- `erase` returns the iterator behind the erased entry
    if erases del callbacks[it].target then removeFrom del (callbacks.eraseIdx it) it
    else removeFrom del callbacks (it + 1)
  else callbacks
termination_by callbacks.length - it
decreasing_by
  · rw [List.length_eraseIdx_of_lt h]
    omega
  · omega

def removeExceptionCallback (callbacks : ExceptionCallbacks Function Callable)
    (callback : ExceptionCallback Function Callable) : ExceptionCallbacks Function Callable :=
  removeFrom callback.target callbacks 0

/-- The entries that are the same plain function are removed, and nothing else. -/
def RemovesOnly (callbacks : ExceptionCallbacks Function Callable)
    (callback : ExceptionCallback Function Callable) : Prop :=
  callbacks.removeExceptionCallback callback
    = callbacks.filter fun entry => ¬ callback.SamePlain entry

/-- The loop keeps what it has passed, and of the rest what the test does not erase. -/
theorem removeFrom_eq (del : Option Function) (callbacks : ExceptionCallbacks Function Callable)
    (it : Nat) :
    removeFrom del callbacks it
      = callbacks.take it ++ (callbacks.drop it).filter fun entry => !erases del entry.target := by
  fun_induction removeFrom del callbacks it with
  | case1 callbacks it h herases ih =>
    -- the rest moves up to the iterator
    have hlen : (callbacks.take it).length = it := List.length_take_of_le (Nat.le_of_lt h)
    rw [ih, List.drop_eq_getElem_cons h, List.filter_cons_of_neg (by simp [herases]),
      List.eraseIdx_eq_take_drop_succ, List.take_left' hlen, List.drop_left' hlen]
  | case2 callbacks it h herases ih =>
    rw [ih, List.drop_eq_getElem_cons h, List.filter_cons_of_pos (by simpa using herases),
      List.take_succ_eq_append_getElem h, List.append_assoc]
    rfl
  | case3 callbacks it h =>
    rw [List.drop_eq_nil_of_le (by omega), List.take_of_length_le (by omega)]
    exact (List.append_nil _).symm

theorem removeExceptionCallback_eq (callbacks : ExceptionCallbacks Function Callable)
    (callback : ExceptionCallback Function Callable) :
    callbacks.removeExceptionCallback callback
      = callbacks.filter fun entry => !erases callback.target entry.target := by
  rw [removeExceptionCallback, removeFrom_eq]
  rfl

/-- The test erases the same plain function, and everything that is none. -/
theorem erases_iff (callback entry : ExceptionCallback Function Callable) :
    erases callback.target entry.target = true ↔
      callback.SamePlain entry ∨ entry.target = none := by
  rw [ExceptionCallback.SamePlain]
  cases entry.target with
  | none => exact iff_of_true rfl (.inr rfl)
  | some f =>
    show (callback.target == some f) = true ↔ _
    rw [beq_iff_eq]
    constructor
    · intro h
      exact .inl ⟨f, h, rfl⟩
    · rintro (⟨_, h, ⟨⟩⟩ | h)
      · exact h
      · cases h

/-- An entry that holds no plain function is always removed. -/
theorem not_mem_removeExceptionCallback (callbacks : ExceptionCallbacks Function Callable)
    (callback : ExceptionCallback Function Callable)
    {entry : ExceptionCallback Function Callable} (h : entry.target = none) :
    entry ∉ callbacks.removeExceptionCallback callback := by
  rw [removeExceptionCallback_eq, List.mem_filter]
  rintro ⟨-, hkeep⟩
  rw [(erases_iff callback entry).mpr (.inr h)] at hkeep
  cases hkeep

theorem mem_of_removesOnly {callbacks : ExceptionCallbacks Function Callable}
    {callback entry : ExceptionCallback Function Callable} (h : RemovesOnly callbacks callback)
    (hentry : entry ∈ callbacks) (hnone : entry.target = none) :
    entry ∈ callbacks.removeExceptionCallback callback := by
  rw [h, List.mem_filter]
  refine ⟨hentry, decide_eq_true ?_⟩
  rintro ⟨f, -, hf⟩
  cases hnone.symm.trans hf

/-- Only the callback is removed exactly if every entry holds a plain function. -/
theorem removesOnly_iff (callbacks : ExceptionCallbacks Function Callable)
    (callback : ExceptionCallback Function Callable) :
    RemovesOnly callbacks callback ↔ ∀ entry ∈ callbacks, ∃ f, entry.target = some f := by
  constructor
  · intro h entry hentry
    -- an entry of another kind is erased, and should have been kept
    refine Option.ne_none_iff_exists'.mp fun hnone => ?_
    exact not_mem_removeExceptionCallback callbacks callback hnone
      (mem_of_removesOnly h hentry hnone)
  · intro h
    rw [RemovesOnly, removeExceptionCallback_eq]
    refine List.filter_congr fun entry hentry => ?_
    obtain ⟨f, hf⟩ := h entry hentry
    have hiff := erases_iff callback entry
    rw [or_iff_left (by rw [hf]; exact nofun)] at hiff
    by_cases hsame : callback.SamePlain entry
    · rw [hiff.mpr hsame, decide_eq_false (not_not_intro hsame)]
      rfl
    · have hkeep : erases callback.target entry.target = false := by simpa using mt hiff.mp hsame
      rw [hkeep, decide_eq_true hsame]
      rfl

/-- A bound function goes when a plain one is removed. -/
theorem not_removesOnly_bound :
    ¬ RemovesOnly ([.callable (), .plain 0] : ExceptionCallbacks Nat Unit) (.plain 0) := by
  intro h
  have hbound : (ExceptionCallback.callable () : ExceptionCallback Nat Unit)
      ∈ [.callable (), .plain 0] := List.mem_cons_self ..
  exact not_mem_removeExceptionCallback _ _ rfl (mem_of_removesOnly h hbound rfl)

end ExceptionCallbacks

end Arras4Core.Client
