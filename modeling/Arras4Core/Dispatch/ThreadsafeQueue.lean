/-
  Arras4Core.Dispatch.ThreadsafeQueue

  `impl::ThreadsafeQueue`.  Every operation is one critical section of the
  queue's own mutex.  The queue also keeps the history of its items, and the
  fact that it is a queue: what was pushed is what was popped followed by what
  is still inside.
-/

import Arras4Core.Lib.System

namespace Arras4Core.Dispatch

structure ThreadsafeQueue (T : Type*) where
  mQueue : List T := []
  mShutdown : Bool := false
  /-- every item pushed, oldest first -/
  pushed : List T := []
  /-- every item popped, oldest first -/
  popped : List T := []
  fifo : popped ++ mQueue = pushed := by rfl

namespace ThreadsafeQueue

variable {T : Type*} {t : T} {q q' : ThreadsafeQueue T}

theorem fifo_nil : [] ++ [] = ([] : List T) := rfl

/-- `ThreadsafeQueue()`. -/
def newQueue : ThreadsafeQueue T where
  fifo := fifo_nil

/-- `none` is the `ShutdownException`. -/
def push (q : ThreadsafeQueue T) (t : T) : Option (ThreadsafeQueue T) :=
  if q.mShutdown then none
  else some { q with
    mQueue := q.mQueue ++ [t]
    pushed := q.pushed ++ [t]
    fifo := by rw [← List.append_assoc, q.fifo] }

/-- What `pop` meets when it holds the mutex, on entry or after a wait. -/
inductive PopResult (T : Type*)
  | shutdownException
  | empty
  | item (t : T) (q : ThreadsafeQueue T)

def pop (q : ThreadsafeQueue T) : PopResult T :=
  if q.mShutdown then .shutdownException
  else match h : q.mQueue with
    | [] => .empty
    | t :: rest => .item t { q with
        mQueue := rest
        popped := q.popped ++ [t]
        fifo := by simpa [h] using q.fifo }

def shutdown (q : ThreadsafeQueue T) : ThreadsafeQueue T := { q with mShutdown := true }

@[simp] theorem shutdown_pushed : q.shutdown.pushed = q.pushed := rfl
@[simp] theorem shutdown_popped : q.shutdown.popped = q.popped := rfl
@[simp] theorem shutdown_mShutdown : q.shutdown.mShutdown = true := rfl

theorem popped_prefix_pushed (q : ThreadsafeQueue T) : q.popped <+: q.pushed :=
  ⟨q.mQueue, q.fifo⟩

/-- A push fails only on a queue that was shut down. -/
theorem push_eq_none (h : q.push t = none) : q.mShutdown = true := by
  unfold push at h
  split at h
  · assumption
  · cases h

theorem push_eq_some (h : q.push t = some q') :
    q.mShutdown = false ∧ q'.mShutdown = false ∧
      q'.pushed = q.pushed ++ [t] ∧ q'.popped = q.popped := by
  unfold push at h
  split at h
  · cases h
  · next hopen =>
    cases h
    exact ⟨by simpa using hopen, by simpa using hopen, rfl, rfl⟩

theorem pop_eq_item (h : q.pop = .item t q') :
    q'.pushed = q.pushed ∧ q'.popped = q.popped ++ [t] ∧ q'.mShutdown = q.mShutdown := by
  unfold pop at h
  split at h
  · cases h
  · split at h
    · cases h
    · cases h
      exact ⟨rfl, rfl, rfl⟩

theorem pop_eq_shutdownException (h : q.pop = .shutdownException) : q.mShutdown = true := by
  unfold pop at h
  split at h
  · assumption
  · split at h <;> cases h

/-- A thread waits only for a queue that is open. -/
theorem pop_eq_empty (h : q.pop = .empty) : q.mShutdown = false := by
  unfold pop at h
  split at h
  · cases h
  · next hopen => simpa using hopen

/-- And that has nothing it has not given out. -/
theorem pushed_eq_popped_of_empty (h : q.pop = .empty) : q.pushed = q.popped := by
  unfold pop at h
  split at h
  · cases h
  · split at h
    · next hqueue =>
      have hfifo := q.fifo
      rw [hqueue, List.append_nil] at hfifo
      exact hfifo.symm
    · cases h

end ThreadsafeQueue

end Arras4Core.Dispatch
