/-
  Arras4Core.Lib.WaitFor

  Threads that wait for one another.  A thread wants locks, and locks are held
  by threads.  If the threads that are waited for while they wait themselves can
  be ranked, no set of threads waits in a circle.
-/

import Mathlib.Order.WellFounded

namespace Arras4Core.Lib

/-- Who wants which lock, and who holds it. -/
structure LockGraph (T L : Type*) where
  wants : T → L → Prop
  holds : T → L → Prop

namespace LockGraph

variable {T L : Type*} (G : LockGraph T L)

/-- Thread `t` is blocked on a lock that `u` holds. -/
def WaitsFor (t u : T) : Prop := ∃ l, G.wants t l ∧ G.holds u l

/-- Every thread of the set is blocked on a lock held by a thread of the set. -/
def CircularWait (S : Set T) : Prop := S.Nonempty ∧ ∀ t ∈ S, ∃ u ∈ S, G.WaitsFor t u

variable {G}

/-- A thread that waits for one that waits itself ranks above it: the lowest thread
    of a circle would have to wait for a lower one. -/
theorem not_circularWait_of_rank (rank : T → Nat)
    (hrank : ∀ t u v, G.WaitsFor t u → G.WaitsFor u v → rank u < rank t) (S : Set T) :
    ¬ G.CircularWait S := by
  rintro ⟨hne, hwaits⟩
  obtain ⟨t, ht, hmin⟩ := (measure rank).wf.has_min S hne
  obtain ⟨u, hu, htu⟩ := hwaits t ht
  obtain ⟨v, -, huv⟩ := hwaits u hu
  exact hmin u hu (hrank t u v htu huv)

end LockGraph

end Arras4Core.Lib
