/-
  Arras4Core.Execute.IoCapture

  `ioCaptureProc` and the child process whose output it captures, as a transition
  system.  There is a pipe for each of the two streams; a pipe holds at most
  `capacity` unread bytes, the child blocks while the pipe that it writes to is
  full, and a read blocks until there is a byte or the write end is closed.

  One thread reads the two pipes in turn.  A read of a pipe that stays empty
  leaves the other one to fill up, so whether the capture gets on depends on what
  the child writes to the other pipe before it comes back to this one.
-/

import Arras4Core.Lib.System
import Mathlib.Logic.Function.Basic

namespace Arras4Core.Execute

open Arras4Core.Lib

inductive Stream
  | out
  | err
  deriving DecidableEq

def Stream.other : Stream → Stream
  | .out => .err
  | .err => .out

theorem Stream.eq_other_of_ne {fd g : Stream} (h : g ≠ fd) : g = fd.other := by
  cases fd <;> cases g <;> first | rfl | exact absurd rfl h

structure Pipe where
  unread : List UInt8 := []
  closed : Bool := false

/-- One call of `write` by the child. -/
abbrev Chunk := Stream × List UInt8

/-- What the child writes to a stream. -/
def bytesOf (fd : Stream) (chunks : List Chunk) : List UInt8 :=
  chunks.flatMap fun chunk => if chunk.1 = fd then chunk.2 else []

@[simp] theorem bytesOf_nil (fd : Stream) : bytesOf fd [] = [] := rfl

@[simp] theorem bytesOf_cons_self (fd : Stream) (bytes : List UInt8) (rest : List Chunk) :
    bytesOf fd ((fd, bytes) :: rest) = bytes ++ bytesOf fd rest := by
  simp [bytesOf]

theorem bytesOf_cons_of_ne {fd g : Stream} (h : g ≠ fd) (bytes : List UInt8)
    (rest : List Chunk) : bytesOf fd ((g, bytes) :: rest) = bytesOf fd rest := by
  simp [bytesOf, h]

/-- How much the child writes to the other stream before it comes to `fd`. -/
def burst (fd : Stream) : List Chunk → Nat
  | [] => 0
  | (g, bytes) :: rest =>
    if g ≠ fd then bytes.length + burst fd rest
    else if bytes = [] then burst fd rest
    else 0

@[simp] theorem burst_cons_nil (fd g : Stream) (rest : List Chunk) :
    burst fd ((g, []) :: rest) = burst fd rest := by
  by_cases hg : g = fd <;> simp [burst, hg]

theorem burst_cons_other (fd : Stream) (bytes : List UInt8) (rest : List Chunk) :
    burst fd ((fd.other, bytes) :: rest) = bytes.length + burst fd rest := by
  cases fd <;> rfl

theorem burst_le (fd : Stream) (chunks : List Chunk) :
    burst fd chunks ≤ (bytesOf fd.other chunks).length := by
  induction chunks with
  | nil => exact Nat.le_refl _
  | cons chunk rest ih =>
    obtain ⟨g, bytes⟩ := chunk
    by_cases hg : g = fd
    · subst hg
      have hother : g ≠ g.other := by cases g <;> decide
      rw [bytesOf_cons_of_ne hother]
      by_cases hbytes : bytes = []
      · rw [hbytes, burst_cons_nil]
        exact ih
      · simp [burst, hbytes]
    · obtain rfl := Stream.eq_other_of_ne hg
      rw [burst_cons_other, bytesOf_cons_self, List.length_append]
      omega

/-- `ioCaptureProc`: before a call of `read`, in it, and with what it returned. -/
inductive CapturePc
  | call (fd : Stream)
  | reading (fd : Stream)
  | append (fd : Stream) (buf : List UInt8)
  | ended
  deriving DecidableEq

/-- The bytes of a stream that the thread has in its buffer. -/
def CapturePc.held (fd : Stream) : CapturePc → List UInt8
  | .append g buf => if g = fd then buf else []
  | .call _ | .reading _ | .ended => []

@[simp] theorem CapturePc.held_call (fd g : Stream) : (call g).held fd = [] := rfl
@[simp] theorem CapturePc.held_reading (fd g : Stream) : (reading g).held fd = [] := rfl
@[simp] theorem CapturePc.held_ended (fd : Stream) : ended.held fd = [] := rfl

@[simp] theorem CapturePc.held_append_self (fd : Stream) (buf : List UInt8) :
    (append fd buf).held fd = buf := if_pos rfl

theorem CapturePc.held_append_of_ne {fd g : Stream} (h : g ≠ fd) (buf : List UInt8) :
    (append g buf).held fd = [] := if_neg h

@[simp] theorem closed_update_unread (pipe : Stream → Pipe) (fd g : Stream) (u : List UInt8) :
    (Function.update pipe fd { pipe fd with unread := u } g).closed = (pipe g).closed := by
  by_cases hg : g = fd
  · subst hg
    simp
  · simp [Function.update_of_ne hg]

@[simp] theorem unread_update_closed (pipe : Stream → Pipe) (fd g : Stream) (c : Bool) :
    (Function.update pipe fd { pipe fd with closed := c } g).unread = (pipe g).unread := by
  by_cases hg : g = fd
  · subst hg
    simp
  · simp [Function.update_of_ne hg]

/-- The child's writes that are still to come, the two pipes, and the thread: for
    each stream whether the last read returned something (`cs > 0`, `ce > 0`), and
    what was handed to the `SimpleIoCapture`. -/
structure IoCapture where
  chunks : List Chunk
  pipe : Stream → Pipe := fun _ => {}
  positive : Stream → Bool := fun _ => true
  pc : CapturePc := .call .out
  captured : Stream → List UInt8 := fun _ => []

namespace IoCapture

/-- Where the thread goes when it is done with one stream. -/
def after (positive : Stream → Bool) : Stream → CapturePc
  | .out => .call .err
  | .err => if positive .out || positive .err then .call .out else .ended

inductive Event
  | childWrites (count : Nat)
  | childReturns
  | childCloses (fd : Stream)
  | calls
  | reads (count : Nat)
  | readsEnd
  | appends

/-- A `write` puts its bytes into the pipe bit by bit, as there is room. -/
def childWrites (capacity : Nat) (s : IoCapture) (count : Nat) : Option IoCapture :=
  match s.chunks with
  | (fd, bytes) :: rest =>
    onlyIf (0 < count ∧ count ≤ bytes.length ∧
        (s.pipe fd).unread.length + count ≤ capacity)
      { s with
        chunks := (fd, bytes.drop count) :: rest
        pipe := Function.update s.pipe fd
          { s.pipe fd with unread := (s.pipe fd).unread ++ bytes.take count } }
  | [] => none

def step (capacity : Nat) (s : IoCapture) : Event → Option IoCapture
  | .childWrites count => s.childWrites capacity count
  | .childReturns =>
    match s.chunks with
    | (_, []) :: rest => some { s with chunks := rest }
    | _ => none
  | .childCloses fd =>
    onlyIf (s.chunks = [])
      { s with pipe := Function.update s.pipe fd { s.pipe fd with closed := true } }
  | .calls =>
    match s.pc with
    | .call fd => some { s with pc := if s.positive fd then .reading fd else after s.positive fd }
    | _ => none
  | .reads count =>
    match s.pc with
    | .reading fd =>
      onlyIf (0 < count ∧ count ≤ 1024 ∧ count ≤ (s.pipe fd).unread.length)
        { s with
          pipe := Function.update s.pipe fd
            { s.pipe fd with unread := (s.pipe fd).unread.drop count }
          pc := .append fd ((s.pipe fd).unread.take count) }
    | _ => none
  | .readsEnd =>
    match s.pc with
    | .reading fd =>
      let positive := Function.update s.positive fd false
      onlyIf ((s.pipe fd).unread = [] ∧ (s.pipe fd).closed = true)
        { s with positive := positive, pc := after positive fd }
    | _ => none
  | .appends =>
    match s.pc with
    | .append fd buf =>
      some { s with
        captured := Function.update s.captured fd (s.captured fd ++ buf)
        pc := after s.positive fd }
    | _ => none

/-- A child that writes `chunks`, and pipes that hold up to `capacity` bytes. -/
def system (capacity : Nat) (chunks : List Chunk) : System IoCapture Event where
  init s := s = { chunks := chunks }
  step := step capacity

/-! ## What a step does -/

/-- The steps, one for each way through `step`. -/
inductive Moves (capacity : Nat) (s : IoCapture) : Event → IoCapture → Prop
  | writes {fd : Stream} {bytes : List UInt8} {rest : List Chunk} {count : Nat}
      (hchunks : s.chunks = (fd, bytes) :: rest) (hpos : 0 < count)
      (hle : count ≤ bytes.length) (hroom : (s.pipe fd).unread.length + count ≤ capacity) :
      Moves capacity s (.childWrites count)
        { s with
          chunks := (fd, bytes.drop count) :: rest
          pipe := Function.update s.pipe fd
            { s.pipe fd with unread := (s.pipe fd).unread ++ bytes.take count } }
  | returns {fd : Stream} {rest : List Chunk} (hchunks : s.chunks = (fd, []) :: rest) :
      Moves capacity s .childReturns { s with chunks := rest }
  | closes {fd : Stream} (hchunks : s.chunks = []) :
      Moves capacity s (.childCloses fd)
        { s with pipe := Function.update s.pipe fd { s.pipe fd with closed := true } }
  | calls {fd : Stream} (hpc : s.pc = .call fd) (hpositive : s.positive fd = true) :
      Moves capacity s .calls { s with pc := .reading fd }
  | skips {fd : Stream} (hpc : s.pc = .call fd) (hpositive : s.positive fd = false) :
      Moves capacity s .calls { s with pc := after s.positive fd }
  | reads {fd : Stream} {count : Nat} (hpc : s.pc = .reading fd) (hpos : 0 < count)
      (hle : count ≤ (s.pipe fd).unread.length) :
      Moves capacity s (.reads count)
        { s with
          pipe := Function.update s.pipe fd
            { s.pipe fd with unread := (s.pipe fd).unread.drop count }
          pc := .append fd ((s.pipe fd).unread.take count) }
  | readsEnd {fd : Stream} (hpc : s.pc = .reading fd) (hunread : (s.pipe fd).unread = [])
      (hclosed : (s.pipe fd).closed = true) :
      Moves capacity s .readsEnd
        { s with
          positive := Function.update s.positive fd false
          pc := after (Function.update s.positive fd false) fd }
  | appends {fd : Stream} {buf : List UInt8} (hpc : s.pc = .append fd buf) :
      Moves capacity s .appends
        { s with
          captured := Function.update s.captured fd (s.captured fd ++ buf)
          pc := after s.positive fd }

variable {capacity : Nat} {chunks : List Chunk} {s s' : IoCapture}

theorem moves {e : Event} (hs : step capacity s e = some s') : Moves capacity s e s' := by
  cases e with
  | childWrites count =>
    simp only [step, childWrites] at hs
    split at hs
    case h_2 => cases hs
    next fd bytes rest hchunks =>
      obtain ⟨⟨hpos, hle, hroom⟩, rfl⟩ := of_onlyIf hs
      exact .writes hchunks hpos hle hroom
  | childReturns =>
    simp only [step] at hs
    split at hs
    case h_2 => cases hs
    next fd rest hchunks =>
      cases hs
      exact .returns hchunks
  | childCloses fd =>
    obtain ⟨hchunks, rfl⟩ := of_onlyIf hs
    exact .closes hchunks
  | calls =>
    simp only [step] at hs
    split at hs
    case h_2 => cases hs
    next fd hpc =>
      cases hs
      cases hpositive : s.positive fd with
      | true => exact .calls hpc hpositive
      | false => exact .skips hpc hpositive
  | reads count =>
    simp only [step] at hs
    split at hs
    case h_2 => cases hs
    next fd hpc =>
      obtain ⟨⟨hpos, -, hle⟩, rfl⟩ := of_onlyIf hs
      exact .reads hpc hpos hle
  | readsEnd =>
    simp only [step] at hs
    split at hs
    case h_2 => cases hs
    next fd hpc =>
      obtain ⟨⟨hunread, hclosed⟩, rfl⟩ := of_onlyIf hs
      exact .readsEnd hpc hunread hclosed
  | appends =>
    simp only [step] at hs
    split at hs
    case h_2 => cases hs
    next fd buf hpc =>
      cases hs
      exact .appends hpc

/-! ## What becomes of the bytes -/

/-- Every byte that the child writes is captured, in the thread's buffer, in the
    pipe or yet to be written, in that order; and the end of a stream is only seen
    when there is nothing left of it. -/
structure Flows (chunks : List Chunk) (s : IoCapture) : Prop where
  flow : ∀ fd, s.captured fd ++ (s.pc.held fd ++ ((s.pipe fd).unread ++ bytesOf fd s.chunks))
    = bytesOf fd chunks
  closed : ∀ fd, (s.pipe fd).closed = true → s.chunks = []
  atEnd : ∀ fd, s.positive fd = false → s.chunks = [] ∧ (s.pipe fd).unread = []
  ended : s.pc = .ended → ∀ fd, s.positive fd = false

@[simp] theorem held_after (positive : Stream → Bool) (fd g : Stream) :
    (after positive fd).held g = [] := by
  cases fd with
  | out => rfl
  | err => cases hnone : positive .out || positive .err <;> simp [after, hnone]

theorem after_eq_ended {positive : Stream → Bool} {fd : Stream}
    (h : after positive fd = .ended) (g : Stream) : positive g = false := by
  cases fd with
  | out => cases h
  | err =>
    cases hnone : positive .out || positive .err with
    | true => simp [after, hnone] at h
    | false =>
      rw [Bool.or_eq_false_iff] at hnone
      cases g
      · exact hnone.1
      · exact hnone.2

theorem Flows.next (h : s.Flows chunks) {e : Event} (hs : Moves capacity s e s') :
    s'.Flows chunks := by
  cases hs with
  | @writes fd bytes rest count hchunks hpos hle hroom =>
    have hsome : s.chunks ≠ [] := by
      rw [hchunks]
      nofun
    refine ⟨fun g => ?_, fun g hclosed => ?_, fun g hend => absurd (h.atEnd g hend).1 hsome,
      h.ended⟩
    · rw [← h.flow g, hchunks]
      by_cases hg : fd = g
      · subst hg
        simp [← List.append_assoc (bytes.take count)]
      · simp [Function.update_of_ne (Ne.symm hg), bytesOf_cons_of_ne hg]
    · rw [closed_update_unread] at hclosed
      exact absurd (h.closed g hclosed) hsome
  | @returns fd rest hchunks =>
    have hsome : s.chunks ≠ [] := by
      rw [hchunks]
      nofun
    refine ⟨fun g => ?_, fun g hclosed => absurd (h.closed g hclosed) hsome,
      fun g hend => absurd (h.atEnd g hend).1 hsome, h.ended⟩
    rw [← h.flow g, hchunks]
    by_cases hg : fd = g
    · subst hg
      simp
    · simp [bytesOf_cons_of_ne hg]
  | closes hchunks =>
    refine ⟨fun g => ?_, fun g _ => hchunks, fun g hend => ⟨hchunks, ?_⟩, h.ended⟩
    · rw [← h.flow g, unread_update_closed]
    · rw [unread_update_closed]
      exact (h.atEnd g hend).2
  | calls hpc hpositive =>
    refine ⟨fun g => ?_, h.closed, h.atEnd, nofun⟩
    rw [← h.flow g, hpc]
    rfl
  | skips hpc hpositive =>
    refine ⟨fun g => ?_, h.closed, h.atEnd, after_eq_ended⟩
    rw [← h.flow g, hpc, held_after]
    rfl
  | @reads fd count hpc hpos hle =>
    refine ⟨fun g => ?_, fun g hclosed => ?_, fun g hend => ?_, nofun⟩
    · rw [← h.flow g, hpc]
      by_cases hg : fd = g
      · subst hg
        simp [← List.append_assoc (List.take count _)]
      · simp [CapturePc.held_append_of_ne hg, Function.update_of_ne (Ne.symm hg)]
    · rw [closed_update_unread] at hclosed
      exact h.closed g hclosed
    · obtain ⟨hchunks, hunread⟩ := h.atEnd g hend
      refine ⟨hchunks, ?_⟩
      by_cases hg : fd = g
      · subst hg
        simp [hunread]
      · simpa [Function.update_of_ne (Ne.symm hg)] using hunread
  | @readsEnd fd hpc hunread hclosed =>
    refine ⟨fun g => ?_, h.closed, fun g hend => ?_, after_eq_ended⟩
    · rw [← h.flow g, hpc, held_after]
      rfl
    · by_cases hg : fd = g
      · subst hg
        exact ⟨h.closed _ hclosed, hunread⟩
      · refine h.atEnd g ?_
        simpa [Function.update_of_ne (Ne.symm hg)] using hend
  | @appends fd buf hpc =>
    refine ⟨fun g => ?_, h.closed, h.atEnd, after_eq_ended⟩
    rw [← h.flow g, hpc, held_after]
    by_cases hg : fd = g
    · subst hg
      simp
    · simp [CapturePc.held_append_of_ne hg, Function.update_of_ne (Ne.symm hg)]

/-- A child that has written everything writes no more. -/
theorem chunks_eq_nil_of_moves (h : s.chunks = []) {e : Event} (hs : Moves capacity s e s') :
    s'.chunks = [] := by
  cases hs with
  | writes hchunks | returns hchunks =>
    rw [h] at hchunks
    cases hchunks
  | _ => exact h

/-- What was captured of a stream is not changed once it is complete. -/
theorem Flows.captured_of_moves (h : s.Flows chunks) {fd : Stream}
    (hall : s.captured fd = bytesOf fd chunks) {e : Event} (hs : Moves capacity s e s') :
    s'.captured fd = bytesOf fd chunks := by
  cases hs with
  | @appends g buf hpc =>
    by_cases hg : fd = g
    · subst hg
      have hflow := h.flow fd
      rw [hall, hpc, CapturePc.held_append_self, List.append_right_eq_self,
        List.append_eq_nil_iff] at hflow
      simp [hflow.1, hall]
    · simpa [Function.update_of_ne hg] using hall
  | _ => exact hall

theorem flows_of_reachable {C : IoCapture → Event → Prop}
    (h : (system capacity chunks).ReachableWhen C s) : s.Flows chunks := by
  apply h.invariant (I := Flows chunks)
  · rintro s₀ rfl
    exact ⟨fun _ => rfl, nofun, nofun, nofun⟩
  · intro s₁ e s₂ hI _ hs
    exact hI.next (moves hs)

/-- When the thread has ended, it has captured all there was. -/
theorem Flows.captured (h : s.Flows chunks) (hended : s.pc = .ended) (fd : Stream) :
    s.captured fd = bytesOf fd chunks := by
  obtain ⟨hchunks, hunread⟩ := h.atEnd fd (h.ended hended fd)
  rw [← h.flow fd, hended, hchunks, hunread]
  simp

/-! ## Blocked on the wrong pipe -/

/-- The child is blocked on a full pipe, and the thread in a read of the other one,
    which is empty. -/
def Deadlocked (capacity : Nat) (s : IoCapture) : Prop :=
  ∃ fd byte bytes rest, s.chunks = (fd.other, byte :: bytes) :: rest ∧
    capacity ≤ (s.pipe fd.other).unread.length ∧
    s.pc = .reading fd ∧ (s.pipe fd).unread = [] ∧ (s.pipe fd).closed = false

/-- What is asked of the capture at any time. -/
structure Captures (capacity : Nat) (chunks : List Chunk) (s : IoCapture) : Prop where
  noDeadlock : ¬ s.Deadlocked capacity
  captured : s.pc = .ended → ∀ fd, s.captured fd = bytesOf fd chunks

/-- What the child writes to the other pipe before it comes to this one has room
    there. -/
def Fits (capacity : Nat) (s : IoCapture) (fd : Stream) : Prop :=
  (s.pipe fd).unread = [] → (s.pipe fd).closed = false →
    (s.pipe fd.other).unread.length + burst fd s.chunks ≤ capacity

/-- No read is called of a pipe that stays empty until the other one is full. -/
def ReadsInTime (capacity : Nat) (s : IoCapture) : Event → Prop
  | .calls => ∀ fd, s.pc = .call fd → s.positive fd = true → s.Fits capacity fd
  | _ => True

theorem after_ne_reading (positive : Stream → Bool) (fd g : Stream) :
    after positive fd ≠ .reading g := by
  cases fd with
  | out => nofun
  | err => cases hnone : positive .out || positive .err <;> simp [after, hnone]

/-- While the thread is in a read, the child does not use up the room. -/
theorem fits_next (h : ∀ fd, s.pc = .reading fd → s.Fits capacity fd) {e : Event}
    (hcond : s.ReadsInTime capacity e) (hs : Moves capacity s e s') :
    ∀ fd, s'.pc = .reading fd → s'.Fits capacity fd := by
  intro fd hpc' hunread' hclosed'
  cases hs with
  | @writes g bytes rest count hchunks hpos hle hroom =>
    by_cases hg : g = fd
    · -- the pipe that is read is not empty any more
      subst hg
      simp only [Function.update_self, List.append_eq_nil_iff, List.take_eq_nil_iff] at hunread'
      rcases hunread'.2 with hzero | hnil
      · omega
      · rw [hnil, List.length_nil] at hle
        omega
    · obtain rfl := Stream.eq_other_of_ne hg
      have hfits := h fd hpc' (by simpa [Function.update_of_ne (Ne.symm hg)] using hunread')
        (by simpa using hclosed')
      rw [hchunks, burst_cons_other] at hfits
      simp only [Function.update_self, List.length_append, List.length_take, burst_cons_other,
        List.length_drop]
      omega
  | returns hchunks =>
    have hfits := h fd hpc' hunread' hclosed'
    rw [hchunks, burst_cons_nil] at hfits
    exact hfits
  | @closes g hchunks =>
    by_cases hg : g = fd
    · subst hg
      simp at hclosed'
    · have hfits := h fd hpc' (by simpa using hunread')
        (by simpa [Function.update_of_ne (Ne.symm hg)] using hclosed')
      rw [unread_update_closed]
      exact hfits
  | calls hpc hpositive =>
    cases hpc'
    exact hcond fd hpc hpositive hunread' hclosed'
  | skips | readsEnd | appends => exact absurd hpc' (after_ne_reading _ _ _)
  | reads => cases hpc'

theorem not_deadlocked (h : ∀ fd, s.pc = .reading fd → s.Fits capacity fd) :
    ¬ s.Deadlocked capacity := by
  rintro ⟨fd, byte, bytes, rest, hchunks, hfull, hpc, hunread, hclosed⟩
  have hfits := h fd hpc hunread hclosed
  rw [hchunks, burst_cons_other, List.length_cons] at hfits
  omega

theorem fits_of_reachable (h : (system capacity chunks).ReachableWhen (ReadsInTime capacity) s) :
    ∀ fd, s.pc = .reading fd → s.Fits capacity fd := by
  apply h.invariant (I := fun s => ∀ fd, s.pc = .reading fd → s.Fits capacity fd)
  · rintro s₀ rfl
    nofun
  · intro s₁ e s₂ hI hcond hs
    exact fits_next hI hcond (moves hs)

/-- **The capture does not deadlock with the child**, and ends with all its output,
    when every read is called in time. -/
theorem captures_of_readsInTime
    (h : (system capacity chunks).ReachableWhen (ReadsInTime capacity) s) :
    s.Captures capacity chunks where
  noDeadlock := not_deadlocked (fits_of_reachable h)
  captured hended := (flows_of_reachable h).captured hended

/-! ## A read that is not called in time -/

/-- A pipe holds no more than its capacity. -/
theorem unread_le (h : (system capacity chunks).Reachable s) (fd : Stream) :
    (s.pipe fd).unread.length ≤ capacity := by
  have hall : ∀ fd, (s.pipe fd).unread.length ≤ capacity := by
    apply h.invariant (I := fun s => ∀ fd, (s.pipe fd).unread.length ≤ capacity)
    · rintro s₀ rfl fd
      exact Nat.zero_le _
    · intro s₁ e s₂ hI _ hs g
      cases moves hs with
      | @writes fd bytes rest count hchunks hpos hle hroom =>
        by_cases hg : g = fd
        · subst hg
          simp only [Function.update_self, List.length_append, List.length_take]
          omega
        · simpa [Function.update_of_ne hg] using hI g
      | closes hchunks =>
        rw [unread_update_closed]
        exact hI g
      | @reads fd count hpc hpos hle =>
        by_cases hg : g = fd
        · subst hg
          have hbounded := hI g
          simp only [Function.update_self, List.length_drop]
          omega
        · simpa [Function.update_of_ne hg] using hI g
      | _ => exact hI g
  exact hall fd

/-- The child puts bytes into the pipe that is not read. -/
theorem writes_other {fd : Stream} {bytes : List UInt8} {rest : List Chunk} {count : Nat}
    (hchunks : s.chunks = (fd.other, bytes) :: rest) (hpos : 0 < count)
    (hle : count ≤ bytes.length) (hroom : (s.pipe fd.other).unread.length + count ≤ capacity) :
    ∃ s', step capacity s (.childWrites count) = some s' ∧
      s'.chunks = (fd.other, bytes.drop count) :: rest ∧ s'.pc = s.pc ∧
      s'.pipe fd = s.pipe fd ∧
      (s'.pipe fd.other).unread.length = (s.pipe fd.other).unread.length + count := by
  have hother : fd ≠ fd.other := by cases fd <;> decide
  refine ⟨{ s with
    chunks := (fd.other, bytes.drop count) :: rest
    pipe := Function.update s.pipe fd.other
      { s.pipe fd.other with unread := (s.pipe fd.other).unread ++ bytes.take count } },
    ?_, rfl, rfl, Function.update_of_ne hother _ _, ?_⟩
  · simp only [step, childWrites, hchunks]
    exact if_pos ⟨hpos, hle, hroom⟩
  · simp only [Function.update_self, List.length_append, List.length_take]
    omega

/-- From a read that is not called in time, the child runs into a full pipe. -/
theorem exists_deadlocked {fd : Stream} (hpc : s.pc = .reading fd)
    (hunread : (s.pipe fd).unread = []) (hclosed : (s.pipe fd).closed = false)
    (hbounded : (s.pipe fd.other).unread.length ≤ capacity)
    (hnot : capacity < (s.pipe fd.other).unread.length + burst fd s.chunks) :
    ∃ s', (system capacity chunks).Steps s s' ∧ s'.Deadlocked capacity := by
  generalize hrest : s.chunks = todo at hnot
  -- the child goes from one of its writes to the next
  induction todo generalizing s with
  | nil =>
    rw [burst] at hnot
    omega
  | cons chunk rest ih =>
    obtain ⟨g, bytes⟩ := chunk
    by_cases hempty : bytes = []
    · subst hempty
      rw [burst_cons_nil] at hnot
      obtain ⟨s', hsteps, hdead⟩ := ih (s := { s with chunks := rest }) hpc hunread hclosed
        hbounded rfl hnot
      have hstep : (system capacity chunks).step s .childReturns
          = some { s with chunks := rest } := by
        simp [system, step, hrest]
      exact ⟨s', (System.Steps.single hstep).trans hsteps, hdead⟩
    by_cases hg : g = fd
    · simp [burst, hg, hempty] at hnot
      omega
    obtain rfl := Stream.eq_other_of_ne hg
    rw [burst_cons_other] at hnot
    have hlength := List.length_pos_iff.mpr hempty
    by_cases hroom : (s.pipe fd.other).unread.length + bytes.length ≤ capacity
    · -- this write ends
      obtain ⟨t, ht, hchunks, htpc, hpipe, hused⟩ :=
        writes_other hrest hlength (Nat.le_refl _) hroom
      rw [List.drop_length] at hchunks
      have hreturn : step capacity t .childReturns = some { t with chunks := rest } := by
        simp [step, hchunks]
      obtain ⟨s', hsteps, hdead⟩ := ih (s := { t with chunks := rest }) (htpc.trans hpc)
        (by rw [hpipe]; exact hunread) (by rw [hpipe]; exact hclosed)
        (by rw [hused]; exact hroom) rfl (by rw [hused]; omega)
      have hwrite : (system capacity chunks).Steps s t :=
        System.Steps.single (e := .childWrites _) ht
      exact ⟨s', (hwrite.trans (System.Steps.single (e := .childReturns) hreturn)).trans hsteps,
        hdead⟩
    · -- this one does not
      obtain ⟨room, hcapacity⟩ := Nat.exists_eq_add_of_le hbounded
      by_cases hzero : room = 0
      · obtain ⟨byte, bytes, rfl⟩ := List.exists_cons_of_ne_nil hempty
        refine ⟨s, .refl s, fd, byte, bytes, rest, hrest, ?_, hpc, hunread, hclosed⟩
        omega
      · obtain ⟨t, ht, hchunks, htpc, hpipe, hused⟩ :=
          writes_other hrest (Nat.pos_of_ne_zero hzero) (by omega) (Nat.le_of_eq hcapacity.symm)
        have hleft : bytes.drop room ≠ [] := by
          rw [ne_eq, List.drop_eq_nil_iff]
          omega
        obtain ⟨byte, left, hcons⟩ := List.exists_cons_of_ne_nil hleft
        rw [hcons] at hchunks
        refine ⟨t, System.Steps.single (e := .childWrites room) ht, fd, byte, left, rest, hchunks,
          ?_, htpc.trans hpc, ?_, ?_⟩
        · omega
        · rw [hpipe]
          exact hunread
        · rw [hpipe]
          exact hclosed

/-- The condition leaves out no call that could go well. -/
theorem exists_deadlocked_of_not_readsInTime (h : (system capacity chunks).Reachable s)
    {e : Event} (hnot : ¬ s.ReadsInTime capacity e) :
    ∃ s', (system capacity chunks).Steps s s' ∧ s'.Deadlocked capacity := by
  cases e with
  | calls =>
    simp only [ReadsInTime, Fits, not_forall, Nat.not_le] at hnot
    obtain ⟨fd, hpc, hpositive, hunread, hclosed, hlt⟩ := hnot
    have hstep : step capacity s .calls = some { s with pc := .reading fd } := by
      simp [step, hpc, hpositive]
    have hcall : (system capacity chunks).Steps s { s with pc := .reading fd } :=
      System.Steps.single (e := .calls) hstep
    obtain ⟨s', hsteps, hdead⟩ : ∃ s', (system capacity chunks).Steps _ s' ∧ _ :=
      exists_deadlocked (s := { s with pc := .reading fd }) rfl hunread hclosed (unread_le h _) hlt
    exact ⟨s', hcall.trans hsteps, hdead⟩
  | _ => exact absurd trivial hnot

/-! ## Output that fits into the pipes -/

/-- Output that fits into the two pipes does not show the defect. -/
theorem readsInTime_of_length_le (hlength : ∀ fd, (bytesOf fd chunks).length ≤ capacity)
    (h : s.Flows chunks) (e : Event) : s.ReadsInTime capacity e := by
  cases e with
  | calls =>
    intro fd _ _ _ _
    have hflow := congrArg List.length (h.flow fd.other)
    have hle := hlength fd.other
    have hburst := burst_le fd s.chunks
    simp only [List.length_append] at hflow
    omega
  | _ => trivial

theorem captures_of_length_le (hlength : ∀ fd, (bytesOf fd chunks).length ≤ capacity)
    (h : (system capacity chunks).Reachable s) : s.Captures capacity chunks := by
  have hwhen : (system capacity chunks).ReachableWhen (ReadsInTime capacity) s :=
    h.restrict fun _ e hreach _ => readsInTime_of_length_le hlength (flows_of_reachable hreach) e
  have hdead := not_deadlocked (fits_of_reachable hwhen)
  exact ⟨hdead, fun hended => (flows_of_reachable h).captured hended⟩

/-! ## Two children -/

/-- A child that writes to both streams, and the thread waits for each of them. -/
def bothStreams : List Chunk := [(.out, [7, 8]), (.err, [9]), (.out, [10])]

theorem captures_bothStreams : ∃ s,
    (system 65536 bothStreams).ReachableWhen (ReadsInTime 65536) s ∧
    (s.pc = .ended ∧ s.captured .out = [7, 8, 10] ∧ s.captured .err = [9]) ∧
    s.Captures 65536 bothStreams := by
  obtain ⟨s, hreach, hs⟩ := System.exists_reachable_of_run (M := system 65536 bothStreams)
    (fun s => decide (s.pc = .ended ∧ s.captured .out = [7, 8, 10] ∧ s.captured .err = [9]))
    [.childWrites 1, .calls, .reads 1, .childWrites 1, .appends, .calls, .childReturns,
      .childWrites 1, .childReturns, .reads 1, .appends, .calls, .reads 1, .appends, .calls,
      .childWrites 1, .childReturns, .childCloses .out, .childCloses .err, .readsEnd, .calls,
      .reads 1, .appends, .calls, .calls, .readsEnd, .calls] rfl (by decide)
  have hwhen : (system 65536 bothStreams).ReachableWhen (ReadsInTime 65536) s :=
    hreach.restrict fun _ e hreach _ =>
      readsInTime_of_length_le (by rintro (_ | _) <;> decide) (flows_of_reachable hreach) e
  exact ⟨s, hwhen, of_decide_eq_true hs, captures_of_readsInTime hwhen⟩

/-- A child that writes a byte and then more to the same stream than a pipe holds:
    its first byte is read, and then the thread waits for the other stream. -/
theorem not_forall_captures : ¬ ∀ capacity chunks s,
    (system capacity chunks).Reachable s → s.Captures capacity chunks := by
  intro hall
  obtain ⟨bytes, hlength⟩ : ∃ bytes : List UInt8, bytes.length = 65537 :=
    ⟨List.replicate 65537 0, List.length_replicate⟩
  let chunks : List Chunk := [(.out, [0]), (.out, bytes)]
  have h₀ : (system 65536 chunks).Reachable { chunks := chunks } := .init rfl
  have h₁ := h₀.next (e := .childWrites 1) trivial rfl
  have h₂ := h₁.next (e := .childReturns) trivial rfl
  have h₃ := h₂.next (e := .calls) trivial rfl
  have h₄ := h₃.next (e := .reads 1) trivial rfl
  have h₅ := h₄.next (e := .appends) trivial rfl
  refine absurd (exists_deadlocked_of_not_readsInTime (e := .calls) h₅ fun h => ?_) ?_
  · have hle : 0 + (bytes.length + 0) ≤ 65536 := h .err rfl rfl rfl rfl
    omega
  · rintro ⟨s, hsteps, hdead⟩
    exact (hall 65536 chunks s (h₅.steps hsteps)).noDeadlock hdead

end IoCapture

end Arras4Core.Execute
