/-
  Arras4Core.Network.MultiBuffer

  `network::MultiBuffer`: data written piecewise into a sequence of buffers
  that is extended as needed.  `reset` forgets the data but keeps the buffers,
  so later writes go into buffers that still hold earlier bytes.

  A value carries that its first `mUsedBuffers` buffers exist, and that new
  buffers are not empty (with `mInitialSize = 0` the write loop would allocate
  empty buffers for ever).

  Main results: the write loop ends by its own condition
  (`writeLoop_remaining`), and a write appends its data to the contents of the
  used buffers (`contents_write`), whatever the reused buffers held.
-/

import Arras4Core.Network.Buffer

namespace Arras4Core.Network

/-- Size of the first buffer by default (1Mb). -/
def INITIAL_BUFFER_SIZE : Nat := 1024 * 1024

theorem initial_size_pos : 0 < INITIAL_BUFFER_SIZE := by decide

/-- Size at which buffers stop doubling by default (1Gb). -/
def LINEAR_BUFFER_SIZE : Nat := 1024 * 1024 * 1024

/-- `network::MultiBuffer`. -/
structure MultiBuffer where
  mInitialSize : Nat
  mLinearSize : Nat
  mBytesWritten : Nat := 0
  mReadBuffer : Nat := 0
  mBytesRead : Nat := 0
  mUsedBuffers : Nat := 0
  mBuffers : List Buffer := []
  initial_pos : 0 < mInitialSize
  used_le : mUsedBuffers ≤ mBuffers.length

namespace MultiBuffer

/-- The constructor. -/
def new (initialSize linearSize : Nat) (h : 0 < initialSize) : MultiBuffer where
  mInitialSize := initialSize
  mLinearSize := linearSize
  initial_pos := h
  used_le := Nat.zero_le _

def nextSize (mb : MultiBuffer) (size : Nat) : Nat :=
  if size = 0 then mb.mInitialSize
  else if size < mb.mLinearSize then size * 2
  else size

def reset (mb : MultiBuffer) : MultiBuffer :=
  { mb with
    mBytesWritten := 0, mBytesRead := 0, mUsedBuffers := 0, mReadBuffer := 0
    used_le := Nat.zero_le _ }

def bufferCount (mb : MultiBuffer) : Nat := mb.mUsedBuffers

/-- The buffers in use. -/
def usedBuffers (mb : MultiBuffer) : List Buffer := mb.mBuffers.take mb.mUsedBuffers

/-- The unread bytes of the buffers in use, in order. -/
def contents (mb : MultiBuffer) : Bytes := mb.usedBuffers.flatMap Buffer.contents

/-- Capacity left in the current end buffer; nothing when no buffer is in use. -/
def endCapacity (mb : MultiBuffer) : Nat :=
  match mb.usedBuffers.getLast? with
  | none => 0
  | some buf => buf.remainingCapacity

/-- Size of a buffer to allocate after the used ones. -/
def newSize (mb : MultiBuffer) : Nat :=
  match mb.usedBuffers.getLast? with
  | none => mb.mInitialSize
  | some buf => mb.nextSize buf.capacity

/-- Take the next buffer into use: reset an existing one, or allocate. -/
def useNextBuffer (mb : MultiBuffer) : MultiBuffer :=
  if h : mb.mUsedBuffers < mb.mBuffers.length then
    { mb with
      mBuffers := mb.mBuffers.set mb.mUsedBuffers (mb.mBuffers[mb.mUsedBuffers]).reset
      mUsedBuffers := mb.mUsedBuffers + 1
      used_le := by rw [List.length_set]; omega }
  else
    { mb with
      mBuffers := mb.mBuffers ++ [Buffer.alloc mb.newSize]
      mUsedBuffers := mb.mUsedBuffers + 1
      used_le := by rw [List.length_append, List.length_singleton]; have := mb.used_le; omega }

/-- Write into the current end buffer. -/
def writeEnd (mb : MultiBuffer) (data : Bytes) : MultiBuffer :=
  match mb.mBuffers[mb.mUsedBuffers - 1]? with
  | none => mb
  | some buf =>
    { mb with
      mBuffers := mb.mBuffers.set (mb.mUsedBuffers - 1) (buf.write data)
      used_le := by rw [List.length_set]; exact mb.used_le }

/-- The buffer the next bytes go into: the end buffer, or the one after it when
    that is full. -/
def withRoom (mb : MultiBuffer) : MultiBuffer :=
  if mb.endCapacity = 0 then mb.useNextBuffer else mb

/-- One pass of the write loop: the multibuffer afterwards, and the data still
    to be written. -/
def writePass (mb : MultiBuffer) (data : Bytes) : MultiBuffer × Bytes :=
  let toWrite := min data.length mb.withRoom.endCapacity
  (mb.withRoom.writeEnd (data.take toWrite), data.drop toWrite)

/-- The write loop, for at most `fuel` passes. -/
def writeLoop : Nat → MultiBuffer → Bytes → MultiBuffer × Bytes
  | 0, mb, data => (mb, data)
  | fuel + 1, mb, data =>
    if data = [] then (mb, data)
    else writeLoop fuel (mb.writePass data).1 (mb.writePass data).2

/-- Bound on the passes of the write loop: each writes a byte or moves on to an
    existing buffer. -/
def writeMeasure (mb : MultiBuffer) (data : Bytes) : Nat :=
  data.length + (mb.mBuffers.length - mb.mUsedBuffers)

def write (mb : MultiBuffer) (data : Bytes) : MultiBuffer :=
  { (writeLoop (mb.writeMeasure data) mb data).1 with
    mBytesWritten := mb.mBytesWritten + data.length }

/-- Fails when the last buffer is not in use. -/
def addBuffer (mb : MultiBuffer) (buf : Buffer) : Bool × MultiBuffer :=
  if mb.mUsedBuffers = mb.mBuffers.length then
    (true,
     { mb with
       mBuffers := mb.mBuffers ++ [buf]
       mUsedBuffers := mb.mUsedBuffers + 1
       used_le := by rw [List.length_append, List.length_singleton]; have := mb.used_le; omega })
  else (false, mb)

/-- The buffers at the front whose total capacity stays within a bound. -/
def shrinkTarget (maxCapacity : Nat) : Nat → List Buffer → Nat
  | _, [] => 0
  | capacity, buf :: rest =>
    if capacity + buf.capacity > maxCapacity then 0
    else shrinkTarget maxCapacity (capacity + buf.capacity) rest + 1

/-- Drop buffers from the end, but none in use. -/
def shrinkTo (mb : MultiBuffer) (maxCapacity : Nat) : MultiBuffer :=
  let target := max (shrinkTarget maxCapacity 0 mb.mBuffers) mb.mUsedBuffers
  { mb with
    mBuffers := mb.mBuffers.take target
    used_le := by rw [List.length_take]; have := mb.used_le; omega }

/-! ## The end buffer -/

theorem usedBuffers_length (mb : MultiBuffer) : mb.usedBuffers.length = mb.mUsedBuffers := by
  rw [usedBuffers, List.length_take, Nat.min_eq_left mb.used_le]

/-- The buffers, split at the end buffer. -/
theorem buffers_split {mb : MultiBuffer} (h : 0 < mb.mUsedBuffers) :
    ∃ front buf rest, mb.mBuffers = front ++ buf :: rest ∧
      mb.mUsedBuffers = front.length + 1 ∧ mb.usedBuffers = front ++ [buf] := by
  have hlt : mb.mUsedBuffers - 1 < mb.mBuffers.length := by have := mb.used_le; omega
  refine ⟨mb.mBuffers.take (mb.mUsedBuffers - 1), mb.mBuffers[mb.mUsedBuffers - 1],
    mb.mBuffers.drop mb.mUsedBuffers, ?_, ?_, ?_⟩
  · have hcons := List.drop_eq_getElem_cons hlt
    rw [Nat.sub_add_cancel h] at hcons
    rw [← hcons, List.take_append_drop]
  · rw [List.length_take]; omega
  · rw [usedBuffers, ← List.take_succ_eq_append_getElem hlt, Nat.sub_add_cancel h]

theorem nextSize_pos (mb : MultiBuffer) (size : Nat) : 0 < mb.nextSize size := by
  have := mb.initial_pos
  unfold nextSize
  split
  · exact this
  · split <;> omega

theorem newSize_pos (mb : MultiBuffer) : 0 < mb.newSize := by
  unfold newSize
  split
  · exact mb.initial_pos
  · exact mb.nextSize_pos _

/-- The next buffer starts empty, whatever an earlier use left in it. -/
theorem useNextBuffer_usedBuffers (mb : MultiBuffer) :
    ∃ buf, mb.useNextBuffer.usedBuffers = mb.usedBuffers ++ [buf] ∧ buf.contents = [] ∧
      (mb.mUsedBuffers = mb.mBuffers.length → buf = Buffer.alloc mb.newSize) := by
  unfold useNextBuffer
  split
  · next h =>
    refine ⟨(mb.mBuffers[mb.mUsedBuffers]).reset, ?_, Buffer.contents_reset _, by omega⟩
    simp only [usedBuffers]
    rw [List.take_succ_eq_append_getElem (by rw [List.length_set]; exact h),
      List.getElem_set_self, List.take_set_of_le (Nat.le_refl _)]
  · next h =>
    have heq : mb.mUsedBuffers = mb.mBuffers.length := by have := mb.used_le; omega
    refine ⟨Buffer.alloc mb.newSize, ?_, Buffer.contents_alloc _, fun _ => rfl⟩
    simp only [usedBuffers, heq, List.take_length]
    rw [← List.length_singleton (a := Buffer.alloc mb.newSize), ← List.length_append,
      List.take_length]

theorem useNextBuffer_measure (mb : MultiBuffer) :
    mb.useNextBuffer.mBuffers.length - mb.useNextBuffer.mUsedBuffers
      = mb.mBuffers.length - mb.mUsedBuffers - 1 := by
  unfold useNextBuffer
  split
  · simp only [List.length_set]; omega
  · simp only [List.length_append, List.length_singleton]; omega

theorem contents_useNextBuffer (mb : MultiBuffer) : mb.useNextBuffer.contents = mb.contents := by
  obtain ⟨buf, hused, hbuf, -⟩ := mb.useNextBuffer_usedBuffers
  rw [contents, hused, List.flatMap_append, List.flatMap_singleton, hbuf, List.append_nil]
  rfl

theorem contents_withRoom (mb : MultiBuffer) : mb.withRoom.contents = mb.contents := by
  unfold withRoom
  split
  · exact mb.contents_useNextBuffer
  · rfl

theorem withRoom_used_pos (mb : MultiBuffer) : 0 < mb.withRoom.mUsedBuffers := by
  unfold withRoom
  split
  · unfold useNextBuffer
    split <;> exact Nat.succ_pos _
  · next h =>
    by_contra hzero
    apply h
    have : mb.usedBuffers = [] := by
      rw [usedBuffers, Nat.eq_zero_of_not_pos hzero, List.take_zero]
    rw [endCapacity, this]
    rfl

/-- Writing to the end buffer replaces it and no other. -/
theorem writeEnd_usedBuffers {mb : MultiBuffer} {front : List Buffer} {buf : Buffer}
    (h : mb.usedBuffers = front ++ [buf]) (data : Bytes) :
    (mb.writeEnd data).usedBuffers = front ++ [buf.write data] ∧
      (mb.writeEnd data).mBuffers.length = mb.mBuffers.length ∧
      (mb.writeEnd data).mUsedBuffers = mb.mUsedBuffers := by
  have hpos : 0 < mb.mUsedBuffers := by
    rw [← usedBuffers_length, h, List.length_append, List.length_singleton]; omega
  obtain ⟨front', buf', rest, hbufs, hused, hsplit⟩ := buffers_split hpos
  rw [hsplit] at h
  obtain ⟨rfl, hb⟩ := List.append_inj' h rfl
  obtain rfl := List.singleton_inj.mp hb
  have hidx : mb.mUsedBuffers - 1 = front'.length := by omega
  have hget : mb.mBuffers[mb.mUsedBuffers - 1]? = some buf' := by
    rw [hbufs, hidx, List.getElem?_append_right (Nat.le_refl _), Nat.sub_self]
    rfl
  unfold writeEnd
  rw [hget]
  refine ⟨?_, by rw [List.length_set], rfl⟩
  have hset : (front' ++ buf' :: rest).set front'.length (buf'.write data)
      = (front' ++ [buf'.write data]) ++ rest := by simp
  have hlen : front'.length + 1 = (front' ++ [buf'.write data]).length := by simp
  simp only [usedBuffers]
  rw [hidx, hused, hbufs, hset, hlen, List.take_left]

/-! ## One pass of the write loop -/

theorem withRoom_endCapacity (mb : MultiBuffer) :
    ∃ front buf, mb.withRoom.usedBuffers = front ++ [buf] ∧
      mb.withRoom.endCapacity = buf.remainingCapacity := by
  obtain ⟨front, buf, -, -, -, hused⟩ := buffers_split mb.withRoom_used_pos
  exact ⟨front, buf, hused, by rw [endCapacity, hused, List.getLast?_concat]⟩

/-- A pass moves bytes from the data to the end of the contents. -/
theorem contents_writePass (mb : MultiBuffer) (data : Bytes) :
    (mb.writePass data).1.contents ++ (mb.writePass data).2 = mb.contents ++ data := by
  obtain ⟨front, buf, hused, hcap⟩ := mb.withRoom_endCapacity
  have hbefore : mb.contents = front.flatMap Buffer.contents ++ buf.contents := by
    rw [← mb.contents_withRoom, contents, hused, List.flatMap_append, List.flatMap_singleton]
  have hafter : (mb.writePass data).1.contents
      = front.flatMap Buffer.contents ++ (buf.contents ++
          data.take (min data.length mb.withRoom.endCapacity)) := by
    rw [writePass, contents, (writeEnd_usedBuffers hused _).1, List.flatMap_append,
      List.flatMap_singleton, Buffer.contents_write, List.take_take, ← hcap,
      Nat.min_eq_right (Nat.min_le_right _ _)]
  rw [hafter, hbefore, writePass]
  simp only [List.append_assoc, List.take_append_drop]

/-- A pass writes at least one byte, or moves on to an existing buffer. -/
theorem writePass_measure (mb : MultiBuffer) {data : Bytes} (hdata : data ≠ []) :
    (mb.writePass data).1.writeMeasure (mb.writePass data).2 < mb.writeMeasure data := by
  obtain ⟨front, buf, hused, hcap⟩ := mb.withRoom_endCapacity
  have hlen := List.length_pos_iff.mpr hdata
  have hmb : (mb.writePass data).1.mBuffers.length - (mb.writePass data).1.mUsedBuffers
      = mb.withRoom.mBuffers.length - mb.withRoom.mUsedBuffers := by
    simp only [writePass]
    rw [(writeEnd_usedBuffers hused _).2.1, (writeEnd_usedBuffers hused _).2.2]
  have hdrop : (mb.writePass data).2.length
      = data.length - min data.length mb.withRoom.endCapacity := by
    simp only [writePass, List.length_drop]
  have hprogress : 0 < mb.withRoom.endCapacity ∨
      mb.withRoom.mBuffers.length - mb.withRoom.mUsedBuffers
        < mb.mBuffers.length - mb.mUsedBuffers := by
    unfold withRoom
    split
    · by_cases hfull : mb.mUsedBuffers = mb.mBuffers.length
      · -- a buffer is allocated, and it is not empty
        obtain ⟨new, hnew, -, halloc⟩ := mb.useNextBuffer_usedBuffers
        refine Or.inl ?_
        rw [endCapacity, hnew, List.getLast?_concat, halloc hfull]
        simpa using mb.newSize_pos
      · -- a buffer left by an earlier use may be empty; there are only so many
        refine Or.inr ?_
        have := mb.used_le
        rw [useNextBuffer_measure]; omega
    · next h => exact Or.inl (Nat.pos_of_ne_zero h)
  have hle : mb.withRoom.mBuffers.length - mb.withRoom.mUsedBuffers
      ≤ mb.mBuffers.length - mb.mUsedBuffers := by
    unfold withRoom
    split
    · rw [useNextBuffer_measure]; omega
    · exact Nat.le_refl _
  simp only [writeMeasure]
  rw [hmb, hdrop]
  omega

/-! ## The whole loop -/

/-- With as many passes as the measure allows, the loop has written all data. -/
theorem writeLoop_remaining (fuel : Nat) (mb : MultiBuffer) (data : Bytes)
    (h : mb.writeMeasure data ≤ fuel) : (writeLoop fuel mb data).2 = [] := by
  induction fuel generalizing mb data with
  | zero =>
    have : data.length = 0 := by simp only [writeMeasure] at h; omega
    exact List.eq_nil_of_length_eq_zero this
  | succ fuel ih =>
    rw [writeLoop]
    split
    · next hnil => exact hnil
    · next hnil =>
      have := mb.writePass_measure hnil
      exact ih _ _ (by omega)

theorem contents_writeLoop (fuel : Nat) (mb : MultiBuffer) (data : Bytes) :
    (writeLoop fuel mb data).1.contents ++ (writeLoop fuel mb data).2 = mb.contents ++ data := by
  induction fuel generalizing mb data with
  | zero => rfl
  | succ fuel ih =>
    rw [writeLoop]
    split
    · rfl
    · rw [ih, contents_writePass]

/-- A write appends its data to the contents. -/
theorem contents_write (mb : MultiBuffer) (data : Bytes) :
    (mb.write data).contents = mb.contents ++ data := by
  have hloop := contents_writeLoop (mb.writeMeasure data) mb data
  rw [writeLoop_remaining _ _ _ (Nat.le_refl _), List.append_nil] at hloop
  exact hloop

@[simp] theorem mBytesWritten_write (mb : MultiBuffer) (data : Bytes) :
    (mb.write data).mBytesWritten = mb.mBytesWritten + data.length := rfl

@[simp] theorem contents_reset (mb : MultiBuffer) : mb.reset.contents = [] := by
  simp [contents, usedBuffers, reset]

@[simp] theorem mBytesWritten_reset (mb : MultiBuffer) : mb.reset.mBytesWritten = 0 := rfl

@[simp] theorem contents_shrinkTo (mb : MultiBuffer) (maxCapacity : Nat) :
    (mb.shrinkTo maxCapacity).contents = mb.contents := by
  simp only [contents, usedBuffers, shrinkTo]
  rw [List.take_take, Nat.min_eq_left (Nat.le_max_right _ _)]

@[simp] theorem contents_new (initialSize linearSize : Nat) (h : 0 < initialSize) :
    (new initialSize linearSize h).contents = [] := rfl

end MultiBuffer

end Arras4Core.Network
