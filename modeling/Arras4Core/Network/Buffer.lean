/-
  Arras4Core.Network.Buffer

  `network::Buffer`: a block of memory with a start and an end offset.

      <---------------- capacity ----------------->
      |...........|xxxxxxxxxxxxxxx|...............|
      |         start            end              |
      |<-consumed-><--remaining---><-remainingCapacity->

  The block is modelled whole, so that bytes left over from an earlier use are
  there to be read if an offset were wrong.  A value of the type carries the
  order of its offsets.
-/

import Arras4Core.Lib.Bytes

namespace Arras4Core.Network

open Arras4Core.Lib

/-- A sequence of bytes. -/
abbrev Bytes := List UInt8

/-- `network::Buffer`.  `mStart` and `mEnd` are offsets into the block, whose
    length is the distance from `mData` to `mFinal`. -/
structure Buffer where
  mData : Bytes
  mStart : Nat
  mEnd : Nat
  start_le_end : mStart ≤ mEnd
  end_le_final : mEnd ≤ mData.length

namespace Buffer

/-- `Buffer(size_t capacity)`.  The bytes of a new block are indeterminate; they
    are zero here, and nothing reads beyond `mEnd`. -/
def alloc (capacity : Nat) : Buffer where
  mData := List.replicate capacity 0
  mStart := 0
  mEnd := 0
  start_le_end := Nat.le_refl _
  end_le_final := Nat.zero_le _

/-- `Buffer(data, length, length)`: a filled buffer over an existing block. -/
def filled (data : Bytes) : Buffer where
  mData := data
  mStart := 0
  mEnd := data.length
  start_le_end := Nat.zero_le _
  end_le_final := Nat.le_refl _

def capacity (b : Buffer) : Nat := b.mData.length
def remaining (b : Buffer) : Nat := b.mEnd - b.mStart
def remainingCapacity (b : Buffer) : Nat := b.mData.length - b.mEnd
def consumed (b : Buffer) : Nat := b.mStart
def bytesWritten (b : Buffer) : Nat := b.mEnd

/-- The bytes from `start()` to `end()`. -/
def contents (b : Buffer) : Bytes := (b.mData.take b.mEnd).drop b.mStart

def reset (b : Buffer) : Buffer :=
  { b with mStart := 0, mEnd := 0, start_le_end := Nat.le_refl _, end_le_final := Nat.zero_le _ }

/-- The bytes a write of `data` stores: what fits before `mFinal`. -/
def accepted (b : Buffer) (data : Bytes) : Bytes := data.take b.remainingCapacity

theorem end_add_accepted_le (b : Buffer) (data : Bytes) :
    b.mEnd + (b.accepted data).length ≤ b.mData.length := by
  have := b.end_le_final
  simp only [accepted, remainingCapacity, List.length_take]
  omega

/-- `write`: clipped to the capacity. -/
def write (b : Buffer) (data : Bytes) : Buffer where
  mData := overwrite b.mData b.mEnd (b.accepted data)
  mStart := b.mStart
  mEnd := b.mEnd + (b.accepted data).length
  start_le_end := Nat.le_trans b.start_le_end (Nat.le_add_right _ _)
  end_le_final := by
    rw [overwrite_length (b.end_add_accepted_le data)]
    exact b.end_add_accepted_le data

/-- `read`: the bytes copied out, clipped to what remains. -/
def read (b : Buffer) (length : Nat) : Bytes × Buffer :=
  (b.contents.take length,
   { b with
     mStart := b.mStart + min length b.remaining
     start_le_end := by have := b.start_le_end; simp only [remaining]; omega })

/-- `skip`: the number of bytes skipped, clipped to what remains. -/
def skip (b : Buffer) (length : Nat) : Nat × Buffer :=
  (min length b.remaining,
   { b with
     mStart := b.mStart + min length b.remaining
     start_le_end := by have := b.start_le_end; simp only [remaining]; omega })

/-- `assign`: claim `length` bytes at the end, to be filled through the returned
    pointer (here the offset of the claimed window). -/
def assign (b : Buffer) (length : Nat) : Nat × Buffer :=
  (b.mEnd,
   { b with
     mEnd := b.mEnd + min length b.remainingCapacity
     start_le_end := Nat.le_trans b.start_le_end (Nat.le_add_right _ _)
     end_le_final := by have := b.end_le_final; simp only [remainingCapacity]; omega })

/-- A store of `data` through a pointer into the block. -/
def store (b : Buffer) (off : Nat) (data : Bytes) : Buffer :=
  if h : off + data.length ≤ b.mData.length then
    { b with
      mData := overwrite b.mData off data
      end_le_final := by rw [overwrite_length h]; exact b.end_le_final }
  else b

/-! ## The contents under each operation -/

@[simp] theorem contents_length (b : Buffer) : b.contents.length = b.remaining := by
  have h₁ := b.start_le_end
  have h₂ := b.end_le_final
  simp only [contents, remaining, List.length_drop, List.length_take]
  omega

@[simp] theorem contents_alloc (capacity : Nat) : (alloc capacity).contents = [] := by
  simp [contents, alloc]

@[simp] theorem contents_filled (data : Bytes) : (filled data).contents = data := by
  simp [contents, filled]

@[simp] theorem contents_reset (b : Buffer) : b.reset.contents = [] := by
  simp [contents, reset]

@[simp] theorem capacity_alloc (n : Nat) : (alloc n).capacity = n := by
  simp [capacity, alloc]

@[simp] theorem remainingCapacity_alloc (n : Nat) : (alloc n).remainingCapacity = n := by
  simp [remainingCapacity, alloc]

@[simp] theorem remainingCapacity_reset (b : Buffer) : b.reset.remainingCapacity = b.capacity := by
  simp [remainingCapacity, reset, capacity]

@[simp] theorem capacity_reset (b : Buffer) : b.reset.capacity = b.capacity := rfl

@[simp] theorem capacity_write (b : Buffer) (data : Bytes) :
    (b.write data).capacity = b.capacity :=
  overwrite_length (b.end_add_accepted_le data)

@[simp] theorem remainingCapacity_write (b : Buffer) (data : Bytes) :
    (b.write data).remainingCapacity = b.remainingCapacity - data.length := by
  have hcapacity := overwrite_length (b.end_add_accepted_le data)
  have hend := b.end_le_final
  simp only [write, remainingCapacity, accepted, List.length_take] at hcapacity ⊢
  omega

/-- A write appends the bytes that fit and disturbs nothing before them. -/
theorem contents_write (b : Buffer) (data : Bytes) :
    (b.write data).contents = b.contents ++ data.take b.remainingCapacity := by
  have hle := b.end_add_accepted_le data
  have hstart : b.mStart ≤ (b.mData.take b.mEnd).length := by
    rw [List.length_take, Nat.min_eq_left b.end_le_final]
    exact b.start_le_end
  simp only [contents, write]
  rw [take_overwrite_end hle, List.drop_append_of_le_length hstart]
  rfl

/-- A read returns the first bytes of the contents and removes them. -/
theorem read_eq (b : Buffer) (length : Nat) :
    (b.read length).1 = b.contents.take length ∧
      (b.read length).2.contents = b.contents.drop length := by
  refine ⟨rfl, ?_⟩
  have hlen : (b.mData.take b.mEnd).length = b.mEnd := by
    rw [List.length_take, Nat.min_eq_left b.end_le_final]
  simp only [read, contents, List.drop_drop, remaining]
  rcases Nat.le_total length (b.mEnd - b.mStart) with h | h
  · rw [Nat.min_eq_left h]
  · rw [Nat.min_eq_right h, List.drop_eq_nil_of_le (by omega), List.drop_eq_nil_of_le (by omega)]

theorem consumed_read (b : Buffer) (length : Nat) :
    (b.read length).2.consumed = b.consumed + min length b.contents.length := by
  rw [contents_length]
  rfl

/-- A skip moves the start as a read of the same length does. -/
theorem skip_eq_read (b : Buffer) (length : Nat) :
    b.skip length = (min length b.contents.length, (b.read length).2) := by
  rw [contents_length]
  rfl

/-- Filling a buffer through `assign`: whatever the block held, the contents
    are the data stored. -/
theorem contents_fill (b : Buffer) {data : Bytes} (h : data.length ≤ b.capacity) :
    ((b.reset.assign data.length).2.store (b.reset.assign data.length).1 data).contents = data := by
  have hend : min data.length (b.mData.length - 0) = data.length := Nat.min_eq_left h
  have hfits : 0 + data.length ≤ b.mData.length := by rw [Nat.zero_add]; exact h
  have htake : (overwrite b.mData 0 data).take (0 + data.length) = b.mData.take 0 ++ data :=
    take_overwrite_end hfits
  simp only [assign, reset, store, remainingCapacity, hend, dif_pos hfits, contents, htake]
  simp

/-- Filling a buffer leaves its start at the first byte. -/
theorem consumed_fill (b : Buffer) (length off : Nat) (data : Bytes) :
    ((b.reset.assign length).2.store off data).consumed = 0 := by
  unfold store
  split <;> rfl

@[simp] theorem capacity_read (b : Buffer) (length : Nat) :
    (b.read length).2.capacity = b.capacity := rfl

end Buffer

end Arras4Core.Network
