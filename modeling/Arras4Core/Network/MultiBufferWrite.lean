/-
  Arras4Core.Network.MultiBufferWrite

  The write side of a `MultiBuffer`: any sequence of `write`, `reset` and
  `shrinkTo`, and `collect` at any point of it.

  An allocation may fail.  `write` then throws with part of its data stored and
  none of it counted, and the counter is wrong until the next `reset`; the
  history of a run (`record`) says what is known to be in the buffers.

  Main results: `writeSide_of_reachable`, and `tryWrite_error` for a write that
  throws.
-/

import Arras4Core.Api.Exception
import Arras4Core.Lib.System
import Arras4Core.Network.MultiBuffer

namespace Arras4Core.Network

open Arras4Core.Lib
open Arras4Core.Api (Exception)

namespace MultiBuffer

/-! ## A write whose allocations may fail -/

/-- `useNextBuffer` allocates in the next pass. -/
def allocates (mb : MultiBuffer) : Prop :=
  mb.endCapacity = 0 ∧ mb.mUsedBuffers = mb.mBuffers.length

instance (mb : MultiBuffer) : Decidable mb.allocates := inferInstanceAs (Decidable (_ ∧ _))

/-- The write loop, where `hasMemory n` says whether there is memory for buffer
    number `n`; `none` if it has not ended after `fuel` passes. -/
def tryWriteLoop (hasMemory : Nat → Bool) :
    Nat → MultiBuffer → Bytes → Option (Except Exception Unit × MultiBuffer)
  | 0, mb, data => if data = [] then some (.ok (), mb) else none
  | fuel + 1, mb, data =>
    if data = [] then some (.ok (), mb)
    else if mb.allocates ∧ hasMemory mb.mBuffers.length = false then
      some (.error (.outOfMemoryError "Write buffer allocation failed : out of memory?"), mb)
    else tryWriteLoop hasMemory fuel (mb.writePass data).1 (mb.writePass data).2

/-- `write`: how the call ends, if it does. -/
def tryWrite (hasMemory : Nat → Bool) (mb : MultiBuffer) (data : Bytes) :
    Option (Except Exception Unit × MultiBuffer) :=
  match tryWriteLoop hasMemory (mb.writeMeasure data) mb data with
  | some (.ok _, mb') =>
    some (.ok (), { mb' with mBytesWritten := mb'.mBytesWritten + data.length })
  | r => r

theorem mBytesWritten_writePass (mb : MultiBuffer) (data : Bytes) :
    (mb.writePass data).1.mBytesWritten = mb.mBytesWritten := by
  have hroom : mb.withRoom.mBytesWritten = mb.mBytesWritten := by
    unfold withRoom useNextBuffer
    split
    · split <;> rfl
    · rfl
  rw [← hroom]
  simp only [writePass, writeEnd]
  split <;> rfl

/-- The loop ends by its own condition or by an exception. -/
theorem tryWriteLoop_isSome (hasMemory : Nat → Bool) (fuel : Nat) (mb : MultiBuffer) (data : Bytes)
    (h : mb.writeMeasure data ≤ fuel) : (tryWriteLoop hasMemory fuel mb data).isSome := by
  induction fuel generalizing mb data with
  | zero =>
    have hlen : data.length = 0 := by simp only [writeMeasure] at h; omega
    rw [tryWriteLoop, if_pos (List.eq_nil_of_length_eq_zero hlen)]
    rfl
  | succ fuel ih =>
    rw [tryWriteLoop]
    split
    · rfl
    · next hnil =>
      split
      · rfl
      · have hless := mb.writePass_measure hnil
        exact ih _ _ (by omega)

/-- A loop that returns has done what it does with memory enough. -/
theorem tryWriteLoop_ok {hasMemory : Nat → Bool} {fuel : Nat} {mb mb' : MultiBuffer} {data : Bytes}
    (h : tryWriteLoop hasMemory fuel mb data = some (.ok (), mb')) :
    writeLoop fuel mb data = (mb', []) := by
  induction fuel generalizing mb data with
  | zero =>
    rw [tryWriteLoop] at h
    split at h
    · next hnil =>
      cases h
      rw [writeLoop, hnil]
    · cases h
  | succ fuel ih =>
    rw [tryWriteLoop] at h
    rw [writeLoop]
    split at h
    · next hnil =>
      cases h
      rw [if_pos hnil, hnil]
    · next hnil =>
      rw [if_neg hnil]
      split at h
      · cases h
      · exact ih h

theorem mBytesWritten_writeLoop (fuel : Nat) (mb : MultiBuffer) (data : Bytes) :
    (writeLoop fuel mb data).1.mBytesWritten = mb.mBytesWritten := by
  induction fuel generalizing mb data with
  | zero => rfl
  | succ fuel ih =>
    rw [writeLoop]
    split
    · rfl
    · rw [ih, mBytesWritten_writePass]

/-- A loop that throws has stored the data up to some point. -/
theorem tryWriteLoop_error {hasMemory : Nat → Bool} {fuel : Nat} {mb mb' : MultiBuffer}
    {data : Bytes} {e : Exception}
    (h : tryWriteLoop hasMemory fuel mb data = some (.error e, mb')) :
    e = .outOfMemoryError "Write buffer allocation failed : out of memory?" ∧
      mb'.mBytesWritten = mb.mBytesWritten ∧
      ∃ rest, rest ≠ [] ∧ mb'.contents ++ rest = mb.contents ++ data := by
  induction fuel generalizing mb data with
  | zero =>
    rw [tryWriteLoop] at h
    split at h <;> cases h
  | succ fuel ih =>
    rw [tryWriteLoop] at h
    split at h
    · cases h
    · next hnil =>
      split at h
      · cases h
        exact ⟨rfl, rfl, data, hnil, rfl⟩
      · obtain ⟨he, hbytes, rest, hrest, hcontents⟩ := ih h
        refine ⟨he, ?_, rest, hrest, ?_⟩
        · rw [hbytes, mBytesWritten_writePass]
        · rw [hcontents, contents_writePass]

/-- Every write ends. -/
theorem tryWrite_isSome (hasMemory : Nat → Bool) (mb : MultiBuffer) (data : Bytes) :
    (tryWrite hasMemory mb data).isSome := by
  obtain ⟨⟨outcome, mb'⟩, hloop⟩ := Option.isSome_iff_exists.mp
    (tryWriteLoop_isSome hasMemory (mb.writeMeasure data) mb data (Nat.le_refl _))
  rw [tryWrite, hloop]
  cases outcome <;> rfl

/-- A write that returns is `write`. -/
theorem tryWrite_ok {hasMemory : Nat → Bool} {mb mb' : MultiBuffer} {data : Bytes}
    (h : tryWrite hasMemory mb data = some (.ok (), mb')) : mb' = mb.write data := by
  rw [tryWrite] at h
  split at h
  · next u mb₁ hloop =>
    have hwritten := tryWriteLoop_ok hloop
    have hbytes : mb₁.mBytesWritten = mb.mBytesWritten := by
      have hloop := mBytesWritten_writeLoop (mb.writeMeasure data) mb data
      rwa [hwritten] at hloop
    cases h
    simp only [write, hwritten, hbytes]
  · next hnot => exact absurd h (hnot () mb')

/-- A write that throws has stored some of its data, or none, and has counted
    nothing. -/
theorem tryWrite_error {hasMemory : Nat → Bool} {mb mb' : MultiBuffer} {data : Bytes}
    {e : Exception} (h : tryWrite hasMemory mb data = some (.error e, mb')) :
    e = .outOfMemoryError "Write buffer allocation failed : out of memory?" ∧
      mb'.mBytesWritten = mb.mBytesWritten ∧
      ∃ rest, rest ≠ [] ∧ mb'.contents ++ rest = mb.contents ++ data := by
  rw [tryWrite] at h
  split at h
  · cases h
  · exact tryWriteLoop_error h

/-! ## Collecting -/

/-- The loop of `collect`; it stops when the target is full. -/
def collectInto : List Buffer → Buffer → Buffer
  | [], out => out
  | buf :: rest, out =>
    if out.remainingCapacity = 0 then out else collectInto rest (out.write buf.contents)

def collect (mb : MultiBuffer) (out : Buffer) : Buffer := collectInto mb.usedBuffers out

theorem contents_collectInto (bufs : List Buffer) (out : Buffer) :
    (collectInto bufs out).contents
      = out.contents ++ (bufs.flatMap Buffer.contents).take out.remainingCapacity := by
  induction bufs generalizing out with
  | nil => simp [collectInto]
  | cons buf rest ih =>
    rw [collectInto]
    split
    · next hfull => rw [hfull, List.take_zero, List.append_nil]
    · rw [ih, Buffer.contents_write, Buffer.remainingCapacity_write, List.flatMap_cons,
        List.take_append, List.append_assoc]

/-- The contents are copied, as far as there is room. -/
theorem contents_collect (mb : MultiBuffer) (out : Buffer) :
    (mb.collect out).contents = out.contents ++ mb.contents.take out.remainingCapacity :=
  contents_collectInto mb.usedBuffers out

/-! ## Any sequence of calls -/

/-- A call of the write side.  For a `write`, whether there is memory for each
    buffer it may want to allocate. -/
inductive WriteCall
  | write (data : Bytes) (hasMemory : Nat → Bool)
  | reset
  | shrinkTo (maxCapacity : Nat)

/-- The multibuffer after a call, whether it returned or threw. -/
def afterWriteCall (mb : MultiBuffer) : WriteCall → Option MultiBuffer
  | .write data hasMemory => (tryWrite hasMemory mb data).map Prod.snd
  | .reset => some mb.reset
  | .shrinkTo maxCapacity => some (mb.shrinkTo maxCapacity)

/-- The data written since the last reset; unknown after a `write` has thrown. -/
def record (mb : MultiBuffer) : WriteCall → Option Bytes → Option Bytes
  | .write data hasMemory, written =>
    match tryWrite hasMemory mb data with
    | some (.ok _, _) => written.map (· ++ data)
    | _ => none
  | .reset, _ => some []
  | .shrinkTo _, written => written

def writeSystem (initialSize linearSize : Nat) (h : 0 < initialSize) :
    System (MultiBuffer × Option Bytes) WriteCall :=
  System.recording ⟨fun mb => mb = new initialSize linearSize h, afterWriteCall⟩ (some []) record

/-- What is known of a multibuffer that holds `written`. -/
structure Holds (mb : MultiBuffer) (written : Bytes) : Prop where
  contents : mb.contents = written
  bytesWritten : mb.mBytesWritten = written.length
  collect : ∀ out : Buffer,
    (mb.collect out).contents = out.contents ++ written.take out.remainingCapacity

theorem holds_of_contents {mb : MultiBuffer} {written : Bytes} (hcontents : mb.contents = written)
    (hbytes : mb.mBytesWritten = written.length) : mb.Holds written where
  contents := hcontents
  bytesWritten := hbytes
  collect out := by rw [contents_collect, hcontents]

/-- `shrinkTo` keeps the used buffers, the counter and what they hold. -/
structure ShrinksUnused (mb : MultiBuffer) : Prop where
  used : ∀ maxCapacity, (mb.shrinkTo maxCapacity).usedBuffers = mb.usedBuffers
  count : ∀ maxCapacity, (mb.shrinkTo maxCapacity).mUsedBuffers = mb.mUsedBuffers
  contents : ∀ maxCapacity, (mb.shrinkTo maxCapacity).contents = mb.contents
  bytesWritten : ∀ maxCapacity, (mb.shrinkTo maxCapacity).mBytesWritten = mb.mBytesWritten

theorem shrinksUnused (mb : MultiBuffer) : mb.ShrinksUnused where
  used maxCapacity := by
    simp only [usedBuffers, shrinkTo]
    rw [List.take_take, Nat.min_eq_left (Nat.le_max_right _ _)]
  count _ := rfl
  contents := mb.contents_shrinkTo
  bytesWritten _ := rfl

/-- One call keeps the history true. -/
theorem Holds.next {mb mb' : MultiBuffer} {call : WriteCall} {hist : Option Bytes}
    (h : ∀ written, hist = some written → mb.Holds written)
    (hstep : afterWriteCall mb call = some mb') (written : Bytes)
    (hrecord : record mb call hist = some written) : mb'.Holds written := by
  cases call with
  | write data hasMemory =>
    obtain ⟨⟨outcome, mb₁⟩, htry, rfl⟩ := Option.map_eq_some_iff.mp hstep
    rw [record, htry] at hrecord
    cases outcome with
    | error e => cases hrecord
    | ok u =>
      obtain ⟨before, hbefore, rfl⟩ := Option.map_eq_some_iff.mp hrecord
      obtain rfl := tryWrite_ok htry
      have hheld := h before hbefore
      refine holds_of_contents ?_ ?_
      · rw [contents_write, hheld.contents]
      · rw [mBytesWritten_write, hheld.bytesWritten, List.length_append]
  | reset =>
    cases hstep
    cases hrecord
    exact holds_of_contents (contents_reset mb) rfl
  | shrinkTo maxCapacity =>
    cases hstep
    have hheld := h written hrecord
    refine holds_of_contents ?_ ?_
    · rw [contents_shrinkTo, hheld.contents]
    · exact hheld.bytesWritten

section Reachable

variable {initialSize linearSize : Nat} {hpos : 0 < initialSize} {mb : MultiBuffer}
  {hist : Option Bytes}

/-- At every point of a run every write ends, the used buffers hold what was
    written since the last reset, and `shrinkTo` touches none of them. -/
theorem writeSide_of_reachable
    (h : (writeSystem initialSize linearSize hpos).Reachable (mb, hist)) :
    (∀ data hasMemory, (tryWrite hasMemory mb data).isSome) ∧
      (∀ written, hist = some written → mb.Holds written) ∧ mb.ShrinksUnused := by
  refine ⟨fun data hasMemory => tryWrite_isSome hasMemory mb data, ?_, mb.shrinksUnused⟩
  refine h.invariant (I := fun s => ∀ written, s.2 = some written → s.1.Holds written) ?_ ?_
  · rintro ⟨mb₀, hist₀⟩ ⟨rfl, rfl⟩ written hwritten
    cases hwritten
    exact holds_of_contents (contents_new _ _ _) rfl
  · rintro ⟨mb₁, hist₁⟩ call ⟨mb₂, hist₂⟩ hI - hs written hwritten
    obtain ⟨hstep, hrecord⟩ := System.of_recording_step hs
    exact Holds.next hI hstep written (hrecord.symm.trans hwritten)

end Reachable

/-- Written into buffers that hold three bytes of an earlier use, one of which is
    then removed. -/
theorem writeSide_reused : ∃ mb : MultiBuffer, mb.Holds [4, 5] := by
  obtain ⟨⟨mb, hist⟩, hreach, hhist⟩ := System.exists_reachable_of_run
    (M := writeSystem 2 2 (by decide)) (s := (new 2 2 (by decide), some []))
    (fun s => s.2 == some [4, 5])
    [.write [1, 2, 3] fun _ => true, .reset, .write [4, 5] fun _ => true, .shrinkTo 1]
    ⟨rfl, rfl⟩ (by decide)
  exact ⟨mb, (writeSide_of_reachable hreach).2.1 _ (eq_of_beq hhist)⟩

end MultiBuffer

end Arras4Core.Network
