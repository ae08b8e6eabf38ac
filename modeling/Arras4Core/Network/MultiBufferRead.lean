/-
  Arras4Core.Network.MultiBufferRead

  Reading a `MultiBuffer` across the boundaries of its buffers.

  The read loop runs while `mReadBuffer <= mUsedBuffers`, one buffer too far: a
  read for more than what is left goes on to a buffer that is not in use, or
  past the end of the array.  A read for at most what is left stops before
  that (`read_ok`).
-/

import Arras4Core.Api.Exception
import Arras4Core.Lib.Call
import Arras4Core.Network.MultiBuffer

namespace Arras4Core.Network

open Arras4Core.Lib
open Arras4Core.Api (Exception)

namespace MultiBuffer

def nextReadBuffer (mb : MultiBuffer) : MultiBuffer :=
  { mb with mReadBuffer := mb.mReadBuffer + 1 }

/-- Replace the buffer being read. -/
def setReadBuffer (mb : MultiBuffer) (buf : Buffer) : MultiBuffer :=
  { mb with
    mBuffers := mb.mBuffers.set mb.mReadBuffer buf
    used_le := by rw [List.length_set]; exact mb.used_le }

/-- The read loop, for at most `fuel` passes. -/
def readLoop : Nat → Nat → EStateM Exception MultiBuffer Bytes
  | 0, _ => pure []
  | fuel + 1, remaining => do
    let mb ← get
    if mb.mReadBuffer ≤ mb.mUsedBuffers ∧ 0 < remaining then
      match mb.mBuffers[mb.mReadBuffer]? with
      | none => throw .undefinedBehaviour
      | some buf =>
        if buf.remaining = 0 then
          set mb.nextReadBuffer
          readLoop fuel remaining
        else
          let toRead := min remaining buf.remaining
          set (mb.setReadBuffer (buf.read toRead).2)
          let rest ← readLoop fuel (remaining - toRead)
          return (buf.read toRead).1 ++ rest
    else return []

def read (length : Nat) : EStateM Exception MultiBuffer Bytes := do
  let mb ← get
  let data ← readLoop (length + (mb.mUsedBuffers + 1)) length
  modify fun mb => { mb with mBytesRead := mb.mBytesRead + data.length }
  return data

/-- The skip loop.  It counts bytes of the current buffer but does not advance
    the buffer's start. -/
def skipLoop : Nat → Nat → EStateM Exception MultiBuffer Nat
  | 0, _ => pure 0
  | fuel + 1, remaining => do
    let mb ← get
    if mb.mReadBuffer ≤ mb.mUsedBuffers ∧ 0 < remaining then
      match mb.mBuffers[mb.mReadBuffer]? with
      | none => throw .undefinedBehaviour
      | some buf =>
        if buf.remaining = 0 then
          set mb.nextReadBuffer
          skipLoop fuel remaining
        else
          let toSkip := min remaining buf.remaining
          let rest ← skipLoop fuel (remaining - toSkip)
          return toSkip + rest
    else return 0

def skip (length : Nat) : EStateM Exception MultiBuffer Nat := do
  let mb ← get
  let skipped ← skipLoop (length + (mb.mUsedBuffers + 1)) length
  modify fun mb => { mb with mBytesRead := mb.mBytesRead + skipped }
  return skipped

/-! ## Reads within what is left -/

/-- The buffers before the one being read have nothing left. -/
def FrontConsumed (mb : MultiBuffer) : Prop :=
  ∀ buf ∈ mb.mBuffers.take mb.mReadBuffer, buf.contents = []

theorem contents_of_take_eq_nil {bufs : List Buffer} (h : ∀ buf ∈ bufs, buf.contents = []) :
    bufs.flatMap Buffer.contents = [] := by
  rw [List.flatMap_eq_nil_iff]
  exact h

/-- While something is left, it starts in the buffer being read. -/
theorem exists_readBuffer {mb : MultiBuffer} (hfront : mb.FrontConsumed) (hne : mb.contents ≠ []) :
    ∃ front buf rest, mb.mBuffers = front ++ buf :: rest ∧ front.length = mb.mReadBuffer ∧
      mb.mReadBuffer < mb.mUsedBuffers ∧ (∀ b ∈ front, b.contents = []) ∧
      mb.contents = buf.contents
        ++ (rest.take (mb.mUsedBuffers - mb.mReadBuffer - 1)).flatMap Buffer.contents := by
  -- otherwise all used buffers are consumed
  have hlt : mb.mReadBuffer < mb.mUsedBuffers := by
    by_contra hge
    apply hne
    refine contents_of_take_eq_nil fun buf hbuf => hfront buf ?_
    exact List.take_subset_take_left _ (Nat.le_of_not_lt hge) hbuf
  have hidx : mb.mReadBuffer < mb.mBuffers.length := Nat.lt_of_lt_of_le hlt mb.used_le
  have hlen : (mb.mBuffers.take mb.mReadBuffer).length = mb.mReadBuffer := by
    rw [List.length_take, Nat.min_eq_left (Nat.le_of_lt hidx)]
  have hsplit : mb.mBuffers = mb.mBuffers.take mb.mReadBuffer
      ++ mb.mBuffers[mb.mReadBuffer] :: mb.mBuffers.drop (mb.mReadBuffer + 1) := by
    rw [← List.drop_eq_getElem_cons hidx, List.take_append_drop]
  refine ⟨mb.mBuffers.take mb.mReadBuffer, mb.mBuffers[mb.mReadBuffer],
    mb.mBuffers.drop (mb.mReadBuffer + 1), hsplit, hlen, hlt, hfront, ?_⟩
  have hused : mb.usedBuffers = mb.mBuffers.take mb.mReadBuffer
      ++ mb.mBuffers[mb.mReadBuffer] ::
        (mb.mBuffers.drop (mb.mReadBuffer + 1)).take (mb.mUsedBuffers - mb.mReadBuffer - 1) := by
    rw [usedBuffers]
    conv_lhs => rw [hsplit]
    rw [List.take_append, hlen, List.take_of_length_le (by omega)]
    congr 1
    rw [show mb.mUsedBuffers - mb.mReadBuffer = mb.mUsedBuffers - mb.mReadBuffer - 1 + 1 by omega,
      List.take_succ_cons]
    rfl
  rw [contents, hused, List.flatMap_append, List.flatMap_cons, contents_of_take_eq_nil hfront,
    List.nil_append]

/-- A buffer with something left has a first byte. -/
theorem contents_pos {buf : Buffer} (h : ¬ buf.remaining = 0) : 0 < buf.contents.length := by
  rw [Buffer.contents_length]
  exact Nat.pos_of_ne_zero h

theorem contents_eq_nil {buf : Buffer} (h : buf.remaining = 0) : buf.contents = [] :=
  List.eq_nil_of_length_eq_zero (by rw [Buffer.contents_length, h])

section ReadBuffer

variable {mb : MultiBuffer} {front rest : List Buffer} {buf : Buffer}

theorem getElem?_readBuffer (hbufs : mb.mBuffers = front ++ buf :: rest)
    (hflen : front.length = mb.mReadBuffer) : mb.mBuffers[mb.mReadBuffer]? = some buf := by
  rw [hbufs, ← hflen, List.getElem?_append_right (Nat.le_refl _), Nat.sub_self]
  rfl

/-- An exhausted buffer is left behind with the others. -/
theorem frontConsumed_nextReadBuffer (hfront : mb.FrontConsumed)
    (hget : mb.mBuffers[mb.mReadBuffer]? = some buf) (hempty : buf.contents = []) :
    mb.nextReadBuffer.FrontConsumed := by
  intro b hb
  change b ∈ mb.mBuffers.take (mb.mReadBuffer + 1) at hb
  rw [List.take_add_one, hget, Option.toList_some, List.mem_append, List.mem_singleton] at hb
  rcases hb with hb | rfl
  · exact hfront b hb
  · exact hempty

/-- What is read from the buffer comes off the front of the contents. -/
theorem setReadBuffer_read (hbufs : mb.mBuffers = front ++ buf :: rest)
    (hflen : front.length = mb.mReadBuffer) (hlt : mb.mReadBuffer < mb.mUsedBuffers)
    (hfront : ∀ b ∈ front, b.contents = [])
    (hcontents : mb.contents = buf.contents
      ++ (rest.take (mb.mUsedBuffers - mb.mReadBuffer - 1)).flatMap Buffer.contents)
    {length : Nat} (hle : length ≤ buf.contents.length) :
    (mb.setReadBuffer (buf.read length).2).FrontConsumed ∧
      (mb.setReadBuffer (buf.read length).2).contents = mb.contents.drop length := by
  have hset : (mb.setReadBuffer (buf.read length).2).mBuffers
      = front ++ (buf.read length).2 :: rest := by
    simp only [setReadBuffer, hbufs, ← hflen]
    simp
  constructor
  · intro b hb
    have htake : (mb.setReadBuffer (buf.read length).2).mBuffers.take mb.mReadBuffer = front := by
      rw [hset, ← hflen, List.take_left]
    have hb : b ∈ (mb.setReadBuffer (buf.read length).2).mBuffers.take mb.mReadBuffer := hb
    rw [htake] at hb
    exact hfront b hb
  · have hused : (mb.setReadBuffer (buf.read length).2).usedBuffers
        = front ++ (buf.read length).2 :: rest.take (mb.mUsedBuffers - mb.mReadBuffer - 1) := by
      show (mb.setReadBuffer (buf.read length).2).mBuffers.take mb.mUsedBuffers = _
      rw [hset, List.take_append, hflen, List.take_of_length_le (by omega),
        show mb.mUsedBuffers - mb.mReadBuffer
          = mb.mUsedBuffers - mb.mReadBuffer - 1 + 1 by omega, List.take_succ_cons]
      rfl
    rw [contents, hused, List.flatMap_append, List.flatMap_cons, contents_of_take_eq_nil hfront,
      List.nil_append, (buf.read_eq length).2, hcontents, List.drop_append_of_le_length hle]

end ReadBuffer

/-! ## Reads for more than what is left -/

/-- A loop that has passed the used buffers ends there: it has been there before,
    or the buffer behind them has nothing left. -/
def Stops (mb : MultiBuffer) : Prop :=
  mb.mUsedBuffers < mb.mReadBuffer ∨
    mb.mBuffers[mb.mUsedBuffers]?.map Buffer.contents = some []

instance (mb : MultiBuffer) : Decidable mb.Stops := inferInstanceAs (Decidable (_ ∨ _))

theorem stops_nextReadBuffer {mb : MultiBuffer} (h : mb.Stops) : mb.nextReadBuffer.Stops :=
  h.imp_left Nat.lt_succ_of_lt

theorem stops_setReadBuffer {mb : MultiBuffer} (buf : Buffer)
    (hlt : mb.mReadBuffer < mb.mUsedBuffers) : (mb.setReadBuffer buf).Stops ↔ mb.Stops := by
  have hget : (mb.setReadBuffer buf).mBuffers[mb.mUsedBuffers]? = mb.mBuffers[mb.mUsedBuffers]? :=
    List.getElem?_set_ne (Nat.ne_of_lt hlt)
  simp only [Stops]
  exact or_congr Iff.rfl (by rw [← hget]; rfl)

/-- With nothing left, every used buffer is exhausted. -/
theorem exists_exhausted {mb : MultiBuffer} (hnil : mb.contents = [])
    (hlt : mb.mReadBuffer < mb.mUsedBuffers) :
    ∃ buf, mb.mBuffers[mb.mReadBuffer]? = some buf ∧ buf.contents = [] := by
  have hidx : mb.mReadBuffer < mb.mBuffers.length := Nat.lt_of_lt_of_le hlt mb.used_le
  have hused : mb.mReadBuffer < mb.usedBuffers.length := by rw [usedBuffers_length]; exact hlt
  refine ⟨mb.mBuffers[mb.mReadBuffer], List.getElem?_eq_getElem hidx, ?_⟩
  refine List.flatMap_eq_nil_iff.mp hnil _ ?_
  have hmem := List.getElem_mem hused
  simp only [usedBuffers, List.getElem_take] at hmem
  exact hmem

/-- With nothing left the loop goes on to the end of the used buffers, and past the
    one behind them. -/
theorem readLoop_nil (fuel remaining : Nat) {mb : MultiBuffer} (hfront : mb.FrontConsumed)
    (hnil : mb.contents = []) (hstops : mb.Stops)
    (hfuel : mb.mUsedBuffers + 1 - mb.mReadBuffer ≤ fuel) :
    ∃ mb', readLoop fuel remaining mb = .ok [] mb' ∧ mb'.FrontConsumed ∧ mb'.contents = [] ∧
      mb'.mBytesRead = mb.mBytesRead := by
  induction fuel generalizing mb with
  | zero => exact ⟨mb, rfl, hfront, hnil, rfl⟩
  | succ fuel ih =>
    rw [readLoop, get_bind]
    by_cases hmore : mb.mReadBuffer ≤ mb.mUsedBuffers ∧ 0 < remaining
    · obtain ⟨buf, hget, hempty⟩ : ∃ buf, mb.mBuffers[mb.mReadBuffer]? = some buf ∧
          buf.contents = [] := by
        rcases Nat.lt_or_eq_of_le hmore.1 with hlt | heq
        · exact exists_exhausted hnil hlt
        · rw [heq]
          exact Option.map_eq_some_iff.mp (hstops.resolve_left (by omega))
      have hzero : buf.remaining = 0 := by rw [← Buffer.contents_length, hempty]; rfl
      rw [if_pos hmore, hget]
      dsimp only
      rw [if_pos hzero]
      exact ih (frontConsumed_nextReadBuffer hfront hget hempty) hnil (stops_nextReadBuffer hstops)
        (by simp only [nextReadBuffer]; omega)
    · rw [if_neg hmore]
      exact ⟨mb, rfl, hfront, hnil, rfl⟩

/-- The loop delivers the bytes asked for, as far as there are any, and leaves
    the others. -/
theorem readLoop_ok (fuel remaining : Nat) (mb : MultiBuffer) (hfront : mb.FrontConsumed)
    (hlen : remaining ≤ mb.contents.length ∨ mb.Stops)
    (hfuel : remaining + (mb.mUsedBuffers + 1 - mb.mReadBuffer) ≤ fuel) :
    ∃ mb', readLoop fuel remaining mb = .ok (mb.contents.take remaining) mb' ∧
      mb'.FrontConsumed ∧ mb'.contents = mb.contents.drop remaining ∧
      mb'.mBytesRead = mb.mBytesRead := by
  induction fuel generalizing remaining mb with
  | zero =>
    have hzero : remaining = 0 := by omega
    subst hzero
    exact ⟨mb, rfl, hfront, rfl, rfl⟩
  | succ fuel ih =>
    by_cases hne : mb.contents = []
    · rw [hne, List.take_nil, List.drop_nil]
      rw [hne, List.length_nil] at hlen
      by_cases hpos : 0 < remaining
      · exact readLoop_nil (fuel + 1) remaining hfront hne (hlen.resolve_left (by omega)) (by omega)
      · rw [readLoop, get_bind, if_neg (fun h => hpos h.2)]
        exact ⟨mb, rfl, hfront, hne, rfl⟩
    · rw [readLoop, get_bind]
      by_cases hpos : 0 < remaining
      · obtain ⟨front, buf, rest, hbufs, hflen, hlt, hfcons, hcontents⟩ :=
          exists_readBuffer hfront hne
        have hget := getElem?_readBuffer hbufs hflen
        rw [if_pos ⟨Nat.le_of_lt hlt, hpos⟩, hget]
        dsimp only
        by_cases hempty : buf.remaining = 0
        · -- an exhausted buffer: move on
          have hfront' := frontConsumed_nextReadBuffer hfront hget (contents_eq_nil hempty)
          rw [if_pos hempty]
          exact ih remaining mb.nextReadBuffer hfront' (hlen.imp_right stops_nextReadBuffer)
            (by simp only [nextReadBuffer]; omega)
        · -- take what this buffer has
          rw [if_neg hempty]
          have hblen : buf.contents.length = buf.remaining := Buffer.contents_length _
          generalize htoRead : min remaining buf.remaining = toRead
          have hle : toRead ≤ buf.contents.length := by omega
          obtain ⟨hfront₁, hcontents₁⟩ :=
            setReadBuffer_read hbufs hflen hlt hfcons hcontents hle
          obtain ⟨mb₂, hloop, hfront₂, hcontents₂, hbytes₂⟩ :=
            ih (remaining - toRead) (mb.setReadBuffer (buf.read toRead).2) hfront₁
              (hlen.imp (fun h => by rw [hcontents₁, List.length_drop]; omega)
                (stops_setReadBuffer _ hlt).mpr)
              (by simp only [setReadBuffer]; omega)
          refine ⟨mb₂, ?_, hfront₂, ?_, hbytes₂⟩
          · have hset : (set (mb.setReadBuffer (buf.read toRead).2) :
                EStateM Exception MultiBuffer PUnit) mb = .ok ⟨⟩ _ := rfl
            rw [bind_of_ok hset, bind_of_ok hloop, pure_run, (buf.read_eq toRead).1, hcontents₁]
            congr 1
            have hfirst : buf.contents.take toRead = mb.contents.take toRead := by
              rw [hcontents, List.take_append_of_le_length hle]
            rw [hfirst, show remaining = toRead + (remaining - toRead) by omega, List.take_add,
              Nat.add_sub_cancel_left]
          · rw [hcontents₂, hcontents₁, List.drop_drop]
            congr 1
            omega
      · have hzero : remaining = 0 := by omega
        subst hzero
        rw [if_neg (by omega)]
        exact ⟨mb, rfl, hfront, rfl, rfl⟩

/-- A read returns the next bytes, whatever buffers they are spread over, unless
    it asks for more than what is left and finds bytes, or no buffer, behind the
    used ones. -/
theorem read_ok_or (length : Nat) (mb : MultiBuffer) (hfront : mb.FrontConsumed)
    (hlen : length ≤ mb.contents.length ∨ mb.Stops) :
    ∃ mb', read length mb = .ok (mb.contents.take length) mb' ∧ mb'.FrontConsumed ∧
      mb'.contents = mb.contents.drop length ∧
      mb'.mBytesRead = mb.mBytesRead + min length mb.contents.length := by
  obtain ⟨mb₁, hloop, hfront₁, hcontents₁, hbytes₁⟩ :=
    readLoop_ok (length + (mb.mUsedBuffers + 1)) length mb hfront hlen (by omega)
  refine ⟨{ mb₁ with mBytesRead := mb₁.mBytesRead + (mb.contents.take length).length }, ?_,
    hfront₁, hcontents₁, ?_⟩
  · unfold read
    rw [get_bind, bind_of_ok hloop, modify_bind, pure_run]
  · show mb₁.mBytesRead + (mb.contents.take length).length = _
    rw [hbytes₁, List.length_take]

/-- A read for at most what is left returns the next bytes, whatever buffers
    they are spread over. -/
theorem read_ok (length : Nat) (mb : MultiBuffer) (hfront : mb.FrontConsumed)
    (hlen : length ≤ mb.contents.length) :
    ∃ mb', read length mb = .ok (mb.contents.take length) mb' ∧ mb'.FrontConsumed ∧
      mb'.contents = mb.contents.drop length ∧ mb'.mBytesRead = mb.mBytesRead + length := by
  obtain ⟨mb', hread, hfront', hcontents', hbytes'⟩ := read_ok_or length mb hfront (.inl hlen)
  rw [Nat.min_eq_left hlen] at hbytes'
  exact ⟨mb', hread, hfront', hcontents', hbytes'⟩

/-! ## Buffers added by hand -/

/-- What `addBuffer` does with a buffer it accepts, which goes behind all others. -/
structure Added (mb : MultiBuffer) (buf : Buffer) (mb' : MultiBuffer) : Prop where
  buffers : mb'.mBuffers = mb.mBuffers ++ [buf]
  used : mb'.mUsedBuffers = mb'.mBuffers.length
  contents : mb'.contents = mb.contents ++ buf.contents
  readBuffer : mb'.mReadBuffer = mb.mReadBuffer
  bytesRead : mb'.mBytesRead = mb.mBytesRead

theorem addBuffer_accepted {mb : MultiBuffer} (hused : mb.mUsedBuffers = mb.mBuffers.length)
    (buf : Buffer) : (mb.addBuffer buf).1 = true ∧ mb.Added buf (mb.addBuffer buf).2 := by
  unfold addBuffer
  rw [if_pos hused]
  refine ⟨rfl, ⟨rfl, ?_, ?_, rfl, rfl⟩⟩
  · rw [List.length_append, List.length_singleton, ← hused]
  · simp only [contents, usedBuffers, hused, List.take_length]
    rw [← List.length_singleton (a := buf), ← List.length_append, List.take_length,
      List.flatMap_append, List.flatMap_singleton]

/-- A multibuffer built from filled buffers. -/
def ofBuffers (mb : MultiBuffer) (bufs : List Buffer) : MultiBuffer :=
  bufs.foldl (fun mb buf => (mb.addBuffer buf).2) mb

/-- Buffers added just after construction are all accepted. -/
theorem contents_ofBuffers (bufs : List Buffer) (mb : MultiBuffer)
    (hused : mb.mUsedBuffers = mb.mBuffers.length) :
    (mb.ofBuffers bufs).contents = mb.contents ++ bufs.flatMap Buffer.contents ∧
      (mb.ofBuffers bufs).mReadBuffer = mb.mReadBuffer ∧
      (mb.ofBuffers bufs).mBytesRead = mb.mBytesRead := by
  induction bufs generalizing mb with
  | nil => exact ⟨by simp [ofBuffers], rfl, rfl⟩
  | cons buf bufs ih =>
    have hadd := (addBuffer_accepted hused buf).2
    obtain ⟨hcontents, hread, hbytes⟩ := ih (mb.addBuffer buf).2 hadd.used
    refine ⟨?_, hread.trans hadd.readBuffer, hbytes.trans hadd.bytesRead⟩
    rw [List.flatMap_cons, ← List.append_assoc, ← hadd.contents]
    exact hcontents

end MultiBuffer

end Arras4Core.Network
