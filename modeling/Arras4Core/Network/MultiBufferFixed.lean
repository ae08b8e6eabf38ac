/-
  Arras4Core.Network.MultiBufferFixed

  A `MultiBuffer` whose initial and linear sizes are the same, written to from
  the start: it cuts what is written into pieces of that size, of which only
  the last may be shorter, and none is empty.
-/

import Arras4Core.Network.MultiBuffer

namespace Arras4Core.Network

namespace Buffer

/-- The bytes from `initial()` on that have been written. -/
def written (b : Buffer) : Bytes := b.mData.take b.mEnd

@[simp] theorem written_length (b : Buffer) : b.written.length = b.bytesWritten := by
  rw [written, List.length_take, Nat.min_eq_left b.end_le_final]
  rfl

/-- A buffer of the given size that nothing has been read from. -/
structure Unread (size : Nat) (b : Buffer) : Prop where
  start_eq : b.mStart = 0
  capacity_eq : b.capacity = size

theorem Unread.alloc (size : Nat) : (Buffer.alloc size).Unread size :=
  ⟨rfl, Buffer.capacity_alloc size⟩

theorem Unread.write {size : Nat} {b : Buffer} (h : b.Unread size) (data : Bytes) :
    (b.write data).Unread size :=
  ⟨h.start_eq, (Buffer.capacity_write b data).trans h.capacity_eq⟩

theorem Unread.written_eq {size : Nat} {b : Buffer} (h : b.Unread size) :
    b.written = b.contents := by
  rw [written, contents, h.start_eq, List.drop_zero]

theorem Unread.length_add_remainingCapacity {size : Nat} {b : Buffer} (h : b.Unread size) :
    b.contents.length + b.remainingCapacity = size := by
  have hend := b.end_le_final
  have hcap := h.capacity_eq
  have hstart := h.start_eq
  simp only [capacity] at hcap
  rw [Buffer.contents_length, remaining, remainingCapacity]
  omega

end Buffer

namespace MultiBuffer

/-- All buffers are in use and of one size; all but the last are full and none
    is empty. -/
structure Fixed (size : Nat) (mb : MultiBuffer) : Prop where
  initial_eq : mb.mInitialSize = size
  linear_eq : mb.mLinearSize = size
  used_eq : mb.mUsedBuffers = mb.mBuffers.length
  unread : ∀ buf ∈ mb.mBuffers, buf.Unread size
  nonempty : ∀ buf ∈ mb.mBuffers, buf.contents ≠ []
  full : ∀ buf ∈ mb.mBuffers.dropLast, buf.remainingCapacity = 0

variable {size : Nat} {mb : MultiBuffer}

theorem Fixed.new (h : 0 < size) : (new size size h).Fixed size where
  initial_eq := rfl
  linear_eq := rfl
  used_eq := rfl
  unread := fun _ hbuf => nomatch hbuf
  nonempty := fun _ hbuf => nomatch hbuf
  full := fun _ hbuf => nomatch hbuf

theorem Fixed.usedBuffers_eq (h : mb.Fixed size) : mb.usedBuffers = mb.mBuffers := by
  rw [usedBuffers, h.used_eq, List.take_length]

/-- A full last buffer is followed by a new one of the same size. -/
theorem Fixed.newSize_eq (h : mb.Fixed size) : mb.newSize = size := by
  unfold newSize
  rw [h.usedBuffers_eq]
  cases hlast : mb.mBuffers.getLast? with
  | none => exact h.initial_eq
  | some buf =>
    have hcap := (h.unread buf (List.mem_of_getLast? hlast)).capacity_eq
    have hpos := mb.initial_pos
    have hinit := h.initial_eq
    have hlinear := h.linear_eq
    simp only [nextSize, hcap]
    rw [if_neg (by omega), if_neg (by omega)]

/-- Empty, or full buffers and a last one. -/
theorem Fixed.split (h : mb.Fixed size) :
    mb.mBuffers = [] ∨ ∃ front last, mb.mBuffers = front ++ [last] ∧ last.Unread size ∧
      last.contents ≠ [] ∧
      ∀ b ∈ front, b.Unread size ∧ b.contents ≠ [] ∧ b.remainingCapacity = 0 := by
  rcases List.eq_nil_or_concat mb.mBuffers with hnil | ⟨front, last, hsplit⟩
  · exact Or.inl hnil
  · rw [List.concat_eq_append] at hsplit
    have hunread := h.unread
    have hnonempty := h.nonempty
    have hfull := h.full
    rw [hsplit] at hunread hnonempty
    rw [hsplit, List.dropLast_concat] at hfull
    have hlast : last ∈ front ++ [last] :=
      List.mem_append_right front (List.mem_singleton_self last)
    refine Or.inr ⟨front, last, hsplit, hunread last hlast, hnonempty last hlast, ?_⟩
    intro b hb
    have hmem : b ∈ front ++ [last] := List.mem_append_left [last] hb
    exact ⟨hunread b hmem, hnonempty b hmem, hfull b hb⟩

/-- The buffer that takes the next bytes has room, and all before it are full. -/
theorem Fixed.withRoom (h : mb.Fixed size) (hpos : 0 < size) :
    ∃ front buf, mb.withRoom.mBuffers = front ++ [buf] ∧
      mb.withRoom.mUsedBuffers = front.length + 1 ∧ 0 < buf.remainingCapacity ∧
      buf.Unread size ∧
      (∀ b ∈ front, b.Unread size ∧ b.contents ≠ [] ∧ b.remainingCapacity = 0) := by
  have hused := h.used_eq
  unfold MultiBuffer.withRoom
  split
  · next hzero =>
    -- all buffers are in use, so the next one is allocated
    have hnot : ¬ mb.mUsedBuffers < mb.mBuffers.length := by omega
    unfold useNextBuffer
    rw [dif_neg hnot]
    refine ⟨mb.mBuffers, Buffer.alloc mb.newSize, rfl, congrArg (· + 1) hused, ?_, ?_, ?_⟩
    · rw [Buffer.remainingCapacity_alloc, h.newSize_eq]
      exact hpos
    · rw [h.newSize_eq]
      exact Buffer.Unread.alloc size
    · intro b hb
      rcases h.split with hnil | ⟨front, last, hsplit, hunread, hnonempty, hfront⟩
      · rw [hnil] at hb
        exact absurd hb List.not_mem_nil
      · rw [endCapacity, h.usedBuffers_eq, hsplit, List.getLast?_concat] at hzero
        rw [hsplit, List.mem_append, List.mem_singleton] at hb
        rcases hb with hb | rfl
        · exact hfront b hb
        · exact ⟨hunread, hnonempty, hzero⟩
  · next hroom =>
    rcases h.split with hnil | ⟨front, last, hsplit, hunread, -, hfront⟩
    · refine absurd ?_ hroom
      rw [endCapacity, h.usedBuffers_eq, hnil]
      rfl
    · rw [endCapacity, h.usedBuffers_eq, hsplit, List.getLast?_concat] at hroom
      rw [hsplit, List.length_append, List.length_singleton] at hused
      exact ⟨front, last, hsplit, hused, Nat.pos_of_ne_zero hroom, hunread, hfront⟩

theorem withRoom_sizes (mb : MultiBuffer) :
    mb.withRoom.mInitialSize = mb.mInitialSize ∧ mb.withRoom.mLinearSize = mb.mLinearSize := by
  unfold MultiBuffer.withRoom useNextBuffer
  split
  · split <;> exact ⟨rfl, rfl⟩
  · exact ⟨rfl, rfl⟩

theorem Fixed.writePass (h : mb.Fixed size) (hpos : 0 < size) {data : Bytes} (hdata : data ≠ []) :
    (mb.writePass data).1.Fixed size := by
  obtain ⟨front, buf, hbufs, hused, hroom, hunread, hfront⟩ := h.withRoom hpos
  obtain ⟨hinitial, hlinear⟩ := mb.withRoom_sizes
  have hcap : mb.withRoom.endCapacity = buf.remainingCapacity := by
    have : mb.withRoom.usedBuffers = front ++ [buf] := by
      rw [usedBuffers, hused, hbufs, ← List.length_singleton (a := buf), ← List.length_append,
        List.take_length]
    rw [endCapacity, this, List.getLast?_concat]
  have hget : mb.withRoom.mBuffers[mb.withRoom.mUsedBuffers - 1]? = some buf := by
    rw [hused, hbufs, Nat.add_sub_cancel, List.getElem?_append_right (Nat.le_refl _), Nat.sub_self]
    rfl
  let written := buf.write (data.take (min data.length mb.withRoom.endCapacity))
  have hresult : (mb.writePass data).1 =
      { mb.withRoom with
        mBuffers := mb.withRoom.mBuffers.set (mb.withRoom.mUsedBuffers - 1) written
        used_le := by rw [List.length_set]; exact mb.withRoom.used_le } := by
    show mb.withRoom.writeEnd _ = _
    unfold writeEnd
    rw [hget]
  have hset : mb.withRoom.mBuffers.set (mb.withRoom.mUsedBuffers - 1) written
      = front ++ [written] := by
    rw [hused, hbufs, Nat.add_sub_cancel]
    simp
  have hwritten : written.contents ≠ [] := by
    have hlen := List.length_pos_iff.mpr hdata
    have hcontents : written.contents = buf.contents ++
        (data.take (min data.length mb.withRoom.endCapacity)).take buf.remainingCapacity :=
      Buffer.contents_write _ _
    intro hnil
    have hzero := congrArg List.length (hcontents.symm.trans hnil)
    simp only [List.length_append, List.length_take, List.length_nil] at hzero
    omega
  rw [hresult]
  constructor
  · exact hinitial.trans h.initial_eq
  · exact hlinear.trans h.linear_eq
  · show mb.withRoom.mUsedBuffers = (mb.withRoom.mBuffers.set _ written).length
    rw [hset, hused, List.length_append, List.length_singleton]
  · simp only [hset]
    intro b hb
    rw [List.mem_append, List.mem_singleton] at hb
    rcases hb with hb | rfl
    · exact (hfront b hb).1
    · exact hunread.write _
  · simp only [hset]
    intro b hb
    rw [List.mem_append, List.mem_singleton] at hb
    rcases hb with hb | rfl
    · exact (hfront b hb).2.1
    · exact hwritten
  · simp only [hset, List.dropLast_concat]
    intro b hb
    exact (hfront b hb).2.2

theorem Fixed.writeLoop (fuel : Nat) (h : mb.Fixed size) (hpos : 0 < size) (data : Bytes) :
    (MultiBuffer.writeLoop fuel mb data).1.Fixed size := by
  induction fuel generalizing mb data with
  | zero => exact h
  | succ fuel ih =>
    rw [MultiBuffer.writeLoop]
    split
    · exact h
    · next hne => exact ih (h.writePass hpos hne) _

theorem Fixed.write (h : mb.Fixed size) (hpos : 0 < size) (data : Bytes) :
    (mb.write data).Fixed size := by
  have hloop := Fixed.writeLoop (mb.writeMeasure data) h hpos data
  exact ⟨hloop.initial_eq, hloop.linear_eq, hloop.used_eq, hloop.unread, hloop.nonempty,
    hloop.full⟩

/-! ## The pieces -/

theorem flatMap_contents_length {bufs : List Buffer}
    (h : ∀ b ∈ bufs, b.contents.length = size) :
    (bufs.flatMap Buffer.contents).length = bufs.length * size := by
  induction bufs with
  | nil => simp
  | cons b bufs ih =>
    rw [List.flatMap_cons, List.length_append, h b List.mem_cons_self,
      ih fun b' hb' => h b' (List.mem_cons_of_mem b hb'), List.length_cons, Nat.succ_mul,
      Nat.add_comm]

/-- As many pieces as the size goes into the length, rounded up. -/
theorem Fixed.bufferCount_eq (h : mb.Fixed size) (hpos : 0 < size) :
    mb.bufferCount = (mb.contents.length + (size - 1)) / size := by
  rw [bufferCount, contents, h.usedBuffers_eq, h.used_eq]
  rcases h.split with hnil | ⟨front, last, hsplit, hunread, hnonempty, hfront⟩
  · rw [hnil, List.flatMap_nil, List.length_nil, List.length_nil, Nat.zero_add,
      Nat.div_eq_of_lt (by omega)]
  · have hfrontLen : (front.flatMap Buffer.contents).length = front.length * size := by
      apply flatMap_contents_length
      intro b hb
      obtain ⟨hb_unread, -, hb_full⟩ := hfront b hb
      have hlen := hb_unread.length_add_remainingCapacity
      omega
    have hlast := hunread.length_add_remainingCapacity
    have hlastPos := List.length_pos_iff.mpr hnonempty
    have htotal : (mb.mBuffers.flatMap Buffer.contents).length + (size - 1)
        = last.contents.length + (size - 1) + front.length * size := by
      rw [hsplit, List.flatMap_append, List.flatMap_singleton, List.length_append, hfrontLen]
      omega
    -- the last piece counts for one, whether it is full or not
    have hone : (last.contents.length + (size - 1)) / size = 1 :=
      Nat.div_eq_of_lt_le (by omega) (by omega)
    rw [htotal, Nat.add_mul_div_right _ _ hpos, hone, hsplit, List.length_append,
      List.length_singleton, Nat.add_comm]

/-- The pieces together are the contents. -/
theorem Fixed.written_flatten (h : mb.Fixed size) :
    (mb.mBuffers.map Buffer.written).flatten = mb.contents := by
  have hmap : mb.mBuffers.map Buffer.written = mb.mBuffers.map Buffer.contents :=
    List.map_congr_left fun b hb => (h.unread b hb).written_eq
  rw [contents, h.usedBuffers_eq, hmap, List.flatMap_def]

theorem Fixed.written_length_le (h : mb.Fixed size) {b : Buffer} (hb : b ∈ mb.mBuffers) :
    b.written.length ≤ size := by
  have hlen := (h.unread b hb).length_add_remainingCapacity
  rw [(h.unread b hb).written_eq]
  omega

end MultiBuffer

end Arras4Core.Network
