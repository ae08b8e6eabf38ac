/-
  Arras4Core.Network.MultiBufferQueue

  A `MultiBuffer` as a queue of bytes.

  `queue` is the purpose: one flat list, read and skipped from its front.
  `machine` is the multibuffer behind the same calls.  They answer alike as long
  as no read asks for more than there is and no skip for anything
  (`answers_eq_of_within` also allows the calls that go too far without harm);
  `read_eq_iff` and `skip_eq_iff` say what a single call does.
-/

import Arras4Core.Lib.Machine
import Arras4Core.Network.MultiBufferRead

namespace Arras4Core.Network

open Arras4Core.Lib
open Arras4Core.Api (Exception)

namespace MultiBuffer

/-! ## Calls and answers -/

inductive QueueCall
  | write (data : Bytes)
  | read (length : Nat)
  | skip (length : Nat)
  | reset
  | addBuffer (buf : Buffer)

inductive QueueAnswer
  | done
  | count (n : Nat)
  | bytes (data : Bytes)
  | accepted (added : Bool)
  deriving DecidableEq

/-- The multibuffer; an access beyond its buffers has no answer. -/
def machine : Machine MultiBuffer QueueCall QueueAnswer where
  step mb
    | .write data => some (.count data.length, mb.write data)
    | .read length =>
      match read length mb with
      | .ok data mb' => some (.bytes data, mb')
      | .error _ _ => none
    | .skip length =>
      match skip length mb with
      | .ok skipped mb' => some (.count skipped, mb')
      | .error _ _ => none
    | .reset => some (.done, mb.reset)
    | .addBuffer buf => some (.accepted (mb.addBuffer buf).1, (mb.addBuffer buf).2)

/-- A flat queue of bytes.  It accepts every buffer. -/
def queue : Machine Bytes QueueCall QueueAnswer where
  step bytes
    | .write data => some (.count data.length, bytes ++ data)
    | .read length => some (.bytes (bytes.take length), bytes.drop length)
    | .skip length => some (.count (min length bytes.length), bytes.drop length)
    | .reset => some (.done, [])
    | .addBuffer buf => some (.accepted true, bytes ++ buf.contents)

/-- The buffer the first byte of a write goes into. -/
def writeIndex (mb : MultiBuffer) : Nat :=
  if mb.endCapacity = 0 then mb.mUsedBuffers else mb.mUsedBuffers - 1

/-- The calls that keep to the queue.  Asking for more than there is takes the
    loops behind the used buffers; where that goes well, what is put into a
    buffer they have passed is not read any more. -/
def Within (mb : MultiBuffer) : QueueCall → Prop
  | .write data => data = [] ∨ mb.mReadBuffer ≤ mb.writeIndex
  | .read length => length ≤ mb.contents.length ∨ mb.Stops
  | .skip length => length = 0 ∨ mb.contents = [] ∧ mb.Stops
  | .reset => True
  | .addBuffer buf => buf.contents = [] ∨ mb.mReadBuffer ≤ mb.mUsedBuffers

instance (mb : MultiBuffer) : DecidablePred mb.Within
  | .write _ => inferInstanceAs (Decidable (_ ∨ _))
  | .read _ => inferInstanceAs (Decidable (_ ∨ _))
  | .skip _ => inferInstanceAs (Decidable (_ ∨ _))
  | .reset => inferInstanceAs (Decidable True)
  | .addBuffer _ => inferInstanceAs (Decidable (_ ∨ _))

/-- `addBuffer` would return true. -/
def Accepts (mb : MultiBuffer) : QueueCall → Prop
  | .addBuffer _ => mb.mUsedBuffers = mb.mBuffers.length
  | _ => True

instance (mb : MultiBuffer) : DecidablePred mb.Accepts
  | .addBuffer _ => inferInstanceAs (Decidable (_ = _))
  | .write _ | .read _ | .skip _ | .reset => inferInstanceAs (Decidable True)

/-! ## Writing keeps what has been read -/

theorem frontConsumed_useNextBuffer {mb : MultiBuffer} (h : mb.FrontConsumed) :
    mb.useNextBuffer.FrontConsumed := by
  intro buf hbuf
  unfold useNextBuffer at hbuf
  split at hbuf
  · -- a buffer of an earlier use, which is reset
    rw [List.take_set] at hbuf
    rcases List.mem_or_eq_of_mem_set hbuf with hbuf | rfl
    · exact h buf hbuf
    · exact Buffer.contents_reset _
  · rw [List.take_append, List.mem_append] at hbuf
    rcases hbuf with hbuf | hbuf
    · exact h buf hbuf
    · obtain rfl := List.mem_singleton.mp (List.mem_of_mem_take hbuf)
      exact Buffer.contents_alloc _

theorem frontConsumed_withRoom {mb : MultiBuffer} (h : mb.FrontConsumed) :
    mb.withRoom.FrontConsumed := by
  unfold withRoom
  split
  · exact frontConsumed_useNextBuffer h
  · exact h

theorem frontConsumed_writeEnd {mb : MultiBuffer} (h : mb.FrontConsumed)
    (hle : mb.mReadBuffer ≤ mb.mUsedBuffers - 1) (data : Bytes) :
    (mb.writeEnd data).FrontConsumed := by
  unfold writeEnd
  split
  · exact h
  · intro b hb
    simp only [List.take_set_of_le hle] at hb
    exact h b hb

theorem mReadBuffer_withRoom (mb : MultiBuffer) : mb.withRoom.mReadBuffer = mb.mReadBuffer := by
  unfold withRoom useNextBuffer
  split
  · split <;> rfl
  · rfl

theorem mUsedBuffers_withRoom (mb : MultiBuffer) :
    mb.withRoom.mUsedBuffers - 1 = mb.writeIndex := by
  unfold withRoom writeIndex useNextBuffer
  split
  · split <;> rfl
  · rfl

theorem writeEnd_counters (mb : MultiBuffer) (data : Bytes) :
    (mb.writeEnd data).mReadBuffer = mb.mReadBuffer ∧
      (mb.writeEnd data).mUsedBuffers = mb.mUsedBuffers := by
  unfold writeEnd
  split <;> exact ⟨rfl, rfl⟩

theorem writePass_counters (mb : MultiBuffer) (data : Bytes) :
    (mb.writePass data).1.mReadBuffer = mb.mReadBuffer ∧
      (mb.writePass data).1.mUsedBuffers - 1 = mb.writeIndex := by
  obtain ⟨hread, hused⟩ := mb.withRoom.writeEnd_counters
    (data.take (min data.length mb.withRoom.endCapacity))
  constructor
  · exact hread.trans mb.mReadBuffer_withRoom
  · rw [← mb.mUsedBuffers_withRoom, ← hused]
    rfl

theorem le_writeIndex (mb : MultiBuffer) : mb.mUsedBuffers - 1 ≤ mb.writeIndex := by
  unfold writeIndex
  split <;> omega

theorem frontConsumed_writeLoop (fuel : Nat) {mb : MultiBuffer} (h : mb.FrontConsumed)
    (hle : mb.mReadBuffer ≤ mb.writeIndex) (data : Bytes) :
    (writeLoop fuel mb data).1.FrontConsumed := by
  induction fuel generalizing mb data with
  | zero => exact h
  | succ fuel ih =>
    rw [writeLoop]
    split
    · exact h
    · obtain ⟨hread, hused⟩ := mb.writePass_counters data
      refine ih ?_ ?_ _
      · refine frontConsumed_writeEnd (frontConsumed_withRoom h) ?_ _
        rw [mReadBuffer_withRoom, mUsedBuffers_withRoom]
        exact hle
      · rw [hread]
        exact hle.trans (hused ▸ le_writeIndex _)

theorem frontConsumed_write {mb : MultiBuffer} (h : mb.FrontConsumed) {data : Bytes}
    (hdata : data = [] ∨ mb.mReadBuffer ≤ mb.writeIndex) : (mb.write data).FrontConsumed := by
  have hloop : (writeLoop (mb.writeMeasure data) mb data).1.FrontConsumed := by
    rcases hdata with rfl | hle
    · cases mb.writeMeasure [] with
      | zero => exact h
      | succ fuel =>
        rw [writeLoop, if_pos rfl]
        exact h
    · exact frontConsumed_writeLoop _ h hle data
  exact hloop

theorem frontConsumed_addBuffer {mb : MultiBuffer} (h : mb.FrontConsumed)
    (hused : mb.mUsedBuffers = mb.mBuffers.length) {buf : Buffer}
    (hbuf : buf.contents = [] ∨ mb.mReadBuffer ≤ mb.mUsedBuffers) :
    (mb.addBuffer buf).2.FrontConsumed := by
  have hadd := (addBuffer_accepted hused buf).2
  intro b hb
  rw [hadd.buffers, hadd.readBuffer, List.take_append, List.mem_append] at hb
  rcases hb with hb | hb
  · exact h b hb
  · rcases hbuf with hempty | hle
    · obtain rfl := List.mem_singleton.mp (List.mem_of_mem_take hb)
      exact hempty
    · rw [Nat.sub_eq_zero_of_le (hused ▸ hle), List.take_zero] at hb
      cases hb

/-! ## What a read does -/

/-- The buffer the loop comes to when it has passed the used ones. -/
theorem not_stops {mb : MultiBuffer} (h : ¬ mb.Stops) :
    mb.mReadBuffer ≤ mb.mUsedBuffers ∧
      ∀ buf, mb.mBuffers[mb.mUsedBuffers]? = some buf → buf.contents ≠ [] := by
  rw [Stops, not_or] at h
  refine ⟨Nat.le_of_not_lt h.1, fun buf hget hempty => h.2 ?_⟩
  rw [hget, Option.map_some, hempty]

theorem not_stops_nextReadBuffer {mb : MultiBuffer} (h : ¬ mb.Stops)
    (hlt : mb.mReadBuffer < mb.mUsedBuffers) : ¬ mb.nextReadBuffer.Stops := by
  rintro (hpassed | hempty)
  · exact absurd hpassed (Nat.not_lt.mpr hlt)
  · exact h (.inr hempty)

/-- A read for more than what is left delivers more than that, or goes past the
    end of the array. -/
theorem readLoop_overrun (fuel remaining : Nat) {mb mb' : MultiBuffer} {data : Bytes}
    (hfront : mb.FrontConsumed) (hlen : mb.contents.length < remaining) (hstops : ¬ mb.Stops)
    (hfuel : remaining + (mb.mUsedBuffers + 1 - mb.mReadBuffer) ≤ fuel)
    (hloop : readLoop fuel remaining mb = .ok data mb') : mb.contents.length < data.length := by
  induction fuel generalizing remaining mb data with
  | zero => omega
  | succ fuel ih =>
    obtain ⟨hle, hbehind⟩ := not_stops hstops
    rw [readLoop, get_bind, if_pos ⟨hle, by omega⟩] at hloop
    cases hget : mb.mBuffers[mb.mReadBuffer]? with
    | none =>
      rw [hget] at hloop
      cases hloop
    | some buf =>
      rw [hget] at hloop
      dsimp only at hloop
      by_cases hempty : buf.remaining = 0
      · -- an exhausted buffer, which is a used one
        have hlt : mb.mReadBuffer < mb.mUsedBuffers := by
          refine Nat.lt_of_le_of_ne hle fun heq => ?_
          exact hbehind buf (heq ▸ hget) (contents_eq_nil hempty)
        rw [if_pos hempty] at hloop
        have hmore : mb.nextReadBuffer.contents.length < data.length :=
          ih remaining (frontConsumed_nextReadBuffer hfront hget (contents_eq_nil hempty)) hlen
            (not_stops_nextReadBuffer hstops hlt) (by simp only [nextReadBuffer]; omega) hloop
        exact hmore
      · rw [if_neg hempty] at hloop
        obtain ⟨_, mb₁, hset, hnext⟩ := of_bind_ok hloop
        cases hset
        obtain ⟨rest, mb₂, hrest, hpure⟩ := of_bind_ok hnext
        cases hpure
        have hpos := contents_pos hempty
        have hblen : buf.contents.length = buf.remaining := Buffer.contents_length _
        rw [List.length_append, (buf.read_eq _).1, List.length_take]
        by_cases hne : mb.contents = []
        · -- bytes of an earlier use, behind the used buffers
          rw [hne, List.length_nil]
          omega
        · obtain ⟨front, buf', rest', hbufs, hflen, hlt, hfcons, hcontents⟩ :=
            exists_readBuffer hfront hne
          cases hget.symm.trans (getElem?_readBuffer hbufs hflen)
          generalize htoRead : min remaining buf.remaining = toRead at hrest ⊢
          have hle' : toRead ≤ buf.contents.length := by omega
          obtain ⟨hfront₁, hcontents₁⟩ := setReadBuffer_read hbufs hflen hlt hfcons hcontents hle'
          have htotal := congrArg List.length hcontents
          rw [List.length_append] at htotal
          have hmore := ih (remaining - toRead) hfront₁
            (by rw [hcontents₁, List.length_drop]; omega)
            (fun h => hstops ((stops_setReadBuffer _ hlt).mp h))
            (by simp only [setReadBuffer]; omega) hrest
          rw [hcontents₁, List.length_drop] at hmore
          omega

/-- One read keeps to the queue if and only if it asks for no more than there is,
    or the loop stops in time. -/
theorem read_eq_iff {mb : MultiBuffer} (hfront : mb.FrontConsumed) (length : Nat) :
    (∃ mb', read length mb = .ok (mb.contents.take length) mb' ∧
      mb'.contents = mb.contents.drop length) ↔ length ≤ mb.contents.length ∨ mb.Stops := by
  constructor
  · rintro ⟨mb', hread, -⟩
    by_contra hnot
    obtain ⟨hlen, hstops⟩ := not_or.mp hnot
    rw [read, get_bind] at hread
    obtain ⟨data, mb₁, hloop, hnext⟩ := of_bind_ok hread
    have hmore := readLoop_overrun _ length hfront (Nat.lt_of_not_le hlen) hstops (by omega) hloop
    rw [modify_bind, pure_run] at hnext
    cases hnext
    rw [List.length_take] at hmore
    omega
  · intro hlen
    obtain ⟨mb', hread, -, hcontents, -⟩ := read_ok_or length mb hfront hlen
    exact ⟨mb', hread, hcontents⟩

/-! ## What a skip does -/

/-- While something is left, a skip counts what it was asked for and skips
    nothing. -/
theorem skipLoop_stays (fuel remaining : Nat) {mb : MultiBuffer} (hfront : mb.FrontConsumed)
    (hne : mb.contents ≠ [])
    (hfuel : remaining + (mb.mUsedBuffers + 1 - mb.mReadBuffer) ≤ fuel) :
    ∃ mb', skipLoop fuel remaining mb = .ok remaining mb' ∧ mb'.contents = mb.contents := by
  induction fuel generalizing remaining mb with
  | zero =>
    obtain rfl : remaining = 0 := by omega
    exact ⟨mb, rfl, rfl⟩
  | succ fuel ih =>
    obtain ⟨front, buf, rest, hbufs, hflen, hlt, hfcons, hcontents⟩ := exists_readBuffer hfront hne
    have hget := getElem?_readBuffer hbufs hflen
    rw [skipLoop, get_bind]
    by_cases hpos : 0 < remaining
    · rw [if_pos ⟨Nat.le_of_lt hlt, hpos⟩, hget]
      dsimp only
      by_cases hempty : buf.remaining = 0
      · rw [if_pos hempty]
        exact ih remaining (frontConsumed_nextReadBuffer hfront hget (contents_eq_nil hempty)) hne
          (by simp only [nextReadBuffer]; omega)
      · -- the start of the buffer stays where it is
        rw [if_neg hempty]
        obtain ⟨mb', hloop, hcontents'⟩ :=
          ih (remaining - min remaining buf.remaining) hfront hne (by omega)
        refine ⟨mb', ?_, hcontents'⟩
        rw [bind_of_ok hloop, pure_run]
        congr 1
        omega
    · obtain rfl : remaining = 0 := by omega
      rw [if_neg (by omega)]
      exact ⟨mb, rfl, rfl⟩

/-- With nothing left, a skip looks behind the used buffers. -/
theorem skipLoop_nil (fuel remaining : Nat) {mb : MultiBuffer} (hfront : mb.FrontConsumed)
    (hnil : mb.contents = []) (hpos : 0 < remaining)
    (hfuel : mb.mUsedBuffers + 1 - mb.mReadBuffer ≤ fuel) :
    (mb.Stops → ∃ mb', skipLoop fuel remaining mb = .ok 0 mb' ∧ mb'.FrontConsumed ∧
      mb'.contents = []) ∧
    (¬ mb.Stops → ∀ mb', skipLoop fuel remaining mb ≠ .ok 0 mb') := by
  induction fuel generalizing mb with
  | zero =>
    have hpassed : mb.mUsedBuffers < mb.mReadBuffer := by omega
    exact ⟨fun _ => ⟨mb, rfl, hfront, hnil⟩, fun hstops => absurd (.inl hpassed) hstops⟩
  | succ fuel ih =>
    rw [skipLoop, get_bind]
    by_cases hle : mb.mReadBuffer ≤ mb.mUsedBuffers
    · rw [if_pos ⟨hle, hpos⟩]
      rcases Nat.lt_or_eq_of_le hle with hlt | heq
      · obtain ⟨buf, hget, hempty⟩ := exists_exhausted hnil hlt
        have hzero : buf.remaining = 0 := by rw [← Buffer.contents_length, hempty]; rfl
        obtain ⟨hyes, hno⟩ := ih (frontConsumed_nextReadBuffer hfront hget hempty) hnil
          (by simp only [nextReadBuffer]; omega)
        rw [hget]
        dsimp only
        rw [if_pos hzero]
        exact ⟨fun hstops => hyes (stops_nextReadBuffer hstops),
          fun hstops => hno (not_stops_nextReadBuffer hstops hlt)⟩
      · -- the buffer behind the used ones
        cases hget : mb.mBuffers[mb.mUsedBuffers]? with
        | none =>
          rw [heq, hget]
          refine ⟨fun hstops => ?_, fun _ mb' hskip => by cases hskip⟩
          rcases hstops with hpassed | hempty
          · omega
          · rw [hget] at hempty
            cases hempty
        | some buf =>
          rw [heq, hget]
          dsimp only
          by_cases hempty : buf.remaining = 0
          · have hstops : mb.Stops := .inr (by rw [hget, Option.map_some, contents_eq_nil hempty])
            obtain ⟨hyes, -⟩ := ih (frontConsumed_nextReadBuffer hfront (heq ▸ hget)
              (contents_eq_nil hempty)) hnil (by simp only [nextReadBuffer]; omega)
            rw [if_pos hempty]
            exact ⟨fun _ => hyes (stops_nextReadBuffer hstops), fun hnot => absurd hstops hnot⟩
          · rw [if_neg hempty]
            refine ⟨fun hstops => ?_, fun _ mb' hskip => ?_⟩
            · rcases hstops with hpassed | hnone
              · omega
              · rw [hget, Option.map_some] at hnone
                have hbytes := contents_pos hempty
                rw [Option.some.inj hnone] at hbytes
                cases hbytes
            · obtain ⟨rest, mb₁, -, hpure⟩ := of_bind_ok hskip
              rw [pure_run] at hpure
              injection hpure with hzero
              omega
    · rw [if_neg fun h => hle h.1]
      have hpassed : mb.mUsedBuffers < mb.mReadBuffer := Nat.lt_of_not_le hle
      exact ⟨fun _ => ⟨mb, rfl, hfront, hnil⟩, fun hstops => absurd (.inl hpassed) hstops⟩

/-- One skip keeps to the queue if and only if it asks for nothing, or nothing is
    left and the loop stops in time. -/
theorem skip_eq_iff {mb : MultiBuffer} (hfront : mb.FrontConsumed) (length : Nat) :
    (∃ mb', skip length mb = .ok (min length mb.contents.length) mb' ∧ mb'.FrontConsumed ∧
      mb'.contents = mb.contents.drop length) ↔ length = 0 ∨ mb.contents = [] ∧ mb.Stops := by
  have hskip : ∀ {n : Nat} {mb₁ : MultiBuffer},
      skipLoop (length + (mb.mUsedBuffers + 1)) length mb = .ok n mb₁ →
      skip length mb = .ok n { mb₁ with mBytesRead := mb₁.mBytesRead + n } := by
    intro n mb₁ hloop
    rw [skip, get_bind, bind_of_ok hloop, modify_bind, pure_run]
  by_cases hzero : length = 0
  · subst hzero
    have hloop : skipLoop (0 + (mb.mUsedBuffers + 1)) 0 mb = .ok 0 mb := by
      rw [Nat.zero_add, skipLoop, get_bind, if_neg (by omega)]
      rfl
    refine ⟨fun _ => .inl rfl, fun _ => ⟨_, ?_, hfront, rfl⟩⟩
    rw [Nat.zero_min]
    exact hskip hloop
  · have hpos := Nat.pos_of_ne_zero hzero
    by_cases hnil : mb.contents = []
    · obtain ⟨hyes, hno⟩ := skipLoop_nil (length + (mb.mUsedBuffers + 1)) length hfront hnil hpos
        (by omega)
      rw [hnil, List.length_nil, Nat.min_zero, List.drop_nil]
      constructor
      · rintro ⟨mb', hresult, -⟩
        refine .inr ⟨rfl, ?_⟩
        by_contra hstops
        rw [skip, get_bind] at hresult
        obtain ⟨n, mb₁, hloop, hnext⟩ := of_bind_ok hresult
        rw [modify_bind, pure_run] at hnext
        cases hnext
        exact hno hstops mb₁ hloop
      · rintro (hlength | ⟨-, hstops⟩)
        · exact absurd hlength hzero
        · obtain ⟨mb', hloop, hfront', hcontents'⟩ := hyes hstops
          exact ⟨_, hskip hloop, hfront', hcontents'⟩
    · -- what is left afterwards is too long
      obtain ⟨mb₁, hloop, hcontents⟩ := skipLoop_stays (length + (mb.mUsedBuffers + 1)) length
        hfront hnil (by omega)
      constructor
      · rintro ⟨mb', hresult, -, hdrop⟩
        rw [hskip hloop] at hresult
        injection hresult with _ hstate
        subst hstate
        have hlen := congrArg List.length (hcontents.symm.trans hdrop)
        have hleft := List.length_pos_iff.mpr hnil
        rw [List.length_drop] at hlen
        omega
      · rintro (hlength | ⟨hnone, -⟩)
        · exact absurd hlength hzero
        · exact absurd hnone hnil

/-! ## Any sequence of calls -/

/-- A call within the queue is answered as the queue answers it, and what is left
    is what the queue has left. -/
theorem step_queue {mb : MultiBuffer} {bytes : Bytes} {call : QueueCall}
    (hR : mb.FrontConsumed ∧ mb.contents = bytes) (hcall : mb.Accepts call ∧ mb.Within call) :
    ∃ answer mb' bytes', machine.step mb call = some (answer, mb') ∧
      queue.step bytes call = some (answer, bytes') ∧
        mb'.FrontConsumed ∧ mb'.contents = bytes' := by
  obtain ⟨hfront, rfl⟩ := hR
  obtain ⟨haccepts, hwithin⟩ := hcall
  cases call with
  | write data =>
    exact ⟨_, _, _, rfl, rfl, frontConsumed_write hfront hwithin, contents_write mb data⟩
  | read length =>
    obtain ⟨mb', hread, hfront', hcontents, -⟩ := read_ok_or length mb hfront hwithin
    refine ⟨.bytes (mb.contents.take length), mb', mb.contents.drop length, ?_, rfl, hfront',
      hcontents⟩
    simp only [machine, hread]
  | skip length =>
    obtain ⟨mb', hskip, hfront', hcontents⟩ := (skip_eq_iff hfront length).mpr hwithin
    refine ⟨.count (min length mb.contents.length), mb', mb.contents.drop length, ?_, rfl, hfront',
      hcontents⟩
    simp only [machine, hskip]
  | reset =>
    refine ⟨.done, mb.reset, [], rfl, rfl, ?_, contents_reset mb⟩
    intro buf hbuf
    cases hbuf
  | addBuffer buf =>
    obtain ⟨haccepted, hadd⟩ := addBuffer_accepted haccepts buf
    refine ⟨.accepted true, (mb.addBuffer buf).2, mb.contents ++ buf.contents, ?_, rfl,
      frontConsumed_addBuffer hfront haccepts hwithin, hadd.contents⟩
    simp only [machine, haccepted]

/-- In every run of accepted calls none of which goes too far, the multibuffer
    answers as a queue of bytes does. -/
theorem answers_eq_of_within (initialSize linearSize : Nat) (hpos : 0 < initialSize)
    (calls : List QueueCall)
    (hcalls : machine.RunWhen (fun mb call => mb.Accepts call ∧ mb.Within call)
      (new initialSize linearSize hpos) calls) :
    ∃ answers, machine.answers (new initialSize linearSize hpos) calls = some answers ∧
      queue.answers [] calls = some answers := by
  refine Machine.answers_eq (R := fun mb bytes => mb.FrontConsumed ∧ mb.contents = bytes)
    (fun mb bytes call hR hcall => step_queue hR hcall) ⟨?_, rfl⟩ hcalls
  intro buf hbuf
  cases hbuf

/-- Writes, reads that go on where the last one stopped, one that goes past the
    end into an exhausted buffer, and a buffer added by hand. -/
theorem answers_eq_alternating : ∃ answers,
    machine.answers (new 2 2 (by decide)) [.write [1, 2, 3], .read 2, .read 1, .write [4],
      .addBuffer (.filled [5, 6]), .skip 0, .read 3, .reset, .write [7], .read 1] = some answers ∧
    queue.answers [] [.write [1, 2, 3], .read 2, .read 1, .write [4],
      .addBuffer (.filled [5, 6]), .skip 0, .read 3, .reset, .write [7], .read 1] = some answers :=
  answers_eq_of_within 2 2 (by decide) _ <| Machine.runWhen_of_checks
    (fun mb call => decide (mb.Accepts call ∧ mb.Within call)) (fun _ _ h => of_decide_eq_true h)
    (by decide)

/-- Two bytes of which one is skipped, and then both are read. -/
theorem not_forall_answers_eq : ¬ ∀ (initialSize linearSize : Nat) (hpos : 0 < initialSize)
    (calls : List QueueCall),
    machine.RunWhen (fun mb call => mb.Accepts call) (new initialSize linearSize hpos) calls →
    ∃ answers, machine.answers (new initialSize linearSize hpos) calls = some answers ∧
      queue.answers [] calls = some answers := by
  intro hall
  obtain ⟨answers, hmachine, hqueue⟩ := hall 2 2 (by decide) [.write [1, 2], .skip 1, .read 2]
    (Machine.runWhen_of_checks (fun mb call => decide (mb.Accepts call))
      (fun _ _ h => of_decide_eq_true h) (by decide))
  have hboth := hmachine.trans hqueue.symm
  exact absurd hboth (by decide)

end MultiBuffer

end Arras4Core.Network
