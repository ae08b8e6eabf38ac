/-
  Arras4Core.Network.FrameBoundary

  What a `BasicFramingSource` makes of a frame that is not read to its end.

  `endFrame` forgets the frame without reading on, so the rest of the frame is
  still on the stream when `nextFrame` reads the next header.  Main result:
  `resyncs_iff`.
-/

import Arras4Core.Network.Framing
import Mathlib.Data.List.Induction

namespace Arras4Core.Network

open Arras4Core.Lib
open Arras4Core.Api (Exception)

namespace BasicFramingSource

/-! ## One frame -/

inductive FrameCall
  | read (length : Nat)
  | skip (length : Nat)

namespace FrameCall

def length : FrameCall → Nat
  | read length | skip length => length

/-- What the call takes off the stream. -/
def taken (skips : Bool) : FrameCall → Nat
  | read length => length
  | skip length => if skips then length else 0

end FrameCall

/-- A call on the source; what it throws is caught. -/
def call (skips : Bool) : FrameCall → EStateM Exception BasicFramingSource PUnit
  | .read length => discard (attempt (read length))
  | .skip length => discard (attempt (skip skips length))

/-- `nextFrame`, some calls, and `endFrame`. -/
def takeFrame (skips : Bool) (calls : List FrameCall) :
    EStateM Exception BasicFramingSource PUnit := do
  discard nextFrame
  calls.forM (call skips)
  modify endFrame

/-- None of the calls asks for more than what is left of the frame. -/
def Fits (skips : Bool) : Nat → List FrameCall → Prop
  | _, [] => True
  | left, c :: cs => c.length ≤ left ∧ Fits skips (left - c.taken skips) cs

/-- What the calls take off the stream. -/
def taken (skips : Bool) (calls : List FrameCall) : Nat := (calls.map (·.taken skips)).sum

/-- Consecutive reads. -/
def readAll : List Nat → EStateM Exception BasicFramingSource (List Bytes)
  | [] => pure []
  | length :: lengths => do
    let data ← read length
    let rest ← readAll lengths
    return data :: rest

/-- A frame of the stream, and the calls that take it. -/
structure FrameUse (skips : Bool) where
  payload : Bytes
  calls : List FrameCall
  length_le : payload.length ≤ maxFrameLength
  fits : Fits skips payload.length calls

namespace FrameUse

variable {skips : Bool}

/-- The calls take the whole frame. -/
def TakesAll (f : FrameUse skips) : Prop := taken skips f.calls = f.payload.length

end FrameUse

/-- The stream that holds these frames one after the other. -/
def streamOf {skips : Bool} : List (FrameUse skips) → Bytes
  | [] => []
  | f :: fs => frame f.payload ++ streamOf fs

def takeFrames {skips : Bool} : List (FrameUse skips) → EStateM Exception BasicFramingSource PUnit
  | [] => pure ⟨⟩
  | f :: fs => do
    takeFrame skips f.calls
    takeFrames fs

/-- After these frames `nextFrame` returns the length of whatever frame comes
    next, and reads return its bytes. -/
def Resyncs {skips : Bool} (frames : List (FrameUse skips)) : Prop :=
  ∀ (s : BasicFramingSource) (next rest : Bytes), next.length ≤ maxFrameLength →
    s.mInputSource = streamOf frames ++ (frame next ++ rest) →
    ∃ s', (takeFrames frames >>= fun _ => nextFrame) s = .ok next.length s' ∧
      ∀ sizes : List Nat, sizes.sum ≤ next.length →
        ∃ s'', readAll sizes s' = .ok (pieces sizes next) s''

/-! ## What is left on the stream -/

theorem call_ok (skips : Bool) {c : FrameCall} {s : BasicFramingSource} {data rest : Bytes}
    (hs : s.mInputSource = data ++ rest) (hremaining : s.remaining = data.length)
    (hlen : c.length ≤ data.length) :
    ∃ s', call skips c s = .ok ⟨⟩ s' ∧
      s'.mInputSource = data.drop (c.taken skips) ++ rest ∧
      s'.remaining = (data.drop (c.taken skips)).length := by
  have htake : (data.take c.length).length = c.length := by
    rw [List.length_take, Nat.min_eq_left hlen]
  have hsplit : s.mInputSource = data.take c.length ++ (data.drop c.length ++ rest) := by
    rw [← List.append_assoc, List.take_append_drop, hs]
  cases c with
  | read length =>
    obtain ⟨s', hread, hstream, hleft⟩ := read_ok hsplit (by rw [htake, hremaining]; exact hlen)
    rw [htake] at hread hleft
    refine ⟨s', discard_of_ok (attempt_of_ok hread), hstream, ?_⟩
    rw [hleft, hremaining, List.length_drop]
    rfl
  | skip length =>
    cases skips with
    | true =>
      obtain ⟨s', hskip, hstream, hleft⟩ := skip_ok hsplit (by rw [htake, hremaining]; exact hlen)
      rw [htake] at hskip hleft
      refine ⟨s', discard_of_ok (attempt_of_ok hskip), hstream, ?_⟩
      rw [hleft, hremaining, List.length_drop]
      rfl
    | false =>
      -- the stream throws and stays where it is
      have hskip := skip_unsupported (hlen.trans (Nat.le_of_eq hremaining.symm))
      exact ⟨s, discard_of_ok (attempt_of_error hskip), hs, hremaining⟩

theorem forM_call_ok {skips : Bool} (calls : List FrameCall) {s : BasicFramingSource}
    {data rest : Bytes} (hs : s.mInputSource = data ++ rest)
    (hremaining : s.remaining = data.length)
    (hfits : Fits skips data.length calls) :
    ∃ s', calls.forM (call skips) s = .ok ⟨⟩ s' ∧
      s'.mInputSource = data.drop (taken skips calls) ++ rest := by
  induction calls generalizing s data with
  | nil => exact ⟨s, rfl, hs⟩
  | cons c calls ih =>
    obtain ⟨hlen, hrest⟩ := hfits
    obtain ⟨s₁, hcall, hstream₁, hremaining₁⟩ := call_ok skips hs hremaining hlen
    rw [← List.length_drop] at hrest
    obtain ⟨s₂, hcalls, hstream₂⟩ := ih hstream₁ hremaining₁ hrest
    refine ⟨s₂, ?_, ?_⟩
    · rw [forM_cons_of_ok hcall, hcalls]
    · rw [hstream₂, List.drop_drop]
      rfl

/-- The calls take no more than there is. -/
theorem taken_le {skips : Bool} {left : Nat} {calls : List FrameCall}
    (h : Fits skips left calls) : taken skips calls ≤ left := by
  induction calls generalizing left with
  | nil => exact Nat.zero_le _
  | cons c calls ih =>
    obtain ⟨hlen, hrest⟩ := h
    have hle := ih hrest
    have htaken : c.taken skips ≤ c.length := by
      cases c with
      | read length => exact Nat.le_refl _
      | skip length =>
        simp only [FrameCall.taken, FrameCall.length]
        split <;> omega
    simp only [taken, List.map_cons, List.sum_cons] at hle ⊢
    omega

/-- The rest of the frame stays on the stream. -/
theorem takeFrame_ok {skips : Bool} {calls : List FrameCall} {s : BasicFramingSource}
    {payload rest : Bytes} (hs : s.mInputSource = frame payload ++ rest)
    (hlen : payload.length ≤ maxFrameLength) (hfits : Fits skips payload.length calls) :
    ∃ s', takeFrame skips calls s = .ok ⟨⟩ s' ∧
      s'.mInputSource = payload.drop (taken skips calls) ++ rest := by
  obtain ⟨s₁, hnext, hstream₁, hremaining₁⟩ := nextFrame_ok hs hlen
  obtain ⟨s₂, hcalls, hstream₂⟩ := forM_call_ok calls hstream₁ hremaining₁ hfits
  refine ⟨s₂.endFrame, ?_, hstream₂⟩
  rw [takeFrame, bind_of_ok (discard_of_ok hnext), bind_of_ok hcalls]
  rfl

theorem readAll_ok (sizes : List Nat) {s : BasicFramingSource} {data rest : Bytes}
    (hs : s.mInputSource = data ++ rest) (hremaining : s.remaining = data.length)
    (hsum : sizes.sum ≤ data.length) : ∃ s', readAll sizes s = .ok (pieces sizes data) s' := by
  induction sizes generalizing s data with
  | nil => exact ⟨s, rfl⟩
  | cons length lengths ih =>
    rw [List.sum_cons] at hsum
    have htake : (data.take length).length = length := by rw [List.length_take]; omega
    have hsplit : s.mInputSource = data.take length ++ (data.drop length ++ rest) := by
      rw [← List.append_assoc, List.take_append_drop, hs]
    obtain ⟨s₁, hread, hstream₁, hremaining₁⟩ := read_ok hsplit (by rw [htake]; omega)
    rw [htake] at hread hremaining₁
    obtain ⟨s₂, hrest⟩ := ih hstream₁ (by rw [hremaining₁, hremaining, List.length_drop])
      (by rw [List.length_drop]; omega)
    exact ⟨s₂, by rw [readAll, bind_of_ok hread, bind_of_ok hrest, pure_run, pieces]⟩

/-! ## A header read off the middle of a frame -/

/-- The length that the first bytes of a stream announce. -/
def announced (stream : Bytes) : Nat := (Frame.ofBytes (stream.take Frame.size)).mLength.toNat

theorem nextFrame_announced {s s' : BasicFramingSource} {length : Nat}
    (h : nextFrame s = .ok length s') : length = announced s.mInputSource := by
  unfold nextFrame readStream at h
  split at h
  · next bytes rest hread =>
    split at hread <;> cases hread
    cases h
    rfl
  · cases h

/-- Up to three bytes too many shift the length by that many bytes. -/
theorem announced_short {rest : Bytes} (hne : rest ≠ []) (hlt : rest.length < 4) :
    announced (rest ++ frame [0]) ≠ 1 := by
  have hframe : frame [0] = [0, 0, 0, 0, 1, 0, 0, 0, 0, 0, 0, 0, 0, 0, 0, 0, 0] := by decide
  rw [hframe]
  match rest, hne, hlt with
  | [_], _, _ => exact (by decide : (UInt32.ofNat (leNat [0, 1, 0, 0])).toNat ≠ 1)
  | [_, _], _, _ => exact (by decide : (UInt32.ofNat (leNat [0, 0, 1, 0])).toNat ≠ 1)
  | [_, _, _], _, _ => exact (by decide : (UInt32.ofNat (leNat [0, 0, 0, 1])).toNat ≠ 1)
  | _ :: _ :: _ :: _ :: _, _, hlt => simp only [List.length_cons] at hlt; omega

/-- After four or more, the length is the same whatever the header says. -/
theorem announced_long {rest : Bytes} (hle : 4 ≤ rest.length) (data data' : Bytes) :
    announced (rest ++ frame data) = announced (rest ++ frame data') := by
  have hword : ∀ tail : Bytes,
      (((rest ++ (leBytes 4 0 ++ tail)).take Frame.size).drop 4).take 4
        = (rest.drop 4 ++ leBytes 4 0).take 4 := by
    intro tail
    rw [List.drop_take, List.take_take, List.drop_append_of_le_length hle, ← List.append_assoc,
      Nat.min_eq_left (by decide), List.take_append_of_le_length]
    rw [List.length_append, leBytes_length]
    omega
  have hframe : ∀ data : Bytes, ∃ tail, frame data = leBytes 4 0 ++ tail := by
    intro data
    simp only [frame, Frame.toBytes, List.append_assoc]
    exact ⟨_, rfl⟩
  obtain ⟨tail, htail⟩ := hframe data
  obtain ⟨tail', htail'⟩ := hframe data'
  simp only [announced, Frame.ofBytes, htail, htail', hword]

/-! ## A stream of frames -/

section

variable {skips : Bool}

theorem streamOf_append (frames : List (FrameUse skips)) (f : FrameUse skips) :
    streamOf (frames ++ [f]) = streamOf frames ++ frame f.payload := by
  induction frames with
  | nil => rw [List.nil_append, streamOf, streamOf, streamOf, List.append_nil, List.nil_append]
  | cons g frames ih => rw [List.cons_append, streamOf, ih, streamOf, List.append_assoc]

/-- Frames that are taken whole leave the stream where the next one starts. -/
theorem takeFrames_ok {frames : List (FrameUse skips)} (hall : ∀ f ∈ frames, f.TakesAll)
    (more : List (FrameUse skips)) {s : BasicFramingSource} {rest : Bytes}
    (hs : s.mInputSource = streamOf frames ++ rest) :
    ∃ s', takeFrames (frames ++ more) s = takeFrames more s' ∧ s'.mInputSource = rest := by
  induction frames generalizing s with
  | nil => exact ⟨s, rfl, hs⟩
  | cons f frames ih =>
    rw [streamOf, List.append_assoc] at hs
    obtain ⟨s₁, htake, hstream₁⟩ := takeFrame_ok hs f.length_le f.fits
    rw [hall f List.mem_cons_self, List.drop_length, List.nil_append] at hstream₁
    obtain ⟨s₂, hrest, hstream₂⟩ := ih (fun g hg => hall g (List.mem_cons_of_mem f hg)) hstream₁
    refine ⟨s₂, ?_, hstream₂⟩
    rw [List.cons_append, takeFrames, bind_of_ok htake]
    exact hrest

/-- A frame of which something is left hides some frame that may come next. -/
theorem takesAll_of_resyncs {frames : List (FrameUse skips)} {f : FrameUse skips}
    (hall : ∀ g ∈ frames, g.TakesAll) (h : Resyncs (frames ++ [f])) : f.TakesAll := by
  refine Nat.le_antisymm (taken_le f.fits) (Nat.le_of_not_lt fun hlt => ?_)
  have hrest : f.payload.drop (taken skips f.calls) ≠ [] := by
    rw [Ne, List.drop_eq_nil_iff]
    omega
  -- what `nextFrame` returns is read off the rest of this frame and the next one
  have hread : ∀ next : Bytes, next.length ≤ maxFrameLength →
      announced (f.payload.drop (taken skips f.calls) ++ frame next) = next.length := by
    intro next hnext
    have hstream : (new (streamOf (frames ++ [f]) ++ (frame next ++ []))).mInputSource
        = streamOf frames ++ (frame f.payload ++ frame next) := by
      rw [streamOf_append, List.append_nil, List.append_assoc]
      rfl
    obtain ⟨s', hs', -⟩ := h (new _) next [] hnext rfl
    obtain ⟨s₁, hbefore, hstream₁⟩ := takeFrames_ok hall [f] hstream
    obtain ⟨s₂, htake, hstream₂⟩ := takeFrame_ok hstream₁ f.length_le f.fits
    have hlast : takeFrames [f] s₁ = .ok ⟨⟩ s₂ := by
      rw [takeFrames, bind_of_ok htake]
      rfl
    rw [bind_of_ok (hbefore.trans hlast)] at hs'
    rw [nextFrame_announced hs', hstream₂]
  have hzero := hread [] (Nat.zero_le _)
  have hone := hread [0] (by decide)
  rcases Nat.lt_or_ge (f.payload.drop (taken skips f.calls)).length 4 with hshort | hlong
  · exact announced_short hrest hshort hone
  · rw [announced_long hlong [] [0], hone] at hzero
    cases hzero

theorem resyncs_of_takesAll {frames : List (FrameUse skips)} (hall : ∀ f ∈ frames, f.TakesAll) :
    Resyncs frames := by
  intro s next rest hnext hs
  obtain ⟨s₁, htake, hstream₁⟩ := takeFrames_ok hall [] hs
  rw [List.append_nil] at htake
  obtain ⟨s₂, hframe, hstream₂, hremaining₂⟩ := nextFrame_ok hstream₁ hnext
  refine ⟨s₂, ?_, fun sizes hsum => readAll_ok sizes hstream₂ hremaining₂ hsum⟩
  rw [bind_of_ok (htake.trans rfl), hframe]

theorem takesAll_of_prefixes (frames : List (FrameUse skips))
    (h : ∀ before, before <+: frames → Resyncs before) : ∀ f ∈ frames, f.TakesAll := by
  induction frames using List.reverseRecOn with
  | nil => exact fun f hf => absurd hf List.not_mem_nil
  | append_singleton frames f ih =>
    have hall := ih fun before hbefore => h before (hbefore.trans (List.prefix_append frames [f]))
    intro g hg
    rcases List.mem_append.mp hg with hg | hg
    · exact hall g hg
    · rw [List.mem_singleton.mp hg]
      exact takesAll_of_resyncs hall (h _ (List.prefix_refl _))

/-- Along a stream of frames the next frame is always found, whatever it is, if
    and only if every frame is taken whole. -/
theorem resyncs_iff (skips : Bool) (frames : List (FrameUse skips)) :
    (∀ before, before <+: frames → Resyncs before) ↔ ∀ f ∈ frames, f.TakesAll := by
  constructor
  · exact takesAll_of_prefixes frames
  · intro hall before hbefore
    exact resyncs_of_takesAll fun f hf => hall f (hbefore.subset hf)

end

/-- A frame of three bytes, of which one is read. -/
def readOneOfThree : FrameUse true where
  payload := [1, 2, 3]
  calls := [.read 1]
  length_le := by decide
  fits := ⟨by decide, trivial⟩

/-- The two bytes that are left are taken for the header of the next frame. -/
theorem not_forall_resyncs :
    ¬ ∀ (skips : Bool) (frames : List (FrameUse skips)), Resyncs frames := by
  intro h
  obtain ⟨s', hs', -⟩ := h true [readOneOfThree]
    (new (streamOf [readOneOfThree] ++ (frame [0] ++ []))) [0] [] (by decide) rfl
  have hread : (EStateM.Result.ok 1 s' : EStateM.Result Exception BasicFramingSource Nat)
      = .ok 65536 ⟨[0, 0, 0], 0, 65536, by decide⟩ := hs'.symm.trans (by rfl)
  cases hread

end BasicFramingSource

end Arras4Core.Network
