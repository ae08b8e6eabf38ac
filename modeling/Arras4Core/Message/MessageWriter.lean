/-
  Arras4Core.Message.MessageWriter

  `MessageWriter::write` puts one message into one frame.  It can fail before,
  during and after the message is collected in the sink's buffers; the frame is
  passed on by `closeFrame` alone, which is the last thing it does, and the next
  message starts by resetting the buffers.

  Main result: `writeAll_stream`.  Whatever calls are made and whichever of them
  fail, the stream receives the complete frames of the calls that returned, and
  nothing else.
-/

import Arras4Core.Message.Envelope
import Arras4Core.Network.Buffered

namespace Arras4Core.Message

open Arras4Core.Lib
open Arras4Core.Api (Exception DataOutStream)
open Arras4Core.Network

/-! ## What a message consists of -/

namespace Envelope

/-- What follows the header: how the content gets into the frame, with `n` bytes
    in the frame before it. -/
def contentEval (env : Envelope) (n : Nat) : Bytes × Except Exception Unit :=
  match env.mContent with
  | some (.opaqueContent c) => (c.mData.contents, .ok ())
  | some (.objectContent c) => c.serialize.eval n
  | _ => ([], .error (.messageFormatError
      "Unknown message content format : Object or Opaque content expected"))

/-- The header and the class of the content. -/
def header (env : Envelope) : Bytes := (env.serialize.eval 0).1

/-- The bytes of the whole message. -/
def bytes (env : Envelope) : Bytes := env.header ++ (env.contentEval env.header.length).1

/-- How writing the message ends: the first thing that is wrong with it. -/
def outcome (env : Envelope) : Except Exception Unit :=
  match (env.serialize.eval 0).2 with
  | .error e => .error e
  | .ok _ =>
    match (env.contentEval env.header.length).2 with
    | .error e => .error e
    | .ok _ =>
      if env.bytes.length > maxFrameLength then
        .error (.framingError "Data is too long for the framing protocol. Limit is ~2Gb")
      else .ok ()

/-- What was sent fits a frame. -/
theorem length_le_of_sent {env : Envelope} (hsent : env.outcome = .ok ()) :
    env.bytes.length ≤ maxFrameLength := by
  unfold outcome at hsent
  split at hsent
  · cases hsent
  · split at hsent
    · cases hsent
    · split at hsent
      · cases hsent
      · omega

end Envelope

/-! ## The writer -/

/-- `impl::MessageWriter`.  `mSaved` is what autosaving handed to the file
    system: the directory and the contents of each file, in order. -/
structure MessageWriter where
  mSink : BufferedSink
  mIsAutosaving : Bool := false
  mAutosaveDirectory : String := ""
  mSaved : List (String × Bytes) := []

namespace MessageWriter

def setSink (w : MessageWriter) (sink : BufferedSink) : MessageWriter := { w with mSink := sink }

@[simp] theorem mSink_setSink (w : MessageWriter) (sink : BufferedSink) :
    (w.setSink sink).mSink = sink := rfl

@[simp] theorem setSink_setSink (w : MessageWriter) (sink sink' : BufferedSink) :
    (w.setSink sink).setSink sink' = w.setSink sink' := rfl

@[simp] theorem setSink_mSink (w : MessageWriter) : w.setSink w.mSink = w := rfl

def enableAutosave (directory : String) (w : MessageWriter) : MessageWriter :=
  { w with mAutosaveDirectory := directory, mIsAutosaving := true }

def disableAutosave (w : MessageWriter) : MessageWriter := { w with mIsAutosaving := false }

/-- A call on the sink. -/
def onSink {α : Type} (x : EStateM Exception BufferedSink α) : EStateM Exception MessageWriter α :=
  onField mSink setSink x

/-- The calls user code makes on the out stream, which wraps the sink. -/
def onOutStream {α : Type} (p : DataOutStream α) : EStateM Exception MessageWriter α :=
  onSink (p.run BufferedSink.write BufferedSink.bytesWritten)

/-- The outcome of the file write is only logged. -/
def doAutosave (w : MessageWriter) : MessageWriter :=
  { w with mSaved := w.mSaved ++ [(w.mAutosaveDirectory, w.mSink.writeToFile)] }

/-- The casts in the middle of `write`: opaque content is appended as it is,
    object content serializes itself. -/
def writeContent : Option MessageContent → EStateM Exception MessageWriter Unit
  | some (.opaqueContent c) => modify fun w => w.setSink (w.mSink.appendBuffer c.mData)
  | some (.objectContent c) => onOutStream c.serialize
  | _ => throw (.messageFormatError
      "Unknown message content format : Object or Opaque content expected")

def write (env : Envelope) : EStateM Exception MessageWriter Unit := do
  modify fun w => w.setSink w.mSink.openFrame
  onOutStream env.serialize
  writeContent env.mContent
  modify fun w => if w.mIsAutosaving then w.doAutosave else w
  discard (onSink BufferedSink.closeFrame)

/-- The bytes passed on to the transport so far. -/
def stream (w : MessageWriter) : Bytes := w.mSink.stream

theorem onSink_of_ok {α : Type} {x : EStateM Exception BufferedSink α} {w : MessageWriter} {a : α}
    {sink : BufferedSink} (h : x w.mSink = .ok a sink) :
    onSink x w = .ok a (w.setSink sink) := onField_of_ok h

theorem onSink_of_error {α : Type} {x : EStateM Exception BufferedSink α} {w : MessageWriter}
    {e : Exception} {sink : BufferedSink} (h : x w.mSink = .error e sink) :
    onSink x w = .error e (w.setSink sink) := onField_of_error h

/-- Writing through the out stream collects bytes in the frame and passes
    nothing on, whether the code returns or throws. -/
theorem onOutStream_eval {α : Type} (p : DataOutStream α) (w : MessageWriter)
    (h : w.mSink.mAppendedBuffers = []) :
    ∃ sink, sink.mAppendedBuffers = [] ∧ sink.stream = w.stream ∧
      sink.contents = w.mSink.contents ++ (p.eval w.mSink.contents.length).1 ∧
      onOutStream p w
        = resultOf (p.eval w.mSink.contents.length).2 (w.setSink sink) := by
  obtain ⟨sink, ⟨happended, hstream⟩, hcontents, hrun⟩ :=
    OutProgram.run_eval BufferedSink.write BufferedSink.bytesWritten
      (fun s => s.mAppendedBuffers = [] ∧ s.stream = w.stream) BufferedSink.contents
      (fun data s hs => ⟨hs, BufferedSink.contents_write hs.1 data, by
        rw [BufferedSink.bytesWritten_eq, BufferedSink.bytesWritten_eq,
          BufferedSink.contents_write hs.1, List.length_append]⟩)
      p (s := w.mSink) ⟨h, rfl⟩
  rw [BufferedSink.bytesWritten_eq] at hcontents hrun
  refine ⟨sink, happended, hstream, hcontents, ?_⟩
  cases heval : (p.eval w.mSink.contents.length).2 with
  | ok a =>
    rw [heval] at hrun
    exact onSink_of_ok hrun
  | error e =>
    rw [heval] at hrun
    exact onSink_of_error hrun

/-- The content follows what is in the frame, and nothing is passed on. -/
theorem writeContent_eval (env : Envelope) (w : MessageWriter)
    (h : w.mSink.mAppendedBuffers = []) :
    ∃ sink, sink.stream = w.stream ∧
      sink.contents = w.mSink.contents ++ (env.contentEval w.mSink.contents.length).1 ∧
      writeContent env.mContent w
        = resultOf (env.contentEval w.mSink.contents.length).2 (w.setSink sink) := by
  unfold Envelope.contentEval
  cases env.mContent with
  | none => exact ⟨w.mSink, rfl, by simp, rfl⟩
  | some content =>
    cases content with
    | opaqueContent c =>
      -- the buffer is appended as it is, from its read pointer on
      exact ⟨w.mSink.appendBuffer c.mData, rfl, BufferedSink.contents_appendBuffer _ _, rfl⟩
    | objectContent c =>
      obtain ⟨sink, -, hstream, hcontents, hrun⟩ := onOutStream_eval c.serialize w h
      exact ⟨sink, hstream, hcontents, hrun⟩
    | other id version => exact ⟨w.mSink, rfl, by simp, rfl⟩

/-- The complete frame of a call that returned; nothing for one that threw. -/
def sentFrame (call : Envelope × Except Exception Unit) : Bytes :=
  match call.2 with
  | .ok _ => frame call.1.bytes
  | .error _ => []

@[simp] theorem sentFrame_ok (env : Envelope) (u : Unit) :
    sentFrame (env, .ok u) = frame env.bytes :=
  rfl

@[simp] theorem sentFrame_error (env : Envelope) (e : Exception) :
    sentFrame (env, .error e) = [] := rfl

/-- The end of `write`: the frame is passed on, or refused whole. -/
theorem closeFrame_outcome (w : MessageWriter) :
    ∃ w', discard (onSink BufferedSink.closeFrame) w =
        (if w.mSink.contents.length > maxFrameLength then
          .error (.framingError "Data is too long for the framing protocol. Limit is ~2Gb") w'
        else .ok () w') ∧
      w'.stream = w.stream ++
        (if w.mSink.contents.length > maxFrameLength then [] else frame w.mSink.contents) ∧
      w'.mSaved = w.mSaved := by
  by_cases hlen : w.mSink.contents.length > maxFrameLength
  · refine ⟨w, ?_, ?_, rfl⟩
    · rw [if_pos hlen, discard_of_error (onSink_of_error (w.mSink.closeFrame_error hlen)),
        setSink_mSink]
    · rw [if_pos hlen, List.append_nil]
  · obtain ⟨sink, hclose, hstream, -⟩ := w.mSink.closeFrame_ok (Nat.not_lt.mp hlen)
    refine ⟨w.setSink sink, ?_, ?_, rfl⟩
    · rw [if_neg hlen, discard_of_ok (onSink_of_ok hclose)]
    · rw [if_neg hlen]
      exact hstream

/-- The files that a call saves: the bytes of the message, if it is autosaving. -/
def newFiles (w : MessageWriter) (bytes : Bytes) : List (String × Bytes) :=
  if w.mIsAutosaving then [(w.mAutosaveDirectory, bytes)] else []

/-- Autosaving looks at the frame and leaves it as it is. -/
theorem autosave_eq (w : MessageWriter) :
    (if w.mIsAutosaving then w.doAutosave else w).mSink = w.mSink ∧
      (if w.mIsAutosaving then w.doAutosave else w).mSaved
        = w.mSaved ++ w.newFiles w.mSink.contents := by
  unfold newFiles
  split
  · rw [← BufferedSink.writeToFile_eq]
    exact ⟨rfl, rfl⟩
  · exact ⟨rfl, (List.append_nil _).symm⟩

/-- One call: it ends as the message says, and the stream receives the whole
    frame if it returned and nothing if it threw.  Nothing is asked of the
    state an earlier call left the writer in. -/
theorem write_outcome (env : Envelope) (w : MessageWriter) :
    ∃ w', write env w = resultOf env.outcome w' ∧
      w'.stream = w.stream ++ sentFrame (env, env.outcome) ∧
      (env.outcome = .ok () → w'.mSaved = w.mSaved ++ w.newFiles env.bytes) := by
  have hopen : w.mSink.openFrame.contents = [] := BufferedSink.contents_openFrame _
  obtain ⟨sink₁, happended₁, hstream₁, hcontents₁, hrun₁⟩ :=
    onOutStream_eval env.serialize (w.setSink w.mSink.openFrame) rfl
  rw [mSink_setSink, hopen, List.length_nil, List.nil_append] at hcontents₁
  rw [mSink_setSink, hopen, List.length_nil, setSink_setSink] at hrun₁
  unfold write
  rw [modify_bind]
  cases hheader : (env.serialize.eval 0).2 with
  | error e =>
    -- the header failed: an empty routing name
    have hout : env.outcome = .error e := by rw [Envelope.outcome, hheader]
    rw [hheader] at hrun₁
    rw [hout, bind_of_error hrun₁]
    exact ⟨_, rfl, by rw [sentFrame_error, List.append_nil]; exact hstream₁, fun h => by cases h⟩
  | ok u =>
    rw [hheader] at hrun₁
    rw [bind_of_ok hrun₁]
    obtain ⟨sink₂, hstream₂, hcontents₂, hrun₂⟩ :=
      writeContent_eval env (w.setSink sink₁) happended₁
    rw [mSink_setSink] at hcontents₂ hrun₂
    rw [setSink_setSink] at hrun₂
    have hlen : sink₁.contents.length = env.header.length := by rw [hcontents₁]; rfl
    have hbytes : sink₂.contents = env.bytes := by
      rw [hcontents₂, hlen, hcontents₁]
      rfl
    rw [hlen] at hrun₂
    cases hcontent : (env.contentEval env.header.length).2 with
    | error e =>
      -- the content failed: the frame is left open, and the next call resets it
      have hout : env.outcome = .error e := by simp only [Envelope.outcome, hheader, hcontent]
      rw [hcontent] at hrun₂
      rw [hout, bind_of_error hrun₂]
      exact ⟨_, rfl, by rw [sentFrame_error, List.append_nil]; exact hstream₂.trans hstream₁,
        fun h => by cases h⟩
    | ok u' =>
      rw [hcontent] at hrun₂
      rw [bind_of_ok hrun₂, modify_bind]
      obtain ⟨hsink₃, hsaved₃⟩ := autosave_eq (w.setSink sink₂)
      generalize (if (w.setSink sink₂).mIsAutosaving then (w.setSink sink₂).doAutosave
        else w.setSink sink₂) = w₃ at hsink₃ hsaved₃ ⊢
      rw [mSink_setSink] at hsink₃ hsaved₃
      obtain ⟨w₄, hclose, hstream₄, hsaved₄⟩ := closeFrame_outcome w₃
      have hstream₃ : w₃.stream = w.stream := by
        rw [stream, hsink₃]
        exact hstream₂.trans hstream₁
      rw [hsink₃, hbytes] at hclose hstream₄
      refine ⟨w₄, ?_, ?_, fun _ => ?_⟩
      · rw [hclose]
        simp only [Envelope.outcome, hheader, hcontent]
        split <;> rfl
      · rw [hstream₄, hstream₃]
        simp only [Envelope.outcome, hheader, hcontent]
        split <;> rfl
      · rw [hsaved₄, hsaved₃, hbytes]
        rfl

/-! ## Any sequence of calls -/

/-- A sequence of calls, each of which may throw; a caller that catches the
    exception goes on with the next one.  Returns how each call ended. -/
def writeAll : List Envelope → MessageWriter → List (Except Exception Unit) × MessageWriter
  | [], w => ([], w)
  | env :: envs, w =>
    match write env w with
    | .ok _ w' => (.ok () :: (writeAll envs w').1, (writeAll envs w').2)
    | .error e w' => (.error e :: (writeAll envs w').1, (writeAll envs w').2)

theorem writeAll_cons (env : Envelope) (envs : List Envelope) (w : MessageWriter) :
    ∃ w', (writeAll (env :: envs) w) = (env.outcome :: (writeAll envs w').1, (writeAll envs w').2) ∧
      w'.stream = w.stream ++ sentFrame (env, env.outcome) := by
  obtain ⟨w', hwrite, hstream, -⟩ := write_outcome env w
  refine ⟨w', ?_, hstream⟩
  rw [writeAll, hwrite]
  cases env.outcome with
  | ok u => rfl
  | error e => rfl

theorem writeAll_outcomes (envs : List Envelope) (w : MessageWriter) :
    (writeAll envs w).1 = envs.map Envelope.outcome := by
  induction envs generalizing w with
  | nil => rfl
  | cons env envs ih =>
    obtain ⟨w', hall, -⟩ := writeAll_cons env envs w
    rw [hall, ih, List.map_cons]

/-- Failed sends leave nothing on the wire: the stream receives exactly the
    complete frames of the calls that returned normally, in order, and a call
    that throws, from any state, leaves the stream as it was. -/
theorem writeAll_stream (envs : List Envelope) (w : MessageWriter) :
    (writeAll envs w).2.stream
        = w.stream ++ (envs.zip (writeAll envs w).1).flatMap sentFrame ∧
      ∀ env w₁ e w₂, write env w₁ = .error e w₂ → w₂.stream = w₁.stream := by
  constructor
  · induction envs generalizing w with
    | nil => simp [writeAll]
    | cons env envs ih =>
      obtain ⟨w', hall, hstream⟩ := writeAll_cons env envs w
      simp only [hall]
      rw [List.zip_cons_cons, List.flatMap_cons, ih w', hstream, List.append_assoc]
  · intro env w₁ e w₂ herror
    obtain ⟨w', hwrite, hstream, -⟩ := write_outcome env w₁
    rw [hwrite] at herror
    cases hout : env.outcome with
    | ok u => simp [hout] at herror
    | error e' =>
      simp only [hout, resultOf_error, EStateM.Result.error.injEq] at herror
      rw [hout, sentFrame_error, List.append_nil] at hstream
      rw [← herror.2, hstream]

/-- A message with an empty routing name, then the same message with one: the
    second frame is all that reaches the stream. -/
theorem writeAll_stream_unnamedThenNamed :
    let env (name : Bytes) : Envelope :=
      { mContent := some (.opaqueContent ⟨.null, 1, .filled [7, 8, 9]⟩)
        mMetadata := some ⟨.null, .null, {}, name, false⟩ }
    let w : MessageWriter := { mSink := .new (.new []) }
    (writeAll [env [], env [65]] w).2.stream = frame (env [65]).bytes := by
  intro env w
  refine (writeAll_stream [env [], env [65]] w).1.trans ?_
  have hfails : (env []).outcome = .error (.messageFormatError "Routing name has zero length") :=
    rfl
  have hreturns : (env [65]).outcome = .ok () := by rfl
  rw [writeAll_outcomes, List.map_cons, List.map_cons, List.map_nil, hfails, hreturns]
  rfl

end MessageWriter

end Arras4Core.Message
