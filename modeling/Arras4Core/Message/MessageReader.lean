/-
  Arras4Core.Message.MessageReader

  `MessageReader::read` reads one message from one frame.  The bytes go through
  the header's and the content's own code, which may stop short, ask for too
  much or throw anywhere, and opaque content takes the buffer away.

  Main result: `read_resynchronises`.  None of it matters to the next call: each
  call takes exactly one frame from the stream, and what it makes of it is
  decided by the bytes of that frame.
-/

import Arras4Core.Message.Envelope
import Arras4Core.Network.Buffered

namespace Arras4Core.Message

open Arras4Core.Lib
open Arras4Core.Api (Exception ClassID)
open Arras4Core.Network

/-- `api::ContentRegistry`, by what `create` followed by `deserialize` does for
    each class; none for a class that is not registered.  The code is the
    user's: it may catch what the stream throws. -/
abbrev ContentFactories := ClassID → UInt32 → Option (InCode Exception ObjectContent)

/-- `impl::MessageReader`.  `mSaved` is what autosaving handed to the file
    system: the directory and the contents of each file, in order. -/
structure MessageReader where
  mSource : BufferedSource
  mIsAutosaving : Bool := false
  mAutosaveDirectory : String := ""
  mSaved : List (String × Bytes) := []

namespace MessageReader

def setSource (r : MessageReader) (source : BufferedSource) : MessageReader :=
  { r with mSource := source }

def enableAutosave (directory : String) (r : MessageReader) : MessageReader :=
  { r with mAutosaveDirectory := directory, mIsAutosaving := true }

def disableAutosave (r : MessageReader) : MessageReader := { r with mIsAutosaving := false }

/-- A call on the source. -/
def onSource {α : Type} (x : EStateM Exception BufferedSource α) :
    EStateM Exception MessageReader α :=
  onField mSource setSource x

/-- The calls code makes on the in stream, which wraps the source. -/
def onInStream {α : Type} (p : InCode Exception α) : EStateM Exception MessageReader α :=
  onSource (p.run BufferedSource.read BufferedSource.skip BufferedSource.bytesRead)

/-- The outcome of the file write is only logged. -/
def doAutosave (r : MessageReader) : MessageReader :=
  match r.mSource.writeToFile with
  | none => r
  | some bytes => { r with mSaved := r.mSaved ++ [(r.mAutosaveDirectory, bytes)] }

/-- The second half of `read`: an object of a registered class, or the buffer as
    opaque content. -/
def readContent (registry : ContentFactories) (useRegistry : Bool) (classId : ClassID)
    (version : UInt32) : EStateM Exception MessageReader MessageContent :=
  match if useRegistry then registry classId version else none with
  | some deserialize => do
    let objContent ← onInStream deserialize
    return .objectContent objContent
  | none => do
    let data ← onSource BufferedSource.takeBuffer
    match data with
    | none => throw .undefinedBehaviour
    | some data => return .opaqueContent ⟨classId, version, data⟩

/-- A frame of length zero stands for a timeout of the source. -/
def read (registry : ContentFactories) (useRegistry : Bool) :
    EStateM Exception MessageReader Envelope := do
  let frameSize ← onSource BufferedSource.nextFrame
  if frameSize = 0 then return Envelope.new
  -- the whole message is saved, before anything of it is read
  modify fun r => if r.mIsAutosaving then r.doAutosave else r
  let (env, classId, version) ← onInStream Envelope.new.deserialize.toCode
  let content ← readContent registry useRegistry classId version
  -- not reached if the code above throws; `nextFrame` begins a new frame either way
  modify fun r => r.setSource r.mSource.endFrame
  return env.setContent content

/-- The bytes still to come on the transport. -/
def stream (r : MessageReader) : Bytes := r.mSource.stream

end MessageReader

/-! ## What the bytes of a message say -/

/-- The content with a buffer that holds its bytes and no others. -/
def MessageContent.compact : MessageContent → MessageContent
  | opaqueContent c => .opaqueContent { c with mData := .filled c.mData.contents }
  | content => content

def Envelope.compact (env : Envelope) : Envelope :=
  { env with mContent := env.mContent.map MessageContent.compact }

namespace Envelope

theorem opaqueContent_of_compact {env : Envelope} {classId : ClassID} {version : UInt32}
    {data : Bytes}
    (h : env.compact.mContent = some (.opaqueContent ⟨classId, version, .filled data⟩)) :
    ∃ c, env.mContent = some (.opaqueContent c) ∧ c.mClassId = classId ∧ c.mVersion = version ∧
      c.mData.contents = data := by
  obtain ⟨content, hcontent, hcompact⟩ := Option.map_eq_some_iff.mp h
  cases content with
  | opaqueContent c =>
    obtain ⟨hclassId, hversion, hdata⟩ :=
      OpaqueContent.mk.inj (MessageContent.opaqueContent.inj hcompact)
    have hbytes := congrArg Buffer.contents hdata
    rw [Buffer.contents_filled, Buffer.contents_filled] at hbytes
    exact ⟨c, hcontent, hclassId, hversion, hbytes⟩
  | objectContent c => cases hcompact
  | other id version => cases hcompact

theorem objectContent_of_compact {env : Envelope} {objContent : ObjectContent}
    (h : env.compact.mContent = some (.objectContent objContent)) :
    env.mContent = some (.objectContent objContent) := by
  obtain ⟨content, hcontent, hcompact⟩ := Option.map_eq_some_iff.mp h
  cases content with
  | opaqueContent c => cases hcompact
  | objectContent c =>
    rw [hcontent]
    exact congrArg some hcompact
  | other id version => cases hcompact

end Envelope

/-- The content at the end of a message. -/
def decodeContent (registry : ContentFactories) (useRegistry : Bool) (classId : ClassID)
    (version : UInt32) : EStateM Exception Reading MessageContent :=
  match if useRegistry then registry classId version else none with
  | some deserialize => do
    let objContent ← BufferedSource.onMessage deserialize
    return .objectContent objContent
  | none => do
    let message ← get
    return .opaqueContent ⟨classId, version, .filled message.remaining⟩

/-- The envelope in the bytes of one message. -/
def decode (registry : ContentFactories) (useRegistry : Bool) :
    EStateM Exception Reading Envelope := do
  let (env, classId, version) ← BufferedSource.onMessage Envelope.new.deserialize.toCode
  let content ← decodeContent registry useRegistry classId version
  return env.setContent content

namespace MessageReader

theorem onSource_of_resultOf {α : Type} {x : EStateM Exception BufferedSource α}
    {r : MessageReader} {outcome : Except Exception α} {source : BufferedSource}
    (h : x r.mSource = resultOf outcome source) :
    onSource x r = resultOf outcome (r.setSource source) := by
  cases outcome with
  | ok a => exact onField_of_ok h
  | error e => exact onField_of_error h

/-- Code on the in stream ends as it does on the bytes of the message. -/
theorem onInStream_outcome {α : Type} (p : InCode Exception α) {rest : Bytes} {r : MessageReader}
    {message : Reading} (h : r.mSource.Shows rest message) :
    ∃ outcome source message', onInStream p r = resultOf outcome (r.setSource source) ∧
      BufferedSource.onMessage p message = resultOf outcome message' ∧
      source.Shows rest message' := by
  obtain ⟨outcome, message', hmessage⟩ := exists_eq_resultOf (BufferedSource.onMessage p message)
  have hends := BufferedSource.run_endsAlike p h
  rw [hmessage] at hends
  obtain ⟨source, hrun, hshows⟩ := hends.exists_resultOf
  exact ⟨outcome, source, message', onSource_of_resultOf hrun, hmessage, hshows⟩

/-- The content is what the rest of the message says, and getting it takes
    nothing from the transport. -/
theorem readContent_outcome (registry : ContentFactories) (useRegistry : Bool) (classId : ClassID)
    (version : UInt32) {rest : Bytes} {r : MessageReader} {message : Reading}
    (h : r.mSource.Shows rest message) :
    ∃ outcome r' message', readContent registry useRegistry classId version r
        = resultOf outcome r' ∧
      decodeContent registry useRegistry classId version message
        = resultOf (outcome.map MessageContent.compact) message' ∧ r'.stream = rest ∧
      r'.mSaved = r.mSaved := by
  unfold readContent decodeContent
  cases (if useRegistry then registry classId version else none) with
  | none =>
    -- the buffer goes with the content
    obtain ⟨hstream, buf, hbuf, -, hcontents⟩ := h
    have htake : onSource BufferedSource.takeBuffer r
        = .ok (some buf) (r.setSource { r.mSource with mBuffer := none }) :=
      onField_of_ok (by rw [BufferedSource.takeBuffer, hbuf])
    refine ⟨.ok (.opaqueContent ⟨classId, version, buf⟩),
      r.setSource { r.mSource with mBuffer := none }, message, ?_, ?_, hstream, rfl⟩
    · simp only [bind_of_ok htake, pure_run, resultOf_ok]
    · simp only [get_bind, pure_run, Except.map, MessageContent.compact, hcontents, resultOf_ok]
  | some deserialize =>
    obtain ⟨outcome, source, message', hrun, hmessage, hshows⟩ := onInStream_outcome deserialize h
    cases outcome with
    | ok objContent =>
      refine ⟨.ok (.objectContent objContent), r.setSource source, message', ?_, ?_, hshows.1, rfl⟩
      · simp only [bind_of_ok hrun, pure_run, resultOf_ok]
      · simp only [bind_of_ok hmessage, pure_run, Except.map, MessageContent.compact, resultOf_ok]
    | error e =>
      refine ⟨.error e, r.setSource source, message', ?_, ?_, hshows.1, rfl⟩
      · simp only [bind_of_error hrun, resultOf_error]
      · simp only [bind_of_error hmessage, Except.map, resultOf_error]

/-- The files that a call saves: the bytes of the message, if it is autosaving. -/
def newFiles (r : MessageReader) (bytes : Bytes) : List (String × Bytes) :=
  if r.mIsAutosaving then [(r.mAutosaveDirectory, bytes)] else []

/-- Autosaving looks at the frame and leaves it as it is.  Nothing of the message has
    been consumed, so what is saved is all of it. -/
theorem autosave_eq {r : MessageReader} {rest message : Bytes}
    (h : r.mSource.Shows rest ⟨0, message⟩) :
    (if r.mIsAutosaving then r.doAutosave else r).mSource = r.mSource ∧
      (if r.mIsAutosaving then r.doAutosave else r).mSaved = r.mSaved ++ r.newFiles message := by
  obtain ⟨-, buf, hbuf, hconsumed, hcontents⟩ := h
  have hstart : buf.mStart = 0 := hconsumed
  have hsaved : r.mSource.writeToFile = some message := by
    rw [Buffer.contents, hstart, List.drop_zero] at hcontents
    rw [BufferedSource.writeToFile, hbuf, Option.map_some, hcontents]
  unfold newFiles doAutosave
  rw [hsaved]
  split
  · exact ⟨rfl, rfl⟩
  · exact ⟨rfl, (List.append_nil _).symm⟩

/-- From any state of the reader, a call takes the next frame from the
    transport, and its outcome is what the bytes of the frame say. -/
theorem read_outcome (registry : ContentFactories) (useRegistry : Bool) {r : MessageReader}
    {payload rest : Bytes} (hstream : r.stream = frame payload ++ rest) (hpos : payload ≠ [])
    (hlen : payload.length ≤ maxFrameLength) :
    ∃ outcome r' message', read registry useRegistry r = resultOf outcome r' ∧
      decode registry useRegistry ⟨0, payload⟩
        = resultOf (outcome.map Envelope.compact) message' ∧ r'.stream = rest ∧
      r'.mSaved = r.mSaved ++ r.newFiles payload := by
  obtain ⟨source₁, hnext, hshows₁⟩ := BufferedSource.nextFrame_shows hstream hpos hlen
  have hnext' : onSource BufferedSource.nextFrame r = .ok payload.length (r.setSource source₁) :=
    onField_of_ok hnext
  have hne : payload.length ≠ 0 := fun h => hpos (List.eq_nil_of_length_eq_zero h)
  unfold read decode
  rw [bind_of_ok hnext']
  simp only [if_neg hne]
  rw [modify_bind]
  have hshows₁' : (r.setSource source₁).mSource.Shows rest ⟨0, payload⟩ := hshows₁
  obtain ⟨hsource₂, hsaved₂⟩ := autosave_eq hshows₁'
  generalize (if (r.setSource source₁).mIsAutosaving then (r.setSource source₁).doAutosave
    else r.setSource source₁) = r₂ at hsource₂ hsaved₂ ⊢
  obtain ⟨outcome₃, source₃, message₃, hrun₃, hmessage₃, hshows₃⟩ :=
    onInStream_outcome Envelope.new.deserialize.toCode (hsource₂ ▸ hshows₁')
  cases outcome₃ with
  | error e =>
    -- the frame is not ended, and the rest of the stream is where it was
    refine ⟨.error e, r₂.setSource source₃, message₃, ?_, ?_, hshows₃.1, hsaved₂⟩
    · rw [bind_of_error hrun₃, resultOf_error]
    · rw [bind_of_error hmessage₃, Except.map, resultOf_error]
  | ok decoded =>
    obtain ⟨env, classId, version⟩ := decoded
    obtain ⟨outcome₄, r₄, message₄, hrun₄, hmessage₄, hstream₄, hsaved₄⟩ :=
      readContent_outcome registry useRegistry classId version
        (r := r₂.setSource source₃) hshows₃
    rw [bind_of_ok hrun₃, bind_of_ok hmessage₃]
    cases outcome₄ with
    | error e =>
      refine ⟨.error e, r₄, message₄, ?_, ?_, hstream₄, hsaved₄.trans hsaved₂⟩
      · simp only [bind_of_error hrun₄, resultOf_error]
      · simp only [bind_of_error hmessage₄, Except.map, resultOf_error]
    | ok content =>
      refine ⟨.ok (env.setContent content), r₄.setSource r₄.mSource.endFrame, message₄, ?_, ?_,
        hstream₄, hsaved₄.trans hsaved₂⟩
      · simp only [bind_of_ok hrun₄, modify_bind, pure_run, resultOf_ok]
      · simp only [bind_of_ok hmessage₄, pure_run, Except.map, resultOf_ok]
        rfl

/-! ## Any sequence of calls -/

/-- A sequence of calls, each of which may throw; a caller that catches the
    exception goes on with the next one.  Returns how each call ended. -/
def readAll : List (ContentFactories × Bool) →
    EStateM Exception MessageReader (List (Except Exception Envelope))
  | [] => pure []
  | (registry, useRegistry) :: calls => do
    let outcome ← attempt (read registry useRegistry)
    let outcomes ← readAll calls
    return outcome :: outcomes

/-- As many calls as there are frames take just these from the transport. -/
theorem readAll_stream (calls : List (ContentFactories × Bool)) (payloads : List Bytes)
    {r : MessageReader} {rest : Bytes} (hstream : r.stream = payloads.flatMap frame ++ rest)
    (hframes : ∀ payload ∈ payloads, payload ≠ [] ∧ payload.length ≤ maxFrameLength)
    (hcount : calls.length = payloads.length) :
    ∃ outcomes r', readAll calls r = .ok outcomes r' ∧ r'.stream = rest := by
  induction calls generalizing payloads r with
  | nil =>
    obtain rfl := List.eq_nil_of_length_eq_zero hcount.symm
    exact ⟨[], r, rfl, hstream⟩
  | cons call calls ih =>
    obtain ⟨registry, useRegistry⟩ := call
    cases payloads with
    | nil => cases hcount
    | cons payload payloads =>
      rw [List.flatMap_cons, List.append_assoc] at hstream
      obtain ⟨hpos, hlen⟩ := hframes payload List.mem_cons_self
      obtain ⟨outcome, r₁, -, hread, -, hstream₁, -⟩ :=
        read_outcome registry useRegistry hstream hpos hlen
      obtain ⟨outcomes, r₂, hall, hstream₂⟩ := ih payloads hstream₁
        (fun p hp => hframes p (List.mem_cons_of_mem payload hp)) (Nat.succ.inj hcount)
      refine ⟨outcome :: outcomes, r₂, ?_, hstream₂⟩
      rw [readAll, bind_of_ok (attempt_of_resultOf hread), bind_of_ok hall, pure_run]

/-- The reader resynchronises at every message: after any earlier calls, one for
    each of the frames before, whatever the content's code did in them, the next
    call takes exactly the next frame from the transport, whether it returns or
    throws, and its outcome is what the bytes of that frame say. -/
theorem read_resynchronises (before : List Bytes) (payload after : Bytes) (r : MessageReader)
    (hstream : r.stream = before.flatMap frame ++ (frame payload ++ after))
    (hframes : ∀ p ∈ payload :: before, p ≠ [] ∧ p.length ≤ maxFrameLength)
    (earlier : List (ContentFactories × Bool)) (hcount : earlier.length = before.length)
    (registry : ContentFactories) (useRegistry : Bool) :
    ∃ outcomes r₁ outcome r₂ message, readAll earlier r = .ok outcomes r₁ ∧
      read registry useRegistry r₁ = resultOf outcome r₂ ∧
      r₁.stream = frame payload ++ after ∧ r₂.stream = after ∧
      decode registry useRegistry ⟨0, payload⟩
        = resultOf (outcome.map Envelope.compact) message := by
  obtain ⟨hpos, hlen⟩ := hframes payload List.mem_cons_self
  obtain ⟨outcomes, r₁, hall, hstream₁⟩ := readAll_stream earlier before hstream
    (fun p hp => hframes p (List.mem_cons_of_mem payload hp)) hcount
  obtain ⟨outcome, r₂, message, hread, hdecode, hstream₂, -⟩ :=
    read_outcome registry useRegistry hstream₁ hpos hlen
  exact ⟨outcomes, r₁, outcome, r₂, message, hall, hread, hstream₁, hstream₂, hdecode⟩

/-- A message that breaks off in its first field, then another one. -/
theorem read_resynchronises_afterTruncated :
    let registry : ContentFactories := fun _ _ => none
    let r : MessageReader :=
      { mSource := .new (.new ([[1]].flatMap frame ++ (frame [2, 3] ++ [4]))) }
    ∃ outcomes r₁ outcome r₂ message, readAll [(registry, true)] r = .ok outcomes r₁ ∧
      read registry false r₁ = resultOf outcome r₂ ∧
      r₁.stream = frame [2, 3] ++ [4] ∧ r₂.stream = [4] ∧
      decode registry false ⟨0, [2, 3]⟩ = resultOf (outcome.map Envelope.compact) message := by
  intro registry r
  exact read_resynchronises [[1]] [2, 3] [4] r rfl (by decide) [(registry, true)] rfl registry false

end MessageReader

end Arras4Core.Message
