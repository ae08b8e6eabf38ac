/-
  Arras4Core.Message.Deferred

  `MessageReader::deserializeContent` deserializes opaque content after the fact.
  The code of the content class then reads from a buffer over the opaque bytes
  and not from the buffered source.  The source refuses a request for more than
  the message has; the buffer clips it.

  Main result: `pathsAgree_iff`.  Reading at once and reading later come to the
  same end exactly when the code does not mind the difference.
-/

import Arras4Core.Message.EnvelopeCodec

namespace Arras4Core.Message

open Arras4Core.Lib
open Arras4Core.Api (Exception ClassID)
open Arras4Core.Network

namespace MessageReader

/-! ## Deserializing after the fact -/

/-- The calls code makes on an in stream that wraps a buffer. -/
def onBuffer {α : Type} (p : InCode Exception α) : EStateM Exception Buffer α :=
  p.run (fun length buf => .ok (buf.read length).1 (buf.read length).2)
    (fun length buf => .ok (buf.skip length).1 (buf.skip length).2) Buffer.consumed

/-- Content that is not opaque was deserialized before.  The new buffer is over
    the remaining bytes of the one in the content, whose read pointer stays. -/
def deserializeContent (registry : ContentFactories) : EStateM Exception Envelope Bool := fun env =>
  match env.mContent with
  | some (.opaqueContent oc) =>
    match registry env.classId env.classVersion with
    | some deserialize =>
      match onBuffer deserialize (.filled oc.mData.contents) with
      | .ok objContent _ => .ok true (env.setContent (.objectContent objContent))
      | .error e _ => .error e env
    | none => .ok false env
  | _ => .ok true env

/-- `read(false)`, then `deserializeContent` on the envelope it returned. -/
def readDeferred (registry : ContentFactories) :
    EStateM Exception MessageReader (Bool × Envelope) := do
  let env ← read registry false
  match deserializeContent registry env with
  | .ok deserialized env => return (deserialized, env)
  | .error e _ => throw e

/-- The two ways to read the next message: one returns some content if and only
    if the other does, and one throws if and only if the other does. -/
structure PathsAgree (registry : ContentFactories) (r : MessageReader) : Prop where
  content : ∀ c, (∃ env r', read registry true r = .ok env r' ∧ env.mContent = some c) ↔
    ∃ env r', readDeferred registry r = .ok (true, env) r' ∧ env.mContent = some c
  throws : (∃ e r', read registry true r = .error e r') ↔
    ∃ e r', readDeferred registry r = .error e r'

/-! ## How each of them ends -/

/-- On a buffer a request for too much is answered with what there is. -/
theorem onBuffer_outcome {α : Type} {p : InCode Exception α} (hp : p.ReadsAndSkips) (buf : Buffer) :
    ∃ buf', onBuffer p buf = resultOf (p.evalClipped buf.contents) buf' := by
  refine InCode.run_evalClipped ?_ ?_ hp buf
  · intro length buf
    refine ⟨(buf.read length).2, ?_, (buf.read_eq length).2⟩
    rw [(buf.read_eq length).1]
  · intro length buf
    refine ⟨(buf.read length).2, ?_, (buf.read_eq length).2⟩
    rw [buf.skip_eq_read]

/-- How the code of a content class ends while the message is being read. -/
abbrev evalImmediate {α : Type} (p : InCode Exception α) (payload : Bytes) : Except Exception α :=
  p.evalRefused BufferedSource.readBeyond BufferedSource.skipBeyond payload

section Frame

variable {registry : ContentFactories} {r : MessageReader} {header payload rest : Bytes}
  {decoded : Envelope} {classId : ClassID} {version : UInt32} {p : InCode Exception ObjectContent}

theorem header_ne_nil {r : Except Exception (Envelope × ClassID × UInt32)}
    (hheader : Envelope.new.deserialize.Ends 0 header r) : header ++ payload ≠ [] := by
  have hfirst : 4 ≤ header.length := hheader.1
  intro hnil
  rw [(List.append_eq_nil_iff.mp hnil).1] at hfirst
  exact absurd hfirst (by decide)

theorem onMessage_header
    (hheader : Envelope.new.deserialize.Ends 0 header (.ok (decoded, classId, version))) :
    BufferedSource.onMessage Envelope.new.deserialize.toCode ⟨0, header ++ payload⟩
      = .ok (decoded, classId, version) ⟨0 + header.length, payload⟩ :=
  Reading.run_of_ends hheader payload

/-! A reader with a message on its transport: a well-formed header, and any payload. -/

variable (hheader : Envelope.new.deserialize.Ends 0 header (.ok (decoded, classId, version)))
  (hstream : r.stream = frame (header ++ payload) ++ rest)
  (hlen : (header ++ payload).length ≤ maxFrameLength)

include hheader hstream hlen

variable (registry) in
/-- `read(false)` gives the payload to the envelope as it is. -/
theorem read_opaque :
    ∃ env r' c, read registry false r = .ok env r' ∧ env.mContent = some (.opaqueContent c) ∧
      c.mClassId = classId ∧ c.mVersion = version ∧ c.mData.contents = payload := by
  obtain ⟨outcome, r', message, hread, hdecode, -⟩ :=
    read_outcome registry false hstream (header_ne_nil hheader) hlen
  unfold decode decodeContent at hdecode
  rw [bind_of_ok (onMessage_header hheader)] at hdecode
  cases outcome with
  | error e => cases hdecode
  | ok env =>
    have hcompact : decoded.setContent (.opaqueContent ⟨classId, version, .filled payload⟩)
        = env.compact := (EStateM.Result.ok.inj hdecode).1
    obtain ⟨c, hcontent, hclassId, hversion, hdata⟩ :=
      Envelope.opaqueContent_of_compact (congrArg Envelope.mContent hcompact.symm)
    exact ⟨env, r', c, hread, hcontent, hclassId, hversion, hdata⟩

variable (hregistered : registry classId version = some p) (hp : p.ReadsAndSkips)

include hregistered hp

/-- `read(true)` with the class registered. -/
theorem read_registered :
    ∃ outcome r', read registry true r = resultOf outcome r' ∧
      outcome.map Envelope.mContent
        = (evalImmediate p payload).map fun objContent => some (.objectContent objContent) := by
  obtain ⟨outcome, r', message, hread, hdecode, -⟩ :=
    read_outcome registry true hstream (header_ne_nil hheader) hlen
  refine ⟨outcome, r', hread, ?_⟩
  obtain ⟨message', hrun⟩ : ∃ message', BufferedSource.onMessage p ⟨0 + header.length, payload⟩
      = resultOf (evalImmediate p payload) message' := InCode.run_evalRefused hp _
  unfold decode decodeContent at hdecode
  rw [bind_of_ok (onMessage_header hheader)] at hdecode
  simp only [if_true, hregistered] at hdecode
  cases heval : evalImmediate p payload with
  | error e =>
    rw [heval] at hrun
    rw [bind_of_error (bind_of_error hrun)] at hdecode
    cases outcome with
    | ok env => cases hdecode
    | error e' => rw [(EStateM.Result.error.inj hdecode).1]; rfl
  | ok objContent =>
    rw [heval] at hrun
    have hcontent : (BufferedSource.onMessage p >>= fun objContent =>
        pure (MessageContent.objectContent objContent)) ⟨0 + header.length, payload⟩
          = .ok (.objectContent objContent) message' := by
      rw [bind_of_ok hrun, pure_run]
    rw [bind_of_ok hcontent] at hdecode
    cases outcome with
    | error e' => cases hdecode
    | ok env =>
      have hcompact : decoded.setContent (.objectContent objContent) = env.compact :=
        (EStateM.Result.ok.inj hdecode).1
      have henv := Envelope.objectContent_of_compact (congrArg Envelope.mContent hcompact.symm)
      simp only [Except.map, henv]

/-- `read(false)` and `deserializeContent` with the class registered. -/
theorem readDeferred_registered :
    ∃ outcome r', readDeferred registry r = resultOf outcome r' ∧
      outcome.map (fun returned => (returned.1, returned.2.mContent))
        = (p.evalClipped payload).map
            fun objContent => (true, some (.objectContent objContent)) := by
  obtain ⟨env, r', c, hread, hcontent, hclassId, hversion, hdata⟩ :=
    read_opaque registry hheader hstream hlen
  have henvClass : registry env.classId env.classVersion = some p := by
    rw [Envelope.classId, Envelope.classVersion, hcontent]
    simp only [MessageContent.classId, MessageContent.classVersion, hclassId, hversion, hregistered]
  obtain ⟨buf', hrun⟩ := onBuffer_outcome hp (.filled c.mData.contents)
  rw [Buffer.contents_filled, hdata] at hrun
  unfold readDeferred
  rw [bind_of_ok hread]
  simp only [deserializeContent, hcontent, henvClass, hdata, hrun]
  cases p.evalClipped payload with
  | ok objContent => exact ⟨.ok (true, env.setContent (.objectContent objContent)), r', rfl, rfl⟩
  | error e => exact ⟨.error e, r', rfl, rfl⟩

/-! ## When they agree -/

/-- The two ways agree when the code ends alike over the source and the buffer. -/
theorem pathsAgree_iff_toOption_eq :
    PathsAgree registry r ↔
      (evalImmediate p payload).toOption = (p.evalClipped payload).toOption := by
  obtain ⟨immediate, r₁, hread, himmediate⟩ :=
    read_registered hheader hstream hlen hregistered hp
  obtain ⟨deferred, r₂, hreadDeferred, hdeferred⟩ :=
    readDeferred_registered hheader hstream hlen hregistered hp
  have hcontent : ∀ c, (∃ env r', read registry true r = .ok env r' ∧ env.mContent = some c) ↔
      ∃ objContent, evalImmediate p payload = .ok objContent ∧
        some (.objectContent objContent) = some c := by
    intro c
    rw [hread]
    exact returns_iff_of_map_eq himmediate (some c)
  have hcontent' : ∀ c, (∃ env r', readDeferred registry r = .ok (true, env) r' ∧
      env.mContent = some c) ↔
        ∃ objContent, p.evalClipped payload = .ok objContent ∧
          (true, some (MessageContent.objectContent objContent)) = (true, some c) := by
    intro c
    rw [hreadDeferred, ← returns_iff_of_map_eq hdeferred (true, some c)]
    constructor
    · rintro ⟨env, r', hreturns, hc⟩
      exact ⟨(true, env), r', hreturns, by rw [hc]⟩
    · rintro ⟨⟨deserialized, env⟩, r', hreturns, hc⟩
      obtain ⟨rfl, hc⟩ := Prod.mk.inj hc
      exact ⟨env, r', hreturns, hc⟩
  have hthrows := throws_iff_of_map_eq (s := r₁) himmediate
  have hthrows' := throws_iff_of_map_eq (s := r₂) hdeferred
  rw [← hread] at hthrows
  rw [← hreadDeferred] at hthrows'
  constructor
  · intro hagree
    cases himm : evalImmediate p payload with
    | ok objContent =>
      -- the deferred path has content too, and it is the same
      obtain ⟨objContent', hclipped, hsame⟩ := (hcontent' _).mp
        ((hagree.content _).mp ((hcontent (.objectContent objContent)).mpr ⟨objContent, himm, rfl⟩))
      have hobj : objContent' = objContent :=
        MessageContent.objectContent.inj (Option.some.inj (Prod.mk.inj hsame).2)
      rw [hclipped, hobj]
    | error e =>
      obtain ⟨e', hclipped⟩ := hthrows'.mp (hagree.throws.mp (hthrows.mpr ⟨e, himm⟩))
      rw [hclipped]
      rfl
  · intro hsame
    have hok : ∀ objContent, evalImmediate p payload = .ok objContent ↔
        p.evalClipped payload = .ok objContent := by
      intro objContent
      generalize evalImmediate p payload = x, p.evalClipped payload = y at hsame
      cases x <;> cases y <;> simp_all [Except.toOption]
    have herror : (∃ e, evalImmediate p payload = .error e) ↔
        ∃ e, p.evalClipped payload = .error e := by
      generalize evalImmediate p payload = x, p.evalClipped payload = y at hsame
      cases x <;> cases y <;> simp_all [Except.toOption]
    refine ⟨fun c => ?_, hthrows.trans (herror.trans hthrows'.symm)⟩
    rw [hcontent, hcontent']
    constructor
    · rintro ⟨objContent, himm, hc⟩
      exact ⟨objContent, (hok objContent).mp himm, by rw [hc]⟩
    · rintro ⟨objContent, hclipped, hc⟩
      exact ⟨objContent, (hok objContent).mpr hclipped, (Prod.mk.inj hc).2⟩

end Frame

/-- Deferred and immediate deserialisation agree, for a frame with a well-formed
    envelope, a registered class and any payload, if and only if the code of the
    class comes to the same end on a source that refuses to be asked for more
    than there is and on one that does not. -/
theorem pathsAgree_iff (registry : ContentFactories) (r : MessageReader)
    (header payload rest : Bytes) (decoded : Envelope) (classId : ClassID) (version : UInt32)
    (p : InCode Exception ObjectContent)
    (hheader : Envelope.new.deserialize.Ends 0 header (.ok (decoded, classId, version)))
    (hstream : r.stream = frame (header ++ payload) ++ rest)
    (hlen : (header ++ payload).length ≤ maxFrameLength)
    (hregistered : registry classId version = some p) (hp : p.ReadsAndSkips) :
    PathsAgree registry r ↔
      p.Indifferent BufferedSource.readBeyond BufferedSource.skipBeyond payload := by
  rw [InCode.indifferent_iff]
  exact pathsAgree_iff_toOption_eq hheader hstream hlen hregistered hp

/-- For code that catches nothing: either it asks for no more than the payload
    has, or it throws of its own accord when that is all it gets. -/
theorem pathsAgree_toCode_iff (registry : ContentFactories) (r : MessageReader)
    (header payload rest : Bytes) (decoded : Envelope) (classId : ClassID) (version : UInt32)
    (p : InProgram Exception ObjectContent)
    (hheader : Envelope.new.deserialize.Ends 0 header (.ok (decoded, classId, version)))
    (hstream : r.stream = frame (header ++ payload) ++ rest)
    (hlen : (header ++ payload).length ≤ maxFrameLength)
    (hregistered : registry classId version = some p.toCode) (hp : p.toCode.ReadsAndSkips) :
    PathsAgree registry r ↔
      (p.AsksBeyond payload → ∃ e, p.toCode.evalClipped payload = .error e) := by
  rw [← InProgram.indifferent_toCode_iff BufferedSource.readBeyond BufferedSource.skipBeyond,
    InCode.indifferent_iff]
  exact pathsAgree_iff_toOption_eq hheader hstream hlen hregistered hp

/-! ## A payload of one byte -/

/-- Code that reads a block of bytes and makes it the content. -/
def deserializeBlock (length : Nat) : InProgram Exception ObjectContent :=
  .read length fun data =>
    .ret { classId := .null, classVersion := 1, serialize := .write data (.ret ()) }

def blockFactories (length : Nat) : ContentFactories :=
  fun _ _ => some (deserializeBlock length).toCode

theorem readsAndSkips_deserializeBlock (length : Nat) :
    (deserializeBlock length).toCode.ReadsAndSkips := by
  unfold deserializeBlock InProgram.toCode InCode.ReadsAndSkips
  intro r
  cases r with
  | ok data => trivial
  | error e => trivial

/-- A message with the payload 7. -/
def oneByte : Envelope where
  mContent := some (.opaqueContent ⟨.null, 1, .filled [7]⟩)
  mMetadata := some ⟨.null, .null, {}, [65], false⟩

theorem ends_oneByte : Envelope.new.deserialize.Ends 0 oneByte.header
    (.ok ({ mContent := none, mMetadata := oneByte.mMetadata }, .null, 1)) := by
  have hname : 1 ≤ [(65 : UInt8)].length ∧ [(65 : UInt8)].length ≤ 65535 := by decide
  have hmetadata : oneByte.mMetadata = some _ := rfl
  rw [← Envelope.extend_nil_header hmetadata hname.1 hname.2 (by decide)]
  exact Envelope.ends_deserialize .new hmetadata rfl hname.1 hname.2
    (by decide) [] (by decide) 0

theorem oneByte_length : (oneByte.header ++ [7]).length ≤ maxFrameLength := by
  have hbytes : oneByte.header ++ [7] = oneByte.bytes := rfl
  rw [hbytes]
  decide

/-- The reader with the message on its transport. -/
def oneByteReader : MessageReader where
  mSource := .new (.new (frame (oneByte.header ++ [7]) ++ []))

/-- Content of one byte is read alike. -/
theorem pathsAgree_iff_oneByte : PathsAgree (blockFactories 1) oneByteReader :=
  (pathsAgree_iff (blockFactories 1) oneByteReader oneByte.header [7] [] _ _ _ _ ends_oneByte rfl
    oneByte_length rfl (readsAndSkips_deserializeBlock 1)).mpr
    (by simp [deserializeBlock, InProgram.toCode, InCode.Indifferent])

/-- Content of three bytes is refused at once; later, it is made of the one byte
    there is. -/
theorem not_forall_pathsAgree :
    ¬ ∀ (registry : ContentFactories) (r : MessageReader) (header payload rest : Bytes)
      (decoded : Envelope) (classId : ClassID) (version : UInt32)
      (p : InCode Exception ObjectContent),
      Envelope.new.deserialize.Ends 0 header (.ok (decoded, classId, version)) →
      r.stream = frame (header ++ payload) ++ rest →
      (header ++ payload).length ≤ maxFrameLength →
      registry classId version = some p → p.ReadsAndSkips → PathsAgree registry r := by
  intro h
  have hagree := h (blockFactories 3) oneByteReader oneByte.header [7] [] _ _ _ _ ends_oneByte rfl
    oneByte_length rfl (readsAndSkips_deserializeBlock 3)
  have hsame := (pathsAgree_iff_toOption_eq ends_oneByte rfl oneByte_length rfl
    (readsAndSkips_deserializeBlock 3)).mp hagree
  have hrefused : evalImmediate (deserializeBlock 3).toCode [7]
      = .error BufferedSource.readBeyond := by
    simp [evalImmediate, deserializeBlock, InProgram.toCode, InCode.evalRefused]
  obtain ⟨objContent, hclipped⟩ : ∃ objContent,
      (deserializeBlock 3).toCode.evalClipped [7] = .ok objContent := by
    simp [deserializeBlock, InProgram.toCode, InCode.evalClipped]
  rw [hrefused, hclipped] at hsame
  cases hsame

end MessageReader

end Arras4Core.Message
