/-
  Arras4Core.Message.EnvelopeCodec

  The header of a message is read back as it was written, also by a reader that
  does not know the newest fields: whatever stands between the routing name and
  the address count is skipped, by the length the header itself gives.
-/

import Arras4Core.Message.MessageReader
import Arras4Core.Message.MessageWriter

namespace Arras4Core.Message

open Arras4Core.Lib
open Arras4Core.Api
open Arras4Core.Network (Bytes Buffer BufferedSource)

namespace MetadataImpl

/-! ## The parts of the header -/

theorem ends_checkVersion {protocolVer : Nat} (h : protocolVer / 2 ^ 8 = versionMajor) (n : Nat) :
    (checkVersion protocolVer).Ends n [] (.ok ()) := by
  unfold checkVersion
  rw [if_neg (not_not_intro h)]
  exact InProgram.ends_pure () n

theorem ends_checkVersion_error {protocolVer : Nat} (h : protocolVer / 2 ^ 8 ≠ versionMajor)
    (n : Nat) :
    ∃ what, (checkVersion protocolVer).Ends n [] (.error (.messageFormatError what)) := by
  unfold checkVersion
  rw [if_pos h]
  exact ⟨_, InProgram.ends_throw _ n⟩

theorem ends_readRoutingName (name : Bytes) (n : Nat) :
    (readRoutingName name.length).Ends n name (.ok name) := by
  unfold readRoutingName
  split
  · exact InProgram.ends_readBlock rfl n
  · have hnil : name = [] := List.eq_nil_of_length_eq_zero (by omega)
    subst hnil
    exact InProgram.ends_pure [] n

/-- Everything up to the offset the header gives is skipped. -/
theorem ends_skipExtension {initBytes addrOffset n : Nat} {extension : Bytes}
    (h : addrOffset = n - initBytes + extension.length) :
    (skipExtension initBytes addrOffset).Ends n extension (.ok ()) := by
  simp only [skipExtension, InProgram.Ends]
  rw [if_neg (by omega)]
  split
  · exact InProgram.ends_skip (by omega) n
  · have hnil : extension = [] := List.eq_nil_of_length_eq_zero (by omega)
    subst hnil
    exact InProgram.ends_pure () n

theorem ends_skipExtension_error {initBytes addrOffset n : Nat} (h : addrOffset < n - initBytes) :
    (skipExtension initBytes addrOffset).Ends n []
      (.error (.messageFormatError "Header length is too short")) := by
  simp only [skipExtension, InProgram.Ends]
  rw [if_pos h]
  exact InProgram.ends_throw _ n

theorem ends_readDestinations (addrs destinations : AddressList) (n : Nat) :
    (readDestinations addrs.length destinations).Ends n (addrs.flatMap addressBytes)
      (.ok (destinations ++ addrs)) := by
  induction addrs generalizing destinations n with
  | nil =>
    rw [List.append_nil]
    exact InProgram.ends_pure destinations n
  | cons addr addrs ih =>
    rw [List.flatMap_cons, List.append_cons destinations addr addrs]
    exact (ends_readAddress addr n).bind (ih (destinations ++ [addr]) _)

theorem ends_deserializeAddresses (sender : Address) (addrs destinations : AddressList)
    (h : addrs.length + 1 < 2 ^ 32) (n : Nat) :
    (deserializeAddresses destinations).Ends n
      (leBytes 4 (addrs.length + 1) ++ (addressBytes sender ++ addrs.flatMap addressBytes))
      (.ok (sender, destinations ++ addrs)) := by
  have hcount : (checkAddressCount (addrs.length + 1)).Ends
      (n + (leBytes 4 (addrs.length + 1)).length) [] (.ok ()) := by
    unfold checkAddressCount
    rw [if_neg (Nat.succ_ne_zero _)]
    exact InProgram.ends_pure () _
  unfold deserializeAddresses
  refine (ends_readNat h n).bind (hcount.bind_nil ((ends_readAddress sender _).bind ?_))
  rw [Nat.add_sub_cancel, ← List.append_nil (addrs.flatMap addressBytes)]
  exact (ends_readDestinations addrs destinations _).bind (InProgram.ends_pure _ _)

/-! ## The whole header -/

/-- The bytes of the header up to the end of the routing name. -/
def leading (addrOffset protocolVer flags : Nat) (instanceId sourceId : UUID) (name : Bytes) :
    Bytes :=
  leBytes 4 addrOffset ++ (leBytes 2 protocolVer ++ (leBytes 2 flags ++ (uuidBytes instanceId ++
    (uuidBytes sourceId ++ (leBytes 2 name.length ++ name)))))

theorem length_leading (addrOffset protocolVer flags : Nat) (instanceId sourceId : UUID)
    (name : Bytes) : (leading addrOffset protocolVer flags instanceId sourceId name).length
      = 42 + name.length := by
  simp only [leading, List.length_append, leBytes_length, uuidBytes_length]
  omega

/-- What `deserialize` knows when it comes to the extension section. -/
structure Leading where
  initBytes : Nat
  addrOffset : Nat
  flags : Nat
  instanceId : UUID
  sourceId : UUID
  routingName : Bytes

/-- `deserialize`, up to the extension section. -/
def deserializeLeading : DataInStream Leading := do
  let initBytes ← .bytesRead .ret
  let addrOffset ← readNat 4
  let protocolVer ← readNat 2
  let flags ← readNat 2
  checkVersion protocolVer
  let instanceId ← readUUID
  let sourceId ← readUUID
  let nameLen ← readNat 2
  let routingName ← readRoutingName nameLen
  return ⟨initBytes, addrOffset, flags, instanceId, sourceId, routingName⟩

theorem deserialize_eq (m : MetadataImpl) (destinations : AddressList) :
    m.deserialize destinations = deserializeLeading >>= fun fields => do
      skipExtension fields.initBytes fields.addrOffset
      let addresses ← deserializeAddresses destinations
      return ({ m with
        mTrace := fields.flags &&& flagsMaskTrace ≠ 0
        mInstanceId := fields.instanceId
        mSourceId := fields.sourceId
        mRoutingName := fields.routingName
        mFrom := addresses.1 }, addresses.2) := by
  unfold deserialize deserializeLeading
  simp only [InProgram.bind_assoc]
  rfl

section Leading

variable {addrOffset protocolVer flags : Nat} {instanceId sourceId : UUID} {name : Bytes}
  {m : MetadataImpl} {destinations : AddressList} {n : Nat}

/-- The leading fields are read. -/
theorem ends_deserializeLeading (haddrOffset : addrOffset < 2 ^ 32)
    (hversion : protocolVer / 2 ^ 8 = versionMajor) (hflags : flags < 2 ^ 16)
    (hname : name.length < 2 ^ 16) :
    deserializeLeading.Ends n (leading addrOffset protocolVer flags instanceId sourceId name)
      (.ok ⟨n, addrOffset, flags, instanceId, sourceId, name⟩) := by
  have hprotocol : protocolVer < 256 ^ 2 := by
    simp only [versionMajor] at hversion
    omega
  unfold deserializeLeading
  rw [← List.append_nil (leading _ _ _ _ _ _)]
  unfold leading
  simp only [List.append_assoc]
  -- one line for each field, in the order they stand in the header
  refine (InProgram.ends_bytesRead n).bind_nil ?_
  refine (ends_readNat haddrOffset _).bind ?_
  refine (ends_readNat hprotocol _).bind ?_
  refine (ends_readNat hflags _).bind ?_
  refine (ends_checkVersion hversion _).bind_nil ?_
  refine (ends_readUUID instanceId _).bind ?_
  refine (ends_readUUID sourceId _).bind ?_
  refine (ends_readNat hname _).bind ?_
  exact (ends_readRoutingName name _).bind (InProgram.ends_pure _ _)

/-- How the reading goes on is decided by the offset and what follows. -/
theorem ends_deserialize_leading (haddrOffset : addrOffset < 2 ^ 32)
    (hversion : protocolVer / 2 ^ 8 = versionMajor) (hflags : flags < 2 ^ 16)
    (hname : name.length < 2 ^ 16) {tail : Bytes}
    {r : Except Exception (MetadataImpl × AddressList)}
    (h : InProgram.Ends (do
        skipExtension n addrOffset
        let addresses ← deserializeAddresses destinations
        return ({ m with
          mTrace := flags &&& flagsMaskTrace ≠ 0
          mInstanceId := instanceId
          mSourceId := sourceId
          mRoutingName := name
          mFrom := addresses.1 }, addresses.2)) (n + 42 + name.length) tail r) :
    (m.deserialize destinations).Ends n
      (leading addrOffset protocolVer flags instanceId sourceId name ++ tail) r := by
  rw [deserialize_eq]
  refine (ends_deserializeLeading haddrOffset hversion hflags hname).bind ?_
  rw [length_leading, ← Nat.add_assoc]
  exact h

/-- An offset that points back into the leading fields is refused, as is another
    major version of the protocol. -/
theorem ends_deserialize_tooShort (instanceId sourceId : UUID) (m : MetadataImpl)
    (destinations : AddressList) (n : Nat) (h : addrOffset < 42 + name.length)
    (hprotocol : protocolVer < 2 ^ 16) (hflags : flags < 2 ^ 16) (hname : name.length < 2 ^ 16) :
    ∃ what data more, leading addrOffset protocolVer flags instanceId sourceId name = data ++ more ∧
      (m.deserialize destinations).Ends n data (.error (.messageFormatError what)) ∧
      (protocolVer / 2 ^ 8 = versionMajor → what = "Header length is too short") := by
  -- the version is checked first, right after the flags
  by_cases hversion : protocolVer / 2 ^ 8 = versionMajor
  · refine ⟨"Header length is too short", _, [], (List.append_nil _).symm, ?_, fun _ => rfl⟩
    rw [← List.append_nil (leading _ _ _ _ _ _)]
    exact ends_deserialize_leading (by omega) hversion hflags hname
      (ends_skipExtension_error (by omega)).bind_error
  · obtain ⟨what, hcheck⟩ := ends_checkVersion_error hversion (n + 4 + 2 + 2)
    refine ⟨what, leBytes 4 addrOffset ++ (leBytes 2 protocolVer ++ (leBytes 2 flags ++ [])),
      uuidBytes instanceId ++ (uuidBytes sourceId ++ (leBytes 2 name.length ++ name)),
      by simp only [leading, List.append_assoc, List.nil_append], ?_, fun h => absurd h hversion⟩
    unfold deserialize
    refine (InProgram.ends_bytesRead n).bind_nil ?_
    refine (ends_readNat (by omega) _).bind ?_
    refine (ends_readNat hprotocol _).bind ?_
    refine (ends_readNat hflags _).bind ?_
    simp only [leBytes_length]
    exact hcheck.bind_error

end Leading

/-- The trace flag is what the flags say. -/
theorem trace_flags (trace : Bool) :
    decide ((if trace then flagsMaskTrace else 0) &&& flagsMaskTrace ≠ 0) = trace := by
  cases trace <;> simp [flagsMaskTrace]

/-- The two halves of what `serialize` writes. -/
theorem fields_flatten (m : MetadataImpl) (destinations : AddressList)
    (hname : m.mRoutingName.length < 2 ^ 16) (hcount : destinations.length + 1 < 2 ^ 32) :
    (m.fields destinations).flatten
      = leading (42 + m.mRoutingName.length) (versionMajor * 2 ^ 8 + versionMinor)
          (if m.mTrace then flagsMaskTrace else 0) m.mInstanceId m.mSourceId m.mRoutingName ++
        (leBytes 4 (destinations.length + 1) ++
          (addressBytes m.mFrom ++ destinations.flatMap addressBytes)) := by
  have hnameLen : m.nameLen = m.mRoutingName.length := Nat.mod_eq_of_lt hname
  simp only [fields, hnameLen, List.take_length, Nat.mod_eq_of_lt hcount, leading, List.flatMap,
    List.cons_append, List.nil_append, List.flatten_cons, List.append_assoc]

/-- A header with `extension` after the routing name, and its length adjusted. -/
def extend (extension : Bytes) (nameLen : Nat) (header : Bytes) : Bytes :=
  leBytes 4 (leNat (header.take 4) + extension.length) ++
    ((header.drop 4).take (38 + nameLen) ++ (extension ++ header.drop (42 + nameLen)))

theorem extend_leading {addrOffset protocolVer flags : Nat} (haddrOffset : addrOffset < 2 ^ 32)
    (instanceId sourceId : UUID) (name extension tail : Bytes) :
    extend extension name.length
        (leading addrOffset protocolVer flags instanceId sourceId name ++ tail)
      = leading (addrOffset + extension.length) protocolVer flags instanceId sourceId name ++
        (extension ++ tail) := by
  have hmiddle : (leBytes 2 protocolVer ++ (leBytes 2 flags ++ (uuidBytes instanceId ++
      (uuidBytes sourceId ++ (leBytes 2 name.length ++ name))))).length = 38 + name.length := by
    simp only [List.length_append, leBytes_length, uuidBytes_length]
    omega
  generalize hfields : leBytes 2 protocolVer ++ (leBytes 2 flags ++ (uuidBytes instanceId ++
    (uuidBytes sourceId ++ (leBytes 2 name.length ++ name)))) = fields at hmiddle
  -- `extend` cuts the header after the offset and after the routing name
  have hdrop : (leBytes 4 addrOffset ++ (fields ++ tail)).drop 4 = fields ++ tail :=
    List.drop_left' (leBytes_length 4 _)
  have hdrop' : (leBytes 4 addrOffset ++ (fields ++ tail)).drop (42 + name.length) = tail := by
    rw [show 42 + name.length = 4 + (38 + name.length) by omega, ← List.drop_drop, hdrop]
    exact List.drop_left' hmiddle
  have hback : leNat (leBytes 4 addrOffset) = addrOffset := leNat_leBytes_of_lt haddrOffset
  simp only [extend, leading, hfields, List.append_assoc, hdrop, hdrop', List.take_left' hmiddle,
    List.take_left' (leBytes_length 4 addrOffset), hback]

/-- The header is read back, whatever extension stands after the routing name. -/
theorem ends_deserialize (m received : MetadataImpl) (addrs destinations : AddressList)
    (extension : Bytes) (hname : m.mRoutingName.length < 2 ^ 16)
    (hextension : 42 + m.mRoutingName.length + extension.length < 2 ^ 32)
    (hcount : addrs.length + 1 < 2 ^ 32) (n : Nat) :
    (received.deserialize destinations).Ends n
      (extend extension m.mRoutingName.length (m.fields addrs).flatten)
      (.ok (m, destinations ++ addrs)) := by
  rw [fields_flatten m addrs hname hcount, extend_leading (by omega)]
  refine ends_deserialize_leading hextension (by decide) (by split <;> decide) hname ?_
  refine (ends_skipExtension (by omega)).bind ?_
  rw [← List.append_nil (leBytes 4 _ ++ _)]
  refine (ends_deserializeAddresses m.mFrom addrs destinations hcount _).bind ?_
  -- every field of the metadata has been replaced
  refine ⟨rfl, ?_⟩
  rw [trace_flags]

end MetadataImpl

namespace Envelope

/-- The header of a message, and the class of its content after it. -/
theorem header_eq {env : Envelope} {metadata : MetadataImpl}
    (hmetadata : env.mMetadata = some metadata) (hname : metadata.nameLen ≠ 0) :
    env.header = (metadata.fields env.mTo).flatten ++
      (uuidBytes env.classId ++ leBytes 4 env.classVersion.toNat) := by
  have heval : (metadata.serialize env.mTo).eval 0
      = ((metadata.fields env.mTo).flatten, .ok ()) := by
    rw [metadata.serialize_eval, if_neg hname]
  unfold header serialize
  simp only [hmetadata]
  rw [OutProgram.eval_bind heval, OutProgram.eval_writeAll]
  simp only [List.flatten_cons, List.flatten_nil, List.append_nil]

/-- No extension leaves the header as it is. -/
theorem extend_nil_header {env : Envelope} {metadata : MetadataImpl}
    (hmetadata : env.mMetadata = some metadata) (hpos : 1 ≤ metadata.mRoutingName.length)
    (hname : metadata.mRoutingName.length ≤ 65535) (hto : env.mTo.length < 2 ^ 32 - 1) :
    MetadataImpl.extend [] metadata.mRoutingName.length env.header = env.header := by
  have hnameLen : metadata.nameLen ≠ 0 := by
    simp only [MetadataImpl.nameLen]
    omega
  rw [header_eq hmetadata hnameLen, MetadataImpl.fields_flatten metadata env.mTo (by omega)
    (by omega), List.append_assoc, MetadataImpl.extend_leading (by omega)]
  rfl

/-- The header with its extension is read back into any envelope that has
    metadata to fill in: everything in the metadata is replaced and the
    destinations are added to the list. -/
theorem ends_deserialize {env : Envelope} (receiver : Envelope) {metadata received : MetadataImpl}
    (hmetadata : env.mMetadata = some metadata) (hreceiver : receiver.mMetadata = some received)
    (hpos : 1 ≤ metadata.mRoutingName.length) (hname : metadata.mRoutingName.length ≤ 65535)
    (hto : env.mTo.length < 2 ^ 32 - 1) (extension : Bytes)
    (hextension : 42 + metadata.mRoutingName.length + extension.length < 2 ^ 32) (n : Nat) :
    receiver.deserialize.Ends n
      (MetadataImpl.extend extension metadata.mRoutingName.length env.header)
      (.ok ({ receiver with mMetadata := some metadata, mTo := receiver.mTo ++ env.mTo },
        env.classId, env.classVersion)) := by
  have hlt : metadata.mRoutingName.length < 2 ^ 16 := by omega
  have hcount : env.mTo.length + 1 < 2 ^ 32 := by omega
  have hnameLen : metadata.nameLen ≠ 0 := by
    simp only [MetadataImpl.nameLen]
    omega
  have hheader : MetadataImpl.extend extension metadata.mRoutingName.length env.header
      = MetadataImpl.extend extension metadata.mRoutingName.length (metadata.fields env.mTo).flatten
        ++ (uuidBytes env.classId ++ leBytes 4 env.classVersion.toNat) := by
    rw [header_eq hmetadata hnameLen, MetadataImpl.fields_flatten metadata env.mTo hlt hcount,
      List.append_assoc, MetadataImpl.extend_leading (by omega),
      MetadataImpl.extend_leading (by omega)]
    simp only [List.append_assoc]
  have hread : receiver.deserializeMetadata.Ends n
      (MetadataImpl.extend extension metadata.mRoutingName.length (metadata.fields env.mTo).flatten)
      (.ok { receiver with mMetadata := some metadata, mTo := receiver.mTo ++ env.mTo }) := by
    unfold deserializeMetadata
    simp only [hreceiver]
    rw [← List.append_nil (MetadataImpl.extend _ _ _)]
    exact (metadata.ends_deserialize received env.mTo receiver.mTo extension hlt hextension hcount
      n).bind (InProgram.ends_pure _ _)
  rw [hheader]
  unfold deserialize
  refine hread.bind ((ends_readUUID env.classId _).bind ?_)
  rw [← List.append_nil (leBytes 4 env.classVersion.toNat)]
  refine (ends_readNat env.classVersion.toNat_lt _).bind ⟨rfl, ?_⟩
  rw [UInt32.ofNat_toNat]

/-- Code that is refused in the header is refused in the whole. -/
theorem ends_deserialize_error {receiver : Envelope} {received : MetadataImpl}
    (hreceiver : receiver.mMetadata = some received) {n : Nat} {data : Bytes} {e : Exception}
    (h : (received.deserialize receiver.mTo).Ends n data (.error e)) :
    receiver.deserialize.Ends n data (.error e) := by
  unfold deserialize deserializeMetadata
  simp only [hreceiver]
  exact h.bind_error.bind_error

/-- The envelope codec.  From a buffer that holds a header with any extension
    after the routing name, `deserialize` recovers the metadata, the class and
    the destinations and leaves the source at the first byte of the payload; a
    header whose length is smaller than its leading fields is refused. -/
theorem deserialize_extended (receiver : Envelope) (received : MetadataImpl)
    (hreceiver : receiver.mMetadata = some received) (s : BufferedSource) (buf : Buffer)
    (hbuf : s.mBuffer = some buf) :
    (∀ (env : Envelope) (metadata : MetadataImpl) (extension payload : Bytes),
      env.mMetadata = some metadata →
      1 ≤ metadata.mRoutingName.length → metadata.mRoutingName.length ≤ 65535 →
      env.mTo.length < 2 ^ 32 - 1 →
      42 + metadata.mRoutingName.length + extension.length < 2 ^ 32 →
      buf.contents
        = MetadataImpl.extend extension metadata.mRoutingName.length env.header ++ payload →
      ∃ s' buf', receiver.deserialize.toCode.run BufferedSource.read BufferedSource.skip
          BufferedSource.bytesRead s
            = .ok ({ receiver with mMetadata := some metadata, mTo := receiver.mTo ++ env.mTo },
                env.classId, env.classVersion) s' ∧
        s'.stream = s.stream ∧ s'.mBuffer = some buf' ∧ buf'.contents = payload) ∧
    (∀ (addrOffset protocolVer flags : Nat) (instanceId sourceId : UUID) (name rest : Bytes),
      addrOffset < 42 + name.length → protocolVer < 2 ^ 16 → flags < 2 ^ 16 →
      name.length < 2 ^ 16 →
      buf.contents
        = MetadataImpl.leading addrOffset protocolVer flags instanceId sourceId name ++ rest →
      ∃ what s', receiver.deserialize.toCode.run BufferedSource.read BufferedSource.skip
          BufferedSource.bytesRead s = .error (.messageFormatError what) s' ∧
        (protocolVer / 2 ^ 8 = versionMajor → what = "Header length is too short")) := by
  constructor
  · intro env metadata extension payload hmetadata hpos hname hto hextension hcontents
    exact BufferedSource.run_of_ends hbuf hcontents
      (ends_deserialize receiver hmetadata hreceiver hpos hname hto extension hextension
        buf.consumed)
  · intro addrOffset protocolVer flags instanceId sourceId name rest h hprotocol hflags hname
      hcontents
    obtain ⟨what, data, more, hdata, hends, hwhat⟩ :=
      received.ends_deserialize_tooShort instanceId sourceId receiver.mTo buf.consumed h hprotocol
        hflags hname
    rw [hdata, List.append_assoc] at hcontents
    obtain ⟨s', -, hrun, -⟩ :=
      BufferedSource.run_of_ends hbuf hcontents (ends_deserialize_error hreceiver hends)
    exact ⟨what, s', hrun, hwhat⟩

/-- A traced message to one destination with a two-byte extension, and a header
    that claims to end before its name. -/
theorem deserialize_extended_traced :
    let metadata : MetadataImpl := ⟨.null, .null, {}, [65], true⟩
    let env : Envelope :=
      { mContent := some (.other .null 3), mMetadata := some metadata, mTo := [{}] }
    let source (bytes : Bytes) : BufferedSource :=
      { mInputSource := .new [], mBuffer := some (.filled bytes) }
    (∃ s' buf', Envelope.new.deserialize.toCode.run BufferedSource.read BufferedSource.skip
        BufferedSource.bytesRead (source (MetadataImpl.extend [8, 9] 1 env.header ++ [1, 2, 3]))
          = .ok ({ mContent := none, mMetadata := some metadata, mTo := [{}] }, .null, 3) s' ∧
      s'.stream = [] ∧ s'.mBuffer = some buf' ∧ buf'.contents = [1, 2, 3]) ∧
    ∃ what s', Envelope.new.deserialize.toCode.run BufferedSource.read BufferedSource.skip
        BufferedSource.bytesRead (source (MetadataImpl.leading 42 1024 0 .null .null [65] ++ []))
          = .error (.messageFormatError what) s' ∧
      (1024 / 2 ^ 8 = versionMajor → what = "Header length is too short") := by
  intro metadata env source
  constructor
  · exact (deserialize_extended .new .new rfl (source _) _ rfl).1 env metadata [8, 9] [1, 2, 3] rfl
      (by decide) (by decide) (by decide) (by decide) (Buffer.contents_filled _)
  · exact (deserialize_extended .new .new rfl (source _) _ rfl).2 42 1024 0 .null .null [65] []
      (by decide) (by decide) (by decide) (by decide) (Buffer.contents_filled _)

end Envelope

end Arras4Core.Message
