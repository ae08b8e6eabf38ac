/-
  Arras4Core.Chunking.RoundTrip

  Chunked messages arrive whole, in whatever order their chunks come and
  whatever comes in between.

  The invariant (`Collected`) says what the map holds in terms of the chunks
  that are still to come: a message some but not all of whose chunks are
  missing has an unchunker that holds exactly the others.  One arrival
  (`Collected.receive_chunk`) takes its index off the missing ones; when none
  are left the message is returned and its entry removed.

  Main result: `getEnvelopes_chunks`.
-/

import Arras4Core.Chunking.ChunkableMessage
import Mathlib.Data.List.Perm.Subperm
import Mathlib.Data.List.Nodup

namespace Arras4Core.Chunking

open Arras4Core.Lib
open Arras4Core.Api (Exception UUID ClassID DataInStream AddressList)
open Arras4Core.Message (Envelope ObjectContent MessageContent MetadataImpl)
open Arras4Core.Network

variable {config : ChunkingConfig} {registry : ContentRegistry}

/-! ## One message's unchunker -/

namespace MessageUnchunker

/-- The unchunker of a message whose chunks with the given indices are missing. -/
def collecting (m : ChunkableMessage config registry) (missing : List Nat) : MessageUnchunker where
  mNumChunks := m.numChunks
  mInstanceId := m.instanceId
  mCount := m.numChunks - missing.length
  mChunks := (List.range m.numChunks).map fun i => if i ∈ missing then none else m.chunks[i]?
  size_eq := by rw [List.length_map, List.length_range]

theorem collecting_getElem? (m : ChunkableMessage config registry) (missing : List Nat) {j : Nat}
    (hj : j < m.numChunks) :
    (collecting m missing).mChunks[j]? = some (if j ∈ missing then none else m.chunks[j]?) := by
  simp only [collecting, List.getElem?_map, List.getElem?_range hj, Option.map_some]

theorem collecting_length (m : ChunkableMessage config registry) (missing : List Nat) :
    (collecting m missing).mChunks.length = m.numChunks := (collecting m missing).size_eq

/-- A missing chunk is put in its place. -/
theorem addChunk_collecting (m : ChunkableMessage config registry) {i : Nat} {missing : List Nat}
    {chunk : MessageChunk} (hchunk : m.chunks[i]? = some chunk) (hi : i ∉ missing)
    (hlen : (i :: missing).length ≤ m.numChunks) :
    (collecting m (i :: missing)).addChunk chunk = .ok (collecting m missing) := by
  obtain ⟨hlt, hnum, hindex, hid, -⟩ := m.chunks_getElem hchunk
  subst hindex
  have hempty : (collecting m (chunk.mChunkIndex :: missing)).mChunks[chunk.mChunkIndex]?
      = some none := by
    rw [collecting_getElem? m _ hlt, if_pos List.mem_cons_self]
  have hset : (collecting m (chunk.mChunkIndex :: missing)).mChunks.set chunk.mChunkIndex
      (some chunk) = (collecting m missing).mChunks := by
    apply List.ext_getElem?
    intro j
    -- place `j` is the one that is filled, another one, or none at all
    rw [List.getElem?_set, collecting_length]
    by_cases hj : j < m.numChunks
    · by_cases hij : chunk.mChunkIndex = j
      · rw [if_pos hij, if_pos hlt, collecting_getElem? m _ hj, ← hij, if_neg hi, hchunk]
      · have hmem : j ∈ chunk.mChunkIndex :: missing ↔ j ∈ missing := by
          rw [List.mem_cons, or_iff_right fun h => hij h.symm]
        rw [if_neg hij, collecting_getElem? m _ hj, collecting_getElem? m _ hj]
        simp only [hmem]
    · have hij : chunk.mChunkIndex ≠ j := fun h => hj (h ▸ hlt)
      have hnone : ∀ missing, (collecting m missing).mChunks[j]? = none := fun missing =>
        List.getElem?_eq_none (by rw [collecting_length]; exact Nat.le_of_not_lt hj)
      rw [if_neg hij, hnone, hnone]
  have hcount : m.numChunks - (chunk.mChunkIndex :: missing).length + 1
      = m.numChunks - missing.length := by
    rw [List.length_cons] at hlen ⊢
    omega
  unfold addChunk
  rw [if_neg (by rw [hnum, hid]; simp [collecting]), hempty]
  simp only [hset, Except.ok.injEq]
  simp only [collecting, hcount]

/-- The first chunk starts from an unchunker that misses them all. -/
theorem new_collecting (m : ChunkableMessage config registry) {i : Nat} {missing : List Nat}
    {chunk : MessageChunk} (hchunk : m.chunks[i]? = some chunk) (hi : i ∉ missing)
    (hall : ∀ j < m.numChunks, j ∈ i :: missing) (hlen : (i :: missing).length = m.numChunks) :
    MessageUnchunker.new chunk = .ok (collecting m missing) := by
  obtain ⟨hlt, hnum, -, hid, -⟩ := m.chunks_getElem hchunk
  have hstart : (⟨m.numChunks, m.instanceId, 0, List.replicate m.numChunks none,
      List.length_replicate⟩ : MessageUnchunker) = collecting m (i :: missing) := by
    have hchunks : List.replicate m.numChunks none
        = (List.range m.numChunks).map fun j =>
            if j ∈ i :: missing then none else m.chunks[j]? := by
      apply List.ext_getElem
      · simp
      · intro j h₁ h₂
        rw [List.length_replicate] at h₁
        simp only [List.getElem_replicate, List.getElem_map, List.getElem_range]
        rw [if_pos (hall j h₁)]
    simp only [collecting, hlen, Nat.sub_self, hchunks]
  unfold MessageUnchunker.new
  rw [if_neg (by omega)]
  simp only [hnum, hid]
  rw [hstart]
  exact addChunk_collecting m hchunk hi (Nat.le_of_eq hlen)

theorem getUnchunked_missing (m : ChunkableMessage config registry) {missing : List Nat}
    (hne : missing ≠ []) (envOut : Envelope) :
    (collecting m missing).getUnchunked registry envOut = .ok none := by
  have hpos := List.length_pos_iff.mpr hne
  have hnum := m.numChunks_pos
  have hlt : (collecting m missing).mCount < (collecting m missing).mNumChunks := by
    simp only [collecting]
    omega
  rw [getUnchunked, if_pos hlt]

theorem sumLen_map_some (chunks : List MessageChunk) :
    sumLen (chunks.map some) = .ok (chunks.map MessageChunk.mPayloadLength).sum := by
  induction chunks with
  | nil => rfl
  | cons chunk chunks ih => rw [List.map_cons, sumLen, ih, List.map_cons, List.sum_cons]

/-- The deserializer gets the bytes that were serialized. -/
theorem deserialize_chunks (m : ChunkableMessage config registry) :
    deserialize m.program (m.chunks.map some) = .ok m.restored := by
  have hbufs : payloadBuffers (m.chunks.map some)
      = m.chunks.map fun chunk => Buffer.filled chunk.payload := by
    rw [payloadBuffers, List.filterMap_map]
    exact congrFun List.filterMap_eq_map m.chunks
  have hbytes : (payloadBuffers (m.chunks.map some)).flatMap Buffer.contents = m.data := by
    rw [hbufs, List.flatMap_map, ← m.payload_flatten, List.flatMap_def]
    simp only [Buffer.contents_filled]
  generalize hmb :
    (MultiBuffer.new INITIAL_BUFFER_SIZE LINEAR_BUFFER_SIZE initial_size_pos).ofBuffers
    (payloadBuffers (m.chunks.map some)) = mb
  obtain ⟨hcontents, hread, hcount⟩ := MultiBuffer.contents_ofBuffers
    (payloadBuffers (m.chunks.map some))
    (MultiBuffer.new INITIAL_BUFFER_SIZE LINEAR_BUFFER_SIZE initial_size_pos) rfl
  rw [hmb, MultiBuffer.contents_new, List.nil_append, hbytes] at hcontents
  rw [hmb] at hread hcount
  have hfront : mb.FrontConsumed := by
    intro buf hbuf
    rw [hread] at hbuf
    exact absurd hbuf (List.not_mem_nil)
  -- the sections behind one another hold the serialized bytes, and nothing is read yet
  have hreads : m.program.ReadsExactly mb.mBytesRead mb.contents m.restored := by
    rw [hcount, hcontents]
    exact m.reads
  obtain ⟨mb', hrun⟩ : ∃ mb', m.program.run MultiBuffer.read
      (fun length => discard (MultiBuffer.skip length)) MultiBuffer.mBytesRead mb
        = .ok m.restored mb' :=
    InProgram.run_of_readsExactly MultiBuffer.read_ok m.program hfront hreads
  simp only [deserialize, hmb, hrun]

/-- With the last chunk the whole message comes out. -/
theorem getUnchunked_complete (m : ChunkableMessage config registry) (chunk : MessageChunk) :
    (collecting m []).getUnchunked registry (chunkEnvelope m.envelope chunk)
      = .ok (some m.received) := by
  have hchunks : (collecting m []).mChunks = m.chunks.map some := by
    apply List.ext_getElem?
    intro i
    by_cases hlt : i < m.numChunks
    · have hlt' : i < m.chunks.length := by rw [m.chunks_length]; exact hlt
      rw [collecting_getElem? m _ hlt, if_neg List.not_mem_nil, List.getElem?_map,
        List.getElem?_eq_getElem hlt']
      rfl
    · have hge := Nat.le_of_not_lt hlt
      rw [List.getElem?_eq_none (by rw [collecting_length]; exact hge),
        List.getElem?_eq_none (by rw [List.length_map, m.chunks_length]; exact hge)]
  have hpos : 0 < m.chunks.length := by rw [m.chunks_length]; exact m.numChunks_pos
  obtain ⟨chunk0, hzero⟩ : ∃ chunk0, m.chunks[0]? = some chunk0 :=
    ⟨_, List.getElem?_eq_getElem hpos⟩
  obtain ⟨-, -, -, -, hsize, hclass, hversion⟩ := m.chunks_getElem hzero
  have hhead : (m.chunks.map some).head? = some (some chunk0) := by
    rw [List.head?_map, List.head?_eq_getElem?, hzero]
    rfl
  have hall : ¬ (collecting m []).mCount < (collecting m []).mNumChunks := by simp [collecting]
  rw [getUnchunked, if_neg hall, hchunks, hhead]
  simp only [sumLen_map_some, m.payloadLength_sum, hsize, hclass, hversion, m.registered,
    deserialize_chunks, bind, Except.bind, ne_eq, not_true_eq_false, if_false]
  rfl

end MessageUnchunker

/-! ## What arrives -/

/-- An envelope that arrives: chunk `i` of a message, or no chunk at all. -/
inductive Arrival (config : ChunkingConfig) (registry : ContentRegistry)
  | chunk (m : ChunkableMessage config registry) (i : Nat) (c : MessageChunk)
      (h : m.chunks[i]? = some c)
  | other (env : Envelope) (h : env.classId ≠ MessageChunk.ID)

namespace Arrival

def envelope : Arrival config registry → Envelope
  | chunk m _ c _ => chunkEnvelope m.envelope c
  | other env _ => env

end Arrival

/-- The indices of a message's chunks that are among some arrivals. -/
def missing (id : UUID) : List (Arrival config registry) → List Nat
  | [] => []
  | .chunk m i _ _ :: later => if m.instanceId = id then i :: missing id later else missing id later
  | .other _ _ :: later => missing id later

/-- What the map holds for a message with the given chunks still to come. -/
def entry (m : ChunkableMessage config registry) (indices : List Nat) : Option MessageUnchunker :=
  if indices = [] ∨ indices.length = m.numChunks then none
  else some (MessageUnchunker.collecting m indices)

/-- The map between two arrivals, in terms of what is still to arrive. -/
structure Collected (messages : List (ChunkableMessage config registry))
    (later : List (Arrival config registry)) (mUnchunkers : UnchunkerMap) : Prop where
  known : ∀ m i c h, Arrival.chunk m i c h ∈ later → m ∈ messages
  distinct : (messages.map ChunkableMessage.instanceId).Nodup
  nodup : ∀ id, (missing id later).Nodup
  entry_eq : ∀ m ∈ messages, mUnchunkers[m.instanceId]? = entry m (missing m.instanceId later)
  others_eq : ∀ id, (∀ m ∈ messages, m.instanceId ≠ id) → mUnchunkers[id]? = none

/-- When nothing is still to come the map is empty. -/
theorem Collected.isEmpty {messages : List (ChunkableMessage config registry)}
    {mUnchunkers : UnchunkerMap} (h : Collected messages [] mUnchunkers) :
    mUnchunkers.isEmpty = true := by
  rw [Std.TreeMap.isEmpty_iff_forall_not_mem]
  intro id hid
  rw [Std.TreeMap.mem_iff_isSome_getElem?] at hid
  by_cases hmem : ∃ m ∈ messages, m.instanceId = id
  · obtain ⟨m, hm, rfl⟩ := hmem
    have hnil : missing m.instanceId ([] : List (Arrival config registry)) = [] := rfl
    rw [h.entry_eq m hm, entry, if_pos (Or.inl hnil)] at hid
    cases hid
  · rw [h.others_eq id fun m hm heq => hmem ⟨m, hm, heq⟩] at hid
    cases hid

section Step

variable {messages : List (ChunkableMessage config registry)}
  {later : List (Arrival config registry)} {mUnchunkers : UnchunkerMap}

theorem Collected.eq_of_instanceId (h : Collected messages later mUnchunkers)
    {m m' : ChunkableMessage config registry} (hm : m ∈ messages) (hm' : m' ∈ messages)
    (hid : m.instanceId = m'.instanceId) : m = m' :=
  List.inj_on_of_nodup_map h.distinct hm hm' hid

/-- Missing indices are indices of the message's own chunks. -/
theorem Collected.missing_lt (h : Collected messages later mUnchunkers)
    {m : ChunkableMessage config registry} (hm : m ∈ messages) :
    ∀ i ∈ missing m.instanceId later, i < m.numChunks := by
  have hsub : ∀ l : List (Arrival config registry),
      (∀ m' i c hc, Arrival.chunk m' i c hc ∈ l → m' ∈ messages) →
      ∀ i ∈ missing m.instanceId l, i < m.numChunks := by
    intro l
    induction l with
    | nil => intro _ i hi; exact absurd hi List.not_mem_nil
    | cons a l ih =>
      intro hknown i hi
      have hrest := ih fun m' i c hc hmem => hknown m' i c hc (List.mem_cons_of_mem a hmem)
      cases a with
      | other env henv => exact hrest i hi
      | chunk m' j c hc =>
        rw [missing] at hi
        split at hi
        · next hid =>
          have hm' := hknown m' j c hc List.mem_cons_self
          have heq := h.eq_of_instanceId hm' hm hid
          rcases List.mem_cons.mp hi with rfl | hi
          · rw [← heq]
            exact (m'.chunks_getElem hc).1
          · exact hrest i hi
        · exact hrest i hi
  exact hsub later h.known

theorem Collected.missing_length_le (h : Collected messages later mUnchunkers)
    {m : ChunkableMessage config registry} (hm : m ∈ messages) :
    (missing m.instanceId later).length ≤ m.numChunks := by
  have hsub : missing m.instanceId later ⊆ List.range m.numChunks := fun i hi =>
    List.mem_range.mpr (h.missing_lt hm i hi)
  have hle := (List.Nodup.subperm (h.nodup m.instanceId) hsub).length_le
  rwa [List.length_range] at hle

/-- As many missing as there are chunks: all of them. -/
theorem Collected.mem_missing_of_length (h : Collected messages later mUnchunkers)
    {m : ChunkableMessage config registry} (hm : m ∈ messages)
    (hlen : (missing m.instanceId later).length = m.numChunks) :
    ∀ j < m.numChunks, j ∈ missing m.instanceId later := by
  have hsub : missing m.instanceId later ⊆ List.range m.numChunks := fun i hi =>
    List.mem_range.mpr (h.missing_lt hm i hi)
  have hperm := (List.Nodup.subperm (h.nodup m.instanceId) hsub).perm_of_length_le
    (by rw [List.length_range, hlen])
  intro j hj
  exact hperm.mem_iff.mpr (List.mem_range.mpr hj)

/-! ## One arrival -/

/-- An envelope that is no chunk is returned as it is. -/
theorem Collected.receive_other {env : Envelope} {henv : env.classId ≠ MessageChunk.ID}
    (h : Collected messages (.other env henv :: later) mUnchunkers) :
    receive registry env mUnchunkers = (.ok (some env), mUnchunkers) ∧
      Collected messages later mUnchunkers := by
  refine ⟨by rw [receive, if_pos henv], ?_⟩
  exact ⟨fun m i c hc hmem => h.known m i c hc (List.mem_cons_of_mem _ hmem), h.distinct, h.nodup,
    h.entry_eq, h.others_eq⟩

/-- The pass of the loop that receives a chunk, by what the unchunker says. -/
theorem receive_chunkEnvelope (env : Envelope) {c : MessageChunk} {u : MessageUnchunker}
    (hcollect : collect mUnchunkers c = .ok u) {r : Option Envelope}
    (hr : u.getUnchunked registry (chunkEnvelope env c) = .ok r) :
    receive registry (chunkEnvelope env c) mUnchunkers = (.ok r,
      if r.isSome then (mUnchunkers.insert c.internalInstanceId u).erase c.internalInstanceId
      else mUnchunkers.insert c.internalInstanceId u) := by
  have hclass : (chunkEnvelope env c).classId = MessageChunk.ID := rfl
  have hcast : asMessageChunk (chunkEnvelope env c) = some c := rfl
  rw [receive, if_neg (not_not_intro hclass), hcast]
  simp only [hcollect, hr]
  cases r with
  | none => rfl
  | some env => rfl

/-- The entry of one message changes with its chunk, and the others stay. -/
theorem Collected.of_entry {m : ChunkableMessage config registry} {i : Nat} {c : MessageChunk}
    {hc : m.chunks[i]? = some c} {mUnchunkers' : UnchunkerMap}
    (h : Collected messages (.chunk m i c hc :: later) mUnchunkers)
    (hentry : mUnchunkers'[m.instanceId]? = entry m (missing m.instanceId later))
    (hothers : ∀ id, m.instanceId ≠ id → mUnchunkers'[id]? = mUnchunkers[id]?) :
    Collected messages later mUnchunkers' where
  known m' i c h' hmem := h.known m' i c h' (List.mem_cons_of_mem _ hmem)
  distinct := h.distinct
  nodup id := by
    have hnodup := h.nodup id
    rw [missing] at hnodup
    split at hnodup
    · exact (List.nodup_cons.mp hnodup).2
    · exact hnodup
  entry_eq m' hm' := by
    have hm : m ∈ messages := h.known m i c hc List.mem_cons_self
    by_cases heq : m.instanceId = m'.instanceId
    · obtain rfl := h.eq_of_instanceId hm hm' heq
      exact hentry
    · rw [hothers _ heq, h.entry_eq m' hm', missing, if_neg heq]
  others_eq id hid := by
    rw [hothers id (hid m (h.known m i c hc List.mem_cons_self)), h.others_eq id hid]

/-- A chunk is collected; the message is returned when none of its chunks is
    still to come. -/
theorem Collected.receive_chunk {m : ChunkableMessage config registry} {i : Nat}
    {c : MessageChunk} {hc : m.chunks[i]? = some c}
    (h : Collected messages (.chunk m i c hc :: later) mUnchunkers) :
    ∃ mUnchunkers', Collected messages later mUnchunkers' ∧
      receive registry (chunkEnvelope m.envelope c) mUnchunkers
        = (.ok (if missing m.instanceId later = [] then some m.received else none),
            mUnchunkers') := by
  have hm : m ∈ messages := h.known m i c hc List.mem_cons_self
  have hid : c.internalInstanceId = m.instanceId := (m.chunks_getElem hc).2.2.2.1
  have hcons : missing m.instanceId (.chunk m i c hc :: later)
      = i :: missing m.instanceId later := by rw [missing, if_pos rfl]
  have hi : i ∉ missing m.instanceId later := by
    have := h.nodup m.instanceId
    rw [hcons] at this
    exact (List.nodup_cons.mp this).1
  have hlen := h.missing_length_le hm
  rw [hcons] at hlen
  -- what the map gives for the message, with the new chunk put in its place
  have hcollect : collect mUnchunkers c
      = .ok (MessageUnchunker.collecting m (missing m.instanceId later)) := by
    rw [collect, hid, h.entry_eq m hm, hcons, entry]
    by_cases hall : (i :: missing m.instanceId later).length = m.numChunks
    · -- the first chunk of the message to arrive
      rw [if_pos (Or.inr hall)]
      refine MessageUnchunker.new_collecting m hc hi ?_ hall
      rw [← hcons]
      exact h.mem_missing_of_length hm (by rw [hcons]; exact hall)
    · rw [if_neg (by simpa using hall)]
      exact MessageUnchunker.addChunk_collecting m hc hi hlen
  by_cases hlast : missing m.instanceId later = []
  · -- the message is whole, and its entry goes
    refine ⟨(mUnchunkers.insert m.instanceId
      (MessageUnchunker.collecting m (missing m.instanceId later))).erase m.instanceId, ?_, ?_⟩
    · refine h.of_entry ?_ fun id hne => ?_
      · rw [Std.TreeMap.getElem?_erase_self, entry, if_pos (Or.inl hlast)]
      · rw [Std.TreeMap.getElem?_erase, Std.TreeMap.getElem?_insert]
        simp only [Std.LawfulEqOrd.compare_eq_iff_eq, hne, if_false]
    · have hget := MessageUnchunker.getUnchunked_complete m c
      rw [← hlast] at hget
      rw [receive_chunkEnvelope m.envelope hcollect hget, hid, if_pos hlast]
      rfl
  · refine ⟨mUnchunkers.insert m.instanceId
      (MessageUnchunker.collecting m (missing m.instanceId later)), ?_, ?_⟩
    · refine h.of_entry ?_ fun id hne => ?_
      · rw [List.length_cons] at hlen
        rw [Std.TreeMap.getElem?_insert_self, entry, if_neg (by
          rintro (hnil | hfull)
          · exact hlast hnil
          · omega)]
      · rw [Std.TreeMap.getElem?_insert]
        simp only [Std.LawfulEqOrd.compare_eq_iff_eq, hne, if_false]
    · have hget := MessageUnchunker.getUnchunked_missing m hlast (chunkEnvelope m.envelope c)
      rw [receive_chunkEnvelope m.envelope hcollect hget, hid, if_neg hlast]
      rfl

end Step

/-! ## All arrivals -/

/-- What the calls return, arrival by arrival. -/
def deliveries : List (Arrival config registry) → List Envelope
  | [] => []
  | .other env _ :: later => env :: deliveries later
  | .chunk m _ _ _ :: later =>
    if missing m.instanceId later = [] then m.received :: deliveries later else deliveries later

section Run

variable {messages : List (ChunkableMessage config registry)}

/-- The calls return the deliveries, and leave the map with nothing to come. -/
theorem Collected.getEnvelopes {arrivals : List (Arrival config registry)}
    {mUnchunkers : UnchunkerMap} (h : Collected messages arrivals mUnchunkers) {calls : Nat}
    (hcalls : arrivals.length ≤ calls) :
    ∃ mUnchunkers', Collected messages [] mUnchunkers' ∧
      Chunking.getEnvelopes registry calls (arrivals.map Arrival.envelope) mUnchunkers
        = ((deliveries arrivals).map .ok, [], mUnchunkers') := by
  induction arrivals generalizing mUnchunkers calls with
  | nil =>
    refine ⟨mUnchunkers, h, ?_⟩
    cases calls <;> rfl
  | cons arrival later ih =>
    rw [List.length_cons] at hcalls
    obtain ⟨calls, rfl⟩ : ∃ n, calls = n + 1 := ⟨calls - 1, by omega⟩
    cases arrival with
    | other env henv =>
      obtain ⟨hreceive, hlater⟩ := h.receive_other
      obtain ⟨mUnchunkers', hend, hrest⟩ := ih hlater (show later.length ≤ calls by omega)
      refine ⟨mUnchunkers', hend, ?_⟩
      simp only [List.map_cons, Arrival.envelope, Chunking.getEnvelopes, getEnvelope, hreceive,
        hrest, deliveries]
    | chunk m i c hc =>
      obtain ⟨mUnchunkers₁, hlater, hreceive⟩ := h.receive_chunk
      by_cases hlast : missing m.instanceId later = []
      · obtain ⟨mUnchunkers', hend, hrest⟩ := ih hlater (show later.length ≤ calls by omega)
        rw [if_pos hlast] at hreceive
        refine ⟨mUnchunkers', hend, ?_⟩
        simp only [List.map_cons, Arrival.envelope, Chunking.getEnvelopes, getEnvelope, hreceive,
          hrest, deliveries, hlast, if_true]
      · -- the same call goes on with the next arrival
        obtain ⟨mUnchunkers', hend, hrest⟩ := ih hlater (show later.length ≤ calls + 1 by omega)
        rw [if_neg hlast] at hreceive
        refine ⟨mUnchunkers', hend, ?_⟩
        rw [deliveries, if_neg hlast, ← hrest]
        simp only [List.map_cons, Arrival.envelope, Chunking.getEnvelopes, getEnvelope, hreceive]

/-- Turning one more message on in a filter. -/
theorem filter_perm_cons {p q : ChunkableMessage config registry → Bool}
    {m : ChunkableMessage config registry} (hm : m ∈ messages)
    (hdistinct : (messages.map ChunkableMessage.instanceId).Nodup) (hp : p m = false)
    (hq : ∀ m', q m' = (p m' || decide (m.instanceId = m'.instanceId))) :
    (messages.filter q).Perm (m :: messages.filter p) := by
  obtain ⟨front, back, rfl⟩ := List.append_of_mem hm
  rw [List.map_append, List.map_cons] at hdistinct
  have hcongr : ∀ l : List (ChunkableMessage config registry),
      (∀ m' ∈ l, m.instanceId ≠ m'.instanceId) → l.filter q = l.filter p := by
    intro l hl
    apply List.filter_congr
    intro m' hm'
    rw [hq, decide_eq_false (hl m' hm'), Bool.or_false]
  have hnd := List.nodup_append.mp hdistinct
  have hfront : ∀ m' ∈ front, m.instanceId ≠ m'.instanceId := by
    intro m' hm' heq
    exact hnd.2.2 _ (List.mem_map_of_mem hm') _ List.mem_cons_self heq.symm
  have hback : ∀ m' ∈ back, m.instanceId ≠ m'.instanceId := by
    intro m' hm' heq
    have hhead := (List.nodup_cons.mp hnd.2.1).1
    exact hhead (heq ▸ List.mem_map_of_mem hm')
  have hqm : q m = true := by rw [hq, decide_eq_true rfl, Bool.or_true]
  rw [List.filter_append, List.filter_append, List.filter_cons_of_pos hqm,
    List.filter_cons_of_neg (by rw [hp]; exact Bool.false_ne_true), hcongr front hfront,
    hcongr back hback]
  exact List.perm_middle

/-- The envelopes among some arrivals that are no chunks. -/
def others : List (Arrival config registry) → List Envelope
  | [] => []
  | .other env _ :: later => env :: others later
  | .chunk _ _ _ _ :: later => others later

/-- Each message with a chunk among the arrivals is delivered once, and each
    other envelope as often as it arrives. -/
theorem deliveries_perm (hdistinct : (messages.map ChunkableMessage.instanceId).Nodup)
    (arrivals : List (Arrival config registry))
    (hknown : ∀ m i c h, Arrival.chunk m i c h ∈ arrivals → m ∈ messages) :
    (deliveries arrivals).Perm
      ((messages.filter fun m => !(missing m.instanceId arrivals).isEmpty).map
        ChunkableMessage.received ++ others arrivals) := by
  induction arrivals with
  | nil => simp [deliveries, missing, others]
  | cons arrival later ih =>
    have hrest := ih fun m i c h hmem => hknown m i c h (List.mem_cons_of_mem _ hmem)
    cases arrival with
    | other env henv =>
      simp only [deliveries, others, missing]
      exact (hrest.cons env).trans List.perm_middle.symm
    | chunk m i c hc =>
      have hm := hknown m i c hc List.mem_cons_self
      have hmissing : ∀ m' : ChunkableMessage config registry,
          (!(missing m'.instanceId (.chunk m i c hc :: later)).isEmpty)
            = (!(missing m'.instanceId later).isEmpty ||
              decide (m.instanceId = m'.instanceId)) := by
        intro m'
        rw [missing]
        by_cases heq : m.instanceId = m'.instanceId <;> simp [heq]
      rw [deliveries, others]
      by_cases hlast : missing m.instanceId later = []
      · -- the last chunk: the message is among those with a chunk from here on only
        rw [if_pos hlast]
        have hturned := filter_perm_cons hm hdistinct
          (p := fun m' => !(missing m'.instanceId later).isEmpty) (by simp [hlast]) hmissing
        refine (hrest.cons _).trans ?_
        rw [← List.cons_append, ← List.map_cons]
        exact (hturned.symm.map _).append_right _
      · rw [if_neg hlast]
        refine hrest.trans (.of_eq ?_)
        congr 2
        apply List.filter_congr
        intro m' _
        rw [hmissing]
        by_cases heq : m.instanceId = m'.instanceId
        · simp [← heq, hlast]
        · simp [heq]

end Run

/-! ## From messages to arrivals -/

/-- The message index an arrival fills, if it is a chunk of the message. -/
def chunkIndex (id : UUID) : Arrival config registry → Option Nat
  | .chunk m i _ _ => if m.instanceId = id then some i else none
  | .other _ _ => none

def otherEnvelope : Arrival config registry → Option Envelope
  | .chunk _ _ _ _ => none
  | .other env _ => some env

theorem missing_eq_filterMap (id : UUID) (arrivals : List (Arrival config registry)) :
    missing id arrivals = arrivals.filterMap (chunkIndex id) := by
  induction arrivals with
  | nil => rfl
  | cons arrival later ih =>
    cases arrival with
    | other env henv => rw [List.filterMap_cons_none rfl, missing, ih]
    | chunk m i c hc => by_cases hid : m.instanceId = id <;> simp [missing, chunkIndex, hid, ih]

theorem others_eq_filterMap (arrivals : List (Arrival config registry)) :
    others arrivals = arrivals.filterMap otherEnvelope := by
  induction arrivals with
  | nil => rfl
  | cons arrival later ih =>
    cases arrival with
    | other env henv =>
      have hsome : otherEnvelope (Arrival.other env henv : Arrival config registry) = some env :=
        rfl
      rw [List.filterMap_cons_some hsome, others, ih]
    | chunk m i c hc => rw [List.filterMap_cons_none rfl, others, ih]

/-- A message's chunks as arrivals. -/
def ChunkableMessage.arrivals (m : ChunkableMessage config registry) :
    List (Arrival config registry) :=
  (List.range m.chunks.length).pmap
    (fun i hi => .chunk m i m.chunks[i] (List.getElem?_eq_getElem hi))
    fun _ hi => List.mem_range.mp hi

theorem ChunkableMessage.arrivals_envelope (m : ChunkableMessage config registry) :
    m.arrivals.map Arrival.envelope = m.chunkEnvelopes := by
  rw [arrivals, List.map_pmap]
  apply List.ext_getElem
  · simp [chunkEnvelopes]
  · intro i h₁ h₂
    simp [chunkEnvelopes, Arrival.envelope]

theorem ChunkableMessage.arrivals_chunkIndex (m : ChunkableMessage config registry) (id : UUID) :
    m.arrivals.filterMap (chunkIndex id)
      = if m.instanceId = id then List.range m.numChunks else [] := by
  have hpmap : ∀ (l : List Nat) (hl : ∀ i ∈ l, i < m.chunks.length),
      (l.pmap (fun i hi => Arrival.chunk m i m.chunks[i] (List.getElem?_eq_getElem hi))
        hl).filterMap (chunkIndex id) = if m.instanceId = id then l else [] := by
    intro l
    induction l with
    | nil => intro _; simp
    | cons i l ih =>
      intro hl
      by_cases hid : m.instanceId = id
      · have hrest := ih fun j hj => hl j (List.mem_cons_of_mem i hj)
        simp only [hid, if_true] at hrest
        simp [chunkIndex, hid, hrest]
      · have hrest := ih fun j hj => hl j (List.mem_cons_of_mem i hj)
        simp only [hid, if_false] at hrest
        simp [chunkIndex, hid, hrest]
  rw [arrivals, hpmap, m.chunks_length]

theorem ChunkableMessage.arrivals_otherEnvelope (m : ChunkableMessage config registry) :
    m.arrivals.filterMap otherEnvelope = [] := by
  rw [List.filterMap_eq_nil_iff]
  intro a ha
  obtain ⟨i, hi, rfl⟩ := List.mem_pmap.mp ha
  rfl

/-- Envelopes that are no chunks, as arrivals. -/
def otherArrivals (others : List Envelope)
    (hothers : ∀ env ∈ others, env.classId ≠ MessageChunk.ID) : List (Arrival config registry) :=
  others.pmap Arrival.other hothers

/-- Everything that arrives, in the order of sending. -/
def allArrivals (messages : List (ChunkableMessage config registry)) (others : List Envelope)
    (hothers : ∀ env ∈ others, env.classId ≠ MessageChunk.ID) : List (Arrival config registry) :=
  messages.flatMap ChunkableMessage.arrivals ++ otherArrivals others hothers

section All

variable {messages : List (ChunkableMessage config registry)} {otherEnvs : List Envelope}
  {hothers : ∀ env ∈ otherEnvs, env.classId ≠ MessageChunk.ID}

theorem allArrivals_envelope (hothers : ∀ env ∈ otherEnvs, env.classId ≠ MessageChunk.ID) :
    (allArrivals messages otherEnvs hothers).map Arrival.envelope
      = messages.flatMap ChunkableMessage.chunkEnvelopes ++ otherEnvs := by
  have henvelope : (otherArrivals otherEnvs hothers : List (Arrival config registry)).map
      Arrival.envelope = otherEnvs := by
    rw [otherArrivals, List.map_pmap]
    exact List.pmap_eq_self.mpr fun _ _ => rfl
  rw [allArrivals, List.map_append, List.map_flatMap, henvelope]
  congr 2
  funext m
  exact m.arrivals_envelope

theorem allArrivals_chunkIndex (id : UUID) :
    (allArrivals messages otherEnvs hothers).filterMap (chunkIndex id)
      = messages.flatMap fun m => if m.instanceId = id then List.range m.numChunks else [] := by
  have hnone : (otherArrivals otherEnvs hothers : List (Arrival config registry)).filterMap
      (chunkIndex id) = [] := by
    rw [List.filterMap_eq_nil_iff]
    intro a ha
    obtain ⟨env, henv, rfl⟩ := List.mem_pmap.mp ha
    rfl
  rw [allArrivals, List.filterMap_append, hnone, List.append_nil, List.filterMap_flatMap]
  congr 1
  funext m
  exact m.arrivals_chunkIndex id

theorem allArrivals_otherEnvelope :
    (allArrivals messages otherEnvs hothers).filterMap otherEnvelope = otherEnvs := by
  have henvs : (otherArrivals otherEnvs hothers : List (Arrival config registry)).filterMap
      otherEnvelope = otherEnvs := by
    unfold otherArrivals
    induction otherEnvs with
    | nil => rfl
    | cons env envs ih =>
      have hsome : otherEnvelope (Arrival.other env (hothers env List.mem_cons_self) :
        Arrival config registry) = some env := rfl
      rw [List.pmap_cons, List.filterMap_cons_some hsome, ih]
  rw [allArrivals, List.filterMap_append, henvs, List.filterMap_flatMap]
  simp [ChunkableMessage.arrivals_otherEnvelope]

/-- The chunks of a message are all among the arrivals, each once. -/
theorem allArrivals_chunkIndex_of_mem (hothers : ∀ env ∈ otherEnvs, env.classId ≠ MessageChunk.ID)
    (hdistinct : (messages.map ChunkableMessage.instanceId).Nodup)
    {m : ChunkableMessage config registry} (hm : m ∈ messages) :
    (allArrivals messages otherEnvs hothers).filterMap (chunkIndex m.instanceId)
      = List.range m.numChunks := by
  rw [allArrivals_chunkIndex]
  induction messages with
  | nil => exact absurd hm List.not_mem_nil
  | cons m' rest ih =>
    rw [List.map_cons, List.nodup_cons] at hdistinct
    rw [List.flatMap_cons]
    rcases List.mem_cons.mp hm with rfl | hm
    · have hnil : (rest.flatMap fun m' =>
          if m'.instanceId = m.instanceId then List.range m'.numChunks else []) = [] := by
        rw [List.flatMap_eq_nil_iff]
        intro m' hm'
        rw [if_neg]
        exact fun heq => hdistinct.1 (heq ▸ List.mem_map_of_mem hm')
      rw [if_pos rfl, hnil, List.append_nil]
    · have hne : m'.instanceId ≠ m.instanceId := fun heq =>
        hdistinct.1 (heq ▸ List.mem_map_of_mem hm)
      rw [if_neg hne, List.nil_append, ih hdistinct.2 hm]

/-- All chunks of a message are still to come. -/
theorem missing_perm (hdistinct : (messages.map ChunkableMessage.instanceId).Nodup)
    {arrivals : List (Arrival config registry)}
    (hperm : arrivals.Perm (allArrivals messages otherEnvs hothers))
    {m : ChunkableMessage config registry} (hm : m ∈ messages) :
    (missing m.instanceId arrivals).Perm (List.range m.numChunks) := by
  rw [missing_eq_filterMap, ← allArrivals_chunkIndex_of_mem hothers hdistinct hm]
  exact hperm.filterMap _

/-- Before anything arrives the empty map is right. -/
theorem Collected.start (hdistinct : (messages.map ChunkableMessage.instanceId).Nodup)
    {arrivals : List (Arrival config registry)}
    (hperm : arrivals.Perm (allArrivals messages otherEnvs hothers)) :
    Collected messages arrivals ∅ := by
  refine ⟨?_, hdistinct, ?_, ?_, fun _ _ => Std.TreeMap.getElem?_emptyc⟩
  · intro m i c hc hmem
    rcases List.mem_append.mp (hperm.mem_iff.mp hmem) with hmem | hmem
    · obtain ⟨m', hm', hmem'⟩ := List.mem_flatMap.mp hmem
      obtain ⟨j, hj, heq⟩ := List.mem_pmap.mp hmem'
      cases heq
      exact hm'
    · obtain ⟨env, henv, heq⟩ := List.mem_pmap.mp hmem
      cases heq
  · intro id
    by_cases hid : ∃ m ∈ messages, m.instanceId = id
    · obtain ⟨m, hm, rfl⟩ := hid
      exact (missing_perm hdistinct hperm hm).nodup_iff.mpr List.nodup_range
    · have hnil : missing id arrivals = [] := by
        have hperm' := hperm.filterMap (chunkIndex id)
        rw [allArrivals_chunkIndex, List.flatMap_eq_nil_iff.mpr] at hperm'
        · rw [missing_eq_filterMap]
          exact hperm'.eq_nil
        · intro m hm
          rw [if_neg]
          exact fun heq => hid ⟨m, hm, heq⟩
      rw [hnil]
      exact List.nodup_nil
  · intro m hm
    rw [Std.TreeMap.getElem?_emptyc, entry, if_pos]
    right
    rw [(missing_perm hdistinct hperm hm).length_eq, List.length_range]

end All

/-! ## In terms of the envelopes alone -/

/-- Whether an envelope carries a chunk of the message with the given id. -/
def isChunkOf (id : UUID) (env : Envelope) : Bool :=
  match chunkOf env with
  | none => false
  | some chunk => decide (chunk.internalInstanceId = id)

/-- What the calls of `getEnvelope` return, from the arrivals: an envelope that
    is no chunk as it is, and in place of the last chunk of a message the
    message. -/
def expected (messages : List (ChunkableMessage config registry)) : List Envelope → List Envelope
  | [] => []
  | env :: later =>
    match chunkOf env with
    | none => env :: expected messages later
    | some chunk =>
      if later.any (isChunkOf chunk.internalInstanceId) then expected messages later
      else
        ((messages.find? fun m => m.instanceId = chunk.internalInstanceId).map
          ChunkableMessage.received).toList ++ expected messages later

theorem chunkOf_chunk {m : ChunkableMessage config registry} {i : Nat} {c : MessageChunk}
    {hc : m.chunks[i]? = some c} : chunkOf (Arrival.chunk m i c hc).envelope = some c := by
  have hclass : (Arrival.chunk m i c hc).envelope.classId = MessageChunk.ID := rfl
  rw [chunkOf, if_pos hclass]
  rfl

theorem any_isChunkOf (id : UUID) (arrivals : List (Arrival config registry)) :
    (arrivals.map Arrival.envelope).any (isChunkOf id) = !(missing id arrivals).isEmpty := by
  induction arrivals with
  | nil => rfl
  | cons arrival later ih =>
    rw [List.map_cons, List.any_cons, ih]
    cases arrival with
    | other env henv => simp only [isChunkOf, chunkOf, Arrival.envelope, henv, if_false, missing,
        Bool.false_or]
    | chunk m i c hc =>
      rw [isChunkOf, chunkOf_chunk, missing]
      have hid := (m.chunks_getElem hc).2.2.2.1
      by_cases heq : m.instanceId = id <;> simp [hid, heq]

theorem expected_eq_deliveries {messages : List (ChunkableMessage config registry)}
    (hdistinct : (messages.map ChunkableMessage.instanceId).Nodup)
    (arrivals : List (Arrival config registry))
    (hknown : ∀ m i c h, Arrival.chunk m i c h ∈ arrivals → m ∈ messages) :
    expected messages (arrivals.map Arrival.envelope) = deliveries arrivals := by
  induction arrivals with
  | nil => rfl
  | cons arrival later ih =>
    have hrest := ih fun m i c h hmem => hknown m i c h (List.mem_cons_of_mem _ hmem)
    rw [List.map_cons, expected]
    cases arrival with
    | other env henv =>
      have hnone : chunkOf (Arrival.other env henv : Arrival config registry).envelope = none :=
        if_neg henv
      rw [hnone, hrest]
      rfl
    | chunk m i c hc =>
      have hm := hknown m i c hc List.mem_cons_self
      have hid := (m.chunks_getElem hc).2.2.2.1
      have hfind : messages.find? (fun m' => decide (m'.instanceId = m.instanceId)) = some m := by
        cases hf : messages.find? (fun m' => decide (m'.instanceId = m.instanceId)) with
        | none =>
          have := List.find?_eq_none.mp hf m hm
          simp at this
        | some m' =>
          have hid' : m'.instanceId = m.instanceId := by simpa using List.find?_some hf
          rw [List.inj_on_of_nodup_map hdistinct (List.mem_of_find?_eq_some hf) hm hid']
      rw [chunkOf_chunk]
      simp only [hid, any_isChunkOf, hrest, hfind, deliveries]
      by_cases hlast : missing m.instanceId later = [] <;> simp [hlast]

/-- Chunked messages arrive whole.  The sending endpoint hands the chunk
    envelopes of all messages on; whatever order they arrive in, and whatever
    other envelopes come in between, the calls of `getEnvelope` return each of
    the others as it is and each message once, when its last chunk arrives, and
    leave nothing in the map.  A message comes with its own metadata and
    destinations, and with the object its class deserializes from the bytes
    that were serialized. -/
theorem getEnvelopes_chunks (messages : List (ChunkableMessage config registry))
    (otherEnvs : List Envelope) (henabled : config.enabled = true)
    (hdistinct : (messages.map ChunkableMessage.instanceId).Nodup)
    (hothers : ∀ env ∈ otherEnvs, env.classId ≠ MessageChunk.ID) :
    ∃ wire,
      (messages.forM fun m => putEnvelope config m.envelope) [] = .ok () wire ∧
      ∀ arrivals : List Envelope, arrivals.Perm (wire ++ otherEnvs) →
        (∀ calls ≥ arrivals.length, ∃ mUnchunkers : UnchunkerMap,
          getEnvelopes registry calls arrivals ∅
            = ((expected messages arrivals).map .ok, [], mUnchunkers) ∧
          mUnchunkers.isEmpty = true) ∧
        (expected messages arrivals).Perm
          (messages.map ChunkableMessage.received ++ otherEnvs) ∧
        ∀ m ∈ messages, m.received.classId = m.envelope.classId ∧
          m.received.classVersion = m.envelope.classVersion ∧
          m.received.mMetadata = m.envelope.mMetadata ∧ m.received.mTo = m.envelope.mTo := by
  have hput : ∀ (ms : List (ChunkableMessage config registry)) (sent : List Envelope),
      (ms.forM fun m => putEnvelope config m.envelope) sent
        = .ok () (sent ++ ms.flatMap ChunkableMessage.chunkEnvelopes) := by
    intro ms
    induction ms with
    | nil => intro sent; rw [List.flatMap_nil, List.append_nil]; rfl
    | cons m ms ih =>
      intro sent
      rw [List.flatMap_cons, ← List.append_assoc, ← ih]
      exact forM_cons_of_ok (m.putEnvelope_eq henabled sent)
  refine ⟨messages.flatMap ChunkableMessage.chunkEnvelopes, hput messages [], ?_⟩
  intro arrivals hperm
  rw [← allArrivals_envelope hothers] at hperm
  -- an order of the envelopes is an order of the arrivals behind them
  obtain ⟨as, rfl, has⟩ := (congrFun₂ (List.eq_map_comp_perm Arrival.envelope) arrivals
    (allArrivals messages otherEnvs hothers)).mpr hperm
  have hstart := Collected.start hdistinct has
  rw [expected_eq_deliveries hdistinct as hstart.known]
  refine ⟨?_, ?_, ?_⟩
  · intro calls hcalls
    rw [List.length_map] at hcalls
    obtain ⟨mUnchunkers, hend, hget⟩ := hstart.getEnvelopes hcalls
    refine ⟨mUnchunkers, hget, ?_⟩
    exact hend.isEmpty
  · have hall : (messages.filter fun m => !(missing m.instanceId as).isEmpty) = messages := by
      rw [List.filter_eq_self]
      intro m hm
      have hlen := (missing_perm hdistinct has hm).length_eq
      have hpos := m.numChunks_pos
      rw [List.length_range] at hlen
      rw [Bool.not_eq_true', List.isEmpty_eq_false_iff]
      exact List.length_pos_iff.mp (by omega)
    refine (deliveries_perm hdistinct as hstart.known).trans ?_
    rw [hall, others_eq_filterMap]
    refine List.Perm.append_left _ ?_
    exact (has.filterMap otherEnvelope).trans (.of_eq allArrivals_otherEnvelope)
  · intro m _
    exact ⟨m.restored_classId, m.restored_classVersion, rfl, rfl⟩

/-- Content that serializes as the bytes it holds. -/
def bytesContent (data : Bytes) : ObjectContent where
  classId := UUID.null
  classVersion := 1
  serializedLength := data.length
  serialize := .write data (.ret ())

/-- A class that reads three bytes, under any id. -/
def threeBytesRegistry : ContentRegistry := fun _ _ =>
  some (.read 3 fun data => .ret (bytesContent data))

def twoByteChunks : ChunkingConfig := { minChunkingSize := 1, chunkSize := 2 }

/-- A message of three bytes. -/
def threeBytes : ChunkableMessage twoByteChunks threeBytesRegistry where
  metadata := ⟨UUID.null, UUID.null, {}, [65], false⟩
  destinations := [{}]
  content := bytesContent [1, 2, 3]
  data := [1, 2, 3]
  restored := bytesContent [1, 2, 3]
  program := .read 3 fun data => .ret (bytesContent data)
  serialize_eval := rfl
  serializedLength_eq := rfl
  minChunkingSize_le := by decide
  data_pos := by decide
  chunkSize_lt := by decide
  chunkCount_le := by decide
  registered := rfl
  reads := ⟨by decide, rfl, rfl⟩
  restored_classId := rfl
  restored_classVersion := rfl

/-- Two chunks and an empty envelope, in any order. -/
theorem getEnvelopes_chunks_threeBytes :
    ∃ wire,
      ([threeBytes].forM fun m => putEnvelope twoByteChunks m.envelope) [] = .ok () wire ∧
      ∀ arrivals : List Envelope, arrivals.Perm (wire ++ [⟨none, none, []⟩]) →
        (∀ calls ≥ arrivals.length, ∃ mUnchunkers : UnchunkerMap,
          getEnvelopes threeBytesRegistry calls arrivals ∅
            = ((expected [threeBytes] arrivals).map .ok, [], mUnchunkers) ∧
          mUnchunkers.isEmpty = true) ∧
        (expected [threeBytes] arrivals).Perm
          ([threeBytes].map ChunkableMessage.received ++ [⟨none, none, []⟩]) ∧
        ∀ m ∈ [threeBytes], m.received.classId = m.envelope.classId ∧
          m.received.classVersion = m.envelope.classVersion ∧
          m.received.mMetadata = m.envelope.mMetadata ∧ m.received.mTo = m.envelope.mTo :=
  getEnvelopes_chunks [threeBytes] [⟨none, none, []⟩] rfl (List.nodup_singleton _) (by
    intro env henv
    rw [List.mem_singleton] at henv
    subst henv
    decide)

end Arras4Core.Chunking
