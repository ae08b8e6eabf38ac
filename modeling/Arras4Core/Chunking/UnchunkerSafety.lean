/-
  Arras4Core.Chunking.UnchunkerSafety

  The receiving endpoint on arbitrary chunks.  An envelope may also fail to
  arrive: then the underlying `getEnvelope` throws.

  `addChunk` uses the index of a chunk without a test, and a message that is
  complete but cannot be restored stays in the map.  Main result:
  `lawful_iff_collectable`.
-/

import Arras4Core.Chunking.ChunkingMessageEndpoint
import Arras4Core.Lib.Machine

namespace Arras4Core.Chunking

open Arras4Core.Lib
open Arras4Core.Api (Exception UUID ClassID DataInStream)
open Arras4Core.Message (Envelope ObjectContent)

namespace MessageUnchunker

theorem size_empty (chunk : MessageChunk) :
    (List.replicate chunk.mNumberOfChunks (none : Option MessageChunk)).length
      = chunk.mNumberOfChunks :=
  List.length_replicate

/-- The unchunker as the constructor has it when it calls `addChunk`. -/
def empty (chunk : MessageChunk) : MessageUnchunker where
  mNumChunks := chunk.mNumberOfChunks
  mInstanceId := chunk.internalInstanceId
  mCount := 0
  mChunks := List.replicate chunk.mNumberOfChunks none
  size_eq := size_empty chunk

/-- The first test of `addChunk`. -/
def Mismatch (u : MessageUnchunker) (chunk : MessageChunk) : Prop :=
  chunk.mNumberOfChunks ≠ u.mNumChunks ∨ chunk.internalInstanceId ≠ u.mInstanceId

/-- `addChunk` stores the chunk at an index below the chunk count, or it throws. -/
def StoresOrThrows (u : MessageUnchunker) (chunk : MessageChunk) : Prop :=
  match u.addChunk chunk with
  | .ok u' => chunk.mChunkIndex < u.mNumChunks ∧
      u'.mChunks = u.mChunks.set chunk.mChunkIndex (some chunk)
  | .error e => e ≠ .undefinedBehaviour

/-- The message can be made from its chunks: their lengths add up to what chunk 0
    says, its class is registered, and `deserialize` returns. -/
def Restorable (registry : ContentRegistry) (chunks : List (Option MessageChunk)) : Prop :=
  ∃ chunk0 program content, chunks.head? = some (some chunk0) ∧
    ((chunks.filterMap id).map MessageChunk.mPayloadLength).sum = chunk0.mUnchunkedSize ∧
    registry chunk0.internalId chunk0.internalClassVersion = some program ∧
    deserialize program chunks = .ok content

/-- `mCount` is the number of chunks that are there. -/
def Counts (u : MessageUnchunker) : Prop := u.mCount = u.mChunks.countP Option.isSome

end MessageUnchunker

/-! ## Any sequence of arrivals -/

/-- What `mSource.getEnvelope` returns or throws. -/
abbrev Delivery := Except Exception Envelope

/-- The chunk that arrives, if it is one. -/
def receivedChunk : Delivery → Option MessageChunk
  | .ok envelope => chunkOf envelope
  | .error _ => none

/-- One pass of the loop of `getEnvelope`. -/
def pass (registry : ContentRegistry) (delivery : Delivery) (mUnchunkers : UnchunkerMap) :
    Except Exception (Option Envelope) × UnchunkerMap :=
  match delivery with
  | .error e => (.error e, mUnchunkers)
  | .ok envelope => receive registry envelope mUnchunkers

/-- The endpoint, one pass after the other; what it does after undefined behaviour
    is not promised. -/
def endpoint (registry : ContentRegistry) :
    Machine UnchunkerMap Delivery (Except Exception (Option Envelope)) where
  step mUnchunkers delivery :=
    match pass registry delivery mUnchunkers with
    | (.error .undefinedBehaviour, _) => none
    | r => some r

/-- The unchunker that `addChunk` is called on; none if the constructor throws
    before it calls `addChunk`. -/
def unchunkerOf (mUnchunkers : UnchunkerMap) (chunk : MessageChunk) : Option MessageUnchunker :=
  match mUnchunkers[chunk.internalInstanceId]? with
  | some unchunker => some unchunker
  | none => if chunk.mNumberOfChunks < 1 then none else some (.empty chunk)

/-- What is asked of a pass: `addChunk` stores in bounds or throws, and if the pass
    throws then at most the entry of the chunk's message is gone from the map. -/
structure Lawful (registry : ContentRegistry) (mUnchunkers : UnchunkerMap) (delivery : Delivery) :
    Prop where
  stores : ∀ chunk u, receivedChunk delivery = some chunk → unchunkerOf mUnchunkers chunk = some u →
    u.StoresOrThrows chunk
  throws : ∀ e mUnchunkers', pass registry delivery mUnchunkers = (.error e, mUnchunkers') →
    ∀ id, mUnchunkers'[id]? = mUnchunkers[id]? ∨
      mUnchunkers'[id]? = none ∧ ∃ chunk, receivedChunk delivery = some chunk ∧
        chunk.internalInstanceId = id

/-- A chunk that passes the first test of `addChunk` has an index below the chunk
    count, and the chunk that completes a message makes one that can be restored. -/
structure Collectable (registry : ContentRegistry) (mUnchunkers : UnchunkerMap)
    (delivery : Delivery) : Prop where
  inBounds : ∀ chunk u, receivedChunk delivery = some chunk →
    unchunkerOf mUnchunkers chunk = some u → ¬ u.Mismatch chunk →
      chunk.mChunkIndex < u.mNumChunks
  restorable : ∀ chunk u, receivedChunk delivery = some chunk →
    unchunkerOf mUnchunkers chunk = some u → ¬ u.Mismatch chunk →
    u.mChunks[chunk.mChunkIndex]? = some none →
    (u.mChunks.set chunk.mChunkIndex (some chunk)).all Option.isSome = true →
      MessageUnchunker.Restorable registry (u.mChunks.set chunk.mChunkIndex (some chunk))

/-! ## Adding a chunk -/

namespace MessageUnchunker

variable {u : MessageUnchunker} {chunk : MessageChunk} {registry : ContentRegistry}

/-- What `addChunk` comes to. -/
inductive AddsChunk (u : MessageUnchunker) (chunk : MessageChunk) :
    Except Exception MessageUnchunker → Prop
  | refused (e : Exception) (hne : e ≠ .undefinedBehaviour)
      (h : u.Mismatch chunk ∨ ∃ c, u.mChunks[chunk.mChunkIndex]? = some (some c)) :
      AddsChunk u chunk (.error e)
  | outOfBounds (hmatch : ¬ u.Mismatch chunk) (hle : u.mNumChunks ≤ chunk.mChunkIndex) :
      AddsChunk u chunk (.error .undefinedBehaviour)
  | stored (u' : MessageUnchunker) (hmatch : ¬ u.Mismatch chunk)
      (hslot : u.mChunks[chunk.mChunkIndex]? = some none) (hnum : u'.mNumChunks = u.mNumChunks)
      (hcount : u'.mCount = u.mCount + 1)
      (hchunks : u'.mChunks = u.mChunks.set chunk.mChunkIndex (some chunk)) :
      AddsChunk u chunk (.ok u')

theorem addChunk_adds (u : MessageUnchunker) (chunk : MessageChunk) :
    AddsChunk u chunk (u.addChunk chunk) := by
  unfold addChunk
  split
  · next hmismatch => exact .refused _ Exception.noConfusion (.inl hmismatch)
  · next hmatch =>
    split
    · next hnone =>
      refine .outOfBounds hmatch ?_
      rw [← u.size_eq]
      exact List.getElem?_eq_none_iff.mp hnone
    · next c hslot => exact .refused _ Exception.noConfusion (.inr ⟨c, hslot⟩)
    · next hslot => exact .stored _ hmatch hslot rfl rfl rfl

theorem lt_mNumChunks_of_getElem? {slot : Option MessageChunk} {i : Nat}
    (h : u.mChunks[i]? = some slot) : i < u.mNumChunks := by
  rw [← u.size_eq]
  exact (List.getElem?_eq_some_iff.mp h).1

theorem storesOrThrows_iff :
    u.StoresOrThrows chunk ↔ (¬ u.Mismatch chunk → chunk.mChunkIndex < u.mNumChunks) := by
  have h := addChunk_adds u chunk
  unfold StoresOrThrows
  generalize u.addChunk chunk = r at h
  cases h with
  | refused e hne hwhy =>
    refine iff_of_true hne fun hmatch => ?_
    obtain ⟨c, hslot⟩ := hwhy.resolve_left hmatch
    exact lt_mNumChunks_of_getElem? hslot
  | outOfBounds hmatch hle =>
    exact iff_of_false (fun hne => hne rfl) fun hlt => absurd (hlt hmatch) (Nat.not_lt.mpr hle)
  | stored u' hmatch hslot hnum hcount hchunks =>
    have hlt := lt_mNumChunks_of_getElem? hslot
    exact iff_of_true ⟨hlt, hchunks⟩ fun _ => hlt

/-! ## Counting -/

theorem counts_empty (chunk : MessageChunk) : (empty chunk).Counts := by
  unfold Counts empty
  rw [List.countP_replicate]
  rfl

/-- Storing a chunk keeps the count. -/
theorem Counts.stored {u' : MessageUnchunker} (h : u.Counts)
    (hslot : u.mChunks[chunk.mChunkIndex]? = some none) (hcount : u'.mCount = u.mCount + 1)
    (hchunks : u'.mChunks = u.mChunks.set chunk.mChunkIndex (some chunk)) : u'.Counts := by
  obtain ⟨hlt, hget⟩ := List.getElem?_eq_some_iff.mp hslot
  unfold Counts at h ⊢
  rw [hcount, h, hchunks, List.countP_set hlt, hget]
  simp

/-- A message is complete when all of its chunks are there. -/
theorem Counts.lt_iff (h : u.Counts) :
    u.mCount < u.mNumChunks ↔ u.mChunks.all Option.isSome = false := by
  rw [h, ← u.size_eq, ← Bool.not_eq_true, List.all_eq_true, ← List.countP_eq_length]
  have hle := List.countP_le_length (p := Option.isSome) (l := u.mChunks)
  omega

/-! ## Restoring the message -/

theorem sumLen_of_all {chunks : List (Option MessageChunk)}
    (h : chunks.all Option.isSome = true) :
    sumLen chunks = .ok ((chunks.filterMap id).map MessageChunk.mPayloadLength).sum := by
  induction chunks with
  | nil => rfl
  | cons slot chunks ih =>
    rw [List.all_cons, Bool.and_eq_true] at h
    obtain ⟨chunk, rfl⟩ := Option.isSome_iff_exists.mp h.1
    rw [sumLen, ih h.2, List.filterMap_cons, id, List.map_cons, List.sum_cons]

variable (registry) in
/-- What `getUnchunked` makes of a complete message. -/
theorem getUnchunked_of_all (hcount : ¬ u.mCount < u.mNumChunks)
    (hall : u.mChunks.all Option.isSome = true) (hpos : 0 < u.mNumChunks) (envOut : Envelope) :
    (∃ env, u.getUnchunked registry envOut = .ok (some env)) ∧ Restorable registry u.mChunks ∨
      (∃ e, u.getUnchunked registry envOut = .error e) ∧ ¬ Restorable registry u.mChunks := by
  have hsum := sumLen_of_all hall
  obtain ⟨chunk0, hhead⟩ : ∃ chunk0, u.mChunks.head? = some (some chunk0) := by
    rw [← u.size_eq] at hpos
    obtain ⟨slot, rest, hcons⟩ := List.exists_cons_of_length_pos hpos
    rw [hcons, List.all_cons, Bool.and_eq_true] at hall
    obtain ⟨chunk0, rfl⟩ := Option.isSome_iff_exists.mp hall.1
    exact ⟨chunk0, by rw [hcons, List.head?_cons]⟩
  have honly : Restorable registry u.mChunks ↔ ∃ program content,
      ((u.mChunks.filterMap id).map MessageChunk.mPayloadLength).sum = chunk0.mUnchunkedSize ∧
      registry chunk0.internalId chunk0.internalClassVersion = some program ∧
      deserialize program u.mChunks = .ok content := by
    constructor
    · rintro ⟨chunk, program, content, hchunk, hrest⟩
      obtain rfl := Option.some.inj (Option.some.inj (hhead.symm.trans hchunk))
      exact ⟨program, content, hrest⟩
    · rintro ⟨program, content, hrest⟩
      exact ⟨chunk0, program, content, hhead, hrest⟩
  rw [honly, getUnchunked, if_neg hcount, hhead]
  simp only [hsum, bind, Except.bind]
  by_cases hsize :
    ((u.mChunks.filterMap id).map MessageChunk.mPayloadLength).sum = chunk0.mUnchunkedSize
  · rw [if_neg (not_not_intro hsize)]
    cases hregistry : registry chunk0.internalId chunk0.internalClassVersion with
    | none =>
      refine .inr ⟨⟨_, rfl⟩, ?_⟩
      rintro ⟨program, content, -, hprogram, -⟩
      cases hprogram
    | some program =>
      cases hdeserialize : deserialize program u.mChunks with
      | error e =>
        refine .inr ⟨⟨e, by simp only [hdeserialize]⟩, ?_⟩
        rintro ⟨program', content, -, hprogram, hcontent⟩
        obtain rfl := Option.some.inj hprogram
        cases hdeserialize.symm.trans hcontent
      | ok content =>
        exact .inl ⟨⟨_, by simp only [pure, Except.pure, hdeserialize]; rfl⟩,
          program, content, hsize, rfl, hdeserialize⟩
  · rw [if_pos hsize]
    exact .inr ⟨⟨_, rfl⟩, fun ⟨_, _, htotal, _⟩ => hsize htotal⟩

end MessageUnchunker

/-! ## One pass -/

variable {registry : ContentRegistry} {mUnchunkers mUnchunkers' : UnchunkerMap}
  {delivery : Delivery} {chunk : MessageChunk} {u u' : MessageUnchunker} {e : Exception}

/-- Every unchunker in the map counts its chunks. -/
def Counted (mUnchunkers : UnchunkerMap) : Prop :=
  ∀ (id : UUID) (u : MessageUnchunker), mUnchunkers[id]? = some u → u.Counts

theorem Counted.unchunkerOf (h : Counted mUnchunkers)
    (hu : unchunkerOf mUnchunkers chunk = some u) : u.Counts := by
  unfold Chunking.unchunkerOf at hu
  split at hu
  · next hentry =>
    cases hu
    exact h _ _ hentry
  · split at hu
    · cases hu
    · cases hu
      exact MessageUnchunker.counts_empty chunk

/-- The entry of the chunk's message, if there is one, is the unchunker that
    `addChunk` is called on. -/
theorem entry_of_unchunkerOf (hu : unchunkerOf mUnchunkers chunk = some u) :
    mUnchunkers[chunk.internalInstanceId]? = none ∨
      mUnchunkers[chunk.internalInstanceId]? = some u := by
  unfold unchunkerOf at hu
  split at hu
  · next hentry =>
    cases hu
    exact .inr hentry
  · next hentry => exact .inl hentry

theorem collect_of_unchunkerOf (hu : unchunkerOf mUnchunkers chunk = some u) :
    collect mUnchunkers chunk = u.addChunk chunk := by
  unfold unchunkerOf at hu
  unfold collect
  split at hu
  · next hentry =>
    cases hu
    rw [hentry]
  · next hentry =>
    split at hu
    · cases hu
    · next hcount =>
      cases hu
      rw [hentry]
      exact if_neg hcount

theorem collect_of_none (hu : unchunkerOf mUnchunkers chunk = none) :
    ∃ e, collect mUnchunkers chunk = .error e := by
  unfold unchunkerOf at hu
  unfold collect
  split at hu
  · cases hu
  · next hentry =>
    split at hu
    · next hcount =>
      rw [hentry]
      exact ⟨_, if_pos hcount⟩
    · cases hu

theorem exists_unchunkerOf (h : collect mUnchunkers chunk = .ok u') :
    ∃ u, unchunkerOf mUnchunkers chunk = some u := by
  cases hu : unchunkerOf mUnchunkers chunk with
  | none =>
    obtain ⟨e, he⟩ := collect_of_none hu
    cases h.symm.trans he
  | some u => exact ⟨u, rfl⟩

/-- A delivery that is no chunk leaves the map alone. -/
theorem pass_of_none (h : receivedChunk delivery = none) :
    (pass registry delivery mUnchunkers).2 = mUnchunkers := by
  cases delivery with
  | error e => rfl
  | ok envelope =>
    by_cases hclass : envelope.classId = MessageChunk.ID
    · simp only [receivedChunk, chunkOf, if_pos hclass] at h
      simp only [pass, receive, if_neg (not_not_intro hclass), h]
    · simp only [pass, receive, if_pos hclass]

/-- A received chunk came in an envelope of its class. -/
theorem of_receivedChunk (h : receivedChunk delivery = some chunk) :
    ∃ envelope, delivery = .ok envelope ∧ envelope.classId = MessageChunk.ID ∧
      asMessageChunk envelope = some chunk := by
  cases delivery with
  | error e => cases h
  | ok envelope =>
    simp only [receivedChunk, chunkOf] at h
    split at h
    · next hclass => exact ⟨envelope, rfl, hclass, h⟩
    · cases h

variable (registry) in
theorem pass_of_collect_error (h : receivedChunk delivery = some chunk)
    (hcollect : collect mUnchunkers chunk = .error e) :
    pass registry delivery mUnchunkers = (.error e, mUnchunkers) := by
  obtain ⟨envelope, rfl, hclass, hchunk⟩ := of_receivedChunk h
  simp only [pass, receive, if_neg (not_not_intro hclass), hchunk, hcollect]

variable (registry) in
theorem pass_of_collect_ok (h : receivedChunk delivery = some chunk)
    (hcollect : collect mUnchunkers chunk = .ok u') :
    ∃ envelope, pass registry delivery mUnchunkers =
      match u'.getUnchunked registry envelope with
      | .ok (some env) => (.ok (some env),
          (mUnchunkers.insert chunk.internalInstanceId u').erase chunk.internalInstanceId)
      | r => (r, mUnchunkers.insert chunk.internalInstanceId u') := by
  obtain ⟨envelope, rfl, hclass, hchunk⟩ := of_receivedChunk h
  refine ⟨envelope, ?_⟩
  rcases hget : u'.getUnchunked registry envelope with e | _ | env <;>
    simp only [pass, receive, if_neg (not_not_intro hclass), hchunk, hcollect, hget]

/-- What a pass does that stores a chunk. -/
inductive PassStores (registry : ContentRegistry) (mUnchunkers : UnchunkerMap)
    (chunk : MessageChunk) (u' : MessageUnchunker) :
    Except Exception (Option Envelope) × UnchunkerMap → Prop
  | waits (h : u'.mChunks.all Option.isSome = false) : PassStores registry mUnchunkers chunk u'
      (.ok none, mUnchunkers.insert chunk.internalInstanceId u')
  | restores (h : u'.mChunks.all Option.isSome = true)
      (hrestorable : MessageUnchunker.Restorable registry u'.mChunks) (env : Envelope) :
      PassStores registry mUnchunkers chunk u' (.ok (some env),
        (mUnchunkers.insert chunk.internalInstanceId u').erase chunk.internalInstanceId)
  | fails (h : u'.mChunks.all Option.isSome = true)
      (hrestorable : ¬ MessageUnchunker.Restorable registry u'.mChunks) (e : Exception) :
      PassStores registry mUnchunkers chunk u'
        (.error e, mUnchunkers.insert chunk.internalInstanceId u')

variable (registry) in
theorem pass_stores (h : receivedChunk delivery = some chunk)
    (hcollect : collect mUnchunkers chunk = .ok u') (hcounts : u'.Counts)
    (hpos : 0 < u'.mNumChunks) :
    PassStores registry mUnchunkers chunk u' (pass registry delivery mUnchunkers) := by
  obtain ⟨envelope, hpass⟩ := pass_of_collect_ok registry h hcollect
  rw [hpass]
  cases hall : u'.mChunks.all Option.isSome with
  | false =>
    have hmissing : u'.getUnchunked registry envelope = .ok none :=
      if_pos (hcounts.lt_iff.mpr hall)
    rw [hmissing]
    exact .waits hall
  | true =>
    have hcomplete : ¬ u'.mCount < u'.mNumChunks := by
      rw [hcounts.lt_iff, hall]
      exact Bool.noConfusion
    rcases MessageUnchunker.getUnchunked_of_all registry hcomplete hall hpos envelope
      with ⟨⟨env, hget⟩, hrestorable⟩ | ⟨⟨e, hget⟩, hrestorable⟩
    · rw [hget]
      exact .restores hall hrestorable env
    · rw [hget]
      exact .fails hall hrestorable e

/-- An entry that is left in the map tells the maps apart. -/
theorem not_lawful_of_inserted (hu : unchunkerOf mUnchunkers chunk = some u)
    (hcount : u'.mCount = u.mCount + 1)
    (hpass : pass registry delivery mUnchunkers
      = (.error e, mUnchunkers.insert chunk.internalInstanceId u')) :
    ¬ Lawful registry mUnchunkers delivery := by
  intro hlawful
  have hself : (mUnchunkers.insert chunk.internalInstanceId u')[chunk.internalInstanceId]?
      = some u' := Std.TreeMap.getElem?_insert_self
  rcases hlawful.throws e _ hpass chunk.internalInstanceId with hsame | ⟨hnone, -⟩
  · rw [hself] at hsame
    rcases entry_of_unchunkerOf hu with hentry | hentry
    · cases hsame.trans hentry
    · obtain rfl := Option.some.inj (hsame.trans hentry)
      omega
  · cases hself.symm.trans hnone

theorem lawful_of_chunk (hchunk : receivedChunk delivery = some chunk)
    (hu : unchunkerOf mUnchunkers chunk = some u) :
    Lawful registry mUnchunkers delivery ↔ u.StoresOrThrows chunk ∧
      ∀ e mUnchunkers', pass registry delivery mUnchunkers = (.error e, mUnchunkers') →
        ∀ id, mUnchunkers'[id]? = mUnchunkers[id]? ∨
          mUnchunkers'[id]? = none ∧ chunk.internalInstanceId = id := by
  constructor
  · rintro ⟨hstores, hthrows⟩
    refine ⟨hstores chunk u hchunk hu, fun e mUnchunkers' hpass id => ?_⟩
    refine (hthrows e mUnchunkers' hpass id).imp_right ?_
    rintro ⟨hnone, chunk', hchunk', hid⟩
    obtain rfl := Option.some.inj (hchunk.symm.trans hchunk')
    exact ⟨hnone, hid⟩
  · rintro ⟨hstores, hthrows⟩
    refine ⟨?_, fun e mUnchunkers' hpass id => ?_⟩
    · intro chunk' u' hchunk' hu'
      obtain rfl := Option.some.inj (hchunk.symm.trans hchunk')
      obtain rfl := Option.some.inj (hu.symm.trans hu')
      exact hstores
    · exact (hthrows e mUnchunkers' hpass id).imp_right fun ⟨hnone, hid⟩ =>
        ⟨hnone, chunk, hchunk, hid⟩

theorem collectable_of_chunk (hchunk : receivedChunk delivery = some chunk)
    (hu : unchunkerOf mUnchunkers chunk = some u) :
    Collectable registry mUnchunkers delivery ↔ u.StoresOrThrows chunk ∧
      (¬ u.Mismatch chunk → u.mChunks[chunk.mChunkIndex]? = some none →
        (u.mChunks.set chunk.mChunkIndex (some chunk)).all Option.isSome = true →
          MessageUnchunker.Restorable registry (u.mChunks.set chunk.mChunkIndex (some chunk))) := by
  rw [MessageUnchunker.storesOrThrows_iff]
  constructor
  · exact fun h => ⟨h.inBounds chunk u hchunk hu, h.restorable chunk u hchunk hu⟩
  · rintro ⟨hinBounds, hrestorable⟩
    constructor
    · intro chunk' u' hchunk' hu'
      obtain rfl := Option.some.inj (hchunk.symm.trans hchunk')
      obtain rfl := Option.some.inj (hu.symm.trans hu')
      exact hinBounds
    · intro chunk' u' hchunk' hu'
      obtain rfl := Option.some.inj (hchunk.symm.trans hchunk')
      obtain rfl := Option.some.inj (hu.symm.trans hu')
      exact hrestorable

/-- A pass that leaves the map as it was when it throws is judged by `addChunk`. -/
theorem lawful_of_unchanged (hchunk : receivedChunk delivery = some chunk)
    (hu : unchunkerOf mUnchunkers chunk = some u)
    (hsame : ∀ e mUnchunkers', pass registry delivery mUnchunkers = (.error e, mUnchunkers') →
      mUnchunkers' = mUnchunkers) :
    Lawful registry mUnchunkers delivery ↔ u.StoresOrThrows chunk := by
  rw [lawful_of_chunk hchunk hu]
  refine and_iff_left fun e mUnchunkers' hpass id => .inl ?_
  rw [hsame e mUnchunkers' hpass]

/-- Nothing can go wrong where `addChunk` is not called. -/
theorem lawful_iff_of_notAdded
    (hno : ∀ chunk u, receivedChunk delivery = some chunk → unchunkerOf mUnchunkers chunk ≠ some u)
    (hsame : (pass registry delivery mUnchunkers).2 = mUnchunkers) :
    Lawful registry mUnchunkers delivery ↔ Collectable registry mUnchunkers delivery := by
  refine iff_of_true ⟨fun chunk u h hu => absurd hu (hno chunk u h), ?_⟩
    ⟨fun chunk u h hu => absurd hu (hno chunk u h), fun chunk u h hu => absurd hu (hno chunk u h)⟩
  intro e mUnchunkers' hpass id
  obtain rfl : mUnchunkers' = mUnchunkers := (congrArg Prod.snd hpass).symm.trans hsame
  exact .inl rfl

/-- A pass does what is asked of it if and only if its chunk can be collected. -/
theorem lawful_iff (hcounted : Counted mUnchunkers) :
    Lawful registry mUnchunkers delivery ↔ Collectable registry mUnchunkers delivery := by
  cases hchunk : receivedChunk delivery with
  | none =>
    exact lawful_iff_of_notAdded (fun chunk u h => by cases hchunk.symm.trans h)
      (pass_of_none hchunk)
  | some chunk =>
    cases hu : unchunkerOf mUnchunkers chunk with
    | none =>
      obtain ⟨e, hcollect⟩ := collect_of_none hu
      refine lawful_iff_of_notAdded (fun chunk' u h => ?_)
        (congrArg Prod.snd (pass_of_collect_error registry hchunk hcollect))
      obtain rfl := Option.some.inj (hchunk.symm.trans h)
      exact fun hu' => by cases hu.symm.trans hu'
    | some u =>
      have hadd := MessageUnchunker.addChunk_adds u chunk
      have hcollect := collect_of_unchunkerOf hu
      generalize u.addChunk chunk = r at hadd hcollect
      cases hadd with
      | refused e hne hwhy =>
        -- nothing is stored, and the map is as it was
        have hpass := pass_of_collect_error registry hchunk hcollect
        rw [lawful_of_unchanged hchunk hu fun e' m' h => by cases hpass.symm.trans h; rfl,
          collectable_of_chunk hchunk hu]
        refine (and_iff_left fun hmatch hslot => ?_).symm
        obtain ⟨c, hc⟩ := hwhy.resolve_left hmatch
        cases hslot.symm.trans hc
      | outOfBounds hmatch hle =>
        -- the index is behind the end, where neither side holds
        have hno : ¬ u.StoresOrThrows chunk := fun hstores =>
          Nat.not_lt.mpr hle (MessageUnchunker.storesOrThrows_iff.mp hstores hmatch)
        exact iff_of_false (fun h => hno ((lawful_of_chunk hchunk hu).mp h).1)
          fun h => hno ((collectable_of_chunk hchunk hu).mp h).1
      | stored u' hmatch hslot hnum hcount hchunks =>
        have hlt := MessageUnchunker.lt_mNumChunks_of_getElem? hslot
        have hcounts := (hcounted.unchunkerOf hu).stored hslot hcount hchunks
        have hstores := pass_stores registry hchunk hcollect hcounts (by omega)
        rw [collectable_of_chunk hchunk hu, ← hchunks]
        have hin : u.StoresOrThrows chunk := MessageUnchunker.storesOrThrows_iff.mpr fun _ => hlt
        generalize hpass : pass registry delivery mUnchunkers = result at hstores
        cases hstores with
        | waits hall =>
          rw [lawful_of_unchanged hchunk hu fun e' m' h => by cases hpass.symm.trans h]
          refine (and_iff_left fun _ _ hyes => ?_).symm
          rw [hall] at hyes
          cases hyes
        | restores hall hrestorable env =>
          rw [lawful_of_unchanged hchunk hu fun e' m' h => by cases hpass.symm.trans h]
          exact (and_iff_left fun _ _ _ => hrestorable).symm
        | fails hall hrestorable e =>
          -- the entry stays in the map with all of its chunks
          exact iff_of_false (not_lawful_of_inserted hu hcount hpass)
            fun h => hrestorable (h.2 hmatch hslot hall)

/-! ## Any sequence of deliveries -/

theorem Counted.insert (h : Counted mUnchunkers) (hu : u'.Counts) (id : UUID) :
    Counted (mUnchunkers.insert id u') := by
  intro id' u hentry
  rw [Std.TreeMap.getElem?_insert] at hentry
  split at hentry
  · cases hentry
    exact hu
  · exact h id' u hentry

theorem Counted.erase (h : Counted mUnchunkers) (id : UUID) : Counted (mUnchunkers.erase id) := by
  intro id' u hentry
  rw [Std.TreeMap.getElem?_erase] at hentry
  split at hentry
  · cases hentry
  · exact h id' u hentry

theorem Counted.pass (h : Counted mUnchunkers) (registry : ContentRegistry) (delivery : Delivery) :
    Counted (pass registry delivery mUnchunkers).2 := by
  cases hchunk : receivedChunk delivery with
  | none =>
    rw [pass_of_none hchunk]
    exact h
  | some chunk =>
    cases hcollect : collect mUnchunkers chunk with
    | error e =>
      rw [pass_of_collect_error registry hchunk hcollect]
      exact h
    | ok u' =>
      obtain ⟨u, hu⟩ := exists_unchunkerOf hcollect
      have hadd := MessageUnchunker.addChunk_adds u chunk
      rw [← collect_of_unchunkerOf hu, hcollect] at hadd
      cases hadd with
      | stored _ hmatch hslot hnum hcount hchunks =>
        have hlt := MessageUnchunker.lt_mNumChunks_of_getElem? hslot
        have hcounts := (h.unchunkerOf hu).stored hslot hcount hchunks
        have hstores := pass_stores registry hchunk hcollect hcounts (by omega)
        generalize Chunking.pass registry delivery mUnchunkers = result at hstores
        cases hstores with
        | waits | fails => exact h.insert hcounts _
        | restores => exact (h.insert hcounts _).erase _

/-- Along any sequence of deliveries every pass does what is asked of it if and only
    if every chunk can be collected. -/
theorem lawful_iff_collectable (registry : ContentRegistry) (deliveries : List Delivery) :
    (endpoint registry).RunWhen (Lawful registry) ∅ deliveries ↔
      (endpoint registry).RunWhen (Collectable registry) ∅ deliveries := by
  refine Machine.runWhen_iff (I := Counted) (E := fun _ _ => True)
    (fun m delivery hcounted _ => lawful_iff hcounted) ?_ ?_ ?_
  · intro m delivery r m' hcounted _ _ hstep
    have hpass : pass registry delivery m = (r, m') := by
      simp only [endpoint] at hstep
      split at hstep
      · cases hstep
      · exact Option.some.inj hstep
    have hnext := hcounted.pass registry delivery
    rwa [hpass] at hnext
  · intro id u hentry
    rw [Std.TreeMap.getElem?_emptyc] at hentry
    cases hentry
  · exact Machine.runWhen_true _ _ _

/-- A chunk that says it is the second of one. -/
def secondOfOne : MessageChunk where
  mNumberOfChunks := 1
  mChunkIndex := 1
  mOffset := 0
  mUnchunkedSize := 0
  internalId := UUID.null
  internalRoutingName := []
  internalInstanceId := UUID.null
  internalOriginId := UUID.null
  internalClassVersion := 0

/-- It is looked up behind the end of the vector. -/
theorem not_forall_pass_lawful : ¬ ∀ (registry : ContentRegistry) (deliveries : List Delivery),
    (endpoint registry).RunWhen (Lawful registry) ∅ deliveries := by
  intro h
  obtain ⟨hlawful, -⟩ := h (fun _ _ => none)
    [.ok { mContent := some (.objectContent (.ofMessageChunk secondOfOne)), mMetadata := none }]
  have hnew : unchunkerOf ∅ secondOfOne = some (.empty secondOfOne) := by
    rw [unchunkerOf, Std.TreeMap.getElem?_emptyc]
    rfl
  exact hlawful.stores secondOfOne (.empty secondOfOne) rfl hnew rfl

end Arras4Core.Chunking
