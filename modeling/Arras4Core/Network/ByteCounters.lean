/-
  Arras4Core.Network.ByteCounters

  The counters `bytesRead()` and `bytesWritten()` of a `SocketPeer`, over any
  sequence of calls.  The counter of the bytes read is exact.  That of the bytes
  written is not: the plain path of `send` adds the byte count after its loop has
  brought it down to zero, and the encrypted path adds it when the write failed.

  Between two calls anything but the counters may change: other members start the
  encryption or shut the socket down, and the remote end sends and takes bytes.
-/

import Arras4Core.Lib.System
import Arras4Core.Network.SocketPeer

namespace Arras4Core.Network

open Arras4Core.Lib
open Arras4Core.Api (Exception)

namespace Receiving

/-! ## `receive_all` with a timeout -/

/-- What `poll(true, read_status, false, write_status, remainingTimeoutMs)` comes
    to: something to read, nothing in time, or an exception. -/
inductive PollResult
  | ready
  | expired
  | threw (e : Exception)

/-- `SocketPeer::poll` as `receive_all` calls it: the `read_status`. -/
def poll (result : PollResult) : EStateM Stop Receiving Bool := fun s =>
  if s.peer.mIsListening then
    .error (.threw (.invalidParameterError "Attempted polling socket which is listening")) s
  else
    match result with
    | .ready => .ok true s
    | .expired => .ok false s
    | .threw e => .error (.threw e) s

/-- The loop of `receive_all` with a positive timeout, which polls before each
    `receive`. -/
def receiveTimedLoop (nBytesToRead : Nat) :
    List PollResult → Nat → Nat → EStateM Stop Receiving Bool
  | _, _, 0 => return true
  | [], _, _ + 1 => throw .waiting
  | result :: polls, offset, nBytes + 1 => do
    let read_status ← poll result
    if read_status then
      let status ← receiveStatus offset (nBytes + 1)
      if status = 0 then
        if nBytes + 1 = nBytesToRead then return false
        else throw (.threw .peerDisconnectException)
      else receiveTimedLoop nBytesToRead polls (offset + status) (nBytes + 1 - status)
    else throw (.threw (.peerException "SocketPeer::receive_all: Timeout expire"))

/-- `SocketPeer::receive_all` with a timeout. -/
def receiveAllTimed (nBytesToRead : Nat) (polls : List PollResult) : EStateM Stop Receiving Bool :=
  receiveTimedLoop nBytesToRead polls 0 nBytesToRead

/-! ## What a call does to the counters -/

/-- The bytes that left the stream were added to the bytes read, and the bytes
    written are the same. -/
def Delivers (s s' : Receiving) : Prop :=
  ∃ n, s.peer.incoming.length = n + s'.peer.incoming.length ∧
    s'.peer.mBytesRead = s.peer.mBytesRead + UInt64.ofNat n ∧
    s'.peer.mBytesWritten = s.peer.mBytesWritten

theorem Delivers.refl (s : Receiving) : Delivers s s :=
  ⟨0, (Nat.zero_add _).symm, (UInt64.add_zero _).symm, rfl⟩

theorem Delivers.trans {s₁ s₂ s₃ : Receiving} (h₁ : Delivers s₁ s₂) (h₂ : Delivers s₂ s₃) :
    Delivers s₁ s₃ := by
  obtain ⟨m, hm, hreadm, hwrittenm⟩ := h₁
  obtain ⟨n, hn, hreadn, hwrittenn⟩ := h₂
  refine ⟨m + n, by omega, ?_, hwrittenn.trans hwrittenm⟩
  rw [hreadn, hreadm, UInt64.ofNat_add, UInt64.add_assoc]

theorem length_take_add_length_drop (data : Bytes) (count : Nat) :
    data.length = (data.take count).length + (data.drop (data.take count).length).length := by
  rw [← List.length_append, take_append_drop_length]

theorem receivePlain_delivers (offset nBytes : Nat) {s : Receiving}
    (henc : s.peer.mEncryption = none) :
    Delivers s (stateOf (receivePlain offset nBytes s)) := by
  cases hresults : ignoreInterrupts s.peer.mSocket.results with
  | none =>
    rw [receivePlain, bind_of_error (s := s) (by rw [recvIgnoreInterrupts, hresults])]
    exact .refl s
  | some answer =>
    obtain ⟨r, rest⟩ := answer
    cases r with
    | error error =>
      rw [receivePlain, bind_of_ok (s := s) (by rw [recvIgnoreInterrupts, hresults])]
      refine ⟨0, ?_, (UInt64.add_zero _).symm, rfl⟩
      simp only [stateOf, SocketPeer.incoming, henc, Nat.zero_add]
      rfl
    | ok count =>
      rw [receivePlain, bind_of_ok (s := s) (by rw [recvIgnoreInterrupts, hresults])]
      refine ⟨(s.peer.mSocket.incoming.take (min count nBytes)).length, ?_, rfl, rfl⟩
      show (s.peer.incoming).length = _ + (SocketPeer.incoming _).length
      simp only [SocketPeer.incoming, henc]
      exact length_take_add_length_drop _ _

theorem receiveEncrypted_delivers (offset nBytes : Nat) {s : Receiving} {encryption : EncryptState}
    (henc : s.peer.mEncryption = some encryption) :
    Delivers s (stateOf (receiveEncrypted encryption offset nBytes s)) := by
  cases hreads : encryption.reads with
  | nil =>
    rw [receiveEncrypted, bind_of_error (s := s) (by rw [encryptedRead, hreads])]
    exact .refl s
  | cons result reads =>
    cases result with
    | error what =>
      rw [receiveEncrypted, bind_of_ok (s := s) (by rw [encryptedRead, hreads])]
      refine ⟨0, ?_, (UInt64.add_zero _).symm, rfl⟩
      simp only [SocketPeer.incoming, henc, Nat.zero_add]
      rfl
    | ok read =>
      cases read with
      | none =>
        rw [receiveEncrypted, bind_of_ok (s := s) (by rw [encryptedRead, hreads])]
        refine ⟨0, ?_, (UInt64.add_zero _).symm, rfl⟩
        simp only [SocketPeer.incoming, henc, Nat.zero_add]
        rfl
      | some count =>
        rw [receiveEncrypted, bind_of_ok (s := s) (by rw [encryptedRead, hreads])]
        refine ⟨(encryption.incoming.take (min count nBytes)).length, ?_, rfl, rfl⟩
        show (s.peer.incoming).length = _ + (SocketPeer.incoming _).length
        simp only [SocketPeer.incoming, henc]
        exact length_take_add_length_drop _ _

/-- `receive` counts what it takes. -/
theorem receive_delivers (offset nBytes : Nat) (s : Receiving) :
    Delivers s (stateOf (receive offset nBytes s)) := by
  unfold receive
  split
  · exact .refl s
  · split
    · exact .refl s
    · split
      · exact .refl s
      · cases henc : s.peer.mEncryption with
        | none => exact receivePlain_delivers offset nBytes henc
        | some encryption => exact receiveEncrypted_delivers offset nBytes henc

theorem receiveStatus_delivers (offset nBytes : Nat) (s : Receiving) :
    Delivers s (stateOf (receiveStatus offset nBytes s)) := by
  rw [receiveStatus]
  refine stateOf_bind (R := Delivers) Delivers.trans ?_ fun r s' _ => ?_
  · rw [stateOf_attempt]
    exact receive_delivers offset nBytes s
  · cases catchDisconnect r <;> exact .refl s'

theorem receiveLoop_delivers (nBytesToRead offset nBytes : Nat) (s : Receiving) :
    Delivers s (stateOf (receiveLoop nBytesToRead offset nBytes s)) := by
  induction nBytes using Nat.strongRecOn generalizing offset s with
  | ind nBytes ih =>
    rw [receiveLoop]
    split
    · exact .refl s
    · refine stateOf_bind (R := Delivers) Delivers.trans (receiveStatus_delivers offset nBytes s)
        fun status s' _ => ?_
      split
      · split <;> exact .refl s'
      · exact ih (nBytes - status) (by omega) (offset + status) s'

theorem poll_delivers (result : PollResult) (s : Receiving) :
    Delivers s (stateOf (poll result s)) := by
  unfold poll
  split
  · exact .refl s
  · cases result <;> exact .refl s

theorem receiveTimedLoop_delivers (nBytesToRead : Nat) (polls : List PollResult)
    (offset nBytes : Nat) (s : Receiving) :
    Delivers s (stateOf (receiveTimedLoop nBytesToRead polls offset nBytes s)) := by
  induction polls generalizing offset nBytes s with
  | nil => cases nBytes <;> exact .refl s
  | cons result polls ih =>
    cases nBytes with
    | zero => exact .refl s
    | succ nBytes =>
      rw [receiveTimedLoop]
      refine stateOf_bind (R := Delivers) Delivers.trans (poll_delivers result s)
        fun read_status s₁ _ => ?_
      split
      · refine stateOf_bind (R := Delivers) Delivers.trans
          (receiveStatus_delivers offset (nBytes + 1) s₁)
          fun status s₂ _ => ?_
        split
        · split <;> exact .refl s₂
        · exact ih (offset + status) (nBytes + 1 - status) s₂
      · exact .refl s₁

end Receiving

namespace SocketPeer

/-! ## What `send` adds -/

/-- The socket takes `nBytes` bytes, in as many parts as its results say. -/
def takesAll : List SocketResult → Nat → Bool
  | _, 0 => true
  | [], _ + 1 => false
  | .interrupted :: results, nBytes + 1 => takesAll results (nBytes + 1)
  | .failed _ :: _, _ + 1 => false
  | .transferred count :: results, nBytes + 1 =>
    0 < count && takesAll results (nBytes + 1 - min count (nBytes + 1))

/-- A call of `send` returned true. -/
def returnedTrue : EStateM.Result Stop SocketPeer Bool → Bool
  | .ok rtn _ => rtn
  | .error _ _ => false

theorem takesAll_ignoreInterrupts {results : List SocketResult} {nBytes : Nat} (hpos : nBytes ≠ 0) :
    takesAll results nBytes =
      match ignoreInterrupts results with
      | some (.ok count, rest) => 0 < count && takesAll rest (nBytes - min count nBytes)
      | _ => false := by
  obtain ⟨nBytes, rfl⟩ := Nat.exists_eq_add_one.mpr (Nat.pos_of_ne_zero hpos)
  induction results with
  | nil => rfl
  | cons result results ih =>
    cases result with
    | transferred count => rfl
    | interrupted => exact ih
    | failed error => rfl

/-- The plain path returns true where the socket takes everything; it never
    changes the counters. -/
theorem sendLoop_counts (data : Bytes) (offset nBytes : Nat) (peer : SocketPeer) :
    returnedTrue (sendLoop data offset nBytes peer) = takesAll peer.mSocket.results nBytes ∧
      (stateOf (sendLoop data offset nBytes peer)).mBytesWritten = peer.mBytesWritten ∧
      (stateOf (sendLoop data offset nBytes peer)).mBytesRead = peer.mBytesRead := by
  induction nBytes using Nat.strongRecOn generalizing offset peer with
  | ind nBytes ih =>
    rw [sendLoop]
    split
    · next hzero =>
      subst hzero
      refine ⟨?_, ?_, rfl⟩
      · rw [takesAll]
        rfl
      · exact UInt64.add_zero _
    · next hpos =>
      rw [takesAll_ignoreInterrupts hpos]
      cases hresults : ignoreInterrupts peer.mSocket.results with
      | none =>
        rw [bind_of_error (s := peer) (by rw [sendIgnoreInterrupts, hresults])]
        exact ⟨rfl, rfl, rfl⟩
      | some answer =>
        obtain ⟨r, rest⟩ := answer
        cases r with
        | error error =>
          rw [bind_of_ok (s := peer) (by rw [sendIgnoreInterrupts, hresults])]
          exact ⟨rfl, rfl, rfl⟩
        | ok count =>
          rw [bind_of_ok (s := peer) (by rw [sendIgnoreInterrupts, hresults])]
          by_cases hnothing : min count nBytes = 0
          · -- the remote end takes no more
            have hcount : ¬0 < count := by omega
            have hfalse : (decide (0 < count) && takesAll rest (nBytes - min count nBytes))
                = false := by
              rw [decide_eq_false hcount, Bool.false_and]
            simp only [hfalse, dif_pos hnothing]
            split <;> exact ⟨rfl, rfl, rfl⟩
          · have hcount : 0 < count := by omega
            have hrest : (decide (0 < count) && takesAll rest (nBytes - min count nBytes))
                = takesAll rest (nBytes - min count nBytes) := by
              rw [decide_eq_true hcount, Bool.true_and]
            simp only [hrest, dif_neg hnothing]
            exact ih (nBytes - min count nBytes) (by omega) _ _

/-- What the encrypted path adds: the byte count, once the write has returned. -/
theorem sendEncrypted_counts (encryption : EncryptState) (nBytes : Nat) (peer : SocketPeer) :
    returnedTrue (sendEncrypted encryption nBytes peer)
        = (encryption.writes.head? = some (.ok true) : Bool) ∧
      (stateOf (sendEncrypted encryption nBytes peer)).mBytesWritten = peer.mBytesWritten +
        (match encryption.writes.head? with
          | some (.ok _) => UInt64.ofNat nBytes
          | _ => 0) ∧
      (stateOf (sendEncrypted encryption nBytes peer)).mBytesRead = peer.mBytesRead := by
  cases hwrites : encryption.writes with
  | nil =>
    rw [sendEncrypted, bind_of_error (s := peer) (by rw [encryptedWrite, hwrites])]
    exact ⟨rfl, (UInt64.add_zero _).symm, rfl⟩
  | cons result writes =>
    rw [sendEncrypted, bind_of_ok (s := peer) (by rw [encryptedWrite, hwrites])]
    cases result with
    | error what => exact ⟨rfl, (UInt64.add_zero _).symm, rfl⟩
    | ok written => cases written <;> exact ⟨rfl, rfl, rfl⟩

/-- What a call of `send` adds to the counter is what it should add: the byte
    count where it returns true, and nothing elsewhere. -/
def SendCounted (peer : SocketPeer) (data : Option Bytes) (nBytes : Nat) : Prop :=
  nBytes = 0 ∨ data.isNone ∨ peer.mIsListening ∨
    match peer.mEncryption with
    | some encryption => encryption.writes.head? ≠ some (.ok false)
    | none => takesAll peer.mSocket.results nBytes = false

theorem send_bytesRead (data : Option Bytes) (nBytes : Nat) (peer : SocketPeer) :
    (stateOf (send data nBytes peer)).mBytesRead = peer.mBytesRead := by
  unfold send
  split
  · rfl
  · cases data with
    | none => rfl
    | some data =>
      by_cases hlistening : peer.mIsListening
      · simp only [if_pos hlistening]
        rfl
      · simp only [if_neg hlistening]
        cases peer.mEncryption with
        | none => exact (sendLoop_counts data 0 nBytes peer).2.2
        | some encryption => exact (sendEncrypted_counts _ nBytes _).2.2

/-- A call of `send` that reaches one of the two paths. -/
theorem send_eq {nBytes : Nat} (hpos : nBytes ≠ 0) (data : Bytes) {peer : SocketPeer}
    (hlistening : ¬peer.mIsListening) :
    send (some data) nBytes peer =
      match peer.mEncryption with
      | some encryption => sendEncrypted encryption nBytes peer
      | none => sendLoop data 0 nBytes peer := by
  rw [send, if_neg hpos]
  refine (if_neg hlistening).trans ?_
  cases peer.mEncryption <;> rfl

/-- A call adds what it should exactly if neither path goes wrong. -/
theorem send_bytesWritten_iff (data : Option Bytes) {nBytes : Nat} (hsize : nBytes < 2 ^ 64)
    (peer : SocketPeer) :
    (stateOf (send data nBytes peer)).mBytesWritten = peer.mBytesWritten +
        (if returnedTrue (send data nBytes peer) then UInt64.ofNat nBytes else 0) ↔
      SendCounted peer data nBytes := by
  rw [SendCounted]
  by_cases hzero : nBytes = 0
  · subst hzero
    exact iff_of_true (UInt64.add_zero _).symm (Or.inl rfl)
  · have hne : UInt64.ofNat nBytes ≠ 0 := by
      intro heq
      have := congrArg UInt64.toNat heq
      rw [UInt64.toNat_ofNat_of_lt' hsize] at this
      exact hzero this
    cases data with
    | none =>
      rw [send, if_neg hzero]
      exact iff_of_true (UInt64.add_zero _).symm (Or.inr (Or.inl rfl))
    | some data =>
      by_cases hlistening : peer.mIsListening
      · rw [send, if_neg hzero]
        simp only [if_pos hlistening]
        exact iff_of_true (UInt64.add_zero _).symm (Or.inr (Or.inr (Or.inl hlistening)))
      · rw [send_eq hzero data hlistening]
        simp only [hzero, hlistening, Option.isNone_some, Bool.false_eq_true, false_or]
        cases peer.mEncryption with
        | none =>
          obtain ⟨hreturned, hwritten, -⟩ := sendLoop_counts data 0 nBytes peer
          simp only [hreturned, hwritten]
          cases takesAll peer.mSocket.results nBytes with
          | true =>
            -- nothing was added for bytes that were sent
            exact iff_of_false (fun heq => hne (UInt64.left_eq_add.mp heq)) Bool.noConfusion
          | false => exact iff_of_true (UInt64.add_zero _).symm rfl
        | some encryption =>
          obtain ⟨hreturned, hwritten, -⟩ := sendEncrypted_counts encryption nBytes peer
          simp only [hreturned, hwritten]
          cases encryption.writes.head? with
          | none => exact iff_of_true rfl (by simp)
          | some result =>
            cases result with
            | error what => exact iff_of_true rfl (by simp)
            | ok written =>
              cases written with
              | true => exact iff_of_true rfl (by simp)
              | false =>
                -- the bytes of a write that failed were added
                refine iff_of_false (fun heq => hne ?_) (fun h => h rfl)
                exact UInt64.add_eq_left.mp (heq.trans (UInt64.add_zero _))

end SocketPeer

/-! ## Sequences of calls -/

/-- A peer with the number of bytes that its calls of `send` returned true for, and
    of those that its calls of `receive` and `receive_all` delivered. -/
structure Transfers where
  peer : SocketPeer
  sent : Nat := 0
  delivered : Nat := 0

inductive PeerCall
  | send (data : Option Bytes) (nBytes : UInt64)
  | receive (buffer : Option Bytes) (nMaxBytesToRead : UInt64)
  | receiveAll (buffer : Option Bytes) (nBytesToRead : UInt64)
  | receiveAllTimed (buffer : Option Bytes) (nBytesToRead : UInt64)
      (polls : List Receiving.PollResult)
  /-- what other members and the remote end change between two calls -/
  | other (mSocket : Socket) (mEncryption : Option EncryptState) (mIsListening : Bool)

namespace Transfers

/-- The bytes that are delivered are those that leave the stream. -/
def received (s : Transfers) (s' : Receiving) : Transfers :=
  { s with
    peer := s'.peer
    delivered := s.delivered + (s.peer.incoming.length - s'.peer.incoming.length) }

def call (s : Transfers) : PeerCall → Transfers
  | .send data nBytes =>
    let result := SocketPeer.send data nBytes.toNat s.peer
    { s with
      peer := stateOf result
      sent := s.sent + if SocketPeer.returnedTrue result then nBytes.toNat else 0 }
  | .receive buffer nMaxBytesToRead =>
    s.received (stateOf (Receiving.receive 0 nMaxBytesToRead.toNat ⟨s.peer, buffer⟩))
  | .receiveAll buffer nBytesToRead =>
    s.received (stateOf (Receiving.receiveAll nBytesToRead.toNat ⟨s.peer, buffer⟩))
  | .receiveAllTimed buffer nBytesToRead polls =>
    s.received (stateOf (Receiving.receiveAllTimed nBytesToRead.toNat polls ⟨s.peer, buffer⟩))
  | .other mSocket mEncryption mIsListening =>
    { s with peer := { s.peer with mSocket, mEncryption, mIsListening } }

/-- A new peer, and any calls. -/
def system : System Transfers PeerCall where
  init s := s.peer.mBytesRead = 0 ∧ s.peer.mBytesWritten = 0 ∧ s.sent = 0 ∧ s.delivered = 0
  step s call := some (s.call call)

/-- `bytesRead()`, up to the range of its type, is what was delivered. -/
def ReadExact (s : Transfers) : Prop := s.peer.mBytesRead = UInt64.ofNat s.delivered

/-- `bytesWritten()` is what was sent. -/
def WrittenExact (s : Transfers) : Prop := s.peer.mBytesWritten = UInt64.ofNat s.sent

/-- A step, if it is a call of `send`, counts what it sends. -/
def SendsCounted (s : Transfers) : PeerCall → Prop
  | .send data nBytes => s.peer.SendCounted data nBytes.toNat
  | _ => True

theorem received_readExact {s : Transfers} {buffer : Option Bytes} {s' : Receiving}
    (h : s.ReadExact) (hs : Receiving.Delivers ⟨s.peer, buffer⟩ s') :
    (s.received s').ReadExact := by
  obtain ⟨n, hn, hread, -⟩ := hs
  have hn : s.peer.incoming.length = n + s'.peer.incoming.length := hn
  have hdelivered : s.peer.incoming.length - s'.peer.incoming.length = n := by omega
  rw [ReadExact, received, hdelivered, UInt64.ofNat_add, ← h]
  exact hread

theorem received_writtenExact {s : Transfers} {buffer : Option Bytes} {s' : Receiving}
    (h : s.WrittenExact) (hs : Receiving.Delivers ⟨s.peer, buffer⟩ s') :
    (s.received s').WrittenExact := by
  obtain ⟨n, -, -, hwritten⟩ := hs
  exact hwritten.trans h

theorem readExact_call {s : Transfers} (h : s.ReadExact) (call : PeerCall) :
    (s.call call).ReadExact := by
  cases call with
  | send data nBytes => exact (SocketPeer.send_bytesRead data nBytes.toNat s.peer).trans h
  | receive buffer n => exact received_readExact h (Receiving.receive_delivers 0 _ _)
  | receiveAll buffer n => exact received_readExact h (Receiving.receiveLoop_delivers _ 0 _ _)
  | receiveAllTimed buffer n polls =>
    exact received_readExact h (Receiving.receiveTimedLoop_delivers _ polls 0 _ _)
  | other => exact h

theorem writtenExact_call {s : Transfers} (h : s.WrittenExact) {call : PeerCall}
    (hcall : s.SendsCounted call) : (s.call call).WrittenExact := by
  cases call with
  | send data nBytes =>
    have hsend := (SocketPeer.send_bytesWritten_iff data nBytes.toNat_lt s.peer).mpr hcall
    rw [WrittenExact, Transfers.call]
    refine hsend.trans ?_
    rw [UInt64.ofNat_add, ← h]
    split <;> rfl
  | receive buffer n => exact received_writtenExact h (Receiving.receive_delivers 0 _ _)
  | receiveAll buffer n => exact received_writtenExact h (Receiving.receiveLoop_delivers _ 0 _ _)
  | receiveAllTimed buffer n polls =>
    exact received_writtenExact h (Receiving.receiveTimedLoop_delivers _ polls 0 _ _)
  | other => exact h

/-- The bytes read are counted in every run. -/
theorem readExact_of_reachable {C : Transfers → PeerCall → Prop} {s : Transfers}
    (h : system.ReachableWhen C s) : s.ReadExact := by
  refine h.invariant (fun s hs => ?_) fun s e s' hI _ hs => ?_
  · rw [ReadExact, hs.1, hs.2.2.2]
    rfl
  · cases hs
    exact readExact_call hI e

/-- Both counters are exact in every state of a run in which each `send` counts
    what it sends. -/
theorem countersExact_of_sendsCounted {s : Transfers} (h : system.ReachableWhen SendsCounted s) :
    s.ReadExact ∧ s.WrittenExact := by
  refine ⟨readExact_of_reachable h, h.invariant (fun s hs => ?_) fun s e s' hI hC hs => ?_⟩
  · rw [WrittenExact, hs.2.1, hs.2.2.1]
    rfl
  · cases hs
    exact writtenExact_call hI hC

/-- An encryption module that takes what it is given, and has two bytes to read. -/
def encrypted : Transfers where
  peer :=
    { mSocket := { incoming := [], handedOver := [], results := [] }
      mEncryption := some
        { incoming := [7, 8], reads := [.ok (some 9)], writes := [.ok true] }
      mIsListening := false
      mBytesRead := 0
      mBytesWritten := 0 }

theorem countersExact_encrypted :
    ∃ s, system.ReachableWhen SendsCounted s ∧ s.sent = 3 ∧ s.delivered = 2 ∧
      s.ReadExact ∧ s.WrittenExact := by
  have hinit : system.init encrypted := ⟨rfl, rfl, rfl, rfl⟩
  have hwrite : (some (.ok true) : Option (Except String Bool)) ≠ some (.ok false) := by simp
  have hsend : encrypted.SendsCounted (.send (some [1, 2, 3]) 3) :=
    Or.inr (Or.inr (Or.inr hwrite))
  have hreachable : system.ReachableWhen SendsCounted
      ((encrypted.call (.send (some [1, 2, 3]) 3)).call (.receive (some [0, 0, 0, 0]) 4)) :=
    .next (e := .receive (some [0, 0, 0, 0]) 4) (.next (.init hinit) hsend rfl) trivial rfl
  exact ⟨_, hreachable, rfl, rfl, countersExact_of_sendsCounted hreachable⟩

/-- A plain `send` of three bytes that returns true is not counted. -/
theorem writtenExact_inTwoParts :
    ∃ s, system.Reachable s ∧ s.sent = 3 ∧ s.peer.mBytesWritten = 0 ∧ ¬s.WrittenExact := by
  have hinit : system.init { peer := SocketPeer.inTwoParts } := ⟨rfl, rfl, rfl, rfl⟩
  obtain ⟨hreturned, hwritten, -⟩ :=
    SocketPeer.sendLoop_counts [1, 2, 3] 0 3 SocketPeer.inTwoParts
  have htakes : SocketPeer.takesAll SocketPeer.inTwoParts.mSocket.results 3 = true := by decide
  rw [htakes] at hreturned
  have hsent : (call { peer := SocketPeer.inTwoParts } (.send (some [1, 2, 3]) 3)).sent = 3 := by
    show 0 + (if SocketPeer.returnedTrue (SocketPeer.sendLoop [1, 2, 3] 0 3 SocketPeer.inTwoParts)
      then 3 else 0) = 3
    rw [hreturned]
    rfl
  refine ⟨_, .next (e := .send (some [1, 2, 3]) 3) (.init hinit) trivial rfl, hsent, hwritten,
    fun hexact => ?_⟩
  rw [WrittenExact, hsent] at hexact
  have hzero : (0 : UInt64) = UInt64.ofNat 3 := hwritten.symm.trans hexact
  cases hzero

end Transfers

end Arras4Core.Network
