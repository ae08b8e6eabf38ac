/-
  Arras4Core.Network.SocketPeer

  Sending and receiving on a socket.  What the system calls (and the encryption
  module's `read` and `write`) come to is given as a list, in the order they are
  made; a call for which the list has nothing left is still waiting.
  `receive_all` is modelled without a timeout.  Main result:
  `transfers_allOrNothing`.
-/

import Arras4Core.Api.Exception
import Arras4Core.Lib.Call
import Arras4Core.Network.Buffer

namespace Arras4Core.Network

open Arras4Core.Lib
open Arras4Core.Api (Exception)

/-! ## System calls -/

/-- What one `::recv` or `::send` comes to. -/
inductive SocketResult
  /-- This many bytes, or as many of them as were asked for and can be had. -/
  | transferred (count : Nat)
  /-- `EINTR` -/
  | interrupted
  /-- Any other error, with its `getErrorString`. -/
  | failed (error : String)
  deriving DecidableEq

/-- The `do .. while` of `recv_ignore_interrupts` and `send_ignore_interrupts`:
    the first result that is not `EINTR`, and the results after it. -/
def ignoreInterrupts : List SocketResult → Option (Except String Nat × List SocketResult)
  | [] => none
  | .transferred count :: results => some (.ok count, results)
  | .interrupted :: results => ignoreInterrupts results
  | .failed error :: results => some (.error error, results)

/-- The results that end the `do .. while`. -/
def answersIn (results : List SocketResult) : Nat := results.countP (· ≠ .interrupted)

theorem ignoreInterrupts_none {results : List SocketResult} (h : ignoreInterrupts results = none) :
    answersIn results = 0 := by
  induction results with
  | nil => rfl
  | cons result results ih =>
    cases result with
    | transferred count => cases h
    | interrupted =>
      rw [answersIn, List.countP_cons_of_neg (by decide)]
      exact ih h
    | failed error => cases h

theorem ignoreInterrupts_some {results rest : List SocketResult} {r : Except String Nat}
    (h : ignoreInterrupts results = some (r, rest)) : answersIn results = answersIn rest + 1 := by
  induction results with
  | nil => cases h
  | cons result results ih =>
    cases result with
    | transferred count =>
      cases h
      rw [answersIn, List.countP_cons_of_pos (by simp)]
      rfl
    | interrupted =>
      rw [answersIn, List.countP_cons_of_neg (by decide)]
      exact ih h
    | failed error =>
      cases h
      rw [answersIn, List.countP_cons_of_pos (by simp)]
      rfl

/-- A socket: the bytes still to come, the bytes handed over so far, and what
    the next calls come to. -/
structure Socket where
  incoming : Bytes
  handedOver : Bytes
  results : List SocketResult

/-- `network::EncryptState`, the encryption module of a connection: the decrypted
    bytes still to come, and what the next `read`s (a count, none when it is
    negative, or an `EncryptException`) and `write`s come to. -/
structure EncryptState where
  incoming : Bytes
  reads : List (Except String (Option Nat))
  writes : List (Except String Bool)

/-- `network::SocketPeer` -/
structure SocketPeer where
  mSocket : Socket
  mEncryption : Option EncryptState
  mIsListening : Bool
  mBytesRead : UInt64
  mBytesWritten : UInt64

/-- Why a call does not return. -/
inductive Stop
  | threw (e : Exception)
  | waiting

namespace SocketPeer

/-- The stream that `receive` takes from. -/
def incoming (peer : SocketPeer) : Bytes :=
  match peer.mEncryption with
  | some encryption => encryption.incoming
  | none => peer.mSocket.incoming

/-- The results left that are not `EINTR`. -/
def answersLeft (peer : SocketPeer) : Nat :=
  match peer.mEncryption with
  | some encryption => encryption.reads.length
  | none => answersIn peer.mSocket.results

/-! ## Sending -/

/-- `send_ignore_interrupts`, given the bytes from the pointer on. -/
def sendIgnoreInterrupts (data : Bytes) (len : Nat) : EStateM Stop SocketPeer (Except String Nat) :=
  fun peer =>
    match ignoreInterrupts peer.mSocket.results with
    | none => .error .waiting peer
    | some (.error error, results) =>
      .ok (.error error) { peer with mSocket := { peer.mSocket with results } }
    | some (.ok count, results) =>
      .ok (.ok (min count len))
        { peer with
          mSocket :=
            { peer.mSocket with
              handedOver := peer.mSocket.handedOver ++ data.take (min count len)
              results } }

/-- `EncryptState::write` -/
def encryptedWrite (encryption : EncryptState) : EStateM Stop SocketPeer (Except String Bool) :=
  fun peer =>
    match encryption.writes with
    | [] => .error .waiting peer
    | result :: writes => .ok result { peer with mEncryption := some { encryption with writes } }

def sendLoop (data : Bytes) (offset nBytes : Nat) : EStateM Stop SocketPeer Bool :=
  if _hn : nBytes = 0 then do
    -- `mBytesWritten += nBytes`, of which nothing is left by now
    modify fun peer => { peer with mBytesWritten := peer.mBytesWritten + UInt64.ofNat nBytes }
    return true
  else do
    match ← sendIgnoreInterrupts (data.drop offset) nBytes with
    | .error error => throw (.threw (.peerException ("SocketPeer::send: " ++ error)))
    | .ok status =>
      if _hs : status = 0 then
        if offset = 0 then return false
        else throw (.threw .peerDisconnectException)
      else sendLoop data (offset + status) (nBytes - status)
termination_by nBytes
decreasing_by omega

/-- The rest of `send` when there is an encryption object. -/
def sendEncrypted (encryption : EncryptState) (nBytes : Nat) : EStateM Stop SocketPeer Bool := do
  match ← encryptedWrite encryption with
  | .error what => throw (.threw (.peerException what))
  | .ok rtn =>
    modify fun peer => { peer with mBytesWritten := peer.mBytesWritten + UInt64.ofNat nBytes }
    return rtn

/-- `SocketPeer::send`; `data` is none for a null pointer. -/
def send (data : Option Bytes) (nBytes : Nat) : EStateM Stop SocketPeer Bool := fun peer =>
  if nBytes = 0 then .ok true peer
  else
    match data with
    | none =>
      .error (.threw (.invalidParameterError "SocketPeer::send invalid null data ptr")) peer
    | some data =>
      if peer.mIsListening then
        .error (.threw (.invalidParameterError "SocketPeer::send on an listening socket")) peer
      else
        match peer.mEncryption with
        | some encryption => sendEncrypted encryption nBytes peer
        | none => sendLoop data 0 nBytes peer

end SocketPeer

/-! ## Receiving -/

/-- A peer, and the memory at `buffer`: none for a null pointer. -/
structure Receiving where
  peer : SocketPeer
  buffer : Option Bytes

namespace Receiving

/-- Put bytes into the buffer. -/
def storeAt (offset : Nat) (data : Bytes) (buffer : Bytes) : Bytes :=
  buffer.take offset ++ data ++ buffer.drop (offset + data.length)

/-- `recv_ignore_interrupts` -/
def recvIgnoreInterrupts (offset len : Nat) : EStateM Stop Receiving (Except String Nat) :=
  fun s =>
    match ignoreInterrupts s.peer.mSocket.results with
    | none => .error .waiting s
    | some (.error error, results) =>
      .ok (.error error)
        { s with peer := { s.peer with mSocket := { s.peer.mSocket with results } } }
    | some (.ok count, results) =>
      let data := s.peer.mSocket.incoming.take (min count len)
      .ok (.ok data.length)
        { peer :=
            { s.peer with
              mSocket :=
                { s.peer.mSocket with
                  incoming := s.peer.mSocket.incoming.drop data.length
                  results } }
          buffer := s.buffer.map (storeAt offset data) }

/-- `EncryptState::read` -/
def encryptedRead (encryption : EncryptState) (offset len : Nat) :
    EStateM Stop Receiving (Except String (Option Nat)) := fun s =>
  match encryption.reads with
  | [] => .error .waiting s
  | .error what :: reads =>
    .ok (.error what)
      { s with peer := { s.peer with mEncryption := some { encryption with reads } } }
  | .ok none :: reads =>
    .ok (.ok none) { s with peer := { s.peer with mEncryption := some { encryption with reads } } }
  | .ok (some count) :: reads =>
    let data := encryption.incoming.take (min count len)
    .ok (.ok (some data.length))
      { peer :=
          { s.peer with
            mEncryption :=
              some { encryption with incoming := encryption.incoming.drop data.length, reads } }
        buffer := s.buffer.map (storeAt offset data) }

/-- `mBytesRead += rtn` -/
def countRead (rtn : Nat) (s : Receiving) : Receiving :=
  { s with peer := { s.peer with mBytesRead := s.peer.mBytesRead + UInt64.ofNat rtn } }

/-- The rest of `receive` when there is an encryption object. -/
def receiveEncrypted (encryption : EncryptState) (offset nMaxBytesToRead : Nat) :
    EStateM Stop Receiving Nat := do
  match ← encryptedRead encryption offset nMaxBytesToRead with
  | .error what => throw (.threw (.peerException what))
  | .ok none => throw (.threw (.peerException "SocketPeer::receive error doing encrypted read"))
  | .ok (some rtn) =>
    modify (countRead rtn)
    return rtn

/-- And when there is none: a single `recv`. -/
def receivePlain (offset nMaxBytesToRead : Nat) : EStateM Stop Receiving Nat := do
  match ← recvIgnoreInterrupts offset nMaxBytesToRead with
  | .error error => throw (.threw (.peerException ("SocketPeer::receive: " ++ error)))
  | .ok rtn =>
    modify (countRead rtn)
    return rtn

/-- `SocketPeer::receive` into the buffer from an offset on. -/
def receive (offset nMaxBytesToRead : Nat) : EStateM Stop Receiving Nat := fun s =>
  if nMaxBytesToRead = 0 then
    .error (.threw (.invalidParameterError "SocketPeer::receive invalid byte count of 0")) s
  else if s.peer.mIsListening then
    .error (.threw (.invalidParameterError "SocketPeer::receive on an listening socket")) s
  else if s.buffer.isNone then
    .error (.threw (.invalidParameterError "SocketPeer::receive invalid null data ptr")) s
  else
    match s.peer.mEncryption with
    | some encryption => receiveEncrypted encryption offset nMaxBytesToRead s
    | none => receivePlain offset nMaxBytesToRead s

/-- The `catch` of `receive_all`: `status` stays at zero. -/
def catchDisconnect : Except Stop Nat → Except Stop Nat
  | .error (.threw .peerDisconnectException) => .ok 0
  | r => r

/-- `status`, after the `try` block of `receive_all`. -/
def receiveStatus (offset nBytes : Nat) : EStateM Stop Receiving Nat := do
  match catchDisconnect (← attempt (receive offset nBytes)) with
  | .ok status => return status
  | .error stop => throw stop

def receiveLoop (nBytesToRead offset nBytes : Nat) : EStateM Stop Receiving Bool :=
  if _hn : nBytes = 0 then return true
  else do
    let status ← receiveStatus offset nBytes
    if _hs : status = 0 then
      if nBytes = nBytesToRead then return false
      else throw (.threw .peerDisconnectException)
    else receiveLoop nBytesToRead (offset + status) (nBytes - status)
termination_by nBytes
decreasing_by omega

/-- `SocketPeer::receive_all` -/
def receiveAll (nBytesToRead : Nat) : EStateM Stop Receiving Bool :=
  receiveLoop nBytesToRead 0 nBytesToRead

/-! ## One pass of `receive_all` -/

theorem length_take_min_le (data : Bytes) (count len : Nat) :
    (data.take (min count len)).length ≤ len :=
  (List.length_take_le _ _).trans (Nat.min_le_right _ _)

theorem take_append_drop_length (data : Bytes) (count : Nat) :
    data.take count ++ data.drop (data.take count).length = data := by
  rw [List.length_take]
  rcases Nat.le_total count data.length with h | h
  · rw [Nat.min_eq_left h, List.take_append_drop]
  · rw [Nat.min_eq_right h, List.take_of_length_le h, List.drop_length, List.append_nil]

/-- Bytes were moved from the stream into the buffer. -/
structure Took (offset nBytes : Nat) (data : Bytes) (s s' : Receiving) : Prop where
  length_le : data.length ≤ nBytes
  isSome : s.buffer.isSome
  consumed : s.peer.incoming = data ++ s'.peer.incoming
  stored : s'.buffer = s.buffer.map (storeAt offset data)
  answered : s.peer.answersLeft = s'.peer.answersLeft + 1

/-- What a call that takes up to `nBytes` bytes comes to. -/
inductive Takes (offset nBytes : Nat) (s : Receiving) : EStateM.Result Stop Receiving Nat → Prop
  | threw (e : Exception) (s' : Receiving) (h : e ≠ .peerDisconnectException) :
      Takes offset nBytes s (.error (.threw e) s')
  | waiting (s' : Receiving) (h : s.peer.answersLeft = 0) :
      Takes offset nBytes s (.error .waiting s')
  | took (data : Bytes) (s' : Receiving) (h : Took offset nBytes data s s') :
      Takes offset nBytes s (.ok data.length s')

theorem receivePlain_takes {offset nBytes : Nat} {s : Receiving} (hbuffer : s.buffer.isSome)
    (henc : s.peer.mEncryption = none) :
    Takes offset nBytes s (receivePlain offset nBytes s) := by
  have hleft : s.peer.answersLeft = answersIn s.peer.mSocket.results := by
    simp only [SocketPeer.answersLeft, henc]
  cases hresults : ignoreInterrupts s.peer.mSocket.results with
  | none =>
    have hrecv : recvIgnoreInterrupts offset nBytes s = .error .waiting s := by
      simp only [recvIgnoreInterrupts, hresults]
    rw [receivePlain, bind_of_error hrecv]
    exact .waiting s (hleft.trans (ignoreInterrupts_none hresults))
  | some answer =>
    obtain ⟨r, rest⟩ := answer
    have hanswered := hleft.trans (ignoreInterrupts_some hresults)
    cases r with
    | error error =>
      have hrecv : recvIgnoreInterrupts offset nBytes s = .ok (.error error)
          { s with
            peer :=
              { s.peer with mSocket := { s.peer.mSocket with results := rest } } } := by
        simp only [recvIgnoreInterrupts, hresults]
      rw [receivePlain, bind_of_ok hrecv]
      exact .threw _ _ Exception.noConfusion
    | ok count =>
      rw [receivePlain, bind_of_ok (s := s) (by rw [recvIgnoreInterrupts, hresults])]
      refine .took (s.peer.mSocket.incoming.take (min count nBytes)) _
        ⟨length_take_min_le _ _ _, hbuffer, ?_, rfl, ?_⟩
      · simp only [SocketPeer.incoming, countRead, henc]
        exact (take_append_drop_length _ _).symm
      · simp only [SocketPeer.answersLeft, countRead, henc]
        exact ignoreInterrupts_some hresults

theorem receiveEncrypted_takes {offset nBytes : Nat} {s : Receiving} {encryption : EncryptState}
    (hbuffer : s.buffer.isSome) (henc : s.peer.mEncryption = some encryption) :
    Takes offset nBytes s (receiveEncrypted encryption offset nBytes s) := by
  have hleft : s.peer.answersLeft = encryption.reads.length := by
    simp only [SocketPeer.answersLeft, henc]
  cases hreads : encryption.reads with
  | nil =>
    have hread : encryptedRead encryption offset nBytes s = .error .waiting s := by
      simp only [encryptedRead, hreads]
    rw [receiveEncrypted, bind_of_error hread]
    exact .waiting s (by rw [hleft, hreads]; rfl)
  | cons result reads =>
    match result with
    | .error what =>
      rw [receiveEncrypted, bind_of_ok (s := s) (by rw [encryptedRead, hreads])]
      exact .threw _ _ Exception.noConfusion
    | .ok none =>
      rw [receiveEncrypted, bind_of_ok (s := s) (by rw [encryptedRead, hreads])]
      exact .threw _ _ Exception.noConfusion
    | .ok (some count) =>
      rw [receiveEncrypted, bind_of_ok (s := s) (by rw [encryptedRead, hreads])]
      refine .took (encryption.incoming.take (min count nBytes)) _
        ⟨length_take_min_le _ _ _, hbuffer, ?_, rfl, ?_⟩
      · simp only [SocketPeer.incoming, countRead, henc]
        exact (take_append_drop_length _ _).symm
      · simp only [SocketPeer.answersLeft, countRead, henc, hreads, List.length_cons]

/-- `receive` takes what one read of the stream gives. -/
theorem receive_takes (offset nBytes : Nat) (s : Receiving) :
    Takes offset nBytes s (receive offset nBytes s) := by
  unfold receive
  by_cases hzero : nBytes = 0
  · rw [if_pos hzero]
    exact .threw _ _ Exception.noConfusion
  · rw [if_neg hzero]
    by_cases hlistening : s.peer.mIsListening
    · rw [if_pos hlistening]
      exact .threw _ _ Exception.noConfusion
    · rw [if_neg hlistening]
      by_cases hnull : s.buffer.isNone
      · rw [if_pos hnull]
        exact .threw _ _ Exception.noConfusion
      · rw [if_neg hnull]
        have hbuffer : s.buffer.isSome := Option.isSome_iff_ne_none.mpr (by simpa using hnull)
        cases henc : s.peer.mEncryption with
        | none => exact receivePlain_takes hbuffer henc
        | some encryption => exact receiveEncrypted_takes hbuffer henc

theorem catchDisconnect_threw {e : Exception} (h : e ≠ .peerDisconnectException) :
    catchDisconnect (.error (.threw e)) = .error (.threw e) := by
  unfold catchDisconnect
  split
  · next he =>
    cases he
    exact absurd rfl h
  · rfl

/-- `receive` throws no disconnect itself, so catching it changes nothing. -/
theorem receiveStatus_takes (offset nBytes : Nat) (s : Receiving) :
    Takes offset nBytes s (receiveStatus offset nBytes s) := by
  have h := receive_takes offset nBytes s
  generalize hr : receive offset nBytes s = r at h
  cases h with
  | threw e s' hne =>
    rw [receiveStatus, bind_of_ok (attempt_of_error hr), catchDisconnect_threw hne]
    exact .threw e s' hne
  | waiting s' hleft =>
    rw [receiveStatus, bind_of_ok (attempt_of_error hr)]
    exact .waiting s' hleft
  | took data s' htook =>
    rw [receiveStatus, bind_of_ok (attempt_of_ok hr)]
    exact .took data s' htook

/-! ## The whole of `receive_all` -/

theorem storeAt_nil : storeAt 0 [] = id := by
  funext buffer
  simp only [storeAt, List.take_zero, List.nil_append, List.length_nil, Nat.add_zero,
    List.drop_zero, id]

/-- What is stored next follows what is stored already. -/
theorem storeAt_storeAt (got data : Bytes) :
    storeAt got.length data ∘ storeAt 0 got = storeAt 0 (got ++ data) := by
  funext buffer
  simp only [Function.comp_apply, storeAt, List.take_zero, List.nil_append, Nat.zero_add,
    List.take_left, List.length_append]
  rw [← List.drop_drop, List.drop_left, List.drop_drop]

/-- The next bytes of the stream, and no others, are in the buffer. -/
structure ReceivedAll (nBytesToRead : Nat) (s s' : Receiving) : Prop where
  notNull : 0 < nBytesToRead → s.buffer.isSome
  stored : ∃ data : Bytes, data.length = nBytesToRead ∧
    s.peer.incoming = data ++ s'.peer.incoming ∧ s'.buffer = s.buffer.map (storeAt 0 data)

/-- What `receive_all` may come to: it returns true with all of the bytes, or
    false with none, or it throws, or it waits for more answers than it had. -/
def AllOrNothing (nBytesToRead : Nat) (s : Receiving) : EStateM.Result Stop Receiving Bool → Prop
  | .ok true s' => ReceivedAll nBytesToRead s s'
  | .ok false s' => s'.peer.incoming = s.peer.incoming ∧ s'.buffer = s.buffer
  | .error (.threw _) _ => True
  | .error .waiting _ => s.peer.answersLeft < nBytesToRead

/-- The loop, after it has stored `got`. -/
theorem receiveLoop_allOrNothing {nBytesToRead nBytes : Nat} {s s₀ : Receiving} {got : Bytes}
    (hlen : got.length + nBytes = nBytesToRead)
    (hnull : 0 < got.length → s₀.buffer.isSome)
    (hconsumed : s₀.peer.incoming = got ++ s.peer.incoming)
    (hstored : s.buffer = s₀.buffer.map (storeAt 0 got))
    (hanswered : s₀.peer.answersLeft ≤ s.peer.answersLeft + got.length) :
    AllOrNothing nBytesToRead s₀ (receiveLoop nBytesToRead got.length nBytes s) := by
  induction nBytes using Nat.strongRecOn generalizing s got with
  | ind nBytes ih =>
    rw [receiveLoop]
    split
    · next hzero =>
      subst hzero
      exact ⟨fun hpos => hnull (by omega), got, by omega, hconsumed, hstored⟩
    · next hpos =>
      have h := receiveStatus_takes got.length nBytes s
      generalize hr : receiveStatus got.length nBytes s = r at h
      cases h with
      | threw e s' hne =>
        rw [bind_of_error hr]
        trivial
      | waiting s' hleft =>
        rw [bind_of_error hr]
        show _ < _
        omega
      | took data s' htook =>
        rw [bind_of_ok hr]
        obtain ⟨hle, hbuffer, htaken, hput, hanswer⟩ := htook
        rw [hstored, Option.map_map] at hput
        split
        · next hnothing =>
          obtain rfl := List.eq_nil_of_length_eq_zero hnothing
          split
          · next hfirst =>
            -- nothing is taken in this pass, and nothing was before
            obtain rfl : got = [] := List.eq_nil_of_length_eq_zero (by omega)
            rw [storeAt_storeAt, List.nil_append, storeAt_nil, Option.map_id, id] at hput
            exact ⟨(hconsumed.trans htaken).symm, hput⟩
          · trivial
        · next hsome =>
          have hnext : got.length + data.length = (got ++ data).length := List.length_append.symm
          rw [hnext]
          refine ih (nBytes - data.length) (by omega) ?_ ?_ ?_ ?_ ?_
          · rw [List.length_append]
            omega
          · rw [hstored, Option.isSome_map] at hbuffer
            exact fun _ => hbuffer
          · rw [hconsumed, htaken, List.append_assoc]
          · rw [hput, storeAt_storeAt]
          · rw [List.length_append]
            omega

/-- `receive_all` is all-or-nothing. -/
theorem receiveAll_allOrNothing (nBytesToRead : Nat) (s : Receiving) :
    AllOrNothing nBytesToRead s (receiveAll nBytesToRead s) := by
  have hstored : s.buffer = s.buffer.map (storeAt 0 []) := by
    rw [storeAt_nil, Option.map_id, id]
  exact receiveLoop_allOrNothing (Nat.zero_add _) (fun h => absurd h (Nat.lt_irrefl _)) rfl
    hstored (Nat.le_refl _)

end Receiving

/-! ## The whole of `send` -/

namespace SocketPeer

/-- What `send` may come to: it returns true with all of the bytes handed over,
    or false with none, or it throws, or it waits for more answers than it had. -/
def AllOrNothing (data : Option Bytes) (nBytes : Nat) (peer : SocketPeer) :
    EStateM.Result Stop SocketPeer Bool → Prop
  | .ok true peer' =>
    (0 < nBytes → data.isSome) ∧
      peer'.mSocket.handedOver = peer.mSocket.handedOver ++ (data.getD []).take nBytes
  | .ok false peer' => peer'.mSocket.handedOver = peer.mSocket.handedOver
  | .error (.threw _) _ => True
  | .error .waiting _ => answersIn peer.mSocket.results < nBytes

/-- The loop, after it has sent `offset` bytes. -/
theorem sendLoop_allOrNothing {data : Bytes} {offset nBytes : Nat} {peer peer₀ : SocketPeer}
    (hhanded : peer.mSocket.handedOver = peer₀.mSocket.handedOver ++ data.take offset)
    (hanswered : answersIn peer₀.mSocket.results ≤ answersIn peer.mSocket.results + offset) :
    AllOrNothing (some data) (offset + nBytes) peer₀ (sendLoop data offset nBytes peer) := by
  induction nBytes using Nat.strongRecOn generalizing peer offset with
  | ind nBytes ih =>
    rw [sendLoop]
    split
    · next hzero =>
      subst hzero
      exact ⟨fun _ => rfl, hhanded⟩
    · next hpos =>
      cases hresults : ignoreInterrupts peer.mSocket.results with
      | none =>
        have hsend : sendIgnoreInterrupts (data.drop offset) nBytes peer
            = .error .waiting peer := by
          rw [sendIgnoreInterrupts, hresults]
        rw [bind_of_error hsend]
        have hleft := ignoreInterrupts_none hresults
        show _ < _
        omega
      | some answer =>
        obtain ⟨r, rest⟩ := answer
        have hleft := ignoreInterrupts_some hresults
        cases r with
        | error error =>
          rw [bind_of_ok (s := peer) (by rw [sendIgnoreInterrupts, hresults])]
          trivial
        | ok count =>
          rw [bind_of_ok (s := peer) (by rw [sendIgnoreInterrupts, hresults])]
          show AllOrNothing _ _ _ ((dite _ _ _ : EStateM Stop SocketPeer Bool) _)
          split
          · next hnothing =>
            rw [hnothing, List.take_zero, List.append_nil]
            split
            · next hfirst =>
              subst hfirst
              rw [List.take_zero, List.append_nil] at hhanded
              exact hhanded
            · trivial
          · next hsome =>
            have hle : min count nBytes ≤ nBytes := Nat.min_le_right _ _
            have hsum : offset + nBytes
                = offset + min count nBytes + (nBytes - min count nBytes) := by
              omega
            rw [hsum]
            refine ih (nBytes - min count nBytes) (by omega) ?_ ?_
            · rw [List.take_add, ← List.append_assoc, ← hhanded]
            · show _ ≤ answersIn rest + _
              omega

theorem send_allOrNothing (data : Option Bytes) (nBytes : Nat) {peer : SocketPeer}
    (h : peer.mEncryption = none) : AllOrNothing data nBytes peer (send data nBytes peer) := by
  unfold send
  by_cases hzero : nBytes = 0
  · rw [if_pos hzero, hzero]
    exact ⟨fun hpos => absurd hpos (Nat.lt_irrefl 0), by rw [List.take_zero, List.append_nil]⟩
  · rw [if_neg hzero]
    cases data with
    | none => trivial
    | some data =>
      by_cases hlistening : peer.mIsListening
      · simp only [if_pos hlistening]
        trivial
      · simp only [if_neg hlistening, h]
        have hnone : peer.mSocket.handedOver = peer.mSocket.handedOver ++ data.take 0 := by
          rw [List.take_zero, List.append_nil]
        have hloop : AllOrNothing (some data) (0 + nBytes) peer (sendLoop data 0 nBytes peer) :=
          sendLoop_allOrNothing hnone (Nat.le_refl _)
        rwa [Nat.zero_add] at hloop

/-- Transfers are all-or-nothing, whatever the system calls come to. -/
theorem transfers_allOrNothing :
    (∀ (nBytesToRead : Nat) (s : Receiving),
      Receiving.AllOrNothing nBytesToRead s (Receiving.receiveAll nBytesToRead s)) ∧
    ∀ (data : Option Bytes) (nBytes : Nat) (peer : SocketPeer), peer.mEncryption = none →
      AllOrNothing data nBytes peer (send data nBytes peer) :=
  ⟨Receiving.receiveAll_allOrNothing, fun data nBytes _ => send_allOrNothing data nBytes⟩

/-- A socket that takes the first byte alone, is interrupted, and takes the rest. -/
def inTwoParts : SocketPeer where
  mSocket :=
    { incoming := []
      handedOver := []
      results := [.transferred 1, .interrupted, .transferred 9] }
  mEncryption := none
  mIsListening := false
  mBytesRead := 0
  mBytesWritten := 0

theorem transfers_allOrNothing_inTwoParts :
    AllOrNothing (some [1, 2, 3]) 3 inTwoParts (send (some [1, 2, 3]) 3 inTwoParts) ∧
      ∃ peer', send (some [1, 2, 3]) 3 inTwoParts = .ok true peer' ∧
        peer'.mSocket.handedOver = [1, 2, 3] := by
  refine ⟨transfers_allOrNothing.2 (some [1, 2, 3]) 3 inTwoParts rfl, ?_⟩
  have hpasses : send (some [1, 2, 3]) 3 inTwoParts = sendLoop [1, 2, 3] 0 3 inTwoParts := rfl
  rw [hpasses, sendLoop, dif_neg (by decide)]
  show ∃ peer', sendLoop [1, 2, 3] 1 2 _ = _ ∧ _
  rw [sendLoop, dif_neg (by decide)]
  show ∃ peer', sendLoop [1, 2, 3] 3 0 _ = _ ∧ _
  rw [sendLoop]
  exact ⟨_, rfl, rfl⟩

end SocketPeer

end Arras4Core.Network
