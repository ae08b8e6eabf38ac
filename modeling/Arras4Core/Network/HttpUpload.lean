/-
  Arras4Core.Network.HttpUpload

  A POST or a PUT with a body, in the parts that libmicrohttpd has of it.  The
  parts are put together in a buffer, whose length is that of the header
  `Content-Length`, with a zero behind them; the last part invokes the handler, and
  the next call queues the response.

  The header is looked up as it is spelled.  With another spelling of its name
  there is no buffer, and the first part invokes the handler without data.
-/

import Arras4Core.Lib.Succeeds
import Arras4Core.Network.HttpServer

namespace Arras4Core.Network.Http

open Arras4Core.Lib

/-! ## Headers -/

namespace StringMap

theorem insert_of_isSome {map : StringMap} {name : List Char} (h : (map name).isSome = true)
    (value : List Char) : map.insert name value = map := by
  obtain ⟨old, hold⟩ := Option.isSome_iff_exists.mp h
  simp only [insert, hold]

/-- A name that is there keeps its value. -/
theorem insert_apply_of_isSome {map : StringMap} {other : List Char}
    (h : (map other).isSome = true) (name value : List Char) :
    map.insert name value other = map other := by
  cases hname : map name with
  | some old => rw [insert_of_isSome (by rw [hname]; rfl)]
  | none =>
    have hne : other ≠ name := by
      rintro rfl
      rw [hname] at h
      cases h
    simp only [insert, hname, if_neg hne]

theorem isSome_insert_self (map : StringMap) (name value : List Char) :
    (map.insert name value name).isSome = true := by
  cases hname : map name with
  | some old =>
    rw [insert_of_isSome (by rw [hname]; rfl), hname]
    rfl
  | none =>
    simp only [insert, hname, if_true]
    rfl

variable {γ : Type} {name value : γ → List Char}

theorem foldl_insert_apply_of_isSome {map : StringMap} {other : List Char}
    (h : (map other).isSome = true) (kvs : List γ) :
    kvs.foldl (fun map kv => map.insert (name kv) (value kv)) map other = map other := by
  induction kvs generalizing map with
  | nil => rfl
  | cons kv kvs ih =>
    have hkeep := insert_apply_of_isSome h (name kv) (value kv)
    rw [List.foldl_cons, ih (by rw [hkeep, h]), hkeep]

theorem isSome_foldl_insert {kvs : List γ} {kv : γ} (h : kv ∈ kvs) (map : StringMap) :
    (kvs.foldl (fun map kv => map.insert (name kv) (value kv)) map (name kv)).isSome = true := by
  induction kvs generalizing map with
  | nil => cases h
  | cons first kvs ih =>
    rw [List.foldl_cons]
    rcases List.mem_cons.mp h with rfl | hmem
    · rw [foldl_insert_apply_of_isSome (isSome_insert_self ..)]
      exact isSome_insert_self ..
    · exact ih hmem _

/-- The second time nothing is inserted. -/
theorem foldl_insert_foldl_insert (kvs : List γ) (map : StringMap) :
    kvs.foldl (fun map kv => map.insert (name kv) (value kv))
        (kvs.foldl (fun map kv => map.insert (name kv) (value kv)) map)
      = kvs.foldl (fun map kv => map.insert (name kv) (value kv)) map := by
  -- all of the names are there already
  generalize hmap : kvs.foldl (fun map kv => map.insert (name kv) (value kv)) map = all
  have hall : ∀ kv ∈ kvs, (all (name kv)).isSome = true := fun kv hkv =>
    hmap ▸ isSome_foldl_insert hkv map
  clear hmap
  induction kvs with
  | nil => rfl
  | cons kv kvs ih =>
    rw [List.foldl_cons, insert_of_isSome (hall kv (List.mem_cons_self ..))]
    exact ih fun other hother => hall other (List.mem_cons_of_mem _ hother)

/-- The value of a name is the first. -/
theorem foldl_insert_apply {map : StringMap} {other : List Char} (h : map other = none)
    (kvs : List γ) :
    kvs.foldl (fun map kv => map.insert (name kv) (value kv)) map other
      = (kvs.find? fun kv => name kv = other).map value := by
  induction kvs generalizing map with
  | nil => exact h
  | cons kv kvs ih =>
    rw [List.foldl_cons, List.find?_cons]
    by_cases heq : name kv = other
    · subst heq
      have hvalue : map.insert (name kv) (value kv) (name kv) = some (value kv) := by
        simp only [insert, h, if_true]
      rw [foldl_insert_apply_of_isSome (by rw [hvalue]; rfl), hvalue, decide_eq_true rfl]
      rfl
    · have hnone : map.insert (name kv) (value kv) other = none := by
        cases hname : map (name kv) with
        | some old => rw [insert_of_isSome (by rw [hname]; rfl), h]
        | none => simp only [insert, hname, if_neg (Ne.symm heq), h]
      rw [ih hnone, decide_eq_false heq]

end StringMap

theorem prepare_prepare (r : ClientRequest) (req : HttpServerRequest) :
    prepare r (prepare r req) = prepare r req := by
  simp only [prepare, StringMap.foldl_insert_foldl_insert]

/-! ## Events -/

def Event.request? : Event → Option HttpServerRequest
  | .invoked req => some req
  | .queued _ => none

/-- The requests that the handlers had. -/
def invocations (outcomes : List Outcome) : List HttpServerRequest :=
  outcomes.flatMap fun outcome => outcome.events.filterMap Event.request?

/-! ## The buffer -/

/-- A buffer whose first bytes are written. -/
def filled (total : Nat) (received : UploadData) : List (Option UInt8) :=
  received.map some ++ List.replicate (total - received.length) none

theorem length_filled {total : Nat} {received : UploadData} (h : received.length ≤ total) :
    (filled total received).length = total := by
  rw [filled, List.length_append, List.length_map, List.length_replicate]
  omega

theorem overwrite_filled (total : Nat) (received data : UploadData) :
    overwrite (filled total received) received.length (data.map some)
      = filled total (received ++ data) := by
  have htake : (filled total received).take received.length = received.map some :=
    List.take_left' (List.length_map _)
  have hdrop : (filled total received).drop (received.length + (data.map some).length)
      = List.replicate (total - (received ++ data).length) none := by
    rw [filled, ← List.drop_drop, List.drop_left' (List.length_map _), List.drop_replicate,
      List.length_map, List.length_append, Nat.sub_sub]
  rw [overwrite, htake, hdrop, filled, List.map_append]

/-- The buffer of a body of `n` bytes. -/
def HttpServerRequest.withBuffer (req : HttpServerRequest) (n : Nat) (received : UploadData) :
    HttpServerRequest :=
  { req with mData := filled (n + 1) received, mDataLen := UInt32.ofNat (n + 1) }

/-- What comes next is appended within the buffer. -/
theorem appendData_withBuffer {n : Nat} (hn : n < 2 ^ 31) (req : HttpServerRequest)
    {received data : UploadData} (h : received.length + data.length ≤ n + 1) :
    (req.withBuffer n received).appendData data (UInt32.ofNat received.length)
        (UInt32.ofNat data.length)
      = some (req.withBuffer n (received ++ data)) := by
  have htotal : (UInt32.ofNat (n + 1)).toNat = n + 1 :=
    UInt32.toNat_ofNat_of_lt' (by show n + 1 < 2 ^ 32; omega)
  have hoffset : (UInt32.ofNat received.length).toNat = received.length :=
    UInt32.toNat_ofNat_of_lt' (by show received.length < 2 ^ 32; omega)
  have hsize : (UInt32.ofNat data.length).toNat = data.length :=
    UInt32.toNat_ofNat_of_lt' (by show data.length < 2 ^ 32; omega)
  have hspace : (UInt32.ofNat (n + 1) - UInt32.ofNat received.length).toNat
      = n + 1 - received.length := by
    rw [UInt32.toNat_sub_of_le _ _ (UInt32.le_iff_toNat_le.mpr (by omega)), htotal, hoffset]
  -- nothing is cut off: the part is the smaller of the two
  have hbytes : min (UInt32.ofNat (n + 1) - UInt32.ofNat received.length)
      (UInt32.ofNat data.length) = UInt32.ofNat data.length := by
    rw [← UInt32.toNat_inj, UInt32.toNat_min]
    omega
  have hfits : received.length + data.length ≤ (filled (n + 1) received).length := by
    rw [length_filled (by omega)]
    exact h
  simp only [HttpServerRequest.appendData, HttpServerRequest.withBuffer, hbytes, hsize, hoffset,
    if_pos hfits, List.take_length, overwrite_filled]

/-- A buffer that is filled up. -/
theorem filled_of_length_eq {total : Nat} {received : UploadData} (h : received.length = total) :
    filled total received = received.map some := by
  rw [filled, h, Nat.sub_self, List.replicate_zero, List.append_nil]

/-! ## Steps of a call -/

namespace Dispatching

theorem append_run {s : Dispatching} {req : HttpServerRequest} {aData : UploadData}
    {aOffset aDataLen : UInt32} (h : s.state.mReq.appendData aData aOffset aDataLen = some req) :
    append aData aOffset aDataLen s = .ok ⟨⟩ { s with state := { s.state with mReq := req } } := by
  rw [append, get_bind, h]
  rfl

theorem invoke_of_ok {event : HttpRequestEvent} {s : Dispatching} {resp : HttpServerResponse}
    (h : event.call s.state.mReq s.state.mResp = .ok resp) :
    invoke event s = .ok ⟨⟩ { s with
      state := { s.state with mResp := resp }
      events := s.events ++ [.invoked s.state.mReq] } := by
  rw [invoke, get_bind, log, modify_bind, h]
  rfl

theorem invoke_of_error {event : HttpRequestEvent} {s : Dispatching} {what : List Char}
    (h : event.call s.state.mReq s.state.mResp = .error what) :
    invoke event s
      = .error (.threw what) { s with events := s.events ++ [.invoked s.state.mReq] } := by
  rw [invoke, get_bind, log, modify_bind, h]
  rfl

end Dispatching

/-! ## A part of the body -/

/-- The request with its headers, before there is data. -/
def ClientRequest.prepared (r : ClientRequest) : HttpServerRequest :=
  prepare r { mUrl := r.url }

/-- The state in which some bytes of a body of `n` were received. -/
def receiving (r : ClientRequest) (n : Nat) (received : UploadData) : ResponseState where
  mReq := r.prepared.withBuffer n received
  mOffset := UInt32.ofNat received.length
  mContentLength := UInt32.ofNat n

/-- The request that the handler has: the body with a zero behind it. -/
def uploaded (r : ClientRequest) (body : UploadData) : HttpServerRequest :=
  { r.prepared with
    mData := (body ++ [0]).map some
    mDataLen := UInt32.ofNat (body.length + 1) }

/-- The state when the handler has returned. -/
def finished (r : ClientRequest) (body : UploadData) (resp : HttpServerResponse) :
    ResponseState where
  mResp := resp
  mReq := uploaded r body
  mOffset := UInt32.ofNat body.length
  mContentLength := UInt32.ofNat body.length
  mPhase := 2

/-- The next part is appended to the bytes received. -/
def Ready (r : ClientRequest) (n : Nat) (received : UploadData) (state : ResponseState) : Prop :=
  state.mPhase = 1 ∧
    Dispatching.allocate (Dispatching.prepareOnce r state) = receiving r n received

namespace Dispatching

variable {r : ClientRequest} {n : Nat} {received : UploadData} {s : Dispatching}
  {event : HttpRequestEvent} {call : Call}

/-- A part is appended, and the offset moves behind it. -/
theorem appendPart_run (hn : n < 2 ^ 31) (hready : allocate s.state = receiving r n received)
    (hle : received.length + call.aUploadData.length ≤ n) :
    appendPart call s
      = .ok ⟨⟩ { s with state := receiving r n (received ++ call.aUploadData) } := by
  have hallocate : setState allocate s = .ok ⟨⟩ { s with state := receiving r n received } := by
    rw [← hready]
    rfl
  have hroom : received.length + call.aUploadData.length ≤ n + 1 := Nat.le_succ_of_le hle
  have happend : append call.aUploadData (UInt32.ofNat received.length)
      (UInt32.ofNat call.aUploadData.length) { s with state := receiving r n received }
        = .ok ⟨⟩ { s with
            state := { receiving r n received with
              mReq := r.prepared.withBuffer n (received ++ call.aUploadData) } } :=
    append_run (appendData_withBuffer hn r.prepared hroom)
  have hstate : receiving r n (received ++ call.aUploadData)
      = { receiving r n received with
          mReq := r.prepared.withBuffer n (received ++ call.aUploadData)
          mOffset := UInt32.ofNat received.length + UInt32.ofNat call.aUploadData.length } := by
    rw [receiving, List.length_append, UInt32.ofNat_add]
    rfl
  rw [appendPart, bind_of_ok hallocate, get_bind]
  refine (bind_of_ok happend).trans ?_
  rw [hstate]
  rfl

theorem ofNat_le_ofNat_iff {m n : Nat} (hm : m < 2 ^ 31) (hn : n < 2 ^ 31) :
    UInt32.ofNat m ≤ UInt32.ofNat n ↔ m ≤ n := by
  rw [UInt32.le_iff_toNat_le, UInt32.toNat_ofNat_of_lt' (show m < 2 ^ 32 by omega),
    UInt32.toNat_ofNat_of_lt' (show n < 2 ^ 32 by omega)]

/-- A part that is not the last. -/
theorem takePart_of_lt (event : HttpRequestEvent) (hn : n < 2 ^ 31)
    (hready : allocate s.state = receiving r n received)
    (hlt : received.length + call.aUploadData.length < n) :
    takePart event call s
      = .ok ⟨⟩ { s with
          state := receiving r n (received ++ call.aUploadData), aUploadDataSize := 0 } := by
  have hoffset : ¬ UInt32.ofNat n ≤ UInt32.ofNat (received ++ call.aUploadData).length := by
    rw [List.length_append, ofNat_le_ofNat_iff hn (by omega)]
    omega
  rw [takePart, bind_of_ok (appendPart_run hn hready (Nat.le_of_lt hlt)), get_bind]
  show (if UInt32.ofNat n ≤ UInt32.ofNat (received ++ call.aUploadData).length
    then _ else _ : DispatchM PUnit) _ = _
  rw [if_neg hoffset]
  rfl

/-! ## The last part -/

theorem append_zero {body : UploadData} (hn : n < 2 ^ 31) (hlength : body.length = n)
    (hstate : s.state = receiving r n body) :
    append [0] (UInt32.ofNat n) 1 s
      = .ok ⟨⟩ { s with state := { receiving r n body with mReq := uploaded r body } } := by
  -- the zero takes the last byte of the buffer
  have hroom : body.length + [(0 : UInt8)].length ≤ n + 1 := Nat.le_of_eq (by rw [hlength]; rfl)
  have happend := appendData_withBuffer hn r.prepared hroom
  have huploaded : r.prepared.withBuffer n (body ++ [0]) = uploaded r body := by
    rw [HttpServerRequest.withBuffer, filled_of_length_eq (by simp [hlength]), uploaded, hlength]
  rw [huploaded, hlength] at happend
  have hrun := append_run (s := s) (by rw [hstate]; exact happend)
  rw [hstate] at hrun
  exact hrun

theorem endBody_of_ok {body : UploadData} {resp : HttpServerResponse} (hn : n < 2 ^ 31)
    (hlength : body.length = n) (hstate : s.state = receiving r n body)
    (hevent : event.call (uploaded r body) {} = .ok resp) :
    endBody event s
      = .ok ⟨⟩ { s with
          state := finished r body resp
          events := s.events ++ [.invoked (uploaded r body)] } := by
  have hcontent : s.state.mContentLength = UInt32.ofNat n := by
    rw [hstate, receiving]
  rw [endBody, get_bind, hcontent, bind_of_ok (append_zero hn hlength hstate),
    bind_of_ok (invoke_of_ok hevent), ← hlength]
  rfl

theorem endBody_of_error {body : UploadData} {what : List Char} (hn : n < 2 ^ 31)
    (hlength : body.length = n) (hstate : s.state = receiving r n body)
    (hevent : event.call (uploaded r body) {} = .error what) :
    ∃ state, endBody event s
      = .error (.threw what) { s with
          state, events := s.events ++ [.invoked (uploaded r body)] } := by
  have hcontent : s.state.mContentLength = UInt32.ofNat n := by
    rw [hstate, receiving]
  refine ⟨{ receiving r n body with mReq := uploaded r body }, ?_⟩
  rw [endBody, get_bind, hcontent, bind_of_ok (append_zero hn hlength hstate),
    bind_of_error (invoke_of_error hevent)]

/-- The last part goes on with the end of the body. -/
theorem takePart_of_eq (event : HttpRequestEvent) {body : UploadData} (hn : n < 2 ^ 31)
    (hready : allocate s.state = receiving r n received) (hlength : body.length = n)
    (hbody : received ++ call.aUploadData = body) :
    takePart event call s
      = (endBody event >>= fun _ => modify fun s => { s with aUploadDataSize := 0 })
          { s with state := receiving r n body } := by
  have hle : received.length + call.aUploadData.length ≤ n := by
    rw [← List.length_append, hbody, hlength]
  rw [takePart, bind_of_ok (appendPart_run hn hready hle), get_bind, hbody]
  show (if UInt32.ofNat n ≤ UInt32.ofNat body.length then _ else _ : DispatchM PUnit) _ = _
  rw [if_pos (by rw [hlength]; exact UInt32.le_refl _)]

/-! ## A call -/

/-- The event of a method that has one. -/
def eventOf (server : HttpServer) : Method → HttpRequestEvent
  | .GET => server.GET
  | .DELETE => server.HTTPDELETE
  | .POST => server.POST
  | .PUT => server.PUT
  | .other => []

variable {server : HttpServer}

theorem byMethod_eq_upload (hmethod : r.method = .POST ∨ r.method = .PUT) :
    byMethod server r call = upload (eventOf server r.method) call := by
  rcases hmethod with h | h <;> rw [byMethod, h, eventOf]

theorem upload_of_data (hphase : s.state.mPhase = 1) (hdata : call.aUploadData ≠ []) :
    upload event call s = (takePart event call >>= fun _ => pure true) s := by
  rw [upload, get_bind, hphase]
  simp only [if_neg hdata]

theorem upload_of_phase_two (hphase : s.state.mPhase = 2) :
    upload event call s = complete call s := by
  rw [upload, get_bind, hphase]
  rfl

theorem mPhase_prepareOnce (r : ClientRequest) (state : ResponseState) :
    (prepareOnce r state).mPhase = state.mPhase := by
  rw [prepareOnce]
  split <;> rfl

theorem tryBlock_eq (hmethod : r.method = .POST ∨ r.method = .PUT) :
    tryBlock server r call s
      = (upload (eventOf server r.method) call >>= fun rtn =>
          if rtn then pure rtn else handleError call 404 "Not Found".toList)
        { s with state := prepareOnce r s.state } := by
  rw [tryBlock, byMethod_eq_upload hmethod]
  rfl

/-- A part that is not the last is a call that returns. -/
theorem tryBlock_of_lt (hmethod : r.method = .POST ∨ r.method = .PUT) (hn : n < 2 ^ 31)
    (hready : Ready r n received s.state) (hdata : call.aUploadData ≠ [])
    (hlt : received.length + call.aUploadData.length < n) :
    tryBlock server r call s
      = .ok true { s with
          state := receiving r n (received ++ call.aUploadData), aUploadDataSize := 0 } := by
  obtain ⟨hphase, hallocate⟩ := hready
  have htake := takePart_of_lt (s := { s with state := prepareOnce r s.state })
    (eventOf server r.method) hn hallocate hlt
  have hupload := (upload_of_data ((mPhase_prepareOnce r s.state).trans hphase) hdata).trans
    (bind_of_ok htake)
  rw [tryBlock_eq hmethod, bind_of_ok hupload]
  rfl

theorem tryBlock_of_ok {body : UploadData} {resp : HttpServerResponse}
    (hmethod : r.method = .POST ∨ r.method = .PUT) (hn : body.length < 2 ^ 31)
    (hready : Ready r body.length received s.state) (hdata : call.aUploadData ≠ [])
    (hbody : received ++ call.aUploadData = body)
    (hevent : (eventOf server r.method).call (uploaded r body) {} = .ok resp) :
    tryBlock server r call s
      = .ok true { s with
          state := finished r body resp
          aUploadDataSize := 0
          events := s.events ++ [.invoked (uploaded r body)] } := by
  obtain ⟨hphase, hallocate⟩ := hready
  have hend := endBody_of_ok (s := { s with state := receiving r body.length body }) hn rfl rfl
    hevent
  have htake := (takePart_of_eq (s := { s with state := prepareOnce r s.state })
    (eventOf server r.method) hn hallocate rfl hbody).trans (bind_of_ok hend)
  have hupload := (upload_of_data ((mPhase_prepareOnce r s.state).trans hphase) hdata).trans
    (bind_of_ok htake)
  rw [tryBlock_eq hmethod, bind_of_ok hupload]
  rfl

theorem tryBlock_of_error {body : UploadData} {what : List Char}
    (hmethod : r.method = .POST ∨ r.method = .PUT) (hn : body.length < 2 ^ 31)
    (hready : Ready r body.length received s.state) (hdata : call.aUploadData ≠ [])
    (hbody : received ++ call.aUploadData = body)
    (hevent : (eventOf server r.method).call (uploaded r body) {} = .error what) :
    ∃ state, tryBlock server r call s
      = .error (.threw what) { s with
          state, events := s.events ++ [.invoked (uploaded r body)] } := by
  obtain ⟨hphase, hallocate⟩ := hready
  obtain ⟨state, hend⟩ := endBody_of_error
    (s := { s with state := receiving r body.length body }) hn rfl rfl hevent
  have htake := (takePart_of_eq (s := { s with state := prepareOnce r s.state })
    (eventOf server r.method) hn hallocate rfl hbody).trans (bind_of_error hend)
  have hupload := (upload_of_data ((mPhase_prepareOnce r s.state).trans hphase) hdata).trans
    (bind_of_error htake)
  refine ⟨state, ?_⟩
  rw [tryBlock_eq hmethod, bind_of_error hupload]

/-- In the second phase nothing is invoked. -/
theorem tryBlock_of_phase_two (server : HttpServer) (call : Call)
    (hmethod : r.method = .POST ∨ r.method = .PUT)
    (hphase : s.state.mPhase = 2) :
    tryBlock server r call s
      = (complete call >>= fun rtn =>
          if rtn then pure rtn else handleError call 404 "Not Found".toList) s := by
  have hprepare : prepareOnce r s.state = s.state := if_neg (by rw [hphase]; decide)
  rw [tryBlock_eq hmethod, hprepare]
  cases hcomplete : complete call s with
  | ok rtn s' =>
    rw [bind_of_ok ((upload_of_phase_two hphase).trans hcomplete), bind_of_ok hcomplete]
  | error e s' =>
    rw [bind_of_error ((upload_of_phase_two hphase).trans hcomplete), bind_of_error hcomplete]

theorem complete_of_taken (h : call.answer s.state.mResp.reply = .taken) :
    complete call s
      = .ok true { s with events := s.events ++ [.queued s.state.mResp.reply] } := by
  rw [complete, get_bind]
  simp only [h]
  rfl

theorem complete_of_refused (h : call.answer s.state.mResp.reply = .refused) :
    complete call s
      = .error (.threw "HttpServerResponse Could not queue response".toList) s := by
  rw [complete, get_bind]
  simp only [h]
  rfl

theorem complete_of_noResponse (h : call.answer s.state.mResp.reply = .noResponse) :
    complete call s = .ok false s := by
  rw [complete, get_bind]
  simp only [h]
  rfl

/-- An error that libmicrohttpd takes is queued, one that it does not take ends the
    connection. -/
theorem handleError_run (call : Call) (statusCode : Int) (responseMsg : List Char)
    (s : Dispatching) :
    ∃ rtn events, handleError call statusCode responseMsg s
        = .ok rtn { s with events := s.events ++ events }
      ∧ events.filterMap Event.request? = [] ∧ rtn = events.any Event.isQueued := by
  cases hanswer : call.answer ⟨statusCode, responseMsg ++ ['\x00'], []⟩ with
  | taken =>
    refine ⟨true, [.queued ⟨statusCode, responseMsg ++ ['\x00'], []⟩], ?_, rfl, rfl⟩
    simp only [handleError, hanswer]
    rfl
  | refused =>
    refine ⟨false, [], ?_, rfl, rfl⟩
    simp only [handleError, hanswer, List.append_nil]
    rfl
  | noResponse =>
    refine ⟨false, [], ?_, rfl, rfl⟩
    simp only [handleError, hanswer, List.append_nil]
    rfl

end Dispatching

/-! ## Calls of the server -/

open Dispatching

variable {server : HttpServer} {r : ClientRequest} {n : Nat} {received : UploadData}
  {state : ResponseState} {call : Call}

/-- A call of which nothing is seen. -/
def Outcome.quiet : Outcome := ⟨true, 0, []⟩

theorem dispatch_of_ok {rtn : Bool} {s : Dispatching}
    (h : tryBlock server r call ⟨state, call.aUploadData.length, []⟩ = .ok rtn s) :
    dispatch server r (some state) call = .ok (s.state, ⟨rtn, s.aUploadDataSize, s.events⟩) := by
  have hcatch : tryDispatch server r call ⟨state, call.aUploadData.length, []⟩ = .ok rtn s := by
    rw [tryDispatch, bind_of_ok (attempt_of_ok h)]
    rfl
  simp only [dispatch, hcatch]

/-- A call that throws queues an error, or it is the last. -/
theorem dispatch_of_threw {what : List Char} {s : Dispatching}
    (h : tryBlock server r call ⟨state, call.aUploadData.length, []⟩ = .error (.threw what) s) :
    ∃ outcome, dispatch server r (some state) call = .ok (s.state, outcome)
      ∧ outcome.callsAgain = false
      ∧ outcome.events.filterMap Event.request? = s.events.filterMap Event.request? := by
  obtain ⟨rtn, events, hrun, hrequests, hrtn⟩ :=
    handleError_run call 500 ("Internal Server Error: ".toList ++ what) s
  have hcatch : tryDispatch server r call ⟨state, call.aUploadData.length, []⟩
      = .ok rtn { s with events := s.events ++ events } := by
    rw [tryDispatch, bind_of_ok (attempt_of_error h)]
    exact hrun
  refine ⟨⟨rtn, s.aUploadDataSize, s.events ++ events⟩, ?_, ?_, ?_⟩
  · simp only [dispatch, hcatch]
  · rw [Outcome.callsAgain, List.any_append, ← hrtn]
    cases rtn <;> simp
  · rw [List.filterMap_append, hrequests, List.append_nil]

/-- A part that is not the last. -/
theorem dispatch_of_lt (hmethod : r.method = .POST ∨ r.method = .PUT) (hn : n < 2 ^ 31)
    (hready : Ready r n received state) (hdata : call.aUploadData ≠ [])
    (hlt : received.length + call.aUploadData.length < n) :
    dispatch server r (some state) call
      = .ok (receiving r n (received ++ call.aUploadData), .quiet) :=
  dispatch_of_ok (tryBlock_of_lt hmethod hn hready hdata hlt)

/-- In the second phase a response that is taken is queued. -/
theorem dispatch_of_taken (server : HttpServer) (hmethod : r.method = .POST ∨ r.method = .PUT)
    (hphase : state.mPhase = 2) (hanswer : call.answer state.mResp.reply = .taken) :
    dispatch server r (some state) call
      = .ok (state, ⟨true, call.aUploadData.length, [.queued state.mResp.reply]⟩) := by
  have htry := tryBlock_of_phase_two server call
    (s := ⟨state, call.aUploadData.length, []⟩) hmethod hphase
  rw [bind_of_ok (complete_of_taken hanswer)] at htry
  exact dispatch_of_ok htry

/-- In the second phase the call is the last, and nothing is invoked. -/
theorem dispatch_of_phase_two (server : HttpServer) (call : Call)
    (hmethod : r.method = .POST ∨ r.method = .PUT) (hphase : state.mPhase = 2) :
    ∃ state' outcome, dispatch server r (some state) call = .ok (state', outcome)
      ∧ outcome.callsAgain = false ∧ invocations [outcome] = [] := by
  have htry := tryBlock_of_phase_two server call
    (s := ⟨state, call.aUploadData.length, []⟩) hmethod hphase
  cases hanswer : call.answer state.mResp.reply with
  | taken => exact ⟨_, _, dispatch_of_taken server hmethod hphase hanswer, rfl, rfl⟩
  | refused =>
    rw [bind_of_error (complete_of_refused hanswer)] at htry
    obtain ⟨outcome, hdispatch, hlast, hrequests⟩ := dispatch_of_threw htry
    refine ⟨_, outcome, hdispatch, hlast, ?_⟩
    simpa [invocations] using hrequests
  | noResponse =>
    obtain ⟨rtn, events, hrun, hrequests, hrtn⟩ := handleError_run call 404 "Not Found".toList
      ⟨state, call.aUploadData.length, []⟩
    rw [bind_of_ok (complete_of_noResponse hanswer)] at htry
    refine ⟨_, _, dispatch_of_ok (htry.trans hrun), ?_, ?_⟩
    · rw [Outcome.callsAgain, List.nil_append, hrtn, Bool.and_not_self]
    · simpa [invocations] using hrequests

/-! ## The state before a part -/

/-- The first header that is spelled `Content-Length` has the number `n`. -/
def HasContentLength (r : ClientRequest) (n : Nat) : Prop :=
  ∃ text, ((r.headers.find? fun kv => kv.1 = "Content-Length".toList).map fun kv => kv.2.getD [])
      = some text
    ∧ (∀ c ∈ text, c.isDigit = true) ∧ Nat.ofDigitChars 10 text 0 = n

/-- A number in digits is what `atoi` finds. -/
theorem atoi_of_digits {text : List Char} (hne : text ≠ [])
    (hdigits : ∀ c ∈ text, c.isDigit = true) (hlt : Nat.ofDigitChars 10 text 0 < 2 ^ 31) :
    Scan.atoi text = Nat.ofDigitChars 10 text 0 := by
  obtain ⟨c, cs, rfl⟩ := List.exists_cons_of_ne_nil hne
  have hsign := Scan.scanSign_of_isDigit (hdigits c (List.mem_cons_self ..)) cs
  rw [Scan.atoi_of_scanSign hsign hdigits (by omega) (by omega), Int.one_mul]

theorem ofNat_ne_zero {n : Nat} (hpos : 0 < n) (hn : n < 2 ^ 31) : UInt32.ofNat n ≠ 0 := by
  intro h
  have hzero : (UInt32.ofNat n).toNat = 0 := by
    rw [h]
    rfl
  rw [UInt32.toNat_ofNat_of_lt' (show n < 2 ^ 32 by omega)] at hzero
  omega

/-- The first part allocates the buffer. -/
theorem ready_first (hpos : 0 < n) (hn : n < 2 ^ 31) (hheader : HasContentLength r n) :
    Ready r n [] { mReq := { mUrl := r.url } } := by
  obtain ⟨text, hfind, hdigits, hvalue⟩ := hheader
  have hlookup : r.prepared.header "Content-Length".toList = some text :=
    (StringMap.foldl_insert_apply rfl r.headers).trans hfind
  have hne : text ≠ [] := by
    rintro rfl
    rw [← hvalue] at hpos
    exact absurd hpos (by decide)
  -- `mContentLength`, and the buffer: one byte more, for the zero
  have hatoi : UInt32.ofInt (Scan.atoi text) = UInt32.ofNat n := by
    have hmod : ((n : Int) % 2 ^ 32).toNat = n := by omega
    rw [atoi_of_digits hne hdigits (by omega), hvalue, UInt32.ofInt, hmod]
  have hbuffer : r.prepared.allocateData (UInt32.ofNat n + 1) = r.prepared.withBuffer n [] := by
    have hsucc : UInt32.ofNat n + 1 = UInt32.ofNat (n + 1) := (UInt32.ofNat_add n 1).symm
    have htotal : (UInt32.ofNat (n + 1)).toNat = n + 1 :=
      UInt32.toNat_ofNat_of_lt' (by show n + 1 < 2 ^ 32; omega)
    rw [HttpServerRequest.allocateData, hsucc, htotal, HttpServerRequest.withBuffer, filled]
    rfl
  refine ⟨rfl, ?_⟩
  show allocate { mReq := r.prepared } = _
  rw [allocate, if_pos ⟨rfl, rfl⟩, hlookup]
  show (if UInt32.ofInt (Scan.atoi text) ≠ 0 then _ else _ : ResponseState) = _
  rw [hatoi, if_pos (ofNat_ne_zero hpos hn), hbuffer]
  rfl

theorem ready_receiving (hpos : 0 < n) (hn : n < 2 ^ 31) (received : UploadData) :
    Ready r n received (receiving r n received) := by
  -- the headers are inserted with every part, which changes nothing
  have hprepare : prepareOnce r (receiving r n received) = receiving r n received := by
    have hphase : (receiving r n received).mPhase = 1 := rfl
    have hreq : prepare r (receiving r n received).mReq = (receiving r n received).mReq := by
      show (prepare r r.prepared).withBuffer n received = _
      rw [ClientRequest.prepared, prepare_prepare]
      rfl
    rw [prepareOnce, if_pos hphase, hreq]
  -- and the buffer is there
  have hlength : ¬ ((receiving r n received).mContentLength = 0
      ∧ (receiving r n received).mPhase = 1) := fun h => ofNat_ne_zero hpos hn h.1
  refine ⟨rfl, ?_⟩
  rw [hprepare, allocate, if_neg hlength]

/-! ## Runs -/

theorem serve_of_callsAgain {aPtr : Option ResponseState} {outcome : Outcome}
    (h : dispatch server r aPtr call = .ok (state, outcome)) (hagain : outcome.callsAgain = true)
    (calls : List Call) :
    serve server r aPtr (call :: calls)
      = (serve server r (some state) calls).map (outcome :: ·) := by
  rw [serve, h, except_bind_of_ok rfl]
  simp only [hagain, if_true]
  rfl

theorem serve_of_not_callsAgain {aPtr : Option ResponseState} {outcome : Outcome}
    (h : dispatch server r aPtr call = .ok (state, outcome))
    (hlast : outcome.callsAgain = false) (calls : List Call) :
    serve server r aPtr (call :: calls) = .ok [outcome] := by
  rw [serve, h, except_bind_of_ok rfl]
  simp only [hlast]
  rfl

/-- What is seen of the last part and of the calls behind it: the handler is invoked
    once, by the first of them, and if it returns and its response is taken, the
    next call queues that. -/
structure Completes (server : HttpServer) (r : ClientRequest) (body : UploadData) (after : Call)
    (last : Outcome) (tail : List Outcome) : Prop where
  invoked : invocations [last] = [uploaded r body]
  once : invocations tail = []
  queued : ∀ resp, (eventOf server r.method).call (uploaded r body) {} = .ok resp →
    after.answer resp.reply = .taken →
    last = ⟨true, 0, [.invoked (uploaded r body)]⟩ ∧ tail = [⟨true, 0, [.queued resp.reply]⟩]

variable {body : UploadData} {after : Call}

theorem serve_last (server : HttpServer) (hmethod : r.method = .POST ∨ r.method = .PUT)
    (hn : body.length < 2 ^ 31) (hready : Ready r body.length received state)
    (hdata : call.aUploadData ≠ []) (hbody : received ++ call.aUploadData = body)
    (hafter : after.aUploadData = []) (rest : List Call) :
    ∃ last tail, serve server r (some state) (call :: after :: rest) = .ok (last :: tail)
      ∧ Completes server r body after last tail := by
  cases hevent : (eventOf server r.method).call (uploaded r body) {} with
  | error what =>
    obtain ⟨state', htry⟩ := tryBlock_of_error
      (s := ⟨state, call.aUploadData.length, []⟩) hmethod hn hready hdata hbody hevent
    -- the handler was invoked, and no call follows
    obtain ⟨last, hdispatch, hlast, hrequests⟩ := dispatch_of_threw htry
    refine ⟨last, [], serve_of_not_callsAgain hdispatch hlast _, ?_, rfl, ?_⟩
    · simpa [invocations, Event.request?] using hrequests
    · intro resp hresp
      cases hevent.symm.trans hresp
  | ok resp =>
    have hdispatch := dispatch_of_ok (tryBlock_of_ok (s := ⟨state, call.aUploadData.length, []⟩)
      hmethod hn hready hdata hbody hevent)
    -- the next call is made in the second phase, and it is the last
    have hphase : (finished r body resp).mPhase = 2 := rfl
    obtain ⟨state', outcome, hnext, hlast, hrequests⟩ :=
      dispatch_of_phase_two server after hmethod hphase
    refine ⟨⟨true, 0, [.invoked (uploaded r body)]⟩, [outcome], ?_, rfl, hrequests, ?_⟩
    · rw [serve_of_callsAgain hdispatch rfl, serve_of_not_callsAgain hnext hlast]
      rfl
    · intro resp' hresp' htaken
      obtain rfl := Except.ok.inj (hevent.symm.trans hresp')
      have hqueue := dispatch_of_taken server hmethod hphase htaken
      obtain ⟨-, rfl⟩ := Prod.mk.inj (Except.ok.inj (hnext.symm.trans hqueue))
      rw [hafter]
      exact ⟨rfl, rfl⟩

/-- The parts of a body, by induction: nothing is seen of a part that is not the
    last. -/
theorem serve_parts (server : HttpServer) (hmethod : r.method = .POST ∨ r.method = .PUT)
    (hpos : 0 < body.length) (hn : body.length < 2 ^ 31) {parts : List Call} (hne : parts ≠ [])
    (hparts : ∀ part ∈ parts, part.aUploadData ≠ [])
    (hbody : received ++ parts.flatMap Call.aUploadData = body)
    (hready : Ready r body.length received state) (hafter : after.aUploadData = [])
    (rest : List Call) :
    ∃ last tail, serve server r (some state) (parts ++ after :: rest)
        = .ok (List.replicate (parts.length - 1) .quiet ++ last :: tail)
      ∧ Completes server r body after last tail := by
  induction parts generalizing received state with
  | nil => exact absurd rfl hne
  | cons part parts ih =>
    have hdata := hparts part (List.mem_cons_self ..)
    rw [List.flatMap_cons] at hbody
    cases parts with
    | nil =>
      rw [List.flatMap_nil, List.append_nil] at hbody
      exact serve_last server hmethod hn hready hdata hbody hafter rest
    | cons next parts =>
      -- there is data to come, so the offset stays below the length
      have hnext : 0 < next.aUploadData.length :=
        List.length_pos_iff.mpr (hparts next (by simp))
      have hlt : received.length + part.aUploadData.length < body.length := by
        rw [← hbody, List.flatMap_cons]
        simp only [List.length_append]
        omega
      obtain ⟨last, tail, hserve, hcompletes⟩ := ih (by simp)
        (fun other hother => hparts other (List.mem_cons_of_mem _ hother))
        (by rw [List.append_assoc, hbody]) (ready_receiving hpos hn _)
      refine ⟨last, tail, ?_, hcompletes⟩
      rw [List.cons_append, serve_of_callsAgain
        (dispatch_of_lt hmethod hn hready hdata hlt) rfl, hserve]
      rfl

/-- A body of the length that the header says, in any parts: nothing is written past
    the end of the buffer, nothing is seen of the calls before the last part, and
    that completes the request. -/
theorem serve_upload (server : HttpServer) {parts : List Call} {initial : Call}
    (hmethod : r.method = .POST ∨ r.method = .PUT) (hheader : HasContentLength r body.length)
    (hpos : 0 < body.length) (hn : body.length < 2 ^ 31)
    (hinitial : initial.aUploadData = []) (hparts : ∀ part ∈ parts, part.aUploadData ≠ [])
    (hbody : parts.flatMap Call.aUploadData = body) (hafter : after.aUploadData = [])
    (rest : List Call) :
    ∃ last tail, serve server r none (initial :: parts ++ after :: rest)
        = .ok (List.replicate parts.length .quiet ++ last :: tail)
      ∧ Completes server r body after last tail := by
  have hne : parts ≠ [] := by
    rintro rfl
    rw [← hbody] at hpos
    exact absurd hpos (by decide)
  obtain ⟨last, tail, hserve, hcompletes⟩ := serve_parts server hmethod hpos hn hne hparts
    hbody (ready_first hpos hn hheader) hafter rest
  have hfirst : dispatch server r none initial
      = .ok ({ mReq := { mUrl := r.url } }, .quiet) := by
    rw [dispatch, hinitial]
    rfl
  have hlength : parts.length = (parts.length - 1) + 1 := by
    have := List.length_pos_iff.mpr hne
    omega
  refine ⟨last, tail, ?_, hcompletes⟩
  rw [List.cons_append, serve_of_callsAgain hfirst rfl, hserve, hlength, List.replicate_succ]
  rfl

/-- A body of two bytes in two parts. -/
theorem serve_upload_twoParts :
    let call (data : UploadData) : Call := ⟨data, fun _ => .taken⟩
    let server : HttpServer := ⟨[], [fun _ resp => .ok { resp with mCode := 404 }], [], []⟩
    let r : ClientRequest := ⟨.POST, ['/'], [("Content-Length".toList, some ['2'])], []⟩
    ∃ reply, serve server r none [call [], call [7], call [8], call []]
      = .ok [.quiet, .quiet, ⟨true, 0, [.invoked (uploaded r [7, 8])]⟩,
          ⟨true, 0, [.queued reply]⟩] := by
  intro call server r
  have hfind : (r.headers.find? fun kv => kv.1 = "Content-Length".toList)
      = some ("Content-Length".toList, some ['2']) :=
    List.find?_cons_of_pos (decide_eq_true rfl)
  have hdigits : ∀ c ∈ ['2'], c.isDigit = true := by
    intro c hc
    rw [List.mem_singleton.mp hc]
    rfl
  have hheader : HasContentLength r [7, 8].length := ⟨['2'], congrArg _ hfind, hdigits, rfl⟩
  have hparts : ∀ part ∈ [call [7], call [8]], part.aUploadData ≠ [] := by
    intro part hpart
    simp only [List.mem_cons, List.not_mem_nil, or_false] at hpart
    rcases hpart with rfl | rfl <;> exact List.cons_ne_nil _ _
  have hbody : [call [7], call [8]].flatMap Call.aUploadData = [7, 8] := rfl
  have hnone : (call []).aUploadData = [] := rfl
  obtain ⟨last, tail, hserve, hcompletes⟩ := serve_upload server (Or.inl rfl) hheader (by decide)
    (by decide) hnone hparts hbody hnone []
  obtain ⟨rfl, rfl⟩ := hcompletes.queued _ rfl rfl
  exact ⟨_, hserve⟩

/-- With another spelling of the header the handler has no data; and a handler that
    throws has its response queued in the call that invokes it. -/
theorem serve_not_upload :
    let call (data : UploadData) : Call := ⟨data, fun _ => .taken⟩
    let r (name : String) : ClientRequest := ⟨.POST, ['/'], [(name.toList, some ['1'])], []⟩
    let calls := [call [], call [7], call []]
    (∃ req tail, serve ⟨[], [fun _ resp => .ok resp], [], []⟩ (r "content-length") none calls
        = .ok (.quiet :: ⟨true, 0, [.invoked req]⟩ :: tail) ∧ req.mData = []) ∧
    (∃ req reply, serve ⟨[], [fun _ _ => .error []], [], []⟩ (r "Content-Length") none calls
        = .ok [.quiet, ⟨true, 1, [.invoked req, .queued reply]⟩]) :=
  ⟨⟨_, _, rfl, rfl⟩, ⟨_, _, rfl⟩⟩

end Arras4Core.Network.Http
