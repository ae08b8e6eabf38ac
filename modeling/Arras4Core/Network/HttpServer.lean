/-
  Arras4Core.Network.HttpServer

  `dispatch` of httpserver/HttpServer.cc, the handler that libmicrohttpd calls for
  a request, again and again until a response is queued or the connection is
  closed.  What it keeps between the calls is a `ResponseState`.

  The server's handlers, and what libmicrohttpd makes of a response, are
  parameters.  Strings are lists of characters, one for a byte.
-/

import Arras4Core.Lib.Bytes
import Arras4Core.Lib.Call
import Arras4Core.Lib.Scan

namespace Arras4Core.Network.Http

open Arras4Core.Lib

/-- A block of bytes from outside. -/
abbrev UploadData := List UInt8

/-! ## Requests -/

/-- `httpserver_types.h`: names are not case-insensitive, and a name has one value. -/
abbrev StringMap := List Char → Option (List Char)

/-- `std::map::insert`, which leaves a value that is there. -/
def StringMap.insert (map : StringMap) (name value : List Char) : StringMap :=
  match map name with
  | some _ => map
  | none => fun other => if other = name then some value else map other

/-- A byte of `mData` is none until it is written; a null `mData` has none. -/
structure HttpServerRequest where
  mUrl : List Char
  mHeaders : StringMap := fun _ => none
  mQueryParams : StringMap := fun _ => none
  mData : List (Option UInt8) := []
  mDataLen : UInt32 := 0

namespace HttpServerRequest

def header (req : HttpServerRequest) (aHeaderName : List Char) : Option (List Char) :=
  req.mHeaders aHeaderName

/-- `_appendData`; `none` when it writes past the end of the buffer. -/
def appendData (req : HttpServerRequest) (aData : UploadData) (aOffset aDataLen : UInt32) :
    Option HttpServerRequest :=
  let nBytes := min (req.mDataLen - aOffset) aDataLen
  if aOffset.toNat + nBytes.toNat ≤ req.mData.length then
    some { req with
      mData := overwrite req.mData aOffset.toNat ((aData.take nBytes.toNat).map some) }
  else none

/-- `_allocateData`, when there is memory. -/
def allocateData (req : HttpServerRequest) (aDataLen : UInt32) : HttpServerRequest :=
  { req with mData := List.replicate aDataLen.toNat none, mDataLen := aDataLen }

end HttpServerRequest

/-! ## Responses -/

/-- A response of libmicrohttpd with its status and headers. -/
structure Reply where
  status : Int
  body : List Char
  headers : List (List Char × List Char) := []

/-- What libmicrohttpd makes of a reply: it cannot create the response, it does not
    queue it, or it does. -/
inductive Answer
  | noResponse
  | refused
  | taken

structure HttpServerResponse where
  mData : List Char := []
  mContentType : List Char := "text/plain".toList
  mText : List Char := []
  mCode : Int := 200

/-- The response that `queue` creates. -/
def HttpServerResponse.reply (resp : HttpServerResponse) : Reply :=
  if resp.mCode = 200 ∧ resp.mData ≠ [] then
    ⟨resp.mCode, resp.mData,
      [("Content-Type".toList, resp.mContentType),
        ("Content-Length".toList, Nat.toDigits 10 resp.mData.length)]⟩
  else
    let text :=
      if resp.mText ≠ [] then resp.mText
      else if resp.mCode = 405 then "Method not supported".toList
      else if resp.mCode = 404 then "Resource not found".toList
      else "Unknown server error".toList
    ⟨resp.mCode, text, [("Content-Type".toList, "text/plain".toList)]⟩

/-! ## The server -/

/-- A handler changes the response, or throws a `std::exception`. -/
abbrev Handler := HttpServerRequest → HttpServerResponse → Except (List Char) HttpServerResponse

abbrev HttpRequestEvent := List Handler

/-- `operator()` -/
def HttpRequestEvent.call (event : HttpRequestEvent) (req : HttpServerRequest)
    (resp : HttpServerResponse) : Except (List Char) HttpServerResponse :=
  event.foldlM (fun resp handler => handler req resp) resp

structure HttpServer where
  GET : HttpRequestEvent
  POST : HttpRequestEvent
  PUT : HttpRequestEvent
  HTTPDELETE : HttpRequestEvent

/-- The methods that `dispatch` compares with. -/
inductive Method
  | GET
  | DELETE
  | POST
  | PUT
  | other

/-- A request as libmicrohttpd has it.  A value may be null. -/
structure ClientRequest where
  method : Method
  url : List Char
  headers : List (List Char × Option (List Char))
  arguments : List (List Char × Option (List Char))

/-- `HttpServer::_prepare` -/
def prepare (r : ClientRequest) (req : HttpServerRequest) : HttpServerRequest :=
  { req with
    mHeaders := r.headers.foldl (fun map kv => map.insert kv.1 (kv.2.getD [])) req.mHeaders
    mQueryParams :=
      r.arguments.foldl (fun map kv => map.insert kv.1 (kv.2.getD [])) req.mQueryParams }

/-! ## A call of `dispatch` -/

structure ResponseState where
  mResp : HttpServerResponse := {}
  mReq : HttpServerRequest
  mOffset : UInt32 := 0
  mContentLength : UInt32 := 0
  mPhase : Nat := 1

/-- A call of libmicrohttpd, with what it makes of a reply in that call. -/
structure Call where
  aUploadData : UploadData
  answer : Reply → Answer

/-- What a call does outside: it invokes an event of the server, or queues a reply. -/
inductive Event
  | invoked (req : HttpServerRequest)
  | queued (reply : Reply)

/-- A call in progress. -/
structure Dispatching where
  state : ResponseState
  aUploadDataSize : Nat
  events : List Event := []

/-- How a call ends early. -/
inductive Stop
  | threw (what : List Char)
  | undefinedBehaviour

abbrev DispatchM := EStateM Stop Dispatching

namespace Dispatching

def setState (f : ResponseState → ResponseState) : DispatchM PUnit :=
  modify fun s => { s with state := f s.state }

def log (event : Event) : DispatchM PUnit :=
  modify fun s => { s with events := s.events ++ [event] }

def handleError (call : Call) (statusCode : Int) (responseMsg : List Char) : DispatchM Bool := do
  let reply : Reply := ⟨statusCode, responseMsg ++ ['\x00'], []⟩
  match call.answer reply with
  | .taken => do
    log (.queued reply)
    return true
  | _ => return false

/-- `HttpServer::_complete`, which is `HttpServerResponse::queue`. -/
def complete (call : Call) : DispatchM Bool := do
  let s ← get
  let reply := s.state.mResp.reply
  match call.answer reply with
  | .taken => do
    log (.queued reply)
    return true
  | .refused => throw (.threw "HttpServerResponse Could not queue response".toList)
  | .noResponse => return false

def invoke (event : HttpRequestEvent) : DispatchM PUnit := do
  let s ← get
  log (.invoked s.state.mReq)
  match event.call s.state.mReq s.state.mResp with
  | .ok resp => setState fun state => { state with mResp := resp }
  | .error what => throw (.threw what)

def append (aData : UploadData) (aOffset aDataLen : UInt32) : DispatchM PUnit := do
  let s ← get
  match s.state.mReq.appendData aData aOffset aDataLen with
  | some req => setState fun state => { state with mReq := req }
  | none => throw .undefinedBehaviour

/-- The length in the header is found with `atoi`. -/
def allocate (state : ResponseState) : ResponseState :=
  if state.mContentLength = 0 ∧ state.mPhase = 1 then
    match state.mReq.header "Content-Length".toList with
    | some lenStr =>
      let mContentLength := UInt32.ofInt (Scan.atoi lenStr)
      if mContentLength ≠ 0 then
        -- extra byte for null termination
        { state with mContentLength, mReq := state.mReq.allocateData (mContentLength + 1) }
      else { state with mContentLength }
    | none => state
  else state

def appendPart (call : Call) : DispatchM PUnit := do
  setState allocate
  let usDataSize := UInt32.ofNat call.aUploadData.length
  append call.aUploadData (← get).state.mOffset usDataSize
  setState fun state => { state with mOffset := state.mOffset + usDataSize }

def endBody (event : HttpRequestEvent) : DispatchM PUnit := do
  -- null terminate the request body
  append [0] (← get).state.mContentLength 1
  invoke event
  setState fun state => { state with mPhase := 2 }

/-- Phase 1 with upload data. -/
def takePart (event : HttpRequestEvent) (call : Call) : DispatchM PUnit := do
  appendPart call
  let s ← get
  if s.state.mContentLength ≤ s.state.mOffset then endBody event
  modify fun s => { s with aUploadDataSize := 0 }

/-- Phase 1 without: if there was no POST message body, we have only the one phase.
    The value that `_complete` returns is lost. -/
def noBody (event : HttpRequestEvent) (call : Call) : DispatchM PUnit := do
  invoke event
  discard <| complete call

/-- A POST or a PUT. -/
def upload (event : HttpRequestEvent) (call : Call) : DispatchM Bool := do
  match (← get).state.mPhase with
  | 1 => do
    if call.aUploadData = [] then noBody event call else takePart event call
    return true
  | 2 => complete call
  | _ => throw (.threw "POST/PUT message sequence error".toList)

def byMethod (server : HttpServer) (r : ClientRequest) (call : Call) : DispatchM Bool :=
  match r.method with
  | .GET => do
    invoke server.GET
    complete call
  | .DELETE => do
    invoke server.HTTPDELETE
    complete call
  | .POST => upload server.POST call
  | .PUT => upload server.PUT call
  | .other => handleError call 405 "Method Not Allowed".toList

def prepareOnce (r : ClientRequest) (state : ResponseState) : ResponseState :=
  if state.mPhase = 1 then { state with mReq := prepare r state.mReq } else state

/-- The `try` block. -/
def tryBlock (server : HttpServer) (r : ClientRequest) (call : Call) : DispatchM Bool := do
  setState (prepareOnce r)
  let rtn ← byMethod server r call
  if rtn then return rtn
  else handleError call 404 "Not Found".toList

/-- The `try` block and its handler. -/
def tryDispatch (server : HttpServer) (r : ClientRequest) (call : Call) : DispatchM Bool := do
  match ← attempt (tryBlock server r call) with
  | .ok rtn => return rtn
  | .error (.threw what) => handleError call 500 ("Internal Server Error: ".toList ++ what)
  | .error .undefinedBehaviour => throw .undefinedBehaviour

end Dispatching

/-- How a call ended: the value it returned, the upload data it left, and its events. -/
structure Outcome where
  rtn : Bool
  aUploadDataSize : Nat
  events : List Event

/-- `dispatch`, with the value of `*aPtr` before and after. -/
def dispatch (server : HttpServer) (r : ClientRequest) (aPtr : Option ResponseState)
    (call : Call) : Except Stop (ResponseState × Outcome) :=
  match aPtr with
  | none => .ok ({ mReq := { mUrl := r.url } }, ⟨true, call.aUploadData.length, []⟩)
  | some state =>
    match Dispatching.tryDispatch server r call ⟨state, call.aUploadData.length, []⟩ with
    | .ok rtn s => .ok (s.state, ⟨rtn, s.aUploadDataSize, s.events⟩)
    | .error e _ => .error e

/-! ## The calls for a request -/

def Event.isQueued : Event → Bool
  | .queued _ => true
  | .invoked _ => false

/-- libmicrohttpd calls again while the value returned is `MHD_YES` and no response
    was queued. -/
def Outcome.callsAgain (outcome : Outcome) : Bool :=
  outcome.rtn && !outcome.events.any Event.isQueued

/-- The calls for a request, as far as they are made. -/
def serve (server : HttpServer) (r : ClientRequest) :
    Option ResponseState → List Call → Except Stop (List Outcome)
  | _, [] => .ok []
  | aPtr, call :: calls => do
    let (state, outcome) ← dispatch server r aPtr call
    if outcome.callsAgain then
      let outcomes ← serve server r (some state) calls
      return outcome :: outcomes
    else return [outcome]

end Arras4Core.Network.Http
