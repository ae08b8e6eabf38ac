/-
  Arras4Core.Client.LogClient

  The complete download of log records, `getLogsBySessionIdComplete` and
  `getLogsBySessionIdAndCompNameComplete` of `LogClient`: the response has a record
  in JSON on each line.

  The loop stops where no '\n' is left, so the text behind the last one is not a
  line to it.  And a line that is neither an object nor null ends the download
  with an exception, although a line that is no record should only be skipped.
-/

import Arras4Core.Api.ObjectText

namespace Arras4Core.Client

open Arras4Core.Api (Object Exception)
open Arras4Core.Lib
open Arras4Core.Lib.Text

/-- `log_client::LogClientException` -/
structure LogClientException where
  mWhat : String

structure LogRecord where
  id : String
  sessionId : String
  hostname : String
  loglevel : String
  output : String
  processname : String
  timestamp : String
  thread : String
  pid : String
  timestampEpochUsecs : String
  deriving DecidableEq

/-- The log service and the JSON library.  Exceptions are given as their `what()`. -/
structure LogService where
  mBaseUrl : String
  /-- `fetch(url)` and `getResponseString` -/
  fetch : String → Except String (List Char)
  /-- `api::stringToObject` -/
  stringToObject : List Char → Except String Object
  /-- `what()` of an exception of a `Json::Value` -/
  what : Exception → String

namespace LogClient

def BY_COMPLETE_SESSION_PATH : String := "/logs/complete/session/"

/-- `buildUrl` with no times and no pages. -/
def buildUrl (baseUrl : String) (ascendingOrder : Bool) : String :=
  baseUrl ++ "?" ++ if ascendingOrder then "sort=asc" else "sort=desc"

/-- The members that `objectIsLogRecord` asks for. -/
def recordMembers : List String :=
  ["id", "sessionId", "hostname", "loglevel", "output", "processname", "timestamp", "thread",
    "pid", "timestampEpochUsecs"]

def objectIsLogRecord (obj : Object) : Except Exception Bool :=
  recordMembers.allM (obj.isMember ·)

/-- `obj[key].asString()` -/
def field (obj : Object) (key : String) : Except Exception String := do
  (← obj.get key).asString

def objectToLogRecord (obj : Object) : Except Exception LogRecord := do
  let id ← field obj "id"
  let sessionId ← field obj "sessionId"
  let hostname ← field obj "hostname"
  let loglevel ← field obj "loglevel"
  let output ← field obj "output"
  let processname ← field obj "processname"
  let timestamp ← field obj "timestamp"
  let thread ← field obj "thread"
  let pid ← field obj "pid"
  let timestampEpochUsecs ← field obj "timestampEpochUsecs"
  return {
    id, sessionId, hostname, loglevel, output, processname, timestamp, thread, pid,
    timestampEpochUsecs }

/-- The record that an object is added as, if it is. -/
def convertObject (obj : Object) : Except Exception (Option LogRecord) := do
  if ← objectIsLogRecord obj then
    return some (← objectToLogRecord obj)
  else return none

section

variable (service : LogService)

/-- The `try` block for a line. -/
def convertLine (line : List Char) : Except String (Option LogRecord) :=
  if line.length > 0 then do
    let obj ← service.stringToObject line
    (convertObject obj).mapError service.what
  else return none

/-- The loop over the response, from `pos` on. -/
def convertFrom (respStr : List Char) (pos : Nat) (records : List LogRecord) :
    Except String (List LogRecord) :=
  if pos < respStr.length then
    match _hfind : find respStr '\n' pos with
    | none => .ok records
    | some newline =>
      let line := substr respStr pos (newline - pos)
      match convertLine service line with
      | .error what => .error (what ++ ", line: " ++ String.ofList line)
      | .ok record => convertFrom respStr (newline + 1) (records ++ record.toList)
  else .ok records
termination_by respStr.length - pos
decreasing_by
  have := find_lt_length _hfind
  omega

/-- The rest of either function, from the call of `fetch` on. -/
def getComplete (function url : String) : Except LogClientException (List LogRecord) :=
  match service.fetch url with
  | .error what => .error ⟨function ++ ": " ++ what ++ ", url: " ++ url⟩
  | .ok respStr =>
    (convertFrom service respStr 0 []).mapError fun msg => ⟨function ++ ": " ++ msg⟩

def sessionUrl (sessionId : String) (ascendingOrder : Bool) : String :=
  buildUrl (service.mBaseUrl ++ BY_COMPLETE_SESSION_PATH ++ sessionId) ascendingOrder

def getLogsBySessionIdComplete (sessionId : String) (ascendingOrder : Bool) :
    Except LogClientException (List LogRecord) :=
  getComplete service "getLogsBySessionIdComplete" (sessionUrl service sessionId ascendingOrder)

def compNameUrl (sessionId compName : String) (ascendingOrder : Bool) : String :=
  buildUrl (service.mBaseUrl ++ BY_COMPLETE_SESSION_PATH ++ (sessionId ++ "/" ++ compName))
    ascendingOrder

def getLogsBySessionIdAndCompNameComplete (sessionId compName : String) (ascendingOrder : Bool) :
    Except LogClientException (List LogRecord) :=
  getComplete service "getLogsBySessionIdAndCompNameComplete"
    (compNameUrl service sessionId compName ascendingOrder)

end

/-! ## What it is for -/

/-- An object with all the members of a record, each of which has a text. -/
def isRecord (obj : Object) : Bool :=
  recordMembers.all fun key => obj.hasMember key && (obj.member key).isScalar

def recordOf (obj : Object) : LogRecord where
  id := (obj.member "id").text
  sessionId := (obj.member "sessionId").text
  hostname := (obj.member "hostname").text
  loglevel := (obj.member "loglevel").text
  output := (obj.member "output").text
  processname := (obj.member "processname").text
  timestamp := (obj.member "timestamp").text
  thread := (obj.member "thread").text
  pid := (obj.member "pid").text
  timestampEpochUsecs := (obj.member "timestampEpochUsecs").text

section

variable (service : LogService)

/-- The record on a line, if it is one. -/
def recordOfLine (line : List Char) : Option LogRecord :=
  match line with
  | [] => none
  | _ :: _ =>
    match service.stringToObject line with
    | .error _ => none
    | .ok obj => if isRecord obj then some (recordOf obj) else none

/-- The records of a response: those on its lines, the last included. -/
def records (respStr : List Char) : List LogRecord :=
  (respStr.splitOn '\n').filterMap (recordOfLine service)

/-- A line that is converted or skipped, and not an error. -/
def Converts (line : List Char) : Prop :=
  line = [] ∨ ∃ obj, service.stringToObject line = .ok obj ∧ obj.isObjectOrNull = true ∧
    (recordMembers.all obj.hasMember = true → isRecord obj = true)

/-- The lines behind which there is a '\n'. -/
def terminated (respStr : List Char) : List (List Char) := (respStr.splitOn '\n').dropLast

/-- What is behind the last '\n'. -/
def unterminated (respStr : List Char) : List Char := ((respStr.splitOn '\n').getLast?).getD []

end

/-! ## One line -/

theorem allM_of_ok {f : String → Except Exception Bool} {g : String → Bool} {keys : List String}
    (h : ∀ key, f key = .ok (g key)) : keys.allM f = .ok (keys.all g) := by
  induction keys with
  | nil => rfl
  | cons key keys ih =>
    rw [List.allM_cons, except_bind_of_ok (h key), List.all_cons]
    cases g key with
    | true => exact ih
    | false => rfl

theorem objectIsLogRecord_of_isObjectOrNull {obj : Object} (h : obj.isObjectOrNull = true) :
    objectIsLogRecord obj = .ok (recordMembers.all obj.hasMember) :=
  allM_of_ok fun key => by rw [Object.isMember_eq, if_pos h]

theorem field_eq_ok_iff {obj : Object} (h : obj.isObjectOrNull = true) (key s : String) :
    field obj key = .ok s ↔ (obj.member key).isScalar = true ∧ s = (obj.member key).text := by
  rw [field, except_bind_of_ok (Object.get_of_isObjectOrNull h key), Object.asString_eq]
  split
  · next hscalar =>
    constructor
    · intro heq
      exact ⟨hscalar, (Except.ok.inj heq).symm⟩
    · rintro ⟨-, rfl⟩
      rfl
  · next hscalar =>
    constructor
    · intro heq
      cases heq
    · rintro ⟨hyes, -⟩
      exact absurd hyes hscalar

/-- A record is made of an object all of whose members have a text. -/
theorem objectToLogRecord_eq_ok_iff {obj : Object} (h : obj.isObjectOrNull = true)
    (record : LogRecord) :
    objectToLogRecord obj = .ok record ↔
      (∀ key ∈ recordMembers, (obj.member key).isScalar = true) ∧ recordOf obj = record := by
  simp only [objectToLogRecord, except_bind_eq_ok_iff, field_eq_ok_iff h, and_assoc,
    exists_and_left, exists_eq_left, recordMembers, List.forall_mem_cons, List.not_mem_nil,
    false_imp_iff, implies_true, and_true, recordOf, pure, Except.pure, Except.ok.injEq]

theorem isRecord_iff (obj : Object) :
    isRecord obj = true ↔ recordMembers.all obj.hasMember = true ∧
      ∀ key ∈ recordMembers, (obj.member key).isScalar = true := by
  simp only [isRecord, List.all_eq_true, Bool.and_eq_true_iff, forall_and]

/-- An object that has the members of a record is one, or it is an error. -/
theorem convertObject_eq_ok_iff {obj : Object} (h : obj.isObjectOrNull = true)
    (record : Option LogRecord) :
    convertObject obj = .ok record ↔
      (recordMembers.all obj.hasMember = true → isRecord obj = true) ∧
        (if isRecord obj then some (recordOf obj) else none) = record := by
  have hiff := isRecord_iff obj
  rw [convertObject, except_bind_of_ok (objectIsLogRecord_of_isObjectOrNull h)]
  cases hall : recordMembers.all obj.hasMember with
  | false =>
    have hno : ¬isRecord obj = true := by
      intro hyes
      cases hall.symm.trans (hiff.mp hyes).1
    simp only [Bool.false_eq_true, if_false, hno, false_imp_iff, true_and]
    exact ⟨Except.ok.inj, congrArg _⟩
  | true =>
    simp only [if_true, except_bind_eq_ok_iff, objectToLogRecord_eq_ok_iff h, true_imp_iff]
    constructor
    · rintro ⟨r, ⟨hscalar, rfl⟩, hr⟩
      have hyes := hiff.mpr ⟨hall, hscalar⟩
      exact ⟨hyes, (if_pos hyes).trans (Except.ok.inj hr)⟩
    · rintro ⟨hyes, hr⟩
      rw [if_pos hyes] at hr
      exact ⟨recordOf obj, ⟨(hiff.mp hyes).2, rfl⟩, congrArg _ hr⟩

theorem convertObject_of_not_isObjectOrNull {obj : Object} (h : ¬obj.isObjectOrNull = true) :
    convertObject obj = .error .jsonLogicError := by
  have hmember : obj.isMember "id" = .error .jsonLogicError := by
    rw [Object.isMember_eq, if_neg h]
  have hfirst : objectIsLogRecord obj = .error .jsonLogicError := by
    rw [objectIsLogRecord, recordMembers, List.allM_cons, except_bind_of_error hmember]
  rw [convertObject, except_bind_of_error hfirst]

variable {service : LogService}

/-- A line is converted to its record, unless it is an error. -/
theorem convertLine_eq_ok_iff (line : List Char) (record : Option LogRecord) :
    convertLine service line = .ok record ↔
      Converts service line ∧ recordOfLine service line = record := by
  cases line with
  | nil =>
    constructor
    · intro h
      exact ⟨Or.inl rfl, Except.ok.inj h⟩
    · rintro ⟨-, h⟩
      exact congrArg _ h
  | cons c line =>
    rw [convertLine, if_pos (by simp), Converts, recordOfLine]
    cases hparse : service.stringToObject (c :: line) with
    | error what =>
      rw [except_bind_of_error rfl]
      refine iff_of_false (except_error_ne_ok _ _) ?_
      rintro ⟨hempty | ⟨obj, hobj, -⟩, -⟩
      · cases hempty
      · cases hobj
    | ok obj =>
      rw [except_bind_of_ok rfl, except_mapError_eq_ok_iff]
      by_cases hobj : obj.isObjectOrNull = true
      · rw [convertObject_eq_ok_iff hobj]
        simp [hobj]
      · rw [convertObject_of_not_isObjectOrNull hobj]
        refine iff_of_false (except_error_ne_ok _ _) ?_
        rintro ⟨hempty | ⟨obj', hobj', hyes, -⟩, -⟩
        · cases hempty
        · cases hobj'
          exact hobj hyes

theorem recordOfLine_of_ok {line : List Char} {obj : Object} (hne : line ≠ [])
    (h : service.stringToObject line = .ok obj) :
    recordOfLine service line = if isRecord obj then some (recordOf obj) else none := by
  cases line with
  | nil => exact absurd rfl hne
  | cons c line => simp only [recordOfLine, h]

/-! ## All of the lines -/

/-- A round of the loop, on a line. -/
def addLine (service : LogService) (records : List LogRecord) (line : List Char) :
    Except String (List LogRecord) :=
  match convertLine service line with
  | .error what => .error (what ++ ", line: " ++ String.ofList line)
  | .ok record => .ok (records ++ record.toList)

theorem addLine_of_error {line : List Char} {what : String}
    (h : convertLine service line = .error what) (records : List LogRecord) :
    addLine service records line = .error (what ++ ", line: " ++ String.ofList line) := by
  rw [addLine, h]

theorem addLine_of_ok {line : List Char} {record : Option LogRecord}
    (h : convertLine service line = .ok record) (records : List LogRecord) :
    addLine service records line = .ok (records ++ record.toList) := by
  rw [addLine, h]

theorem addLine_eq_ok_iff (records : List LogRecord) (line : List Char)
    (records' : List LogRecord) :
    addLine service records line = .ok records' ↔
      Converts service line ∧ records ++ (recordOfLine service line).toList = records' := by
  cases h : convertLine service line with
  | error what =>
    rw [addLine_of_error h]
    refine iff_of_false (except_error_ne_ok _ _) ?_
    rintro ⟨hconverts, -⟩
    cases h.symm.trans ((convertLine_eq_ok_iff line _).mpr ⟨hconverts, rfl⟩)
  | ok record =>
    obtain ⟨hconverts, rfl⟩ := (convertLine_eq_ok_iff line record).mp h
    rw [addLine_of_ok h]
    exact ⟨fun heq => ⟨hconverts, Except.ok.inj heq⟩, fun heq => congrArg _ heq.2⟩

/-- A round that finds a '\n': the line is the first of those that end in one. -/
theorem terminated_drop {respStr : List Char} {pos newline : Nat}
    (hfind : find respStr '\n' pos = some newline) :
    terminated (respStr.drop pos)
      = substr respStr pos (newline - pos) :: terminated (respStr.drop (newline + 1)) := by
  obtain ⟨hdrop, hmem, -⟩ := of_find hfind
  rw [terminated, hdrop, List.splitOn_append_cons_self_of_not_mem hmem,
    List.dropLast_cons_of_ne_nil (List.splitOn_ne_nil _ _), terminated]

/-- The loop goes through the lines that end in a '\n'. -/
theorem convertFrom_eq (respStr : List Char) (pos : Nat) (records : List LogRecord) :
    convertFrom service respStr pos records
      = (terminated (respStr.drop pos)).foldlM (addLine service) records := by
  fun_induction convertFrom service respStr pos records with
  | case1 pos records hpos hfind =>
    -- what is left does not end in a '\n', and the loop ends without it
    rw [terminated, List.splitOn_eq_singleton (not_mem_of_find hfind)]
    rfl
  | case2 pos records hpos newline hfind line what hline =>
    -- the error of a line ends the loop
    rw [terminated_drop hfind, List.foldlM_cons,
      except_bind_of_error (addLine_of_error hline records)]
  | case3 pos records hpos newline hfind line record hline ih =>
    rw [terminated_drop hfind, List.foldlM_cons, except_bind_of_ok (addLine_of_ok hline records)]
    exact ih
  | case4 pos records hpos =>
    rw [terminated, List.drop_of_length_le (Nat.not_lt.mp hpos)]
    rfl

/-- The whole loop returns when no line is an error, with the records of the lines. -/
theorem addLines_eq_ok_iff (lines : List (List Char)) (records records' : List LogRecord) :
    lines.foldlM (addLine service) records = .ok records' ↔
      (∀ line ∈ lines, Converts service line) ∧
        records ++ lines.filterMap (recordOfLine service) = records' := by
  induction lines generalizing records with
  | nil =>
    rw [List.filterMap_nil, List.append_nil]
    exact ⟨fun h => ⟨fun line hline => absurd hline List.not_mem_nil, Except.ok.inj h⟩,
      fun h => congrArg _ h.2⟩
  | cons line lines ih =>
    have hfilter : records ++ (line :: lines).filterMap (recordOfLine service)
        = records ++ (recordOfLine service line).toList
          ++ lines.filterMap (recordOfLine service) := by
      rw [List.filterMap_cons, List.append_assoc]
      cases recordOfLine service line <;> rfl
    rw [List.foldlM_cons, List.forall_mem_cons, hfilter, and_assoc, ← ih]
    cases h : addLine service records line with
    | error what =>
      refine iff_of_false (except_error_ne_ok _ _) ?_
      rintro ⟨hconverts, -⟩
      cases h.symm.trans ((addLine_eq_ok_iff records line _).mpr ⟨hconverts, rfl⟩)
    | ok next =>
      obtain ⟨hconverts, rfl⟩ := (addLine_eq_ok_iff records line next).mp h
      exact (and_iff_right hconverts).symm

/-- The lines of a response are those that end in a '\n' and the one behind them. -/
theorem splitOn_eq_terminated (respStr : List Char) :
    respStr.splitOn '\n' = terminated respStr ++ [unterminated respStr] := by
  have hne := List.splitOn_ne_nil '\n' respStr
  rw [terminated, unterminated, List.getLast?_eq_some_getLast hne, Option.getD_some,
    List.dropLast_append_getLast hne]

/-- What keeps the download from being right: a line that is an error, or a record
    behind the last '\n'. -/
def Complete (service : LogService) (respStr : List Char) : Prop :=
  (∀ line ∈ terminated respStr, Converts service line) ∧
    recordOfLine service (unterminated respStr) = none

theorem getComplete_eq_ok_iff {url : String} {respStr : List Char}
    (h : service.fetch url = .ok respStr) (function : String) (records : List LogRecord) :
    getComplete service function url = .ok records ↔
      (∀ line ∈ terminated respStr, Converts service line) ∧
        (terminated respStr).filterMap (recordOfLine service) = records := by
  rw [getComplete, h]
  show (convertFrom service respStr 0 []).mapError _ = _ ↔ _
  rw [except_mapError_eq_ok_iff, convertFrom_eq, List.drop_zero, addLines_eq_ok_iff,
    List.nil_append]

theorem getComplete_records_iff {url : String} {respStr : List Char}
    (h : service.fetch url = .ok respStr) (function : String) :
    getComplete service function url = .ok (records service respStr) ↔
      Complete service respStr := by
  rw [getComplete_eq_ok_iff h, records, splitOn_eq_terminated, List.filterMap_append, Complete]
  refine and_congr_right fun _ => ?_
  rw [List.self_eq_append_right]
  cases hlast : recordOfLine service (unterminated respStr) <;> simp [hlast]

/-- **The complete download loses no record** of a response exactly if no line of
    it is an error, and there is no record behind the last '\n'.  Both functions
    give the same records. -/
theorem completeDownload_iff (service : LogService) (sessionId compName : String)
    (ascendingOrder : Bool) (respStr : List Char)
    (hsession : service.fetch (sessionUrl service sessionId ascendingOrder) = .ok respStr)
    (hcompName :
      service.fetch (compNameUrl service sessionId compName ascendingOrder) = .ok respStr) :
    (getLogsBySessionIdComplete service sessionId ascendingOrder
        = .ok (records service respStr) ↔ Complete service respStr) ∧
    (getLogsBySessionIdAndCompNameComplete service sessionId compName ascendingOrder
        = .ok (records service respStr) ↔ Complete service respStr) ∧
    ∀ found, getLogsBySessionIdComplete service sessionId ascendingOrder = .ok found ↔
      getLogsBySessionIdAndCompNameComplete service sessionId compName ascendingOrder
        = .ok found :=
  ⟨getComplete_records_iff hsession _, getComplete_records_iff hcompName _, fun found =>
    (getComplete_eq_ok_iff hsession _ found).trans (getComplete_eq_ok_iff hcompName _ found).symm⟩

/-- A service that answers with a text, and the grammar of JSON. -/
def answering (respStr : List Char) : LogService where
  mBaseUrl := "http://logs"
  fetch _ := .ok respStr
  stringToObject line :=
    match Json.decode Object.builder line with
    | some obj => .ok obj
    | none => .error "Syntax error"
  what _ := "not an object"

theorem answering_stringToObject (respStr : List Char) {line : List Char} {obj : Object}
    (h : Json.decode Object.builder line = some obj) :
    (answering respStr).stringToObject line = .ok obj := by
  simp only [answering, h]

/-- A record, each member of which is a number. -/
def sevens : Object := .object (recordMembers.map fun key => (key, .int 7))

def sevensText : List Char := Api.appendValue true sevens

theorem decode_sevensText : Json.decode Object.builder sevensText = some sevens := by
  have hprintable : sevens.Printable := by
    refine .object (by decide) fun m hm => ?_
    obtain ⟨key, -, rfl⟩ := List.mem_map.mp hm
    exact .int 7
  exact hprintable.reads.decode_eq

theorem recordOfLine_sevensText (respStr : List Char) :
    recordOfLine (answering respStr) sevensText
      = some ⟨"7", "7", "7", "7", "7", "7", "7", "7", "7", "7"⟩ := by
  have hne : sevensText ≠ [] := by decide +kernel
  have hrecord : isRecord sevens = true := by decide
  rw [recordOfLine_of_ok hne (answering_stringToObject respStr decode_sevensText), if_pos hrecord]
  rfl

theorem not_mem_sevensText : '\n' ∉ sevensText := by decide +kernel

theorem splitOn_sevensText : sevensText.splitOn '\n' = [sevensText] :=
  List.splitOn_eq_singleton not_mem_sevensText

theorem terminated_sevensText : terminated sevensText = [] := by
  rw [terminated, splitOn_sevensText]
  rfl

/-- A record, an empty line, and nothing behind it. -/
def twoLines : List Char := sevensText ++ ['\n', '\n']

theorem splitOn_twoLines : twoLines.splitOn '\n' = [sevensText, [], []] := by
  rw [twoLines, List.splitOn_append_cons_self_of_not_mem not_mem_sevensText]
  rfl

theorem complete_twoLines : Complete (answering twoLines) twoLines := by
  refine ⟨fun line hline => ?_, ?_⟩
  · have hmem : line ∈ [sevensText, []] := by
      rw [terminated, splitOn_twoLines] at hline
      exact hline
    rcases List.mem_pair.mp hmem with rfl | rfl
    · exact Or.inr ⟨sevens, answering_stringToObject _ decode_sevensText, rfl, fun _ => by decide⟩
    · exact Or.inl rfl
  · rw [unterminated, splitOn_twoLines]
    rfl

theorem completeDownload_twoLines :
    getLogsBySessionIdComplete (answering twoLines) "s" true
      = .ok [⟨"7", "7", "7", "7", "7", "7", "7", "7", "7", "7"⟩] := by
  have hrecords : records (answering twoLines) twoLines
      = [⟨"7", "7", "7", "7", "7", "7", "7", "7", "7", "7"⟩] := by
    rw [records, splitOn_twoLines, List.filterMap_cons, recordOfLine_sevensText]
    rfl
  rw [← hrecords]
  exact (completeDownload_iff (answering twoLines) "s" "c" true twoLines rfl rfl).1.mpr
    complete_twoLines

/-- A record that is not followed by a '\n' is lost. -/
theorem completeDownload_lastLine :
    getLogsBySessionIdComplete (answering sevensText) "s" true = .ok [] ∧
      getLogsBySessionIdAndCompNameComplete (answering sevensText) "s" "c" true = .ok [] ∧
      records (answering sevensText) sevensText
        = [⟨"7", "7", "7", "7", "7", "7", "7", "7", "7", "7"⟩] := by
  refine ⟨?_, ?_, ?_⟩
  · refine (getComplete_eq_ok_iff rfl _ _).mpr ?_
    rw [terminated_sevensText]
    exact ⟨fun line hline => absurd hline List.not_mem_nil, rfl⟩
  · refine (getComplete_eq_ok_iff rfl _ _).mpr ?_
    rw [terminated_sevensText]
    exact ⟨fun line hline => absurd hline List.not_mem_nil, rfl⟩
  · rw [records, splitOn_sevensText, List.filterMap_cons, recordOfLine_sevensText]
    rfl

end LogClient

end Arras4Core.Client
