/-
  Arras4Core.Log.AutoLogger

  `OutputCapture` of the auto logger as a transition system: the pipe thread
  reads lines and queues them, the log thread takes them from the queue and logs
  them.  A step is one critical section of `mQueueMutex`, from taking the mutex
  to releasing or waiting, or one call outside of it (`fgets`, `logMessage`).

  One condition variable serves both directions of the bounded queue, and it is
  only notified when the queue stops being empty or stops being full.  Waits may
  end without a notification.
-/

import Arras4Core.Lib.Fair

namespace Arras4Core.Log

open Arras4Core.Lib

/-- `OutputCapture::MAX_QUEUE`. -/
def MAX_QUEUE : Nat := 4096

/-- A message without the newline that `fgets` leaves at its end. -/
def stripNewline (message : String) : String :=
  if message.toList.getLast? = some '\n' then String.ofList message.toList.dropLast
  else message

/-- The line that the destructor of `OutputCapture` writes. -/
def closingLine : String := "Closing stream prefixer\n"

/-- The pipe thread.  At `wait` it is blocked on `mQueueCondition`. -/
inductive PipePc
  | read
  | push (message : String)
  | wait (message : String)
  | ended
  deriving DecidableEq

inductive LogPc
  | pop
  | wait
  | log (message : String)
  | putBack (message : String)
  | ended
  deriving DecidableEq

/-- What `notify_all` does to a thread that is blocked. -/
def PipePc.notified : PipePc → PipePc
  | .wait message => .push message
  | pc => pc

def LogPc.notified : LogPc → LogPc
  | .wait => .pop
  | pc => pc

/-- The line that the pipe thread has in its hands. -/
def PipePc.held : PipePc → List String
  | .push message | .wait message => [message]
  | .read | .ended => []

def LogPc.held : LogPc → List String
  | .log message => [message]
  | .pop | .wait | .putBack _ | .ended => []

/-- The steps that the log thread has yet to take with the message it has. -/
def LogPc.left : LogPc → Nat
  | .log _ | .putBack _ => 1
  | .pop | .wait | .ended => 0

theorem LogPc.left_le (pc : LogPc) : pc.left ≤ 1 := by
  cases pc <;> simp [left]

/-- A notification that is only sent where `c` holds. -/
def PipePc.notifiedWhen (c : Prop) [Decidable c] (pc : PipePc) : PipePc :=
  if c then pc.notified else pc

def LogPc.notifiedWhen (c : Prop) [Decidable c] (pc : LogPc) : LogPc :=
  if c then pc.notified else pc

section Notified

variable {c : Prop} [Decidable c]

@[simp] theorem PipePc.held_notifiedWhen (pc : PipePc) : (pc.notifiedWhen c).held = pc.held := by
  by_cases hc : c <;> cases pc <;> simp [notifiedWhen, notified, held, hc]

@[simp] theorem LogPc.left_notifiedWhen (pc : LogPc) : (pc.notifiedWhen c).left = pc.left := by
  by_cases hc : c <;> cases pc <;> simp [notifiedWhen, notified, left, hc]

@[simp] theorem LogPc.held_notifiedWhen (pc : LogPc) : (pc.notifiedWhen c).held = pc.held := by
  by_cases hc : c <;> cases pc <;> simp [notifiedWhen, notified, held, hc]

theorem PipePc.notifiedWhen_eq_read {pc : PipePc} : pc.notifiedWhen c = .read ↔ pc = .read := by
  by_cases hc : c <;> cases pc <;> simp [notifiedWhen, notified, hc]

theorem PipePc.notifiedWhen_eq_ended {pc : PipePc} :
    pc.notifiedWhen c = .ended ↔ pc = .ended := by
  by_cases hc : c <;> cases pc <;> simp [notifiedWhen, notified, hc]

theorem PipePc.notifiedWhen_eq_wait {pc : PipePc} {message : String} :
    pc.notifiedWhen c = .wait message ↔ ¬ c ∧ pc = .wait message := by
  by_cases hc : c <;> cases pc <;> simp [notifiedWhen, notified, hc]

theorem LogPc.notifiedWhen_eq_ended {pc : LogPc} :
    pc.notifiedWhen c = .ended ↔ pc = .ended := by
  by_cases hc : c <;> cases pc <;> simp [notifiedWhen, notified, hc]

theorem LogPc.notifiedWhen_eq_putBack {pc : LogPc} {message : String} :
    pc.notifiedWhen c = .putBack message ↔ pc = .putBack message := by
  by_cases hc : c <;> cases pc <;> simp [notifiedWhen, notified, hc]

theorem LogPc.notifiedWhen_eq_wait {pc : LogPc} : pc.notifiedWhen c = .wait ↔ ¬ c ∧ pc = .wait := by
  by_cases hc : c <;> cases pc <;> simp [notifiedWhen, notified, hc]

end Notified

/-- Where `logThreadFunc` goes with a message, once its newline is stripped. -/
def LogPc.handle (message : String) : LogPc :=
  if message.length = 23 ∧ message = "Closing stream prefixer" then .putBack message
  else .log message

theorem LogPc.handle_ne_ended (message : String) : LogPc.handle message ≠ .ended := by
  unfold LogPc.handle
  split <;> nofun

/-- The queue and the threads, the lines that are yet to be read and the messages
    that were logged. -/
structure OutputCapture where
  lines : List String
  mQueue : List String := []
  pipe : PipePc := .read
  logger : LogPc := .pop
  logged : List String := []
  deriving DecidableEq

namespace OutputCapture

def notifyAll (s : OutputCapture) : OutputCapture :=
  { s with pipe := s.pipe.notified, logger := s.logger.notified }

/-- The critical section of `pipeThreadFunc`, and the comparison that follows it. -/
def pushMessage (s : OutputCapture) (message : String) : OutputCapture :=
  if s.mQueue.length ≥ MAX_QUEUE then { s with pipe := .wait message }
  else
    let s := { s with
      mQueue := s.mQueue ++ [message]
      pipe := if message = "Closing stream prefixer\n" then .ended else .read }
    if s.mQueue.length = 1 then s.notifyAll else s

/-- The first critical section of `logThreadFunc`, and the tests that follow it. -/
def popMessage (s : OutputCapture) : OutputCapture :=
  match s.mQueue with
  | [] => { s with logger := .wait }
  | message :: rest =>
    let s := { s with mQueue := rest, logger := LogPc.handle (stripNewline message) }
    if s.mQueue.length = MAX_QUEUE - 1 then s.notifyAll else s

inductive Event
  | pipeReads
  | pipeLocks
  | pipeWakes
  | logLocks
  | logWakes
  | logs
  | putsBack
  deriving DecidableEq

/-- While there is no line to read, the pipe thread stays in `fgets`.  A wait may
    end at any time. -/
def step (mPrefix : String) (s : OutputCapture) : Event → Option OutputCapture
  | .pipeReads =>
    match s.pipe, s.lines with
    | .read, message :: rest => some { s with lines := rest, pipe := .push message }
    | _, _ => none
  | .pipeLocks =>
    match s.pipe with
    | .push message => some (s.pushMessage message)
    | _ => none
  | .pipeWakes =>
    match s.pipe with
    | .wait message => some { s with pipe := .push message }
    | _ => none
  | .logLocks => onlyIf (s.logger = .pop) s.popMessage
  | .logWakes => onlyIf (s.logger = .wait) { s with logger := .pop }
  | .logs =>
    match s.logger with
    | .log message => some { s with logged := s.logged ++ [mPrefix ++ message], logger := .pop }
    | _ => none
  | .putsBack =>
    match s.logger with
    | .putBack message =>
      some { s with mQueue := s.mQueue ++ [message], logger := .ended }.notifyAll
    | _ => none

/-- A capture for which `fgets` returns `lines`, one after the other. -/
def system (mPrefix : String) (lines : List String) : System OutputCapture Event where
  init s := s = { lines := lines }
  step := step mPrefix

/-- The steps that a thread takes.  The end of a wait is not its own doing. -/
inductive Thread
  | pipe
  | logger

def Event.thread : Event → Option Thread
  | .pipeReads | .pipeLocks => some .pipe
  | .logLocks | .logs | .putsBack => some .logger
  | .pipeWakes | .logWakes => none

/-! ## What a step does -/

/-- The steps, one for each way through a critical section. -/
inductive Moves (mPrefix : String) (s : OutputCapture) : Event → OutputCapture → Prop
  | reads {message : String} {rest : List String} (hpc : s.pipe = .read)
      (hlines : s.lines = message :: rest) :
      Moves mPrefix s .pipeReads { s with lines := rest, pipe := .push message }
  | blocks {message : String} (hpc : s.pipe = .push message)
      (hfull : MAX_QUEUE ≤ s.mQueue.length) :
      Moves mPrefix s .pipeLocks { s with pipe := .wait message }
  | pushes {message : String} (hpc : s.pipe = .push message)
      (hroom : s.mQueue.length < MAX_QUEUE) :
      Moves mPrefix s .pipeLocks
        { s with
          mQueue := s.mQueue ++ [message]
          pipe := if message = closingLine then .ended else .read
          logger := s.logger.notifiedWhen (s.mQueue = []) }
  | pipeWakes {message : String} (hpc : s.pipe = .wait message) :
      Moves mPrefix s .pipeWakes { s with pipe := .push message }
  | sleeps (hpc : s.logger = .pop) (hempty : s.mQueue = []) :
      Moves mPrefix s .logLocks { s with logger := .wait }
  | pops {message : String} {rest : List String} (hpc : s.logger = .pop)
      (hqueue : s.mQueue = message :: rest) :
      Moves mPrefix s .logLocks
        { s with
          mQueue := rest
          logger := LogPc.handle (stripNewline message)
          pipe := s.pipe.notifiedWhen (rest.length = MAX_QUEUE - 1) }
  | logWakes (hpc : s.logger = .wait) : Moves mPrefix s .logWakes { s with logger := .pop }
  | logs {message : String} (hpc : s.logger = .log message) :
      Moves mPrefix s .logs
        { s with logged := s.logged ++ [mPrefix ++ message], logger := .pop }
  | putsBack {message : String} (hpc : s.logger = .putBack message) :
      Moves mPrefix s .putsBack
        { s with mQueue := s.mQueue ++ [message], logger := .ended, pipe := s.pipe.notified }

variable {mPrefix : String} {s s' : OutputCapture}

/-- A thread that is not blocked is not affected by a notification. -/
theorem notified_handle (message : String) :
    (LogPc.handle message).notified = LogPc.handle message := by
  unfold LogPc.handle
  split <;> rfl

theorem notified_afterPush (message : String) :
    (if message = closingLine then PipePc.ended else .read).notified
      = if message = closingLine then .ended else .read := by
  split <;> rfl

theorem held_afterPush (message : String) :
    (if message = closingLine then PipePc.ended else .read).held = [] := by
  split <;> rfl

theorem moves {e : Event} (hs : step mPrefix s e = some s') : Moves mPrefix s e s' := by
  cases e with
  | pipeReads =>
    simp only [step] at hs
    split at hs
    case h_2 => cases hs
    next message rest hpc hlines =>
      cases hs
      exact .reads hpc hlines
  | pipeLocks =>
    simp only [step] at hs
    split at hs
    case h_2 => cases hs
    next message hpc =>
      cases hs
      unfold pushMessage
      by_cases hfull : MAX_QUEUE ≤ s.mQueue.length
      · rw [if_pos hfull]
        exact .blocks hpc hfull
      · rw [if_neg hfull]
        have hmoves : Moves mPrefix s .pipeLocks _ := .pushes hpc (by omega)
        by_cases hempty : s.mQueue = []
        · rw [LogPc.notifiedWhen, if_pos hempty] at hmoves
          have hlength : (s.mQueue ++ [message]).length = 1 := by
            rw [hempty]
            rfl
          simp only [if_pos hlength, notifyAll]
          rw [← closingLine, notified_afterPush]
          exact hmoves
        · have hlength : ¬ (s.mQueue ++ [message]).length = 1 := by
            rw [List.length_append, List.length_singleton, Nat.add_eq_right,
              List.length_eq_zero_iff]
            exact hempty
          rw [LogPc.notifiedWhen, if_neg hempty] at hmoves
          simp only [if_neg hlength]
          exact hmoves
  | pipeWakes =>
    simp only [step] at hs
    split at hs
    case h_2 => cases hs
    next message hpc =>
      cases hs
      exact .pipeWakes hpc
  | logLocks =>
    obtain ⟨hpc, rfl⟩ := of_onlyIf hs
    unfold popMessage
    split
    next hempty => exact .sleeps hpc hempty
    next message rest hqueue =>
      have hmoves : Moves mPrefix s .logLocks _ := .pops hpc hqueue
      by_cases hlength : rest.length = MAX_QUEUE - 1
      · rw [PipePc.notifiedWhen, if_pos hlength] at hmoves
        simp only [if_pos hlength, notifyAll, notified_handle]
        exact hmoves
      · rw [PipePc.notifiedWhen, if_neg hlength] at hmoves
        simp only [if_neg hlength]
        exact hmoves
  | logWakes =>
    obtain ⟨hpc, rfl⟩ := of_onlyIf hs
    exact .logWakes hpc
  | logs =>
    simp only [step] at hs
    split at hs
    case h_2 => cases hs
    next message hpc =>
      cases hs
      exact .logs hpc
  | putsBack =>
    simp only [step] at hs
    split at hs
    case h_2 => cases hs
    next message hpc =>
      cases hs
      exact .putsBack hpc

/-! ## The shutdown marker -/

/-- A line that the log thread takes for the shutdown marker. -/
def IsMarker (line : String) : Prop := stripNewline line = "Closing stream prefixer"

instance (line : String) : Decidable (IsMarker line) := by
  unfold IsMarker
  infer_instance

theorem isMarker_closingLine : IsMarker closingLine := by decide

/-- Of the lines that end in a newline, the two threads take the same one for the
    marker. -/
theorem isMarker_iff {line : String} (h : line.toList.getLast? = some '\n') :
    IsMarker line ↔ line = closingLine := by
  constructor
  · intro hmarker
    rw [IsMarker, stripNewline, if_pos h] at hmarker
    have hinit : line.toList.dropLast = "Closing stream prefixer".toList := by
      rw [← hmarker, String.toList_ofList]
    obtain ⟨init, hline⟩ := List.getLast?_eq_some_iff.mp h
    rw [hline, List.dropLast_concat] at hinit
    rw [hinit] at hline
    exact String.toList_inj.mp hline
  · rintro rfl
    exact isMarker_closingLine

theorem handle_of_isMarker {line : String} (h : IsMarker line) :
    LogPc.handle (stripNewline line) = .putBack "Closing stream prefixer" := by
  rw [h]
  rfl

theorem handle_of_not_isMarker {line : String} (h : ¬ IsMarker line) :
    LogPc.handle (stripNewline line) = .log (stripNewline line) := by
  rw [LogPc.handle, if_neg fun hmarker => h hmarker.2]

/-- A marker can only be where the closing line is. -/
theorem last_of_isMarker {before front rest : List String} {line : String}
    (hbefore : ∀ line ∈ before, ¬ IsMarker line)
    (hflow : front ++ line :: rest = before ++ [closingLine]) (hline : IsMarker line) :
    front = before ∧ rest = [] := by
  rcases List.eq_nil_or_concat rest with rfl | ⟨init, last, rfl⟩
  · exact ⟨(List.append_inj' hflow rfl).1, rfl⟩
  · rw [List.concat_eq_append, ← List.cons_append, ← List.append_assoc] at hflow
    have hfront := (List.append_inj' hflow rfl).1
    refine absurd hline (hbefore line ?_)
    rw [← hfront]
    simp

/-! ## Where the lines are -/

def logEntry (mPrefix line : String) : String := mPrefix ++ stripNewline line

/-- Before the marker is taken from the queue.  The lines in `taken` were taken. -/
structure Running (mPrefix : String) (before taken : List String) (s : OutputCapture) : Prop where
  flow : taken ++ (s.mQueue ++ (s.pipe.held ++ s.lines)) = before ++ [closingLine]
  taken_le : taken.length ≤ before.length
  logged : s.logged ++ s.logger.held.map (mPrefix ++ ·) = taken.map (logEntry mPrefix)
  logger : s.logger ≠ .ended ∧ ∀ message, s.logger ≠ .putBack message
  reads : s.pipe = .read → s.lines ≠ []
  ended : s.pipe = .ended → s.lines = []
  bounded : s.mQueue.length ≤ MAX_QUEUE
  pipeWaits : ∀ message, s.pipe = .wait message → s.mQueue.length = MAX_QUEUE
  loggerWaits : s.logger = .wait → s.mQueue = []

/-- After that. -/
structure Closing (mPrefix : String) (before : List String) (s : OutputCapture) : Prop where
  pipe : s.pipe = .ended
  logged : s.logged = before.map (logEntry mPrefix)
  logger : s.logger = .ended ∨ (∃ message, s.logger = .putBack message) ∧ s.mQueue = []

def Invariant (mPrefix : String) (before : List String) (s : OutputCapture) : Prop :=
  (∃ taken, s.Running mPrefix before taken) ∨ s.Closing mPrefix before

variable {before taken : List String}

theorem Running.reads_of_push (h : s.Running mPrefix before taken)
    (hbefore : ∀ line ∈ before, ¬ IsMarker line) {message : String}
    (hpc : s.pipe = .push message) :
    (message = closingLine → s.lines = []) ∧ (message ≠ closingLine → s.lines ≠ []) := by
  have hflow := h.flow
  rw [hpc, ← List.append_assoc] at hflow
  constructor
  · rintro rfl
    exact (last_of_isMarker hbefore hflow isMarker_closingLine).2
  · intro hne hnil
    rw [hnil] at hflow
    exact hne (List.cons.inj (List.append_inj' hflow rfl).2).1

/-- What is taken from the queue is the marker or one of the lines before it. -/
theorem Running.next_of_pop (h : s.Running mPrefix before taken)
    (hbefore : ∀ line ∈ before, ¬ IsMarker line) {message : String} {rest : List String}
    (hqueue : s.mQueue = message :: rest) :
    (IsMarker message ∧ taken = before ∧ rest = [] ∧ s.pipe.held = [] ∧ s.lines = []) ∨
    (¬ IsMarker message ∧ taken.length + 1 ≤ before.length) := by
  have hflow := h.flow
  rw [hqueue, List.cons_append] at hflow
  by_cases hmarker : IsMarker message
  · obtain ⟨htaken, hrest⟩ := last_of_isMarker hbefore hflow hmarker
    rw [List.append_eq_nil_iff, List.append_eq_nil_iff] at hrest
    exact .inl ⟨hmarker, htaken, hrest.1, hrest.2.1, hrest.2.2⟩
  · refine .inr ⟨hmarker, Nat.lt_of_le_of_ne h.taken_le fun heq => ?_⟩
    have hlast := (List.append_inj hflow heq).2
    rw [(List.cons.inj hlast).1] at hmarker
    exact hmarker isMarker_closingLine

/-! ## One step -/

theorem Running.push (h : s.Running mPrefix before taken)
    (hbefore : ∀ line ∈ before, ¬ IsMarker line) {message : String}
    (hpc : s.pipe = .push message) (hroom : s.mQueue.length < MAX_QUEUE) :
    Running mPrefix before taken
      { s with
        mQueue := s.mQueue ++ [message]
        pipe := if message = closingLine then .ended else .read
        logger := s.logger.notifiedWhen (s.mQueue = []) } where
  flow := by
    have hflow := h.flow
    rw [hpc] at hflow
    rw [← hflow]
    by_cases hclosing : message = closingLine <;> simp [hclosing, PipePc.held]
  taken_le := h.taken_le
  logged := by
    rw [← h.logged, LogPc.held_notifiedWhen]
  logger := by
    obtain ⟨hended, hputBack⟩ := h.logger
    simp only [ne_eq, LogPc.notifiedWhen_eq_ended, LogPc.notifiedWhen_eq_putBack]
    exact ⟨hended, hputBack⟩
  reads hread := by
    by_cases hclosing : message = closingLine
    · rw [if_pos hclosing] at hread
      cases hread
    · exact (h.reads_of_push hbefore hpc).2 hclosing
  ended hended := by
    by_cases hclosing : message = closingLine
    · exact (h.reads_of_push hbefore hpc).1 hclosing
    · rw [if_neg hclosing] at hended
      cases hended
  bounded := by
    rw [List.length_append, List.length_singleton]
    exact hroom
  pipeWaits _ hwait := by
    split at hwait <;> cases hwait
  loggerWaits hwait := by
    -- a log thread that waits does so for an empty queue, and is notified now
    obtain ⟨hempty, hwait⟩ := LogPc.notifiedWhen_eq_wait.mp hwait
    exact absurd (h.loggerWaits hwait) hempty

theorem Running.pop (h : s.Running mPrefix before taken) (hpc : s.logger = .pop)
    {message : String} {rest : List String} (hqueue : s.mQueue = message :: rest)
    (hline : ¬ IsMarker message) (hlt : taken.length + 1 ≤ before.length) :
    Running mPrefix before (taken ++ [message])
      { s with
        mQueue := rest
        logger := LogPc.handle (stripNewline message)
        pipe := s.pipe.notifiedWhen (rest.length = MAX_QUEUE - 1) } where
  flow := by
    rw [← h.flow, hqueue]
    simp
  taken_le := by
    rw [List.length_append, List.length_singleton]
    exact hlt
  logged := by
    have hlogged := h.logged
    rw [hpc] at hlogged
    rw [List.map_append, ← hlogged, handle_of_not_isMarker hline]
    simp [LogPc.held, logEntry]
  logger := by
    rw [handle_of_not_isMarker hline]
    exact ⟨nofun, nofun⟩
  reads hread := h.reads (PipePc.notifiedWhen_eq_read.mp hread)
  ended hended := h.ended (PipePc.notifiedWhen_eq_ended.mp hended)
  bounded := by
    have hbounded := h.bounded
    rw [hqueue, List.length_cons] at hbounded
    exact Nat.le_of_succ_le hbounded
  pipeWaits message' hwait := by
    -- a pipe thread that waits does so for a full queue, and is notified now
    obtain ⟨hlength, hwait⟩ := PipePc.notifiedWhen_eq_wait.mp hwait
    have hfull := h.pipeWaits message' hwait
    rw [hqueue, List.length_cons] at hfull
    omega
  loggerWaits hwait := by
    rw [handle_of_not_isMarker hline] at hwait
    cases hwait

/-- When the log thread has the marker, all that came before it was logged. -/
theorem Running.close (h : s.Running mPrefix taken taken) (hpc : s.logger = .pop)
    {message : String} (hmarker : IsMarker message) (hheld : s.pipe.held = [])
    (hlines : s.lines = []) (c : Prop) [Decidable c] :
    Closing mPrefix taken
      { s with
        mQueue := []
        logger := LogPc.handle (stripNewline message)
        pipe := s.pipe.notifiedWhen c } where
  pipe := by
    rw [PipePc.notifiedWhen_eq_ended]
    cases hpipe : s.pipe with
    | read => exact absurd hlines (h.reads hpipe)
    | push | wait =>
      rw [hpipe] at hheld
      cases hheld
    | ended => rfl
  logged := by
    have hlogged := h.logged
    rw [hpc] at hlogged
    simpa [LogPc.held] using hlogged
  logger := .inr ⟨⟨_, handle_of_isMarker hmarker⟩, rfl⟩

theorem Running.next (h : s.Running mPrefix before taken)
    (hbefore : ∀ line ∈ before, ¬ IsMarker line) {e : Event} (hs : Moves mPrefix s e s') :
    s'.Invariant mPrefix before := by
  have hflow := h.flow
  have hlogged := h.logged
  cases hs with
  | reads hpc hlines =>
    rw [hpc, hlines] at hflow
    exact .inl ⟨taken, { h with
      flow := hflow, reads := nofun, ended := nofun, pipeWaits := nofun }⟩
  | blocks hpc hfull =>
    rw [hpc] at hflow
    exact .inl ⟨taken, { h with
      flow := hflow, reads := nofun, ended := nofun,
      pipeWaits := fun _ _ => Nat.le_antisymm h.bounded hfull }⟩
  | pushes hpc hroom => exact .inl ⟨taken, h.push hbefore hpc hroom⟩
  | pipeWakes hpc =>
    rw [hpc] at hflow
    exact .inl ⟨taken, { h with
      flow := hflow, reads := nofun, ended := nofun, pipeWaits := nofun }⟩
  | sleeps hpc hempty =>
    rw [hpc] at hlogged
    exact .inl ⟨taken, { h with
      logged := hlogged, logger := ⟨nofun, nofun⟩, loggerWaits := fun _ => hempty }⟩
  | pops hpc hqueue =>
    rcases h.next_of_pop hbefore hqueue with ⟨hmarker, rfl, rfl, hheld, hlines⟩ | ⟨hline, hlt⟩
    · exact .inr (h.close hpc hmarker hheld hlines _)
    · exact .inl ⟨_, h.pop hpc hqueue hline hlt⟩
  | logWakes hpc =>
    rw [hpc] at hlogged
    exact .inl ⟨taken, { h with
      logged := hlogged, logger := ⟨nofun, nofun⟩, loggerWaits := nofun }⟩
  | logs hpc =>
    rw [hpc] at hlogged
    refine .inl ⟨taken, { h with
      logged := ?_, logger := ⟨nofun, nofun⟩, loggerWaits := nofun }⟩
    simpa [LogPc.held] using hlogged
  | putsBack hpc => exact absurd hpc (h.logger.2 _)

theorem Closing.next (h : s.Closing mPrefix before) {e : Event} (hs : Moves mPrefix s e s') :
    s'.Closing mPrefix before := by
  have hpipe := h.pipe
  have hlogger : ∀ pc, s.logger = pc → pc = .ended ∨ ∃ message, pc = .putBack message := by
    rintro pc rfl
    exact h.logger.imp_right fun hputBack => hputBack.1
  cases hs with
  | reads hpc | blocks hpc | pushes hpc | pipeWakes hpc => cases hpipe.symm.trans hpc
  | sleeps hpc | pops hpc | logWakes hpc | logs hpc =>
    rcases hlogger _ hpc with hnot | ⟨message, hnot⟩ <;> cases hnot
  | putsBack hpc =>
    exact
      { pipe := by rw [hpipe]; rfl
        logged := h.logged
        logger := .inl rfl }

theorem invariant_of_reachable (hbefore : ∀ line ∈ before, ¬ IsMarker line)
    (h : (system mPrefix (before ++ [closingLine])).Reachable s) :
    s.Invariant mPrefix before := by
  apply h.invariant (I := Invariant mPrefix before)
  · rintro s₀ rfl
    refine .inl ⟨[],
      { flow := rfl
        taken_le := Nat.zero_le _
        logged := rfl
        logger := ⟨nofun, nofun⟩
        reads := fun _ => by simp
        ended := nofun
        bounded := Nat.zero_le _
        pipeWaits := nofun
        loggerWaits := nofun }⟩
  · rintro s₁ e s₂ (⟨taken, hI⟩ | hI) - hs
    · exact hI.next hbefore (moves hs)
    · exact .inr (hI.next (moves hs))

/-! ## Both threads come to their ends -/

def Ended (s : OutputCapture) : Prop := s.pipe = .ended ∧ s.logger = .ended

/-- The steps that are left, without those that only go to wait. -/
def left (s : OutputCapture) : Nat :=
  if s.logger = .ended then 0
  else 1 + 4 * s.lines.length + 3 * s.pipe.held.length + 2 * s.mQueue.length + s.logger.left

/-- The next step of the thread is one of them. -/
def Helps : Thread → OutputCapture → Prop
  | .pipe, s => (s.pipe = .read ∧ s.lines ≠ []) ∨
      ∃ message, s.pipe = .push message ∧ s.mQueue.length < MAX_QUEUE
  | .logger, s => (s.logger = .pop ∧ s.mQueue ≠ []) ∨
      ∃ message, s.logger = .log message ∨ s.logger = .putBack message

theorem left_mk {lines mQueue logged : List String} {pipe : PipePc} {logger : LogPc}
    (h : logger ≠ .ended) :
    left ⟨lines, mQueue, pipe, logger, logged⟩
      = 1 + 4 * lines.length + 3 * pipe.held.length + 2 * mQueue.length + logger.left :=
  if_neg h

/-- A step uses up what is left, or it is not one of the thread that helps and does
    not keep that from helping. -/
theorem left_lt_or_helps {t : Thread} (ht : Helps t s) (hlogger : s.logger ≠ .ended) {e : Event}
    (hs : Moves mPrefix s e s') :
    s'.left < s.left ∨ s'.left = s.left ∧ Helps t s' ∧ e.thread ≠ some t := by
  have hleft : s.left = 1 + 4 * s.lines.length + 3 * s.pipe.held.length + 2 * s.mQueue.length
      + s.logger.left := if_neg hlogger
  cases hs with
  | reads hpc hlines =>
    left
    rw [hleft, left_mk hlogger, hpc, hlines]
    simp only [PipePc.held, List.length_cons, List.length_nil]
    omega
  | pushes hpc hroom =>
    left
    rw [left_mk (fun h => hlogger (LogPc.notifiedWhen_eq_ended.mp h)), hleft, hpc,
      held_afterPush, LogPc.left_notifiedWhen]
    simp only [PipePc.held, List.length_append, List.length_cons, List.length_nil]
    omega
  | @pops message rest hpc hqueue =>
    left
    have hone := LogPc.left_le (LogPc.handle (stripNewline message))
    rw [left_mk (LogPc.handle_ne_ended _), hleft, hpc, hqueue, PipePc.held_notifiedWhen,
      List.length_cons]
    omega
  | logs hpc =>
    left
    rw [hleft, left_mk (show LogPc.pop ≠ .ended from nofun), hpc]
    simp only [LogPc.left]
    omega
  | putsBack hpc =>
    left
    rw [hleft, left, if_pos rfl]
    omega
  | blocks hpc hfull =>
    right
    rw [hleft, left_mk hlogger, hpc]
    refine ⟨rfl, ?_⟩
    cases t with
    | pipe =>
      rcases ht with ⟨hread, -⟩ | ⟨_, -, hroom⟩
      · cases hpc.symm.trans hread
      · omega
    | logger => exact ⟨ht, nofun⟩
  | pipeWakes hpc =>
    right
    rw [hleft, left_mk hlogger, hpc]
    refine ⟨rfl, ?_, nofun⟩
    cases t with
    | pipe =>
      rcases ht with ⟨hread, -⟩ | ⟨_, hpush, -⟩
      · cases hpc.symm.trans hread
      · cases hpc.symm.trans hpush
    | logger => exact ht
  | sleeps hpc hempty =>
    right
    rw [hleft, left_mk (show LogPc.wait ≠ .ended from nofun), hpc]
    refine ⟨rfl, ?_⟩
    cases t with
    | pipe => exact ⟨ht, nofun⟩
    | logger =>
      rcases ht with ⟨-, hqueue⟩ | ⟨_, hhas | hhas⟩
      · exact absurd hempty hqueue
      · cases hpc.symm.trans hhas
      · cases hpc.symm.trans hhas
  | logWakes hpc =>
    right
    rw [hleft, left_mk (show LogPc.pop ≠ .ended from nofun), hpc]
    refine ⟨rfl, ?_, nofun⟩
    cases t with
    | pipe => exact ht
    | logger =>
      rcases ht with ⟨hpop, -⟩ | ⟨_, hhas | hhas⟩
      · cases hpc.symm.trans hpop
      · cases hpc.symm.trans hhas
      · cases hpc.symm.trans hhas

theorem helps_of_invariant (h : s.Invariant mPrefix before) (hended : ¬ s.Ended) :
    ∃ t, Helps t s := by
  rcases h with ⟨taken, h⟩ | h
  · by_cases hlogger : ∃ message, s.logger = .log message
    · exact ⟨.logger, .inr (hlogger.imp fun _ => .inl)⟩
    by_cases hqueue : s.mQueue = []
    · -- the log thread has nothing to do, so the pipe thread does
      refine ⟨.pipe, ?_⟩
      cases hpipe : s.pipe with
      | read => exact .inl ⟨hpipe, h.reads hpipe⟩
      | push message => exact .inr ⟨message, hpipe, by rw [hqueue]; decide⟩
      | wait message =>
        have hfull := h.pipeWaits message hpipe
        rw [hqueue] at hfull
        cases hfull
      | ended =>
        have hflow := congrArg List.length h.flow
        have hle := h.taken_le
        simp [hqueue, hpipe, h.ended hpipe, PipePc.held] at hflow
        omega
    · refine ⟨.logger, .inl ⟨?_, hqueue⟩⟩
      cases hpc : s.logger with
      | pop => rfl
      | wait => exact absurd (h.loggerWaits hpc) hqueue
      | log message => exact absurd ⟨message, hpc⟩ hlogger
      | putBack message => exact absurd hpc (h.logger.2 message)
      | ended => exact absurd hpc h.logger.1
  · rcases h.logger with hlogger | ⟨⟨message, hlogger⟩, -⟩
    · exact absurd ⟨h.pipe, hlogger⟩ hended
    · exact ⟨.logger, .inr ⟨message, .inr hlogger⟩⟩

theorem ready_of_helps {lines : List String} {t : Thread} (h : Helps t s) :
    (system mPrefix lines).Ready Event.thread t s := by
  cases t with
  | pipe =>
    rcases h with ⟨hpc, hlines⟩ | ⟨message, hpc, -⟩
    · obtain ⟨message, rest, hcons⟩ := List.exists_cons_of_ne_nil hlines
      exact ⟨.pipeReads, rfl, by simp [system, step, hpc, hcons]⟩
    · exact ⟨.pipeLocks, rfl, by simp [system, step, hpc]⟩
  | logger =>
    rcases h with ⟨hpc, -⟩ | ⟨message, hpc | hpc⟩
    · exact ⟨.logLocks, rfl, by simp [system, step, onlyIf, hpc]⟩
    · exact ⟨.logs, rfl, by simp [system, step, hpc]⟩
    · exact ⟨.putsBack, rfl, by simp [system, step, hpc]⟩

theorem logger_ne_ended (h : s.Invariant mPrefix before) (hended : ¬ s.Ended) :
    s.logger ≠ .ended := by
  intro hlogger
  rcases h with ⟨taken, h⟩ | h
  · exact h.logger.1 hlogger
  · exact hended ⟨h.pipe, hlogger⟩

/-- A capture that has ended takes no more steps. -/
theorem Ended.not_moves (h : s.Ended) {e : Event} : ¬ Moves mPrefix s e s' := by
  intro hs
  cases hs with
  | reads hpc | blocks hpc | pushes hpc | pipeWakes hpc => cases h.1.symm.trans hpc
  | sleeps hpc | pops hpc | logWakes hpc | logs hpc | putsBack hpc => cases h.2.symm.trans hpc

theorem progress (hbefore : ∀ line ∈ before, ¬ IsMarker line) :
    (system mPrefix (before ++ [closingLine])).Progress Event.thread Ended left Helps where
  ready _ _ _ ht := ready_of_helps ht
  helps _ hreach hended := helps_of_invariant (invariant_of_reachable hbefore hreach) hended
  le s e s' hreach hs := by
    by_cases hended : s.Ended
    · exact absurd (moves hs) hended.not_moves
    · have hI := invariant_of_reachable hbefore hreach
      obtain ⟨t, ht⟩ := helps_of_invariant hI hended
      rcases left_lt_or_helps ht (logger_ne_ended hI hended) (moves hs) with hlt | ⟨heq, -⟩
      · exact Nat.le_of_lt hlt
      · exact Nat.le_of_eq heq
  own t s e s' hreach ht hown hs := by
    have hended : ¬ s.Ended := fun hended => hended.not_moves (moves hs)
    have hlogger := logger_ne_ended (invariant_of_reachable hbefore hreach) hended
    exact (left_lt_or_helps ht hlogger (moves hs)).resolve_right fun h => h.2.2 hown
  other t s e s' hreach ht hs := by
    have hended : ¬ s.Ended := fun hended => hended.not_moves (moves hs)
    have hlogger := logger_ne_ended (invariant_of_reachable hbefore hreach) hended
    exact (left_lt_or_helps ht hlogger (moves hs)).imp_right fun h => h.2.1

/-! ## The redirection -/

/-- At any time: what was logged is the first lines, each without its newline; the
    queue is within its bound until the marker is processed; the threads do not both
    wait; and when the log thread has ended, every line was logged. -/
structure Redirects (mPrefix : String) (before : List String) (s : OutputCapture) : Prop where
  logged : s.logged <+: before.map (logEntry mPrefix)
  bounded : s.logger ≠ .ended → s.mQueue.length ≤ MAX_QUEUE
  noStall : ¬ ((∃ message, s.pipe = .wait message) ∧ s.logger = .wait)
  complete : s.logger = .ended → s.pipe = .ended ∧ s.logged = before.map (logEntry mPrefix)

/-- The lines `before` and then the marker, through every run. -/
structure RedirectsOutput (mPrefix : String) (before : List String) : Prop where
  always : ∀ s, (system mPrefix (before ++ [closingLine])).Reachable s → s.Redirects mPrefix before
  ends : ∀ state event,
    (system mPrefix (before ++ [closingLine])).FairRun Event.thread state event →
      ∃ n, (state n).Ended

theorem Running.redirects (h : s.Running mPrefix before taken) : s.Redirects mPrefix before where
  logged := by
    have htaken : taken <+: before ++ [closingLine] := ⟨_, h.flow⟩
    have hbefore : taken <+: before :=
      List.prefix_of_prefix_length_le htaken (List.prefix_append _ _) h.taken_le
    have hlogged : s.logged <+: taken.map (logEntry mPrefix) := ⟨_, h.logged⟩
    exact hlogged.trans (hbefore.map _)
  bounded _ := h.bounded
  noStall := by
    rintro ⟨⟨message, hpipe⟩, hlogger⟩
    have hfull := h.pipeWaits message hpipe
    rw [h.loggerWaits hlogger] at hfull
    cases hfull
  complete hended := absurd hended h.logger.1

theorem Closing.redirects (h : s.Closing mPrefix before) : s.Redirects mPrefix before where
  logged := ⟨[], by rw [List.append_nil, h.logged]⟩
  bounded hended := by
    rw [(h.logger.resolve_left hended).2]
    exact Nat.zero_le _
  noStall := by
    rintro ⟨⟨message, hpipe⟩, -⟩
    cases h.pipe.symm.trans hpipe
  complete _ := ⟨h.pipe, h.logged⟩

/-- **Output redirection**: every line before the marker is logged once and in order,
    through a bounded queue that never stalls, and both threads end. -/
theorem redirectsOutput (mPrefix : String) {before : List String}
    (hbefore : ∀ line ∈ before, ¬ IsMarker line) : RedirectsOutput mPrefix before where
  always s h := by
    rcases invariant_of_reachable hbefore h with ⟨taken, hI⟩ | hI
    · exact hI.redirects
    · exact hI.redirects
  ends state event hrun := hrun.eventually (progress hbefore)

theorem redirectsOutput_twoLines : RedirectsOutput "out: " ["one\n", "Closing\n"] :=
  redirectsOutput "out: " (by decide)

end OutputCapture

end Arras4Core.Log
