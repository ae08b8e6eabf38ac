/-
  Arras4Core.Computation.MessageCounts

  The message statistics of `PerformanceMonitor::run`: each iteration reads how
  many messages were sent and received in total, and reports how many there were
  in the last interval and in the last twelve.  `unsigned long` has 64 bits.

  The statistics of the CPU, the memory and the threads are kept in variables of
  their own, and are left out.
-/

import Arras4Core.Lib.Window
import Mathlib.Data.UInt

namespace Arras4Core.Computation

open Arras4Core.Lib

/-- What `mDispatcher` has counted so far. -/
structure TotalMessages where
  sentMessageCount : UInt64
  receivedMessageCount : UInt64

/-- The members of an `ExecutorHeartbeat` that count messages. -/
structure MessageStatistics where
  mSentMessages5Sec : UInt64
  mSentMessages60Sec : UInt64
  mSentMessagesTotal : UInt64
  mReceivedMessages5Sec : UInt64
  mReceivedMessages60Sec : UInt64
  mReceivedMessagesTotal : UInt64
  deriving DecidableEq

/-- The variables of `run` that count messages. -/
structure MessageCounts where
  index : Nat := 0
  lastSentMessages : UInt64 := 0
  lastReceivedMessages : UInt64 := 0
  sentMessages : List UInt64 := List.replicate 12 0
  receivedMessages : List UInt64 := List.replicate 12 0

namespace MessageCounts

/-- The loop that adds up the twelve slots of a buffer. -/
def oneMinute (messages : List UInt64) : UInt64 :=
  messages.foldl (· + ·) 0

/-- The body of the loop of `run`, with the heartbeat that it sends.  `index` is an
    `int`: `none` is its overflow. -/
def iterate (s : MessageCounts) (total : TotalMessages) :
    Option (MessageCounts × MessageStatistics) :=
  let intervalSentMessages := total.sentMessageCount - s.lastSentMessages
  let intervalReceivedMessages := total.receivedMessageCount - s.lastReceivedMessages
  let sentMessages := s.sentMessages.set (s.index % 12) intervalSentMessages
  let receivedMessages := s.receivedMessages.set (s.index % 12) intervalReceivedMessages
  if s.index + 1 < 2147483648 then
    some (
      { index := s.index + 1
        lastSentMessages := total.sentMessageCount
        lastReceivedMessages := total.receivedMessageCount
        sentMessages := sentMessages
        receivedMessages := receivedMessages },
      { mSentMessages5Sec := intervalSentMessages
        mSentMessages60Sec := oneMinute sentMessages
        mSentMessagesTotal := total.sentMessageCount
        mReceivedMessages5Sec := intervalReceivedMessages
        mReceivedMessages60Sec := oneMinute receivedMessages
        mReceivedMessagesTotal := total.receivedMessageCount })
  else none

/-- The variables after `k` iterations; `observed j` is what the one with the index
    `j` reads. -/
def run (observed : Nat → TotalMessages) : Nat → Option MessageCounts
  | 0 => some {}
  | k + 1 => do
    let s ← run observed k
    let (s, _) ← s.iterate (observed k)
    some s

/-- What the heartbeat of the `k`-th iteration reports. -/
def heartbeat (observed : Nat → TotalMessages) : Nat → Option MessageStatistics
  | 0 => none
  | k + 1 => do
    let s ← run observed k
    let (_, statistics) ← s.iterate (observed k)
    some statistics

/-! ## The totals -/

/-- The messages sent up to the `k`-th iteration. -/
def sentCount (observed : Nat → TotalMessages) : Nat → UInt64
  | 0 => 0
  | k + 1 => (observed k).sentMessageCount

/-- The messages received up to the `k`-th iteration. -/
def receivedCount (observed : Nat → TotalMessages) : Nat → UInt64
  | 0 => 0
  | k + 1 => (observed k).receivedMessageCount

open scoped UInt64.CommRing

/-- The variables after `k` iterations. -/
structure Counts (observed : Nat → TotalMessages) (k : Nat) (s : MessageCounts) : Prop where
  index : s.index = k
  lastSent : s.lastSentMessages = sentCount observed k
  lastReceived : s.lastReceivedMessages = receivedCount observed k
  sent : Window (sentCount observed) k s.sentMessages
  received : Window (receivedCount observed) k s.receivedMessages
  sentLength : s.sentMessages.length = 12
  receivedLength : s.receivedMessages.length = 12

theorem oneMinute_eq_sum (messages : List UInt64) : oneMinute messages = messages.sum := by
  rw [oneMinute, List.sum_eq_foldl]

theorem Counts.oneMinute_sent {observed : Nat → TotalMessages} {k : Nat} {s : MessageCounts}
    (h : Counts observed k s) :
    oneMinute s.sentMessages = sentCount observed k - sentCount observed (k - 12) := by
  rw [oneMinute_eq_sum, h.sent.sum, h.sentLength]

theorem Counts.oneMinute_received {observed : Nat → TotalMessages} {k : Nat} {s : MessageCounts}
    (h : Counts observed k s) :
    oneMinute s.receivedMessages
      = receivedCount observed k - receivedCount observed (k - 12) := by
  rw [oneMinute_eq_sum, h.received.sum, h.receivedLength]

/-- An iteration keeps the invariant, and reports the differences of the totals. -/
theorem Counts.iterate {observed : Nat → TotalMessages} {k : Nat} {s : MessageCounts}
    (h : Counts observed k s) (hk : k + 1 < 2147483648) :
    ∃ s', Counts observed (k + 1) s' ∧ s.iterate (observed k) = some (s', {
      mSentMessages5Sec := sentCount observed (k + 1) - sentCount observed k
      mSentMessages60Sec := sentCount observed (k + 1) - sentCount observed (k + 1 - 12)
      mSentMessagesTotal := sentCount observed (k + 1)
      mReceivedMessages5Sec := receivedCount observed (k + 1) - receivedCount observed k
      mReceivedMessages60Sec :=
        receivedCount observed (k + 1) - receivedCount observed (k + 1 - 12)
      mReceivedMessagesTotal := receivedCount observed (k + 1) }) := by
  have hsent := h.sent.step (by rw [h.sentLength]; decide)
  have hreceived := h.received.step (by rw [h.receivedLength]; decide)
  rw [h.sentLength] at hsent
  rw [h.receivedLength] at hreceived
  -- the state in which the heartbeat is made
  have hnext : Counts observed (k + 1)
      { index := k + 1
        lastSentMessages := sentCount observed (k + 1)
        lastReceivedMessages := receivedCount observed (k + 1)
        sentMessages := s.sentMessages.set (k % 12)
          (sentCount observed (k + 1) - sentCount observed k)
        receivedMessages := s.receivedMessages.set (k % 12)
          (receivedCount observed (k + 1) - receivedCount observed k) } :=
    { index := rfl
      lastSent := rfl
      lastReceived := rfl
      sent := hsent
      received := hreceived
      sentLength := by rw [List.length_set, h.sentLength]
      receivedLength := by rw [List.length_set, h.receivedLength] }
  refine ⟨_, hnext, ?_⟩
  rw [← hnext.oneMinute_sent, ← hnext.oneMinute_received, MessageCounts.iterate, h.index,
    h.lastSent, h.lastReceived, if_pos hk]
  rfl

/-- The run lemma: every iteration whose index is an `int` is completed. -/
theorem counts_run (observed : Nat → TotalMessages) {k : Nat} (hk : k < 2147483648) :
    ∃ s, run observed k = some s ∧ Counts observed k s := by
  induction k with
  | zero =>
    exact ⟨{}, rfl, rfl, rfl, rfl, Window.replicate 12 _, Window.replicate 12 _, rfl, rfl⟩
  | succ k ih =>
    obtain ⟨s, hrun, hs⟩ := ih (Nat.lt_of_succ_lt hk)
    obtain ⟨s', hs', hiterate⟩ := hs.iterate hk
    refine ⟨s', ?_, hs'⟩
    show (run observed k >>= _) = _
    rw [hrun, Option.bind_eq_bind, Option.bind_some, hiterate]
    rfl

/-- The heartbeat of the `k`-th iteration has the differences to the totals of one
    iteration and of twelve iterations before. -/
theorem heartbeat_eq (observed : Nat → TotalMessages) {k : Nat} (hpos : 0 < k)
    (hk : k < 2147483648) :
    heartbeat observed k = some
      { mSentMessages5Sec := sentCount observed k - sentCount observed (k - 1)
        mSentMessages60Sec := sentCount observed k - sentCount observed (k - 12)
        mSentMessagesTotal := sentCount observed k
        mReceivedMessages5Sec := receivedCount observed k - receivedCount observed (k - 1)
        mReceivedMessages60Sec := receivedCount observed k - receivedCount observed (k - 12)
        mReceivedMessagesTotal := receivedCount observed k } := by
  obtain ⟨k, rfl⟩ := Nat.exists_eq_add_one.mpr hpos
  obtain ⟨s, hrun, hs⟩ := counts_run observed (Nat.lt_of_succ_lt hk)
  obtain ⟨s', -, hiterate⟩ := hs.iterate hk
  show (run observed k >>= _) = _
  rw [hrun, Option.bind_eq_bind, Option.bind_some, hiterate]
  rfl

/-- The counters wrap around between the first and the thirteenth iteration. -/
theorem heartbeat_thirteenth :
    heartbeat (fun j => ⟨UInt64.ofNat (18446744073709551610 + j), UInt64.ofNat (3 * j)⟩) 13
      = some ⟨1, 12, 6, 3, 36, 36⟩ :=
  heartbeat_eq (k := 13) _ (by decide) (by decide)

end MessageCounts

end Arras4Core.Computation
