import SctpStack.EventLoop
import SctpStack.Expirations

/-!
# How long the event loop waits

`next_poll_timeout` of `socket_event_loop.cpp`: the earlier of the two queues'
deadlines, in the whole milliseconds `poll` takes. The remainder is cast to
milliseconds before it is rounded up, so a fraction of a millisecond is cut off and
the wait ends before the deadline.
-/

namespace SctpStack

def intMax : Int := 2147483647

/-- The deadline of the send queue, unless a timer runs out before it. -/
def mergeDeadline (sendAttempt expiration : Option Time) : Option Time :=
  match sendAttempt, expiration with
  | deadline, none => deadline
  | none, some expiration => some expiration
  | some deadline, some expiration => some (if expiration < deadline then expiration else deadline)

/-- The timeout for a deadline, if there is one. -/
def pollTimeout (now : Time) : Option Time → Int
  | none => -1
  | some deadline =>
    if deadline ≤ now then 0
    else
      -- `duration_cast` truncates, and leaves nothing for `ceil` to round up
      let milliseconds := (deadline - now).tdiv (msec 1)
      if milliseconds > intMax then intMax else milliseconds

namespace Socket

def nextPollTimeout (s : Socket) (now : Time) : Int × Socket :=
  if s.sends.nextDeadline.any fun sendAttempt => decide (sendAttempt ≤ now) then (0, s)
  else
    let (expiration, expirations) := s.expirations.nextDeadline
    (pollTimeout now (mergeDeadline s.sends.nextDeadline expiration),
    { s with expirations := expirations })

/-- What the loop wakes up for: a timer that goes off, or a packet due to be sent. -/
def HasWork (s : Socket) (now : Time) : Prop :=
  (s.expirations.drainExpired now).1 ≠ [] ∨ ∃ deadline, s.sends.nextDeadline = some deadline
    ∧ deadline ≤ now

/-- The earlier of the two queues' deadlines. -/
def deadline (s : Socket) : Option Time :=
  mergeDeadline s.sends.nextDeadline s.expirations.nextDeadline.1

/-- A wait that runs its whole timeout finds work, and does not wait again for the same
deadline; a wait without a timeout has nothing to wait for. -/
structure WakesOnTime (s : Socket) (now : Time) : Prop where
  work : 0 ≤ (s.nextPollTimeout now).1 → (s.nextPollTimeout now).1 < intMax →
    (s.nextPollTimeout now).2.HasWork (now + msec (s.nextPollTimeout now).1)
  once : 0 ≤ (s.nextPollTimeout now).1 → (s.nextPollTimeout now).1 < intMax →
    ∀ deadline, s.deadline = some deadline → deadline ≤ now + msec (s.nextPollTimeout now).1
  idle : (s.nextPollTimeout now).1 = -1 →
    (∀ key, s.expirations.isActive key = false) ∧ s.sends.nextDeadline = none

/-- The next deadline has passed, is a whole number of milliseconds away, or is further
off than `poll` can wait. -/
def OnMillisecond (s : Socket) (now : Time) : Prop :=
  ∀ deadline, s.deadline = some deadline →
    deadline ≤ now ∨ msec 1 ∣ deadline - now ∨ msec intMax ≤ deadline - now

end Socket

/-! ## Deadlines -/

theorem mergeDeadline_passed {sendAttempt expiration : Option Time} {now : Time} :
    (∃ deadline, mergeDeadline sendAttempt expiration = some deadline ∧ deadline ≤ now)
      ↔ (∃ deadline, sendAttempt = some deadline ∧ deadline ≤ now)
        ∨ ∃ deadline, expiration = some deadline ∧ deadline ≤ now := by
  cases sendAttempt with
  | none => cases expiration <;> simp [mergeDeadline]
  | some sendAttempt =>
    cases expiration with
    | none => simp [mergeDeadline]
    | some expiration =>
      simp only [mergeDeadline, Option.some.injEq, exists_eq_left']
      split
      · next earlier => exact ⟨Or.inr, fun passed => passed.elim (earlier.le.trans ·) id⟩
      · next later => exact ⟨Or.inl, fun passed => passed.elim id ((not_lt.mp later).trans ·)⟩

theorem mergeDeadline_eq_none {sendAttempt expiration : Option Time} :
    mergeDeadline sendAttempt expiration = none ↔ sendAttempt = none ∧ expiration = none := by
  cases sendAttempt <;> cases expiration <;> simp [mergeDeadline]

/-! ## Timeouts -/

theorem pollTimeout_passed {now deadline : Time} (passed : deadline ≤ now) :
    pollTimeout now (some deadline) = 0 :=
  if_pos passed

theorem pollTimeout_ahead {now deadline : Int} (ahead : now < deadline) :
    pollTimeout now (some deadline) = min 2147483647 ((deadline - now) / 1000000) := by
  have truncated : (deadline - now).tdiv (msec 1) = (deadline - now) / 1000000 :=
    Int.tdiv_eq_ediv_of_nonneg (by omega)
  simp only [pollTimeout, truncated, intMax, if_neg (not_le.mpr ahead)]
  split <;> omega

theorem pollTimeout_nonneg (now deadline : Int) : 0 ≤ pollTimeout now (some deadline) := by
  by_cases passed : deadline ≤ now
  · exact (pollTimeout_passed passed).ge
  · rw [pollTimeout_ahead (not_le.mp passed)]
    omega

/-- A timeout short of the longest is over by the deadline only if the deadline is on
the millisecond. -/
theorem pollTimeout_reaches (now deadline : Int) :
    (pollTimeout now (some deadline) < intMax →
        deadline ≤ now + msec (pollTimeout now (some deadline)))
      ↔ deadline ≤ now ∨ msec 1 ∣ deadline - now
        ∨ msec intMax ≤ deadline - now := by
  by_cases passed : deadline ≤ now
  · simp [pollTimeout_passed passed, passed, msec]
  · rw [pollTimeout_ahead (not_le.mp passed)]
    unfold msec intMax
    change (_ < (2147483647 : Int) → (_ : Int) ≤ _) ↔ (_ : Int) ≤ _ ∨ (_ : Int) ∣ _ ∨ (_ : Int) ≤ _
    omega

namespace Socket

/-- There is work exactly when the earlier of the deadlines has passed. -/
theorem hasWork_iff {s : Socket} (sound : s.expirations.Sound) {now : Time} :
    s.HasWork now ↔ ∃ deadline, s.deadline = some deadline ∧ deadline ≤ now := by
  have fires := (ExpirationQueue.drainExpired_fires sound now).2.1
  have due := fires.ne_nil_iff (ExpirationQueue.nextDeadline_earliest sound).2.2
  rw [ne_eq, List.map_eq_nil_iff] at due
  rw [deadline, mergeDeadline_passed, or_comm, ← due]
  exact Iff.rfl

theorem deadline_eq_none {s : Socket} (sound : s.expirations.Sound) :
    s.deadline = none ↔ (∀ key, s.expirations.isActive key = false) ∧ s.sends.nextDeadline
      = none := by
  rw [deadline, mergeDeadline_eq_none, ExpirationQueue.nextDeadline_eq_none sound, and_comm]

/-- The timeout is that for the earlier deadline, which looking for it does not change. -/
theorem nextPollTimeout_spec {s : Socket} (sound : s.expirations.Sound) (now : Time) :
    (s.nextPollTimeout now).1 = pollTimeout now s.deadline
      ∧ (s.nextPollTimeout now).2.expirations.Sound ∧ (s.nextPollTimeout now).2.deadline
        = s.deadline := by
  unfold nextPollTimeout
  split
  · next passed =>
    obtain ⟨sendAttempt, set, due⟩ := (Option.any_eq_true _ _).mp passed
    obtain ⟨d, next, early⟩ := mergeDeadline_passed.mpr
      (Or.inl ⟨sendAttempt, set, of_decide_eq_true due⟩)
    refine ⟨?_, sound, rfl⟩
    rw [deadline, next, pollTimeout_passed early]
  · obtain ⟨kept, same, earliest⟩ := ExpirationQueue.nextDeadline_earliest sound
    have again := (ExpirationQueue.nextDeadline_earliest kept).2.2
    rw [same] at again
    refine ⟨rfl, kept, ?_⟩
    show mergeDeadline s.sends.nextDeadline _ = mergeDeadline s.sends.nextDeadline _
    rw [earliest.unique again]

/-- Whatever the two queues hold, the loop wakes on time exactly if the next deadline
has passed, is a whole number of milliseconds away or is beyond the longest wait. -/
theorem wakes_on_time_iff (ops : List ExpirationOp) (s : Socket) (now : Time) :
    WakesOnTime { s with expirations := ExpirationQueue.performAll ops } now
      ↔ OnMillisecond { s with expirations := ExpirationQueue.performAll ops } now := by
  have sound : ({ s with expirations := ExpirationQueue.performAll ops } :
      Socket).expirations.Sound :=
    ExpirationQueue.sound_performAll ops
  generalize ({ s with expirations := ExpirationQueue.performAll ops } : Socket) = s at sound
  obtain ⟨timeout, kept, same⟩ := nextPollTimeout_spec sound now
  have work : ∀ later, (s.nextPollTimeout now).2.HasWork later
      ↔ ∃ deadline, s.deadline = some deadline ∧ deadline ≤ later := fun later => by
        rw [hasWork_iff kept, same]
  cases next : s.deadline with
  | none =>
    have idle := (deadline_eq_none sound).mp next
    rw [next] at timeout
    refine ⟨fun _ deadline set => ?_, fun _ => ⟨fun waits => ?_, fun waits => ?_, fun _ => idle⟩⟩
    · rw [next] at set
      cases set
    · rw [timeout] at waits
      exact absurd waits (show ¬(0 : Int) ≤ -1 by decide)
    · rw [timeout] at waits
      exact absurd waits (show ¬(0 : Int) ≤ -1 by decide)
  | some d =>
    rw [next] at timeout
    have waits : 0 ≤ pollTimeout now (some d) := pollTimeout_nonneg now d
    have busy : pollTimeout now (some d) ≠ -1 := fun idle => by
      rw [idle] at waits; exact absurd waits (by decide)
    have on : OnMillisecond s now ↔ (pollTimeout now (some d) < intMax →
        d ≤ now + msec (pollTimeout now (some d))) := by
      rw [OnMillisecond, next]
      simp only [Option.some.injEq, forall_eq']
      exact (pollTimeout_reaches now d).symm
    rw [on]
    constructor
    · intro wakes short
      have there := wakes.once (timeout ▸ waits) (timeout ▸ short) d next
      rwa [timeout] at there
    · intro reaches
      refine ⟨fun _ short => ?_, fun _ short deadline set => ?_, fun idle =>
        absurd (timeout ▸ idle) busy⟩
      · rw [timeout] at short ⊢
        exact (work _).mpr ⟨d, next, reaches short⟩
      · rw [next] at set
        cases set
        rw [timeout] at short ⊢
        exact reaches short

end Socket

/-- An association whose delayed SACK is due at 200 ms. -/
def sackDue : Socket :=
  { Socket.fresh ⟨2#32, 2#16⟩ with
    expirations := ExpirationQueue.performAll
      [.schedule (timerOf ⟨⟨1#32, 1#16⟩⟩ .delayedSack) (msec sackDelay) (noRetry ⟨⟨1#32, 1#16⟩⟩)] }

/-- At 0.3 ms it is waited for 199 ms, and at 199.3 ms there is nothing to do. -/
theorem wakes_before_the_sack :
    (sackDue.nextPollTimeout 300000).1 = 199
      ∧ ¬(sackDue.nextPollTimeout 300000).2.HasWork (300000 + msec 199)
      ∧ ¬sackDue.WakesOnTime 300000 := by
  have waits : (sackDue.nextPollTimeout 300000).1 = 199 := by decide +kernel
  have idle : ¬(sackDue.nextPollTimeout 300000).2.HasWork (300000 + msec 199) := by
    have none : (sackDue.nextPollTimeout 300000).2.sends.nextDeadline = none := by decide +kernel
    rintro (fired | ⟨deadline, set, -⟩)
    · exact fired (by decide +kernel)
    · rw [none] at set
      cases set
  refine ⟨waits, idle, fun wakes => idle ?_⟩
  have work := wakes.work (by rw [waits]; decide) (by rw [waits]; decide)
  rwa [waits] at work

end SctpStack
