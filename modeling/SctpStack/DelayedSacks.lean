import SctpStack.UpkeepSteps

/-!
# Delayed SACKs

A packet of DATA whose SACK is put off is never forgotten: while one waits, the
DELAYED_SACK timer runs, and a second packet does not wait (`sack_not_overdue`).
-/

namespace SctpStack

/-- What waits for a SACK, and whether its timer runs. -/
structure Deferred (runs : Prop) (a : Association) : Prop where
  fresh : forming a.state = true → a.delayedSackPacketCount = 0
  few : delays a.state = true → a.delayedSackPacketCount ≤ 1
  timed : delays a.state = true → 0 < a.delayedSackPacketCount → runs

section Deferred

variable {runs runs' : Prop} {a b : Association}

theorem Deferred.of_same (deferred : Deferred runs a) (state : b.state = a.state)
    (count : b.delayedSackPacketCount = a.delayedSackPacketCount) : Deferred runs b where
  fresh := by
    rw [state, count]
    exact deferred.fresh
  few := by
    rw [state, count]
    exact deferred.few
  timed := by
    rw [state, count]
    exact deferred.timed

/-- Nothing waits. -/
theorem Deferred.of_none (none : a.delayedSackPacketCount = 0) : Deferred runs a where
  fresh _ := none
  few _ := by
    rw [none]
    exact Nat.zero_le 1
  timed _ some := by
    rw [none] at some
    exact absurd some (Nat.lt_irrefl 0)

theorem Deferred.onward (deferred : Deferred runs a) (state : AssociationState)
    (proceeds : Proceeds a.state state) :
    Deferred runs { a with state := state } where
  fresh forms := deferred.fresh (proceeds.2 forms)
  few is := by
    rcases proceeds.1 is with forms | before
    · exact (deferred.fresh forms).trans_le (Nat.zero_le 1)
    · exact deferred.few before
  timed is some := by
    rcases proceeds.1 is with forms | before
    · have none : a.delayedSackPacketCount = 0 := deferred.fresh forms
      exact absurd some (by rw [none]; exact Nat.lt_irrefl 0)
    · exact deferred.timed before some

theorem Deferred.undelayed (deferred : Deferred runs a) (other : delays a.state = false) :
    Deferred runs' a where
  fresh := deferred.fresh
  few is := by
    rw [other] at is
    cases is
  timed is := by
    rw [other] at is
    cases is

theorem Deferred.delayed (is : delays a.state = true) (few : a.delayedSackPacketCount + 1 < 2) :
    Deferred True { a with delayedSackPacketCount := a.delayedSackPacketCount + 1 } where
  fresh forms := by
    have state : forming a.state = true := forms
    cases at_ : a.state with
    | established =>
      rw [at_] at state
      cases state
    | shutdownPending =>
      rw [at_] at state
      cases state
    | _ =>
      rw [at_] at is
      cases is
  few _ := Nat.le_of_lt_succ few
  timed _ _ := trivial

theorem upkeep_deferred (start : Option Association) (cause : Cause → Prop) :
    Upkeep start cause Deferred where
  opened _ _ _ _ := .of_none rfl
  created _ _ _ := .of_none rfl
  restarted _ _ _ _ := .of_none rfl
  collided _ _ _ deferred := deferred.of_same rfl rfl
  answered {r a} _ waits deferred := by
    have echoed : Deferred r { a with state := .cookieEchoed } :=
      deferred.onward .cookieEchoed ⟨nofun, fun _ => by rw [waits]; rfl⟩
    exact echoed.of_same rfl rfl
  retried {r a} forms deferred := by
    have waits : Deferred r { a with state := .cookieWait } :=
      deferred.onward .cookieWait ⟨nofun, fun _ => forms⟩
    exact waits.of_same rfl rfl
  adjusted figures _ _ deferred := deferred.of_same (congrArg Figures.state figures)
    (congrArg Figures.delayedSackPacketCount figures)
  listed address deferred := by
    rw [withPath_only]
    exact deferred.of_same rfl rfl
  onward state proceeds deferred := deferred.onward state proceeds
  undelayed other deferred := deferred.undelayed other
  heard deferred := deferred.of_same rfl rfl
  missed _ deferred := deferred.of_same rfl rfl
  queued _ _ _ _ deferred := deferred.of_same rfl rfl
  cut {r a} allowance _ deferred := by
    rw [cutNewData_only a allowance]
    exact deferred.of_same rfl rfl
  sent destination data sentAt _ deferred := by
    refine deferred.of_same ?_ ?_
    · unfold recordDataSentIn
      simp only
      split <;> rfl
    · unfold recordDataSentIn
      simp only
      split <;> rfl
  marked _ _ deferred := deferred.of_same rfl rfl
  acked sack now _ deferred := by
    refine deferred.of_same ?_ ?_
    · unfold acknowledgeEntries
      simp only
      split <;> rfl
    · unfold acknowledgeEntries
      simp only
      split <;> rfl
  ackedByShutdown _ _ deferred := deferred.of_same rfl rfl
  timed _ _ deferred := deferred.of_same rfl rfl
  received _ only deferred := by
    rw [only]
    exact deferred.of_same rfl rfl
  reported _ := .of_none rfl
  delayed is few _ := .delayed is few

end Deferred

/-- In every reachable state, no more than one packet of DATA waits for its SACK while SACKs
are put off, and while one does the DELAYED_SACK timer runs. -/
theorem sack_not_overdue {σ : System} (reached : System.Reached (fun _ _ => True) σ)
    {key : AssociationKey} {a : Association} (found : σ.socket.find? key = some a)
    (delays : a.state = .established ∨ a.state = .shutdownPending) :
    a.delayedSackPacketCount ≤ 1
      ∧ (0 < a.delayedSackPacketCount → σ.socket.expirations.isActive (timerOf key .delayedSack)
        = true) := by
  have deferred := reached.held (fun start => upkeep_deferred start _) found
  have is : SctpStack.delays a.state = true := by
    rcases delays with up | pending
    · rw [up]
      rfl
    · rw [pending]
      rfl
  exact ⟨deferred.few is, deferred.timed is⟩

/-- A packet of DATA arrives, and its SACK is put off. -/
theorem one_packet_deferred : ∃ σ a, System.Reached (fun _ _ => True) σ ∧ σ.socket.find? Opened.key
    = some a
    ∧ a.state = .established ∧ a.delayedSackPacketCount = 1
    ∧ σ.socket.expirations.isActive (timerOf Opened.key .delayedSack) = true := by
  obtain ⟨σ, reached, ends⟩ := Opened.exists_reached
    [Opened.arrives [⟨3#8, .data ⟨100#32, 0#16, 0#16, 0#32, [9#8], 3#8⟩⟩]]
    (p := fun σ => (σ.socket.find? Opened.key).any fun a => a.state == .established
      && a.delayedSackPacketCount == 1)
    (by decide +kernel)
  obtain ⟨a, found, here⟩ := (Option.any_eq_true _ _).mp ends
  rw [Bool.and_eq_true, beq_iff_eq, beq_iff_eq] at here
  obtain ⟨up, one⟩ := here
  have waits : 0 < a.delayedSackPacketCount := by
    rw [one]
    exact Nat.one_pos
  exact ⟨σ, a, reached, found, up, one, (sack_not_overdue reached found (Or.inl up)).2 waits⟩

end SctpStack
