import SctpStack.UpkeepSteps

/-!
# Karn's rule

A round trip is only ever timed with a chunk that was sent once and not acknowledged yet
(`Timing`), through retransmissions, reneging and shutdown. So the SACK that first
acknowledges the chunk always completes the measurement, and none other does
(`karns_rule`).
-/

namespace SctpStack

/-- The chunk under the TSN is outstanding, and was sent once. -/
def SentOnce (a : Association) (tsn : Tsn) : Prop :=
  ∃ o, a.outstandingData.get? tsn = some o ∧ o.retransmitted = false ∧ o.gapAcked = false

/-- A measurement that is under way is of a chunk that was sent once. -/
def Timing (a : Association) : Prop :=
  a.hasRttMeasurementTsn = true → SentOnce a a.rttMeasurementTsn

section Timing

variable {a b : Association} {tsn : Tsn}

theorem SentOnce.of_get? (once : SentOnce a tsn)
    (same : b.outstandingData.get? tsn = a.outstandingData.get? tsn) :
    SentOnce b tsn := by
  obtain ⟨o, found, first, unacked⟩ := once
  exact ⟨o, same.trans found, first, unacked⟩

theorem Timing.of_same (timing : Timing a) (outstanding : b.outstandingData = a.outstandingData)
    (has : b.hasRttMeasurementTsn = a.hasRttMeasurementTsn)
    (measured : b.rttMeasurementTsn = a.rttMeasurementTsn) :
    Timing b := by
  intro under
  rw [measured]
  exact (timing (has ▸ under)).of_get? (by rw [outstanding])

/-! ## Choosing a chunk -/

/-- Whatever the loop of `nextRttMeasurement` settles on is one of the candidates. -/
theorem chosen_mem {pick : Option Tsn → Tsn × OutstandingData → Option Tsn}
    (picks : ∀ found entry tsn, pick found entry = some tsn → found = some tsn ∨ entry.1 = tsn)
    (entries : List (Tsn × OutstandingData)) (found : Option Tsn)
    (chosen : entries.foldl pick found = some tsn) :
    found = some tsn ∨ ∃ entry ∈ entries, entry.1 = tsn := by
  induction entries generalizing found with
  | nil => exact Or.inl chosen
  | cons entry rest ih =>
    rcases ih (pick found entry) chosen with here | ⟨later, member, same⟩
    · rcases picks found entry tsn here with before | same
      · exact Or.inl before
      · exact Or.inr ⟨entry, List.mem_cons_self, same⟩
    · exact Or.inr ⟨later, List.mem_cons_of_mem _ member, same⟩

theorem sentOnce_next (next : nextRttMeasurement a = some tsn) : SentOnce a tsn := by
  unfold nextRttMeasurement at next
  simp only at next
  have chosen := chosen_mem (fun found entry tsn picked => by
    cases found with
    | none => exact Or.inr (Option.some.inj picked)
    | some before =>
      simp only at picked
      split at picked
      · exact Or.inr (Option.some.inj picked)
      · exact Or.inl picked) _ none next
  rcases chosen with none | ⟨entry, member, rfl⟩
  · cases none
  · obtain ⟨listed, candidate⟩ := List.mem_filter.mp member
    simp only [Bool.and_eq_true, Bool.not_eq_true'] at candidate
    exact ⟨entry.2, KeyMap.mem_entries.mp listed, candidate.1.2, candidate.1.1⟩

/-! ## Sending and acknowledging -/

theorem Timing.sent (timing : Timing a) (destination : SockAddr) (data : DataChunkValue)
    (sentAt : Time) :
    Timing (recordDataSentIn a destination data sentAt) := by
  unfold recordDataSentIn
  simp only
  split
  · intro under
    simp only [recordSentAgain, Bool.and_eq_true, Bool.not_eq_true'] at under
    have other : a.rttMeasurementTsn ≠ data.tsn := by
      intro same
      have later : tsnLte data.tsn a.rttMeasurementTsn = false := under.2
      rw [same] at later
      simp [tsnLte] at later
    refine (timing under.1).of_get? ?_
    exact (KeyMap.get?_modify _ _ _ _).trans (if_neg other)
  · next new =>
    have absent : a.outstandingData.get? data.tsn = none :=
      KeyMap.contains_eq_false.mp (Bool.eq_false_iff.mpr new)
    intro _
    unfold recordFirstSent SentOnce
    simp only
    show ∃ o, (KeyMap.emplaceBy _ a.outstandingData _ _).get?
        (if a.hasRttMeasurementTsn then a.rttMeasurementTsn else data.tsn)
      = some o ∧ _
    rw [KeyMap.get?_emplaceBy, absent]
    split
    · next under =>
      obtain ⟨o, found, first, unacked⟩ := timing under
      have other : a.rttMeasurementTsn ≠ data.tsn := by
        intro same
        rw [same, absent] at found
        cases found
      rw [if_neg other]
      exact ⟨o, found, first, unacked⟩
    · rw [if_pos rfl]
      exact ⟨_, rfl, rfl, rfl⟩

/-- The sample a SACK completes, while a measurement is under way. -/
theorem rttSample_of_once {o : OutstandingData} (under : a.hasRttMeasurementTsn = true)
    (found : a.outstandingData.get? a.rttMeasurementTsn = some o) (first : o.retransmitted = false)
    (unacked : o.gapAcked = false) (sack : SackChunkValue) : rttSample a sack
      = if sackAcknowledges sack a.rttMeasurementTsn = true then some (destinationOf a o,
      o.firstSent) else none := by
  unfold rttSample newlyAcks
  simp [under, found, first, unacked]

theorem Timing.acked (timing : Timing a) (sack : SackChunkValue) (now : Time) :
    Timing (acknowledgeEntries a sack now) := by
  unfold acknowledgeEntries
  cases sample : rttSample a sack with
  | some sample =>
    intro under
    cases under
  | none =>
    intro (under : a.hasRttMeasurementTsn = true)
    obtain ⟨o, found, first, unacked⟩ := timing under
    have missed : sackAcknowledges sack a.rttMeasurementTsn = false := by
      rw [rttSample_of_once under found first unacked] at sample
      split at sample
      · cases sample
      · next missed => exact Bool.eq_false_iff.mpr missed
    have above : tsnLte a.rttMeasurementTsn sack.cumulativeTsnAck = false := by
      cases low : tsnLte a.rttMeasurementTsn sack.cumulativeTsnAck with
      | false => rfl
      | true =>
        unfold sackAcknowledges at missed
        rw [low] at missed
        simp at missed
    have kept : (KeyMap.filterMap (ackEntry sack) a.outstandingData).get? a.rttMeasurementTsn
        = some o := by
      rw [KeyMap.get?_filterMap, found]
      simp [ackEntry, above, missed, unacked]
    exact ⟨o, kept, first, unacked⟩

theorem Timing.ackedByShutdown (timing : Timing a) (cumulativeTsnAck : Tsn) :
    Timing (acknowledgeShutdown a cumulativeTsnAck) := by
  intro under
  simp only [acknowledgeShutdown, Bool.and_eq_true, Bool.not_eq_true'] at under
  obtain ⟨o, found, first, unacked⟩ := timing under.1
  refine ⟨o, ?_, first, unacked⟩
  show (KeyMap.filterMap _ a.outstandingData).get? a.rttMeasurementTsn = some o
  rw [KeyMap.get?_filterMap, found]
  simp [under.2]

theorem Timing.marked (timing : Timing a) (f : Tsn → OutstandingData → OutstandingData)
    (same : ∀ tsn o, (f tsn o).retransmitted = o.retransmitted ∧ (f tsn o).gapAcked = o.gapAcked
      ∧ (f tsn o).data = o.data) :
    Timing { a with outstandingData := a.outstandingData.mapVals f } := by
  intro (under : a.hasRttMeasurementTsn = true)
  obtain ⟨o, found, first, unacked⟩ := timing under
  have marked : (a.outstandingData.mapVals f).get? a.rttMeasurementTsn
      = some (f a.rttMeasurementTsn o) := by
    rw [KeyMap.get?_mapVals, found]
    rfl
  exact ⟨f a.rttMeasurementTsn o, marked, (same _ o).1.trans first, (same _ o).2.1.trans unacked⟩

theorem upkeep_timing (start : Option Association) (cause : Cause → Prop) :
    Upkeep start cause fun _ a => Timing a where
  opened _ _ _ _ := fun none => absurd none Bool.false_ne_true
  created _ _ _ := fun none => absurd none Bool.false_ne_true
  restarted _ _ _ _ := fun none => absurd none Bool.false_ne_true
  collided _ _ _ timing := timing
  answered _ _ timing := timing
  retried _ timing := timing
  adjusted figures _ _ timing := timing.of_same (congrArg Figures.outstandingData figures)
    (congrArg Figures.hasRttMeasurementTsn figures) (congrArg Figures.rttMeasurementTsn figures)
  listed address timing := by
    rw [withPath_only]
    exact timing
  onward _ _ timing := timing
  undelayed _ timing := timing
  heard timing := timing
  missed _ timing := timing
  queued _ _ _ _ timing := timing
  cut {r a} allowance _ timing := by
    rw [cutNewData_only a allowance]
    exact timing
  sent destination data sentAt _ timing := timing.sent destination data sentAt
  marked f same timing := timing.marked f same
  acked sack now _ timing := timing.acked sack now
  ackedByShutdown cumulativeTsnAck _ timing := timing.ackedByShutdown cumulativeTsnAck
  timed _ next _ := fun _ => sentOnce_next next
  received _ only timing := by
    rw [only]
    exact timing
  reported timing := timing
  delayed _ _ timing := timing

end Timing

/-- In every reachable state, the chunk a round trip is being timed with is outstanding, was
sent once and is not acknowledged; a SACK completes the measurement exactly if it
acknowledges the chunk, and then the round trip counts from the one time it was sent. -/
theorem karns_rule {σ : System} (reached : System.Reached (fun _ _ => True) σ)
    {key : AssociationKey} {a : Association} (found : σ.socket.find? key = some a)
    (under : a.hasRttMeasurementTsn = true) :
    ∃ o, a.outstandingData.get? a.rttMeasurementTsn = some o ∧ o.retransmitted = false
      ∧ o.gapAcked = false
      ∧ ∀ sack, rttSample a sack
        = if sackAcknowledges sack a.rttMeasurementTsn = true then some (destinationOf a o,
        o.firstSent) else none := by
  obtain ⟨o, outstanding, first, unacked⟩ := reached.held (fun start => upkeep_timing start _)
    found under
  exact ⟨o, outstanding, first, unacked, rttSample_of_once under outstanding first unacked⟩

/-- A message is out, and timed. -/
theorem message_timed : ∃ σ a o, System.Reached (fun _ _ => True) σ ∧ σ.socket.find? Opened.key
    = some a
    ∧ a.hasRttMeasurementTsn = true ∧ a.outstandingData.get? a.rttMeasurementTsn = some o
    ∧ o.retransmitted = false
    ∧ o.gapAcked = false ∧ ∀ sack, rttSample a sack
      = if sackAcknowledges sack a.rttMeasurementTsn = true then some (destinationOf a o,
      o.firstSent) else none := by
  obtain ⟨σ, reached, ends⟩ := Opened.exists_reached ([.sendData Opened.key [1#8, 2#8] 0#16 false]
    ++ Opened.batch 1)
    (p := fun σ => (σ.socket.find? Opened.key).any fun a => a.hasRttMeasurementTsn)
      (by decide +kernel)
  obtain ⟨a, found, under⟩ := (Option.any_eq_true _ _).mp ends
  obtain ⟨o, outstanding, first, unacked, samples⟩ := karns_rule reached found under
  exact ⟨σ, a, o, reached, found, under, outstanding, first, unacked, samples⟩

end SctpStack
