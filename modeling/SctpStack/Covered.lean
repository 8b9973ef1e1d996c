import SctpStack.SenderSteps

/-!
# No retransmission is lost

Each chunk that is outstanding and not acknowledged is marked for retransmission, or
queued for it, or timed: `Covered`. The steps that work on the sender are taken one at
a time here; every other step is calm and keeps this by `KeyOk.calm`.
-/

namespace SctpStack

/-! ## The invariant -/

/-- What keeps a chunk from being forgotten. `due` are the addresses whose T3-rtx timer
went off and is yet to be handled. -/
def CoveredBy (s : Socket) (due : BitVec 32 → Prop) (key : AssociationKey) (tsn : Tsn)
    (outstanding : OutstandingData) : Prop :=
  outstanding.pendingRetransmission = true
    ∨ (∃ data, (outstanding.destination.addr, data) ∈ rtxData s key ∧ data.tsn = tsn)
    ∨ t3Active s key outstanding.destination.addr = true
    ∨ due outstanding.destination.addr

/-- The sender of an association: what it sent and what it will send goes to its own
addresses, and nothing unacknowledged is forgotten. -/
structure Covered (s : Socket) (due : BitVec 32 → Prop) (key : AssociationKey) (a : Association) :
    Prop where
  named : ∀ tsn o, a.outstandingData.get? tsn = some o → o.data.tsn = tsn
  placed : ∀ tsn o, a.outstandingData.get? tsn = some o → o.destination.addr ∈ a.ips
  newTo : ∀ q ∈ newDataFor s key, q.deliverable.destination.addr ∈ a.ips
  rtxTo : ∀ p ∈ rtxData s key, p.1 ∈ a.ips
  cover : ∀ tsn o, a.outstandingData.get? tsn = some o → o.gapAcked = false →
    CoveredBy s due key tsn o

/-- An association under a key, in whatever state it is. -/
structure AssocOk (s : Socket) (due : BitVec 32 → Prop) (key : AssociationKey) (a : Association) :
    Prop where
  paths : PathsOk a
  forming : forming a.state = true → FreshAssoc False a ∧ NothingQueued s key
  covered : transmitsData a.state = true → Covered s due key a

/-- The association under a key, if there is one. -/
structure KeyOk (s : Socket) (due : BitVec 32 → Prop) (key : AssociationKey) : Prop where
  absent : s.find? key = none → NothingQueued s key
  assoc : ∀ a, s.find? key = some a → AssocOk s due key a

/-- A socket that forgets nothing it has to retransmit. -/
structure Orderly (s : Socket) (due : AssociationKey → BitVec 32 → Prop) : Prop where
  queues : QueuesOk s
  keys : ∀ key, KeyOk s (due key) key

/-- No timer is waiting for its handler. -/
def noneDue : AssociationKey → BitVec 32 → Prop := fun _ _ => False

/-! ## Calm steps -/

section Calm

variable {s s' : Socket} {due : BitVec 32 → Prop} {key : AssociationKey}

/-- An association that has sent nothing, and has nothing queued. -/
theorem Covered.fresh {a : Association} (new : FreshAssoc False a) (empty : NothingQueued s key) :
    Covered s due key a where
  named := by simp [new.outstandingData]
  placed := by simp [new.outstandingData]
  newTo := by simp [empty.1]
  rtxTo := by simp [empty.2]
  cover := by simp [new.outstandingData]

theorem AssocOk.fresh {a : Association} (new : FreshAssoc False a) (empty : NothingQueued s key) :
    AssocOk s due key a :=
  ⟨new.paths, fun _ => ⟨new, empty⟩, fun _ => .fresh new empty⟩

theorem SameCore.weaken {strict : Prop} {a b : Association} (same : SameCore strict a b) :
    SameCore False a b :=
  ⟨same.nextTsn, same.cumulativeTsnAck, same.outstandingData, same.inFastRecovery,
    same.fastRecoveryExitTsn, same.burstCount, same.paths, same.ips, same.forming, same.transmits,
    fun impossible => impossible.elim⟩

theorem FreshAssoc.weaken {strict : Prop} {a : Association} (new : FreshAssoc strict a) :
    FreshAssoc False a :=
  ⟨new.cumulativeTsnAck, new.outstandingData, new.burstCount, new.paths, fun impossible =>
    impossible.elim⟩

theorem KeyStep.weaken {strict : Prop} (step : KeyStep strict s s' key) :
    KeyStep False s s' key := by
  cases step with
  | absent before after queued => exact .absent before after queued
  | same a b before after core queued timers =>
      exact .same a b before after core.weaken queued timers
  | gone after empty => exact .gone after empty
  | fresh b after new empty => exact .fresh b after new.weaken empty

theorem Calm.weaken {strict : Prop} (calm : Calm strict s s') : Calm False s s' :=
  ⟨⟨calm.background.newData, calm.background.nextId, calm.background.control,
    calm.background.retransmission, calm.background.retries, fun impossible => impossible.elim⟩,
    fun k => (calm.keys k).weaken⟩

theorem Covered.same {strict : Prop} {a b : Association} (covered : Covered s due key a)
    (core : SameCore strict a b) (queued : SameQueued s s' key)
    (timers : ∀ ip, t3Active s' key ip = t3Active s key ip) :
    Covered s' due key b where
  named := by
    rw [core.outstandingData]
    exact covered.named
  placed := by
    rw [core.outstandingData]
    exact fun tsn o found => core.ips _ (covered.placed tsn o found)
  newTo := by
    rw [queued.1]
    exact fun q member => core.ips _ (covered.newTo q member)
  rtxTo := by
    rw [queued.2]
    exact fun p member => core.ips _ (covered.rtxTo p member)
  cover := by
    intro tsn o found unacked
    rw [core.outstandingData] at found
    unfold CoveredBy
    rw [queued.2, timers]
    exact covered.cover tsn o found unacked

theorem KeyOk.calm {strict : Prop} (ok : KeyOk s due key) (step : KeyStep strict s s' key) :
    KeyOk s' due key := by
  cases step with
  | absent before after queued =>
    refine ⟨fun _ => queued.nothing (ok.absent before), fun a found => ?_⟩
    rw [after] at found
    cases found
  | gone after empty =>
    refine ⟨fun _ => empty, fun a found => ?_⟩
    rw [after] at found
    cases found
  | fresh b after new empty =>
    refine ⟨fun gone => ?_, fun a found => ?_⟩
    · rw [after] at gone
      cases gone
    · rw [after] at found
      cases found
      exact .fresh new.weaken empty
  | same a b before after core queued timers =>
    have old := ok.assoc a before
    refine ⟨fun gone => ?_, fun b' found => ?_⟩
    · rw [after] at gone
      cases gone
    · rw [after] at found
      cases found
      refine ⟨core.paths old.paths, fun forms => ?_, fun transmits => ?_⟩
      · obtain ⟨new, empty⟩ := old.forming (core.forming forms)
        exact ⟨core.weaken.fresh new, queued.nothing empty⟩
      · rcases core.transmits transmits with did | forms
        · exact (old.covered did).same core queued (timers did transmits)
        · obtain ⟨new, empty⟩ := old.forming forms
          exact .fresh (core.weaken.fresh new) (queued.nothing empty)

theorem Orderly.calm {due : AssociationKey → BitVec 32 → Prop} (ok : Orderly s due)
    (calm : Calm False s s') :
    Orderly s' due :=
  ⟨ok.queues.of_background calm.background, fun k => (ok.keys k).calm (calm.keys k)⟩

/-- A step on one association, the others left alone. -/
theorem Orderly.aside {strict : Prop} {due : AssociationKey → BitVec 32 → Prop} (ok : Orderly s due)
    (aside : Aside strict key s s') (queues : QueuesOk s') (here : KeyOk s' (due key) key) :
    Orderly s' due := by
  refine ⟨queues, fun k => ?_⟩
  by_cases same : k = key
  · rw [same]
    exact here
  · exact (ok.keys k).calm (aside k same)

/-- An association that sends. -/
theorem KeyOk.sending {a : Association} (found : s.find? key = some a) (paths : PathsOk a)
    (transmits : transmitsData a.state = true) (covered : Covered s due key a) :
    KeyOk s due key := by
  refine ⟨fun gone => ?_, fun b here => ?_⟩
  · rw [found] at gone
    cases gone
  · rw [found] at here
    cases here
    refine ⟨paths, fun forms => ?_, fun _ => covered⟩
    rw [transmitsData_of_forming forms] at transmits
    cases transmits

end Calm

/-! ## Scheduling what is marked -/

section Schedule

variable {s : Socket} {due : BitVec 32 → Prop} {key : AssociationKey} {a b : Association}

theorem Covered.schedulePending (covered : Covered s due key a) (found : s.find? key = some a)
    (gated : Bool) (after : (s.schedulePendingRetransmission key gated).find? key = some b) :
    Covered (s.schedulePendingRetransmission key gated) due key b := by
  rcases schedulePendingRetransmission_cases found gated with ⟨same, -⟩ | ⟨target, bundle,
    ⟨from_, -⟩, made⟩
  · rw [same] at after ⊢
    rw [found] at after
    cases after
    exact covered
  · rw [made] at after ⊢
    have here : b = unmark a (bundle.map Prod.fst) := by
      simpa [found, eq_comm] using after
    subst here
    have rtx : rtxData ((s.updateAssociation key fun a =>
        unmark a (bundle.map Prod.fst)).enqueuePacket ⟨key, (a.path target).address,
          buildData s.localAddress.port key.address.port a.peerVerTag (bundle.map fun entry =>
            entry.2.data)⟩ .retransmission) key
        = rtxData s key ++ bundle.map fun entry =>
          ((a.path target).address.addr, entry.2.data) := by
      rw [rtxData_retransmit, if_pos rfl, dataChunks_buildData, List.map_map]
      rfl
    -- The packet goes where its chunks are bound.
    have bound : ∀ entry ∈ bundle, (a.path target).address.addr = entry.2.destination.addr := by
      intro entry member
      obtain ⟨inside, rfl⟩ := from_ entry member
      exact (destinationOf_spec (covered.placed _ _ (mem_markedChunks inside).1)).2
    refine ⟨fun tsn o entry => ?_, fun tsn o entry => ?_, covered.newTo, fun p member => ?_,
      fun tsn o entry unacked => ?_⟩
    · rw [get?_unmark, Option.map_eq_some_iff] at entry
      obtain ⟨o', before, rfl⟩ := entry
      have name := covered.named tsn o' before
      split <;> exact name
    · rw [get?_unmark, Option.map_eq_some_iff] at entry
      obtain ⟨o', before, rfl⟩ := entry
      have place := covered.placed tsn o' before
      split <;> exact place
    · rw [rtx, List.mem_append] at member
      rcases member with old | new
      · exact covered.rtxTo p old
      · obtain ⟨entry, inside, rfl⟩ := List.mem_map.mp new
        simp only [bound entry inside]
        exact covered.placed _ _ (mem_markedChunks (from_ entry inside).1).1
    · rw [get?_unmark, Option.map_eq_some_iff] at entry
      obtain ⟨o', before, rfl⟩ := entry
      unfold CoveredBy
      rw [rtx]
      split
      · next bundled =>
        refine Or.inr (Or.inl ⟨o'.data, List.mem_append_right _ ?_, covered.named tsn o' before⟩)
        obtain ⟨entry, inside, rfl⟩ := List.mem_map.mp bundled
        obtain ⟨here, -⟩ := mem_markedChunks (from_ entry inside).1
        rw [before] at here
        cases here
        exact List.mem_map.mpr ⟨entry, inside, by rw [bound entry inside]⟩
      · next alone =>
        rw [if_neg alone] at unacked
        rcases covered.cover tsn o' before unacked with marked | ⟨data, queued, name⟩ | rest
        · exact Or.inl marked
        · exact Or.inr (Or.inl ⟨data, List.mem_append_left _ queued, name⟩)
        · exact Or.inr (Or.inr rest)

end Schedule

/-! ## Moving timers -/

section Timers

variable {s : Socket} {due due' : BitVec 32 → Prop} {key : AssociationKey} {a : Association}

/-- An entry that is not acknowledged is unacknowledged data on its path. -/
theorem hasUnacknowledgedData_of_entry {tsn : Tsn} {o : OutstandingData}
    (entry : a.outstandingData.get? tsn = some o) (unacked : o.gapAcked = false) :
    hasUnacknowledgedData a (destinationOf a o) = true := by
  unfold hasUnacknowledgedData
  rw [List.any_eq_true]
  exact ⟨(tsn, o), KeyMap.mem_entries.mpr entry, by simp [unacked]⟩

/-- Timers are moved so that none of a path with something unacknowledged stops, and
what was due for a timer gets one. -/
theorem Covered.moveTimers (covered : Covered s due key a) (found : s.find? key = some a)
    (ok : PathsOk a) (now : Time) {actions : List (SockAddr × T3Action)}
    (running : ∀ tsn o, a.outstandingData.get? tsn = some o → o.gapAcked = false →
      ∀ action ∈ actions, action.1.addr = o.destination.addr → action.2 ≠ .stop)
    (moved : ∀ tsn o, a.outstandingData.get? tsn = some o → o.gapAcked = false →
      due o.destination.addr → due' o.destination.addr ∨ ∃ action ∈ actions, action.1.addr
        = o.destination.addr) :
    Covered (actions.foldl (fun s action => s.runT3Action now key action) s) due' key a where
  named := covered.named
  placed := covered.placed
  newTo := by
    rw [(runT3Actions_step now actions found).newData]
    exact covered.newTo
  rtxTo := by
    rw [rtxData_runT3Actions]
    exact covered.rtxTo
  cover := by
    intro tsn o entry unacked
    obtain ⟨bound, address⟩ := destinationOf_spec (covered.placed tsn o entry)
    have timed : t3Active s key o.destination.addr = true
        ∨ (∃ action ∈ actions, action.1.addr = o.destination.addr) →
        t3Active (actions.foldl (fun s action => s.runT3Action now key action) s)
          key o.destination.addr = true := by
      rw [← address]
      exact t3Active_runT3Actions now found ok bound (hasUnacknowledgedData_of_entry entry unacked)
        (fun action member same => running tsn o entry unacked action member (same.trans address))
    unfold CoveredBy
    rw [rtxData_runT3Actions]
    rcases covered.cover tsn o entry unacked with marked | queued | active | waiting
    · exact Or.inl marked
    · exact Or.inr (Or.inl queued)
    · exact Or.inr (Or.inr (Or.inl (timed (Or.inl active))))
    · rcases moved tsn o entry unacked waiting with still | action
      · exact Or.inr (Or.inr (Or.inr still))
      · exact Or.inr (Or.inr (Or.inl (timed (Or.inr action))))

end Timers

/-! ## SACK -/

section Sack

variable {s : Socket} {due : BitVec 32 → Prop} {key : AssociationKey} {a b : Association}

/-- The addresses of the chunks a SACK withdraws its acknowledgement of. -/
def Withdrawn (a : Association) (sack : SackChunkValue) (ip : BitVec 32) : Prop :=
  ∃ entry ∈ a.outstandingData.entries, reneges sack entry = true ∧ entry.2.destination.addr = ip

theorem Covered.acknowledgeSack (covered : Covered s due key a) (now : Time)
    (sack : SackChunkValue) :
    Covered (s.acknowledgeSack now sack key a) (fun ip => due ip ∨ Withdrawn a sack ip) key
      (applySack a sack now).assoc := by
  have step := acknowledgeSack_step s key a now sack
  have rtx := acknowledgeSack_rtx s key a now sack
  -- An entry that is left has its data and its destination from before.
  have before : ∀ tsn o, (applySack a sack now).assoc.outstandingData.get? tsn = some o →
      ∃ o', a.outstandingData.get? tsn = some o' ∧ o.data = o'.data ∧ o.destination = o'.destination
        ∧ o.gapAcked = sackAcknowledges sack tsn
        ∧ (sackAcknowledges sack tsn = false → o'.pendingRetransmission = true →
          o.pendingRetransmission = true) := by
    intro tsn o entry
    rw [get?_applySack, Option.bind_eq_some_iff] at entry
    obtain ⟨o', here, left⟩ := entry
    rcases sackEntry_spec a sack tsn o' with ⟨-, gone⟩ | ⟨o'', -, left', data, destination, acked,
      marked⟩
    · rw [gone] at left
      cases left
    · rw [left] at left'
      cases left'
      exact ⟨o', here, data, destination, acked, marked⟩
  refine ⟨fun tsn o entry => ?_, fun tsn o entry => ?_, ?_, fun p member => ?_,
    fun tsn o entry unacked => ?_⟩
  · obtain ⟨o', here, data, -⟩ := before tsn o entry
    rw [data]
    exact covered.named tsn o' here
  · obtain ⟨o', here, -, destination, -⟩ := before tsn o entry
    rw [destination, step.ips]
    exact covered.placed tsn o' here
  · rw [step.newData, step.ips]
    exact covered.newTo
  · rw [rtx, List.mem_filter] at member
    rw [step.ips]
    exact covered.rtxTo p member.1
  · obtain ⟨o', here, data, destination, acked, marked⟩ := before tsn o entry
    rw [unacked] at acked
    unfold CoveredBy
    rw [rtx, acknowledgeSack_t3, destination]
    cases was : o'.gapAcked with
    | true =>
      refine Or.inr (Or.inr (Or.inr (Or.inr ⟨(tsn, o'), KeyMap.mem_entries.mpr here, ?_, rfl⟩)))
      simp [reneges, ← acked, was]
    | false =>
      rcases covered.cover tsn o' here was with pending | ⟨d, queued, name⟩ | active | waiting
      · exact Or.inl (marked acked.symm pending)
      · refine Or.inr (Or.inl ⟨d, List.mem_filter.mpr ⟨queued, ?_⟩, name⟩)
        simp [name, ← acked]
      · exact Or.inr (Or.inr (Or.inl active))
      · exact Or.inr (Or.inr (Or.inr (Or.inl waiting)))

/-- What a SACK does to the timer of a path is what `t3Action` decides for it. -/
theorem mem_t3Actions {sack : SackChunkValue} {outcome : SackOutcome}
    {action : SockAddr × T3Action} :
    action ∈ s.t3Actions key a sack outcome ↔ ∃ i < outcome.assoc.peerAddressList.length,
      action.1 = (outcome.assoc.path i).address ∧ t3Action a sack outcome
        (s.expirations.isActive (pathTimerOf key .t3Rtx (outcome.assoc.path i).address)) i
          = some action.2 := by
  unfold Socket.t3Actions
  simp only [List.mem_filterMap, List.mem_range, Option.map_eq_some_iff]
  constructor
  · rintro ⟨i, bound, act, decided, rfl⟩
    exact ⟨i, bound, rfl, decided⟩
  · rintro ⟨i, bound, address, decided⟩
    exact ⟨i, bound, action.2, decided, by rw [← address]⟩

theorem t3Action_running {sack : SackChunkValue} {outcome : SackOutcome} {active : Bool} {i : Nat}
    (unacked : hasUnacknowledgedData outcome.assoc i = true) :
    t3Action a sack outcome active i ≠ some .stop
      ∧ (((sentTo a i).filter (reneges sack)).isEmpty = false →
        ∃ action, t3Action a sack outcome active i = some action) := by
  unfold t3Action
  simp only [unacked, Bool.not_true, Bool.false_eq_true, if_false]
  split
  · exact ⟨by simp, fun _ => ⟨_, rfl⟩⟩
  · split
    · next none => exact ⟨by simp, fun some => by rw [none] at some; cases some⟩
    · exact ⟨by simp, fun _ => ⟨_, rfl⟩⟩

theorem Covered.settleSack (covered : Covered s due key a) (ok : PathsOk a) (now : Time)
    (sack : SackChunkValue) (after : (s.settleSack now sack key a).find? key = some b) :
    Covered (s.settleSack now sack key a) due key b := by
  have acked := acknowledgeSack_step s key a now sack
  have covered₁ := covered.acknowledgeSack (s := s) now sack
  -- Fast retransmission takes marks, and changes nothing a timer depends on.
  have scheduled : ∃ c, SenderStep key keepAll (s.acknowledgeSack now sack key a)
        (if (applySack a sack now).enteredFastRecovery then
          (s.acknowledgeSack now sack key a).schedulePendingRetransmission key false
        else s.acknowledgeSack now sack key a) (applySack a sack now).assoc c
      ∧ Covered (if (applySack a sack now).enteredFastRecovery then
          (s.acknowledgeSack now sack key a).schedulePendingRetransmission key false
        else s.acknowledgeSack now sack key a) (fun ip => due ip ∨ Withdrawn a sack ip) key c
      ∧ ∀ i, hasUnacknowledgedData c i = hasUnacknowledgedData (applySack a sack now).assoc i := by
    split
    · obtain ⟨c, step, -, -, unacked, -⟩ := schedulePendingRetransmission_step acked.found false
      exact ⟨c, step, covered₁.schedulePending acked.found false step.found, unacked⟩
    · exact ⟨_, .refl acked.found, covered₁, fun _ => rfl⟩
  obtain ⟨c, step, covered₂, unackedSame⟩ := scheduled
  have ok₁ : PathsOk (applySack a sack now).assoc := acked.paths ok
  have same : b = c := by
    have found := (runT3Actions_step now (s.t3Actions key a sack (applySack a sack now))
      step.found).found
    unfold Socket.settleSack at after
    rw [found] at after
    exact (Option.some.inj after).symm
  subst same
  -- The path of an entry, for the SACK and afterwards.
  have path : ∀ tsn o, b.outstandingData.get? tsn = some o → o.gapAcked = false →
      destinationOf b o < (applySack a sack now).assoc.peerAddressList.length
      ∧ ((applySack a sack now).assoc.path (destinationOf b o)).address.addr = o.destination.addr
      ∧ hasUnacknowledgedData (applySack a sack now).assoc (destinationOf b o) = true := by
    intro tsn o entry unacked
    have placed := covered₂.placed tsn o entry
    have placed₁ : o.destination.addr ∈ (applySack a sack now).assoc.ips := by rwa [← step.ips]
    rw [destinationOf_congr step.ips placed₁]
    refine ⟨(destinationOf_spec placed₁).1, (destinationOf_spec placed₁).2, ?_⟩
    rw [← unackedSame, ← destinationOf_congr step.ips placed₁]
    exact hasUnacknowledgedData_of_entry entry unacked
  refine Covered.moveTimers covered₂ step.found (step.paths ok₁) now ?_ ?_
  · intro tsn o entry unacked action member address stop
    obtain ⟨bound, same, unackedHere⟩ := path tsn o entry unacked
    obtain ⟨i, boundI, at_, decided⟩ := mem_t3Actions.mp member
    have index : i = destinationOf b o := by
      refine ok₁.index_eq boundI bound ?_
      rw [← at_, address, same]
    rw [stop, index] at decided
    exact (t3Action_running unackedHere).1 decided
  · intro tsn o entry unacked waiting
    obtain ⟨bound, same, unackedHere⟩ := path tsn o entry unacked
    rcases waiting with still | ⟨withdrawn, inside, reneged, address⟩
    · exact Or.inl still
    · refine Or.inr ?_
      have placed := covered.placed withdrawn.1 withdrawn.2 (KeyMap.mem_entries.mp inside)
      have sent : withdrawn ∈ (sentTo a (destinationOf b o)).filter (reneges sack) := by
        refine List.mem_filter.mpr ⟨List.mem_filter.mpr ⟨inside, ?_⟩, reneged⟩
        obtain ⟨boundW, sameW⟩ := destinationOf_spec placed
        have index : destinationOf a withdrawn.2 = destinationOf b o := by
          have placed₁ : withdrawn.2.destination.addr ∈ (applySack a sack now).assoc.ips := by
            rwa [acked.ips]
          have boundW₁ := destinationOf_spec placed₁
          have moved : destinationOf (applySack a sack now).assoc withdrawn.2
              = destinationOf a withdrawn.2 :=
            destinationOf_congr acked.ips placed
          rw [moved] at boundW₁
          exact ok₁.index_eq boundW₁.1 bound (by rw [boundW₁.2, same, address])
        simpa using index
      have some_ : ((sentTo a (destinationOf b o)).filter (reneges sack)).isEmpty = false := by
        rw [List.isEmpty_eq_false_iff_exists_mem]
        exact ⟨_, sent⟩
      obtain ⟨action, decided⟩ := (t3Action_running unackedHere).2 some_
      exact ⟨(((applySack a sack now).assoc.path (destinationOf b o)).address, action),
        mem_t3Actions.mpr ⟨destinationOf b o, bound, rfl, decided⟩, same⟩

end Sack

/-! ## SHUTDOWN -/

section Shutdown

variable {s : Socket} {due : BitVec 32 → Prop} {key : AssociationKey} {a b : Association}

theorem Covered.settleShutdown (covered : Covered s due key a) (found : s.find? key = some a)
    (ok : PathsOk a) (now : Time) (cumulativeTsnAck : Tsn)
    (after : (s.settleShutdown now cumulativeTsnAck key a).find? key = some b) :
    Covered (s.settleShutdown now cumulativeTsnAck key a) due key b := by
  obtain ⟨c, step, -, -, entries, rtx, t3⟩ := acknowledgeByShutdown_spec found cumulativeTsnAck
  have same : b = c := by
    have found' := (runT3Actions_step now (if tsnGt cumulativeTsnAck a.cumulativeTsnAck then
      ((List.range a.peerAddressList.length).filter fun i =>
        decide (i ∈ pathsAcked a cumulativeTsnAck)).map
        fun i => ((a.path i).address, T3Action.restart) else []) step.found).found
    unfold Socket.settleShutdown at after
    rw [found'] at after
    exact (Option.some.inj after).symm
  subst same
  have before : ∀ tsn o, b.outstandingData.get? tsn = some o →
      a.outstandingData.get? tsn = some o ∧ shutdownDrops a cumulativeTsnAck tsn = false := by
    intro tsn o entry
    rw [entries] at entry
    split at entry
    · cases entry
    · next kept => exact ⟨entry, by simpa using kept⟩
  have covered₁ : Covered (s.acknowledgeByShutdown cumulativeTsnAck key a) due key b := by
    refine ⟨fun tsn o entry => covered.named tsn o (before tsn o entry).1, fun tsn o entry => ?_,
      ?_, fun p member => ?_,
      fun tsn o entry unacked => ?_⟩
    · rw [step.ips]
      exact covered.placed tsn o (before tsn o entry).1
    · rw [step.newData, step.ips]
      exact covered.newTo
    · rw [rtx, List.mem_filter] at member
      rw [step.ips]
      exact covered.rtxTo p member.1
    · obtain ⟨here, kept⟩ := before tsn o entry
      unfold CoveredBy
      rw [rtx, t3]
      rcases covered.cover tsn o here unacked with marked | ⟨data, queued, name⟩ | rest
      · exact Or.inl marked
      · refine Or.inr (Or.inl ⟨data, List.mem_filter.mpr ⟨queued, ?_⟩, name⟩)
        simp [name, kept]
      · exact Or.inr (Or.inr rest)
  refine covered₁.moveTimers step.found (step.paths ok) now ?_ fun tsn o _ _ waiting =>
    Or.inl waiting
  intro tsn o _ _ action member _
  split at member
  · obtain ⟨i, -, rfl⟩ := List.mem_map.mp member
    simp
  · cases member

end Shutdown

/-! ## T3-rtx -/

section T3

variable {s : Socket} {due due' : BitVec 32 → Prop} {key : AssociationKey} {a : Association}

/-- A chunk whose timer went off is marked, whatever was queued of it is dropped, and
the others keep what covers them. -/
theorem Covered.expireT3 (covered : Covered s due key a) (found : s.find? key = some a)
    (ok : PathsOk a) {destination : SockAddr} {i : Nat} (path : findPath a destination = some i)
    (handled : ∀ ip, due ip → ip = destination.addr ∨ due' ip) :
    ∃ b, SenderStep key keepAll s
        ((s.expireT3 key a i).removeRetransmissionsOfType key .data (some destination)) a b
      ∧ b.state = a.state ∧ b.cumulativeTsnAck = a.cumulativeTsnAck
      ∧ Covered ((s.expireT3 key a i).removeRetransmissionsOfType key .data (some destination))
        due' key b := by
  obtain ⟨b, c, target, rewritten, frame, frame', cumulative, keys, placed, entries⟩ :=
    expireT3_spec found i
  have rtx := rtxData_removeData (s.expireT3 key a i) key destination
  rw [rewritten.rtx] at rtx
  have step := rewritten.step frame (by rw [frame.state]; exact id) (sentData_expire entries) keys
  have dropped : SenderStep key keepAll (s.expireT3 key a i)
      ((s.expireT3 key a i).removeRetransmissionsOfType key .data (some destination)) b b := by
    refine .of_queues rewritten.found (.removeOfType _ key _ _) (fun queues => queues.dropped)
      (fun fit => fit.dropped) rfl rfl fun p member => ?_
    rw [rtxData_removeData, List.mem_filter] at member
    exact member.1
  have address := (findPath_spec path).2
  refine ⟨b, step.trans dropped, frame.state, cumulative, fun tsn o entry => ?_, fun tsn o entry =>
    ?_, ?_,
    fun p member => ?_, fun tsn o entry unacked => ?_⟩
  · rw [entries, Option.map_eq_some_iff] at entry
    obtain ⟨o', here, rfl⟩ := entry
    have name := covered.named tsn o' here
    unfold expireEntry
    split <;> exact name
  · rw [entries, Option.map_eq_some_iff] at entry
    obtain ⟨o', here, rfl⟩ := entry
    rw [frame.ips]
    unfold expireEntry
    split
    · exact placed ok
    · exact covered.placed tsn o' here
  · rw [newDataFor_removeOfType, rewritten.newData, frame.ips]
    exact covered.newTo
  · rw [rtx, List.mem_filter] at member
    rw [frame.ips]
    exact covered.rtxTo p member.1
  · rw [entries, Option.map_eq_some_iff] at entry
    obtain ⟨o', here, rfl⟩ := entry
    unfold CoveredBy
    rw [rtx, t3Active_removeOfType, rewritten.t3]
    have place := covered.placed tsn o' here
    by_cases late : (!o'.gapAcked && !o'.pendingRetransmission && destinationOf c o' == i) = true
    · refine Or.inl ?_
      rw [expireEntry, if_pos late]
    · rw [expireEntry, if_neg late] at unacked ⊢
      rw [destinationOf_congr frame'.ips place] at late
      cases pending : o'.pendingRetransmission with
      | true => exact Or.inl rfl
      | false =>
        -- It was sent elsewhere, where nothing changed.
        have elsewhere : destination.addr ≠ o'.destination.addr := by
          intro same
          apply late
          have index : destinationOf a o' = i := by
            obtain ⟨bound, address'⟩ := destinationOf_spec place
            exact ok.index_eq bound (findPath_spec path).1 (by rw [address', address, same])
          simp [unacked, pending, index]
        rcases covered.cover tsn o' here unacked with marked | ⟨data, queued,
          name⟩ | active | waiting
        · rw [pending] at marked
          cases marked
        · refine Or.inr (Or.inl ⟨data, List.mem_filter.mpr ⟨queued, ?_⟩, name⟩)
          simpa using elsewhere
        · exact Or.inr (Or.inr (Or.inl active))
        · rcases handled _ waiting with same | still
          · exact absurd same.symm elsewhere
          · exact Or.inr (Or.inr (Or.inr still))

/-- Fewer addresses are due, if nothing in flight was sent to those that no longer are. -/
theorem Covered.handled (covered : Covered s due key a)
    (idle : ∀ tsn o, a.outstandingData.get? tsn = some o → o.gapAcked = false →
      due o.destination.addr → due' o.destination.addr) : Covered s due' key a := by
  refine ⟨covered.named, covered.placed, covered.newTo, covered.rtxTo, fun tsn o entry unacked =>
    ?_⟩
  rcases covered.cover tsn o entry unacked with marked | queued | active | waiting
  · exact Or.inl marked
  · exact Or.inr (Or.inl queued)
  · exact Or.inr (Or.inr (Or.inl active))
  · exact Or.inr (Or.inr (Or.inr (idle tsn o entry unacked waiting)))

theorem AssocOk.handled (ok : AssocOk s due key a)
    (idle : transmitsData a.state = true → ∀ tsn o, a.outstandingData.get? tsn = some o →
      o.gapAcked = false → due o.destination.addr → due' o.destination.addr) :
        AssocOk s due' key a :=
  ⟨ok.paths, ok.forming, fun transmits => (ok.covered transmits).handled (idle transmits)⟩

theorem KeyOk.handled (ok : KeyOk s due key)
    (idle : ∀ a, s.find? key = some a → transmitsData a.state = true → ∀ tsn o,
      a.outstandingData.get? tsn = some o → o.gapAcked = false → due o.destination.addr →
        due' o.destination.addr) :
    KeyOk s due' key :=
  ⟨ok.absent, fun a found => (ok.assoc a found).handled (idle a found)⟩

/-- The handler of a T3-rtx expiry: the association it is about is kept, or gone. -/
theorem handleT3Expiration_keyOk (ok : KeyOk s due key) (destination : SockAddr)
    (due' : BitVec 32 → Prop) (handled : ∀ ip, due ip → ip = destination.addr ∨ due' ip) :
    KeyOk (s.handleT3Expiration key destination) due' key
      ∧ Aside True key s (s.handleT3Expiration key destination)
      ∧ (QueuesOk s → QueuesOk (s.handleT3Expiration key destination)) := by
  have unchanged : (∀ a, s.find? key = some a → transmitsData a.state = true → ∀ tsn o,
      a.outstandingData.get? tsn = some o → o.gapAcked = false → o.destination.addr
        ≠ destination.addr) →
      KeyOk s due' key ∧ Aside True key s s ∧ (QueuesOk s → QueuesOk s) := by
    intro idle
    refine ⟨ok.handled fun a found transmits tsn o entry unacked waiting => ?_, .of_calm (.refl s),
      id⟩
    exact (handled _ waiting).resolve_left (idle a found transmits tsn o entry unacked)
  unfold Socket.handleT3Expiration
  cases found : s.find? key with
  | none => exact unchanged fun a here => by rw [found] at here; cases here
  | some a =>
    have old := ok.assoc a found
    simp only
    split
    · next silent =>
      refine unchanged fun b here transmits => ?_
      rw [found] at here
      cases here
      simp [transmits] at silent
    · next sends =>
      have transmits : transmitsData a.state = true := by simpa using sends
      have covered := old.covered transmits
      cases path : findPath a destination with
      | none =>
        refine unchanged fun b here _ tsn o entry _ same => ?_
        rw [found] at here
        cases here
        exact findPath_eq_none.mp path (same ▸ covered.placed tsn o entry)
      | some i =>
        simp only
        split
        · next acked =>
          refine unchanged fun b here _ tsn o entry unacked same => ?_
          rw [found] at here
          cases here
          obtain ⟨bound, address⟩ := destinationOf_spec (covered.placed tsn o entry)
          have index : destinationOf a o = i :=
            old.paths.index_eq bound (findPath_spec path).1
              (by rw [address, (findPath_spec path).2, same])
          have here := hasUnacknowledgedData_of_entry entry unacked
          rw [index] at here
          simp [here] at acked
        · split
          · obtain ⟨b, c, target, rewritten, -⟩ := expireT3_spec found i
            obtain ⟨gone, empty⟩ := removeAssociation_gone (s.expireT3 key a i) key
            have lost : Calm True _ _ := .loseAssociation (s.expireT3 key a i) key
            refine ⟨⟨fun _ => empty, fun b here => ?_⟩, rewritten.aside.trans (.of_calm lost),
              fun queues => ?_⟩
            · rw [show ((s.expireT3 key a i).loseAssociation key).find? key = none from gone]
                at here
              cases here
            · exact (queues.of_eq rewritten.sends rewritten.expirations).of_background
                lost.background
          · obtain ⟨b, step, state, -, covered'⟩ := covered.expireT3 found old.paths path handled
            obtain ⟨c, step', state', -⟩ := schedulePendingRetransmission_step step.found false
            have whole := step.trans step'
            refine ⟨.sending whole.found (whole.paths old.paths) ?_ ?_, whole.aside, whole.queues⟩
            · rw [state', state]
              exact transmits
            · exact covered'.schedulePending step.found false whole.found

end T3

end SctpStack
