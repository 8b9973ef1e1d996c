import SctpStack.FastRetransmit
import SctpStack.SendWindow

/-!
# A chunk is scheduled for retransmission once

A chunk leaves its mark when it is queued to be sent again, and what is queued for a path
whose timer goes off is taken out before its chunks are marked. So no TSN is queued twice,
and what is queued is not marked too (`Resending`), unless a SACK marks for Fast Retransmit
a chunk whose retransmission is still queued, which nothing prevents
(`queued_twice`).
-/

namespace SctpStack

open Serial

/-! ## The invariant -/

/-- No TSN of an association is queued to be sent again twice, or queued and marked. -/
def OnceScheduled (s : Socket) (key : AssociationKey) (a : Association) : Prop :=
  ((rtxData s key).map fun p => p.2.tsn).Nodup
    ∧ ∀ p ∈ rtxData s key, ∀ o, a.outstandingData.get? p.2.tsn = some o → o.pendingRetransmission
      = false

/-- An entry whose retransmission is queued for an address. -/
structure Waits (o : OutstandingData) (ip : BitVec 32) : Prop where
  unmarked : o.pendingRetransmission = false
  unacked : o.gapAcked = false
  bound : o.destination.addr = ip

/-- What is queued for an association, and what is outstanding. -/
structure Resending (s : Socket) (key : AssociationKey) (a : Association) : Prop where
  named : ∀ tsn o, a.outstandingData.get? tsn = some o → o.data.tsn = tsn
  placed : ∀ tsn o, a.outstandingData.get? tsn = some o → o.destination.addr ∈ a.ips
  once : ((rtxData s key).map fun p => p.2.tsn).Nodup
  waits : ∀ p ∈ rtxData s key, ∃ o, a.outstandingData.get? p.2.tsn = some o ∧ Waits o p.1
  single : (newDataFor s key).length ≤ 1
  apart : ∀ data ∈ queuedData s key, a.outstandingData.get? data.tsn = none

def AllResending (s : Socket) : Prop := ∀ key a, s.find? key = some a → Resending s key a

section Resending

variable {s s' : Socket} {key : AssociationKey} {a b : Association}

theorem Resending.onceScheduled (holds : Resending s key a) : OnceScheduled s key a := by
  refine ⟨holds.once, fun p member o found => ?_⟩
  obtain ⟨o', here, waits⟩ := holds.waits p member
  rw [found] at here
  cases here
  exact waits.unmarked

theorem Resending.fresh (new : FreshAssoc False a) (empty : NothingQueued s key) :
    Resending s key a := by
  refine ⟨by simp [new.outstandingData], by simp [new.outstandingData], by simp [empty.2], by
    simp [empty.2], by simp [empty.1], fun data inside => ?_⟩
  rw [queuedData, empty.1] at inside
  cases inside

/-- Less is queued to be sent again, and what still is waits where it did. -/
theorem Resending.fewer (holds : Resending s key a) (rtx : (rtxData s' key).Sublist (rtxData s key))
    (newData : newDataFor s' key = newDataFor s key)
    (named : ∀ tsn o, b.outstandingData.get? tsn = some o → o.data.tsn = tsn)
    (placed : ∀ tsn o, b.outstandingData.get? tsn = some o → o.destination.addr ∈ b.ips)
    (none : ∀ tsn, a.outstandingData.get? tsn = none → b.outstandingData.get? tsn = none)
    (waits : ∀ p ∈ rtxData s' key, ∀ o, a.outstandingData.get? p.2.tsn = some o → Waits o p.1 →
      ∃ o', b.outstandingData.get? p.2.tsn = some o' ∧ Waits o' p.1) : Resending s' key b := by
  refine ⟨named, placed, (rtx.map _).nodup holds.once, fun p member => ?_, ?_, fun data inside =>
    ?_⟩
  · obtain ⟨o, here, waiting⟩ := holds.waits p (rtx.subset member)
    exact waits p member o here waiting
  · rw [newData]
    exact holds.single
  · rw [queuedData_congr newData] at inside
    exact none _ (holds.apart data inside)

/-- Nothing of this changed. -/
theorem Resending.same (holds : Resending s key a) (queued : SameQueued s s' key)
    (outstanding : b.outstandingData = a.outstandingData) (ips : ∀ ip ∈ a.ips, ip ∈ b.ips) :
    Resending s' key b := by
  refine holds.fewer (queued.2 ▸ List.Sublist.refl _) queued.1 ?_ ?_ ?_ fun p _ o here waits => ?_
  · rw [outstanding]
    exact holds.named
  · rw [outstanding]
    exact fun tsn o here => ips _ (holds.placed tsn o here)
  · rw [outstanding]
    exact fun _ => id
  · rw [outstanding]
    exact ⟨o, here, waits⟩

end Resending

namespace AllResending

variable {s s' : Socket} {key : AssociationKey} {a b : Association}

theorem keyStep {strict : Prop} (all : AllResending s) (step : KeyStep strict s s' key)
    (found : s'.find? key = some b) :
    Resending s' key b := by
  cases step with
  | absent _ gone => rw [found] at gone; cases gone
  | gone gone => rw [found] at gone; cases gone
  | fresh b' here new empty =>
    rw [found] at here
    cases here
    exact .fresh new.weaken empty
  | same a b' before here core queued =>
    rw [found] at here
    cases here
    exact (all key a before).same queued core.outstandingData core.ips

theorem calm (all : AllResending s) (calm : Calm False s s') : AllResending s' :=
  fun key _ found => all.keyStep (calm.keys key) found

/-- A step on one association, the others left alone. -/
theorem aside {strict : Prop} (all : AllResending s) (aside : Aside strict key s s')
    (found : s'.find? key = some b) (here : Resending s' key b) : AllResending s' := by
  intro k c after
  by_cases same : k = key
  · subst same
    rw [found] at after
    cases after
    exact here
  · exact all.keyStep (aside k same) after

/-- The associations change in what does not matter here, and nothing that is queued does. -/
theorem mapVals (all : AllResending s) {f : AssociationKey → Association → Association}
    (same : ∀ k a, (f k a).outstandingData = a.outstandingData) (ips : ∀ k a, (f k a).ips = a.ips) :
    AllResending { s with associations := s.associations.mapVals f } := by
  intro k b found
  rw [Socket.find?, KeyMap.get?_mapVals, Option.map_eq_some_iff] at found
  obtain ⟨a, before, rfl⟩ := found
  exact (all k a before).same ⟨rfl, rfl⟩ (same k a) fun ip member => (ips k a).symm ▸ member

end AllResending

/-! ## Marked chunks are queued -/

section Schedule

variable {s : Socket} {key : AssociationKey} {a : Association}

theorem nodup_markedChunks (a : Association) : ((markedChunks a).map Prod.fst).Nodup :=
  (List.filter_sublist.map Prod.fst).nodup a.outstandingData.nodup

/-- A marked entry whose TSN is bundled waits for the packet. -/
theorem waits_unmark {target : Nat} {entry : Tsn × OutstandingData}
    (placed : entry.2.destination.addr ∈ a.ips) (marked : entry ∈ markedChunks a)
    (goes : destinationOf a entry.2 = target) {tsns : List Tsn} (inside : entry.1 ∈ tsns) :
    ∃ o, (unmark a tsns).outstandingData.get? entry.1 = some o
      ∧ Waits o (a.path target).address.addr := by
  obtain ⟨here, -, unacked⟩ := mem_markedChunks marked
  refine ⟨{ entry.2 with pendingRetransmission := false }, ?_, rfl, unacked, ?_⟩
  · rw [get?_unmark, here, Option.map_some, if_pos inside]
  · rw [← goes]
    exact (destinationOf_spec placed).2.symm

theorem Resending.schedulePending (holds : Resending s key a) (found : s.find? key = some a)
    (gated : Bool) :
    ∃ b, (s.schedulePendingRetransmission key gated).find? key = some b
      ∧ Resending (s.schedulePendingRetransmission key gated) key b := by
  rcases schedulePendingRetransmission_cases found gated with ⟨same, -⟩ | ⟨target, bundle,
    ⟨from_, -, sub⟩, made⟩
  · rw [same]
    exact ⟨a, found, holds⟩
  rw [made]
  refine ⟨unmark a (bundle.map Prod.fst), by simp [found], ?_⟩
  have name : ∀ entry ∈ bundle, entry.2.data.tsn = entry.1 :=
    fun entry member => holds.named entry.1 entry.2 (mem_markedChunks (from_ entry member).1).1
  have rtx : rtxData ((s.updateAssociation key fun a =>
      unmark a (bundle.map Prod.fst)).enqueuePacket ⟨key, (a.path target).address,
        buildData s.localAddress.port key.address.port a.peerVerTag (bundle.map fun entry =>
          entry.2.data)⟩ .retransmission) key
      = rtxData s key ++ bundle.map fun entry => ((a.path target).address.addr, entry.2.data) := by
    rw [rtxData_retransmit, if_pos rfl, dataChunks_buildData, List.map_map]
    rfl
  have left : ∀ tsn o, (unmark a (bundle.map Prod.fst)).outstandingData.get? tsn = some o →
      ∃ o', a.outstandingData.get? tsn = some o' ∧ o.data = o'.data
      ∧ o.destination = o'.destination := by
    intro tsn o here
    rw [get?_unmark, Option.map_eq_some_iff] at here
    obtain ⟨o', before, rfl⟩ := here
    refine ⟨o', before, ?_⟩
    split <;> exact ⟨rfl, rfl⟩
  refine ⟨fun tsn o here => ?_, fun tsn o here => ?_, ?_, fun p member => ?_, holds.single,
    fun data inside => ?_⟩
  · obtain ⟨o', before, data, -⟩ := left tsn o here
    rw [data]
    exact holds.named tsn o' before
  · obtain ⟨o', before, -, destination⟩ := left tsn o here
    rw [destination]
    exact holds.placed tsn o' before
  · have tsns : bundle.map (fun entry => entry.2.data.tsn) = bundle.map Prod.fst :=
      List.map_congr_left name
    rw [rtx, List.map_append, List.map_map]
    change (_ ++ bundle.map fun entry => entry.2.data.tsn).Nodup
    rw [tsns, List.nodup_append]
    refine ⟨holds.once, (sub.map Prod.fst).nodup (nodup_markedChunks a), fun x old y new same => ?_⟩
    -- What was queued was not marked.
    obtain ⟨p, member, rfl⟩ := List.mem_map.mp old
    obtain ⟨entry, inside, rfl⟩ := List.mem_map.mp new
    obtain ⟨o, here, waits⟩ := holds.waits p member
    obtain ⟨there, marked, -⟩ := mem_markedChunks (from_ entry inside).1
    rw [same, there] at here
    cases here
    rw [waits.unmarked] at marked
    cases marked
  · rw [rtx, List.mem_append] at member
    rcases member with old | new
    · obtain ⟨o, here, waits⟩ := holds.waits p old
      rw [get?_unmark, here, Option.map_some]
      refine ⟨_, rfl, ?_⟩
      split
      · exact ⟨rfl, waits.unacked, waits.bound⟩
      · exact waits
    · obtain ⟨entry, inside, rfl⟩ := List.mem_map.mp new
      obtain ⟨marked, goes⟩ := from_ entry inside
      rw [name entry inside]
      exact waits_unmark (holds.placed entry.1 entry.2 (mem_markedChunks marked).1) marked goes
        (List.mem_map_of_mem inside)
  · rw [get?_unmark, holds.apart data inside]
    rfl

theorem AllResending.schedulePending (all : AllResending s) (key : AssociationKey) (gated : Bool) :
    AllResending (s.schedulePendingRetransmission key gated) := by
  cases found : s.find? key with
  | none =>
    unfold Socket.schedulePendingRetransmission
    simpa only [found] using all
  | some a =>
    obtain ⟨b, after, here⟩ := (all key a found).schedulePending found gated
    obtain ⟨b', step, -⟩ := schedulePendingRetransmission_step found gated
    exact all.aside step.aside after here

end Schedule

/-! ## Acknowledgements -/

/-- A SACK that reports an entry missing for the third time. -/
def thirdReport (a : Association) (sack : SackChunkValue) (tsn : Tsn) (o : OutstandingData) :
    Bool :=
  !sackAcknowledges sack tsn && !o.fastRetransmitted
    && decide (3 ≤ o.missingReports + (reportedMissing (missingBelow a sack) tsn).toNat)

/-- A SACK that is applied to an association. -/
def appliesTo (a : Association) (sack : SackChunkValue) : Bool :=
  transmitsData a.state && !acksUnsent a sack && !tsnLt sack.cumulativeTsnAck a.cumulativeTsnAck

/-- No chunk queued to be sent again is reported missing for the third time. -/
def Socket.sparesQueued (s : Socket) (key : AssociationKey) (sack : SackChunkValue) : Bool :=
  (s.find? key).all fun a => !appliesTo a sack
    || (rtxData s key).all fun p => (a.outstandingData.get? p.2.tsn).all fun o =>
      !thirdReport a sack p.2.tsn o

section Acknowledge

variable {s : Socket} {key : AssociationKey} {a : Association} {tsn : Tsn} {o : OutstandingData}
    {ip : BitVec 32}

theorem missEntry_waits {reported : Option Tsn} (reneged : List Tsn) (waits : Waits o ip)
    (spared : o.fastRetransmitted = false → o.missingReports + (reportedMissing reported tsn).toNat
      < 3) :
    Waits (missEntry reported reneged tsn o) ip := by
  have counted : (if (reportedMissing reported tsn && !decide (tsn ∈ reneged)) = true
      then o.missingReports + 1
      else o.missingReports) ≤ o.missingReports + (reportedMissing reported tsn).toNat := by
    split
    · next reports =>
      rw [Bool.and_eq_true] at reports
      rw [reports.1]
      exact Nat.le_refl _
    · exact Nat.le_add_right _ _
  unfold missEntry
  simp only
  revert counted
  generalize (if (reportedMissing reported tsn && !decide (tsn ∈ reneged)) = true
    then o.missingReports + 1
    else o.missingReports) = reports
  intro counted
  split
  · exact waits
  · next counts =>
    rw [Bool.not_eq_true, Bool.or_eq_false_iff] at counts
    rw [if_neg (Nat.not_le.mpr (Nat.lt_of_le_of_lt counted (spared counts.2)))]
    exact ⟨waits.unmarked, waits.unacked, waits.bound⟩

theorem sackEntry_waits {sack : SackChunkValue} (waits : Waits o ip)
    (unacked : sackAcknowledges sack tsn = false) (spared : thirdReport a sack tsn o = false) :
    ∃ o', sackEntry a sack tsn o = some o' ∧ Waits o' ip := by
  have above : ¬tsnLte tsn sack.cumulativeTsnAck = true := by
    intro below
    rw [sackAcknowledges_of_below below] at unacked
    cases unacked
  have kept : ackEntry sack tsn o = some o := by
    unfold ackEntry
    rw [if_neg above, unacked, waits.unacked]
    rfl
  refine ⟨_, by rw [sackEntry, kept]; rfl, missEntry_waits _ waits fun fresh => ?_⟩
  rw [thirdReport, unacked, fresh] at spared
  simpa using spared

theorem Resending.acknowledgeSack (holds : Resending s key a) (now : Time) (sack : SackChunkValue)
    (spares : ∀ p ∈ rtxData s key, ∀ o, a.outstandingData.get? p.2.tsn = some o →
      thirdReport a sack p.2.tsn o = false) :
    Resending (s.acknowledgeSack now sack key a) key (applySack a sack now).assoc := by
  have step := acknowledgeSack_step s key a now sack
  have rtx := acknowledgeSack_rtx s key a now sack
  have left : ∀ tsn o, (applySack a sack now).assoc.outstandingData.get? tsn = some o →
      ∃ o', a.outstandingData.get? tsn = some o' ∧ o.data = o'.data
      ∧ o.destination = o'.destination := by
    intro tsn o entry
    rw [get?_applySack, Option.bind_eq_some_iff] at entry
    obtain ⟨o', here, left⟩ := entry
    rcases sackEntry_spec a sack tsn o' with ⟨-, gone⟩ | ⟨o'', -, left', data, destination, -⟩
    · rw [gone] at left
      cases left
    · rw [left] at left'
      cases left'
      exact ⟨o', here, data, destination⟩
  refine holds.fewer ?_ step.newData (fun tsn o entry => ?_) (fun tsn o entry => ?_)
    (fun tsn none => ?_)
    fun p member o here waits => ?_
  · rw [rtx]
    exact List.filter_sublist
  · obtain ⟨o', here, data, -⟩ := left tsn o entry
    rw [data]
    exact holds.named tsn o' here
  · obtain ⟨o', here, -, destination⟩ := left tsn o entry
    rw [destination, step.ips]
    exact holds.placed tsn o' here
  · rw [get?_applySack, none]
    rfl
  · rw [rtx, List.mem_filter, Bool.not_eq_true'] at member
    obtain ⟨o', kept, waits'⟩ := sackEntry_waits waits member.2 (spares p member.1 o here)
    refine ⟨o', ?_, waits'⟩
    rw [get?_applySack, here]
    exact kept

theorem Resending.runT3Actions (holds : Resending s key a) (now : Time)
    (actions : List (SockAddr × T3Action)) (found : s.find? key = some a) :
    Resending (actions.foldl (fun s action => s.runT3Action now key action) s) key a :=
  holds.same ⟨(runT3Actions_step now actions found).newData, rtxData_runT3Actions now actions⟩
    rfl fun _ => id

theorem Resending.settleSack (holds : Resending s key a) (now : Time) (sack : SackChunkValue)
    (spares : ∀ p ∈ rtxData s key, ∀ o, a.outstandingData.get? p.2.tsn = some o →
      thirdReport a sack p.2.tsn o = false) :
    ∃ b, (s.settleSack now sack key a).find? key = some b
      ∧ Resending (s.settleSack now sack key a) key b := by
  have acked := holds.acknowledgeSack now sack spares
  have found := (acknowledgeSack_step s key a now sack).found
  unfold Socket.settleSack
  split
  · obtain ⟨b, after, here⟩ := acked.schedulePending found false
    exact ⟨b, (runT3Actions_step now _ after).found, here.runT3Actions now _ after⟩
  · exact ⟨_, (runT3Actions_step now _ found).found, acked.runT3Actions now _ found⟩

theorem Resending.settleShutdown (holds : Resending s key a) (found : s.find? key = some a)
    (now : Time) (cumulativeTsnAck : Tsn) :
    ∃ b, (s.settleShutdown now cumulativeTsnAck key a).find? key = some b
      ∧ Resending (s.settleShutdown now cumulativeTsnAck key a) key b := by
  obtain ⟨b, step, -, -, entries, rtx, -⟩ := acknowledgeByShutdown_spec found cumulativeTsnAck
  have left : ∀ tsn o, b.outstandingData.get? tsn = some o → a.outstandingData.get? tsn
      = some o := by
    intro tsn o entry
    rw [entries] at entry
    split at entry
    · cases entry
    · exact entry
  have acked : Resending (s.acknowledgeByShutdown cumulativeTsnAck key a) key b := by
    refine holds.fewer ?_ step.newData (fun tsn o entry => holds.named tsn o (left tsn o entry))
      (fun tsn o entry => ?_) (fun tsn none => ?_) fun p member o here waits => ⟨o, ?_, waits⟩
    · rw [rtx]
      exact List.filter_sublist
    · rw [step.ips]
      exact holds.placed tsn o (left tsn o entry)
    · rw [entries, none]
      split <;> rfl
    · rw [rtx, List.mem_filter, Bool.not_eq_true'] at member
      rw [entries, member.2]
      exact here
  exact ⟨b, (runT3Actions_step now _ step.found).found, acked.runT3Actions now _ step.found⟩

/-- A SACK or a SHUTDOWN, unless it reports for the third time what is queued. -/
theorem AllResending.handleChunk (all : AllResending s) (now : Time) (draws : Draws)
    (header : CommonHeader) (key : AssociationKey) (src : SockAddr) (chunk : Chunk)
    (spares : ∀ sack, chunk.value = .sack sack → s.sparesQueued key sack = true) :
    AllResending (s.handleChunk now draws header key src chunk) := by
  by_cases acking : chunk.type = .sack ∨ chunk.type = .shutdown
  · unfold Socket.handleChunk
    cases value : chunk.value with
    | sack sack =>
      simp only [Socket.handleSack]
      cases found : s.find? key with
      | none => exact all
      | some a =>
        simp only
        split
        · exact all
        · next sends =>
          split
          · exact all.calm (.abortAssociation s key _ _ _)
          · next sent =>
            split
            · exact all
            · next new =>
              have applies : appliesTo a sack = true := by simp_all [appliesTo]
              have spared : ∀ p ∈ rtxData s key, ∀ o, a.outstandingData.get? p.2.tsn = some o →
                  thirdReport a sack p.2.tsn o = false := by
                intro p member o here
                have still := spares sack value
                rw [Socket.sparesQueued, found, Option.all_some, applies, Bool.not_true,
                  Bool.false_or, List.all_eq_true] at still
                simpa [here] using still p member
              obtain ⟨b, after, here⟩ := (all key a found).settleSack now sack spared
              obtain ⟨b', step, -⟩ := settleSack_step s key a now sack
              rw [acceptSack_eq]
              exact (all.aside step.aside after here).calm (.doNextShutdownStep _ key now)
    | shutdown cumulativeTsnAck =>
      simp only [Socket.handleShutdown]
      cases found : s.find? key with
      | none => exact all
      | some a =>
        simp only
        split
        · exact all
        · split
          · exact all.calm (.answerShutdown found now header src)
          · split
            · exact all.calm (.abortAssociation s key _ _ _)
            · obtain ⟨b, after, here⟩ := (all key a found).settleShutdown found now cumulativeTsnAck
              obtain ⟨b', step, -⟩ := settleShutdown_step now found cumulativeTsnAck
              rw [acceptShutdown_eq]
              exact (all.aside step.aside after here).calm (.doNextShutdownStep _ key now)
    | _ => simp [Chunk.type, value] at acking
  · rw [not_or] at acking
    exact all.calm (.handleChunk s key now draws header src acking.1 acking.2)

end Acknowledge

/-! ## A T3-rtx expiry -/

section T3

variable {s : Socket} {key : AssociationKey} {a : Association}

/-- A chunk bound for another address is not touched. -/
theorem expireEntry_elsewhere {c : Association} {destination target : SockAddr} {i : Nat}
    {o : OutstandingData} (path : findPath a destination = some i) (ips : c.ips = a.ips)
    (placed : o.destination.addr ∈ a.ips) (elsewhere : destination.addr ≠ o.destination.addr) :
    expireEntry c i target o = o := by
  have index : destinationOf c o ≠ i := by
    rw [destinationOf_congr ips placed]
    intro same
    rw [← (destinationOf_spec placed).2, same, (findPath_spec path).2] at elsewhere
    exact elsewhere rfl
  unfold expireEntry
  rw [if_neg (by simp [index])]

/-- What was queued for the address of the timer is taken out, and what is queued for
another stays as it is. -/
theorem Resending.expireT3 (holds : Resending s key a) (ok : PathsOk a)
    (found : s.find? key = some a) {destination : SockAddr} {i : Nat}
    (path : findPath a destination = some i) :
    ∃ b, ((s.expireT3 key a i).removeRetransmissionsOfType key .data (some destination)).find? key
      = some b
      ∧ Resending ((s.expireT3 key a i).removeRetransmissionsOfType key .data (some destination))
        key b := by
  obtain ⟨b, c, target, rewritten, frame, frame', -, -, placed, entries⟩ := expireT3_spec found i
  have rtx := rtxData_removeData (s.expireT3 key a i) key destination
  rw [rewritten.rtx] at rtx
  have newData : newDataFor ((s.expireT3 key a i).removeRetransmissionsOfType key .data
      (some destination)) key
      = newDataFor s key := by
    rw [newDataFor_removeOfType, rewritten.newData]
  refine ⟨b, rewritten.found, holds.fewer ?_ newData (fun tsn o entry => ?_) (fun tsn o entry => ?_)
    (fun tsn none => ?_) fun p member o here waits => ⟨o, ?_, waits⟩⟩
  · rw [rtx]
    exact List.filter_sublist
  · rw [entries, Option.map_eq_some_iff] at entry
    obtain ⟨o', here, rfl⟩ := entry
    have name := holds.named tsn o' here
    unfold expireEntry
    split <;> exact name
  · rw [entries, Option.map_eq_some_iff] at entry
    obtain ⟨o', here, rfl⟩ := entry
    rw [frame.ips]
    unfold expireEntry
    split
    · exact placed ok
    · exact holds.placed tsn o' here
  · rw [entries, none]
    rfl
  · rw [rtx, List.mem_filter] at member
    have elsewhere : destination.addr ≠ o.destination.addr := by
      rw [waits.bound]
      simpa using member.2
    rw [entries, here, Option.map_some,
      expireEntry_elsewhere path frame'.ips (holds.placed p.2.tsn o here) elsewhere]

theorem AllResending.handleT3Expiration (all : AllResending s) (ok : Orderly s everyDue)
    (key : AssociationKey) (destination : SockAddr) :
    AllResending (s.handleT3Expiration key destination) := by
  rcases handleT3Expiration_cases s key destination with calm | ⟨a, d, found, sends, step, -⟩
  · exact all.calm calm.weaken
  · suffices still : ∃ b, (s.handleT3Expiration key destination).find? key = some b
        ∧ Resending (s.handleT3Expiration key destination) key b by
      obtain ⟨b, after, here⟩ := still
      exact all.aside step.aside after here
    have old := all key a found
    have after := step.found
    unfold Socket.handleT3Expiration at after ⊢
    rw [found] at after ⊢
    simp only [sends, Bool.not_true, Bool.false_eq_true, if_false] at after ⊢
    cases path : findPath a destination with
    | none => exact ⟨a, found, old⟩
    | some i =>
      simp only [path] at after ⊢
      split at after
      · next idle =>
        rw [if_pos idle]
        exact ⟨a, found, old⟩
      · next late =>
        rw [if_neg late]
        split at after
        · next lost =>
          have gone : ((s.expireT3 key a i).loseAssociation key).find? key = none :=
            (removeAssociation_gone _ key).1
          rw [gone] at after
          cases after
        · next kept =>
          rw [if_neg kept]
          obtain ⟨b, there, expired⟩ := old.expireT3 ((ok.keys key).assoc a found).paths found path
          exact expired.schedulePending there false

end T3

/-! ## Packets going out -/

/-- None of the TSNs that may be assigned next is outstanding. -/
def Unassigned (a : Association) : Prop :=
  ∀ tsn o, a.outstandingData.get? tsn = some o → 2 ^ 16 ≤ (tsn - a.nextTsn).toNat

instance (a : Association) : Decidable (Unassigned a) :=
  KeyMap.decidableForall a.outstandingData fun tsn _ => 2 ^ 16 ≤ (tsn - a.nextTsn).toNat

section Sent

variable {s s' : Socket} {key : AssociationKey} {a b : Association}

/-- A packet is cut from TSNs that are not outstanding. -/
theorem Resending.cut {chunks : List DataChunkValue} (holds : Resending s key a)
    (unassigned : newDataFor s key = [] → Unassigned a) (ok : PathsOk a)
    (step : CutStep key chunks s s' a b) :
    Resending s' key b := by
  have outstanding : b.outstandingData = a.outstandingData := by rw [step.only]
  rcases step.newData with ⟨-, same⟩ | ⟨-, empty, q, queue, carries, -⟩
  · exact holds.same ⟨same, step.rtx⟩ outstanding fun ip member => step.only.ips.symm ▸ member
  · refine ⟨?_, ?_, ?_, ?_, ?_, fun data inside => ?_⟩
    · rw [outstanding]
      exact holds.named
    · rw [outstanding, step.only.ips]
      exact holds.placed
    · rw [step.rtx]
      exact holds.once
    · rw [step.rtx, outstanding]
      exact holds.waits
    · rw [queue]
      exact Nat.le_refl 1
    · rw [queuedData, queue, List.flatMap_singleton, carries] at inside
      obtain ⟨i, bound, same⟩ := step.tsn inside
      rw [outstanding]
      cases here : a.outstandingData.get? data.tsn with
      | none => rfl
      | some o =>
        have far := unassigned empty data.tsn o here
        have few := step.length_le ok
        have near : (data.tsn - a.nextTsn).toNat = i := by
          rw [same, ahead, BitVec.add_comm, BitVec.add_sub_cancel, BitVec.toNat_ofNat]
          omega
        omega

/-- What a packet that goes out leaves queued is not what it carries. -/
theorem Resending.carried {p : Pending} {sentAt : Time}
    (holds : Resending s p.deliverable.location a) (picked : DataPicked s p)
    (step : SentStep p sentAt s s' a) {x : BitVec 32 × DataChunkValue}
    (left : x ∈ rtxData s' p.deliverable.location) :
    ∀ data ∈ p.deliverable.packet.dataChunks, data.tsn ≠ x.2.tsn := by
  intro data inside same
  rcases picked.queued with ⟨priority, -⟩ | ⟨q, priority, member, as⟩
  · have once := holds.once
    rw [step.rtx, if_pos priority, List.map_append, List.nodup_append] at once
    refine once.2.2 data.tsn ?_ x.2.tsn (List.mem_map_of_mem left) same
    rw [List.map_map]
    exact List.mem_map_of_mem (f := DataChunkValue.tsn) inside
  · have queued : data ∈ queuedData s p.deliverable.location := by
      rw [as.dataChunks] at inside
      exact List.mem_flatMap.mpr ⟨q, member, inside⟩
    have before : x ∈ rtxData s p.deliverable.location := by
      rw [step.rtx]
      exact List.mem_append_right _ left
    obtain ⟨o, here, -⟩ := holds.waits x before
    rw [← same, holds.apart data queued] at here
    cases here

/-- New DATA that is still queued is not what goes out. -/
theorem Resending.stillQueued {p : Pending} {sentAt : Time}
    (holds : Resending s p.deliverable.location a) (picked : DataPicked s p)
    (step : SentStep p sentAt s s' a) {data : DataChunkValue}
    (left : data ∈ queuedData s' p.deliverable.location) :
    data ∈ queuedData s p.deliverable.location
      ∧ ∀ out ∈ p.deliverable.packet.dataChunks, out.tsn ≠ data.tsn := by
  rcases picked.queued with ⟨priority, -⟩ | ⟨q, priority, member, as⟩
  · have newData : newDataFor s' p.deliverable.location = newDataFor s p.deliverable.location := by
      rw [step.newData, if_neg (by simp [priority])]
    rw [queuedData_congr newData] at left
    refine ⟨left, fun out inside same => ?_⟩
    have queued : (p.deliverable.destination.addr, out) ∈ rtxData s p.deliverable.location := by
      rw [step.rtx, if_pos priority]
      exact List.mem_append_left _ (List.mem_map_of_mem inside)
    obtain ⟨o, here, -⟩ := holds.waits _ queued
    rw [same, holds.apart data left] at here
    cases here
  · have queue := eq_singleton_of_mem holds.single member
    rw [queuedData, step.newData, if_pos priority, queue] at left
    simp [as.id] at left

theorem Resending.sent {p : Pending} {sentAt : Time} (holds : Resending s p.deliverable.location a)
    (picked : DataPicked s p) (placed : transmitsData a.state = true →
      p.deliverable.destination.addr ∈ a.ips)
    (step : SentStep p sentAt s s' a) :
      Resending s' p.deliverable.location (afterSent a p sentAt) := by
  have once : ((rtxData s' p.deliverable.location).map fun p => p.2.tsn).Nodup := by
    have once := holds.once
    rw [step.rtx, List.map_append, List.nodup_append] at once
    exact once.2.1
  have single : (newDataFor s' p.deliverable.location).length ≤ 1 := by
    rw [step.newData]
    split
    · exact Nat.le_trans (List.length_filter_le _ _) holds.single
    · exact holds.single
  have before : ∀ x ∈ rtxData s' p.deliverable.location, x ∈ rtxData s p.deliverable.location := by
    intro x left
    rw [step.rtx]
    exact List.mem_append_right _ left
  cases transmits : transmitsData a.state with
  | false =>
    have outstanding : (afterSent a p sentAt).outstandingData = a.outstandingData := by
      rw [afterSent_silent p sentAt transmits]
    have ips : (afterSent a p sentAt).ips = a.ips := by
      rw [afterSent_silent p sentAt transmits]
      rfl
    refine ⟨?_, ?_, once, fun x left => ?_, single, fun data left => ?_⟩
    · rw [outstanding]
      exact holds.named
    · rw [outstanding, ips]
      exact holds.placed
    · rw [outstanding]
      exact holds.waits x (before x left)
    · rw [outstanding]
      exact holds.apart data (holds.stillQueued picked step left).1
  | true =>
    have recorded := afterSent_recorded sentAt transmits (placed transmits)
    refine ⟨recorded.named holds.named, fun tsn o entry => ?_, once, fun x left => ?_, single,
      fun data left => ?_⟩
    · rw [recorded.ips]
      rcases recorded.entries tsn o entry with ⟨older, -⟩ | ⟨-, -, address⟩
      · exact holds.placed tsn o older
      · rw [address]
        exact placed transmits
    · rw [recorded.others (holds.carried picked step left)]
      exact holds.waits x (before x left)
    · obtain ⟨queued, apart⟩ := holds.stillQueued picked step left
      rw [recorded.others apart]
      exact holds.apart data queued

end Sent

/-! ## Every run -/

/-- No packet that comes in reports for the third time a chunk whose retransmission is
queued when the SACK is handled. -/
def System.sparesQueued (σ : System) : Event → Bool
  | .recv now draws packet src =>
    (σ.socket.turns now draws packet src).all fun turn => turn.chunks.all fun chunk =>
      match chunk.value with
      | .sack sack => turn.before.sparesQueued turn.key sack
      | _ => true
  | _ => true

/-- No association that sends is about to assign a TSN that is outstanding. -/
def AllUnassigned (σ : System) : Prop := Sends (fun _ _ a => Unassigned a) σ.socket

instance (σ : System) : Decidable (AllUnassigned σ) :=
  KeyMap.decidableForall σ.socket.associations fun _ a => transmitsData a.state = true →
    Unassigned a

section Run

variable {s : Socket}

theorem AllResending.handlePacket (all : AllResending s) (ok : Orderly s noneDue) (now : Time)
    (draws : Nat → Draws) (packet : Packet) (src : SockAddr)
    (spares : ∀ turn ∈ s.turns now draws packet src, ∀ chunk ∈ turn.chunks, ∀ sack, chunk.value
      = .sack sack → turn.before.sparesQueued turn.key sack = true) :
        AllResending (s.handlePacket now draws packet src) := by
  refine (chained_turns s).keeps AllResending (fun turn member before => ?_) all
  rcases plain_turns ok.empty member with calm | ⟨draws₁, header, chunk, acts, after⟩
  · exact before.calm calm
  · rw [after]
    refine before.handleChunk now draws₁ header turn.key src chunk fun sack value => ?_
    refine spares turn member chunk ?_ sack value
    rw [acts, if_pos (by simp [dispatched, value])]
    exact List.mem_singleton_self chunk

theorem AllResending.runExpire (all : AllResending s) (ok : Orderly s noneDue) (now : Time)
    (draws : Nat → Draws) :
    AllResending (s.runExpire now draws) := by
  refine (runExpire_keeps (fun s => AllResending s ∧ Orderly s everyDue) now draws
    (fun s s' (calm : Calm True s s') holds => ⟨holds.1.calm calm.weaken, holds.2.calm calm.weaken⟩)
    (fun s key destination holds => ⟨holds.1.handleT3Expiration holds.2 key destination,
      holds.2.handleT3Expiration key destination⟩) ok.queues.retries ⟨?_,
      ok.everyDue.drained now⟩).1
  exact fun key a found => (all key a found).same ⟨rfl, rfl⟩ rfl fun _ => id

/-- While new DATA may still be cut, the TSNs to come are free. -/
theorem unassigned_senderProp : SenderProp fun s key a => newDataFor s key = [] → Unassigned a where
  fresh := fun new _ _ tsn o entry => by simp [new.outstandingData] at entry
  same := by
    intro s s' key a b core queued _ holds none
    rw [queued.1] at none
    unfold Unassigned
    rw [core.nextTsn, core.outstandingData]
    exact holds none

theorem AllResending.nextPacket (all : AllResending s) (ok : Orderly s noneDue)
    (unassigned : Sends (fun _ _ a => Unassigned a) s) (now : Time) :
    AllResending (s.nextPacket now).socket := by
  refine (nextPacket_keeps (fun s _ => AllResending s
    ∧ Sends (fun s key a => newDataFor s key = [] → Unassigned a) s
      ∧ Orderly s everyDue) now ⟨all, fun key a found sends _ => unassigned key a found sends,
        ok.everyDue⟩ ?_ ?_ ?_).1
  · rintro s s' - ⟨all, free, ok⟩ calm
    exact ⟨all.calm calm.weaken, unassigned_senderProp.calm ok calm.weaken free,
      ok.calm calm.weaken⟩
  · rintro s key ⟨all, free, ok⟩
    refine ⟨all.schedulePending key true, ?_, ok.schedulePending key true⟩
    cases found : s.find? key with
    | none =>
      unfold Socket.schedulePendingRetransmission
      simpa only [found] using free
    | some a =>
      obtain ⟨b, step, state, -⟩ := schedulePendingRetransmission_step found true
      refine unassigned_senderProp.aside ok step.aside step.found (fun sends none tsn o entry => ?_)
        free
      rw [step.newData] at none
      have outstanding := mem_keys_of_sentData.mp
        (step.keys.subset (KeyMap.mem_keys.mpr (by rw [entry]; rfl)))
      obtain ⟨o', before⟩ := sentData_ne_none.mp outstanding
      rw [step.nextTsn]
      exact free key a found (state ▸ sends) none tsn o' before
  · rintro s - s' key a b chunks ⟨all, free, ok⟩ found sends step
    have paths := ((ok.keys key).assoc a found).paths
    refine ⟨all.aside step.aside step.found ((all key a found).cut (free key a found sends)
      paths step), unassigned_senderProp.aside ok step.aside step.found (fun _ none => ?_) free,
      ok.cut found sends step⟩
    rcases step.newData with ⟨rfl, same⟩ | ⟨-, -, q, queue, -⟩
    · rw [same] at none
      have outstanding : b.outstandingData = a.outstandingData := by rw [step.only]
      unfold Unassigned
      rw [step.nextTsn, List.length_nil, ahead_zero, outstanding]
      exact free key a found sends none
    · rw [queue] at none
      cases none

theorem AllResending.sendOne {σ : System} (all : AllResending σ.socket)
    (ok : Orderly σ.socket noneDue) (unassigned : AllUnassigned σ) (now : Time) (accepted : Bool)
    (left : Nat) :
    AllResending (σ.sendOne now accepted left).socket := by
  have next := all.nextPacket ok unassigned now
  obtain ⟨refilled, after⟩ := ok.nextPacket now
  unfold System.sendOne
  simp only
  cases pending : (σ.socket.nextPacket now).pending with
  | none => exact next
  | some p =>
    simp only
    split
    · rcases packetSent_cases after.queues (picked_nextPacket refilled.queues pending) now
        with ⟨-, calm⟩ | picked
      · exact next.calm calm.weaken
      · cases found : (σ.socket.nextPacket now).socket.find? p.deliverable.location with
        | none => exact absurd (after.empty _ found) picked.not_nothing
        | some a =>
          have step := packetSent_step now picked.committed picked.carries found
          refine next.aside step.aside step.found
            ((next _ a found).sent picked (fun sends => ?_) step)
          exact picked.placed (((after.keys _).assoc a found).covered sends)
    · exact next.calm (.packetRefused _ now p)

/-- While no SACK reports for the third time a chunk that is queued, and TSNs are not
assigned again while they are outstanding, no chunk is scheduled twice. -/
theorem resending_reached {σ : System}
    (reached : System.Reached (fun σ event => σ.sparesQueued event = true ∧ AllUnassigned σ) σ) :
    AllResending σ.socket := by
  induction reached with
  | start initial =>
    obtain ⟨address, rfl⟩ := initial
    intro key a found
    cases found
  | @next σ σ' event reached allowed stepped all =>
    obtain ⟨spares, unassigned⟩ := allowed
    have ok := orderly_reached reached
    rcases System.step_cases stepped with ⟨now, draws, packet, src, rfl, -, rfl⟩ | ⟨now, draws,
      -, -, rfl⟩ | ⟨-, -, rfl⟩
      | ⟨now, accepted, left, -, -, rfl⟩ | ⟨s, called, rfl⟩
    · refine all.handlePacket ok now draws packet src fun turn member chunk inside sack value => ?_
      rw [System.sparesQueued, List.all_eq_true] at spares
      have here := List.all_eq_true.mp (spares turn member) chunk inside
      rw [value] at here
      exact here
    · exact all.runExpire ok now draws
    · exact all.mapVals (fun _ _ => rfl) fun _ _ => rfl
    · exact all.sendOne ok unassigned now accepted left
    · exact all.calm (Calm.call called ok.empty)

end Run

/-- While no SACK reports missing for the third time a chunk whose retransmission is still
queued, and no TSN is about to be assigned that is still outstanding: in every reachable
state each TSN of an association occurs in at most one DATA chunk of the retransmission
queue, and an outstanding chunk that occurs there is not marked for retransmission. -/
theorem scheduled_once {σ : System}
    (reached : System.Reached (fun σ event => σ.sparesQueued event = true ∧ AllUnassigned σ) σ)
    {key : AssociationKey} {a : Association} (found : σ.socket.find? key = some a) :
    OnceScheduled σ.socket key a :=
  (resending_reached reached key a found).onceScheduled

namespace Opened

/-- A second after five chunks went out their timer goes off, and the UDP socket refuses
the packet that retransmits them. -/
def timesOut : List Event :=
  List.replicate 5 (.sendData key [42#8] 0#16 false) ++ batch 1
    ++ [.expire 1000000000 fun _ => draws, .startSending, .send 1000000000 false]

/-- SACKs that lack the first of the chunks, each reporting one more of the others. -/
def lacking (reports : List (BitVec 16)) : List Event :=
  reports.map fun n => .recv 1000000000 (fun _ => draws) ⟨⟨5000#16, 5000#16, 1#32⟩,
    [⟨0#8, .sack (lacksFirst n)⟩]⟩ peer

end Opened

/-- Two SACKs report TSN 10 missing, and it is queued once. -/
theorem second_report_scheduled_once : ∃ σ a,
    System.Reached (fun σ event => σ.sparesQueued event = true ∧ AllUnassigned σ) σ
    ∧ σ.socket.find? Opened.key = some a
    ∧ 10#32 ∈ (rtxData σ.socket Opened.key).map (fun p => p.2.tsn)
    ∧ OnceScheduled σ.socket Opened.key a := by
  obtain ⟨σ, reached, ends⟩ := Opened.exists_reached_while
    (fun σ event => σ.sparesQueued event = true ∧ AllUnassigned σ)
    (Opened.timesOut ++ Opened.lacking [2#16, 3#16])
    (p := fun σ => (σ.socket.find? Opened.key).isSome
      && decide (10#32 ∈ (rtxData σ.socket Opened.key).map fun p => p.2.tsn)) (by decide +kernel)
  obtain ⟨some, queued⟩ := Bool.and_eq_true_iff.mp ends
  obtain ⟨a, found⟩ := Option.isSome_iff_exists.mp some
  exact ⟨σ, a, reached, found, of_decide_eq_true queued, scheduled_once reached found⟩

/-- The third SACK marks TSN 10 for Fast Retransmit while its retransmission is queued, and
it is queued again. -/
theorem queued_twice : ∃ σ a, System.Reached (fun σ _ => AllUnassigned σ) σ
    ∧ σ.socket.find? Opened.key = some a ∧ transmitsData a.state = true
    ∧ (rtxData σ.socket Opened.key).map (fun p => p.2.tsn) = [10#32, 14#32, 10#32]
    ∧ ¬OnceScheduled σ.socket Opened.key a := by
  obtain ⟨σ, reached, ends⟩ := Opened.exists_reached_while (fun σ _ => AllUnassigned σ)
    (Opened.timesOut ++ Opened.lacking [2#16, 3#16, 4#16])
    (p := fun σ => ((σ.socket.find? Opened.key).any fun a => transmitsData a.state)
      && decide ((rtxData σ.socket Opened.key).map (fun p => p.2.tsn) = [10#32, 14#32, 10#32]))
      (by decide +kernel)
  obtain ⟨some, queued⟩ := Bool.and_eq_true_iff.mp ends
  obtain ⟨a, found, transmits⟩ := (Option.any_eq_true _ _).mp some
  have twice : (rtxData σ.socket Opened.key).map (fun p => p.2.tsn) = [10#32, 14#32, 10#32] :=
    of_decide_eq_true queued
  refine ⟨σ, a, reached, found, transmits, twice, fun once => ?_⟩
  have nodup := once.1
  rw [twice] at nodup
  exact absurd nodup (by decide)

end SctpStack
