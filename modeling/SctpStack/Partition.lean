import SctpStack.Kept

/-!
# No unacknowledged data is lost

Between the Cumulative TSN Ack Point and the next TSN every TSN is outstanding or in the
packet of new DATA that is queued, never both, and is there with what it was cut with
(`Partitioned`). This needs the window to stay narrower than half the TSN space; only
cutting a packet could break it otherwise.
-/

namespace SctpStack

open Serial

/-! ## The invariant -/

/-- The chunks of new DATA queued for a key. -/
def queuedData (s : Socket) (key : AssociationKey) : List DataChunkValue :=
  (newDataFor s key).flatMap fun queued => queued.deliverable.packet.dataChunks

/-- The next TSN is less than half the TSN space past the Cumulative TSN Ack Point, and
past all that is outstanding. -/
structure Windowed (a : Association) : Prop where
  acked : (a.nextTsn - a.cumulativeTsnAck).toNat < 2 ^ 31
  outstanding : ∀ tsn o, a.outstandingData.get? tsn = some o → (a.nextTsn - tsn).toNat < 2 ^ 31

/-- Every association that sends has a window narrower than half the TSN space. -/
def AllWindowed (σ : System) : Prop := Sends (fun _ _ a => Windowed a) σ.socket

instance (a : Association) : Decidable (Windowed a) :=
  -- Over the entries, and not over every TSN there is.
  have := KeyMap.decidableForall a.outstandingData fun tsn _ => (a.nextTsn - tsn).toNat < 2 ^ 31
  decidable_of_iff ((a.nextTsn - a.cumulativeTsnAck).toNat < 2 ^ 31
      ∧ ∀ tsn o, a.outstandingData.get? tsn = some o → (a.nextTsn - tsn).toNat < 2 ^ 31)
    ⟨fun both => ⟨both.1, both.2⟩, fun windowed => ⟨windowed.acked, windowed.outstanding⟩⟩

instance (σ : System) : Decidable (AllWindowed σ) :=
  KeyMap.decidableForall σ.socket.associations fun _ a => transmitsData a.state = true → Windowed a

/-- What was sent, what is queued and what was cut agree, and leave no TSN out. -/
structure Partitioned (cutAs : Tsn → Option DataChunkValue) (s : Socket) (key : AssociationKey)
    (a : Association) :
    Prop where
  single : (newDataFor s key).length ≤ 1
  distinct : ((queuedData s key).map DataChunkValue.tsn).Nodup
  queuedAs : ∀ data ∈ queuedData s key, cutAs data.tsn = some data
  sentAs : ∀ tsn data, sentData a tsn = some data → data.tsn = tsn ∧ cutAs tsn = some data
  resent : ∀ p ∈ rtxData s key, sentData a p.2.tsn = some p.2
  queuedBefore : ∀ data ∈ queuedData s key, data.tsn ≠ a.nextTsn
  sentBefore : sentData a a.nextTsn = none
  apart : ∀ data ∈ queuedData s key, sentData a data.tsn = none
  whole : ∀ tsn, 0 < (tsn - a.cumulativeTsnAck).toNat →
    (tsn - a.cumulativeTsnAck).toNat < (a.nextTsn - a.cumulativeTsnAck).toNat →
    sentData a tsn ≠ none ∨ ∃ data ∈ queuedData s key, data.tsn = tsn

theorem sentData_ne_none {a : Association} {tsn : Tsn} :
    sentData a tsn ≠ none ↔ ∃ o, a.outstandingData.get? tsn = some o := by
  unfold sentData
  cases a.outstandingData.get? tsn <;> simp

theorem queuedData_congr {s s' : Socket} {key : AssociationKey}
    (same : newDataFor s' key = newDataFor s key) :
    queuedData s' key = queuedData s key := by
  unfold queuedData
  rw [same]

theorem sentData_congr {a b : Association} (same : b.outstandingData = a.outstandingData)
    (tsn : Tsn) :
    sentData b tsn = sentData a tsn := by
  unfold sentData
  rw [same]

/-! ## Calm steps -/

theorem Partitioned.fresh {cutAs : Tsn → Option DataChunkValue} {s : Socket} {key : AssociationKey}
    {a : Association} (new : FreshAssoc False a) (empty : NothingQueued s key) :
    Partitioned cutAs s key a := by
  have none : ∀ tsn, sentData a tsn = none := by
    intro tsn
    rw [sentData, new.outstandingData]
    rfl
  have nothing : queuedData s key = [] := by
    rw [queuedData, empty.1]
    rfl
  refine ⟨by simp [empty.1], by simp [nothing], by simp [nothing], ?_, by simp [empty.2], by
    simp [nothing], none _, by simp [nothing], fun tsn after before => ?_⟩
  · intro tsn data sent
    rw [none] at sent
    cases sent
  -- Nothing lies between the point and the TSN right after it.
  · rw [new.cumulativeTsnAck] at after before
    have one : (a.nextTsn - (a.nextTsn - 1#32)).toNat = 1 := by bv_omega
    omega

/-- Nothing of this changed, but that fewer chunks may wait to be sent again. -/
theorem Partitioned.same {cutAs : Tsn → Option DataChunkValue} {s s' : Socket}
    {key : AssociationKey} {a b : Association} (holds : Partitioned cutAs s key a)
    (nextTsn : b.nextTsn = a.nextTsn) (cumulative : b.cumulativeTsnAck = a.cumulativeTsnAck)
    (sent : ∀ tsn, sentData b tsn = sentData a tsn) (newData : newDataFor s' key = newDataFor s key)
    (rtx : ∀ p ∈ rtxData s' key, p ∈ rtxData s key) :
    Partitioned cutAs s' key b := by
  have data := queuedData_congr newData
  refine ⟨?_, ?_, ?_, ?_, ?_, ?_, ?_, ?_, ?_⟩
  · rw [newData]
    exact holds.single
  · rw [data]
    exact holds.distinct
  · rw [data]
    exact holds.queuedAs
  · simp only [sent]
    exact holds.sentAs
  · simp only [sent]
    exact fun p member => holds.resent p (rtx p member)
  · rw [data, nextTsn]
    exact holds.queuedBefore
  · rw [sent, nextTsn]
    exact holds.sentBefore
  · simp only [data, sent]
    exact holds.apart
  · simp only [data, sent, nextTsn, cumulative]
    exact holds.whole

theorem Partitioned.calm {cutAs : Tsn → Option DataChunkValue} {s s' : Socket}
    {key : AssociationKey} {a b : Association} (core : SameCore False a b)
    (queued : SameQueued s s' key) (holds : Partitioned cutAs s key a) :
    Partitioned cutAs s' key b :=
  holds.same core.nextTsn core.cumulativeTsnAck (sentData_congr core.outstandingData) queued.1
    fun _ member => queued.2 ▸ member

theorem Windowed.fresh {a : Association} (new : FreshAssoc False a) : Windowed a := by
  refine ⟨?_, by simp [new.outstandingData]⟩
  rw [new.cumulativeTsnAck]
  have one : (a.nextTsn - (a.nextTsn - 1#32)).toNat = 1 := by bv_omega
  omega

theorem Windowed.same {a b : Association} (windowed : Windowed a) (nextTsn : b.nextTsn = a.nextTsn)
    (cumulative : b.cumulativeTsnAck = a.cumulativeTsnAck)
    (outstanding : b.outstandingData = a.outstandingData) :
    Windowed b := by
  refine ⟨?_, ?_⟩
  · rw [nextTsn, cumulative]
    exact windowed.acked
  · rw [nextTsn, outstanding]
    exact windowed.outstanding

/-! ## Acknowledgements and retransmissions -/

/-- A step on the sender that drops nothing between the point and the next TSN. -/
theorem Partitioned.sender {cutAs : Tsn → Option DataChunkValue} {gone : Tsn → Bool} {s s' : Socket}
    {key : AssociationKey} {a b : Association} (holds : Partitioned cutAs s key a)
    (step : SenderStep key gone s s' a b)
    (left : ∀ tsn, 0 < (tsn - b.cumulativeTsnAck).toNat →
      (tsn - b.cumulativeTsnAck).toNat < (a.nextTsn - b.cumulativeTsnAck).toNat →
      gone tsn = false ∧ 0 < (tsn - a.cumulativeTsnAck).toNat
        ∧ (tsn - a.cumulativeTsnAck).toNat < (a.nextTsn - a.cumulativeTsnAck).toNat) :
    Partitioned cutAs s' key b := by
  have data := queuedData_congr step.newData
  have fewer : ∀ tsn data, sentData b tsn = some data → sentData a tsn = some data := by
    intro tsn data sent
    rw [step.sent] at sent
    split at sent
    · cases sent
    · exact sent
  have none : ∀ tsn, sentData a tsn = none → sentData b tsn = none := by
    intro tsn absent
    rw [step.sent, absent, ite_self]
  refine ⟨?_, ?_, ?_, fun tsn data sent => holds.sentAs tsn data (fewer tsn data sent),
    fun p member => ?_, ?_, ?_, ?_, fun tsn after before => ?_⟩
  · rw [step.newData]
    exact holds.single
  · rw [data]
    exact holds.distinct
  · rw [data]
    exact holds.queuedAs
  · rcases step.rtx p member with ⟨old, kept⟩ | ⟨tsn, here⟩
    · rw [step.sent, kept]
      exact holds.resent p old
    · rw [(holds.sentAs tsn p.2 (fewer tsn p.2 here)).1]
      exact here
  · rw [data, step.nextTsn]
    exact holds.queuedBefore
  · rw [step.nextTsn]
    exact none _ holds.sentBefore
  · rw [data]
    exact fun data member => none _ (holds.apart data member)
  · rw [step.nextTsn] at before
    obtain ⟨kept, after', before'⟩ := left tsn after before
    rw [data, step.sent, kept]
    exact holds.whole tsn after' before'

theorem Partitioned.resend {cutAs : Tsn → Option DataChunkValue} {s s' : Socket}
    {key : AssociationKey} {a b : Association} (holds : Partitioned cutAs s key a)
    (step : ResendStep key s s' a b) :
    Partitioned cutAs s' key b := by
  refine holds.sender step.step fun tsn after before => ⟨rfl, ?_⟩
  rw [step.cumulativeTsnAck] at after before
  exact ⟨after, before⟩

/-- What lies past an accepted acknowledgement lay past the point before it, and is not
dropped. -/
theorem past_ack {next cumulative acked tsn : Tsn} (new : tsnLt acked cumulative = false)
    (assigned : tsnLt acked next = true) (after : 0 < (tsn - acked).toNat)
    (before : (tsn - acked).toNat < (next - acked).toNat) :
    tsnLte tsn acked = false ∧ 0 < (tsn - cumulative).toNat
      ∧ (tsn - cumulative).toNat < (next - cumulative).toNat := by
  have window := tsnLt_iff.mp assigned
  have moved : ¬(0 < (cumulative - acked).toNat ∧ (cumulative - acked).toNat < 2 ^ 31) := by
    rw [← tsnLt_iff, new]
    simp
  refine ⟨?_, ?_, ?_⟩
  · rw [Bool.eq_false_iff]
    intro below
    rcases Bool.or_eq_true_iff.mp below with same | earlier
    · rw [beq_iff_eq] at same
      rw [same, BitVec.sub_self] at after
      simp at after
    · have distance := tsnLt_iff.mp earlier
      bv_omega
  · bv_omega
  · bv_omega

theorem Partitioned.acked {cutAs : Tsn → Option DataChunkValue} {s s' : Socket}
    {key : AssociationKey} {chunk : Chunk} {a b : Association} (holds : Partitioned cutAs s key a)
    (step : AckStep key chunk s s' a b) :
    Partitioned cutAs s' key b := by
  rcases step.moved with ⟨kept, same⟩ | ⟨dropped, new, assigned, -⟩
  · refine holds.sender kept fun tsn after before => ⟨rfl, ?_⟩
    rw [same] at after before
    exact ⟨after, before⟩
  · exact holds.sender dropped fun tsn after before => past_ack new assigned after before

theorem Windowed.sender {gone : Tsn → Bool} {s s' : Socket} {key : AssociationKey}
    {a b : Association} (windowed : Windowed a) (step : SenderStep key gone s s' a b)
    (acked : (a.nextTsn - b.cumulativeTsnAck).toNat < 2 ^ 31) : Windowed b := by
  refine ⟨?_, fun tsn o entry => ?_⟩
  · rw [step.nextTsn]
    exact acked
  · have sent : sentData b tsn ≠ none := sentData_ne_none.mpr ⟨o, entry⟩
    rw [step.sent] at sent
    split at sent
    · exact absurd rfl sent
    · obtain ⟨o', before⟩ := sentData_ne_none.mp sent
      rw [step.nextTsn]
      exact windowed.outstanding tsn o' before

theorem Windowed.afterAck {s s' : Socket} {key : AssociationKey} {chunk : Chunk} {a b : Association}
    (windowed : Windowed a) (step : AckStep key chunk s s' a b) : Windowed b := by
  rcases step.moved with ⟨kept, same⟩ | ⟨dropped, -, assigned, -⟩
  · refine windowed.sender kept ?_
    rw [same]
    exact windowed.acked
  · exact windowed.sender dropped (tsnLt_iff.mp assigned).2

/-! ## Cutting -/

/-- What is remembered of the chunks cut for one key. -/
theorem recordCut_spec (key : AssociationKey) (chunks : List DataChunkValue)
    (cutAs : AssociationKey → Tsn → Option DataChunkValue)
    (distinct : (chunks.map DataChunkValue.tsn).Nodup) :
    (∀ data ∈ chunks, (chunks.map (Prod.mk key)).foldl System.recordCut cutAs key data.tsn
      = some data)
      ∧ (∀ tsn, (∀ data ∈ chunks, data.tsn ≠ tsn) →
          (chunks.map (Prod.mk key)).foldl System.recordCut cutAs key tsn = cutAs key tsn)
      ∧ ∀ k, k ≠ key → (chunks.map (Prod.mk key)).foldl System.recordCut cutAs k = cutAs k := by
  induction chunks generalizing cutAs with
  | nil => exact ⟨by simp, fun _ _ => rfl, fun _ _ => rfl⟩
  | cons data rest ih =>
    rw [List.map_cons, List.nodup_cons] at distinct
    obtain ⟨inside, outside, others⟩ := ih (System.recordCut cutAs (key, data)) distinct.2
    have first : System.recordCut cutAs (key, data) key data.tsn = some data := by
      simp [System.recordCut]
    refine ⟨fun d member => ?_, fun tsn absent => ?_, fun k other => ?_⟩
    · rcases List.mem_cons.mp member with rfl | later
      · refine (outside d.tsn fun d' member' same => ?_).trans first
        exact distinct.1 (same ▸ List.mem_map_of_mem member')
      · exact inside d later
    · refine (outside tsn fun d member => absent d (List.mem_cons_of_mem _ member)).trans ?_
      simp [System.recordCut, Ne.symm (absent data List.mem_cons_self)]
    · refine (others k other).trans ?_
      funext tsn
      simp [System.recordCut, other]

/-- The TSNs of a packet being cut. -/
theorem CutStep.tsn {key : AssociationKey} {chunks : List DataChunkValue} {s s' : Socket}
    {a b : Association} (step : CutStep key chunks s s' a b) {data : DataChunkValue}
    (member : data ∈ chunks) :
    ∃ i < chunks.length, data.tsn = ahead a.nextTsn i := by
  have inside := List.mem_map_of_mem (f := DataChunkValue.tsn) member
  rw [step.tsns] at inside
  obtain ⟨i, bound, same⟩ := List.mem_map.mp inside
  exact ⟨i, List.mem_range.mp bound, same.symm⟩

theorem CutStep.length_le {key : AssociationKey} {chunks : List DataChunkValue} {s s' : Socket}
    {a b : Association} (step : CutStep key chunks s s' a b) (ok : PathsOk a) :
    chunks.length ≤ 1201 := by
  have few := step.few
  rw [ok.pmdcs] at few
  exact few

theorem CutStep.tsns_nodup {key : AssociationKey} {chunks : List DataChunkValue} {s s' : Socket}
    {a b : Association} (step : CutStep key chunks s s' a b) (ok : PathsOk a) :
    (chunks.map DataChunkValue.tsn).Nodup := by
  have few := step.length_le ok
  rw [step.tsns, List.nodup_map_iff_inj_on List.nodup_range]
  intro i hi j hj same
  rw [List.mem_range] at hi hj
  exact ahead_inj a.nextTsn (by omega) (by omega) same

/-- A TSN less than half the space behind the next one is none of those about to be
assigned. -/
theorem ahead_ne {next tsn : Tsn} {i : Nat} (bound : i ≤ 2 ^ 16) (ne : tsn ≠ next)
    (near : (next - tsn).toNat < 2 ^ 31) : tsn ≠ ahead next i := by
  intro same
  have small : (BitVec.ofNat 32 i).toNat = i := by
    rw [BitVec.toNat_ofNat, Nat.mod_eq_of_lt (by omega)]
  unfold ahead at same
  have ne' : (next - tsn).toNat ≠ 0 := fun zero => ne (by bv_omega)
  bv_omega

theorem Partitioned.cut {cutAs : AssociationKey → Tsn → Option DataChunkValue} {s s' : Socket}
    {key : AssociationKey} {chunks : List DataChunkValue} {a b : Association}
    (holds : Partitioned (cutAs key) s key a) (windowed : newDataFor s key = [] → Windowed a)
    (ok : PathsOk a) (step : CutStep key chunks s s' a b) :
    Partitioned ((chunks.map (Prod.mk key)).foldl System.recordCut cutAs key) s' key b := by
  have outstanding : b.outstandingData = a.outstandingData := by rw [step.only]
  have cumulative : b.cumulativeTsnAck = a.cumulativeTsnAck := by rw [step.only]
  have sent := sentData_congr outstanding
  have few := step.length_le ok
  rcases step.newData with ⟨rfl, same⟩ | ⟨some, empty, q, queue, carried, -⟩
  -- Nothing was cut.
  · have nextTsn : b.nextTsn = a.nextTsn := by rw [step.nextTsn]; exact ahead_zero _
    exact holds.same nextTsn cumulative sent same fun _ member => step.rtx ▸ member
  · have window := windowed empty
    have distinct := step.tsns_nodup ok
    obtain ⟨cutHere, cutBefore, -⟩ := recordCut_spec key chunks cutAs distinct
    have data : queuedData s' key = chunks := by
      rw [queuedData, queue, List.flatMap_singleton, carried]
    have old : queuedData s key = [] := by
      rw [queuedData, empty]
      rfl
    -- What is outstanding is none of the TSNs being assigned.
    have other : ∀ tsn, sentData a tsn ≠ none → ∀ i ≤ chunks.length, tsn ≠ ahead a.nextTsn i := by
      intro tsn here i bound
      obtain ⟨o, entry⟩ := sentData_ne_none.mp here
      refine ahead_ne (by omega) (fun same => here ?_) (window.outstanding tsn o entry)
      rw [same]
      exact holds.sentBefore
    have unsent : ∀ data ∈ chunks, sentData a data.tsn = none := by
      intro data member
      obtain ⟨i, bound, tsn⟩ := step.tsn member
      by_contra here
      exact other data.tsn here i (Nat.le_of_lt bound) tsn
    refine ⟨?_, ?_, ?_, fun tsn data here => ?_, ?_, ?_, ?_, ?_, fun tsn after before => ?_⟩
    · rw [queue]
      exact Nat.le_refl 1
    · rw [data]
      exact distinct
    · rw [data]
      exact cutHere
    · rw [sent] at here
      obtain ⟨name, cut⟩ := holds.sentAs tsn data here
      refine ⟨name, (cutBefore tsn fun d member same => ?_).trans cut⟩
      rw [← same, unsent d member] at here
      cases here
    · simp only [step.rtx, sent]
      exact holds.resent
    · rw [data, step.nextTsn]
      intro d member same
      obtain ⟨i, bound, tsn⟩ := step.tsn member
      exact absurd (ahead_inj a.nextTsn (by omega) (by omega) (tsn.symm.trans same)) (by omega)
    · rw [sent, step.nextTsn]
      by_contra here
      exact other _ here chunks.length (Nat.le_refl _) rfl
    · simp only [data, sent]
      exact unsent
    · rw [cumulative] at after before
      rw [step.nextTsn] at before
      rw [data, sent]
      by_cases assigned : (tsn - a.cumulativeTsnAck).toNat < (a.nextTsn - a.cumulativeTsnAck).toNat
      · rcases holds.whole tsn after assigned with here | ⟨d, member, -⟩
        · exact Or.inl here
        · rw [old] at member
          cases member
      · refine Or.inr ?_
        have acked := window.acked
        have small : (BitVec.ofNat 32 chunks.length).toNat = chunks.length := by
          rw [BitVec.toNat_ofNat, Nat.mod_eq_of_lt (by omega)]
        have bound : (tsn - a.nextTsn).toNat < chunks.length := by
          unfold ahead at before
          bv_omega
        have inside : tsn ∈ chunks.map DataChunkValue.tsn := by
          rw [step.tsns]
          exact List.mem_map.mpr ⟨_, List.mem_range.mpr bound, ahead_distance a.nextTsn tsn⟩
        obtain ⟨d, member, same⟩ := List.mem_map.mp inside
        exact ⟨d, member, same⟩

/-! ## Sending -/

theorem Partitioned.sent {cutAs : Tsn → Option DataChunkValue} {s s' : Socket} {p : Pending}
    {sentAt : Time} {a : Association} (holds : Partitioned cutAs s p.deliverable.location a)
    (picked : DataPicked s p) (step : SentStep p sentAt s s' a)
    (recorded : Recorded p.deliverable.destination.addr p.deliverable.packet.dataChunks
      a (afterSent a p sentAt)) :
    Partitioned cutAs s' p.deliverable.location (afterSent a p sentAt) := by
  have rtx : ∀ x ∈ rtxData s' p.deliverable.location, x ∈ rtxData s p.deliverable.location := by
    intro x member
    rw [step.rtx]
    exact List.mem_append_right _ member
  rcases picked.queued with ⟨priority, -⟩ | ⟨q, priority, member, as⟩
  -- A chunk sent again is outstanding already.
  · have sent : ∀ tsn, sentData (afterSent a p sentAt) tsn = sentData a tsn := by
      intro tsn
      rw [recorded.sent]
      cases here : sentData a tsn with
      | some data => rfl
      | none =>
        rw [Option.none_or, List.find?_eq_none]
        intro data inside same
        have queued : (p.deliverable.destination.addr, data)
            ∈ rtxData s p.deliverable.location := by
          rw [step.rtx, if_pos priority]
          exact List.mem_append_left _ (List.mem_map_of_mem inside)
        have already := holds.resent _ queued
        rw [beq_iff_eq] at same
        rw [same, here] at already
        cases already
    have newData : newDataFor s' p.deliverable.location = newDataFor s p.deliverable.location := by
      rw [step.newData, if_neg (by simp [priority])]
    exact holds.same recorded.nextTsn recorded.cumulativeTsnAck sent newData rtx
  -- The packet that was queued is now outstanding.
  · have queue := eq_singleton_of_mem holds.single member
    have old : queuedData s p.deliverable.location = p.deliverable.packet.dataChunks := by
      rw [queuedData, queue, List.flatMap_singleton, as.dataChunks]
    have newData : newDataFor s' p.deliverable.location = [] := by
      rw [step.newData, if_pos priority, queue]
      simp [as.id]
    have data : queuedData s' p.deliverable.location = [] := by
      rw [queuedData, newData]
      rfl
    have found : ∀ tsn data, p.deliverable.packet.dataChunks.find? (fun data => data.tsn == tsn)
        = some data → data ∈ queuedData s p.deliverable.location ∧ data.tsn = tsn := by
      intro tsn data here
      rw [old]
      exact ⟨List.mem_of_find?_eq_some here, by simpa using List.find?_some here⟩
    refine ⟨by simp [newData], by simp [data], by simp [data], fun tsn d here => ?_,
      fun x member' => ?_, by simp [data], ?_, by simp [data], fun tsn after before => ?_⟩
    · rw [recorded.sent, Option.or_eq_some_iff] at here
      rcases here with before | ⟨-, now_⟩
      · exact holds.sentAs tsn d before
      · obtain ⟨inside, name⟩ := found tsn d now_
        rw [← name]
        exact ⟨rfl, holds.queuedAs d inside⟩
    · rw [recorded.sent, holds.resent x (rtx x member')]
      rfl
    · rw [recorded.sent, recorded.nextTsn, holds.sentBefore, Option.none_or, List.find?_eq_none]
      intro d inside same
      exact holds.queuedBefore d (old ▸ inside) (by simpa using same)
    · rw [recorded.nextTsn, recorded.cumulativeTsnAck] at *
      refine Or.inl ?_
      rw [recorded.sent]
      rcases holds.whole tsn after before with here | ⟨d, inside, name⟩
      · cases sent : sentData a tsn with
        | none => exact absurd sent here
        | some d => simp
      · rw [old] at inside
        intro nothing
        rw [Option.or_eq_none_iff, List.find?_eq_none] at nothing
        exact nothing.2 d inside (by simpa using name)

/-! ## Every run -/

/-- The sender keeps what it has, and while a packet may still be cut the window is
narrow. -/
def Holding (cutAs : AssociationKey → Tsn → Option DataChunkValue)
    (cut : List (AssociationKey × DataChunkValue)) (s : Socket) (key : AssociationKey)
    (a : Association) : Prop :=
  Partitioned (cut.foldl System.recordCut cutAs key) s key a ∧ (newDataFor s key = [] → Windowed a)

theorem holding_senderProp (cutAs : AssociationKey → Tsn → Option DataChunkValue)
    (cut : List (AssociationKey × DataChunkValue)) : SenderProp (Holding cutAs cut) where
  fresh := fun new empty => ⟨.fresh new empty, fun _ => .fresh new⟩
  same := by
    intro s s' key a b core queued _ holds
    refine ⟨holds.1.calm core queued, fun empty => ?_⟩
    rw [queued.1] at empty
    exact (holds.2 empty).same core.nextTsn core.cumulativeTsnAck core.outstandingData

/-- Cutting changes what is remembered for one key only. -/
theorem Holding.recordCut {cutAs : AssociationKey → Tsn → Option DataChunkValue}
    {cut : List (AssociationKey × DataChunkValue)} {s : Socket} {key k : AssociationKey}
    {a : Association} (holds : Holding cutAs cut s k a) (other : k ≠ key)
    {chunks : List DataChunkValue} (distinct : (chunks.map DataChunkValue.tsn).Nodup) :
    Holding cutAs (cut ++ chunks.map (Prod.mk key)) s k a := by
  refine ⟨?_, holds.2⟩
  rw [List.foldl_append, (recordCut_spec key chunks _ distinct).2.2 k other]
  exact holds.1

/-- What every kind of step does to `Holding`. -/
theorem holding_keeps (cutAs : AssociationKey → Tsn → Option DataChunkValue) :
    Keeps (fun s cut => Sends (Holding cutAs cut) s)
      fun s cut => Sends (fun s key => Partitioned (cut.foldl System.recordCut cutAs key) s key)
        s where
  calm := fun ok calm holds => (holding_senderProp cutAs _).calm ok calm holds
  drain := fun _ holds k a found transmits =>
    ⟨(holds k a found transmits).1.same rfl rfl (fun _ => rfl) rfl fun _ => id,
      (holds k a found transmits).2⟩
  opportunity := by
    intro s holds key b found transmits
    rw [Socket.startTransmissionOpportunity, Socket.find?, KeyMap.get?_mapVals,
      Option.map_eq_some_iff] at found
    obtain ⟨a, before, rfl⟩ := found
    obtain ⟨partitioned, windowed⟩ := holds key a before transmits
    exact ⟨partitioned.same rfl rfl (fun _ => rfl) rfl fun _ => id, fun empty =>
      (windowed empty).same rfl rfl rfl⟩
  resend := by
    intro s s' key a b ok step holds
    refine (holding_senderProp cutAs []).aside ok step.step.aside step.step.found (fun transmits =>
      ?_) holds
    obtain ⟨partitioned, windowed⟩ := holds key a step.found (step.state ▸ transmits)
    refine ⟨partitioned.resend step, fun empty => ?_⟩
    rw [step.step.newData] at empty
    refine (windowed empty).sender step.step ?_
    rw [step.cumulativeTsnAck]
    exact (windowed empty).acked
  cuts := by
    intro s s' key a b cut chunks ok found transmits step holds k c after transmits'
    have paths := ((ok.keys key).assoc a found).paths
    have distinct := step.tsns_nodup paths
    by_cases same : k = key
    · subst same
      rw [step.found] at after
      cases after
      obtain ⟨partitioned, windowed⟩ := holds k a found transmits
      refine ⟨?_, fun empty => ?_⟩
      · rw [List.foldl_append]
        exact partitioned.cut windowed paths step
      · rcases step.newData with ⟨rfl, same⟩ | ⟨-, -, q, queue, -⟩
        · have window := windowed (same ▸ empty)
          have nextTsn : b.nextTsn = a.nextTsn := by rw [step.nextTsn]; exact ahead_zero _
          exact window.same nextTsn (by rw [step.only]) (by rw [step.only])
        · rw [queue] at empty
          cases empty
    · exact ((holding_senderProp cutAs cut).keyStep (ok.keys k) (step.aside k same).weaken (holds k)
        c after transmits').recordCut same distinct
  sent := by
    intro s s' p sentAt a cut ok out holds
    refine SenderProp.aside ⟨fun new empty => .fresh new empty, fun core queued _ holds =>
      holds.calm core queued⟩ ok out.step.aside out.step.found (fun transmits => ?_)
        fun k c found transmits => (holds k c found transmits).1
    rw [afterSent_state] at transmits
    have placed := out.picked.placed (((ok.keys _).assoc a out.found).covered transmits)
    exact (holds _ a out.found transmits).1.sent out.picked out.step
      (afterSent_recorded sentAt transmits placed)
  done := fun holds k a found transmits => (holds k a found transmits).1

theorem partitioned_reached {σ : System} (reached : System.Reached (fun σ _ => AllWindowed σ) σ) :
    Sends (fun s key => Partitioned (σ.cutAs key) s key) σ.socket := by
  induction reached with
  | start initial =>
    obtain ⟨address, rfl⟩ := initial
    intro key a found
    cases found
  | @next σ σ' event reached windowed stepped ih =>
    have acks : ∀ key chunk s₁ s₂ a b, Orderly s₁ everyDue → AckStep key chunk s₁ s₂ a b →
        Sends (Holding σ.cutAs []) s₁ → Sends (Holding σ.cutAs []) s₂ := by
      intro key chunk s₁ s₂ a b ok step holds
      obtain ⟨gone, sender⟩ := step.sender
      refine (holding_senderProp _ []).aside ok sender.aside sender.found (fun _ => ?_) holds
      obtain ⟨partitioned, windowed⟩ := holds key a step.found step.transmits
      refine ⟨partitioned.acked step, fun empty => (windowed ?_).afterAck step⟩
      rw [← sender.newData]
      exact empty
    obtain ⟨cut, holds, cutAs⟩ := System.step_keeps (holding_keeps σ.cutAs)
      (orderly_reached reached) (fun _ _ _ _ _ _ key _ _ chunk _ => acks key chunk)
      (fun key a found transmits => ⟨ih key a found transmits,
      fun _ => windowed key a found transmits⟩) stepped
    rw [cutAs]
    exact holds

/-- While the window is narrower than half the TSN space: in every reachable state of an
association that sends, at most one packet of new DATA is queued for it, and every TSN
past the Cumulative TSN Ack Point and before the next TSN is outstanding or a chunk of
that packet, once and not both, with the chunk `cut_new_data` cut. -/
theorem unacknowledged_data_kept {σ : System}
    (reached : System.Reached (fun σ _ => AllWindowed σ) σ) {key : AssociationKey} {a : Association}
    (found : σ.socket.find? key = some a) (transmits : transmitsData a.state = true) :
    (newDataFor σ.socket key).length ≤ 1
    ∧ ∀ tsn, 0 < (tsn - a.cumulativeTsnAck).toNat →
      (tsn - a.cumulativeTsnAck).toNat < (a.nextTsn - a.cumulativeTsnAck).toNat →
      ∃ data, σ.cutAs key tsn = some data
        ∧ (((∃ o, a.outstandingData.get? tsn = some o ∧ o.data = data)
            ∧ tsn ∉ (queuedData σ.socket key).map DataChunkValue.tsn)
          ∨ (a.outstandingData.get? tsn = none ∧ data ∈ queuedData σ.socket key
            ∧ ((queuedData σ.socket key).map DataChunkValue.tsn).count tsn = 1)) := by
  have holds := partitioned_reached reached key a found transmits
  refine ⟨holds.single, fun tsn after before => ?_⟩
  rcases holds.whole tsn after before with here | ⟨data, inside, rfl⟩
  · obtain ⟨o, entry⟩ := sentData_ne_none.mp here
    have sent : sentData a tsn = some o.data := by rw [sentData, entry]; rfl
    refine ⟨o.data, (holds.sentAs tsn o.data sent).2, Or.inl ⟨⟨o, entry, rfl⟩, fun queued => ?_⟩⟩
    obtain ⟨data, inside, same⟩ := List.mem_map.mp queued
    have none := holds.apart data inside
    rw [same, sent] at none
    cases none
  · have none := holds.apart data inside
    rw [sentData, Option.map_eq_none_iff] at none
    exact ⟨data, holds.queuedAs data inside, Or.inr ⟨none, inside,
      List.count_eq_one_of_mem holds.distinct (List.mem_map_of_mem inside)⟩⟩

/-- Of two messages one is on its way, the other queued: the socket did not take it. -/
theorem two_messages_kept : ∃ σ a, System.Reached (fun σ _ => AllWindowed σ) σ
    ∧ σ.socket.find? Opened.key = some a
    ∧ (∃ o, a.outstandingData.get? 10#32 = some o ∧ σ.cutAs Opened.key 10#32 = some o.data)
    ∧ ∃ data ∈ queuedData σ.socket Opened.key, σ.cutAs Opened.key 11#32 = some data := by
  obtain ⟨σ, reached, ends⟩ := Opened.exists_reached_while (fun σ _ => AllWindowed σ)
    ([.sendData Opened.key [1#8, 2#8] 0#16 false] ++ Opened.batch 1
      ++ [.sendData Opened.key [3#8] 0#16 false, .startSending, .send 0 false])
    (p := fun σ => (σ.socket.find? Opened.key).any fun a => transmitsData a.state
      && (a.cumulativeTsnAck == 9#32 && a.nextTsn == 12#32 && a.outstandingData.contains 10#32
      && !a.outstandingData.contains 11#32)) (by decide +kernel)
  obtain ⟨a, found, holds⟩ := (Option.any_eq_true _ _).mp ends
  simp only [Bool.and_eq_true, beq_iff_eq, Bool.not_eq_true'] at holds
  obtain ⟨transmits, ⟨⟨cumulative, nextTsn⟩, first⟩, second⟩ := holds
  obtain ⟨-, kept⟩ := unacknowledged_data_kept reached found transmits
  rw [cumulative, nextTsn] at kept
  refine ⟨σ, a, reached, found, ?_, ?_⟩
  · obtain ⟨data, cut, ⟨⟨o, entry, rfl⟩, -⟩ | ⟨none, -⟩⟩ := kept 10#32 (by decide) (by decide)
    · exact ⟨o, entry, cut⟩
    · rw [KeyMap.contains, none] at first
      cases first
  · obtain ⟨data, cut, ⟨⟨o, entry, -⟩, -⟩ | ⟨-, inside, -⟩⟩ := kept 11#32 (by decide) (by decide)
    · rw [KeyMap.contains, entry] at second
      cases second
    · exact ⟨data, inside, cut⟩

end SctpStack
