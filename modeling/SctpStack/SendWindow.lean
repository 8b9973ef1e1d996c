import SctpStack.Partition

/-!
# What is outstanding lies in the send window

A TSN is assigned when its packet is cut and recorded when the packet goes out. As long
as no acknowledgement comes for a chunk that is still queued, everything outstanding
lies past the Cumulative TSN Ack Point and before the next TSN, in ascending order
(`Inside`). An acknowledgement for a queued chunk is accepted all the same, since it is
judged by the next TSN.
-/

namespace SctpStack

open Serial

/-! ## The window -/

/-- A TSN past one and before another. -/
def Between (low high tsn : Tsn) : Prop :=
  0 < (tsn - low).toNat ∧ (tsn - low).toNat < (high - low).toNat

/-- Within a window narrower than half the space, TSNs are ordered as their distances. -/
theorem tsnLt_between {low high x y : Tsn} (narrow : (high - low).toNat < 2 ^ 31)
    (inX : Between low high x) (inY : Between low high y) :
    tsnLt x y = true ↔ (x - low).toNat < (y - low).toNat := by
  unfold Between at inX inY
  rw [tsnLt_iff]
  constructor
  · intro before
    bv_omega
  · intro before
    constructor <;> bv_omega

/-- What an accepted acknowledgement does not cover lies past it. -/
theorem Between.acked {low high acked tsn : Tsn} (inside : Between low high tsn)
    (narrow : (high - low).toNat < 2 ^ 31) (new : tsnLt acked low = false)
    (assigned : tsnLt acked high = true) (kept : tsnLte tsn acked = false) :
    Between acked high tsn := by
  unfold Between at *
  have window := tsnLt_iff.mp assigned
  have moved : ¬(0 < (low - acked).toNat ∧ (low - acked).toNat < 2 ^ 31) := by
    rw [← tsnLt_iff, new]
    simp
  rw [tsnLte, Bool.or_eq_false_iff, beq_eq_false_iff_ne] at kept
  have later : ¬(0 < (acked - tsn).toNat ∧ (acked - tsn).toNat < 2 ^ 31) := by
    rw [← tsnLt_iff, kept.2]
    simp
  have apart := kept.1
  constructor <;> bv_omega

/-- What the sender of an association has sent, and what is queued for it. -/
structure Inside (s : Socket) (key : AssociationKey) (a : Association) : Prop where
  past : 0 < (a.nextTsn - a.cumulativeTsnAck).toNat
  sent : ∀ tsn ∈ a.outstandingData.keys, Between a.cumulativeTsnAck a.nextTsn tsn
  queued : ∀ data ∈ queuedData s key, Between a.cumulativeTsnAck a.nextTsn data.tsn
  sorted : (a.nextTsn - a.cumulativeTsnAck).toNat < 2 ^ 31 →
    a.outstandingData.keys.Pairwise fun x y => tsnLt x y = true
  resent : ∀ p ∈ rtxData s key, p.2.tsn ∈ a.outstandingData.keys

theorem Inside.fresh {s : Socket} {key : AssociationKey} {a : Association}
    (new : FreshAssoc False a) (empty : NothingQueued s key) : Inside s key a := by
  refine ⟨?_, ?_, ?_, fun _ => ?_, by simp [empty.2]⟩
  · rw [new.cumulativeTsnAck]
    bv_omega
  · rw [new.outstandingData]
    intro tsn member
    cases member
  · rw [queuedData, empty.1]
    intro data member
    cases member
  · rw [new.outstandingData]
    exact List.Pairwise.nil

/-- Nothing of this changed. -/
theorem Inside.same {s s' : Socket} {key : AssociationKey} {a b : Association}
    (holds : Inside s key a) (nextTsn : b.nextTsn = a.nextTsn)
    (cumulative : b.cumulativeTsnAck = a.cumulativeTsnAck)
    (keys : b.outstandingData.keys.Sublist a.outstandingData.keys)
    (newData : newDataFor s' key = newDataFor s key)
    (resent : ∀ p ∈ rtxData s' key, p.2.tsn ∈ b.outstandingData.keys) : Inside s' key b := by
  refine ⟨?_, fun tsn member => ?_, ?_, fun narrow => ?_, resent⟩
  · rw [nextTsn, cumulative]
    exact holds.past
  · rw [nextTsn, cumulative]
    exact holds.sent tsn (keys.subset member)
  · rw [nextTsn, cumulative, queuedData_congr newData]
    exact holds.queued
  · rw [nextTsn, cumulative] at narrow
    exact (holds.sorted narrow).sublist keys

/-! ## Acknowledgements -/

theorem mem_keys_of_sentData {a : Association} {tsn : Tsn} :
    tsn ∈ a.outstandingData.keys ↔ sentData a tsn ≠ none := by
  rw [sentData_ne_none, KeyMap.mem_keys, Option.isSome_iff_exists]

/-- What waits to be sent again is outstanding. -/
theorem SenderStep.resent {gone : Tsn → Bool} {s s' : Socket} {key : AssociationKey}
    {a b : Association} (step : SenderStep key gone s s' a b)
    (named : ∀ tsn o, a.outstandingData.get? tsn = some o → o.data.tsn = tsn)
    (resent : ∀ p ∈ rtxData s key, p.2.tsn ∈ a.outstandingData.keys) :
    ∀ p ∈ rtxData s' key, p.2.tsn ∈ b.outstandingData.keys := by
  intro p member
  rw [mem_keys_of_sentData]
  rcases step.rtx p member with ⟨old, kept⟩ | ⟨tsn, here⟩
  · rw [step.sent, kept]
    exact mem_keys_of_sentData.mp (resent p old)
  · have before : sentData a tsn = some p.2 := by
      have sent := here
      rw [step.sent] at sent
      split at sent
      · cases sent
      · exact sent
    obtain ⟨o, entry, data⟩ := Option.map_eq_some_iff.mp before
    rw [← data, named tsn o entry, here]
    simp

theorem Inside.acked {s s' : Socket} {key : AssociationKey} {chunk : Chunk} {a b : Association}
    (holds : Inside s key a) (narrow : (a.nextTsn - a.cumulativeTsnAck).toNat < 2 ^ 31)
    (step : AckStep key chunk s s' a b)
    (unsent : ∀ data ∈ queuedData s key, acknowledges chunk data.tsn = false)
    (named : ∀ tsn o, a.outstandingData.get? tsn = some o → o.data.tsn = tsn) :
    Inside s' key b := by
  rcases step.moved with ⟨kept, same⟩ | ⟨dropped, new, assigned, acks⟩
  · exact holds.same kept.nextTsn same kept.keys kept.newData (kept.resent named holds.resent)
  · have data := queuedData_congr dropped.newData
    refine ⟨?_, fun tsn member => ?_, ?_, fun _ => (holds.sorted narrow).sublist dropped.keys,
      dropped.resent named holds.resent⟩
    · rw [dropped.nextTsn]
      exact (tsnLt_iff.mp assigned).1
    · rw [dropped.nextTsn]
      refine (holds.sent tsn (dropped.keys.subset member)).acked narrow new assigned ?_
      -- What is left of the outstanding data is what was not dropped.
      by_contra gone
      rw [Bool.not_eq_false] at gone
      have none := dropped.sent tsn
      rw [if_pos gone] at none
      exact mem_keys_of_sentData.mp member none
    · rw [data, dropped.nextTsn]
      intro d member
      refine (holds.queued d member).acked narrow new assigned ?_
      by_contra below
      rw [Bool.not_eq_false] at below
      have acknowledged := acks d.tsn below
      rw [unsent d member] at acknowledged
      cases acknowledged

/-! ## Cutting and sending -/

theorem Inside.cut {s s' : Socket} {key : AssociationKey} {chunks : List DataChunkValue}
    {a b : Association} (holds : Inside s key a)
    (narrow : newDataFor s key = [] → (a.nextTsn - a.cumulativeTsnAck).toNat < 2 ^ 31)
    (ok : PathsOk a) (step : CutStep key chunks s s' a b) : Inside s' key b := by
  have outstanding : b.outstandingData = a.outstandingData := by rw [step.only]
  have cumulative : b.cumulativeTsnAck = a.cumulativeTsnAck := by rw [step.only]
  have few := step.length_le ok
  rcases step.newData with ⟨rfl, same⟩ | ⟨some, empty, q, queue, carried, -⟩
  · have nextTsn : b.nextTsn = a.nextTsn := by rw [step.nextTsn]; exact ahead_zero _
    refine holds.same nextTsn cumulative (outstanding ▸ List.Sublist.refl _) same ?_
    rw [step.rtx, outstanding]
    exact holds.resent
  · have window := narrow empty
    have small : ∀ i ≤ 1201, (BitVec.ofNat 32 i).toNat = i := by
      intro i bound
      rw [BitVec.toNat_ofNat, Nat.mod_eq_of_lt (by omega)]
    have length := small chunks.length few
    have data : queuedData s' key = chunks := by
      rw [queuedData, queue, List.flatMap_singleton, carried]
    have grown : (b.nextTsn - a.cumulativeTsnAck).toNat
        = (a.nextTsn - a.cumulativeTsnAck).toNat + chunks.length := by
      rw [step.nextTsn]
      unfold ahead
      bv_omega
    have past := holds.past
    refine ⟨by rw [cumulative, grown]; omega, fun tsn member => ?_, ?_, fun _ => ?_, ?_⟩
    · rw [outstanding] at member
      have inside := holds.sent tsn member
      rw [cumulative]
      exact ⟨inside.1, by rw [grown]; exact Nat.lt_add_right _ inside.2⟩
    · rw [data, cumulative]
      intro data member
      obtain ⟨i, bound, tsn⟩ := step.tsn member
      have offset := small i (by omega)
      have distance : (data.tsn - a.cumulativeTsnAck).toNat
          = (a.nextTsn - a.cumulativeTsnAck).toNat + i := by
        rw [tsn]
        unfold ahead
        bv_omega
      exact ⟨by omega, by omega⟩
    · rw [outstanding]
      exact holds.sorted window
    · rw [step.rtx, outstanding]
      exact holds.resent

/-- The keys after a chunk is recorded, the others being in order. -/
theorem sorted_recordDataSentIn {a : Association} {destination : SockAddr} {data : DataChunkValue}
    (sentAt : Time) (narrow : (a.nextTsn - a.cumulativeTsnAck).toNat < 2 ^ 31)
    (sent : ∀ tsn ∈ a.outstandingData.keys, Between a.cumulativeTsnAck a.nextTsn tsn)
    (here : Between a.cumulativeTsnAck a.nextTsn data.tsn)
    (sorted : a.outstandingData.keys.Pairwise fun x y => tsnLt x y = true) :
    (recordDataSentIn a destination data sentAt).outstandingData.keys.Pairwise fun x y =>
      tsnLt x y = true := by
  rw [outstandingData_recordDataSentIn]
  split
  · next again =>
    rw [KeyMap.modify, KeyMap.mapVals]
    exact sorted.sublist (KeyMap.keys_filterMap _ _)
  · next new =>
    have absent := KeyMap.contains_eq_false.mp (Bool.not_eq_true _ ▸ new)
    rw [KeyMap.keys, KeyMap.entries_emplaceBy absent]
    have inside : ∀ x ∈ data.tsn :: a.outstandingData.keys, Between a.cumulativeTsnAck a.nextTsn
        x := by
      intro x member
      rcases List.mem_cons.mp member with rfl | old
      · exact here
      · exact sent x old
    refine KeyMap.pairwise_place (fun tsn => (tsn - a.cumulativeTsnAck).toNat)
      (fun x inX y inY => tsnLt_between narrow (inside x inX) (inside y inY))
      (fun x member same => ?_) sorted
    have equal : x = data.tsn := by bv_omega
    rw [equal] at member
    exact KeyMap.get?_eq_none.mp absent member

/-- The keys after one chunk is recorded are the old ones and its own. -/
theorem mem_keys_recordDataSentIn {a : Association} {destination : SockAddr} {data : DataChunkValue}
    {sentAt : Time} {tsn : Tsn} (member : tsn
      ∈ (recordDataSentIn a destination data sentAt).outstandingData.keys) :
    tsn = data.tsn ∨ tsn ∈ a.outstandingData.keys := by
  rw [KeyMap.mem_keys, get?_recordDataSentIn] at member
  by_cases same : tsn = data.tsn
  · exact Or.inl same
  · rw [if_neg same] at member
    exact Or.inr (KeyMap.mem_keys.mpr member)

/-- Recording a packet of chunks that all lie in the window. -/
theorem recordAll_inside {a : Association} (destination : SockAddr) {chunks : List DataChunkValue}
    (sentAt : Time) (sent : ∀ tsn ∈ a.outstandingData.keys, Between a.cumulativeTsnAck a.nextTsn
      tsn)
    (here : ∀ data ∈ chunks, Between a.cumulativeTsnAck a.nextTsn data.tsn)
    (sorted : (a.nextTsn - a.cumulativeTsnAck).toNat < 2 ^ 31 →
      a.outstandingData.keys.Pairwise fun x y => tsnLt x y = true) :
    (∀ tsn ∈ (recordAll a destination chunks sentAt).outstandingData.keys,
      Between a.cumulativeTsnAck a.nextTsn tsn)
      ∧ ((a.nextTsn - a.cumulativeTsnAck).toNat < 2 ^ 31 →
        (recordAll a destination chunks sentAt).outstandingData.keys.Pairwise fun x y => tsnLt x y
          = true) := by
  induction chunks generalizing a with
  | nil => exact ⟨sent, sorted⟩
  | cons data rest ih =>
    obtain ⟨frame, cumulative⟩ := recordDataSentIn_frame a destination data sentAt
    have first := here data List.mem_cons_self
    have next := ih (a := recordDataSentIn a destination data sentAt)
    rw [frame.nextTsn, cumulative] at next
    refine next (fun tsn member => ?_) (fun d member => here d (List.mem_cons_of_mem _ member))
      fun narrow => ?_
    · rcases mem_keys_recordDataSentIn member with rfl | old
      · exact first
      · exact sent tsn old
    · exact sorted_recordDataSentIn sentAt narrow sent first (sorted narrow)

theorem Inside.out {s s' : Socket} {p : Pending} {sentAt : Time} {a : Association}
    (holds : Inside s p.deliverable.location a) (transmits : transmitsData a.state = true)
    (picked : DataPicked s p) (step : SentStep p sentAt s s' a)
    (recorded : Recorded p.deliverable.destination.addr p.deliverable.packet.dataChunks
      a (afterSent a p sentAt)) :
    Inside s' p.deliverable.location (afterSent a p sentAt) := by
  have carried : ∀ data ∈ p.deliverable.packet.dataChunks, Between a.cumulativeTsnAck a.nextTsn
      data.tsn := by
    intro data inside
    rcases picked.queued with ⟨priority, -⟩ | ⟨q, -, member, as⟩
    · refine holds.sent data.tsn (holds.resent (p.deliverable.destination.addr, data) ?_)
      rw [step.rtx, if_pos priority]
      exact List.mem_append_left _ (List.mem_map_of_mem inside)
    · exact holds.queued data (List.mem_flatMap.mpr ⟨q, member, as.dataChunks ▸ inside⟩)
  have fewer : ∀ data ∈ queuedData s' p.deliverable.location, data
      ∈ queuedData s p.deliverable.location := by
    intro data inside
    obtain ⟨q, member, carries⟩ := List.mem_flatMap.mp inside
    refine List.mem_flatMap.mpr ⟨q, ?_, carries⟩
    rw [step.newData] at member
    split at member
    · exact List.mem_of_mem_filter member
    · exact member
  have outstanding : (afterSent a p sentAt).outstandingData
      = (recordAll a p.deliverable.destination p.deliverable.packet.dataChunks
        sentAt).outstandingData := by
    unfold afterSent
    rw [if_pos transmits]
  obtain ⟨sent, sorted⟩ := recordAll_inside p.deliverable.destination sentAt holds.sent carried
    holds.sorted
  refine ⟨?_, ?_, ?_, ?_, fun x member => ?_⟩
  · rw [recorded.nextTsn, recorded.cumulativeTsnAck]
    exact holds.past
  · rw [recorded.nextTsn, recorded.cumulativeTsnAck, outstanding]
    exact sent
  · rw [recorded.nextTsn, recorded.cumulativeTsnAck]
    exact fun data inside => holds.queued data (fewer data inside)
  · rw [recorded.nextTsn, recorded.cumulativeTsnAck, outstanding]
    exact sorted
  · have old : x ∈ rtxData s p.deliverable.location := by
      rw [step.rtx]
      exact List.mem_append_right _ member
    have before := mem_keys_of_sentData.mp (holds.resent x old)
    rw [mem_keys_of_sentData, recorded.sent]
    intro none
    exact before (Option.or_eq_none_iff.mp none).1

/-! ## Every run -/

/-- No chunk of a packet acknowledges anything still queued for the association the
packet is for. -/
def acksOnlySent (σ : System) : Event → Bool
  | .recv now draws packet src =>
    (σ.socket.dispatch now draws packet src).all fun found =>
      (Socket.chunksToHandle packet found.2.2).all fun chunk =>
        (queuedData σ.socket found.2.1).all fun data => !acknowledges chunk data.tsn
  | _ => true

/-- Every association that sends has a window narrower than half the TSN space. -/
def AllNarrow (σ : System) : Prop :=
  Sends (fun _ _ a => (a.nextTsn - a.cumulativeTsnAck).toNat < 2 ^ 31) σ.socket

instance (σ : System) : Decidable (AllNarrow σ) :=
  KeyMap.decidableForall σ.socket.associations fun _ a =>
    transmitsData a.state = true → (a.nextTsn - a.cumulativeTsnAck).toNat < 2 ^ 31

/-- The window, narrow as long as a packet may be cut or an acknowledgement handled.
What is queued is what was queued when the step began, until something is cut. -/
structure InsideSince (s₀ : Socket) (cut : List (AssociationKey × DataChunkValue)) (s : Socket)
    (key : AssociationKey) (a : Association) : Prop where
  inside : Inside s key a
  narrow : newDataFor s key = [] ∨ cut = [] → (a.nextTsn - a.cumulativeTsnAck).toNat < 2 ^ 31
  queued : cut = [] → ∀ data ∈ queuedData s key, data ∈ queuedData s₀ key

theorem insideSince_senderProp (s₀ : Socket) (cut : List (AssociationKey × DataChunkValue)) :
    SenderProp (InsideSince s₀ cut) where
  fresh := by
    intro s key a new empty
    refine ⟨.fresh new empty, fun _ => (Windowed.fresh new).acked, fun _ data inside => ?_⟩
    rw [queuedData, empty.1] at inside
    cases inside
  same := by
    intro s s' key a b core queued _ holds
    have resent : ∀ p ∈ rtxData s' key, p.2.tsn ∈ b.outstandingData.keys := by
      rw [queued.2, core.outstandingData]
      exact holds.inside.resent
    refine ⟨holds.inside.same core.nextTsn core.cumulativeTsnAck
      (core.outstandingData ▸ List.Sublist.refl _) queued.1 resent, fun may => ?_, fun none => ?_⟩
    · rw [core.nextTsn, core.cumulativeTsnAck]
      rw [queued.1] at may
      exact holds.narrow may
    · rw [queuedData_congr queued.1]
      exact holds.queued none

/-- More was cut, for another association or for none. -/
theorem InsideSince.later {s₀ s : Socket} {cut more : List (AssociationKey × DataChunkValue)}
    {key : AssociationKey} {a : Association} (holds : InsideSince s₀ cut s key a) :
    InsideSince s₀ (cut ++ more) s key a := by
  refine ⟨holds.inside, fun may => holds.narrow ?_, fun none =>
    holds.queued (List.append_eq_nil_iff.mp none).1⟩
  rcases may with empty | none
  · exact Or.inl empty
  · exact Or.inr (List.append_eq_nil_iff.mp none).1

/-- A step that keeps the window and the queue, and drops from what is outstanding. -/
theorem InsideSince.step {s₀ s s' : Socket} {cut : List (AssociationKey × DataChunkValue)}
    {key : AssociationKey} {a b : Association} (holds : InsideSince s₀ cut s key a)
    (inside : Inside s' key b) (newData : newDataFor s' key = newDataFor s key)
    (narrow : (a.nextTsn - a.cumulativeTsnAck).toNat < 2 ^ 31 →
      (b.nextTsn - b.cumulativeTsnAck).toNat < 2 ^ 31) :
    InsideSince s₀ cut s' key b := by
  refine ⟨inside, fun may => ?_, fun none => ?_⟩
  · rw [newData] at may
    exact narrow (holds.narrow may)
  · rw [queuedData_congr newData]
    exact holds.queued none

theorem insideSince_keeps (s₀ : Socket) :
    Keeps (fun s cut => Sends (InsideSince s₀ cut) s) fun s _ => Sends Inside s where
  calm := fun ok calm holds => (insideSince_senderProp s₀ _).calm ok calm holds
  drain := by
    intro s now holds key a found transmits
    have old := holds key a found transmits
    exact old.step (old.inside.same rfl rfl (List.Sublist.refl _) rfl old.inside.resent) rfl id
  opportunity := by
    intro s holds key b found transmits
    rw [Socket.startTransmissionOpportunity, Socket.find?, KeyMap.get?_mapVals,
      Option.map_eq_some_iff] at found
    obtain ⟨a, before, rfl⟩ := found
    have old := holds key a before transmits
    exact old.step (old.inside.same rfl rfl (List.Sublist.refl _) rfl old.inside.resent) rfl id
  resend := by
    intro s s' key a b ok step holds
    refine (insideSince_senderProp s₀ []).aside ok step.step.aside step.step.found (fun transmits =>
      ?_) holds
    have before : transmitsData a.state = true := step.state ▸ transmits
    have old := holds key a step.found before
    have named := (((ok.keys key).assoc a step.found).covered before).named
    refine old.step (old.inside.same step.step.nextTsn step.cumulativeTsnAck step.step.keys
      step.step.newData (step.step.resent named old.inside.resent)) step.step.newData ?_
    rw [step.step.nextTsn, step.cumulativeTsnAck]
    exact id
  cuts := by
    intro s s' key a b cut chunks ok found transmits step holds k c after transmits'
    by_cases same : k = key
    · subst same
      rw [step.found] at after
      cases after
      have old := holds k a found transmits
      have paths := ((ok.keys k).assoc a found).paths
      have inside := old.inside.cut (fun empty => old.narrow (Or.inl empty)) paths step
      rcases step.newData with ⟨rfl, same⟩ | ⟨some, -, q, queue, -⟩
      · refine (old.step inside same ?_).later
        rw [step.nextTsn, List.length_nil, ahead_zero, step.only]
        exact id
      · have cutSome : cut ++ chunks.map (Prod.mk k) ≠ [] := by simp [some]
        refine ⟨inside, fun may => ?_, fun none => absurd none cutSome⟩
        rw [queue] at may
        exact absurd (may.resolve_left (by simp)) cutSome
    · exact ((insideSince_senderProp s₀ cut).keyStep (ok.keys k) (step.aside k same).weaken
        (holds k) c after transmits').later
  sent := by
    intro s s' p sentAt a cut ok out holds
    have prop : SenderProp Inside := {
      fresh := fun new empty => .fresh new empty
      same := fun core queued _ holds =>
        holds.same core.nextTsn core.cumulativeTsnAck (core.outstandingData ▸ List.Sublist.refl _)
          queued.1 (by rw [queued.2, core.outstandingData]; exact holds.resent) }
    refine prop.aside ok out.step.aside out.step.found (fun transmits => ?_)
      fun k c found transmits => (holds k c found transmits).inside
    rw [afterSent_state] at transmits
    have placed := out.picked.placed (((ok.keys _).assoc a out.found).covered transmits)
    exact (holds _ a out.found transmits).inside.out transmits out.picked out.step
      (afterSent_recorded sentAt transmits placed)
  done := fun holds k a found transmits => (holds k a found transmits).inside

theorem inside_reached {σ : System}
    (reached : System.Reached (fun σ event => AllNarrow σ ∧ acksOnlySent σ event = true) σ) :
    Sends Inside σ.socket := by
  induction reached with
  | start initial =>
    obtain ⟨address, rfl⟩ := initial
    intro key a found
    cases found
  | @next σ σ' event reached allowed stepped ih =>
    obtain ⟨narrow, onlySent⟩ := allowed
    obtain ⟨cut, holds, -⟩ := System.step_keeps (insideSince_keeps σ.socket)
      (orderly_reached reached)
      (fun now draws packet src recv s' key carried dispatched chunk member s₁ s₂ a b ok step
        holds => by
        obtain ⟨gone, sender⟩ := step.sender
        refine (insideSince_senderProp σ.socket []).aside ok sender.aside sender.found (fun _ => ?_)
          holds
        have old := holds key a step.found step.transmits
        have window := old.narrow (Or.inr rfl)
        have named := (((ok.keys key).assoc a step.found).covered step.transmits).named
        have unsent : ∀ data ∈ queuedData s₁ key, acknowledges chunk data.tsn = false := by
          intro data inside
          rw [recv, acksOnlySent, dispatched, Option.all_some, List.all_eq_true] at onlySent
          simpa using List.all_eq_true.mp (onlySent chunk member) data (old.queued rfl data inside)
        refine old.step (old.inside.acked window step unsent named) sender.newData fun _ => ?_
        rw [sender.nextTsn]
        rcases step.moved with ⟨-, same⟩ | ⟨-, -, assigned, -⟩
        · rw [same]
          exact window
        · exact (tsnLt_iff.mp assigned).2)
      (fun key a found transmits => ⟨ih key a found transmits,
        fun _ => narrow key a found transmits, fun _ _ => id⟩)
      stepped
    exact holds

/-- While no acknowledgement comes for a chunk that is still queued: in every reachable
state of an association that sends, with a window narrower than half the TSN space,
each TSN outstanding lies past the Cumulative TSN Ack Point and before the next TSN.
There the order of TSNs is that of their distances from the point, and the outstanding
TSNs are held in ascending order. -/
theorem outstanding_inside_window {σ : System}
    (reached : System.Reached (fun σ event => AllNarrow σ ∧ acksOnlySent σ event = true) σ)
    {key : AssociationKey} {a : Association} (found : σ.socket.find? key = some a)
    (transmits : transmitsData a.state = true)
    (narrow : (a.nextTsn - a.cumulativeTsnAck).toNat < 2 ^ 31) :
    (∀ tsn ∈ a.outstandingData.keys, tsnLt a.cumulativeTsnAck tsn = true ∧ tsnLt tsn a.nextTsn
      = true)
    ∧ (∀ x ∈ a.outstandingData.keys, ∀ y ∈ a.outstandingData.keys,
        tsnLt x y = true ↔ (x - a.cumulativeTsnAck).toNat < (y - a.cumulativeTsnAck).toNat)
    ∧ a.outstandingData.keys.Pairwise fun x y => tsnLt x y = true := by
  have holds := inside_reached reached key a found transmits
  refine ⟨fun tsn member => ?_, fun x inX y inY =>
    tsnLt_between narrow (holds.sent x inX) (holds.sent y inY), holds.sorted narrow⟩
  obtain ⟨after, before⟩ := holds.sent tsn member
  rw [tsnLt_iff, tsnLt_iff]
  refine ⟨⟨after, by omega⟩, ?_, ?_⟩ <;> bv_omega

/-- A chunk is acknowledged while the next one is still queued, and that one goes out then. -/
theorem queued_chunk_inside : ∃ σ a, System.Reached (fun σ event => AllNarrow σ
    ∧ acksOnlySent σ event = true) σ
    ∧ σ.socket.find? Opened.key = some a ∧ a.cumulativeTsnAck = 10#32
    ∧ tsnLt a.cumulativeTsnAck 11#32 = true ∧ tsnLt 11#32 a.nextTsn = true := by
  obtain ⟨σ, reached, ends⟩ := Opened.exists_reached_while
    (fun σ event => AllNarrow σ ∧ acksOnlySent σ event = true)
    ([.sendData Opened.key [1#8, 2#8] 0#16 false] ++ Opened.batch 1
      ++ [.sendData Opened.key [3#8] 0#16 false, .startSending, .send 0 false,
        Opened.arrives [⟨0#8, .sack ⟨10#32, 65535#32, 0#16, 0#16, [], []⟩⟩], .startSending,
        .send 20000000 true])
    (p := fun σ => (σ.socket.find? Opened.key).any fun a => transmitsData a.state
      && a.outstandingData.contains 11#32 && a.cumulativeTsnAck == 10#32 && a.nextTsn == 12#32)
      (by decide +kernel)
  obtain ⟨a, found, holds⟩ := (Option.any_eq_true _ _).mp ends
  simp only [Bool.and_eq_true, beq_iff_eq] at holds
  obtain ⟨⟨⟨transmits, member⟩, point⟩, next⟩ := holds
  obtain ⟨inside, -⟩ := outstanding_inside_window reached found transmits
    (by rw [point, next]; decide)
  exact ⟨σ, a, reached, found, point, inside 11#32 (KeyMap.mem_keys.mpr member)⟩

/-- The UDP socket refuses the packet of TSN 10, the peer acknowledges TSN 10, and the
packet goes out: TSN 10 is outstanding, and the Cumulative TSN Ack Point is there. -/
theorem queued_chunk_acknowledged : ∃ σ a, System.Reached (fun σ _ => AllNarrow σ) σ ∧ AllNarrow σ
    ∧ σ.socket.find? Opened.key = some a ∧ transmitsData a.state = true
    ∧ 10#32 ∈ a.outstandingData.keys ∧ tsnLt a.cumulativeTsnAck 10#32 = false := by
  obtain ⟨σ, reached, ends⟩ := Opened.exists_reached_while (fun σ _ => AllNarrow σ)
    [.sendData Opened.key [1#8, 2#8] 0#16 false, .startSending, .send 0 false,
      Opened.arrives [⟨0#8, .sack ⟨10#32, 65535#32, 0#16, 0#16, [], []⟩⟩], .startSending,
      .send 20000000 true]
    (p := fun σ => decide (AllNarrow σ) && (σ.socket.find? Opened.key).any fun a =>
      transmitsData a.state && a.outstandingData.contains 10#32 && !tsnLt a.cumulativeTsnAck 10#32)
        (by decide +kernel)
  rw [Bool.and_eq_true, decide_eq_true_eq] at ends
  obtain ⟨narrow, some⟩ := ends
  obtain ⟨a, found, holds⟩ := (Option.any_eq_true _ _).mp some
  simp only [Bool.and_eq_true, Bool.not_eq_true'] at holds
  exact ⟨σ, a, reached, narrow, found, holds.1.1, KeyMap.mem_keys.mpr holds.1.2, holds.2⟩

end SctpStack
