import SctpStack.System
import SctpStack.Frame

/-!
# Steps that leave the sender alone

Most of what happens to a socket does not concern the DATA an association is sending:
it answers, it probes, it takes a handshake further, it sets an association up or tears
it down. Such a step is `Calm`: for every key the association keeps what its sender
depends on (`SameCore`), or it is gone, or it is new, and in the last two cases nothing
is queued for it. A calm step in the strict sense also makes the socket hold no more of
what was received.

Every operation a handler is made of has one lemma here, and calm steps compose.
-/

namespace SctpStack

/-! ## What the sender of an association depends on -/

/-- The IP addresses of an association's paths. -/
def Association.ips (assoc : Association) : List (BitVec 32) :=
  assoc.peerAddressList.map fun path => path.address.addr

/-- The paths of an association: at least one, no two alike. -/
structure PathsOk (assoc : Association) : Prop where
  some : assoc.peerAddressList ≠ []
  distinct : assoc.ips.Nodup
  pmdcs : assoc.pmdcs = defaultPmdcs

/-- Nothing changed that matters to the sender; in the strict sense, no more is held of
what was received either. -/
structure SameCore (strict : Prop) (a b : Association) : Prop where
  nextTsn : b.nextTsn = a.nextTsn
  cumulativeTsnAck : b.cumulativeTsnAck = a.cumulativeTsnAck
  outstandingData : b.outstandingData = a.outstandingData
  inFastRecovery : b.inFastRecovery = a.inFastRecovery
  fastRecoveryExitTsn : b.fastRecoveryExitTsn = a.fastRecoveryExitTsn
  burstCount : b.burstCount = a.burstCount
  paths : PathsOk a → PathsOk b
  ips : ∀ ip ∈ a.ips, ip ∈ b.ips
  forming : forming b.state = true → SctpStack.forming a.state = true
  transmits : transmitsData b.state = true → transmitsData a.state = true
    ∨ SctpStack.forming a.state = true
  held : strict → heldBytes b ≤ heldBytes a

/-- An association that has sent nothing. -/
structure FreshAssoc (strict : Prop) (a : Association) : Prop where
  cumulativeTsnAck : a.cumulativeTsnAck = a.nextTsn - 1#32
  outstandingData : a.outstandingData = ∅
  burstCount : a.burstCount = 0
  paths : PathsOk a
  held : strict → heldBytes a = 0

namespace SameCore

variable {strict : Prop} {a b c : Association}

theorem refl (a : Association) : SameCore strict a a :=
  ⟨rfl, rfl, rfl, rfl, rfl, rfl, id, fun _ => id, id, Or.inl, fun _ => Nat.le_refl _⟩

theorem trans (first : SameCore strict a b) (second : SameCore strict b c) :
    SameCore strict a c where
  nextTsn := second.nextTsn.trans first.nextTsn
  cumulativeTsnAck := second.cumulativeTsnAck.trans first.cumulativeTsnAck
  outstandingData := second.outstandingData.trans first.outstandingData
  inFastRecovery := second.inFastRecovery.trans first.inFastRecovery
  fastRecoveryExitTsn := second.fastRecoveryExitTsn.trans first.fastRecoveryExitTsn
  burstCount := second.burstCount.trans first.burstCount
  paths := second.paths ∘ first.paths
  ips := fun ip member => second.ips ip (first.ips ip member)
  forming := first.forming ∘ second.forming
  transmits := by
    intro transmits
    rcases second.transmits transmits with before | forms
    · exact first.transmits before
    · exact Or.inr (first.forming forms)
  held := fun isStrict => Nat.le_trans (second.held isStrict) (first.held isStrict)

theorem fresh (same : SameCore strict a b) (new : FreshAssoc strict a) : FreshAssoc strict b where
  cumulativeTsnAck := by rw [same.cumulativeTsnAck, same.nextTsn, new.cumulativeTsnAck]
  outstandingData := same.outstandingData.trans new.outstandingData
  burstCount := same.burstCount.trans new.burstCount
  paths := same.paths new.paths
  held := fun isStrict => Nat.le_zero.mp (new.held isStrict ▸ same.held isStrict)

end SameCore

/-! ## What is queued and timed for a key -/

/-- A packet without DATA. -/
def NoData (packet : Packet) : Prop := packet.dataChunks = []

/-- The packets of new DATA queued for a key. -/
def newDataFor (s : Socket) (key : AssociationKey) : List Queued :=
  s.sends.newData.filter fun queued => decide (queued.deliverable.location = key)

/-- The DATA chunks queued for retransmission for a key, each with the address it goes to. -/
def rtxData (s : Socket) (key : AssociationKey) : List (BitVec 32 × DataChunkValue) :=
  s.sends.retransmission.flatMap fun queued =>
    if queued.deliverable.location = key then
      queued.deliverable.packet.dataChunks.map fun data =>
        (queued.deliverable.destination.addr, data)
    else []

/-- Whether the T3-rtx timer of an address is running. -/
def t3Active (s : Socket) (key : AssociationKey) (ip : BitVec 32) : Bool :=
  s.expirations.isActive ⟨key, .t3Rtx, ⟨⟨ip, 0#16⟩⟩⟩

def NothingQueued (s : Socket) (key : AssociationKey) :
    Prop := newDataFor s key = [] ∧ rtxData s key = []

def SameQueued (s s' : Socket) (key : AssociationKey) : Prop :=
  newDataFor s' key = newDataFor s key ∧ rtxData s' key = rtxData s key

theorem SameQueued.trans {s s' s'' : Socket} {key : AssociationKey} (first : SameQueued s s' key)
    (second : SameQueued s' s'' key) : SameQueued s s'' key :=
  ⟨second.1.trans first.1, second.2.trans first.2⟩

theorem SameQueued.nothing {s s' : Socket} {key : AssociationKey} (same : SameQueued s s' key)
    (empty : NothingQueued s key) : NothingQueued s' key :=
  ⟨same.1.trans empty.1, same.2.trans empty.2⟩

/-! ## Calm steps -/

theorem transmitsData_of_forming {state : AssociationState} (forms : forming state = true) :
    transmitsData state = false := by
  cases state <;> simp_all [forming, transmitsData]

theorem up_of_receivesData {state : AssociationState} (receives : receivesData state = true) :
    forming state = false := by
  cases state <;> first | rfl | cases receives

/-- What a calm step does to the association under a key. -/
inductive KeyStep (strict : Prop) (s s' : Socket) (key : AssociationKey) : Prop where
  | absent : s.find? key = none → s'.find? key = none → SameQueued s s' key →
      KeyStep strict s s' key
  | same (a b : Association) : s.find? key = some a → s'.find? key = some b → SameCore strict a b →
      SameQueued s s' key →
      (transmitsData a.state = true → transmitsData b.state = true → ∀ ip, t3Active s' key ip
        = t3Active s key ip) →
      KeyStep strict s s' key
  | gone : s'.find? key = none → NothingQueued s' key → KeyStep strict s s' key
  | fresh (b : Association) : s'.find? key = some b → FreshAssoc strict b → NothingQueued s' key →
      KeyStep strict s s' key

theorem KeyStep.trans {strict : Prop} {s s' s'' : Socket} {key : AssociationKey}
    (first : KeyStep strict s s' key) (second : KeyStep strict s' s'' key) :
    KeyStep strict s s'' key := by
  cases second with
  | gone after empty => exact .gone after empty
  | fresh b after new empty => exact .fresh b after new empty
  | absent before after queued =>
    cases first with
    | absent before' _ queued' => exact .absent before' after (queued'.trans queued)
    | same a b _ here => rw [before] at here; cases here
    | gone _ empty => exact .gone after (queued.nothing empty)
    | fresh b here => rw [before] at here; cases here
  | same b c before after core queued timers =>
    cases first with
    | absent _ here => rw [before] at here; cases here
    | same a b' before' here core' queued' timers' =>
      rw [before] at here
      cases here
      refine .same a c before' after (core'.trans core) (queued'.trans queued) fun did does ip => ?_
      have still : transmitsData b.state = true := by
        rcases core.transmits does with still | forms
        · exact still
        · exact absurd did (by simp [transmitsData_of_forming (core'.forming forms)])
      rw [timers still does ip]
      exact timers' did still ip
    | gone here => rw [before] at here; cases here
    | fresh b' here new empty =>
      rw [before] at here
      cases here
      exact .fresh c after (core.fresh new) (queued.nothing empty)

/-- What a step does to the queues and timers whatever the key: new DATA only leaves
its queue, and what else is queued or to be retried has no DATA in it. -/
structure Background (strict : Prop) (s s' : Socket) : Prop where
  newData : s'.sends.newData.Sublist s.sends.newData
  nextId : s.sends.nextId ≤ s'.sends.nextId
  control : ∀ q ∈ s'.sends.control, q ∈ s.sends.control ∨ NoData q.deliverable.packet
  retransmission : ∀ q ∈ s'.sends.retransmission, NoData q.deliverable.packet
    ∨ ∃ q' ∈ s.sends.retransmission, q.deliverable.packet.chunks.Sublist
      q'.deliverable.packet.chunks
  retries : ∀ f ∈ s'.expirations.queue, f ∈ s.expirations.queue ∨ NoData f.retry.packet
  received : strict → ∀ key, s'.receives.bufferedBytes key ≤ s.receives.bufferedBytes key

theorem Background.trans {strict : Prop} {s s' s'' : Socket} (first : Background strict s s')
    (second : Background strict s' s'') : Background strict s s'' where
  newData := second.newData.trans first.newData
  nextId := Nat.le_trans first.nextId second.nextId
  control := by
    intro q member
    rcases second.control q member with old | none
    · exact first.control q old
    · exact Or.inr none
  retransmission := by
    intro q member
    rcases second.retransmission q member with none | ⟨q', old, sub⟩
    · exact Or.inl none
    · rcases first.retransmission q' old with none | ⟨q'', older, sub'⟩
      · refine Or.inl (List.eq_nil_iff_forall_not_mem.mpr fun data inside => ?_)
        obtain ⟨chunk, here, value⟩ := List.mem_filterMap.mp inside
        have inside' : data ∈ q'.deliverable.packet.dataChunks :=
          List.mem_filterMap.mpr ⟨chunk, sub.subset here, value⟩
        rw [none] at inside'
        cases inside'
      · exact Or.inr ⟨q'', older, sub.trans sub'⟩
  retries := by
    intro f member
    rcases second.retries f member with old | none
    · exact first.retries f old
    · exact Or.inr none
  received := fun isStrict key => Nat.le_trans (second.received isStrict key)
    (first.received isStrict key)

/-- A step that leaves the sender of every association alone. -/
structure Calm (strict : Prop) (s s' : Socket) : Prop where
  background : Background strict s s'
  keys : ∀ key, KeyStep strict s s' key

/-- A step that does so but for one key. -/
structure CalmAside (strict : Prop) (key : AssociationKey) (s s' : Socket) : Prop where
  background : Background strict s s'
  keys : ∀ k, k ≠ key → KeyStep strict s s' k

namespace Calm

variable {strict : Prop} {s s' s'' : Socket}

theorem trans (first : Calm strict s s') (second : Calm strict s' s'') : Calm strict s s'' :=
  ⟨first.background.trans second.background, fun key => (first.keys key).trans (second.keys key)⟩

theorem aside (calm : Calm strict s s') (key : AssociationKey) : CalmAside strict key s s' :=
  ⟨calm.background, fun k _ => calm.keys k⟩

end Calm

namespace CalmAside

variable {strict : Prop} {s s' s'' : Socket} {key : AssociationKey}

theorem trans (first : CalmAside strict key s s') (second : CalmAside strict key s' s'') :
    CalmAside strict key s s'' :=
  ⟨first.background.trans second.background, fun k apart =>
    (first.keys k apart).trans (second.keys k apart)⟩

theorem close (aside : CalmAside strict key s s') (here : KeyStep strict s s' key) :
    Calm strict s s' where
  background := aside.background
  keys k := by
    by_cases same : k = key
    · rw [same]
      exact here
    · exact aside.keys k same

end CalmAside

/-- Nothing queued or timed changed. -/
structure SameQueues (strict : Prop) (s s' : Socket) : Prop where
  sends : s'.sends = s.sends
  expirations : s'.expirations = s.expirations
  received : strict → ∀ key, s'.receives.bufferedBytes key ≤ s.receives.bufferedBytes key

theorem SameQueues.background {strict : Prop} {s s' : Socket} (same : SameQueues strict s s') :
    Background strict s s' where
  newData := by rw [same.sends]
  nextId := by rw [same.sends]
  control := by
    rw [same.sends]
    exact fun q => Or.inl
  retransmission := by
    rw [same.sends]
    exact fun q member => Or.inr ⟨q, member, .refl _⟩
  retries := by
    rw [same.expirations]
    exact fun f => Or.inl
  received := same.received

theorem SameQueues.queued {strict : Prop} {s s' : Socket} (same : SameQueues strict s s')
    (key : AssociationKey) :
    SameQueued s s' key := by
  simp only [SameQueued, newDataFor, rtxData, same.sends, and_self]

/-- An association is what it was but for what does not matter to its sender. -/
theorem KeyStep.kept {strict : Prop} {s s' : Socket} {key : AssociationKey}
    (found : s'.find? key = s.find? key) (queued : SameQueued s s' key)
    (timers : ∀ ip, t3Active s' key ip = t3Active s key ip) : KeyStep strict s s' key := by
  cases here : s.find? key with
  | none => exact .absent here (found.trans here) queued
  | some a => exact .same a a here (found.trans here) (.refl a) queued fun _ _ => timers

/-! ## The operations handlers are made of -/

namespace Calm

variable {strict : Prop} (s : Socket) (key : AssociationKey)

/-- A step that leaves associations, queues and timers as they are. -/
theorem of_same {s s' : Socket} (same : SameQueues strict s s')
    (found : ∀ k, s'.find? k = s.find? k) :
    Calm strict s s' where
  background := same.background
  keys k := .kept (found k) (same.queued k) fun ip => by simp only [t3Active, same.expirations]

theorem refl : Calm strict s s := of_same ⟨rfl, rfl, fun _ _ => Nat.le_refl _⟩ fun _ => rfl

theorem notify (payload : NotificationPayload) : Calm strict s (s.notify key payload) :=
  of_same ⟨rfl, rfl, fun _ _ => Nat.le_refl _⟩ fun _ => rfl

theorem forgetPeerAddresses : Calm strict s (s.forgetPeerAddresses key) :=
  of_same ⟨rfl, rfl, fun _ _ => Nat.le_refl _⟩ fun _ => rfl

theorem update (f : Association → Association)
    (keeps : ∀ a, s.find? key = some a → SameCore strict a (f a)) :
    Calm strict s (s.updateAssociation key f) := by
  have same : SameQueues strict s (s.updateAssociation key f) :=
    ⟨rfl, rfl, fun _ _ => Nat.le_refl _⟩
  refine ⟨same.background, fun k => ?_⟩
  by_cases here : k = key
  · subst here
    cases found : s.find? k with
    | none => exact .absent found (by simp [found]) (same.queued k)
    | some a => exact .same a (f a) found (by simp [found]) (keeps
        a found) (same.queued k) fun _ _ _ => rfl
  · exact .kept (by simp [here]) (same.queued k) fun _ => rfl

theorem set {a b : Association} (found : s.find? key = some a) (keeps : SameCore strict a b) :
    Calm strict s (s.setAssociation key b) := by
  have same : SameQueues strict s (s.setAssociation key b) := ⟨rfl, rfl, fun _ _ => Nat.le_refl _⟩
  refine ⟨same.background, fun k => ?_⟩
  by_cases here : k = key
  · subst here
    exact .same a b found (by simp) keeps (same.queued k) fun _ _ _ => rfl
  · exact .kept (by simp [here]) (same.queued k) fun _ => rfl

/-- A new association, under a key nothing is queued for. -/
theorem create {s s' : Socket} {key : AssociationKey} {b : Association}
    (same : SameQueues strict s s') (here : s'.find? key = some b)
    (others : ∀ k, k ≠ key → s'.find? k = s.find? k) (new : FreshAssoc strict b)
    (empty : NothingQueued s key) : Calm strict s s' := by
  refine ⟨same.background, fun k => ?_⟩
  by_cases eq : k = key
  · rw [eq]
    exact .fresh b here new ((same.queued key).nothing empty)
  · exact .kept (others k eq) (same.queued k) fun ip => by simp only [t3Active, same.expirations]

/-! ### Queues -/

theorem control {d : Deliverable} (none : NoData d.packet) :
    Calm strict s (s.enqueuePacket d .control) := by
  have sends : (s.enqueuePacket d .control).sends.newData = s.sends.newData
      ∧ (s.enqueuePacket d .control).sends.retransmission = s.sends.retransmission
      ∧ s.sends.nextId ≤ (s.enqueuePacket d .control).sends.nextId
      ∧ ∀ q ∈ (s.enqueuePacket d .control).sends.control, q ∈ s.sends.control
      ∨ NoData q.deliverable.packet := by
    simp only [Socket.enqueuePacket, SendQueue.enqueue]
    split
    · exact ⟨rfl, rfl, Nat.le_refl _, fun _ => Or.inl⟩
    · refine ⟨rfl, rfl, Nat.le_succ _, fun q member => ?_⟩
      rcases List.mem_append.mp member with old | new
      · exact Or.inl old
      · rw [List.mem_singleton.mp new]
        exact Or.inr none
  obtain ⟨newData, retransmission, nextId, noData⟩ := sends
  refine ⟨⟨by rw [newData], nextId, noData, ?_, fun _ => Or.inl, fun _ _ => Nat.le_refl _⟩,
    fun k => ?_⟩
  · rw [retransmission]
    exact fun q member => Or.inr ⟨q, member, .refl _⟩
  · refine .kept rfl ?_ fun _ => rfl
    simp only [SameQueued, newDataFor, rtxData, newData, retransmission, and_self]

theorem reply {destination : SockAddr} {packet : Packet} (none : NoData packet) :
    Calm strict s (s.reply key destination packet) := control s none

theorem retry {d : Deliverable} (none : NoData d.packet) :
    Calm strict s (s.enqueuePacket d .retransmission) := by
  refine ⟨⟨List.Sublist.refl _, Nat.le_succ _, fun _ => Or.inl, ?_, fun _ => Or.inl, fun _ _ =>
    Nat.le_refl _⟩,
    fun k => .kept rfl ⟨rfl, ?_⟩ fun _ => rfl⟩
  · intro q member
    rcases List.mem_append.mp member with old | new
    · exact Or.inr ⟨q, old, .refl _⟩
    · rw [List.mem_singleton.mp new]
      exact Or.inl none
  · unfold NoData at none
    simp [rtxData, Socket.enqueuePacket, SendQueue.enqueue, none]

end Calm

/-! ### Dropping chunks -/

theorem dataChunks_filter {chunks : List Chunk} {header : CommonHeader} {keep : Chunk → Bool}
    (kept : ∀ c, c.type = .data → keep c = true) :
    Packet.dataChunks ⟨header, chunks.filter keep⟩ = Packet.dataChunks ⟨header, chunks⟩ := by
  unfold Packet.dataChunks
  simp only
  rw [List.filterMap_filter]
  apply List.filterMap_congr
  intro c _
  by_cases data : c.type = .data
  · rw [if_pos (kept c data)]
  · split
    · rfl
    · cases value : c.value <;> simp_all [Chunk.type]

/-- What is left of a packet's chunks. -/
def chunksLeft (sel : Queued → Bool) (drop : Queued → Chunk → Bool) (q : Queued) : List Chunk :=
  if sel q then q.deliverable.packet.chunks.filter fun c =>
    !drop q c else q.deliverable.packet.chunks

theorem dropChunks_cons (sel : Queued → Bool) (drop : Queued → Chunk → Bool) (q : Queued)
    (rest : List Queued) :
    dropChunks sel drop (q :: rest) = (if (chunksLeft sel drop q).isEmpty then []
      else [{ q with deliverable := { q.deliverable with
        packet := { q.deliverable.packet with chunks := chunksLeft sel drop q } } }])
      ++ dropChunks sel drop rest := by
  unfold dropChunks
  rw [List.filterMap_cons]
  by_cases none : (chunksLeft sel drop q).isEmpty = true
  · rw [if_pos none]
    unfold chunksLeft at none
    simp only [none, if_true]
    rfl
  · rw [if_neg none]
    unfold chunksLeft at none
    simp only [none]
    rfl

/-- The DATA of a queue after chunks were dropped from it. -/
theorem flatMap_dropChunks {α : Type} (sel : Queued → Bool) (drop : Queued → Chunk → Bool)
    (queue : List Queued) (view : AssociationKey → SockAddr → List DataChunkValue → List α)
    (empty : ∀ k d, view k d [] = []) :
    (dropChunks sel drop queue).flatMap (fun q =>
        view q.deliverable.location q.deliverable.destination q.deliverable.packet.dataChunks)
      = queue.flatMap fun q => view q.deliverable.location q.deliverable.destination
          (Packet.dataChunks ⟨q.deliverable.packet.header, chunksLeft sel drop q⟩) := by
  induction queue with
  | nil => rfl
  | cons q rest ih =>
    rw [dropChunks_cons, List.flatMap_append, ih, List.flatMap_cons]
    congr 1
    split
    · next none =>
      rw [List.isEmpty_iff] at none
      rw [none, show Packet.dataChunks ⟨q.deliverable.packet.header, []⟩ = [] from rfl, empty]
      rfl
    · simp

theorem chunks_dropChunks {sel : Queued → Bool} {drop : Queued → Chunk → Bool} {queue : List Queued}
    {q : Queued} (member : q ∈ dropChunks sel drop queue) :
    ∃ q' ∈ queue, q.deliverable.packet.chunks.Sublist q'.deliverable.packet.chunks := by
  induction queue with
  | nil => cases member
  | cons first rest ih =>
    rw [dropChunks_cons, List.mem_append] at member
    rcases member with here | later
    · split at here
      · cases here
      · rw [List.mem_singleton.mp here]
        refine ⟨first, List.mem_cons_self, ?_⟩
        simp only [chunksLeft]
        split
        · exact List.filter_sublist
        · exact .refl _
    · obtain ⟨q', old, sub⟩ := ih later
      exact ⟨q', List.mem_cons_of_mem _ old, sub⟩

namespace Calm

variable {strict : Prop} (s : Socket) (key : AssociationKey)

theorem removeRetransmissionsOfType {type : ChunkType} (destination : Option SockAddr)
    (other : type ≠ .data) :
    Calm strict s (s.removeRetransmissionsOfType key type destination) := by
  refine ⟨⟨List.Sublist.refl _, Nat.le_refl _, fun _ => Or.inl, ?_, fun _ => Or.inl, fun _ _ =>
    Nat.le_refl _⟩,
    fun k => .kept rfl ⟨rfl, ?_⟩ fun _ => rfl⟩
  · intro q member
    obtain ⟨q', old, sub⟩ := chunks_dropChunks member
    exact Or.inr ⟨q', old, sub⟩
  · have dropped := flatMap_dropChunks
      (fun queued => decide (queued.deliverable.location = key)
        && destination.all fun d => d.addr == queued.deliverable.destination.addr)
      (fun queued chunk => containsChunk queued.deliverable.packet type
        && (decide (chunk.type = type) || decide (chunk.type = .opError)))
      s.sends.retransmission
      (fun location destination data => if location = k then data.map fun d =>
        (destination.addr, d) else [])
      (by simp)
    unfold rtxData
    simp only [Socket.removeRetransmissionsOfType, SendQueue.removeRetransmissionsOfType]
    rw [dropped]
    apply List.flatMap_congr
    intro q _
    unfold chunksLeft
    split
    · split
      · rw [dataChunks_filter]
        intro c data
        simp [data, Ne.symm other]
      · rfl
    · rfl

/-! ### Timers -/

theorem schedule {timer : ExpirationKey} (expiration : Time) {retry : Deliverable}
    (other : timer.type ≠ .t3Rtx) (none : NoData retry.packet) :
    Calm strict s (s.scheduleExpiration timer expiration retry) := by
  refine ⟨⟨List.Sublist.refl _, Nat.le_refl _, fun _ => Or.inl, fun q member =>
    Or.inr ⟨q, member, .refl _⟩, ?_, fun _ _ => Nat.le_refl _⟩, fun k =>
      .kept rfl ⟨rfl, rfl⟩ fun ip => ?_⟩
  · intro f member
    rcases List.mem_append.mp member with old | new
    · exact Or.inl old
    · rw [List.mem_singleton.mp new]
      exact Or.inr none
  · have apart : (⟨k, .t3Rtx, ⟨⟨ip, 0#16⟩⟩⟩ : ExpirationKey) ≠ timer := by
      rintro rfl
      exact other rfl
    simp [t3Active, Socket.scheduleExpiration, ExpirationQueue.schedule, ExpirationQueue.isActive,
      KeyMap.contains_put, apart]

/-- Timers are stopped, none of them a T3-rtx timer. -/
theorem of_active {s' : Socket} (sends : s'.sends = s.sends) (receives : s'.receives = s.receives)
    (associations : s'.associations = s.associations)
    (queue : s'.expirations.queue = s.expirations.queue)
    (timers : ∀ k ip, t3Active s' k ip = t3Active s k ip) : Calm strict s s' := by
  refine ⟨⟨by rw [sends], by rw [sends], by rw [sends]; exact fun _ => Or.inl, ?_, ?_, ?_⟩,
    fun k => ?_⟩
  · rw [sends]
    exact fun q member => Or.inr ⟨q, member, .refl _⟩
  · rw [queue]
    exact fun _ => Or.inl
  · rw [receives]
    exact fun _ _ => Nat.le_refl _
  · refine .kept ?_ ?_ (timers k)
    · simp only [Socket.find?, associations]
    · simp only [SameQueued, newDataFor, rtxData, sends, and_self]

theorem cancel {timer : ExpirationKey} (other : timer.type ≠ .t3Rtx) :
    Calm strict s (s.cancelExpiration timer) := by
  refine of_active s rfl rfl rfl rfl fun k ip => ?_
  have apart : (⟨k, .t3Rtx, ⟨⟨ip, 0#16⟩⟩⟩ : ExpirationKey) ≠ timer := by
    rintro rfl
    exact other rfl
  simp [t3Active, Socket.cancelExpiration, ExpirationQueue.cancel, ExpirationQueue.isActive,
    KeyMap.contains, apart]

theorem cancelOfType {type : ExpirationTimerType} (other : type ≠ .t3Rtx) :
    Calm strict s (s.cancelExpirationsOfType key type) := by
  refine of_active s rfl rfl rfl rfl fun k ip => ?_
  simp only [t3Active, Socket.cancelExpirationsOfType, ExpirationQueue.cancelAllOfType,
    ExpirationQueue.isActive, KeyMap.contains, KeyMap.get?_filterMap]
  cases s.expirations.active.get? ⟨k, .t3Rtx, ⟨⟨ip, 0#16⟩⟩⟩ with
  | none => rfl
  | some generation => simp [Ne.symm other]

/-- The T3-rtx timers of an association that sends no more. -/
theorem cancelT3 (silent : ∀ a, s.find? key = some a → transmitsData a.state = false) :
    Calm strict s (s.cancelExpirationsOfType key .t3Rtx) := by
  refine ⟨⟨List.Sublist.refl _, Nat.le_refl _, fun _ => Or.inl, fun q member =>
    Or.inr ⟨q, member, .refl _⟩,
    fun _ => Or.inl, fun _ _ => Nat.le_refl _⟩, fun k => ?_⟩
  by_cases same : k = key
  · subst same
    cases found : s.find? k with
    | none => exact .absent found found ⟨rfl, rfl⟩
    | some a =>
      refine .same a a found found (.refl a) ⟨rfl, rfl⟩ fun transmits => ?_
      rw [silent a found] at transmits
      cases transmits
  · refine .kept rfl ⟨rfl, rfl⟩ fun ip => ?_
    simp only [t3Active, Socket.cancelExpirationsOfType, ExpirationQueue.cancelAllOfType,
      ExpirationQueue.isActive, KeyMap.contains, KeyMap.get?_filterMap]
    cases s.expirations.active.get? ⟨k, .t3Rtx, ⟨⟨ip, 0#16⟩⟩⟩ with
    | none => rfl
    | some generation => simp [same]

end Calm

/-! ### Tearing down -/

namespace ReceiveQueue

/-- The bytes that count of an entry. -/
theorem bufferedBytes_of_get? {q : ReceiveQueue} {key : AssociationKey} {entry : PendingMessages}
    (found : q.pending.get? key = some entry) :
    q.bufferedBytes key = entry.bytes - entry.detached := by
  simp [bufferedBytes, found]

theorem bufferedBytes_detach_le (q : ReceiveQueue) (key k : AssociationKey) :
    (q.detach key).bufferedBytes k ≤ q.bufferedBytes k := by
  unfold detach bufferedBytes
  simp only [KeyMap.get?_modify]
  by_cases same : k = key
  · subst same
    cases q.pending.get? k <;> simp
  · simp [same]

theorem bufferedBytes_abandonOpen_le (q : ReceiveQueue) (key k : AssociationKey) :
    (q.abandonOpen key).bufferedBytes k ≤ q.bufferedBytes k := by
  unfold abandonOpen
  cases found : q.pending.get? key with
  | none => exact Nat.le_refl _
  | some entry =>
    simp only
    split
    · exact Nat.le_refl _
    · next tail last =>
      split
      · exact Nat.le_refl _
      · by_cases same : k = key
        · subst same
          rw [bufferedBytes_of_get? found]
          split
          · simp [bufferedBytes]
          · simp only [bufferedBytes, KeyMap.get?_put, if_true]
            omega
        · split
          · simp [bufferedBytes, same]
          · simp [bufferedBytes, same]

end ReceiveQueue

/-- Leaving out what contributes nothing. -/
theorem flatMap_filter_of {α β : Type} {p : α → Bool} {f : α → List β} (l : List α)
    (none : ∀ a, p a = false → f a = []) : (l.filter p).flatMap f = l.flatMap f := by
  induction l with
  | nil => rfl
  | cons a rest ih =>
    cases keep : p a with
    | true => simp [keep, ih]
    | false => simp [keep, ih, none a keep]

namespace CalmAside

variable {strict : Prop} (s : Socket) (key : AssociationKey)

theorem erase : CalmAside strict key s (s.eraseAssociation key) := by
  have same : SameQueues strict s (s.eraseAssociation key) := ⟨rfl, rfl, fun _ _ => Nat.le_refl _⟩
  exact ⟨same.background, fun k apart => .kept (by simp [apart]) (same.queued k) fun _ => rfl⟩

theorem set (b : Association) : CalmAside strict key s (s.setAssociation key b) := by
  have same : SameQueues strict s (s.setAssociation key b) := ⟨rfl, rfl, fun _ _ => Nat.le_refl _⟩
  exact ⟨same.background, fun k apart => .kept (by simp [apart]) (same.queued k) fun _ => rfl⟩

theorem cancelAll : CalmAside strict key s (s.cancelExpirations key) := by
  refine ⟨⟨List.Sublist.refl _, Nat.le_refl _, fun _ => Or.inl, fun q member =>
    Or.inr ⟨q, member, .refl _⟩,
    fun _ => Or.inl, fun _ _ => Nat.le_refl _⟩, fun k apart => .kept rfl ⟨rfl, rfl⟩ fun ip => ?_⟩
  simp only [t3Active, Socket.cancelExpirations, ExpirationQueue.cancelAll,
    ExpirationQueue.isActive, KeyMap.contains, KeyMap.get?_filterMap]
  cases s.expirations.active.get? ⟨k, .t3Rtx, ⟨⟨ip, 0#16⟩⟩⟩ with
  | none => rfl
  | some generation => simp [apart]

theorem purge : CalmAside strict key s (s.purgeSends key) := by
  refine ⟨⟨List.filter_sublist, Nat.le_refl _, fun q member =>
    Or.inl (List.mem_of_mem_filter member),
    fun q member => Or.inr ⟨q, List.mem_of_mem_filter member, .refl _⟩, fun _ => Or.inl,
    fun _ _ => Nat.le_refl _⟩, fun k apart => .kept rfl ⟨?_, ?_⟩ fun _ => rfl⟩
  · simp only [newDataFor, Socket.purgeSends, SendQueue.purge, List.filter_filter]
    apply List.filter_congr
    intro q _
    by_cases here : q.deliverable.location = k
    · simp [here, apart]
    · simp [here]
  · simp only [rtxData, Socket.purgeSends, SendQueue.purge]
    apply flatMap_filter_of
    intro q gone
    have here : q.deliverable.location = key := by simpa using gone
    rw [if_neg (by rw [here]; exact Ne.symm apart)]

end CalmAside

/-- A purge leaves nothing queued for its key. -/
theorem nothingQueued_purge (s : Socket) (key : AssociationKey) :
    NothingQueued (s.purgeSends key) key := by
  constructor
  · simp only [newDataFor, Socket.purgeSends, SendQueue.purge, List.filter_filter]
    apply List.filter_eq_nil_iff.mpr
    intro q _
    simp
  · simp only [rtxData, Socket.purgeSends, SendQueue.purge]
    apply List.flatMap_eq_nil_iff.mpr
    intro q member
    have apart := (List.mem_filter.mp member).2
    rw [if_neg (by simpa using apart)]

namespace Calm

variable {strict : Prop} (s : Socket) (key : AssociationKey)

theorem detachReceives : Calm strict s (s.detachReceives key) :=
  of_same ⟨rfl, rfl, fun _ k => ReceiveQueue.bufferedBytes_detach_le _ _ k⟩ fun _ => rfl

theorem abandonPartialDelivery (assoc : Association) :
    Calm strict s (s.abandonPartialDelivery key assoc) := by
  unfold Socket.abandonPartialDelivery
  split
  · exact refl s
  · exact of_same ⟨rfl, rfl, fun _ k => ReceiveQueue.bufferedBytes_abandonOpen_le _ _ k⟩ fun _ =>
      rfl

/-- Whatever a teardown does before its purge, the association is gone and nothing is
queued for it. -/
theorem gone {s s' : Socket} {key : AssociationKey} (aside : CalmAside strict key s s')
    (after : s'.find? key = none) : Calm strict s (s'.purgeSends key) :=
  (aside.trans (.purge s' key)).close (.gone after (nothingQueued_purge s' key))

theorem removeAssociation : Calm strict s (s.removeAssociation key) := by
  unfold Socket.removeAssociation
  simp only
  cases found : s.find? key with
  | none =>
    refine gone ?_ found
    exact ((((detachReceives s key).trans (forgetPeerAddresses _ key)).aside key).trans
      (.cancelAll _ key))
  | some assoc =>
    refine gone ?_ (by simp)
    exact (((abandonPartialDelivery s key assoc).aside key).trans (.erase _ key)).trans
      ((((detachReceives _ key).trans (forgetPeerAddresses _ key)).aside key).trans
        (.cancelAll _ key))

end Calm

end SctpStack
