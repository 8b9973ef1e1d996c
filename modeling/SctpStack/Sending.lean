import SctpStack.CalmHandlers
import Mathlib.Algebra.Order.BigOperators.Group.List

/-!
# One sender at a time

What a step does to the queues and timers of the association it works on, one lemma
for each operation, and that it leaves every other association alone (`Aside`). The
shape of the queues themselves (`QueuesOk`) is an invariant of its own: DATA is queued
only in packets of nothing else, and nothing that is retried carries any.
-/

namespace SctpStack

/-! ## The shape of the queues -/

/-- A packet of nothing but DATA. -/
def OnlyData (packet : Packet) : Prop := ∀ chunk ∈ packet.chunks, chunk.type = .data

/-- What is queued and what is to be retried. -/
structure QueuesOk (s : Socket) : Prop where
  control : ∀ q ∈ s.sends.control, NoData q.deliverable.packet
  retransmission : ∀ q ∈ s.sends.retransmission, NoData q.deliverable.packet
    ∨ OnlyData q.deliverable.packet
  newData : ∀ q ∈ s.sends.newData, OnlyData q.deliverable.packet
  distinct : (s.sends.newData.map Queued.id).Nodup
  known : ∀ q ∈ s.sends.newData, q.id < s.sends.nextId
  retries : ∀ f ∈ s.expirations.queue, NoData f.retry.packet

theorem NoData.subset {p p' : Packet} (none : NoData p) (sub : p'.chunks ⊆ p.chunks) :
    NoData p' := by
  refine List.eq_nil_iff_forall_not_mem.mpr fun data inside => ?_
  obtain ⟨chunk, here, value⟩ := List.mem_filterMap.mp inside
  have before : data ∈ p.dataChunks := List.mem_filterMap.mpr ⟨chunk, sub here, value⟩
  rw [none] at before
  cases before

namespace QueuesOk

variable {s s' : Socket}

theorem fresh (address : SockAddr) : QueuesOk (.fresh address) :=
  ⟨by simp [Socket.fresh, SendQueue.fresh], by simp [Socket.fresh, SendQueue.fresh],
    by simp [Socket.fresh, SendQueue.fresh], by simp [Socket.fresh, SendQueue.fresh],
    by simp [Socket.fresh, SendQueue.fresh], by simp [Socket.fresh, ExpirationQueue.fresh]⟩

theorem of_background {strict : Prop} (ok : QueuesOk s) (background : Background strict s s') :
    QueuesOk s' where
  control := by
    intro q member
    rcases background.control q member with old | none
    · exact ok.control q old
    · exact none
  retransmission := by
    intro q member
    rcases background.retransmission q member with none | ⟨q', old, sub⟩
    · exact Or.inl none
    · rcases ok.retransmission q' old with none | only
      · exact Or.inl (none.subset sub.subset)
      · exact Or.inr fun chunk here => only chunk (sub.subset here)
  newData := fun q member => ok.newData q (background.newData.subset member)
  distinct := ok.distinct.sublist (background.newData.map _)
  known := fun q member => Nat.lt_of_lt_of_le (ok.known q (background.newData.subset member))
    background.nextId
  retries := by
    intro f member
    rcases background.retries f member with old | none
    · exact ok.retries f old
    · exact none

/-- Queues and timers are as they were. -/
theorem of_eq (ok : QueuesOk s) (sends : s'.sends = s.sends)
    (expirations : s'.expirations = s.expirations) :
    QueuesOk s' := by
  refine ⟨?_, ?_, ?_, ?_, ?_, ?_⟩
  · rw [sends]; exact ok.control
  · rw [sends]; exact ok.retransmission
  · rw [sends]; exact ok.newData
  · rw [sends]; exact ok.distinct
  · rw [sends]; exact ok.known
  · rw [expirations]; exact ok.retries

/-- Chunks are dropped from what is to be retransmitted. -/
theorem dropped (ok : QueuesOk s) {sel : Queued → Bool} {drop : Queued → Chunk → Bool} :
    QueuesOk { s with sends := { s.sends
      with retransmission := dropChunks sel drop s.sends.retransmission } } := by
  refine ⟨ok.control, fun q member => ?_, ok.newData, ok.distinct, ok.known, ok.retries⟩
  obtain ⟨q', old, sub⟩ := chunks_dropChunks member
  rcases ok.retransmission q' old with none | only
  · exact Or.inl (none.subset sub.subset)
  · exact Or.inr fun chunk here => only chunk (sub.subset here)

theorem retransmit (ok : QueuesOk s) {d : Deliverable} (only : OnlyData d.packet) :
    QueuesOk (s.enqueuePacket d .retransmission) := by
  refine ⟨ok.control, fun q member => ?_, ok.newData, ok.distinct,
    fun q member => Nat.lt_succ_of_lt (ok.known q member), ok.retries⟩
  rcases List.mem_append.mp member with old | new
  · exact ok.retransmission q old
  · rw [List.mem_singleton.mp new]
    exact Or.inr only

theorem sendNew (ok : QueuesOk s) {d : Deliverable} (only : OnlyData d.packet) :
    QueuesOk (s.enqueuePacket d .newData) := by
  refine ⟨ok.control, ok.retransmission, fun q member => ?_, ?_, fun q member => ?_, ok.retries⟩
  · rcases List.mem_append.mp member with old | new
    · exact ok.newData q old
    · rw [List.mem_singleton.mp new]
      exact only
  · simp only [Socket.enqueuePacket, SendQueue.enqueue, List.map_append, List.map_cons,
      List.map_nil]
    refine List.nodup_append.mpr ⟨ok.distinct, by simp, ?_⟩
    intro id old id' new same
    obtain ⟨q, member, rfl⟩ := List.mem_map.mp old
    rw [List.mem_singleton.mp new] at same
    exact absurd (ok.known q member) (by omega)
  · rcases List.mem_append.mp member with old | new
    · exact Nat.lt_succ_of_lt (ok.known q old)
    · rw [List.mem_singleton.mp new]
      exact Nat.lt_succ_self _

theorem schedule (ok : QueuesOk s) (timer : ExpirationKey) (expiration : Time) {retry : Deliverable}
    (none : NoData retry.packet) : QueuesOk (s.scheduleExpiration timer expiration retry) := by
  refine ⟨ok.control, ok.retransmission, ok.newData, ok.distinct, ok.known, fun f member => ?_⟩
  rcases List.mem_append.mp member with old | new
  · exact ok.retries f old
  · rw [List.mem_singleton.mp new]
    exact none

theorem cancel (ok : QueuesOk s) (timer : ExpirationKey) : QueuesOk (s.cancelExpiration timer) :=
  ⟨ok.control, ok.retransmission, ok.newData, ok.distinct, ok.known, ok.retries⟩

end QueuesOk

/-! ## The size of what is queued -/

/-- The DATA of a packet leaves room for no more than the headers on the path. -/
def FitsPath (packet : Packet) : Prop := dataBytes packet ≤ defaultPmdcs

theorem FitsPath.sublist {p p' : Packet} (fits : FitsPath p) (fewer : p'.chunks.Sublist p.chunks) :
    FitsPath p' := by
  have data : p'.dataChunks.Sublist p.dataChunks := fewer.filterMap _
  exact Nat.le_trans ((data.map dataChunkWireSize).sum_le_sum fun _ _ => Nat.zero_le _) fits

theorem FitsPath.of_noData {p : Packet} (none : NoData p) : FitsPath p := by
  rw [FitsPath, dataBytes, none]
  exact Nat.zero_le _

theorem FitsPath.chunk {p : Packet} (fits : FitsPath p) {data : DataChunkValue}
    (member : data ∈ p.dataChunks) :
    dataChunkWireSize data ≤ defaultPmdcs :=
  Nat.le_trans (List.le_sum_of_mem (List.mem_map_of_mem member)) fits

/-- Every packet that is queued for sending fits. -/
structure QueuesFit (s : Socket) : Prop where
  retransmission : ∀ q ∈ s.sends.retransmission, FitsPath q.deliverable.packet
  newData : ∀ q ∈ s.sends.newData, FitsPath q.deliverable.packet

namespace QueuesFit

variable {s s' : Socket}

theorem of_background {strict : Prop} (fit : QueuesFit s) (background : Background strict s s') :
    QueuesFit s' where
  retransmission := by
    intro q member
    rcases background.retransmission q member with none | ⟨q', old, fewer⟩
    · exact .of_noData none
    · exact (fit.retransmission q' old).sublist fewer
  newData := fun q member => fit.newData q (background.newData.subset member)

theorem of_sends (fit : QueuesFit s) (sends : s'.sends = s.sends) : QueuesFit s' := by
  refine ⟨?_, ?_⟩
  · rw [sends]
    exact fit.retransmission
  · rw [sends]
    exact fit.newData

/-- Nor is a chunk to be retransmitted too large. -/
theorem rtx (fit : QueuesFit s) {key : AssociationKey} {x : BitVec 32 × DataChunkValue}
    (queued : x ∈ rtxData s key) :
    dataChunkWireSize x.2 ≤ defaultPmdcs := by
  obtain ⟨q, member, inside⟩ := List.mem_flatMap.mp queued
  split at inside
  · obtain ⟨data, carried, rfl⟩ := List.mem_map.mp inside
    exact (fit.retransmission q member).chunk carried
  · cases inside

theorem dropped (fit : QueuesFit s) {sel : Queued → Bool} {drop : Queued → Chunk → Bool} :
    QueuesFit { s with sends := { s.sends
      with retransmission := dropChunks sel drop s.sends.retransmission } } := by
  refine ⟨fun q member => ?_, fit.newData⟩
  obtain ⟨q', old, fewer⟩ := chunks_dropChunks member
  exact (fit.retransmission q' old).sublist fewer

theorem retransmit (fit : QueuesFit s) {d : Deliverable} (fits : FitsPath d.packet) :
    QueuesFit (s.enqueuePacket d .retransmission) := by
  refine ⟨fun q member => ?_, fit.newData⟩
  rcases List.mem_append.mp member with old | new
  · exact fit.retransmission q old
  · rw [List.mem_singleton.mp new]
    exact fits

theorem sendNew (fit : QueuesFit s) {d : Deliverable} (fits : FitsPath d.packet) :
    QueuesFit (s.enqueuePacket d .newData) := by
  refine ⟨fit.retransmission, fun q member => ?_⟩
  rcases List.mem_append.mp member with old | new
  · exact fit.newData q old
  · rw [List.mem_singleton.mp new]
    exact fits

end QueuesFit

/-! ## What is queued for a key -/

section Queued

variable (s : Socket) (key k : AssociationKey)

@[simp] theorem newDataFor_set (assoc : Association) :
    newDataFor (s.setAssociation key assoc) k = newDataFor s k := rfl

@[simp] theorem newDataFor_removeOfType (type : ChunkType) (d : Option SockAddr) :
    newDataFor (s.removeRetransmissionsOfType key type d) k = newDataFor s k := rfl

@[simp] theorem t3Active_removeOfType (type : ChunkType) (d : Option SockAddr) (ip : BitVec 32) :
    t3Active (s.removeRetransmissionsOfType key type d) k ip = t3Active s k ip := rfl

/-- The DATA a packet to be retransmitted adds for its key. -/
theorem rtxData_retransmit (d : Deliverable) :
    rtxData (s.enqueuePacket d .retransmission) k = rtxData s k ++ if d.location = k
      then d.packet.dataChunks.map fun data => (d.destination.addr, data) else [] := by
  simp [rtxData, Socket.enqueuePacket, SendQueue.enqueue]

theorem newDataFor_sendNew (d : Deliverable) :
    newDataFor (s.enqueuePacket d .newData) k = newDataFor s k ++ if d.location = k
      then [⟨s.sends.nextId, d⟩] else [] := by
  simp only [newDataFor, Socket.enqueuePacket, SendQueue.enqueue, List.filter_append]
  by_cases here : d.location = k <;> simp [here]

theorem t3Active_schedule (timer : ExpirationKey) (e : Time) (d : Deliverable) (ip : BitVec 32) :
    t3Active (s.scheduleExpiration timer e d) k ip
      = (decide (timer = ⟨k, .t3Rtx, ⟨⟨ip, 0#16⟩⟩⟩) || t3Active s k ip) := by
  simp only [t3Active, Socket.scheduleExpiration, ExpirationQueue.schedule,
    ExpirationQueue.isActive, KeyMap.contains_put]
  rw [decide_eq_decide.mpr eq_comm]

theorem t3Active_cancel (timer : ExpirationKey) (ip : BitVec 32) :
    t3Active (s.cancelExpiration timer) k ip
      = (decide (timer ≠ ⟨k, .t3Rtx, ⟨⟨ip, 0#16⟩⟩⟩) && t3Active s k ip) := by
  simp only [t3Active, Socket.cancelExpiration, ExpirationQueue.cancel, ExpirationQueue.isActive,
    KeyMap.contains, KeyMap.get?_erase]
  by_cases same : (⟨k, .t3Rtx, ⟨⟨ip, 0#16⟩⟩⟩ : ExpirationKey) = timer
  · simp [same]
  · simp [same, Ne.symm same]

end Queued

/-! ### Dropping DATA -/

theorem dataChunks_cons (header : CommonHeader) (c : Chunk) (rest : List Chunk) :
    Packet.dataChunks ⟨header, c :: rest⟩
      = (match c.value with | .data data => [data] | _ => [])
        ++ Packet.dataChunks ⟨header, rest⟩ := by
  unfold Packet.dataChunks
  simp only [List.filterMap_cons]
  cases c.value <;> rfl

theorem dataChunks_drop (header : CommonHeader) {chunks : List Chunk} {drop : Chunk → Bool}
    {dropData : DataChunkValue → Bool}
    (same : ∀ c ∈ chunks, ∀ data, c.value = .data data → drop c = dropData data) :
    Packet.dataChunks ⟨header, chunks.filter fun c => !drop c⟩
      = (Packet.dataChunks ⟨header, chunks⟩).filter fun data => !dropData data := by
  induction chunks with
  | nil => rfl
  | cons c rest ih =>
    have rest' := ih fun c inside => same c (List.mem_cons_of_mem _ inside)
    have first := same c List.mem_cons_self
    rw [dataChunks_cons, List.filter_append, ← rest', List.filter_cons]
    cases value : c.value with
    | data data =>
      cases gone : drop c with
      | true => simp [← first data value, gone]
      | false => simp [← first data value, gone, dataChunks_cons, value]
    | _ =>
      cases gone : drop c with
      | true => simp
      | false => simp [dataChunks_cons, value]

theorem chunksLeft_eq (sel : Queued → Bool) (drop : Queued → Chunk → Bool) (q : Queued) :
    chunksLeft sel drop q = q.deliverable.packet.chunks.filter fun c => !(sel q && drop q c) := by
  unfold chunksLeft
  cases sel q <;> simp

/-- What is left to be retransmitted for a key once chunks were dropped. -/
theorem rtxData_drop (s : Socket) (k : AssociationKey) {sel : Queued → Bool}
    {drop : Queued → Chunk → Bool} (dropData : BitVec 32 → DataChunkValue → Bool)
    (same : ∀ q ∈ s.sends.retransmission, q.deliverable.location = k →
      ∀ c ∈ q.deliverable.packet.chunks, ∀ data, c.value = .data data → (sel q && drop q c)
        = dropData q.deliverable.destination.addr data) :
    rtxData { s with sends := { s.sends
      with retransmission := dropChunks sel drop s.sends.retransmission } } k
      = (rtxData s k).filter fun p => !dropData p.1 p.2 := by
  have flat := flatMap_dropChunks sel drop s.sends.retransmission
    (fun location destination data => if location = k then data.map fun d =>
      (destination.addr, d) else []) (by simp)
  unfold rtxData
  simp only
  rw [flat, List.filter_flatMap]
  apply List.flatMap_congr
  intro q member
  by_cases here : q.deliverable.location = k
  · simp only [here, if_true]
    rw [chunksLeft_eq, dataChunks_drop _ (same q member here), List.filter_map]
    rfl
  · simp [here]

/-- A SACK takes what it acknowledges out of what is to be retransmitted. -/
theorem rtxData_removeAcked (s : Socket) (key : AssociationKey) (sack : SackChunkValue) :
    rtxData (s.removeAckedRetransmissions key sack) key
      = (rtxData s key).filter fun p => !sackAcknowledges sack p.2.tsn := by
  refine rtxData_drop s key (fun _ data => sackAcknowledges sack data.tsn) ?_
  intro q _ here c _ data value
  simp [here, chunkAcked, value]

/-- Everything bound to an address is taken out of what is to be retransmitted. -/
theorem rtxData_removeData (s : Socket) (key : AssociationKey) (destination : SockAddr) :
    rtxData (s.removeRetransmissionsOfType key .data (some destination)) key
      = (rtxData s key).filter fun p => !(destination.addr == p.1) := by
  refine rtxData_drop s key (fun ip _ => destination.addr == ip) ?_
  intro q _ here c inside data value
  have carries : containsChunk q.deliverable.packet .data = true := by
    unfold containsChunk
    rw [List.any_eq_true]
    exact ⟨c, inside, by simp [Chunk.type, value]⟩
  simp [here, carries, Chunk.type, value]

/-! ## Everyone else -/

/-- Every other association is left alone. -/
def Aside (strict : Prop) (key : AssociationKey) (s s' : Socket) : Prop :=
  ∀ k, k ≠ key → KeyStep strict s s' k

namespace Aside

variable {strict : Prop} {key : AssociationKey} {s s' s'' : Socket}

theorem trans (first : Aside strict key s s') (second : Aside strict key s' s'') :
    Aside strict key s s'' :=
  fun k apart => (first k apart).trans (second k apart)

theorem of_calm (calm : Calm strict s s') : Aside strict key s s' := fun k _ => calm.keys k

theorem set (s : Socket) (key : AssociationKey) (b : Association) :
    Aside strict key s (s.setAssociation key b) :=
  (CalmAside.set s key b).keys

theorem update (s : Socket) (key : AssociationKey) (f : Association → Association) :
    Aside strict key s (s.updateAssociation key f) := by
  intro k apart
  exact .kept (by simp [apart]) ⟨rfl, rfl⟩ fun _ => rfl

theorem schedule (s : Socket) {timer : ExpirationKey} (e : Time) (d : Deliverable)
    (here : timer.location = key) :
    Aside strict key s (s.scheduleExpiration timer e d) := by
  intro k apart
  refine .kept rfl ⟨rfl, rfl⟩ fun ip => ?_
  have other : timer ≠ ⟨k, .t3Rtx, ⟨⟨ip, 0#16⟩⟩⟩ := by
    rintro rfl
    exact apart here
  simp [t3Active_schedule, other]

theorem cancel (s : Socket) {timer : ExpirationKey} (here : timer.location = key) :
    Aside strict key s (s.cancelExpiration timer) := by
  intro k apart
  refine .kept rfl ⟨rfl, rfl⟩ fun ip => ?_
  have other : timer ≠ ⟨k, .t3Rtx, ⟨⟨ip, 0#16⟩⟩⟩ := by
    rintro rfl
    exact apart here
  simp [t3Active_cancel, other]

theorem retransmit (s : Socket) {d : Deliverable} (here : d.location = key) :
    Aside strict key s (s.enqueuePacket d .retransmission) := by
  intro k apart
  refine .kept rfl ⟨rfl, ?_⟩ fun _ => rfl
  rw [rtxData_retransmit, here, if_neg (Ne.symm apart), List.append_nil]

theorem sendNew (s : Socket) {d : Deliverable} (here : d.location = key) :
    Aside strict key s (s.enqueuePacket d .newData) := by
  intro k apart
  refine .kept rfl ⟨?_, rfl⟩ fun _ => rfl
  rw [newDataFor_sendNew, here, if_neg (Ne.symm apart), List.append_nil]

theorem dropped (s : Socket) {sel : Queued → Bool} {drop : Queued → Chunk → Bool}
    (here : ∀ q, sel q = true → q.deliverable.location = key) :
    Aside strict key s
      { s
        with sends :=
          { s.sends with retransmission := dropChunks sel drop s.sends.retransmission } } := by
  intro k apart
  refine .kept rfl ⟨rfl, ?_⟩ fun _ => rfl
  rw [rtxData_drop s k fun _ _ => false]
  · simp
  · intro q _ location c _ data _
    cases chosen : sel q with
    | false => rfl
    | true => exact absurd (location ▸ here q chosen) apart

theorem removeAcked (s : Socket) (key : AssociationKey) (sack : SackChunkValue) :
    Aside strict key s (s.removeAckedRetransmissions key sack) :=
  dropped s fun q chosen => by simpa using chosen

theorem removeOfType (s : Socket) (key : AssociationKey) (type : ChunkType)
    (destination : Option SockAddr) :
    Aside strict key s (s.removeRetransmissionsOfType key type destination) := by
  refine dropped s fun q chosen => ?_
  rw [Bool.and_eq_true] at chosen
  simpa using chosen.1

end Aside

end SctpStack
