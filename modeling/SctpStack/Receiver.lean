import SctpStack.Delivery
import SctpStack.Frame
import SctpStack.Api

/-!
# Runs of a receiver

A receiver that is sent the chunks of one sender: lost, reordered, duplicated and
bundled at will, with reads of the application in between (`ReceiverRun`). Every
packet keeps the invariant of `Delivery` (`packet_inv`), so that in every state of a
run what was pushed to the receive queue is the sender's messages, each once and in
order.
-/

namespace SctpStack

open Serial

/-! ## A packet -/

/-- How far the ordered messages that arrive may be ahead of their streams. -/
def reach (passed : StreamId → Nat) : StreamId → Nat := fun stream => passed stream + 32768

/-- The next SSN of every stream, counted without wrapping: each moved on by the
difference. -/
def moveOn (passed : StreamId → Nat) (before after : Association) : StreamId → Nat := fun stream =>
  passed stream + ((after.inboundStream stream).nextSsn - (before.inboundStream
    stream).nextSsn).toNat

/-- The count after the chunks of a packet. -/
def passedBy : List Chunk → DataLoop → (StreamId → Nat) → StreamId → Nat
  | [], _, passed => passed
  | chunk :: rest, loop, passed =>
    match chunk.value with
    | .data data =>
      passedBy rest (receiveChunk loop chunk.flag data)
        (moveOn passed loop.st.assoc (receiveChunk loop chunk.flag data).st.assoc)
    | _ => passedBy rest loop passed

/-- The count after a whole packet. -/
def passedAfter (chunks : List Chunk) (loop : DataLoop) (passed : StreamId → Nat) :
    StreamId → Nat :=
  moveOn (passedBy chunks loop passed) (receiveChunks chunks loop).st.assoc
    (takeData chunks loop).st.assoc

/-- Whether every ordered chunk that arrives at most 65535 TSNs past the Cumulative TSN
Ack is of a message fewer than 2^15 ahead of the next of its stream. -/
def WithinReach (sent : Sent) : List Chunk → DataLoop → (StreamId → Nat) → Prop
  | [], _, _ => True
  | chunk :: rest, loop, passed =>
    match chunk.value with
    | .data data =>
      ((data.tsn - loop.st.assoc.lastPeerTsn).toNat ≤ 65535 →
        ∀ i, sent.chunks[i]? = some data → InWindow sent (reach passed) (sent.cursor i).message)
        ∧ WithinReach sent rest (receiveChunk loop chunk.flag data)
            (moveOn passed loop.st.assoc (receiveChunk loop chunk.flag data).st.assoc)
    | _ => WithinReach sent rest loop passed

section Packets

variable {sent : Sent} {top : StreamId → Nat} {g : Progress} {past : List Delivery} {st : Receiving}
  {buf : Tsn → Option HeldChunk} {message : Reassembly} {data : DataChunkValue}

theorem inWindow_mono {top' : StreamId → Nat} {j : Nat} (wider : ∀ stream, top stream ≤ top' stream)
    (window : InWindow sent top j) : InWindow sent top' j :=
  fun m found ordered => Nat.lt_of_lt_of_le (window m found ordered) (wider m.stream)

/-- What is near stays near while messages are passed on. -/
theorem withinReach_of_near {chunks : List Chunk} {loop : DataLoop} {passed : StreamId → Nat}
    (near : ∀ chunk ∈ chunks, ∀ data, chunk.value = .data data →
      ∀ i, sent.chunks[i]? = some data → InWindow sent (reach passed) (sent.cursor i).message) :
    WithinReach sent chunks loop passed := by
  induction chunks generalizing loop passed with
  | nil => trivial
  | cons chunk rest ih =>
    have later : ∀ passed' : StreamId → Nat, (∀ stream, passed stream ≤ passed' stream) →
        ∀ chunk ∈ rest, ∀ data, chunk.value = .data data →
        ∀ i, sent.chunks[i]? = some data → InWindow sent (reach passed') (sent.cursor i).message :=
      fun passed' wider c member data is i found =>
        inWindow_mono (fun stream => Nat.add_le_add_right (wider stream) _)
          (near c (List.mem_cons_of_mem _ member) data is i found)
    unfold WithinReach
    split
    · next data is =>
      exact ⟨fun _ i found => near chunk List.mem_cons_self data is i found,
        ih (later _ fun stream => Nat.le_add_right _ _)⟩
    · exact ih (later passed fun _ => Nat.le_refl _)

/-- Every message of a sender of no more than 2^15 is within reach. -/
theorem inWindow_of_few (few : sent.messages.length ≤ 32768) (passed : StreamId → Nat) (j : Nat) :
    InWindow sent (reach passed) j := by
  intro m found _
  have before : ordinal sent.messages m.stream j ≤ (sent.messages.take j).length :=
    List.countP_le_length
  have inside := (List.getElem?_eq_some_iff.mp found).1
  have room : 32768 ≤ reach passed m.stream := Nat.le_add_left _ _
  rw [List.length_take] at before
  omega

/-- A wider window does no harm while it is at most 2^15. -/
theorem tracks_widen (tracks : Tracks sent top g past st) :
    Tracks sent (reach g.ssn) g past st := by
  have wider : ∀ stream, top stream ≤ reach g.ssn stream := fun stream =>
    (tracks.streams.top stream).2
  refine ⟨tracks.handed, ⟨tracks.streams.ssn, tracks.streams.order, tracks.streams.early, ?_, ?_⟩,
    ⟨tracks.lower.bound, ?_, tracks.lower.kept, tracks.lower.finished, ?_, tracks.lower.straddles⟩,
    tracks.last, tracks.settled⟩
  · intro j waiting
    obtain ⟨m, found, ordered, le, lt⟩ := tracks.streams.waits j waiting
    exact ⟨m, found, ordered, le, Nat.lt_of_lt_of_le lt (wider m.stream)⟩
  · intro stream
    exact ⟨Nat.le_add_right _ _, Nat.le_refl _⟩
  · intro tsn held lookup
    obtain ⟨i, data, le, found, eq, holds, window⟩ := tracks.lower.buffer tsn held lookup
    exact ⟨i, data, le, found, eq, holds, inWindow_mono wider window⟩
  · intro inside
    exact inWindow_mono wider (tracks.lower.near inside)

/-- The invariant does not read what a packet merely counts. -/
theorem tracks_congr {after : Receiving} (tracks : Tracks sent top g past st)
    (delivered : after.delivered = st.delivered)
    (reassembly : after.assoc.reassembly = st.assoc.reassembly)
    (streams : after.assoc.inboundStreams = st.assoc.inboundStreams)
    (held : after.assoc.heldDeliveries = st.assoc.heldDeliveries)
    (buffer : after.assoc.tsnOooBuffer = st.assoc.tsnOooBuffer)
    (last : after.assoc.lastPeerTsn = st.assoc.lastPeerTsn) : Tracks sent top g past after := by
  refine ⟨⟨?_, ?_, tracks.handed.free, ?_, tracks.handed.nodup, tracks.handed.known⟩,
    streams_congr tracks.streams streams, ?_, ?_, ?_⟩
  · simpa only [partialDeliveryOpen, reassembly] using tracks.handed.isOpen
  · rw [held]
    exact tracks.handed.held
  · rw [delivered]
    exact tracks.handed.log
  · rw [buffer, reassembly]
    exact tracks.lower
  · rw [last]
    exact tracks.last
  · intro stream
    have settled := tracks.settled stream
    simpa only [Association.inboundStream, streams] using settled

/-- Whether a chunk is at or below the Cumulative TSN Ack. -/
theorem tsnLte_last_iff (tracks : Tracks sent top g past st) {i : Nat}
    (bound : i < sent.chunks.length) :
    tsnLte (ahead sent.base i) st.assoc.lastPeerTsn = true ↔ i < g.next := by
  have few := sent.few
  have le := tracks.lower.bound
  have last : st.assoc.lastPeerTsn = ahead (sent.base - 1#32) g.next := by
    rw [ahead_sub_one, ← tracks.last]
    exact (BitVec.add_sub_cancel _ _).symm
  have here : ahead sent.base i = ahead (sent.base - 1#32) (i + 1) := by
    rw [ahead_succ, ahead_sub_one, BitVec.sub_add_cancel]
  rw [last, here]
  exact serialLe_offset (w := 31) _ (by omega) (by omega)

/-- What one chunk does to the receiver of its sender: it is a duplicate, it is
dropped, or it is stored. -/
theorem receiveChunk_tracks {loop : DataLoop} (tracks : Tracks sent top g past loop.st)
    (clear : loop.violation = false) (flag : BitVec 8) {i : Nat}
    (found : sent.chunks[i]? = some data)
    (known : data.streamIdentifier.toNat < loop.st.assoc.inStreams.toNat)
    (window : (data.tsn - loop.st.assoc.lastPeerTsn).toNat ≤ 65535 →
      InWindow sent top (sent.cursor i).message) :
    (receiveChunk loop flag data).violation = false
      ∧ TracksFrom sent top g past loop.st (receiveChunk loop flag data).st := by
  have bound := (List.getElem?_eq_some_iff.mp found).1
  obtain ⟨m, -, frag⟩ := Sent.fragment found
  let counted : Receiving := { loop.st with assoc := { loop.st.assoc with
    receivedSinceSack := (loop.st.assoc.receivedSinceSack + data.userData.length) % 2 ^ 32 } }
  have tracks₁ : Tracks sent top g past counted := tracks_congr tracks rfl rfl rfl rfl rfl rfl
  unfold receiveChunk
  simp only [known, decide_true, if_true]
  split
  · refine ⟨clear, ⟨g, ?_, fun _ => Nat.le_refl _⟩, rfl⟩
    exact tracks_congr tracks rfl rfl rfl rfl rfl rfl
  · next fresh =>
    simp only [Bool.or_eq_true, not_or, Bool.not_eq_true] at fresh
    split
    · exact ⟨clear, ⟨g, tracks₁, fun _ => Nat.le_refl _⟩, rfl⟩
    · next near =>
      have after : g.next ≤ i := by
        by_contra before
        rw [frag.tsn, (tsnLte_last_iff tracks bound).mpr (Nat.lt_of_not_ge before)] at fresh
        cases fresh.1
      split
      · exact ⟨clear, ⟨g, tracks₁, fun _ => Nat.le_refl _⟩, rfl⟩
      · next assoc used admitted =>
        obtain ⟨tracks₂, only, stays, -⟩ := admitChunk_tracks tracks₁ admitted
        have absent := stays (KeyMap.contains_eq_false.mp fresh.2)
        rw [frag.tsn] at absent
        obtain ⟨st', stored, ⟨from₁, only'⟩⟩ := storeChunk_tracks tracks₂ after found absent
          (window (Nat.le_of_not_gt near))
        rw [stored]
        have enter : ReceiveOnly loop.st.assoc counted.assoc := rfl
        exact ⟨rfl, from₁, enter.trans (only.trans only')⟩

/-- The count of a stream follows its next SSN. -/
theorem moveOn_eq {g' : Progress} {before after : Association} (streams : Streams sent top g before)
    (streams' : Streams sent top g' after) (mono : ∀ stream, g.ssn stream ≤ g'.ssn stream) :
    moveOn g.ssn before after = g'.ssn := by
  funext stream
  have low := mono stream
  have window := streams.top stream
  have high := (streams'.top stream).1
  unfold moveOn
  rw [streams.ssn, streams'.ssn]
  have distance := sub_ahead_of_lt (0#16) low (by omega)
  simp only [ahead, BitVec.zero_add] at distance
  rw [distance]
  omega

/-- Every chunk of a packet is one of the sender's. -/
def FromSender (sent : Sent) (chunks : List Chunk) : Prop :=
  ∀ chunk ∈ chunks, ∀ data, chunk.value = .data data → data ∈ sent.chunks

/-- The receiver may take every stream the sender uses. -/
def StreamsKnown (sent : Sent) (assoc : Association) : Prop :=
  ∀ m ∈ sent.messages, m.stream.toNat < assoc.inStreams.toNat

theorem streamsKnown_of_mem {assoc : Association} (known : StreamsKnown sent assoc)
    {i : Nat} (found : sent.chunks[i]? = some data) :
    data.streamIdentifier.toNat < assoc.inStreams.toNat := by
  obtain ⟨m, here, frag⟩ := Sent.fragment found
  rw [frag.stream]
  exact known m (List.mem_of_getElem? here)

/-- The chunks of a packet, one after the other. -/
theorem receiveChunks_tracks (chunks : List Chunk) {loop : DataLoop}
    (tracks : Tracks sent (reach g.ssn) g past loop.st) (clear : loop.violation = false)
    (ours : FromSender sent chunks) (known : StreamsKnown sent loop.st.assoc)
    (within : WithinReach sent chunks loop g.ssn) :
    (receiveChunks chunks loop).violation = false
      ∧ (∃ g', Tracks sent (reach g'.ssn) g' past (receiveChunks chunks loop).st
          ∧ passedBy chunks loop g.ssn = g'.ssn)
      ∧ ReceiveOnly loop.st.assoc (receiveChunks chunks loop).st.assoc := by
  induction chunks generalizing loop g with
  | nil => exact ⟨clear, ⟨g, tracks, rfl⟩, rfl⟩
  | cons chunk rest ih =>
    have others : FromSender sent rest := fun c member => ours c (List.mem_cons_of_mem _ member)
    unfold receiveChunks passedBy
    unfold WithinReach at within
    cases value : chunk.value with
    | data data =>
      simp only [value] at within ⊢
      obtain ⟨i, bound, found⟩ := List.mem_iff_getElem.mp (ours chunk List.mem_cons_self data value)
      have found' : sent.chunks[i]? = some data := by rw [List.getElem?_eq_getElem bound, found]
      obtain ⟨ok, ⟨g₁, tracks₁, mono⟩, only⟩ := receiveChunk_tracks tracks clear chunk.flag found'
        (streamsKnown_of_mem known found') (fun near => within.1 near i found')
      have moved := moveOn_eq tracks.streams tracks₁.streams mono
      have known₁ : StreamsKnown sent (receiveChunk loop chunk.flag data).st.assoc := by
        intro m member
        rw [only]
        exact known m member
      rw [moved] at within ⊢
      obtain ⟨ok', after, only'⟩ := ih (tracks_widen tracks₁) ok others known₁ within.2
      rw [if_neg (by simp [ok])]
      exact ⟨ok', after, only.trans only'⟩
    | _ =>
      simp only [value] at within ⊢
      exact ih tracks clear others known within

/-- What the DATA chunks of a packet do. -/
theorem takeData_tracks {chunks : List Chunk} (loop : DataLoop)
    (tracks : Tracks sent (reach g.ssn) g past loop.st) (clear : loop.violation = false)
    (ours : FromSender sent chunks) (known : StreamsKnown sent loop.st.assoc)
    (within : WithinReach sent chunks loop g.ssn) :
    (takeData chunks loop).violation = false
      ∧ (∃ g', Tracks sent (reach g'.ssn) g' past (takeData chunks loop).st
          ∧ passedAfter chunks loop g.ssn = g'.ssn)
      ∧ ReceiveOnly loop.st.assoc (takeData chunks loop).st.assoc := by
  obtain ⟨ok, ⟨g₁, tracks₁, passed⟩, only⟩ :=
    receiveChunks_tracks chunks tracks clear ours known within
  unfold passedAfter takeData
  simp only [passed]
  split
  · obtain ⟨⟨g₂, tracks₂, mono⟩, only'⟩ :=
      startPartialDelivery_tracks tracks₁ (receiveChunks chunks loop).used
    exact ⟨ok, ⟨g₂, tracks_widen tracks₂, moveOn_eq tracks₁.streams tracks₂.streams mono⟩,
      only.trans only'⟩
  · exact ⟨ok, ⟨g₁, tracks₁, moveOn_eq tracks₁.streams tracks₁.streams fun _ => Nat.le_refl _⟩,
      only⟩

end Packets

/-! ## What a handler keeps of the receiving side -/

/-- The fields of an association that only receiving DATA changes. -/
structure SameInbound (a b : Association) : Prop where
  reassembly : b.reassembly = a.reassembly
  inboundStreams : b.inboundStreams = a.inboundStreams
  heldDeliveries : b.heldDeliveries = a.heldDeliveries
  tsnOooBuffer : b.tsnOooBuffer = a.tsnOooBuffer
  lastPeerTsn : b.lastPeerTsn = a.lastPeerTsn
  inStreams : b.inStreams = a.inStreams

theorem SameInbound.refl (a : Association) : SameInbound a a := ⟨rfl, rfl, rfl, rfl, rfl, rfl⟩

theorem SameInbound.trans {a b c : Association} (first : SameInbound a b)
    (second : SameInbound b c) :
    SameInbound a c :=
  ⟨second.reassembly.trans first.reassembly, second.inboundStreams.trans first.inboundStreams,
    second.heldDeliveries.trans first.heldDeliveries, second.tsnOooBuffer.trans first.tsnOooBuffer,
    second.lastPeerTsn.trans first.lastPeerTsn, second.inStreams.trans first.inStreams⟩

/-- The association under a key is still there, its receiving side unchanged. -/
def KeepsInbound (key : AssociationKey) (before after : Socket) : Prop :=
  ∀ assoc, before.find? key = some assoc → ∃ assoc', after.find? key = some assoc'
    ∧ SameInbound assoc assoc'

namespace KeepsInbound

variable {key : AssociationKey} {s s' s'' : Socket}

theorem of_same (same : s'.find? key = s.find? key) : KeepsInbound key s s' :=
  fun assoc found => ⟨assoc, same.trans found, .refl assoc⟩

theorem trans (first : KeepsInbound key s s') (second : KeepsInbound key s' s'') :
    KeepsInbound key s s'' := by
  intro assoc found
  obtain ⟨assoc', found', same⟩ := first assoc found
  obtain ⟨assoc'', found'', same'⟩ := second assoc' found'
  exact ⟨assoc'', found'', same.trans same'⟩

/-- An association put back with its receiving side unchanged. -/
theorem set {other : AssociationKey} {assoc assoc' : Association}
    (found : s.find? other = some assoc) (same : SameInbound assoc assoc') :
    KeepsInbound key s (s.setAssociation other assoc') := by
  intro a here
  by_cases eq : key = other
  · subst eq
    rw [found] at here
    cases here
    exact ⟨assoc', by simp, same⟩
  · exact ⟨a, by simpa [eq] using here, .refl a⟩

theorem sendSack (other : AssociationKey) : KeepsInbound key s (s.sendSack other) := by
  unfold Socket.sendSack
  cases found : s.find? other with
  | none => exact of_same rfl
  | some assoc =>
    simp only
    split
    · exact of_same rfl
    · have same : SameInbound assoc (s.makeSack other assoc).2 := ⟨rfl, rfl, rfl, rfl, rfl, rfl⟩
      exact (set found same).trans (of_same rfl)

theorem maybeSendWindowUpdate (other : AssociationKey) :
    KeepsInbound key s (s.maybeSendWindowUpdate other) := by
  unfold Socket.maybeSendWindowUpdate
  cases found : s.find? other with
  | none => exact of_same rfl
  | some assoc =>
    simp only
    split
    · exact of_same rfl
    · split
      · exact of_same rfl
      · exact sendSack other

theorem sctpRecvData (capacity : Nat) : KeepsInbound key s (s.sctpRecvData capacity).2 := by
  unfold Socket.sctpRecvData
  split
  · exact of_same rfl
  · next read receives _ =>
    have taken : KeepsInbound key s { s with receives := receives } := of_same rfl
    exact taken.trans (maybeSendWindowUpdate _)

theorem sctpRecvDataFrom (other : AssociationKey) (capacity : Nat) :
    KeepsInbound key s (s.sctpRecvDataFrom other capacity).2 := by
  unfold Socket.sctpRecvDataFrom
  split
  · exact of_same rfl
  · next read receives _ =>
    have taken : KeepsInbound key s { s with receives := receives } := of_same rfl
    exact taken.trans (maybeSendWindowUpdate _)

theorem sendDataReply (now : Time) (other : AssociationKey) (destination : SockAddr)
    (reply : Socket.DataReply) :
    KeepsInbound key s (s.sendDataReply now other destination reply) := by
  cases reply with
  | shutdown packet =>
    refine of_same ?_
    simp only [Socket.sendDataReply, Socket.restartT2]
    split <;> rfl
  | sack => exact sendSack other
  | delayedSack => exact of_same rfl

end KeepsInbound

/-- Deciding on the acknowledgement does not touch what was received. -/
theorem acknowledgeData_sameInbound (s : Socket) (key : AssociationKey) (assoc : Association)
    (hole : Bool) (loop : DataLoop) :
    SameInbound assoc (s.acknowledgeData key assoc hole loop).1 := by
  unfold Socket.acknowledgeData
  split
  · simp only
    split <;> exact ⟨rfl, rfl, rfl, rfl, rfl, rfl⟩
  · split
    · exact .refl assoc
    · simp only
      split <;> exact ⟨rfl, rfl, rfl, rfl, rfl, rfl⟩

/-- Every chunk of the loop leaves a note that there was one. -/
theorem receiveChunk_haveData (loop : DataLoop) (flag : BitVec 8) (data : DataChunkValue) :
    (receiveChunk loop flag data).haveData = true := by
  unfold receiveChunk
  simp only
  split
  · rfl
  · split
    · rfl
    · split <;> rfl

theorem receiveChunks_haveData (chunks : List Chunk) {loop : DataLoop}
    (have_ : loop.haveData = true) :
    (receiveChunks chunks loop).haveData = true := by
  induction chunks generalizing loop with
  | nil => exact have_
  | cons chunk rest ih =>
    unfold receiveChunks
    split
    · simp only
      split
      · exact receiveChunk_haveData _ _ _
      · exact ih (receiveChunk_haveData _ _ _)
    · exact ih have_

/-- Without a DATA chunk nothing happens. -/
theorem takeData_of_not_haveData {chunks : List Chunk} {loop : DataLoop}
    (none : (takeData chunks loop).haveData = false) : takeData chunks loop = loop := by
  have still : ∀ (chunks : List Chunk) (loop : DataLoop), (receiveChunks chunks loop).haveData
      = false → receiveChunks chunks loop = loop := by
    intro chunks
    induction chunks with
    | nil => exact fun _ _ => rfl
    | cons chunk rest ih =>
      intro loop none
      unfold receiveChunks at none ⊢
      split
      · next data value =>
        exfalso
        simp only [value] at none
        split at none
        · rw [receiveChunk_haveData] at none
          cases none
        · rw [receiveChunks_haveData _ (receiveChunk_haveData _ _ _)] at none
          cases none
      · next value =>
        apply ih
        split at none
        · next data isData => exact absurd isData (value data)
        · exact none
  have quiet : (receiveChunks chunks loop).haveData = false := by
    unfold takeData at none
    simp only at none
    split at none <;> exact none
  unfold takeData
  simp only [quiet, Bool.false_eq_true, if_false]
  exact still chunks loop quiet

/-! ## Runs -/

/-- A receiver in a run: what its socket holds, the next SSN of every stream counted
without wrapping, what was pushed to the receive queue so far, and whether a packet
was ever found to violate the protocol. -/
structure Receiver where
  socket : Socket
  passed : StreamId → Nat
  log : List Delivery
  violated : Bool

/-- The locals of `handle_data_packet` after the chunks of a packet, if the association
takes DATA. -/
def dataLoop (s : Socket) (key : AssociationKey) (packet : Packet) (ack : Bool) : Option DataLoop :=
  match s.find? key with
  | none => none
  | some assoc =>
    if receivesData assoc.state then some
      (takeData packet.chunks (Socket.DataLoop.start s key assoc ack)) else none

/-- A packet arrives. -/
def Receiver.packet (r : Receiver) (key : AssociationKey) (now : Time) (packet : Packet)
    (src : SockAddr) (ack : Bool) : Receiver where
  socket := r.socket.handleDataPacket now packet key src ack
  passed :=
    match r.socket.find? key with
    | none => r.passed
    | some assoc =>
      if receivesData assoc.state then
        passedAfter packet.chunks (Socket.DataLoop.start r.socket key assoc ack) r.passed
      else r.passed
  log := r.log ++ (dataLoop r.socket key packet ack).elim [] fun loop => loop.st.delivered
  violated := r.violated || (dataLoop r.socket key packet ack).elim false fun loop => loop.violation

/-- The packets of a run keep to the reach of the receiver. -/
def PacketWithinReach (sent : Sent) (key : AssociationKey) (r : Receiver) (packet : Packet)
    (ack : Bool) : Prop :=
  ∀ assoc, r.socket.find? key = some assoc → receivesData assoc.state = true →
    WithinReach sent packet.chunks (Socket.DataLoop.start r.socket key assoc ack) r.passed

/-- An association that has received nothing yet, about to receive the first chunk of
the sender. -/
structure FreshReceiver (sent : Sent) (assoc : Association) : Prop where
  reassembly : assoc.reassembly = .closed
  inboundStreams : assoc.inboundStreams = ∅
  heldDeliveries : assoc.heldDeliveries = []
  tsnOooBuffer : assoc.tsnOooBuffer = ∅
  lastPeerTsn : assoc.lastPeerTsn + 1#32 = sent.base
  known : StreamsKnown sent assoc

/-- The runs of a receiver: packets that carry only chunks of the sender and satisfy
`Allowed`, reads of the application, and anything that leaves the receiving side of
the association alone. -/
inductive ReceiverRun (sent : Sent) (key : AssociationKey)
    (Allowed : Receiver → Packet → Bool → Prop) :
    Receiver → Prop where
  | start (s : Socket) (assoc : Association) : s.find? key = some assoc → FreshReceiver sent assoc →
      ReceiverRun sent key Allowed ⟨s, fun _ => 0, [], false⟩
  | packet {r : Receiver} (now : Time) (packet : Packet) (src : SockAddr) (ack : Bool) :
      ReceiverRun sent key Allowed r → FromSender sent packet.chunks → Allowed r packet ack →
      ReceiverRun sent key Allowed (r.packet key now packet src ack)
  | read {r : Receiver} (capacity : Nat) : ReceiverRun sent key Allowed r →
      ReceiverRun sent key Allowed { r with socket := (r.socket.sctpRecvData capacity).2 }
  | readFrom {r : Receiver} (from_ : AssociationKey) (capacity : Nat) :
      ReceiverRun sent key Allowed r →
        ReceiverRun sent key Allowed { r
          with socket := (r.socket.sctpRecvDataFrom from_ capacity).2 }
  | other {r : Receiver} (s : Socket) :
      ReceiverRun sent key Allowed r → KeepsInbound key r.socket s →
        ReceiverRun sent key Allowed { r with socket := s }

/-- The invariant of a run. -/
structure ReceiverInv (sent : Sent) (key : AssociationKey) (r : Receiver) : Prop where
  unviolated : r.violated = false
  tracks : ∃ assoc g, r.socket.find? key = some assoc ∧ StreamsKnown sent assoc
    ∧ Tracks sent (reach g.ssn) g r.log ⟨assoc, []⟩ ∧ g.ssn = r.passed

section Runs

variable {sent : Sent} {key : AssociationKey} {r : Receiver}

theorem receiverInv_keep {s : Socket} (inv : ReceiverInv sent key r)
    (keeps : KeepsInbound key r.socket s) :
    ReceiverInv sent key { r with socket := s } := by
  obtain ⟨assoc, g, found, known, tracks, passed⟩ := inv.tracks
  obtain ⟨assoc', found', same⟩ := keeps assoc found
  refine ⟨inv.unviolated, assoc', g, found', ?_, ?_, passed⟩
  · intro m member
    rw [same.inStreams]
    exact known m member
  · exact tracks_congr tracks rfl same.reassembly same.inboundStreams same.heldDeliveries
      same.tsnOooBuffer same.lastPeerTsn

theorem receiverInv_start {s : Socket} {assoc : Association} (found : s.find? key = some assoc)
    (fresh : FreshReceiver sent assoc) : ReceiverInv sent key ⟨s, fun _ => 0, [], false⟩ := by
  have none : ∀ stream, assoc.inboundStream stream = ⟨0#16, ∅⟩ := by
    intro stream
    simp [Association.inboundStream, fresh.inboundStreams]
  refine ⟨rfl, assoc, .start, found, fresh.known, ?_, rfl⟩
  refine ⟨⟨?_, ?_, fun _ => rfl, ⟨[], [], rfl, .nil, fun _ => rfl, ?_⟩, List.nodup_nil, by
    simp [Progress.start]⟩, ⟨?_, ?_, ?_, ?_, ?_⟩, ⟨Nat.zero_le _, ?_, ?_, ?_, ?_, ?_, ?_⟩, ?_, ?_⟩
  · simp [partialDeliveryOpen, fresh.reassembly, Reassembly.closed, Progress.start]
  · simp [fresh.heldDeliveries, Progress.start]
  · intro p underway
    cases underway
  · intro stream
    rw [none]
    rfl
  · intro stream
    rfl
  · intro stream ssn bytes
    rw [none]
    simp [Progress.start]
  · intro j waiting
    cases waiting
  · intro stream
    simp [reach, Progress.start]
  · intro tsn held lookup
    simp [fresh.tsnOooBuffer] at lookup
  · rintro i - - (inHanded | inHeld | waiting)
    · cases inHanded
    · cases inHeld
    · cases waiting
  · intro j before
    simp [Progress.start, Sent.cursor_zero] at before
  · intro inside
    simp [Progress.start, Sent.cursor_zero] at inside
  · intro _
    rw [fresh.reassembly]
    exact ⟨rfl, rfl, rfl⟩
  · intro inside
    simp [Progress.start, Sent.cursor_zero] at inside
  · simp only [Progress.start, ahead_zero]
    exact fresh.lastPeerTsn
  · intro stream
    rw [none]
    rfl

/-- No chunk of the sender is without user data. -/
theorem emptyDataChunk_eq_none {packet : Packet} (ours : FromSender sent packet.chunks) :
    Socket.emptyDataChunk packet = none := by
  unfold Socket.emptyDataChunk
  rw [List.find?_eq_none]
  intro data member
  simp only [Packet.dataChunks, List.mem_filterMap] at member
  obtain ⟨chunk, inside, value⟩ := member
  have value' : chunk.value = .data data := by
    split at value
    · next d eq =>
      cases value
      exact eq
    · cases value
  obtain ⟨i, bound, found⟩ := List.mem_iff_getElem.mp (ours chunk inside data value')
  have found' : sent.chunks[i]? = some data := by rw [List.getElem?_eq_getElem bound, found]
  obtain ⟨m, -, frag⟩ := Sent.fragment found'
  simp [frag.nonempty]

/-- A packet without violation: its association, and what it pushed. -/
theorem receiveData_spec {s : Socket} {assoc : Association} {packet : Packet} {ack : Bool}
    (now : Time) (src : SockAddr) (found : s.find? key = some assoc)
    (ok : (takeData packet.chunks (Socket.DataLoop.start s key assoc ack)).violation = false) :
    (∃ assoc', (s.receiveData now packet key src ack assoc).find? key = some assoc'
      ∧ SameInbound (takeData packet.chunks (Socket.DataLoop.start s key assoc ack)).st.assoc
        assoc') := by
  unfold Socket.receiveData
  simp only
  split
  · next none =>
    rw [Bool.not_eq_true'] at none
    rw [takeData_of_not_haveData none]
    exact ⟨assoc, found, .refl assoc⟩
  · rw [if_neg (by simp [ok])]
    let loop := takeData packet.chunks (Socket.DataLoop.start s key assoc ack)
    have same := acknowledgeData_sameInbound s key loop.st.assoc (!assoc.tsnOooBuffer.isEmpty) loop
    let s₁ := (s.setAssociation key
      (s.acknowledgeData key loop.st.assoc (!assoc.tsnOooBuffer.isEmpty) loop).1).pushDeliveries
        key loop.st.delivered
    have pushed : s₁.find? key = some
        (s.acknowledgeData key loop.st.assoc (!assoc.tsnOooBuffer.isEmpty) loop).1 := by
      have set := Socket.find?_setAssociation s key key
        (s.acknowledgeData key loop.st.assoc (!assoc.tsnOooBuffer.isEmpty) loop).1
      rw [if_pos rfl] at set
      exact set
    have reported : ∀ s₂ : Socket, KeepsInbound key s₁ s₂ →
        ∃ assoc', s₂.find? key = some assoc' ∧ SameInbound loop.st.assoc assoc' := by
      intro s₂ keeps
      obtain ⟨assoc', found', same'⟩ := keeps _ pushed
      exact ⟨assoc', found', same.trans same'⟩
    apply reported
    refine KeepsInbound.trans ?_ (KeepsInbound.sendDataReply _ _ _ _)
    split <;> exact .of_same rfl

theorem receiverInv_packet (inv : ReceiverInv sent key r) (now : Time) {packet : Packet}
    (src : SockAddr) {ack : Bool} (ours : FromSender sent packet.chunks)
    (within : PacketWithinReach sent key r packet ack) :
    ReceiverInv sent key (r.packet key now packet src ack) := by
  obtain ⟨assoc, g, found, known, tracks, passed⟩ := inv.tracks
  unfold Receiver.packet dataLoop Socket.handleDataPacket
  simp only [emptyDataChunk_eq_none ours, found]
  by_cases takes : receivesData assoc.state = true
  · have reach := within assoc found takes
    rw [← passed] at reach
    obtain ⟨ok, ⟨g', tracks', after⟩, only⟩ :=
      takeData_tracks (Socket.DataLoop.start r.socket key assoc ack) tracks rfl ours known reach
    obtain ⟨assoc', found', same⟩ := receiveData_spec now src found ok
    simp only [takes, Bool.not_true, Bool.false_eq_true, if_false, if_true, Option.elim_some, ok,
      Bool.or_false]
    refine ⟨inv.unviolated, assoc', g', found', ?_, ?_, ?_⟩
    · intro m member
      rw [same.inStreams, only]
      exact known m member
    · have moved : Tracks sent (SctpStack.reach g'.ssn) g'
          (r.log ++ (takeData packet.chunks
            (Socket.DataLoop.start r.socket key assoc ack)).st.delivered)
          ⟨(takeData packet.chunks (Socket.DataLoop.start r.socket key assoc ack)).st.assoc,
            []⟩ := by
        refine ⟨⟨tracks'.handed.isOpen, tracks'.handed.held, tracks'.handed.free,
          ?_, tracks'.handed.nodup, tracks'.handed.known⟩, tracks'.streams, tracks'.lower,
          tracks'.last, tracks'.settled⟩
        simpa using tracks'.handed.log
      exact tracks_congr moved rfl same.reassembly same.inboundStreams same.heldDeliveries
        same.tsnOooBuffer same.lastPeerTsn
    · rw [← after, passed]
  · rw [Bool.not_eq_true] at takes
    simp only [takes, Bool.not_false, if_true, Option.elim_none, List.append_nil, Bool.or_false,
      Bool.false_eq_true, if_false]
    exact ⟨inv.unviolated, assoc, g, found, known, tracks, passed⟩

/-- Every state of a run within reach satisfies the invariant. -/
theorem ReceiverRun.inv (run : ReceiverRun sent key (PacketWithinReach sent key) r) :
    ReceiverInv sent key r := by
  induction run with
  | start s assoc found fresh => exact receiverInv_start found fresh
  | packet now packet src ack _ ours within ih => exact receiverInv_packet ih now src ours within
  | read capacity _ ih => exact receiverInv_keep ih (.sctpRecvData capacity)
  | readFrom from_ capacity _ ih => exact receiverInv_keep ih (.sctpRecvDataFrom from_ capacity)
  | other s _ keeps ih => exact receiverInv_keep ih keeps

end Runs

end SctpStack
