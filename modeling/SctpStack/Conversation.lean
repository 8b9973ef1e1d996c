import SctpStack.Provenance
import SctpStack.ExactlyOnce
import SctpStack.CumulativeAcks

/-!
# A conversation

Two sockets that each have an association with the other, and a network between them that
may lose, delay, repeat and reorder whatever they put out. Each takes its own steps, in any
order: packets, timers, batches of sending and calls. While both associations go on, what
one hands up is what the other accepted (`conversation_delivers`).
-/

namespace SctpStack

open Serial

/-! ## The machine -/

inductive Side where
  | left
  | right
deriving DecidableEq

def Side.other : Side → Side
  | .left => .right
  | .right => .left

abbrev Conversation := Side → End

/-- The association goes on through a step. -/
def Lasts (key : AssociationKey) (before after : Socket) : Prop :=
  ∀ a, before.find? key = some a → ∃ b, after.find? key = some b ∧ b.thisVerTag = a.thisVerTag
    ∧ b.peerVerTag = a.peerVerTag

namespace Conversation

variable (keys : Side → AssociationKey)

/-- One of the two sockets takes a step; `keys` are those of the association at either end. -/
def step (c : Conversation) (turn : Side × Event) : Option Conversation :=
  ((c turn.1).step (keys turn.1) turn.2).map (Function.update c turn.1)

/-- What may happen next. -/
structure Permitted (c : Conversation) (turn : Side × Event) : Prop where
  arrives : Arrives (c turn.1).system turn.2
  /-- What passes for a packet of the peer is one that it put out. -/
  genuine : ∀ now draws packet src s carried, turn.2 = .recv now draws packet src →
    (c turn.1).system.socket.dispatch now draws packet src = some (s, keys turn.1, carried) →
    packet ∈ (c turn.1.other).wire
  /-- No more than 2^15 messages of a stream are under way when DATA comes in. -/
  near : ∀ now draws packet src, turn.2 = .recv now draws packet src →
    ∀ stream, (c turn.1.other).messages.countP (orderedOn stream) ≤ (c turn.1).passed stream + 32768
  lasts : ∀ σ, (c turn.1).system.step turn.2 = some σ →
    Lasts (keys turn.1) (c turn.1).system.socket σ.socket

end Conversation

/-- An association about to send, and the peer's about to receive. -/
structure Agree (a b : Association) : Prop where
  up : forming a.state = false
  fresh : FreshSender a
  outstanding : a.outstandingData = ∅
  acked : a.cumulativeTsnAck + 1#32 = a.nextTsn
  lastPeerTsn : b.lastPeerTsn + 1#32 = a.nextTsn
  streams : a.outStreams.toNat ≤ b.inStreams.toNat
  reassembly : b.reassembly = .closed
  inboundStreams : b.inboundStreams = ∅
  heldDeliveries : b.heldDeliveries = []
  tsnOooBuffer : b.tsnOooBuffer = ∅

namespace Conversation

variable (keys : Side → AssociationKey)

/-- Both associations are up and agree, and nothing is under way. -/
structure Begins (c : Conversation) : Prop where
  reached : ∀ side, System.Reached Arrives (c side).system
  untold : ∀ side, c side = ⟨(c side).system, [], [], [], fun _ => 0, []⟩
  idle : ∀ side, NothingQueued (c side).system.socket (keys side)
  silent : ∀ side, ∀ queued ∈ (c side).system.socket.sends.control, queued.deliverable.location
    = keys side → queued.deliverable.packet.acks = []
  agree : ∀ side, ∃ a b, (c side).system.socket.find? (keys side) = some a
    ∧ (c side.other).system.socket.find? (keys side.other) = some b ∧ Agree a b

/-- The states of a conversation. -/
abbrev Reached : Conversation → Prop := Run.Reach (step keys) (Begins keys) (Permitted keys)

end Conversation

/-! ## What was sent so far -/

/-- What an end sends goes on from what it sent so far. -/
structure Extends (sent : Sent) (start : Association) (e : End) : Prop where
  base : sent.base = start.nextTsn
  messages : e.messages <+: sent.messages
  chunks : e.chunks <+: sent.chunks
  known : ∀ m ∈ sent.messages, m.stream.toNat < start.outStreams.toNat

section Sent

variable {start a : Association} {log : SenderLog} {sent : Sent} {e : End} {key : AssociationKey}

theorem stream_of_sendStatus {data : Bytes} {stream : StreamId}
    (ok : sendStatus a data stream = .ok) :
    stream.toNat < a.outStreams.toNat := by
  by_contra outside
  unfold sendStatus at ok
  split at ok
  · unfold refusalIn at ok
    split at ok <;> cases ok
  · split at ok
    · cases ok
    · rw [if_pos (Nat.le_of_not_lt outside)] at ok
      cases ok

theorem SenderRun.known (run : SenderRun start log) :
    log.assoc.outStreams = start.outStreams ∧ ∀ m ∈ log.messages, m.stream.toNat
      < start.outStreams.toNat := by
  induction run with
  | start => exact ⟨rfl, fun m none => absurd none List.not_mem_nil⟩
  | @accept log data stream unordered _ ok ih =>
    obtain ⟨streams, known⟩ := ih
    refine ⟨streams, fun m member => ?_⟩
    rcases List.mem_append.mp member with before | new
    · exact known m before
    · rw [List.mem_singleton.mp new, ← streams]
      exact stream_of_sendStatus ok
  | @cut log allowance _ ih =>
    refine ⟨?_, ih.2⟩
    rw [show (cutNewData log.assoc allowance).assoc.outStreams = log.assoc.outStreams by
      rw [cutNewData_only]]
    exact ih.1
  | other assoc _ same ih => exact ⟨same.2.2.2.1.trans ih.1, ih.2⟩

/-- An ordered message counts among those of its stream. -/
theorem ordinal_lt_count {messages : List SentMessage} {j : Nat} {m : SentMessage}
    (found : messages[j]? = some m) (ordered : m.unordered = false) :
    ordinal messages m.stream j < messages.countP (orderedOn m.stream) := by
  have here : (messages.take (j + 1)).countP (orderedOn m.stream)
      = ordinal messages m.stream j + 1 := by
    rw [List.take_add_one, found, List.countP_append, ordinal]
    simp [orderedOn, ordered]
  rw [Nat.lt_iff_add_one_le, ← here]
  exact (List.take_sublist (j + 1) messages).countP_le

/-- Where a chunk was cut does not change with what is sent later. -/
theorem Extends.cursor (extends_ : Extends sent start e) (fresh : FreshSender start)
    (run : SenderRun start ⟨a, e.messages, e.chunks⟩) {data : DataChunkValue}
    (member : data ∈ e.chunks) {i : Nat} (found : sent.chunks[i]? = some data) :
    ∃ m, e.messages[(sent.cursor i).message]? = some m := by
  have inv := senderInv_run fresh run
  obtain ⟨moreChunks, chunks⟩ := extends_.chunks
  obtain ⟨moreMessages, messages⟩ := extends_.messages
  obtain ⟨k, bound, here⟩ := List.mem_iff_getElem.mp member
  have cutAs : e.chunks[k]? = some data := by rw [List.getElem?_eq_getElem bound, here]
  -- No two of fewer than 2^31 chunks have one TSN.
  have same : i = k := by
    have there : sent.chunks[k]? = some data := by
      rw [← chunks, List.getElem?_append_left bound, cutAs]
    obtain ⟨_, -, frag⟩ := Sent.fragment found
    obtain ⟨_, -, frag'⟩ := Sent.fragment there
    exact Sent.index_of_tsn (Nat.le_of_lt (List.getElem?_eq_some_iff.mp found).1)
      (Nat.le_of_lt (List.getElem?_eq_some_iff.mp there).1) (frag.tsn.symm.trans frag'.tsn)
  subst same
  have place : sent.cursor i = Cursor.after e.messages (e.chunks.take i) := by
    rw [Sent.cursor, ← chunks, List.take_append_of_le_length (Nat.le_of_lt bound), ← messages]
    refine Cursor.after_append moreMessages fun n d there => ?_
    rw [List.getElem?_take] at there
    split at there
    · next before =>
      obtain ⟨m, placed, -⟩ := inv.framed n d there
      exact ⟨m, by rwa [List.take_take, Nat.min_eq_left (Nat.le_of_lt before)]⟩
    · cases there
  obtain ⟨m, placed, -⟩ := inv.framed i data cutAs
  rw [place]
  exact ⟨m, placed⟩

theorem Extends.inWindow (extends_ : Extends sent start e) (fresh : FreshSender start)
    (run : SenderRun start ⟨a, e.messages, e.chunks⟩) {passed : StreamId → Nat}
    (near : ∀ stream, e.messages.countP (orderedOn stream) ≤ passed stream + 32768)
    {data : DataChunkValue} (member : data ∈ e.chunks) {i : Nat}
    (found : sent.chunks[i]? = some data) :
    InWindow sent (reach passed) (sent.cursor i).message := by
  intro m there ordered
  obtain ⟨m', here⟩ := extends_.cursor fresh run member found
  obtain ⟨more, messages⟩ := extends_.messages
  have bound := (List.getElem?_eq_some_iff.mp here).1
  rw [← messages, List.getElem?_append_left bound, here] at there
  cases there
  rw [← messages, ordinal_append more m.stream (Nat.le_of_lt bound)]
  exact Nat.lt_of_lt_of_le (ordinal_lt_count here ordered) (near m.stream)

end Sent

/-! ## Steps -/

@[simp] theorem Side.other_ne (side : Side) : side.other ≠ side := by cases side <;> decide

@[simp] theorem Side.other_other (side : Side) : side.other.other = side := by cases side <;> rfl

theorem Side.other_eq {s side : Side} (apart : s ≠ side) : s.other = side := by
  revert apart
  cases s <;> cases side <;> decide

/-- What holds of one end: it sends as a sender does, and nothing but what it cut. -/
structure Going (key : AssociationKey) (start : Association) (e : End) : Prop where
  reached : System.Reached Arrives e.system
  sends : ∃ a, e.system.socket.find? key = some a ∧ forming a.state = false
    ∧ SenderRun start ⟨a, e.messages, e.chunks⟩
  stems : Stems key e.chunks e.system.socket []
  wire : ∀ packet ∈ e.wire, ∀ data ∈ packet.dataChunks, data ∈ e.chunks

/-- What holds of its receiving side, whatever the other end goes on to send. -/
def Hearing (key : AssociationKey) (e : End) (start : Association) (peer : End) : Prop :=
  ∀ sent, Extends sent start peer → ReceiverInv sent key (e.receiver e.system.socket)

section Steps

variable {key : AssociationKey} {start peerStart : Association} {e e' peer : End} {event : Event}

/-- No association goes back to a handshake under the tags it has. -/
theorem up_step {σ σ' : System} {a b : Association} (standing : Standing σ.socket)
    (stepped : σ.step event = some σ') (found : σ.socket.find? key = some a)
    (up : forming a.state = false) (after : σ'.socket.find? key = some b)
    (thisVerTag : b.thisVerTag = a.thisVerTag) : forming b.state = false := by
  have upkeep : Upkeep (some a) (fun _ => True) fun _ => Enduring a fun _ => True :=
    upkeep_enduring a fun _ _ => trivial
  exact (upkeep.step standing stepped found (fun _ _ => trivial) (enduring_start found up trivial)
    b after thisVerTag).1

theorem Going.step (going : Going key start e) (stepped : e.step key event = some e')
    (arrives : Arrives e.system event) (lasts : Lasts key e.system.socket e'.system.socket) :
    Going key start e' := by
  obtain ⟨a, found, up, run⟩ := going.sends
  obtain ⟨b, after, thisVerTag, peerVerTag⟩ := lasts a found
  obtain ⟨σ', took, rfl⟩ := Option.map_eq_some_iff.mp stepped
  have standing := going.reached.standing
  obtain ⟨stems, puts⟩ := System.puts_from_cuts (orderly_reached going.reached) took going.stems
  refine ⟨going.reached.next arrives took, ⟨b, after, ?_, ?_⟩, stems,
    fun packet member data inside => ?_⟩
  · exact up_step standing took found up after thisVerTag
  · exact senderRun_step standing took found up after thisVerTag peerVerTag run
  · rcases List.mem_append.mp member with before | new
    · exact List.mem_append_left _ (going.wire packet before data inside)
    · exact puts packet new data inside

/-- What is kept of a packet was in it. -/
theorem mem_dataChunks_of_stripped {packet : Packet} {chunk : Chunk} {data : DataChunkValue}
    (member : chunk ∈ (stripUnrecognized packet.chunks).1) (is : chunk.value = .data data) :
    data ∈ packet.dataChunks := by
  refine List.mem_filterMap.mpr ⟨chunk, (stripUnrecognized_sublist packet.chunks).subset member, ?_⟩
  rw [is]

theorem Hearing.step (hearing : Hearing key e peerStart peer) (going : Going key start e)
    {peerKey : AssociationKey} (sender : Going peerKey peerStart peer)
    (fresh : FreshSender peerStart) (stepped : e.step key event = some e')
    (lasts : Lasts key e.system.socket e'.system.socket)
    (genuine : ∀ now draws packet src s carried, event = .recv now draws packet src →
      e.system.socket.dispatch now draws packet src = some (s, key, carried) → packet ∈ peer.wire)
    (near : ∀ now draws packet src, event = .recv now draws packet src →
      ∀ stream, peer.messages.countP (orderedOn stream) ≤ e.passed stream + 32768) :
        Hearing key e' peerStart peer := by
  intro sent extends_
  obtain ⟨a, found, up, -⟩ := going.sends
  obtain ⟨b, after, thisVerTag, peerVerTag⟩ := lasts a found
  obtain ⟨σ', took, rfl⟩ := Option.map_eq_some_iff.mp stepped
  obtain ⟨_, -, -, run⟩ := sender.sends
  refine receiverInv_step going.reached.standing took found up after thisVerTag peerVerTag
    (hearing sent extends_) ?_
  intro now draws packet src s p carried is met
  obtain ⟨s', gone, -, rfl, -⟩ := meets_spec met
  -- What passes for the peer's it put out, and it puts out nothing but what it cut.
  have put := genuine now draws packet src s' carried is gone
  have ours : ∀ chunk ∈ (stripUnrecognized packet.chunks).1, ∀ data, chunk.value = .data data →
      data ∈ peer.chunks :=
    fun chunk member data value =>
      sender.wire packet put data (mem_dataChunks_of_stripped member value)
  refine ⟨fun chunk member data value => extends_.chunks.subset (ours chunk member data value),
    fun _ _ _ => ?_⟩
  exact withinReach_of_near fun chunk member data value i there =>
    extends_.inWindow fresh run (near now draws packet src is) (ours chunk member data value) there

/-- The other end takes a step. -/
theorem Hearing.later (hearing : Hearing key e peerStart peer) {peerKey : AssociationKey}
    {peer' : End} (stepped : peer.step peerKey event = some peer') :
    Hearing key e peerStart peer' := by
  obtain ⟨σ', -, rfl⟩ := Option.map_eq_some_iff.mp stepped
  intro sent extends_
  refine hearing sent ⟨extends_.base, ?_, ?_, extends_.known⟩
  · exact (List.prefix_append _ _).trans extends_.messages
  · exact (List.prefix_append _ _).trans extends_.chunks

end Steps

/-! ## Runs -/

/-- What holds of both ends in every state of a conversation. -/
structure Conversing (keys : Side → AssociationKey) (starts : Side → Association)
    (c : Conversation) : Prop where
  fresh : ∀ side, FreshSender (starts side)
  going : ∀ side, Going (keys side) (starts side) (c side)
  hearing : ∀ side, Hearing (keys side) (c side) (starts side.other) (c side.other)

section Runs

variable {keys : Side → AssociationKey} {starts : Side → Association} {c c' : Conversation}

theorem Agree.receives {a b : Association} (agree : Agree a b) {key : AssociationKey} {peer e : End}
    (system : e.system.socket.find? key = some b)
    (untold : e = ⟨e.system, [], [], [], fun _ => 0, []⟩) :
    Hearing key e a peer := by
  intro sent extends_
  rw [untold]
  refine receiverInv_start system ⟨agree.reassembly, agree.inboundStreams, agree.heldDeliveries,
    agree.tsnOooBuffer, ?_, ?_⟩
  · rw [agree.lastPeerTsn, extends_.base]
  · exact fun m member => Nat.lt_of_lt_of_le (extends_.known m member) agree.streams

theorem Conversing.begins (begins : Conversation.Begins keys c) : ∃ starts, Conversing keys starts c
    ∧ ∀ side, (c side).system.socket.find? (keys side) = some (starts side) := by
  choose starts b found here agree using begins.agree
  refine ⟨starts, ⟨fun side => (agree side).fresh, fun side => ?_, fun side => ?_⟩, found⟩
  · have untold := begins.untold side
    have none : (c side).messages = [] ∧ (c side).chunks = [] ∧ (c side).wire = [] := by
      rw [untold]
      exact ⟨rfl, rfl, rfl⟩
    obtain ⟨messages, chunks, wire⟩ := none
    refine ⟨begins.reached side, ⟨starts side, found side, (agree side).up, ?_⟩, fun a there => ?_,
      ?_⟩
    · rw [messages, chunks]
      exact .start
    · cases (found side).symm.trans there
      refine .nothing (fun tsn => ?_) (begins.idle side)
      rw [sentData, (agree side).outstanding]
      rfl
    · rw [wire]
      exact fun packet member => absurd member List.not_mem_nil
  · have heard := here side.other
    rw [Side.other_other] at heard
    exact (agree side.other).receives heard (begins.untold side)

theorem Conversing.step (conversing : Conversing keys starts c) {turn : Side × Event}
    (permitted : Conversation.Permitted keys c turn)
    (stepped : Conversation.step keys c turn = some c') :
    Conversing keys starts c' := by
  obtain ⟨side, event⟩ := turn
  obtain ⟨e, took, rfl⟩ := Option.map_eq_some_iff.mp stepped
  have lasts : Lasts (keys side) (c side).system.socket e.system.socket := by
    obtain ⟨σ', moved, rfl⟩ := Option.map_eq_some_iff.mp took
    exact permitted.lasts σ' moved
  have goes := (conversing.going side).step took permitted.arrives lasts
  have hears := (conversing.hearing side).step (conversing.going side) (conversing.going side.other)
    (conversing.fresh side.other) took lasts permitted.genuine permitted.near
  -- Of the other side nothing changes but what it may still be sent.
  refine ⟨conversing.fresh, fun s => ?_, fun s => ?_⟩
  · by_cases mine : s = side
    · subst mine
      rw [Function.update_self]
      exact goes
    · rw [Function.update_of_ne mine]
      exact conversing.going s
  · by_cases mine : s = side
    · subst mine
      rw [Function.update_self, Function.update_of_ne s.other_ne]
      exact hears
    · obtain rfl : s.other = side := Side.other_eq mine
      rw [Function.update_self, Function.update_of_ne s.other_ne.symm]
      exact (conversing.hearing s).later took

theorem conversing (reached : Conversation.Reached keys c) :
    ∃ starts, Conversing keys starts c := by
  refine reached.invariant (fun c => ∃ starts, Conversing keys starts c) (fun c begins => ?_) ?_
  · obtain ⟨starts, conversing, -⟩ := Conversing.begins begins
    exact ⟨starts, conversing⟩
  · rintro c turn c' ⟨starts, conversing⟩ permitted stepped
    exact ⟨starts, conversing.step permitted stepped⟩

/-- What an end sent so far. -/
theorem Going.extends {key : AssociationKey} {start : Association} {e : End}
    (going : Going key start e) (fresh : FreshSender start) (few : e.chunks.length < 2 ^ 31) :
    ∃ sent, sent.messages = e.messages ∧ sent.chunks = e.chunks ∧ Extends sent start e := by
  obtain ⟨a, -, -, run⟩ := going.sends
  refine ⟨run.sent fresh few, rfl, rfl, rfl, List.prefix_refl _, List.prefix_refl _, run.known.2⟩

end Runs

namespace Opened

/-- The other end opens the association too, with the tag and the first TSN its peer heard. -/
def otherDraws : Draws := { draws with tag := ⟨7#32, by decide⟩, tsn := 100#32 }

def otherArrives (chunks : List Chunk) :
    Event := .recv 0 (fun _ => otherDraws) ⟨⟨5000#16, 5000#16, 7#32⟩, chunks⟩ own

def otherInitAck : Chunk :=
  ⟨0#8, .initAck ⟨1#32, 65535#32, 1#16, 1#16, 10#32,
    [0x00#8, 0x07#8, 0x00#8, 0x05#8, 0x01#8, 0#8, 0#8, 0#8]⟩⟩

def otherEvents : List Event :=
  [.associate otherDraws own 5000#16] ++ batch 1 ++ [otherArrives [otherInitAck]] ++ batch 1
    ++ [otherArrives [⟨0#8, .cookieAck⟩]]

def otherStart : System := ⟨.fresh peer, none, fun _ _ => none⟩

def keys : Side → AssociationKey
  | .left => key
  | .right => peerKey own 5000#16

def both (left right : System) : Conversation
  | .left => ⟨left, [], [], [], fun _ => 0, []⟩
  | .right => ⟨right, [], [], [], fun _ => 0, []⟩

instance (a b : Association) : Decidable (Agree a b) :=
  decidable_of_iff (forming a.state = false
    ∧ (a.outbound = [] ∧ a.nextSsn = List.replicate a.outStreams.toNat 0#16
    ∧ a.pmdcs = defaultPmdcs)
    ∧ a.outstandingData = ∅ ∧ a.cumulativeTsnAck + 1#32 = a.nextTsn ∧ b.lastPeerTsn + 1#32
      = a.nextTsn
    ∧ a.outStreams.toNat ≤ b.inStreams.toNat ∧ b.reassembly = .closed ∧ b.inboundStreams = ∅
    ∧ b.heldDeliveries = []
    ∧ b.tsnOooBuffer = ∅) (by
    constructor
    · rintro ⟨up, ⟨outbound, nextSsn, pmdcs⟩, outstanding, acked, last, streams, reassembly,
        inbound, held, ooo⟩
      exact ⟨up, ⟨outbound, nextSsn, pmdcs⟩, outstanding, acked, last, streams, reassembly, inbound,
        held, ooo⟩
    · rintro ⟨up, ⟨outbound, nextSsn, pmdcs⟩, outstanding, acked, last, streams, reassembly,
        inbound, held, ooo⟩
      exact ⟨up, ⟨outbound, nextSsn, pmdcs⟩, outstanding, acked, last, streams, reassembly, inbound,
        held, ooo⟩)

/-- Neither end has anything queued, and what one is to send the other is to receive. -/
def ready (c : Conversation) (side : Side) : Bool :=
  let own := (c side).system.socket
  let other := (c side.other).system.socket
  decide (newDataFor own (keys side) = [] ∧ rtxData own (keys side) = [])
    && (own.sends.control.all fun queued =>
      decide (queued.deliverable.location = keys side → queued.deliverable.packet.acks = []))
    && ((own.find? (keys side)).any fun a => (other.find? (keys side.other)).any fun b =>
      decide (Agree a b))

def permits (c : Conversation) (turn : Side × Event) : Bool :=
  let own := (c turn.1).system
  encodes turn.2
    && (match turn.2 with
      | .recv _ _ packet _ => decide (packet ∈ (c turn.1.other).wire
          ∧ (c turn.1.other).messages.length ≤ 32768)
      | _ => true)
    && ((own.step turn.2).all fun σ => (own.socket.find? (keys turn.1)).all fun a =>
      (σ.socket.find? (keys turn.1)).any fun b =>
        decide (b.thisVerTag = a.thisVerTag ∧ b.peerVerTag = a.peerVerTag))

theorem ready_spec {c : Conversation} {side : Side} (is : ready c side = true) :
    NothingQueued (c side).system.socket (keys side)
      ∧ (∀ queued ∈ (c side).system.socket.sends.control, queued.deliverable.location = keys side →
        queued.deliverable.packet.acks = [])
      ∧ ∃ a b, (c side).system.socket.find? (keys side) = some a
        ∧ (c side.other).system.socket.find? (keys side.other) = some b ∧ Agree a b := by
  unfold ready at is
  simp only [Bool.and_eq_true, List.all_eq_true, decide_eq_true_eq] at is
  obtain ⟨⟨idle, silent⟩, agreed⟩ := is
  obtain ⟨a, found, there⟩ := (Option.any_eq_true _ _).mp agreed
  obtain ⟨b, found', agree⟩ := (Option.any_eq_true _ _).mp there
  exact ⟨idle, silent, a, b, found, found', of_decide_eq_true agree⟩

theorem begins_of_ready {left right : System} (reachedLeft : System.Reached Arrives left)
    (reachedRight : System.Reached Arrives right) (readyLeft : ready (both left right) .left = true)
    (readyRight : ready (both left right) .right = true) :
    Conversation.Begins keys (both left right) := by
  have each : ∀ side, System.Reached Arrives (both left right side).system
      ∧ ready (both left right) side = true := by
    intro side
    cases side with
    | left => exact ⟨reachedLeft, readyLeft⟩
    | right => exact ⟨reachedRight, readyRight⟩
  refine ⟨fun side => (each side).1, fun side => ?_, fun side => (ready_spec (each side).2).1,
    fun side => (ready_spec (each side).2).2.1, fun side => (ready_spec (each side).2).2.2⟩
  cases side with
  | left => rfl
  | right => rfl

theorem permitted_of_permits {c : Conversation} {turn : Side × Event} (is : permits c turn = true) :
    Conversation.Permitted keys c turn := by
  obtain ⟨side, event⟩ := turn
  unfold permits at is
  simp only [Bool.and_eq_true] at is
  obtain ⟨⟨encoded, wire⟩, lasts⟩ := is
  refine ⟨arrives_of_encodes encoded, ?_, ?_, fun σ stepped a found => ?_⟩
  · rintro now draws packet src s carried rfl -
    exact (of_decide_eq_true wire).1
  · rintro now draws packet src rfl stream
    exact List.countP_le_length.trans ((of_decide_eq_true wire).2.trans (Nat.le_add_left _ _))
  · simp only at stepped found
    rw [stepped, found] at lasts
    obtain ⟨b, after, tags⟩ := (Option.any_eq_true _ _).mp lasts
    exact ⟨b, after, of_decide_eq_true tags⟩

/-- Each end opens the association, and the conversation goes on from there. -/
theorem exists_conversation (turns : List (Side × Event)) {p : Conversation → Bool}
    (ends : ((Run.replayWhile System.step (fun _ event => encodes event) start events).bind
      fun left =>
      (Run.replayWhile System.step (fun _ event => encodes event) otherStart otherEvents).bind
        fun right =>
        if ready (both left right) .left && ready (both left right) .right then
          Run.replayWhile (Conversation.step keys) permits (both left right) turns
        else none).any p = true) : ∃ c, Conversation.Reached keys c ∧ p c = true := by
  obtain ⟨c, played, holds⟩ := (Option.any_eq_true _ _).mp ends
  obtain ⟨left, opened, played⟩ := Option.bind_eq_some_iff.mp played
  obtain ⟨right, otherOpened, played⟩ := Option.bind_eq_some_iff.mp played
  have reached : ∀ {σ₀ σ : System} {run : List Event},
      (∃ address, σ₀ = ⟨.fresh address, none, fun _ _ => none⟩) →
        Run.replayWhile System.step (fun _ event => encodes event) σ₀ run = some σ →
          System.Reached Arrives σ := by
    intro σ₀ σ run begins opened
    exact Run.Reach.replayWhile (.start begins) run (fun _ _ => arrives_of_encodes) opened
  split at played
  · next both =>
    rw [Bool.and_eq_true] at both
    have begins := begins_of_ready (reached ⟨own, rfl⟩ opened) (reached ⟨peer, rfl⟩ otherOpened)
      both.1 both.2
    exact ⟨c, Run.Reach.replayWhile (.start begins) turns (fun _ _ => permitted_of_permits) played,
      holds⟩
  · cases played

/-- A message goes out and its packet arrives twice; the other end says what it has. -/
def answered : List (Side × Event) :=
  ([Event.sendData key [1#8, 2#8] 0#16 false] ++ batch 1).map (Prod.mk .left)
    ++ (List.replicate 2 (otherArrives [⟨3#8, .data ⟨10#32, 0#16, 0#16, 0#32, [1#8, 2#8], 3#8⟩⟩])
      ++ batch 1).map (Prod.mk .right)

def oneSent (c : Conversation) : Bool :=
  (c .left).chunks.length == 1 && (c .left).messages == [⟨0#16, 0#16, false, [1#8, 2#8]⟩]

theorem oneSent_spec {c : Conversation} (is : oneSent c = true) :
    (c .left).chunks.length < 2 ^ 31 ∧ (c .left).messages = [⟨0#16, 0#16, false, [1#8, 2#8]⟩] := by
  unfold oneSent at is
  simp only [Bool.and_eq_true, beq_iff_eq] at is
  refine ⟨?_, is.2⟩
  rw [is.1]
  decide

end Opened

end SctpStack
