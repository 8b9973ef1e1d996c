import SctpStack.Receiver

/-!
# Exactly-once, ordered delivery

What the application of a receiver is given of the messages of a sender
(`Delivered`): whole messages, each once, the ordered ones of a stream in the order they
were sent, and in part at most the message whose chunks are being consumed. Every message
consumed whole is among them, or held until that one is whole. It holds in every state of
a run in which no ordered chunk arrives 2^15 or more messages ahead of its stream; without
that bound an honest sender can be taken for a violator.
-/

namespace SctpStack

open Serial

/-! ## What was delivered -/

/-- The log of what was pushed to the receive queue, after `consumed` chunks were
consumed in TSN order: the messages `handed` whole, then, while a partial delivery is
open, all that was consumed of the one `underway`. The messages `held` go up behind it. -/
structure Delivered (sent : Sent) (log : List Delivery) (assoc : Association) (consumed : Nat)
    (handed : List Nat) (underway : Option Nat) (held : List Nat) : Prop where
  pieces : ∃ groups tail, log = groups.flatten ++ tail
    ∧ List.Forall₂ (fun j pieces => ∃ m, sent.messages[j]? = some m ∧ IsWhole m pieces)
      handed groups
    ∧ (underway = none → tail = [])
    ∧ ∀ p, underway = some p → p = (sent.cursor consumed).message ∧ ∃ m, sent.messages[p]? = some m
      ∧ 0 < (sent.cursor consumed).offset ∧ (sent.cursor consumed).offset < m.bytes.length
      ∧ IsPart m (sent.cursor consumed).offset tail
  isOpen : partialDeliveryOpen assoc = underway.isSome
  behind : assoc.heldDeliveries = held.map sent.delivery
  free : underway = none → held = []
  once : (handed ++ underway.toList ++ held).Nodup
  ordered : ∀ stream, ∃ n, ((handed ++ underway.toList ++ held).filter (sent.orderedAt stream)).map
    (ordinal sent.messages stream) = List.range n
  complete : ∀ j, j < (sent.cursor consumed).message → j ∈ handed ∨ j ∈ held

section Complete

variable {sent : Sent} {top : StreamId → Nat} {g : Progress} {past : List Delivery} {st : Receiving}

/-- A place inside a message is before its end. -/
theorem Sent.offset_lt {i : Nat} {m : SentMessage} (inside : (sent.cursor i).offset ≠ 0)
    (bound : i ≤ sent.chunks.length) (here : sent.messages[(sent.cursor i).message]? = some m) :
    (sent.cursor i).offset < m.bytes.length := by
  obtain ⟨k, data, rfl, found, more, same, offset⟩ := Sent.previous inside bound
  obtain ⟨m', here', frag⟩ := Sent.fragment found
  rw [same, here] at here'
  cases here'
  have ends := frag.ends
  rw [more, eq_comm, decide_eq_false_iff_not] at ends
  have fits := frag.fits
  omega

/-- Every ordinal up to that of a message is some earlier message's. -/
theorem Sent.exists_ordinal {stream : StreamId} {n : Nat} (j : Nat)
    (lt : n < ordinal sent.messages stream j) :
    ∃ i < j, sent.orderedAt stream i = true ∧ ordinal sent.messages stream i = n := by
  induction j with
  | zero => simp [ordinal] at lt
  | succ j ih =>
    have step : ordinal sent.messages stream (j + 1)
        = ordinal sent.messages stream j + if sent.orderedAt stream j then 1 else 0 := by
      unfold ordinal Sent.orderedAt
      rw [List.take_add_one, List.countP_append]
      cases sent.messages[j]? with
      | none => simp
      | some m => simp [List.countP_cons]
    by_cases before : n < ordinal sent.messages stream j
    · obtain ⟨i, lt', found⟩ := ih before
      exact ⟨i, by omega, found⟩
    · cases ordered : sent.orderedAt stream j with
      | true =>
        rw [ordered, if_pos rfl] at step
        exact ⟨j, Nat.lt_succ_self j, ordered, by omega⟩
      | false =>
        rw [ordered, if_neg (by simp)] at step
        omega

/-- Nothing waits whose message was consumed: the first of its stream would have gone up. -/
theorem not_waiting_of_consumed (tracks : Tracks sent top g past st) {j : Nat}
    (before : j < (sent.cursor g.next).message) : ¬ g.waiting j := by
  intro waiting
  obtain ⟨m, found, ordered, le, lt⟩ := tracks.streams.waits j waiting
  have isOrdered : sent.orderedAt m.stream j = true :=
    Sent.orderedAt_iff.mpr ⟨m, found, ordered, rfl⟩
  -- The message the stream waits for is this one or an earlier one, so it is complete too.
  obtain ⟨i, hi, orderedHere, turn⟩ : ∃ i ≤ j, sent.orderedAt m.stream i = true
      ∧ ordinal sent.messages m.stream i = g.ssn m.stream := by
    rcases Nat.eq_or_lt_of_le le with same | less
    · exact ⟨j, Nat.le_refl j, isOrdered, same.symm⟩
    · obtain ⟨i, lt', ordered', turn⟩ := Sent.exists_ordinal j less
      exact ⟨i, Nat.le_of_lt lt', ordered', turn⟩
  have notYet : i ∉ g.order := fun member => by
    have := tracks.streams.ordinal_lt_ssn member orderedHere
    omega
  have waits : g.waiting i := by
    rcases tracks.lower.finished i (by omega) with inHanded | inHeld | waits
    · exact absurd (by simp [Progress.order, inHanded]) notYet
    · exact absurd (by simp [Progress.order, inHeld]) notYet
    · exact waits
  obtain ⟨m', found', -, eq⟩ := Sent.orderedAt_iff.mp orderedHere
  have present := (tracks.streams.early m.stream
    (BitVec.ofNat 16 (ordinal sent.messages m.stream i)) m'.bytes).mpr ⟨i, m', waits, found', eq,
    rfl, rfl⟩
  have settled := tracks.settled m.stream
  rw [tracks.streams.ssn, ← turn, present] at settled
  cases settled

theorem delivered_of_tracks {assoc : Association} (tracks : Tracks sent top g past ⟨assoc, []⟩) :
    Delivered sent past assoc g.next g.handed g.underway g.held where
  pieces := by
    obtain ⟨groups, tail, log, whole, closed, part⟩ := tracks.handed.log
    rw [List.append_nil] at log
    refine ⟨groups, tail, log, whole, closed, fun p underway => ?_⟩
    obtain ⟨m, found, isPart⟩ := part p underway
    have inside : (sent.cursor g.next).offset ≠ 0 := by
      intro zero
      rw [(tracks.lower.straddles.1 zero).underway] at underway
      cases underway
    obtain ⟨-, m', here, -, -, -, gathered⟩ := tracks.lower.straddles.2 inside
    obtain ⟨-, -, -, idle⟩ | ⟨-, -, -, idle⟩ | ⟨-, -, -, busy, sentUp⟩ := gathered
    · rw [idle] at underway
      cases underway
    · rw [idle] at underway
      cases underway
    · rw [busy] at underway
      cases underway
      rw [← sentUp]
      refine ⟨rfl, m, found, ?_, ?_, isPart⟩
      · rw [sentUp]
        exact Nat.pos_of_ne_zero inside
      · rw [sentUp]
        exact Sent.offset_lt inside tracks.lower.bound found
  isOpen := tracks.handed.isOpen
  behind := tracks.handed.held
  free := tracks.handed.free
  once := tracks.handed.nodup
  ordered stream := ⟨_, tracks.streams.order stream⟩
  complete := by
    intro j before
    rcases tracks.lower.finished j before with inHanded | inHeld | waiting
    · exact Or.inl inHanded
    · exact Or.inr inHeld
    · exact absurd waiting (not_waiting_of_consumed tracks before)

end Complete

/-! ## Runs -/

section Runs

variable {start : Association} {sender : SenderLog} {key : AssociationKey} {r : Receiver}

/-- An honest sender is not aborted while no ordered chunk is 2^15 or more messages
ahead of its stream. -/
theorem unviolated_within_reach (fresh : FreshSender start) (sends : SenderRun start sender)
    (few : sender.chunks.length < 2 ^ 31)
    (run : ReceiverRun (sends.sent fresh few) key (PacketWithinReach (sends.sent fresh few) key)
      r) :
    r.violated = false ∧ ∃ assoc, r.socket.find? key = some assoc := by
  have inv := run.inv
  obtain ⟨assoc, g, found, -⟩ := inv.tracks
  exact ⟨inv.unviolated, assoc, found⟩

end Runs

/-! ## A sender of one-byte messages -/

section Ticks

/-- One stream, nothing sent yet. -/
def ticker : Association :=
  { Association.blank with
    state := .established
    pmdcs := defaultPmdcs
    peerAddressList := [makePath ⟨1#32, 1#16⟩ true defaultPmdcs]
    primaryPath := ⟨1#32, 1#16⟩
    outStreams := 1#16
    inStreams := 1#16
    nextSsn := [0#16]
    lastPeerTsn := 0#32 - 1#32 }

theorem ticker_fresh : FreshSender ticker := ⟨rfl, rfl, rfl⟩

/-- The ticker after `n` messages were sent. -/
def tickerAfter (n : Nat) : Association :=
  { ticker with nextTsn := BitVec.ofNat 32 n, nextSsn := [BitVec.ofNat 16 n] }

def tick (i : Nat) : SentMessage := ⟨0#16, BitVec.ofNat 16 i, false, [0#8]⟩

def tickChunk (i : Nat) : DataChunkValue :=
  ⟨BitVec.ofNat 32 i, 0#16, BitVec.ofNat 16 i, 0#32, [0#8], dataFlagB ||| dataFlagE⟩

def openWindow : SendAllowance := ⟨0, true, false, rwnd, false, false⟩

/-- One more message accepted and cut. -/
theorem cut_tick (n : Nat) :
    (cutNewData (queueMessage (tickerAfter n) [0#8] 0#16 false) openWindow).assoc
      = tickerAfter (n + 1)
      ∧ (cutNewData (queueMessage (tickerAfter n) [0#8] 0#16 false) openWindow).chunks
        = [tickChunk n] := by
  simp [cutNewData, queueMessage, tickerAfter, ticker, cutNewDataFrom, cutSize, fullFragment,
    fragmentWireSize, pad4, defaultPmdcs, dataChunkHeaderSize, openWindow, rwnd, cutChunk, afterCut,
    cutFlags, tickChunk, BitVec.ofNat_add, Association.blank]

theorem ticks (n : Nat) :
    SenderRun ticker ⟨tickerAfter n, (List.range n).map tick, (List.range n).map tickChunk⟩ := by
  induction n with
  | zero => exact .start
  | succ n ih =>
    have accepted := SenderRun.accept [0#8] 0#16 false ih (by rfl)
    have cut := SenderRun.cut openWindow accepted
    obtain ⟨assoc, chunks⟩ := cut_tick n
    simp only [assoc, chunks] at cut
    rw [List.range_succ, List.map_append, List.map_append]
    exact cut

theorem ticks_few {n : Nat} (bound : n < 2 ^ 31) :
    ((List.range n).map tickChunk).length < 2 ^ 31 := by
  simpa using bound

/-- What the ticker has sent after `n` messages. -/
def tickSent (n : Nat) (bound : n < 2 ^ 31) : Sent := (ticks n).sent ticker_fresh (ticks_few bound)

def tickKey : AssociationKey := ⟨⟨1#32, 1#16⟩⟩

def tickSocket : Socket := (Socket.fresh ⟨2#32, 2#16⟩).setAssociation tickKey ticker

def tickPacket (i : Nat) : Packet :=
  ⟨⟨1#16, 2#16, 0#32⟩, [⟨dataFlagB ||| dataFlagE, .data (tickChunk i)⟩]⟩

/-- A receiver of ticks before the first. -/
def tickReceiver : Receiver := ⟨tickSocket, fun _ => 0, [], false⟩

theorem tickReceiver_start {n : Nat} (bound : n < 2 ^ 31)
    (Allowed : Receiver → Packet → Bool → Prop) :
    ReceiverRun (tickSent n bound) tickKey Allowed tickReceiver := by
  refine .start tickSocket ticker (by simp [tickSocket]) ⟨rfl, rfl, rfl, rfl, rfl, ?_⟩
  intro m member
  simp only [tickSent, SenderRun.sent, List.mem_map] at member
  obtain ⟨i, -, rfl⟩ := member
  exact Nat.zero_lt_one

theorem tickPacket_fromSender {n i : Nat} (bound : n < 2 ^ 31) (inside : i < n) :
    FromSender (tickSent n bound) (tickPacket i).chunks := by
  intro chunk member data value
  rw [List.mem_singleton.mp member] at value
  cases value
  exact List.mem_map_of_mem (List.mem_range.mpr inside)

theorem tickPacket_arrives {n i : Nat} (bound : n < 2 ^ 31) (inside : i < n) :
    ReceiverRun (tickSent n bound) tickKey (fun _ _ _ => True)
      (tickReceiver.packet tickKey 0 (tickPacket i) ⟨1#32, 1#16⟩ false) :=
  .packet 0 (tickPacket i) ⟨1#32, 1#16⟩ false (tickReceiver_start bound _)
    (tickPacket_fromSender bound inside) trivial

/-- A message 2^15 ahead of its stream that arrives first is taken for a violation. -/
theorem honest_sender_aborted :
    ∃ (start : Association) (sender : SenderLog) (fresh : FreshSender start)
      (sends : SenderRun start sender) (few : sender.chunks.length < 2 ^ 31) (key : AssociationKey)
      (r : Receiver), ReceiverRun (sends.sent fresh few) key (fun _ _ _ => True) r
        ∧ r.violated = true ∧ r.socket.find? key = none := by
  have sent : ∀ n, n < 2 ^ 31 → 32768 < n → ∃ (start : Association) (sender : SenderLog)
      (fresh : FreshSender start) (sends : SenderRun start sender)
      (few : sender.chunks.length < 2 ^ 31),
      ReceiverRun (sends.sent fresh few) tickKey (fun _ _ _ => True)
        (tickReceiver.packet tickKey 0 (tickPacket 32768) ⟨1#32, 1#16⟩ false) :=
    fun n bound inside => ⟨ticker, _, ticker_fresh, ticks n, ticks_few bound,
      tickPacket_arrives bound inside⟩
  obtain ⟨start, sender, fresh, sends, few, run⟩ := sent 32769 (by omega) (by omega)
  refine ⟨start, sender, fresh, sends, few, tickKey, _, run, ?_, ?_⟩
  · decide
  · decide

end Ticks

/-! ## A message in two fragments -/

section Letters

/-- Packets of the sender arrive one after the other. -/
theorem ReceiverRun.packets {sent : Sent} {key : AssociationKey} {r : Receiver} {src : SockAddr}
    (few : sent.messages.length ≤ 32768) (run : ReceiverRun sent key (PacketWithinReach sent key) r)
    (packets : List Packet) (ours : ∀ packet ∈ packets, FromSender sent packet.chunks) :
    ReceiverRun sent key (PacketWithinReach sent key)
      (packets.foldl (fun r packet => r.packet key 0 packet src false) r) := by
  induction packets generalizing r with
  | nil => exact run
  | cons packet rest ih =>
    refine ih ?_ fun p member => ours p (List.mem_cons_of_mem _ member)
    refine .packet 0 packet src false run (ours packet List.mem_cons_self) fun _ _ _ => ?_
    exact withinReach_of_near fun _ _ _ _ _ _ => inWindow_of_few few _ _

def letter : Bytes := List.replicate 1300 7#8

/-- A message on the ticker's stream is accepted. -/
def SenderLog.accepting (log : SenderLog) (data : Bytes) : SenderLog where
  assoc := queueMessage log.assoc data 0#16 false
  messages := log.messages ++ [⟨0#16, if false then 0#16 else log.assoc.nextSsn.getD 0 0#16, false,
    data⟩]
  chunks := log.chunks

/-- One more packet is cut. -/
def SenderLog.cutting (log : SenderLog) : SenderLog where
  assoc := (cutNewData log.assoc openWindow).assoc
  messages := log.messages
  chunks := log.chunks ++ (cutNewData log.assoc openWindow).chunks

/-- A letter and a tick. The letter takes two fragments, of which the second shares its
packet with the tick. -/
def letterSender : SenderLog :=
  ((SenderLog.mk ticker [] []).accepting letter).accepting [0#8] |>.cutting.cutting

theorem letterSender_run : SenderRun ticker letterSender := by
  have first := SenderRun.accept letter 0#16 false (.start : SenderRun ticker _) (by decide)
  have second := SenderRun.accept [0#8] 0#16 false first (by decide +kernel)
  have third := SenderRun.cut openWindow second
  exact SenderRun.cut openWindow third

def letterHead : DataChunkValue := ⟨0#32, 0#16, 0#16, 0#32, List.replicate 1184 7#8, dataFlagB⟩

def letterTail : DataChunkValue := ⟨1#32, 0#16, 0#16, 0#32, List.replicate 116 7#8, dataFlagE⟩

def postscript : DataChunkValue := ⟨2#32, 0#16, 1#16, 0#32, [0#8], dataFlagB ||| dataFlagE⟩

theorem letterSender_sent : letterSender.messages
    = [⟨0#16, 0#16, false, letter⟩, ⟨0#16, 1#16, false, [0#8]⟩]
    ∧ letterSender.chunks = [letterHead, letterTail, postscript] := by
  decide +kernel

theorem letterSender_few : letterSender.chunks.length < 2 ^ 31 := by
  rw [letterSender_sent.2]
  decide

def letterSent : Sent := letterSender_run.sent ticker_fresh letterSender_few

/-- The postscript overtakes the letter, whose fragments come in the wrong order and
then once more. -/
def letterPackets : List Packet :=
  [[postscript], [letterTail], [letterHead], [letterTail, letterHead]].map fun chunks =>
    ⟨⟨1#16, 2#16, 0#32⟩, chunks.map fun data => ⟨data.flags, .data data⟩⟩

def letterReceiver : Receiver :=
  letterPackets.foldl (fun r packet => r.packet tickKey 0 packet ⟨1#32, 1#16⟩ false) tickReceiver

theorem letterPackets_fromSender :
    ∀ packet ∈ letterPackets, FromSender letterSent packet.chunks := by
  have ours : ∀ packet ∈ letterPackets, ∀ chunk ∈ packet.chunks,
      ∃ data ∈ [letterHead, letterTail, postscript], chunk.value = .data data := by
    decide +kernel
  intro packet member chunk inside data value
  obtain ⟨data', sent, value'⟩ := ours packet member chunk inside
  rw [value] at value'
  cases value'
  rw [← letterSender_sent.2] at sent
  exact sent

theorem letterReceiver_run : ReceiverRun letterSent tickKey (PacketWithinReach letterSent tickKey)
    letterReceiver := by
  have messages : letterSent.messages
      = [⟨0#16, 0#16, false, letter⟩, ⟨0#16, 1#16, false, [0#8]⟩] := by
    simp only [letterSent, SenderRun.sent, letterSender_sent]
  have few : letterSent.messages.length ≤ 32768 := by
    simp [messages]
  refine ReceiverRun.packets few ?_ letterPackets letterPackets_fromSender
  refine .start tickSocket ticker (by simp [tickSocket]) ⟨rfl, rfl, rfl, rfl, rfl, ?_⟩
  intro m member
  rw [messages] at member
  rcases List.mem_pair.mp member with rfl | rfl
  · exact Nat.zero_lt_one
  · exact Nat.zero_lt_one

theorem letter_unviolated : letterReceiver.violated = false
    ∧ ∃ assoc, letterReceiver.socket.find? tickKey = some assoc :=
  unviolated_within_reach ticker_fresh letterSender_run letterSender_few letterReceiver_run

end Letters

end SctpStack
