import SctpStack.Outbound
import Mathlib.Data.List.Induction
import Mathlib.Data.List.GetD

/-!
# The chunks of one sender

What an honest peer puts on the wire: messages in the order they were accepted, cut
into chunks with consecutive TSNs, each chunk the next fragment of the message at
the head of the queue.

* `Sent`: such a sequence of chunks, as data with the conditions as fields.
* `SenderRun`: the messages `sctp_send_data` accepts and the chunks `cut_new_data`
  cuts from them, in any order and under any allowances.
* `SenderRun.sent`: every run of the sender yields such a sequence.
-/

namespace SctpStack

open Serial

/-! ## Framing -/

/-- A message as accepted from the application. -/
structure SentMessage where
  stream : StreamId
  ssn : Ssn
  unordered : Bool
  bytes : Bytes
deriving DecidableEq

/-- A place in a sequence of messages: bytes of the message at an index. -/
structure Cursor where
  message : Nat
  offset : Nat
deriving DecidableEq

namespace Cursor

/-- The place `count` bytes further on, within the same message. -/
def advance (messages : List SentMessage) (cursor : Cursor) (count : Nat) : Cursor :=
  match messages[cursor.message]? with
  | none => cursor
  | some m =>
    if cursor.offset + count = m.bytes.length then ⟨cursor.message + 1, 0⟩
    else ⟨cursor.message, cursor.offset + count⟩

/-- The place after the first chunks were cut. -/
def after (messages : List SentMessage) (chunks : List DataChunkValue) : Cursor :=
  chunks.foldl (fun cursor data => cursor.advance messages data.userData.length) ⟨0, 0⟩

@[simp] theorem after_nil (messages : List SentMessage) : after messages [] = ⟨0, 0⟩ := rfl

@[simp] theorem after_snoc (messages : List SentMessage) (chunks : List DataChunkValue)
    (data : DataChunkValue) :
    after messages (chunks ++ [data]) = (after messages chunks).advance messages
      data.userData.length := by
  simp [after]

end Cursor

/-- The chunk with TSN `tsn` is the next fragment of message `m`, from `offset` on. -/
structure Fragment (m : SentMessage) (offset : Nat) (tsn : Tsn) (data : DataChunkValue) : Prop where
  tsn : data.tsn = tsn
  stream : data.streamIdentifier = m.stream
  ssn : data.streamSeqNum = m.ssn
  unordered : data.unordered = m.unordered
  begins : data.begins = decide (offset = 0)
  ends : data.ends = decide (offset + data.userData.length = m.bytes.length)
  nonempty : data.userData ≠ []
  fits : offset + data.userData.length ≤ m.bytes.length
  bytes : data.userData = (m.bytes.drop offset).take data.userData.length

/-- The ordered messages of a stream. -/
def orderedOn (stream : StreamId) (m : SentMessage) : Bool := !m.unordered && m.stream == stream

/-- How many ordered messages of its stream precede the message at an index. -/
def ordinal (messages : List SentMessage) (stream : StreamId) (j : Nat) : Nat :=
  (messages.take j).countP (orderedOn stream)

/-- The chunks of one sender, fewer than half the TSN space. -/
structure Sent where
  base : Tsn
  messages : List SentMessage
  chunks : List DataChunkValue
  few : chunks.length < 2 ^ 31
  framed : ∀ i data, chunks[i]? = some data → ∃ m,
    messages[(Cursor.after messages (chunks.take i)).message]? = some m
      ∧ Fragment m (Cursor.after messages (chunks.take i)).offset (ahead base i) data
  numbered : ∀ j m, messages[j]? = some m → m.unordered = false →
    m.ssn = BitVec.ofNat 16 (ordinal messages m.stream j)

/-! ## Cutting -/

section Flags

variable (message : OutboundMessage) (take : Nat)

theorem cutFlags_begins : (cutFlags message take &&& dataFlagB != 0#8)
    = decide (message.offset = 0) := by
  unfold cutFlags
  by_cases h₁ : message.offset = 0 <;> by_cases h₂ : message.offset + take
    = message.bytes.length <;>
    cases message.unordered <;> simp_all [dataFlagB, dataFlagE, dataFlagU]

theorem cutFlags_ends :
    (cutFlags message take &&& dataFlagE != 0#8)
      = decide (message.offset + take = message.bytes.length) := by
  unfold cutFlags
  by_cases h₁ : message.offset = 0 <;> by_cases h₂ : message.offset + take
    = message.bytes.length <;>
    cases message.unordered <;> simp_all [dataFlagB, dataFlagE, dataFlagU]

theorem cutFlags_unordered : (cutFlags message take &&& dataFlagU != 0#8) = message.unordered := by
  unfold cutFlags
  by_cases h₁ : message.offset = 0 <;> by_cases h₂ : message.offset + take
    = message.bytes.length <;>
    cases message.unordered <;> simp_all [dataFlagB, dataFlagE, dataFlagU]

end Flags

/-- A message in the queue, as it was accepted. -/
def OutboundMessage.accepted (message : OutboundMessage) : SentMessage :=
  ⟨message.stream, message.ssn, message.unordered, message.bytes⟩

/-- A fragment is never empty and never longer than what is left of its message. -/
theorem cutSize_bounds {assoc : Association} {allowance : SendAllowance} {packetBytes : Nat}
    {probe : Bool} {message : OutboundMessage} {take : Nat} (pmdcs : assoc.pmdcs = defaultPmdcs)
    (left : message.offset < message.bytes.length)
    (cut : cutSize assoc allowance packetBytes probe message = some take) :
    0 < take ∧ message.offset + take ≤ message.bytes.length := by
  unfold cutSize at cut
  simp only [fullFragment, pmdcs, defaultPmdcs, dataChunkHeaderSize, fragmentWireSize, pad4] at cut
  generalize (if probe = true then _ else _) = window at cut
  split at cut
  · split at cut
    · cases cut
    · simp only [Option.some.injEq] at cut
      omega
  · simp only [Option.some.injEq] at cut
    omega

/-- The chunk cut from the message at the head is its next fragment. -/
theorem cutChunk_fragment (assoc : Association) {message : OutboundMessage} {take : Nat}
    (pos : 0 < take) (fits : message.offset + take ≤ message.bytes.length) :
    Fragment message.accepted message.offset assoc.nextTsn (cutChunk assoc message take) := by
  have length : ((message.bytes.drop message.offset).take take).length = take := by
    rw [List.length_take, List.length_drop]
    omega
  refine ⟨rfl, rfl, rfl, cutFlags_unordered message take, cutFlags_begins message take, ?_, ?_,
    ?_, ?_⟩
  · simp only [cutChunk, length]
    exact cutFlags_ends message take
  · intro empty
    have := congrArg List.length empty
    simp only [cutChunk, length, List.length_nil] at this
    omega
  · simp only [cutChunk, length, OutboundMessage.accepted]
    exact fits
  · simp only [cutChunk, length, OutboundMessage.accepted]

/-! ## Sizes -/

theorem dataChunkWireSize_eq (data : DataChunkValue) :
    dataChunkWireSize data = fragmentWireSize data.userData.length := by
  unfold dataChunkWireSize fragmentWireSize pad4 dataChunkHeaderSize
  omega

theorem fragmentWireSize_mono {a b : Nat} (le : a ≤ b) :
    fragmentWireSize a ≤ fragmentWireSize b := by
  unfold fragmentWireSize pad4
  omega

theorem dataChunkWireSize_cutChunk (assoc : Association) (message : OutboundMessage) (take : Nat) :
    dataChunkWireSize (cutChunk assoc message take) ≤ fragmentWireSize take := by
  rw [dataChunkWireSize_eq]
  exact fragmentWireSize_mono (List.length_take_le _ _)

/-- What `cut_new_data` may still put in the packet. -/
def cutWindow (assoc : Association) (allowance : SendAllowance) (packetBytes : Nat) (probe : Bool) :
    Nat :=
  if probe then assoc.pmdcs - packetBytes else min (assoc.pmdcs - packetBytes)
    (allowance.rwnd - packetBytes)

theorem cutSize_window {assoc : Association} {allowance : SendAllowance} {packetBytes : Nat}
    {probe : Bool} {message : OutboundMessage} {take : Nat}
    (cut : cutSize assoc allowance packetBytes probe message = some take) :
    fragmentWireSize take ≤ cutWindow assoc allowance packetBytes probe := by
  unfold cutSize at cut
  simp only [← cutWindow.eq_1] at cut
  generalize cutWindow assoc allowance packetBytes probe = window at cut ⊢
  split at cut
  · split at cut
    · cases cut
    · next enough =>
      obtain ⟨-, some, -⟩ := not_or.mp enough |>.imp_right not_or.mp
      rw [← Option.some.inj cut]
      unfold fragmentWireSize pad4 dataChunkHeaderSize at *
      omega
  · next fits =>
    rw [← Option.some.inj cut]
    exact Nat.le_of_not_lt fits

theorem cutWindow_le (assoc : Association) (allowance : SendAllowance) (packetBytes : Nat)
    (probe : Bool) :
    cutWindow assoc allowance packetBytes probe ≤ assoc.pmdcs - packetBytes := by
  unfold cutWindow
  split
  · exact Nat.le_refl _
  · exact Nat.min_le_left _ _

/-- The chunks of a call fill no more than what is left of the packet, and of the window
unless the call probes it. -/
theorem size_cutFrom (allowance : SendAllowance) (fuel : Nat) (assoc : Association)
    (packetBytes : Nat) (first : Bool) :
    (((cutNewDataFrom allowance fuel assoc packetBytes first).chunks.map dataChunkWireSize).sum
        ≤ assoc.pmdcs - packetBytes)
      ∧ (allowance.zeroWindowProbe = false →
        ((cutNewDataFrom allowance fuel assoc packetBytes first).chunks.map dataChunkWireSize).sum
          ≤ allowance.rwnd - packetBytes) := by
  induction fuel generalizing assoc packetBytes first with
  | zero => simp [cutNewDataFrom]
  | succ fuel ih =>
    unfold cutNewDataFrom
    split
    · simp
    · next message rest outbound =>
      cases cut : cutSize assoc allowance packetBytes (allowance.zeroWindowProbe && first) message
        with
      | none => simp [cut]
      | some take =>
        have window := cutSize_window cut
        have size := dataChunkWireSize_cutChunk assoc message take
        have space := cutWindow_le assoc allowance packetBytes (allowance.zeroWindowProbe && first)
        have offered : allowance.zeroWindowProbe = false →
            cutWindow assoc allowance packetBytes (allowance.zeroWindowProbe && first)
              ≤ allowance.rwnd - packetBytes := by
          intro none
          rw [none, Bool.false_and, cutWindow, if_neg Bool.false_ne_true]
          exact Nat.min_le_right _ _
        simp only [cut]
        split
        · simp only [List.map_cons, List.map_nil, List.sum_cons, List.sum_nil, Nat.add_zero]
          exact ⟨by omega, fun none => by have := offered none; omega⟩
        · obtain ⟨packet, peer⟩ := ih (afterCut assoc message rest take)
            (packetBytes + fragmentWireSize take) false
          simp only [List.map_cons, List.sum_cons]
          have same : (afterCut assoc message rest take).pmdcs = assoc.pmdcs := rfl
          rw [same] at packet
          exact ⟨by omega, fun none => by have := offered none; have := peer none; omega⟩

/-! ## Runs of the sender -/

/-- The sender's association with the messages it accepted and the chunks it cut. -/
structure SenderLog where
  assoc : Association
  messages : List SentMessage
  chunks : List DataChunkValue

/-- The fields of an association that only `sctp_send_data` and `cut_new_data` change. -/
def SameOutbound (a b : Association) : Prop :=
  b.outbound = a.outbound ∧ b.nextTsn = a.nextTsn ∧ b.nextSsn = a.nextSsn
    ∧ b.outStreams = a.outStreams
    ∧ b.pmdcs = a.pmdcs

/-- An association that has accepted nothing yet. -/
structure FreshSender (assoc : Association) : Prop where
  outbound : assoc.outbound = []
  nextSsn : assoc.nextSsn = List.replicate assoc.outStreams.toNat 0#16
  pmdcs : assoc.pmdcs = defaultPmdcs

/-- What a sender does: accept a message, cut a packet, or anything that leaves its
queue alone. -/
inductive SenderRun (start : Association) : SenderLog → Prop where
  | start : SenderRun start ⟨start, [], []⟩
  | accept {log : SenderLog} (data : Bytes) (stream : StreamId) (unordered : Bool) :
      SenderRun start log → sendStatus log.assoc data stream = .ok →
      SenderRun start ⟨queueMessage log.assoc data stream unordered,
        log.messages ++ [⟨stream, if unordered then 0#16 else log.assoc.nextSsn.getD stream.toNat
          0#16, unordered, data⟩], log.chunks⟩
  | cut {log : SenderLog} (allowance : SendAllowance) : SenderRun start log →
      SenderRun start ⟨(cutNewData log.assoc allowance).assoc, log.messages,
        log.chunks ++ (cutNewData log.assoc allowance).chunks⟩
  | other {log : SenderLog} (assoc : Association) :
      SenderRun start log → SameOutbound log.assoc assoc →
        SenderRun start ⟨assoc, log.messages, log.chunks⟩

/-- What the sender's queue says about the messages accepted and the chunks cut. -/
structure SenderInv (base : Tsn) (log : SenderLog) : Prop where
  pmdcs : log.assoc.pmdcs = defaultPmdcs
  nextTsn : log.assoc.nextTsn = ahead base log.chunks.length
  framed : ∀ i data, log.chunks[i]? = some data → ∃ m,
    log.messages[(Cursor.after log.messages (log.chunks.take i)).message]? = some m
      ∧ Fragment m (Cursor.after log.messages (log.chunks.take i)).offset (ahead base i) data
  queue : (log.assoc.outbound.map OutboundMessage.accepted)
    = log.messages.drop (Cursor.after log.messages log.chunks).message
  inRange : (Cursor.after log.messages log.chunks).message ≤ log.messages.length
  head : ∀ message rest, log.assoc.outbound = message :: rest →
    message.offset = (Cursor.after log.messages log.chunks).offset ∧ ∀ m ∈ rest, m.offset = 0
  idle : log.assoc.outbound = [] → (Cursor.after log.messages log.chunks).offset = 0
  left : ∀ m ∈ log.assoc.outbound, m.offset < m.bytes.length
  numbered : ∀ j m, log.messages[j]? = some m → m.unordered = false →
    m.ssn = BitVec.ofNat 16 (ordinal log.messages m.stream j)
  streams : log.assoc.nextSsn.length = log.assoc.outStreams.toNat
  nextSsn : ∀ stream : StreamId, stream.toNat < log.assoc.outStreams.toNat →
    log.assoc.nextSsn.getD stream.toNat 0#16
      = BitVec.ofNat 16 (log.messages.countP (orderedOn stream))

namespace Cursor

/-- Chunks cut from the messages so far stay where they are when one more is accepted. -/
theorem after_append {messages : List SentMessage} (more : List SentMessage)
    {chunks : List DataChunkValue} (framed : ∀ i data, chunks[i]? = some data → ∃ m,
      messages[(after messages (chunks.take i)).message]? = some m) :
    after (messages ++ more) chunks = after messages chunks := by
  induction chunks using List.reverseRec with
  | nil => rfl
  | append_singleton chunks data ih =>
    have earlier : ∀ i d, chunks[i]? = some d → ∃ m,
        messages[(after messages (chunks.take i)).message]? = some m := by
      intro i d found
      have bound : i < chunks.length := (List.getElem?_eq_some_iff.mp found).1
      obtain ⟨m, here⟩ := framed i d (by rw [List.getElem?_append_left bound]; exact found)
      exact ⟨m, by rwa [List.take_append_of_le_length (Nat.le_of_lt bound)] at here⟩
    obtain ⟨m, last⟩ := framed chunks.length data (by simp)
    rw [List.take_left'] at last
    · rw [after_snoc, after_snoc, ih earlier]
      have bound := (List.getElem?_eq_some_iff.mp last).1
      simp only [advance, List.getElem?_append_left bound]
    · rfl

end Cursor

theorem ordinal_append {messages : List SentMessage} (more : List SentMessage) (stream : StreamId)
    {j : Nat} (bound : j ≤ messages.length) :
    ordinal (messages ++ more) stream j = ordinal messages stream j := by
  unfold ordinal
  rw [List.take_append_of_le_length bound]

theorem senderInv_start {assoc : Association} (fresh : FreshSender assoc) :
    SenderInv assoc.nextTsn ⟨assoc, [], []⟩ where
  pmdcs := fresh.pmdcs
  nextTsn := by simp
  framed := by simp
  queue := by simp [fresh.outbound]
  inRange := by simp
  head := by simp [fresh.outbound]
  idle := by simp
  left := by simp [fresh.outbound]
  numbered := by simp
  streams := by simp [fresh.nextSsn]
  nextSsn := by
    intro stream bound
    rw [fresh.nextSsn, List.getD_replicate _ bound]
    simp

theorem senderInv_other {base : Tsn} {log : SenderLog} {assoc : Association}
    (inv : SenderInv base log) (same : SameOutbound log.assoc assoc) :
    SenderInv base ⟨assoc, log.messages, log.chunks⟩ := by
  obtain ⟨outbound, nextTsn, nextSsn, outStreams, pmdcs⟩ := same
  refine ⟨?_, ?_, inv.framed, ?_, inv.inRange, ?_, ?_, ?_, inv.numbered, ?_, ?_⟩
  · exact pmdcs.trans inv.pmdcs
  · exact nextTsn.trans inv.nextTsn
  · simpa only [outbound] using inv.queue
  · simpa only [outbound] using inv.head
  · simpa only [outbound] using inv.idle
  · simpa only [outbound] using inv.left
  · simpa only [nextSsn, outStreams] using inv.streams
  · simpa only [nextSsn, outStreams] using inv.nextSsn

theorem getD_modify_ssn (ssns : List Ssn) {i j : Nat} (inside : i < ssns.length) :
    (ssns.modify i (· + 1#16)).getD j 0#16
      = if j = i then ssns.getD i 0#16 + 1#16 else ssns.getD j 0#16 := by
  rw [List.getD_eq_getElem?_getD, List.getElem?_modify]
  by_cases same : j = i
  · subst same
    simp [inside]
  · simp [same, Ne.symm same, List.getD_eq_getElem?_getD]

/-- Accepting a message puts it at the end of the queue, under the next SSN of its stream. -/
theorem senderInv_accept {base : Tsn} {log : SenderLog} {data : Bytes} {stream : StreamId}
    (unordered : Bool) (inv : SenderInv base log) (ok : sendStatus log.assoc data stream = .ok) :
    SenderInv base ⟨queueMessage log.assoc data stream unordered,
      log.messages ++ [⟨stream, if unordered then 0#16 else log.assoc.nextSsn.getD stream.toNat
        0#16, unordered, data⟩], log.chunks⟩ := by
  have nonempty : data ≠ [] := by
    intro empty
    simp [sendStatus, empty] at ok
    split at ok <;> simp_all [refusalIn]
    split at ok <;> simp at ok
  have known : stream.toNat < log.assoc.outStreams.toNat := by
    by_contra outside
    unfold sendStatus at ok
    split at ok
    · simp only [refusalIn] at ok
      split at ok <;> cases ok
    · split at ok
      · cases ok
      · rw [if_pos (by omega)] at ok
        cases ok
  have placed : ∀ i, Cursor.after (log.messages ++ [⟨stream, if unordered then 0#16 else
      log.assoc.nextSsn.getD stream.toNat 0#16, unordered, data⟩]) (log.chunks.take i)
      = Cursor.after log.messages (log.chunks.take i) := by
    intro i
    apply Cursor.after_append
    intro n d found
    rw [List.getElem?_take] at found
    split at found
    · next bound =>
      obtain ⟨m, here, -⟩ := inv.framed n d found
      exact ⟨m, by rwa [List.take_take, Nat.min_eq_left (Nat.le_of_lt bound)]⟩
    · cases found
  have whole := placed log.chunks.length
  rw [List.take_length] at whole
  have counted := inv.nextSsn stream known
  refine ⟨inv.pmdcs, inv.nextTsn, ?_, ?_, ?_, ?_, ?_, ?_, ?_, ?_, ?_⟩
  · intro i d found
    obtain ⟨m, here, frag⟩ := inv.framed i d found
    refine ⟨m, ?_, by rw [placed]; exact frag⟩
    rw [placed, List.getElem?_append_left (List.getElem?_eq_some_iff.mp here).1]
    exact here
  · simp only [queueMessage, whole, List.map_append, inv.queue, List.map_cons, List.map_nil,
      OutboundMessage.accepted]
    rw [List.drop_append_of_le_length inv.inRange]
  · rw [whole, List.length_append]
    exact Nat.le_trans inv.inRange (Nat.le_add_right _ _)
  · intro message rest outbound
    simp only [whole]
    cases queue : log.assoc.outbound with
    | nil =>
      simp only [queueMessage, queue, List.nil_append, List.cons.injEq] at outbound
      obtain ⟨rfl, rfl⟩ := outbound
      exact ⟨(inv.idle queue).symm, by simp⟩
    | cons first others =>
      simp only [queueMessage, queue, List.cons_append, List.cons.injEq] at outbound
      obtain ⟨rfl, rfl⟩ := outbound
      obtain ⟨here, zero⟩ := inv.head _ _ queue
      refine ⟨here, fun m member => ?_⟩
      rcases List.mem_append.mp member with old | new
      · exact zero m old
      · rw [List.mem_singleton.mp new]
  · simp [queueMessage]
  · intro m member
    simp only [queueMessage, List.mem_append, List.mem_singleton] at member
    rcases member with old | rfl
    · exact inv.left m old
    · exact List.length_pos_iff.mpr nonempty
  · intro j m found ordered
    rcases Nat.lt_or_ge j log.messages.length with old | new
    · rw [List.getElem?_append_left old] at found
      rw [ordinal_append _ _ (Nat.le_of_lt old)]
      exact inv.numbered j m found ordered
    · rw [List.getElem?_append_right new] at found
      have last : j = log.messages.length := by
        have := (List.getElem?_eq_some_iff.mp found).1
        simp only [List.length_singleton] at this
        omega
      subst last
      simp only [Nat.sub_self, List.getElem?_cons_zero, Option.some.injEq] at found
      subst found
      simp only at ordered
      rw [ordinal_append _ _ (Nat.le_refl _)]
      simp only [ordered, Bool.false_eq_true, if_false, ordinal, List.take_length]
      exact counted
  · simp only [queueMessage]
    split <;> simp [inv.streams]
  · intro other bound
    have before := inv.nextSsn other bound
    rw [List.countP_append, List.countP_singleton]
    cases unordered with
    | true => simpa [queueMessage, orderedOn] using before
    | false =>
      have inside : stream.toNat < log.assoc.nextSsn.length := by
        rw [inv.streams]
        exact known
      simp only [queueMessage, Bool.false_eq_true, if_false]
      rw [getD_modify_ssn _ inside, before]
      by_cases same : other = stream
      · subst same
        rw [if_pos rfl, before]
        simp [orderedOn, BitVec.ofNat_add]
      · have apart : other.toNat ≠ stream.toNat := fun he => same (BitVec.eq_of_toNat_eq he)
        have here : (stream == other) = false := by
          simpa using fun he : stream = other => same he.symm
        simp [orderedOn, apart, here]

/-- Cutting one chunk from the message at the head. -/
theorem senderInv_cutChunk {base : Tsn} {log : SenderLog} {message : OutboundMessage}
    {rest : List OutboundMessage} {take : Nat} (inv : SenderInv base log)
    (outbound : log.assoc.outbound = message :: rest) (pos : 0 < take)
    (fits : message.offset + take ≤ message.bytes.length) :
    SenderInv base ⟨afterCut log.assoc message rest take, log.messages,
      log.chunks ++ [cutChunk log.assoc message take]⟩ := by
  obtain ⟨offset, zero⟩ := inv.head message rest outbound
  have queue := inv.queue
  rw [outbound, List.map_cons] at queue
  have here : log.messages[(Cursor.after log.messages log.chunks).message]?
      = some message.accepted := by
    rw [← List.head?_drop, ← queue]
    rfl
  have frag := cutChunk_fragment log.assoc pos fits
  have length : (cutChunk log.assoc message take).userData.length = take := by
    simp only [cutChunk, List.length_take, List.length_drop]
    omega
  have moved : Cursor.after log.messages (log.chunks ++ [cutChunk log.assoc message take])
      = if message.offset + take = message.bytes.length then
          ⟨(Cursor.after log.messages log.chunks).message + 1, 0⟩
        else ⟨(Cursor.after log.messages log.chunks).message, message.offset + take⟩ := by
    rw [Cursor.after_snoc, Cursor.advance, here, length, ← offset]
    rfl
  have tail : log.messages.drop ((Cursor.after log.messages log.chunks).message + 1)
      = rest.map OutboundMessage.accepted := by
    rw [← List.drop_drop, ← queue]
    rfl
  have bound := (List.getElem?_eq_some_iff.mp here).1
  have rests : ∀ m ∈ rest, m.offset < m.bytes.length := fun m member =>
    inv.left m (by rw [outbound]; exact List.mem_cons_of_mem _ member)
  refine ⟨inv.pmdcs, ?_, ?_, ?_, ?_, ?_, ?_, ?_, inv.numbered, inv.streams, inv.nextSsn⟩
  · simp only [afterCut, inv.nextTsn, List.length_append, List.length_singleton, ahead_succ]
  · intro i d found
    rcases Nat.lt_or_ge i log.chunks.length with old | new
    · rw [List.getElem?_append_left old] at found
      rw [List.take_append_of_le_length (Nat.le_of_lt old)]
      exact inv.framed i d found
    · have last : i = log.chunks.length := by
        have := (List.getElem?_eq_some_iff.mp found).1
        simp only [List.length_append, List.length_singleton] at this
        omega
      subst last
      simp only [List.getElem?_concat_length, Option.some.injEq] at found
      subst found
      rw [List.take_left]
      refine ⟨message.accepted, here, ?_⟩
      rw [← offset, ← inv.nextTsn]
      exact frag
  · rw [moved]
    simp only [afterCut]
    split
    · exact tail.symm
    · simp only [List.map_cons]
      exact queue
  · rw [moved]
    split
    · exact bound
    · exact Nat.le_of_lt bound
  · intro first others after
    rw [moved]
    simp only [afterCut] at after
    split at after
    · next complete =>
      subst after
      rw [if_pos complete]
      exact ⟨zero first (by simp), fun m member => zero m (by simp [member])⟩
    · next partly =>
      simp only [List.cons.injEq] at after
      obtain ⟨rfl, rfl⟩ := after
      rw [if_neg partly]
      exact ⟨rfl, zero⟩
  · intro empty
    simp only [afterCut] at empty
    rw [moved]
    split at empty
    · next complete => rw [if_pos complete]
    · cases empty
  · intro m member
    simp only [afterCut] at member
    split at member
    · exact rests m member
    · next partly =>
      rcases List.mem_cons.mp member with rfl | old
      · simp only
        omega
      · exact rests m old

/-- Cutting a packet keeps the invariant, whatever the allowance. -/
theorem senderInv_cutFrom {base : Tsn} {allowance : SendAllowance} (fuel : Nat) {log : SenderLog}
    (packetBytes : Nat) (first : Bool) (inv : SenderInv base log) :
    SenderInv base ⟨(cutNewDataFrom allowance fuel log.assoc packetBytes first).assoc, log.messages,
      log.chunks ++ (cutNewDataFrom allowance fuel log.assoc packetBytes first).chunks⟩ := by
  induction fuel generalizing log packetBytes first with
  | zero => simpa [cutNewDataFrom] using inv
  | succ fuel ih =>
    unfold cutNewDataFrom
    split
    · simpa using inv
    · next message rest outbound =>
      cases cut : cutSize log.assoc allowance packetBytes (allowance.zeroWindowProbe && first)
        message with
      | none => simpa [cut] using inv
      | some take =>
        have left := inv.left message (by simp [outbound])
        obtain ⟨pos, fits⟩ := cutSize_bounds inv.pmdcs left cut
        have one := senderInv_cutChunk inv outbound pos fits
        simp only [cut]
        split
        · exact one
        · have more := ih (packetBytes + fragmentWireSize take) false one
          simpa using more

theorem senderInv_run {start : Association} {log : SenderLog} (fresh : FreshSender start)
    (run : SenderRun start log) : SenderInv start.nextTsn log := by
  induction run with
  | start => exact senderInv_start fresh
  | accept data stream unordered _ ok ih => exact senderInv_accept unordered ih ok
  | cut allowance _ ih => exact senderInv_cutFrom _ _ _ ih
  | other assoc _ same ih => exact senderInv_other ih same

/-- What a run of the sender puts on the wire. -/
def SenderRun.sent {start : Association} {log : SenderLog} (fresh : FreshSender start)
    (run : SenderRun start log) (few : log.chunks.length < 2 ^ 31) : Sent where
  base := start.nextTsn
  messages := log.messages
  chunks := log.chunks
  few := few
  framed := (senderInv_run fresh run).framed
  numbered := (senderInv_run fresh run).numbered

end SctpStack
