import SctpStack.Sent
import SctpStack.Receive

/-!
# Ordered delivery

What the receiver has handed up of a sender's messages, as a sequence of message
indices (`Progress`), and the part of its state that answers to it: the SSN each
stream waits for, the messages waiting ahead of it, and those held behind a partial
delivery (`Upper`). Handing up a message keeps the correspondence
(`orderMessage_upper`).
-/

namespace SctpStack

open Serial

/-! ## Facts about the sent chunks -/

namespace Sent

variable (sent : Sent)

/-- The place the chunk at an index is cut from; past the last one, where the next
would be. -/
def cursor (i : Nat) : Cursor := Cursor.after sent.messages (sent.chunks.take i)

/-- Whether the message at an index is an ordered one of a stream. -/
def orderedAt (stream : StreamId) (j : Nat) : Bool := (sent.messages[j]?).any (orderedOn stream)

/-- What handing up the message at an index delivers. -/
def delivery (j : Nat) : Delivery :=
  match sent.messages[j]? with
  | none => ⟨[], true, 0#16⟩
  | some m => ⟨m.bytes, true, m.stream⟩

theorem delivery_of_some {j : Nat} {m : SentMessage} (found : sent.messages[j]? = some m) :
    sent.delivery j = ⟨m.bytes, true, m.stream⟩ := by
  simp [delivery, found]

variable {sent}

theorem cursor_zero : sent.cursor 0 = ⟨0, 0⟩ := by
  simp [cursor]

theorem fragment {i : Nat} {data : DataChunkValue} (found : sent.chunks[i]? = some data) :
    ∃ m, sent.messages[(sent.cursor i).message]? = some m
      ∧ Fragment m (sent.cursor i).offset (ahead sent.base i) data :=
  sent.framed i data found

theorem cursor_succ {i : Nat} {data : DataChunkValue} (found : sent.chunks[i]? = some data) :
    sent.cursor (i + 1) = (sent.cursor i).advance sent.messages data.userData.length := by
  have bound := (List.getElem?_eq_some_iff.mp found).1
  unfold cursor
  rw [List.take_add_one, found]
  exact Cursor.after_snoc _ _ _

/-- A chunk with the E bit is the last of its message. -/
theorem cursor_succ_of_ends {i : Nat} {data : DataChunkValue} (found : sent.chunks[i]? = some data)
    (ends : data.ends = true) : sent.cursor (i + 1) = ⟨(sent.cursor i).message + 1, 0⟩ := by
  obtain ⟨m, here, frag⟩ := fragment found
  have whole := frag.ends
  rw [ends, eq_comm, decide_eq_true_eq] at whole
  rw [cursor_succ found, Cursor.advance, here]
  simp only [whole, if_true]

/-- Any other is followed by one of the same message. -/
theorem cursor_succ_of_not_ends {i : Nat} {data : DataChunkValue}
    (found : sent.chunks[i]? = some data) (ends : data.ends = false) :
    sent.cursor (i + 1) = ⟨(sent.cursor i).message,
      (sent.cursor i).offset + data.userData.length⟩ := by
  obtain ⟨m, here, frag⟩ := fragment found
  have part := frag.ends
  rw [ends, eq_comm, decide_eq_false_iff_not] at part
  rw [cursor_succ found, Cursor.advance, here]
  simp only [part, if_false]

theorem message_le_succ (i : Nat) : (sent.cursor i).message ≤ (sent.cursor (i + 1)).message := by
  cases found : sent.chunks[i]? with
  | none =>
    have past := List.getElem?_eq_none_iff.mp found
    have same : sent.cursor (i + 1) = sent.cursor i := by
      unfold cursor
      rw [List.take_of_length_le past, List.take_of_length_le (Nat.le_succ_of_le past)]
    rw [same]
  | some data =>
    cases ends : data.ends with
    | true =>
      rw [cursor_succ_of_ends found ends]
      exact Nat.le_succ _
    | false => rw [cursor_succ_of_not_ends found ends]

theorem message_mono {i j : Nat} (le : i ≤ j) :
    (sent.cursor i).message ≤ (sent.cursor j).message := by
  induction le with
  | refl => exact Nat.le_refl _
  | step _ ih => exact Nat.le_trans ih (message_le_succ _)

theorem begins_iff {i : Nat} {data : DataChunkValue} (found : sent.chunks[i]? = some data) :
    data.begins = true ↔ (sent.cursor i).offset = 0 := by
  obtain ⟨m, -, frag⟩ := fragment found
  rw [frag.begins, decide_eq_true_eq]

/-- What was cut before a chunk in the middle of a message is of the same message. -/
theorem previous {i : Nat} (inside : (sent.cursor i).offset ≠ 0) (bound : i ≤ sent.chunks.length) :
    ∃ k data, i = k + 1 ∧ sent.chunks[k]? = some data ∧ data.ends = false
      ∧ (sent.cursor k).message = (sent.cursor i).message
      ∧ (sent.cursor i).offset = (sent.cursor k).offset + data.userData.length := by
  cases i with
  | zero => simp [cursor_zero] at inside
  | succ k =>
    have below : k < sent.chunks.length := bound
    have found := List.getElem?_eq_getElem below
    refine ⟨k, _, rfl, found, ?_⟩
    cases ends : sent.chunks[k].ends with
    | true =>
      rw [cursor_succ_of_ends found ends] at inside
      exact absurd rfl inside
    | false =>
      rw [cursor_succ_of_not_ends found ends]
      exact ⟨rfl, rfl, rfl⟩

/-- TSNs tell chunks apart. -/
theorem index_of_tsn {i j : Nat} (hi : i ≤ sent.chunks.length) (hj : j ≤ sent.chunks.length)
    (same : ahead sent.base i = ahead sent.base j) : i = j := by
  have few := sent.few
  exact ahead_inj sent.base (by omega) (by omega) same

theorem orderedAt_iff {stream : StreamId} {j : Nat} :
    sent.orderedAt stream j = true ↔
      ∃ m, sent.messages[j]? = some m ∧ m.unordered = false ∧ m.stream = stream := by
  simp only [orderedAt, Option.any_eq_true, orderedOn, Bool.and_eq_true, Bool.not_eq_true',
    beq_iff_eq]

/-- Ordinals tell the ordered messages of a stream apart. -/
theorem ordinal_lt {stream : StreamId} {i j : Nat} (ordered : sent.orderedAt stream i = true)
    (lt : i < j) :
    ordinal sent.messages stream i < ordinal sent.messages stream j := by
  obtain ⟨m, found, ord, here⟩ := orderedAt_iff.mp ordered
  have step : ordinal sent.messages stream (i + 1) = ordinal sent.messages stream i + 1 := by
    unfold ordinal
    rw [List.take_add_one, found, Option.toList_some, List.countP_append]
    simp [orderedOn, ord, here]
  have mono : ordinal sent.messages stream (i + 1) ≤ ordinal sent.messages stream j :=
    ((List.take_prefix_take_left lt).sublist).countP_le
  omega

theorem ordinal_inj {stream : StreamId} {i j : Nat} (hi : sent.orderedAt stream i = true)
    (hj : sent.orderedAt stream j = true)
    (same : ordinal sent.messages stream i = ordinal sent.messages stream j) : i = j := by
  rcases Nat.lt_trichotomy i j with lt | eq | gt
  · exact absurd (ordinal_lt hi lt) (by omega)
  · exact eq
  · exact absurd (ordinal_lt hj gt) (by omega)

end Sent

/-! ## What was handed up -/

/-- Pieces of a message that add up to its first `n` bytes. -/
def IsPart (m : SentMessage) (n : Nat) (pieces : List Delivery) : Prop :=
  (∀ d ∈ pieces, d.complete = false ∧ d.stream = m.stream)
    ∧ pieces.flatMap Delivery.bytes = m.bytes.take n

/-- Pieces of a message that add up to all of it, the last marked complete. -/
def IsWhole (m : SentMessage) (pieces : List Delivery) : Prop :=
  ∃ part last, pieces = part ++ [last] ∧ (∀ d ∈ part, d.complete = false ∧ d.stream = m.stream)
    ∧ last.complete = true ∧ last.stream = m.stream ∧ pieces.flatMap Delivery.bytes = m.bytes

/-- How far the receiver is: the chunks consumed in TSN order, the messages handed up
whole, the one underway and how much of it went up, those held behind it, those that
wait for their turn, and the next ordinal of each stream. -/
structure Progress where
  next : Nat
  handed : List Nat
  underway : Option Nat
  sentUp : Nat
  held : List Nat
  waiting : Nat → Prop
  ssn : StreamId → Nat

namespace Progress

/-- Nothing received yet. -/
def start : Progress := ⟨0, [], none, 0, [], fun _ => False, fun _ => 0⟩

/-- The messages in the order they reach the application. -/
def order (g : Progress) : List Nat := g.handed ++ g.underway.toList ++ g.held

/-- Whether a message was completed. -/
def Has (g : Progress) (j : Nat) : Prop := j ∈ g.handed ∨ j ∈ g.held ∨ g.waiting j

/-- A completed message goes up, or behind the one underway. -/
def give (g : Progress) (j : Nat) : Progress :=
  { g with
    handed := if g.underway.isSome then g.handed else g.handed ++ [j]
    held := if g.underway.isSome then g.held ++ [j] else g.held
    waiting := fun k => g.waiting k ∧ k ≠ j }

/-- The next ordinal of a stream. -/
def bump (g : Progress) (stream : StreamId) : Progress :=
  { g with ssn := fun s => if s = stream then g.ssn s + 1 else g.ssn s }

/-- A completed message waits for its turn. -/
def await (g : Progress) (j : Nat) : Progress := { g with waiting := fun k => g.waiting k ∨ k = j }

theorem has_give {g : Progress} {j k : Nat} : (g.give j).Has k ↔ g.Has k ∨ k = j := by
  unfold give Has
  by_cases same : k = j
  · cases g.underway <;> simp [same]
  · cases g.underway <;> simp [same]

theorem has_bump {g : Progress} {stream : StreamId} {k : Nat} : (g.bump stream).Has k ↔ g.Has k :=
  Iff.rfl

theorem has_await {g : Progress} {j k : Nat} : (g.await j).Has k ↔ g.Has k ∨ k = j := by
  simp only [await, Has]
  tauto

theorem order_give {g : Progress} {j : Nat} (free : g.underway = none → g.held = []) :
    (g.give j).order = g.order ++ [j] := by
  unfold order give
  cases h : g.underway with
  | none => simp [free h]
  | some p => simp

end Progress

/-- The log of deliveries and the messages held behind a partial delivery. -/
structure Handed (sent : Sent) (g : Progress) (past : List Delivery) (st : Receiving) : Prop where
  isOpen : partialDeliveryOpen st.assoc = g.underway.isSome
  held : st.assoc.heldDeliveries = g.held.map sent.delivery
  free : g.underway = none → g.held = []
  log : ∃ groups tail, past ++ st.delivered = groups.flatten ++ tail
    ∧ List.Forall₂ (fun j pieces => ∃ m, sent.messages[j]? = some m ∧ IsWhole m pieces)
      g.handed groups
    ∧ (g.underway = none → tail = [])
    ∧ ∀ p, g.underway = some p → ∃ m, sent.messages[p]? = some m ∧ IsPart m g.sentUp tail
  nodup : g.order.Nodup
  known : ∀ j ∈ g.held, j < sent.messages.length

/-- The SSN each stream waits for and the messages waiting ahead of it; `top` bounds
the ordinals of what has arrived. -/
structure Streams (sent : Sent) (top : StreamId → Nat) (g : Progress) (assoc : Association) :
    Prop where
  ssn : ∀ stream, (assoc.inboundStream stream).nextSsn = BitVec.ofNat 16 (g.ssn stream)
  order : ∀ stream,
    (g.order.filter (sent.orderedAt stream)).map (ordinal sent.messages stream)
      = List.range (g.ssn stream)
  early : ∀ stream ssn bytes, (assoc.inboundStream stream).early.get? ssn = some bytes ↔
    ∃ j m, g.waiting j ∧ sent.messages[j]? = some m ∧ m.stream = stream
      ∧ ssn = BitVec.ofNat 16 (ordinal sent.messages stream j) ∧ bytes = m.bytes
  waits : ∀ j, g.waiting j → ∃ m, sent.messages[j]? = some m ∧ m.unordered = false
    ∧ g.ssn m.stream ≤ ordinal sent.messages m.stream j ∧ ordinal sent.messages m.stream j
      < top m.stream
  top : ∀ stream, g.ssn stream ≤ top stream ∧ top stream ≤ g.ssn stream + 32768

/-! ## Handing up -/

section Handing

variable {sent : Sent} {top : StreamId → Nat} {g : Progress} {past : List Delivery} {st : Receiving}
  {assoc : Association} {j : Nat} {m : SentMessage}

theorem handed_give (handed : Handed sent g past st) (found : sent.messages[j]? = some m)
    (new : j ∉ g.order) : Handed sent (g.give j) past (st.handUp ⟨m.bytes, true, m.stream⟩) := by
  have nodup : (g.give j).order.Nodup := by
    rw [Progress.order_give handed.free]
    exact List.nodup_append.mpr ⟨handed.nodup, by simp, by
      intro a member b here
      rw [List.mem_singleton.mp here]
      exact fun same => new (same ▸ member)⟩
  obtain ⟨groups, tail, log, whole, closed, part⟩ := handed.log
  have isOpen := handed.isOpen
  cases underway : g.underway with
  | none =>
    rw [underway] at isOpen
    have up : st.handUp ⟨m.bytes, true, m.stream⟩
        = { st with delivered := st.delivered ++ [⟨m.bytes, true, m.stream⟩] } := by
      simp only [Receiving.handUp, isOpen, Option.isSome_none, Bool.false_eq_true, if_false]
    rw [up]
    refine ⟨?_, ?_, ?_, ⟨groups ++ [[⟨m.bytes, true, m.stream⟩]], [], ?_, ?_, ?_, ?_⟩, nodup, ?_⟩
    · simp only [Progress.give, underway]
      exact isOpen
    · simpa [Progress.give, underway] using handed.held
    · intro _
      simpa [Progress.give, underway] using handed.free underway
    · rw [closed underway, List.append_nil] at log
      simp [← List.append_assoc, log]
    · simp only [Progress.give, underway, Option.isSome_none, Bool.false_eq_true, if_false]
      exact List.rel_append whole (.cons ⟨m, found, [], ⟨m.bytes, true, m.stream⟩, by simp⟩ .nil)
    · exact fun _ => rfl
    · simp [Progress.give, underway]
    · simpa [Progress.give, underway] using handed.known
  | some p =>
    rw [underway] at isOpen
    have up : st.handUp ⟨m.bytes, true, m.stream⟩ = { st with assoc :=
        { st.assoc with heldDeliveries := st.assoc.heldDeliveries
          ++ [⟨m.bytes, true, m.stream⟩] } } := by
      simp only [Receiving.handUp, isOpen, Option.isSome_some, if_true]
    rw [up]
    refine ⟨?_, ?_, ?_, ⟨groups, tail, log, ?_, ?_, ?_⟩, nodup, ?_⟩
    · simp only [Progress.give, underway]
      exact isOpen
    · simp [Progress.give, underway, handed.held, sent.delivery_of_some found]
    · simp [Progress.give, underway]
    · simpa [Progress.give, underway] using whole
    · simp [Progress.give, underway]
    · simpa [Progress.give, underway] using part p underway
    · intro k member
      simp only [Progress.give, underway, Option.isSome_some, if_true, List.mem_append,
        List.mem_singleton] at member
      rcases member with old | rfl
      · exact handed.known k old
      · exact (List.getElem?_eq_some_iff.mp found).1

namespace Streams

theorem ordinal_lt_ssn (streams : Streams sent top g assoc) {stream : StreamId}
    (member : j ∈ g.order) (ordered : sent.orderedAt stream j = true) :
    ordinal sent.messages stream j < g.ssn stream := by
  have here : ordinal sent.messages stream j
      ∈ (g.order.filter (sent.orderedAt stream)).map (ordinal sent.messages stream) :=
    List.mem_map_of_mem (List.mem_filter.mpr ⟨member, ordered⟩)
  rw [streams.order stream] at here
  exact List.mem_range.mp here

theorem exists_of_lt_ssn (streams : Streams sent top g assoc) {stream : StreamId} {n : Nat}
    (lt : n < g.ssn stream) :
    ∃ j ∈ g.order, sent.orderedAt stream j = true ∧ ordinal sent.messages stream j = n := by
  have here := List.mem_range.mpr lt
  rw [← streams.order stream, List.mem_map] at here
  obtain ⟨j, member, same⟩ := here
  obtain ⟨inside, ordered⟩ := List.mem_filter.mp member
  exact ⟨j, inside, ordered, same⟩

/-- An ordered message that was not handed up is not before the next of its stream. -/
theorem ssn_le_ordinal (streams : Streams sent top g assoc) {stream : StreamId}
    (ordered : sent.orderedAt stream j = true) (new : j ∉ g.order) :
    g.ssn stream ≤ ordinal sent.messages stream j := by
  by_contra before
  obtain ⟨i, member, hi, same⟩ := streams.exists_of_lt_ssn (Nat.lt_of_not_ge before)
  exact new (Sent.ordinal_inj hi ordered same ▸ member)

theorem not_waiting_of_mem (streams : Streams sent top g assoc) (member : j ∈ g.order) :
    ¬ g.waiting j := by
  intro waiting
  obtain ⟨m, found, ordered, le, -⟩ := streams.waits j waiting
  have lt := streams.ordinal_lt_ssn member (Sent.orderedAt_iff.mpr ⟨m, found, ordered, rfl⟩)
  omega

end Streams

/-- SSNs tell ordinals apart that are fewer than 2^15 from the next. -/
theorem ssn_inj {a b d : Nat} (ha : d ≤ a) (hb : d ≤ b) (la : a < d + 32768) (lb : b < d + 32768)
    (same : BitVec.ofNat 16 a = BitVec.ofNat 16 b) : a = b := by
  have mods := congrArg BitVec.toNat same
  simp only [BitVec.toNat_ofNat] at mods
  omega

/-- The state of a stream after an association update that leaves the others alone. -/
structure StreamSet (before after : Association) (stream : StreamId) (value : InboundStream) :
    Prop where
  here : after.inboundStream stream = value
  others : ∀ other, other ≠ stream → after.inboundStream other = before.inboundStream other

theorem streamSet_setStream (st : Receiving) (stream : StreamId) (value : InboundStream) :
    StreamSet st.assoc (st.setStream stream value).assoc stream value := by
  constructor
  · simp [Receiving.setStream, Association.inboundStream]
  · intro other apart
    simp [Receiving.setStream, Association.inboundStream, apart]

/-- The message next in its stream goes up. -/
theorem streams_take (streams : Streams sent top g assoc) (free : g.underway = none → g.held = [])
    (found : sent.messages[j]? = some m) (ordered : m.unordered = false) (new : j ∉ g.order)
    (turn : ordinal sent.messages m.stream j = g.ssn m.stream)
    (below : ordinal sent.messages m.stream j < top m.stream) {after : Association}
    (early : KeyMap Ssn Bytes)
    (erased : ∀ k, early.get? k = if k = (assoc.inboundStream m.stream).nextSsn then none
      else (assoc.inboundStream m.stream).early.get? k)
    (set : StreamSet assoc after m.stream ⟨(assoc.inboundStream m.stream).nextSsn + 1#16, early⟩) :
    Streams sent top ((g.give j).bump m.stream) after := by
  have here : sent.orderedAt m.stream j = true := Sent.orderedAt_iff.mpr ⟨m, found, ordered, rfl⟩
  have window := streams.top m.stream
  have isNext := streams.ssn m.stream
  refine ⟨?_, ?_, ?_, ?_, ?_⟩
  · intro stream
    by_cases same : stream = m.stream
    · subst same
      rw [set.here]
      simp only [Progress.bump, Progress.give, if_true, isNext, BitVec.ofNat_add]
    · rw [set.others stream same, streams.ssn stream]
      simp [Progress.bump, Progress.give, same]
  · intro stream
    have order : ((g.give j).bump m.stream).order = g.order ++ [j] := Progress.order_give free
    rw [order, List.filter_append, List.map_append, streams.order stream]
    by_cases same : stream = m.stream
    · subst same
      simp [Progress.bump, Progress.give, here, turn, List.range_succ]
    · have other : sent.orderedAt stream j = false := by
        cases claim : sent.orderedAt stream j with
        | false => rfl
        | true =>
          obtain ⟨m', found', -, eq⟩ := Sent.orderedAt_iff.mp claim
          rw [found] at found'
          cases found'
          exact absurd eq.symm same
      simp [Progress.bump, Progress.give, other, same]
  · intro stream ssn bytes
    by_cases same : stream = m.stream
    · subst same
      rw [set.here, erased]
      simp only [isNext]
      constructor
      · intro lookup
        split at lookup
        · cases lookup
        · next apart =>
          obtain ⟨k, m', waiting, found', eq, key, value⟩ := (streams.early _ _ _).mp lookup
          refine ⟨k, m', ⟨waiting, ?_⟩, found', eq, key, value⟩
          rintro rfl
          exact apart (key.trans (by rw [turn]))
      · rintro ⟨k, m', ⟨waiting, apart⟩, found', eq, key, value⟩
        have claim : ssn ≠ BitVec.ofNat 16 (g.ssn m.stream) := by
          intro clash
          obtain ⟨m'', found'', ordered'', le, lt⟩ := streams.waits k waiting
          rw [found'] at found''
          cases found''
          rw [eq] at le lt
          rw [key] at clash
          have eqOrd := ssn_inj le (Nat.le_refl _) (by omega) (by omega) clash
          exact apart (Sent.ordinal_inj (Sent.orderedAt_iff.mpr ⟨m', found', ordered'', eq⟩) here
            (eqOrd.trans turn.symm))
        rw [if_neg claim]
        exact (streams.early _ _ _).mpr ⟨k, m', waiting, found', eq, key, value⟩
    · rw [set.others stream same, streams.early]
      constructor
      · rintro ⟨k, m', waiting, found', eq, rest⟩
        refine ⟨k, m', ⟨waiting, ?_⟩, found', eq, rest⟩
        rintro rfl
        rw [found] at found'
        cases found'
        exact same eq.symm
      · rintro ⟨k, m', ⟨waiting, -⟩, rest⟩
        exact ⟨k, m', waiting, rest⟩
  · rintro k ⟨waiting, apart⟩
    obtain ⟨m', found', ordered', le, lt⟩ := streams.waits k waiting
    refine ⟨m', found', ordered', ?_, lt⟩
    simp only [Progress.bump, Progress.give]
    split
    · next same =>
      have ne : ordinal sent.messages m'.stream k ≠ g.ssn m'.stream := by
        intro clash
        refine apart (Sent.ordinal_inj (Sent.orderedAt_iff.mpr ⟨m', found', ordered', same⟩)
          here ?_)
        rw [← same, clash, same, turn]
      omega
    · exact le
  · intro stream
    have := streams.top stream
    simp only [Progress.bump, Progress.give]
    split
    · next same =>
      subst same
      omega
    · exact this

/-- A message ahead of its turn waits. -/
theorem streams_await (streams : Streams sent top g assoc) (found : sent.messages[j]? = some m)
    (ordered : m.unordered = false) (idle : ¬ g.waiting j)
    (ahead : g.ssn m.stream ≤ ordinal sent.messages m.stream j)
    (below : ordinal sent.messages m.stream j < top m.stream) {after : Association}
    {early : KeyMap Ssn Bytes}
    (added : ∀ k, early.get? k = if k = m.ssn then some m.bytes
      else (assoc.inboundStream m.stream).early.get? k)
    (set : StreamSet assoc after m.stream ⟨(assoc.inboundStream m.stream).nextSsn, early⟩) :
    Streams sent top (g.await j) after := by
  have numbered := sent.numbered j m found ordered
  have window := streams.top m.stream
  refine ⟨?_, streams.order, ?_, ?_, streams.top⟩
  · intro stream
    by_cases same : stream = m.stream
    · subst same
      rw [set.here]
      exact streams.ssn m.stream
    · rw [set.others stream same]
      exact streams.ssn stream
  · intro stream ssn bytes
    by_cases same : stream = m.stream
    · subst same
      rw [set.here, added]
      constructor
      · intro lookup
        split at lookup
        · next key =>
          simp only [Option.some.injEq] at lookup
          exact ⟨j, m, Or.inr rfl, found, rfl, key.trans numbered, lookup.symm⟩
        · obtain ⟨k, m', waiting, rest⟩ := (streams.early _ _ _).mp lookup
          exact ⟨k, m', Or.inl waiting, rest⟩
      · rintro ⟨k, m', waiting | rfl, found', eq, key, value⟩
        · have apart : ssn ≠ m.ssn := by
            intro clash
            obtain ⟨m'', found'', ordered'', le, lt⟩ := streams.waits k waiting
            rw [found'] at found''
            cases found''
            rw [eq] at le lt
            rw [key, numbered] at clash
            have eqOrd := ssn_inj le ahead (by omega) (by omega) clash
            exact idle (Sent.ordinal_inj (Sent.orderedAt_iff.mpr ⟨m', found', ordered'', eq⟩)
              (Sent.orderedAt_iff.mpr ⟨m, found, ordered, rfl⟩) eqOrd ▸ waiting)
          rw [if_neg apart]
          exact (streams.early _ _ _).mpr ⟨k, m', waiting, found', eq, key, value⟩
        · rw [found] at found'
          cases found'
          rw [if_pos (key.trans numbered.symm), value]
    · rw [set.others stream same, streams.early]
      constructor
      · rintro ⟨k, m', waiting, rest⟩
        exact ⟨k, m', Or.inl waiting, rest⟩
      · rintro ⟨k, m', waiting | rfl, found', eq, rest⟩
        · exact ⟨k, m', waiting, found', eq, rest⟩
        · rw [found] at found'
          cases found'
          exact absurd eq.symm same
  · rintro k (waiting | rfl)
    · exact streams.waits k waiting
    · exact ⟨m, found, ordered, ahead, below⟩

/-- An unordered message has no place in its stream. -/
theorem streams_give (streams : Streams sent top g assoc) (free : g.underway = none → g.held = [])
    (found : sent.messages[j]? = some m) (unordered : m.unordered = true) {after : Association}
    (same : after.inboundStreams = assoc.inboundStreams) : Streams sent top (g.give j) after := by
  have idle : ∀ k, g.waiting k → k ≠ j := by
    rintro k waiting rfl
    obtain ⟨m', found', ordered, -⟩ := streams.waits k waiting
    rw [found] at found'
    cases found'
    rw [unordered] at ordered
    cases ordered
  have inbound : ∀ stream, after.inboundStream stream = assoc.inboundStream stream :=
    fun stream => by
    simp only [Association.inboundStream, same]
  refine ⟨?_, ?_, ?_, ?_, streams.top⟩
  · intro stream
    rw [inbound]
    exact streams.ssn stream
  · intro stream
    have other : sent.orderedAt stream j = false := by
      simp [Sent.orderedAt, found, orderedOn, unordered]
    rw [Progress.order_give free, List.filter_append, List.map_append, streams.order stream]
    simp [other, Progress.give]
  · intro stream ssn bytes
    rw [inbound, streams.early]
    constructor
    · rintro ⟨k, m', waiting, rest⟩
      exact ⟨k, m', ⟨waiting, idle k waiting⟩, rest⟩
    · rintro ⟨k, m', ⟨waiting, -⟩, rest⟩
      exact ⟨k, m', waiting, rest⟩
  · rintro k ⟨waiting, -⟩
    exact streams.waits k waiting

/-- Messages were handed up and nothing else happened; `extra` are those completed. -/
structure Advance (g g' : Progress) (extra : Nat → Prop) : Prop where
  next : g'.next = g.next
  underway : g'.underway = g.underway
  sentUp : g'.sentUp = g.sentUp
  has : ∀ k, g'.Has k ↔ g.Has k ∨ extra k
  ssn : ∀ stream, g.ssn stream ≤ g'.ssn stream

theorem Advance.refl (g : Progress) : Advance g g fun _ => False :=
  ⟨rfl, rfl, rfl, by simp, by simp⟩

theorem Advance.trans {g g' g'' : Progress} {extra : Nat → Prop} (first : Advance g g' extra)
    (second : Advance g' g'' fun _ => False) : Advance g g'' extra where
  next := second.next.trans first.next
  underway := second.underway.trans first.underway
  sentUp := second.sentUp.trans first.sentUp
  has k := by rw [second.has, first.has]; simp
  ssn stream := Nat.le_trans (first.ssn stream) (second.ssn stream)

theorem advance_take (g : Progress) (j : Nat) (stream : StreamId) :
    Advance g ((g.give j).bump stream) fun k => k = j where
  next := rfl
  underway := rfl
  sentUp := rfl
  has k := by rw [Progress.has_bump, Progress.has_give]
  ssn other := by
    simp only [Progress.bump, Progress.give]
    split <;> omega

/-- Only the streams and the held deliveries of the association changed. -/
def OrderOnly (before after : Association) : Prop :=
  after = { before with inboundStreams := after.inboundStreams, heldDeliveries :=
    after.heldDeliveries }

theorem OrderOnly.trans {a b c : Association} (first : OrderOnly a b) (second : OrderOnly b c) :
    OrderOnly a c := by
  unfold OrderOnly at *
  rw [first] at second
  exact second

theorem orderOnly_handUp (st : Receiving) (d : Delivery) :
    OrderOnly st.assoc (st.handUp d).assoc := by
  unfold Receiving.handUp
  split <;> rfl

theorem inboundStream_handUp (st : Receiving) (d : Delivery) (stream : StreamId) :
    (st.handUp d).assoc.inboundStream stream = st.assoc.inboundStream stream := by
  unfold Receiving.handUp
  split <;> rfl

/-- No stream but this one has the message it waits for. -/
def SettledBut (assoc : Association) (stream : StreamId) : Prop :=
  ∀ other, other ≠ stream → (assoc.inboundStream other).early.get?
    (assoc.inboundStream other).nextSsn = none

/-- No stream has the message it waits for. -/
def Settled (assoc : Association) : Prop :=
  ∀ stream, (assoc.inboundStream stream).early.get? (assoc.inboundStream stream).nextSsn = none

/-- A state reached by handing up messages. -/
structure HandsUp (sent : Sent) (top : StreamId → Nat) (g : Progress) (extra : Nat → Prop)
    (past : List Delivery) (st st' : Receiving) (g' : Progress) : Prop where
  handed : Handed sent g' past st'
  streams : Streams sent top g' st'.assoc
  advance : Advance g g' extra
  only : OrderOnly st.assoc st'.assoc

/-- One message of a stream goes up and the SSN moves on. -/
theorem handsUp_take (handed : Handed sent g past st) (streams : Streams sent top g st.assoc)
    (found : sent.messages[j]? = some m) (ordered : m.unordered = false) (new : j ∉ g.order)
    (turn : ordinal sent.messages m.stream j = g.ssn m.stream)
    (below : ordinal sent.messages m.stream j < top m.stream) (early : KeyMap Ssn Bytes)
    (erased : ∀ k, early.get? k = if k = (st.assoc.inboundStream m.stream).nextSsn then none
      else (st.assoc.inboundStream m.stream).early.get? k) :
    HandsUp sent top g (fun k => k = j) past st
      ((st.handUp ⟨m.bytes, true, m.stream⟩).setStream m.stream
        ⟨(st.assoc.inboundStream m.stream).nextSsn + 1#16, early⟩)
      ((g.give j).bump m.stream) where
  handed := by
    have up := handed_give handed found new
    exact ⟨up.isOpen, up.held, up.free, up.log, up.nodup, up.known⟩
  streams := by
    refine streams_take streams handed.free found ordered new turn below early erased ⟨?_,
      fun other apart => ?_⟩
    · exact (streamSet_setStream _ _ _).here
    · rw [(streamSet_setStream _ _ _).others other apart, inboundStream_handUp]
  advance := advance_take g j m.stream
  only := (orderOnly_handUp st _).trans rfl

/-- Draining a stream hands up what waited, in order. -/
theorem drainEarly_handsUp (stream : StreamId) (fuel : Nat) (handed : Handed sent g past st)
    (streams : Streams sent top g st.assoc) :
    ∃ g', HandsUp sent top g (fun _ => False) past st (st.drainEarly stream fuel) g' := by
  induction fuel generalizing st g with
  | zero => exact ⟨g, handed, streams, Advance.refl g, rfl⟩
  | succ fuel ih =>
    unfold Receiving.drainEarly
    cases next : (st.assoc.inboundStream stream).early.get? (st.assoc.inboundStream stream).nextSsn
      with
    | none =>
      simp only [next]
      exact ⟨g, handed, streams, Advance.refl g, rfl⟩
    | some bytes =>
      simp only [next]
      obtain ⟨j, m, waiting, found, rfl, key, rfl⟩ := (streams.early _ _ _).mp next
      obtain ⟨m', found', ordered, le, lt⟩ := streams.waits j waiting
      rw [found] at found'
      cases found'
      have window := streams.top m.stream
      have turn : ordinal sent.messages m.stream j = g.ssn m.stream := by
        rw [streams.ssn m.stream] at key
        exact (ssn_inj (Nat.le_refl _) le (by omega) (by omega) key).symm
      have new : j ∉ g.order := fun member => streams.not_waiting_of_mem member waiting
      have step := handsUp_take handed streams found ordered new turn lt
        ((st.assoc.inboundStream m.stream).early.erase (st.assoc.inboundStream m.stream).nextSsn)
        (fun k => KeyMap.get?_erase _ _ _)
      obtain ⟨g', more⟩ := ih step.handed step.streams
      refine ⟨g', more.handed, more.streams, ?_, step.only.trans more.only⟩
      refine ⟨more.advance.next, more.advance.underway, more.advance.sentUp, fun k => ?_,
        fun other =>
        Nat.le_trans (step.advance.ssn other) (more.advance.ssn other)⟩
      rw [more.advance.has, step.advance.has]
      constructor
      · rintro ((has | rfl) | none)
        · exact Or.inl has
        · exact Or.inl (Or.inr (Or.inr waiting))
        · exact none.elim
      · rintro (has | none)
        · exact Or.inl (Or.inl has)
        · exact none.elim

/-- With a pass for every waiting message, the stream is left waiting for one it lacks. -/
theorem drainEarly_settled (stream : StreamId) (fuel : Nat) (others : SettledBut st.assoc stream)
    (enough : (st.assoc.inboundStream stream).early.entries.length ≤ fuel) :
    Settled (st.drainEarly stream fuel).assoc := by
  induction fuel generalizing st with
  | zero =>
    have empty : (st.assoc.inboundStream stream).early.isEmpty = true := by
      rw [KeyMap.isEmpty, List.isEmpty_iff_length_eq_zero]
      omega
    intro other
    by_cases same : other = stream
    · subst same
      exact KeyMap.isEmpty_iff.mp empty _
    · exact others other same
  | succ fuel ih =>
    unfold Receiving.drainEarly
    cases next : (st.assoc.inboundStream stream).early.get? (st.assoc.inboundStream stream).nextSsn
      with
    | none =>
      simp only [next]
      intro other
      by_cases same : other = stream
      · subst same
        exact next
      · exact others other same
    | some bytes =>
      simp only [next]
      apply ih
      · intro other apart
        rw [(streamSet_setStream _ _ _).others other apart, inboundStream_handUp]
        exact others other apart
      · rw [(streamSet_setStream _ _ _).here]
        have := KeyMap.length_erase next
        simp only
        omega

theorem settledBut_handUp {stream : StreamId} {value : InboundStream} {d : Delivery}
    (settled : Settled st.assoc) :
    SettledBut ((st.handUp d).setStream stream value).assoc stream := by
  intro other apart
  rw [(streamSet_setStream _ _ _).others other apart, inboundStream_handUp]
  exact settled other

/-! ## Ordering a completed message -/

/-- A completed message that has not arrived before is taken: it goes up, waits, or is
held. No SSN is refused while everything that arrived is fewer than 2^15 ahead. -/
theorem orderMessage_handsUp (handed : Handed sent g past st)
    (streams : Streams sent top g st.assoc) (found : sent.messages[j]? = some m) (new : j ∉ g.order)
    (idle : ¬ g.waiting j) (below : m.unordered = false → ordinal sent.messages m.stream j
      < top m.stream) :
    ∃ st' g', st.orderMessage m.stream m.ssn m.unordered m.bytes = (true, st')
      ∧ HandsUp sent top g (fun k => k = j) past st st' g'
      ∧ (Settled st.assoc → Settled st'.assoc) := by
  unfold Receiving.orderMessage
  cases unordered : m.unordered with
  | true =>
    refine ⟨_, g.give j, by simp only [if_true], ⟨handed_give handed found new, ?_, ?_, ?_⟩, ?_⟩
    · refine streams_give streams handed.free found unordered ?_
      unfold Receiving.handUp
      split <;> rfl
    · exact ⟨rfl, rfl, rfl, fun k => Progress.has_give, fun _ => Nat.le_refl _⟩
    · exact orderOnly_handUp st _
    · intro settled stream
      rw [inboundStream_handUp]
      exact settled stream
  | false =>
    have numbered := sent.numbered j m found unordered
    have here := streams.ssn m.stream
    have window := streams.top m.stream
    have lt := below unordered
    have ordered : sent.orderedAt m.stream j = true :=
      Sent.orderedAt_iff.mpr ⟨m, found, unordered, rfl⟩
    have le := streams.ssn_le_ordinal ordered new
    have isNew : (st.assoc.inboundStream m.stream).early.get? m.ssn = none := by
      cases lookup : (st.assoc.inboundStream m.stream).early.get? m.ssn with
      | none => rfl
      | some bytes =>
        obtain ⟨k, m', waiting, found', eq, key, -⟩ := (streams.early _ _ _).mp lookup
        obtain ⟨m'', found'', ordered'', le', lt'⟩ := streams.waits k waiting
        rw [found'] at found''
        cases found''
        rw [eq] at le' lt'
        rw [numbered] at key
        have same := ssn_inj le le' (by omega) (by omega) key
        exact absurd (Sent.ordinal_inj ordered (Sent.orderedAt_iff.mpr ⟨m', found', ordered'', eq⟩)
          same ▸ waiting) idle
    simp only [Bool.false_eq_true, if_false]
    by_cases isNext : m.ssn = (st.assoc.inboundStream m.stream).nextSsn
    · rw [if_neg (by simp [isNext])]
      have turn : ordinal sent.messages m.stream j = g.ssn m.stream := by
        rw [here, numbered] at isNext
        exact ssn_inj le (Nat.le_refl _) (by omega) (by omega) isNext
      have step := handsUp_take handed streams found unordered new turn lt
        (st.assoc.inboundStream m.stream).early (fun k => by
          split
          · next same => rw [same, ← isNext, isNew]
          · rfl)
      obtain ⟨g', more⟩ := drainEarly_handsUp m.stream
        (st.assoc.inboundStream m.stream).early.entries.length step.handed step.streams
      refine ⟨_, g', rfl, ⟨?_, ?_, ?_, ?_⟩, ?_⟩
      · simpa only [Receiving.advanceStream, inboundStream_handUp] using more.handed
      · simpa only [Receiving.advanceStream, inboundStream_handUp] using more.streams
      · exact step.advance.trans more.advance
      · have only := step.only.trans more.only
        simpa only [Receiving.advanceStream, inboundStream_handUp] using only
      · intro settled
        simp only [Receiving.advanceStream, inboundStream_handUp]
        apply drainEarly_settled _ _ (settledBut_handUp settled)
        rw [(streamSet_setStream _ _ _).here]
    · rw [if_pos isNext]
      have apart : ordinal sent.messages m.stream j ≠ g.ssn m.stream := by
        intro same
        rw [here, numbered, same] at isNext
        exact isNext rfl
      have gt : ssnGt m.ssn (st.assoc.inboundStream m.stream).nextSsn = true := by
        rw [here, numbered]
        have offset := serialLt_offset (w := 15) 0#16 (i := g.ssn m.stream)
          (j := ordinal sent.messages m.stream j) (by omega) (by omega)
        simp only [Serial.ahead, BitVec.zero_add] at offset
        exact offset.mpr (by omega)
      have fresh : (st.assoc.inboundStream m.stream).early.contains m.ssn = false :=
        KeyMap.contains_eq_false.mpr isNew
      simp only [gt, fresh, Bool.not_true, Bool.or_self, Bool.false_eq_true, if_false]
      refine ⟨_, g.await j, rfl, ⟨?_, ?_, ?_, rfl⟩, ?_⟩
      · exact ⟨handed.isOpen, handed.held, handed.free, handed.log, handed.nodup, handed.known⟩
      · refine streams_await streams found unordered idle le lt (fun k => ?_)
          (streamSet_setStream _ _ _)
        rw [KeyMap.get?_emplaceBy, isNew]
        rfl
      · exact ⟨rfl, rfl, rfl, fun k => Progress.has_await, fun _ => Nat.le_refl _⟩
      · intro settled stream
        by_cases same : stream = m.stream
        · subst same
          rw [(streamSet_setStream _ _ _).here]
          simp only
          rw [KeyMap.get?_emplaceBy, if_neg (Ne.symm isNext)]
          exact settled m.stream
        · rw [(streamSet_setStream _ _ _).others stream same]
          exact settled stream

end Handing

end SctpStack
