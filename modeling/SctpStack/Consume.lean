import SctpStack.Ordering

/-!
# Consuming chunks in TSN order

The part of the receiver below the streams: the out-of-order buffer, whose chunks are
marked once their message was completed, and the message whose fragments are being
consumed (`Lower`). Taking the next chunk of the sequence keeps it
(`reassemble_consumes`), and so does taking all that follow in the buffer
(`readOooFrom_consumes`).
-/

namespace SctpStack

open Serial

/-! ## The invariant -/

/-- The message at an index is one the receiver can place in its stream. -/
def InWindow (sent : Sent) (top : StreamId → Nat) (j : Nat) : Prop :=
  ∀ m, sent.messages[j]? = some m → m.unordered = false → ordinal sent.messages m.stream j
    < top m.stream

/-- The entry of the buffer for the chunk at an index: the chunk itself, or a marked
one without bytes once its message was completed. -/
def Holds (g : Progress) (j : Nat) (data : DataChunkValue) (held : HeldChunk) : Prop :=
  (¬ g.Has j ∧ held = ⟨data, false⟩) ∨ (g.Has j ∧ held = ⟨{ data with userData := [] }, true⟩)

/-- What the open message holds: nothing if it was completed ahead, what was consumed
of it, or nothing because it went up. -/
def Gathered (g : Progress) (c : Cursor) (m : SentMessage) (message : Reassembly) : Prop :=
  (g.Has c.message ∧ message.bytes = [] ∧ message.partiallyDelivered = false ∧ g.underway = none)
    ∨ (¬ g.Has c.message ∧ message.bytes = m.bytes.take c.offset ∧ message.partiallyDelivered
      = false
        ∧ g.underway = none)
    ∨ (¬ g.Has c.message ∧ message.bytes = [] ∧ message.partiallyDelivered = true
        ∧ g.underway = some c.message ∧ g.sentUp = c.offset)

/-- The open message is the one the next chunk continues. -/
structure Continues (sent : Sent) (g : Progress) (c : Cursor) (message : Reassembly) : Prop where
  isOpen : message.isOpen = true
  gathered : ∃ m, sent.messages[c.message]? = some m ∧ message.stream = m.stream
    ∧ message.ssn = m.ssn
    ∧ message.unordered = m.unordered ∧ Gathered g c m message

/-- Between messages nothing is open. -/
structure Idle (g : Progress) (message : Reassembly) : Prop where
  isOpen : message.isOpen = false
  bytes : message.bytes = []
  underway : g.underway = none

/-- The reassembly between two chunks. -/
def Straddles (sent : Sent) (g : Progress) (message : Reassembly) : Prop :=
  ((sent.cursor g.next).offset = 0 → Idle g message)
    ∧ ((sent.cursor g.next).offset ≠ 0 → Continues sent g (sent.cursor g.next) message)

/-- The buffer `buf` and the open message after `g.next` chunks were consumed. -/
structure Lower (sent : Sent) (top : StreamId → Nat) (g : Progress) (buf : Tsn → Option HeldChunk)
    (message : Reassembly) : Prop where
  bound : g.next ≤ sent.chunks.length
  buffer : ∀ tsn held, buf tsn = some held → ∃ i data, g.next ≤ i ∧ sent.chunks[i]? = some data
    ∧ tsn = ahead sent.base i ∧ Holds g (sent.cursor i).message data held
    ∧ InWindow sent top (sent.cursor i).message
  kept : ∀ i, g.next ≤ i → i < sent.chunks.length → g.Has (sent.cursor i).message →
    (buf (ahead sent.base i)).isSome = true
  finished : ∀ j, j < (sent.cursor g.next).message → g.Has j
  near : (sent.cursor g.next).offset ≠ 0 → InWindow sent top (sent.cursor g.next).message
  straddles : Straddles sent g message

/-- A buffer without the entry at a TSN. -/
def without (buf : Tsn → Option HeldChunk) (tsn : Tsn) : Tsn → Option HeldChunk :=
  fun t => if t = tsn then none else buf t

section Consuming

variable {sent : Sent} {top : StreamId → Nat} {g g' : Progress} {past : List Delivery}
    {st : Receiving}
  {buf : Tsn → Option HeldChunk} {message message' : Reassembly} {data : DataChunkValue}

/-- One more chunk consumed; completing its message concerns no chunk after it. -/
theorem lower_next (low : Lower sent top g buf message) (found : sent.chunks[g.next]? = some data)
    (next : g'.next = g.next + 1)
    (has : ∀ i, g.next + 1 ≤ i → i < sent.chunks.length →
      (g'.Has (sent.cursor i).message ↔ g.Has (sent.cursor i).message))
    (finished : ∀ j, j < (sent.cursor (g.next + 1)).message → g'.Has j)
    (near : (sent.cursor (g.next + 1)).offset ≠ 0 →
      InWindow sent top (sent.cursor (g.next + 1)).message)
    (straddles : Straddles sent g' message') :
    Lower sent top g' (without buf (ahead sent.base g.next)) message' where
  bound := by
    have := (List.getElem?_eq_some_iff.mp found).1
    omega
  buffer := by
    intro tsn held lookup
    unfold without at lookup
    split at lookup
    · cases lookup
    · next apart =>
      obtain ⟨i, d, le, here, rfl, holds, window⟩ := low.buffer tsn held lookup
      have later : g.next + 1 ≤ i := by
        rcases Nat.eq_or_lt_of_le le with same | lt
        · exact absurd (by rw [same]) apart
        · exact lt
      have same := has i later (List.getElem?_eq_some_iff.mp here).1
      refine ⟨i, d, by omega, here, rfl, ?_, window⟩
      unfold Holds at *
      rwa [same]
  kept := by
    intro i le lt hasIt
    rw [next] at le
    have bound := low.bound
    have apart : ahead sent.base i ≠ ahead sent.base g.next := fun same =>
      absurd (Sent.index_of_tsn (Nat.le_of_lt lt) bound same) (by omega)
    simp only [without, apart, if_false]
    exact low.kept i (by omega) lt ((has i le lt).mp hasIt)
  finished := by rwa [next]
  near := by rwa [next]
  straddles := straddles

/-- The chunks after the last of a message are of later ones. -/
theorem later_message (found : sent.chunks[g.next]? = some data) (ends : data.ends = true) {i : Nat}
    (le : g.next + 1 ≤ i) : (sent.cursor g.next).message < (sent.cursor i).message := by
  have mono := sent.message_mono le
  rw [Sent.cursor_succ_of_ends found ends] at mono
  exact mono

/-- What `reassemble` is given for a chunk: itself, or framing only once its message
was completed. -/
def Offered (g : Progress) (j : Nat) (data offered : DataChunkValue) (keep : Bool) : Prop :=
  (¬ g.Has j ∧ offered = data ∧ keep = true)
    ∨ (g.Has j ∧ offered = { data with userData := [] } ∧ keep = false)

/-- A state reached by consuming the next chunk. -/
structure Consumes (sent : Sent) (top : StreamId → Nat) (g : Progress) (past : List Delivery)
    (buf : Tsn → Option HeldChunk) (st st' : Receiving) (g' : Progress) : Prop where
  handed : Handed sent g' past st'
  streams : Streams sent top g' st'.assoc
  lower : Lower sent top g' (without buf (ahead sent.base g.next)) st'.assoc.reassembly
  next : g'.next = g.next + 1
  ssn : ∀ stream, g.ssn stream ≤ g'.ssn stream
  same : st'.assoc = { st.assoc with
    reassembly := st'.assoc.reassembly, inboundStreams := st'.assoc.inboundStreams,
    heldDeliveries := st'.assoc.heldDeliveries }
  settled : Settled st.assoc → Settled st'.assoc

/-! ## One chunk -/

/-- The progress with one more chunk consumed. -/
def Progress.step (g : Progress) : Progress := { g with next := g.next + 1 }

theorem streams_congr {assoc after : Association} (streams : Streams sent top g assoc)
    (same : after.inboundStreams = assoc.inboundStreams) : Streams sent top g after := by
  have inbound : ∀ stream, after.inboundStream stream = assoc.inboundStream stream :=
    fun stream => by
    simp only [Association.inboundStream, same]
  refine ⟨fun stream => ?_, streams.order, fun stream ssn bytes => ?_, streams.waits, streams.top⟩
  · rw [inbound]
    exact streams.ssn stream
  · rw [inbound]
    exact streams.early stream ssn bytes

theorem streams_step {assoc after : Association} (streams : Streams sent top g assoc)
    (same : after.inboundStreams = assoc.inboundStreams) : Streams sent top g.step after :=
  let kept := streams_congr streams same
  ⟨kept.ssn, kept.order, kept.early, kept.waits, kept.top⟩

theorem not_mem_order {j : Nat} (new : ¬ g.Has j) (other : g.underway = none) : j ∉ g.order := by
  unfold Progress.Has at new
  simp only [not_or] at new
  simp [Progress.order, other, new.1, new.2.1]

/-- The cursor after a chunk that does not end its message is inside it. -/
theorem cursor_inside (found : sent.chunks[g.next]? = some data) (more : data.ends = false) :
    (sent.cursor (g.next + 1)).offset ≠ 0 := by
  obtain ⟨m, -, frag⟩ := Sent.fragment found
  rw [Sent.cursor_succ_of_not_ends found more]
  have := List.length_pos_iff.mpr frag.nonempty
  simp only
  omega

/-- Whole messages in a single piece each. -/
theorem whole_deliveries {js : List Nat} (known : ∀ j ∈ js, j < sent.messages.length) :
    List.Forall₂ (fun j pieces => ∃ m, sent.messages[j]? = some m ∧ IsWhole m pieces) js
      (js.map fun j => [sent.delivery j]) := by
  induction js with
  | nil => exact .nil
  | cons j rest ih =>
    have inside := known j (by simp)
    refine .cons ⟨_, List.getElem?_eq_getElem inside, [], sent.delivery j, by simp, by simp, ?_⟩
      (ih fun k member => known k (by simp [member]))
    simp [sent.delivery_of_some (List.getElem?_eq_getElem inside)]

theorem flatten_deliveries (js : List Nat) :
    (js.map fun j => [sent.delivery j]).flatten = js.map sent.delivery := by
  induction js with
  | nil => rfl
  | cons j rest ih => simp [ih]

section Take

variable {m : SentMessage} (handed : Handed sent g past st) (streams : Streams sent top g st.assoc)
  (low : Lower sent top g buf st.assoc.reassembly) (found : sent.chunks[g.next]? = some data)
  (here : sent.messages[(sent.cursor g.next).message]? = some m)
  (frag : Fragment m (sent.cursor g.next).offset (ahead sent.base g.next) data)
  (stream : message.stream = m.stream) (ssn : message.ssn = m.ssn)
  (unordered : message.unordered = m.unordered)
  (window : InWindow sent top (sent.cursor g.next).message)

include low found window in
/-- A chunk that completes nothing and lies in a message that stays open. -/
theorem lower_more (more : data.ends = false) (next : g'.next = g.next + 1)
    (has : ∀ j, g'.Has j ↔ g.Has j)
    (continues : Continues sent g' ⟨(sent.cursor g.next).message,
      (sent.cursor g.next).offset + data.userData.length⟩ message') :
    Lower sent top g' (without buf (ahead sent.base g.next)) message' := by
  have moved := Sent.cursor_succ_of_not_ends found more
  refine lower_next low found next (fun i _ _ => has _) ?_ ?_ ⟨?_, ?_⟩
  · intro j lt
    rw [moved] at lt
    exact (has j).mpr (low.finished j lt)
  · intro _
    rw [moved]
    exact window
  · intro zero
    rw [next] at zero
    exact absurd zero (cursor_inside found more)
  · intro _
    rw [next, moved]
    exact continues

include low found in
/-- A chunk that ends its message. -/
theorem lower_end (ends : data.ends = true) (next : g'.next = g.next + 1)
    (has : ∀ j, g'.Has j ↔ g.Has j ∨ j = (sent.cursor g.next).message) (idle : Idle g' message') :
    Lower sent top g' (without buf (ahead sent.base g.next)) message' := by
  have moved := Sent.cursor_succ_of_ends found ends
  refine lower_next low found next (fun i le lt => ?_) ?_ ?_ ⟨fun _ => idle, ?_⟩
  · have later := later_message found ends le
    rw [has]
    constructor
    · rintro (old | same)
      · exact old
      · omega
    · exact Or.inl
  · intro j lt
    rw [moved] at lt
    rcases Nat.eq_or_lt_of_le (Nat.le_of_lt_succ lt) with same | below
    · exact (has j).mpr (Or.inr same)
    · exact (has j).mpr (Or.inl (low.finished j below))
  · intro inside
    rw [moved] at inside
    exact absurd rfl inside
  · intro inside
    rw [next, moved] at inside
    exact absurd rfl inside

include handed streams low found here stream ssn unordered window in
/-- Of a message completed ahead only the framing is consumed. -/
theorem takeChunk_framing (hasIt : g.Has (sent.cursor g.next).message)
    (gathered : Gathered g (sent.cursor g.next) m message) {offered : DataChunkValue}
    (ends : offered.ends = data.ends) :
    ∃ st' g', st.takeChunk message offered false = (true, st')
      ∧ Consumes sent top g past buf st st' g' := by
  obtain ⟨-, bytes, whole, none⟩ | ⟨hasNot, -⟩ | ⟨hasNot, -⟩ := gathered
  · refine ⟨_, g.step, rfl, ?_, streams_step streams rfl, ?_, rfl, fun _ => Nat.le_refl _, rfl,
      fun h => h⟩
    · refine ⟨?_, handed.held, handed.free, handed.log, handed.nodup, handed.known⟩
      simp only [partialDeliveryOpen, Receiving.setReassembly, whole, Bool.and_false, Progress.step,
        none]
      rfl
    · simp only [Receiving.setReassembly, ends]
      cases last : data.ends with
      | true =>
        refine lower_end low found last rfl (fun j => ⟨Or.inl, ?_⟩) ⟨rfl, bytes, none⟩
        rintro (old | rfl)
        · exact old
        · exact hasIt
      | false =>
        refine lower_more low found window last rfl (fun _ => Iff.rfl) ⟨rfl, m, here, stream, ssn,
          unordered, ?_⟩
        exact Or.inl ⟨hasIt, bytes, whole, none⟩
  · exact absurd hasIt hasNot
  · exact absurd hasIt hasNot

include handed streams low found here frag stream ssn unordered window in
/-- A fragment joins what was gathered of its message. -/
theorem takeChunk_gathers (new : ¬ g.Has (sent.cursor g.next).message)
    (bytes : message.bytes = m.bytes.take (sent.cursor g.next).offset)
    (whole : message.partiallyDelivered = false) (none : g.underway = none)
    (more : data.ends = false) :
    ∃ st' g', st.takeChunk message data true = (true, st')
      ∧ Consumes sent top g past buf st st' g' := by
  refine ⟨st.setReassembly { message with isOpen := true, bytes := message.bytes ++ data.userData },
    g.step, ?_, ?_, streams_step streams rfl, ?_, rfl, fun _ => Nat.le_refl _, rfl, fun h => h⟩
  · simp [Receiving.takeChunk, whole, more]
  · refine ⟨?_, handed.held, handed.free, handed.log, handed.nodup, handed.known⟩
    simp [partialDeliveryOpen, Receiving.setReassembly, whole, Progress.step, none]
  · refine lower_more low found window more rfl (fun _ => Iff.rfl) ⟨rfl, m, here, stream, ssn,
      unordered, ?_⟩
    refine Or.inr (Or.inl ⟨new, ?_, whole, none⟩)
    simp only [Receiving.setReassembly, bytes]
    rw [List.take_add, ← frag.bytes]

include handed streams low found here frag stream ssn unordered window in
/-- The last fragment of a message completes it. -/
theorem takeChunk_completes (new : ¬ g.Has (sent.cursor g.next).message)
    (bytes : message.bytes = m.bytes.take (sent.cursor g.next).offset)
    (whole : message.partiallyDelivered = false) (none : g.underway = none)
    (ends : data.ends = true) :
    ∃ st' g', st.takeChunk message data true = (true, st')
      ∧ Consumes sent top g past buf st st' g' := by
  have all : message.bytes ++ data.userData = m.bytes := by
    have length := frag.ends
    rw [ends, eq_comm, decide_eq_true_eq] at length
    conv_lhs => rw [bytes, frag.bytes, ← List.take_add, length, List.take_length]
  have closed : Handed sent g past
      (st.setReassembly { message with isOpen := false, bytes := [] }) := by
    refine ⟨?_, handed.held, handed.free, handed.log, handed.nodup, handed.known⟩
    simp [partialDeliveryOpen, Receiving.setReassembly, none]
  have idle : ¬ g.waiting (sent.cursor g.next).message := fun waiting =>
    new (Or.inr (Or.inr waiting))
  obtain ⟨st', g', done, up, settled⟩ := orderMessage_handsUp closed (streams_congr streams rfl)
    here (not_mem_order new none) idle (window m here)
  have only := up.only
  have message' : st'.assoc.reassembly = { message with isOpen := false, bytes := [] } := by
    rw [only]
    rfl
  refine ⟨st', g'.step, ?_, ?_, streams_step up.streams rfl, ?_, ?_, up.advance.ssn, ?_, settled⟩
  · simp only [Receiving.takeChunk, whole, ends, all, stream, ssn, unordered]
    simpa [stream, ssn, unordered, whole] using done
  · exact ⟨up.handed.isOpen, up.handed.held, up.handed.free, up.handed.log, up.handed.nodup,
      up.handed.known⟩
  · refine lower_end low found ends ?_ up.advance.has ⟨?_, ?_, ?_⟩
    · simp only [Progress.step, up.advance.next]
    · rw [message']
    · rw [message']
    · exact up.advance.underway.trans none
  · simp only [Progress.step, up.advance.next]
  · rw [only]
    rfl

include handed streams low found here frag stream ssn unordered window in
/-- A fragment of the message underway goes up at once. -/
theorem takeChunk_piece (new : ¬ g.Has (sent.cursor g.next).message) (bytes : message.bytes = [])
    (part : message.partiallyDelivered = true)
    (underway : g.underway = some (sent.cursor g.next).message)
    (sentUp : g.sentUp = (sent.cursor g.next).offset) (more : data.ends = false) :
    ∃ st' g', st.takeChunk message data true = (true, st')
      ∧ Consumes sent top g past buf st st' g' := by
  obtain ⟨groups, tail, log, whole, -, parts⟩ := handed.log
  obtain ⟨m', here', each, sum⟩ := parts _ underway
  rw [here] at here'
  cases here'
  refine ⟨{ st.setReassembly { message with isOpen := true, bytes := [] } with
      delivered := st.delivered ++ [⟨data.userData, false, m.stream⟩] },
    { g.step with sentUp := g.sentUp + data.userData.length }, ?_, ?_, ?_, ?_, rfl,
      fun _ => Nat.le_refl _, rfl,
    fun h => h⟩
  · simp [Receiving.takeChunk, part, more, bytes, stream, Receiving.setReassembly]
  · refine ⟨?_, handed.held, handed.free, ⟨groups, tail ++ [⟨data.userData, false, m.stream⟩],
      ?_, whole, ?_, ?_⟩, handed.nodup, handed.known⟩
    · simp [partialDeliveryOpen, Receiving.setReassembly, part, Progress.step, underway]
    · rw [← List.append_assoc, log, List.append_assoc]
    · intro quiet
      rw [show g.underway = none from quiet] at underway
      cases underway
    · intro p here'
      rw [show g.underway = some p from here'] at underway
      cases underway
      refine ⟨m, here, ?_, ?_⟩
      · intro d member
        rcases List.mem_append.mp member with old | last
        · exact each d old
        · rw [List.mem_singleton.mp last]
          exact ⟨rfl, rfl⟩
      · rw [List.flatMap_append, sum, sentUp, List.take_add, List.append_cancel_left_eq]
        simpa using frag.bytes
  · exact ⟨streams.ssn, streams.order, streams.early, streams.waits, streams.top⟩
  · refine lower_more low found window more rfl (fun _ => Iff.rfl) ⟨rfl, m, here, stream, ssn,
      unordered, ?_⟩
    exact Or.inr (Or.inr ⟨new, rfl, part, underway, by simp [sentUp]⟩)

include handed streams low found here frag stream in
/-- The last fragment of the message underway lets those held behind it up. -/
theorem takeChunk_last (bytes : message.bytes = [])
    (part : message.partiallyDelivered = true)
    (underway : g.underway = some (sent.cursor g.next).message)
    (sentUp : g.sentUp = (sent.cursor g.next).offset) (ends : data.ends = true) :
    ∃ st' g', st.takeChunk message data true = (true, st')
      ∧ Consumes sent top g past buf st st' g' := by
  obtain ⟨groups, tail, log, whole, -, parts⟩ := handed.log
  obtain ⟨m', here', each, sum⟩ := parts _ underway
  rw [here] at here'
  cases here'
  have length := frag.ends
  rw [ends, eq_comm, decide_eq_true_eq] at length
  refine ⟨⟨{ (st.setReassembly { message with isOpen := false, bytes := [] }).assoc
    with heldDeliveries := [] },
      st.delivered ++ [⟨data.userData, true, m.stream⟩] ++ st.assoc.heldDeliveries⟩,
    { g.step with
      handed := g.handed ++ [(sent.cursor g.next).message] ++ g.held
      underway := none
      held := [] }, ?_, ?_, ?_, ?_, rfl, fun _ => Nat.le_refl _, rfl, fun h => h⟩
  · simp [Receiving.takeChunk, part, ends, bytes, stream, Receiving.setReassembly]
  · refine ⟨?_, rfl, fun _ => rfl,
      ⟨groups ++ [tail ++ [⟨data.userData, true, m.stream⟩]] ++ g.held.map fun j =>
        [sent.delivery j], [], ?_, ?_,
        fun _ => rfl, by simp⟩, ?_, by simp⟩
    · simp [partialDeliveryOpen, Receiving.setReassembly]
    · rw [List.flatten_append, List.flatten_append, flatten_deliveries, handed.held,
        ← List.append_assoc, ← List.append_assoc, log]
      simp
    · refine List.rel_append (List.rel_append
        whole (.cons ⟨m, here, tail, _, rfl, each, rfl, rfl, ?_⟩ .nil)) ?_
      · rw [List.flatMap_append, sum, sentUp]
        conv_rhs => rw [← List.take_length (l := m.bytes), ← length, List.take_add, ← frag.bytes]
        simp
      · exact whole_deliveries handed.known
    · have nodup := handed.nodup
      simpa [Progress.order, underway, Progress.step] using nodup
  · refine ⟨streams.ssn, fun other => ?_, streams.early, streams.waits, streams.top⟩
    have order := streams.order other
    simpa [Progress.order, underway, Progress.step] using order
  · refine lower_end low found ends rfl (fun j => ?_) ⟨rfl, rfl, rfl⟩
    simp only [Progress.Has, Progress.step, List.mem_append, List.mem_singleton, List.not_mem_nil,
      false_or]
    tauto

end Take

/-- The next chunk of the sequence is always taken: the receiver reports no violation. -/
theorem reassemble_consumes (handed : Handed sent g past st) (streams : Streams sent top g st.assoc)
    (low : Lower sent top g buf st.assoc.reassembly) (found : sent.chunks[g.next]? = some data)
    (window : InWindow sent top (sent.cursor g.next).message) {offered : DataChunkValue}
    {keep : Bool} (given : Offered g (sent.cursor g.next).message data offered keep) :
    ∃ st' g', st.reassemble offered keep = (true, st')
      ∧ Consumes sent top g past buf st st' g' := by
  obtain ⟨m, here, frag⟩ := Sent.fragment found
  have begins := Sent.begins_iff found
  have flags : offered.begins = data.begins ∧ offered.ends = data.ends
      ∧ offered.unordered = data.unordered ∧ offered.streamIdentifier = data.streamIdentifier
      ∧ offered.streamSeqNum = data.streamSeqNum := by
    obtain ⟨-, rfl, -⟩ | ⟨-, rfl, -⟩ := given <;> exact ⟨rfl, rfl, rfl, rfl, rfl⟩
  obtain ⟨hb, he, hu, hs, hn⟩ := flags
  -- Whatever opens or continues the message is taken by one of the five cases above.
  have take : ∀ message : Reassembly, message.stream = m.stream → message.ssn = m.ssn →
      message.unordered = m.unordered → Gathered g (sent.cursor g.next) m message →
      ∃ st' g', st.takeChunk message offered keep = (true, st')
      ∧ Consumes sent top g past buf st st' g' := by
    intro message stream ssn unordered gathered
    obtain ⟨new, rfl, rfl⟩ | ⟨hasIt, -, rfl⟩ := given
    · obtain ⟨hasIt, -⟩ | ⟨-, bytes, whole, none⟩ | ⟨-, bytes, part, underway, sentUp⟩ := gathered
      · exact absurd hasIt new
      · cases ends : offered.ends with
        | true =>
          exact takeChunk_completes handed streams low found here frag stream ssn unordered window
            new bytes whole none ends
        | false =>
          exact takeChunk_gathers handed streams low found here frag stream ssn unordered window
            new bytes whole none ends
      · cases ends : offered.ends with
        | true =>
          exact takeChunk_last handed streams low found here frag stream bytes part underway sentUp
            ends
        | false =>
          exact takeChunk_piece handed streams low found here frag stream ssn unordered window
            new bytes part underway sentUp ends
    · exact takeChunk_framing handed streams low found here stream ssn unordered window
        hasIt gathered he
  unfold Receiving.reassemble
  by_cases zero : (sent.cursor g.next).offset = 0
  · have idle := low.straddles.1 zero
    have isFirst : offered.begins = true := hb.trans (begins.mpr zero)
    rw [if_neg (by simp [isFirst, idle.isOpen]), if_pos isFirst]
    refine take _ (hs.trans frag.stream) (hn.trans frag.ssn) (hu.trans frag.unordered) ?_
    by_cases hasIt : g.Has (sent.cursor g.next).message
    · exact Or.inl ⟨hasIt, rfl, rfl, idle.underway⟩
    · exact Or.inr (Or.inl ⟨hasIt, by simp [zero], rfl, idle.underway⟩)
  · obtain ⟨isOpen, m', here', stream, ssn, unordered, gathered⟩ := low.straddles.2 zero
    rw [here] at here'
    cases here'
    have notFirst : offered.begins = false := by
      rw [hb, ← Bool.not_eq_true]
      exact fun first => zero (begins.mp first)
    rw [if_neg (by simp [notFirst, isOpen]), if_neg (by simp [notFirst]), if_neg]
    · exact take _ stream ssn unordered gathered
    · rw [hs, hu, hn, frag.stream, frag.unordered, frag.ssn, stream, ssn, unordered]
      simp

end Consuming

end SctpStack
