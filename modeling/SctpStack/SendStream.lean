import SctpStack.Sent
import SctpStack.Socket

/-!
# The first-transmission stream

What `cut_new_data` cuts from the messages `sctp_send_data` accepts, call by call. The
chunks carry consecutive TSNs and fall into groups, one for each message in order, the
last of them possibly unfinished (`Grouped`); every call keeps to the packet and to the
window (`CutCall.Bounded`); and `outbound_bytes` counts what is still to be cut.

`send_stream` puts these together for every run (`SendHistory`).
-/

namespace SctpStack

open Serial

/-! ## Groups -/

/-- The fragments of a message, of which `done` bytes are cut. Only the first has B, only
the last of a finished message has E, and only a message longer than `full` is cut into
more than one. -/
structure Fragments (full : Nat) (m : SentMessage) (done : Nat) (group : List DataChunkValue) :
    Prop where
  stream : ∀ data ∈ group, data.streamIdentifier = m.stream
  ssn : ∀ data ∈ group, data.streamSeqNum = m.ssn
  unordered : ∀ data ∈ group, data.unordered = m.unordered
  begins : ∀ i data, group[i]? = some data → data.begins = decide (i = 0)
  ends : ∀ i data, group[i]? = some data →
    data.ends = decide (i + 1 = group.length ∧ done = m.bytes.length)
  nonempty : ∀ data ∈ group, data.userData ≠ []
  bytes : group.flatMap DataChunkValue.userData = m.bytes.take done
  started : group = [] ↔ done = 0
  within : done ≤ m.bytes.length
  split : m.bytes.length ≤ full → group.length ≤ 1 ∧ (group = [] ∨ done = m.bytes.length)

namespace Fragments

variable {full : Nat} {m : SentMessage}

theorem none (full : Nat) (m : SentMessage) : Fragments full m 0 [] where
  stream := by simp
  ssn := by simp
  unordered := by simp
  begins := by simp
  ends := by simp
  nonempty := by simp
  bytes := by simp
  started := by simp
  within := Nat.zero_le _
  split := fun _ => ⟨Nat.zero_le _, Or.inl rfl⟩

/-- One more fragment. -/
theorem snoc {done : Nat} {group : List DataChunkValue} {tsn : Tsn} {data : DataChunkValue}
    (fragments : Fragments full m done group) (next : Fragment m done tsn data)
    (whole : m.bytes.length ≤ full → done = 0 ∧ data.userData.length = m.bytes.length) :
    Fragments full m (done + data.userData.length) (group ++ [data]) := by
  have some : 0 < data.userData.length := List.length_pos_iff.mpr next.nonempty
  have member : ∀ {p : DataChunkValue → Prop}, (∀ d ∈ group, p d) → p data →
      ∀ d ∈ group ++ [data], p d := by
    intro p old new d inside
    rcases List.mem_append.mp inside with before | last
    · exact old d before
    · rw [List.mem_singleton.mp last]
      exact new
  refine ⟨member fragments.stream next.stream, member fragments.ssn next.ssn,
    member fragments.unordered next.unordered, ?_, ?_, member fragments.nonempty next.nonempty,
    ?_, ?_, next.fits, ?_⟩
  · intro i d here
    rw [List.getElem?_append] at here
    split at here
    · exact fragments.begins i d here
    · next past =>
      obtain ⟨last, rfl⟩ : i = group.length ∧ data = d := by
        rw [List.getElem?_singleton] at here
        split at here
        · exact ⟨by omega, Option.some.inj here⟩
        · cases here
      rw [next.begins, last]
      exact decide_eq_decide.mpr (fragments.started.symm.trans List.length_eq_zero_iff.symm)
  · intro i d here
    rw [List.length_append, List.length_singleton]
    rw [List.getElem?_append] at here
    split at here
    · next before =>
      -- the message was not finished before this fragment
      rw [fragments.ends i d here]
      have unfinished := next.fits
      exact decide_eq_decide.mpr ⟨by omega, by omega⟩
    · next past =>
      obtain ⟨last, rfl⟩ : i = group.length ∧ data = d := by
        rw [List.getElem?_singleton] at here
        split at here
        · exact ⟨by omega, Option.some.inj here⟩
        · cases here
      rw [next.ends, last]
      simp
  · rw [List.flatMap_append, fragments.bytes, List.flatMap_singleton, List.take_add, ← next.bytes]
  · exact ⟨fun empty => absurd empty (List.append_ne_nil_of_right_ne_nil _ (List.cons_ne_nil _ _)),
      fun zero => by omega⟩
  · intro small
    obtain ⟨start, all⟩ := whole small
    have first := fragments.started.mpr start
    rw [first, start, all]
    exact ⟨Nat.le_refl _, Or.inr (Nat.zero_add _)⟩

end Fragments

/-- The chunks of a stream, group by group. -/
structure Grouped (full : Nat) (messages : List SentMessage) (chunks : List DataChunkValue)
    (groups : List (List DataChunkValue)) (last : List DataChunkValue) (done : Nat) : Prop where
  chunks : chunks = groups.flatten ++ last
  finished : List.Forall₂ (fun m group => Fragments full m m.bytes.length group)
    (messages.take groups.length) groups
  unfinished : last = [] ∨ ∃ m, messages[groups.length]? = some m ∧ Fragments full m done last
    ∧ done < m.bytes.length

/-! ## Cutting -/

/-- A message in the queue, with what is cut of the first. -/
structure Streaming (full : Nat) (messages : List SentMessage) (outbound : List OutboundMessage)
    (chunks : List DataChunkValue) (groups : List (List DataChunkValue))
    (last : List DataChunkValue) (done : Nat) :
    Prop where
  chunks : chunks = groups.flatten ++ last
  finished : List.Forall₂ (fun m group => Fragments full m m.bytes.length group)
    (messages.take groups.length) groups
  within : groups.length ≤ messages.length
  queue : outbound.map OutboundMessage.accepted = messages.drop groups.length
  head : ∀ message rest, outbound = message :: rest →
    message.offset = done ∧ Fragments full message.accepted done last ∧ ∀ m ∈ rest, m.offset = 0
  idle : outbound = [] → last = []
  left : ∀ m ∈ outbound, m.offset < m.bytes.length

namespace Streaming

variable {full : Nat} {messages : List SentMessage} {outbound : List OutboundMessage}
    {chunks : List DataChunkValue}
  {groups : List (List DataChunkValue)} {last : List DataChunkValue} {done : Nat}

theorem next (streaming : Streaming full messages outbound chunks groups last done)
    {message : OutboundMessage} {rest : List OutboundMessage} (first : outbound = message :: rest) :
    messages[groups.length]? = some message.accepted := by
  rw [← List.head?_drop, ← streaming.queue, first]
  rfl

theorem grouped (streaming : Streaming full messages outbound chunks groups last done) :
    Grouped full messages chunks groups last done := by
  refine ⟨streaming.chunks, streaming.finished, ?_⟩
  cases first : outbound with
  | nil => exact Or.inl (streaming.idle first)
  | cons message rest =>
    obtain ⟨offset, fragments, -⟩ := streaming.head message rest first
    have left := streaming.left message (first ▸ List.mem_cons_self)
    exact Or.inr ⟨message.accepted, streaming.next first, fragments, offset ▸ left⟩

/-- One more message in the queue. -/
theorem accept (streaming : Streaming full messages outbound chunks groups last done)
    (message : OutboundMessage) (fresh : message.offset = 0) (some : 0 < message.bytes.length) :
    ∃ done, Streaming full (messages ++ [message.accepted]) (outbound ++ [message]) chunks groups
      last done := by
  have finished : List.Forall₂ (fun m group => Fragments full m m.bytes.length group)
      ((messages ++ [message.accepted]).take groups.length) groups := by
    rw [List.take_append_of_le_length streaming.within]
    exact streaming.finished
  have within : groups.length ≤ (messages ++ [message.accepted]).length := by
    rw [List.length_append]
    exact Nat.le_trans streaming.within (Nat.le_add_right _ _)
  have queue : (outbound ++ [message]).map OutboundMessage.accepted
      = (messages ++ [message.accepted]).drop groups.length := by
    rw [List.drop_append_of_le_length streaming.within, List.map_append, streaming.queue]
    rfl
  have left : ∀ m ∈ outbound ++ [message], m.offset < m.bytes.length := by
    intro m member
    rcases List.mem_append.mp member with old | new
    · exact streaming.left m old
    · rw [List.mem_singleton.mp new, fresh]
      exact some
  cases first : outbound with
  | nil =>
    have empty := streaming.idle first
    rw [first] at queue left
    refine ⟨0, streaming.chunks, finished, within, queue, ?_, fun none => absurd none (by simp),
      left⟩
    intro m rest here
    obtain ⟨rfl, rfl⟩ := List.cons.inj here
    rw [empty]
    exact ⟨fresh, .none full _, by simp⟩
  | cons head rest =>
    obtain ⟨offset, fragments, zero⟩ := streaming.head head rest first
    rw [first] at queue left
    refine ⟨done, streaming.chunks, finished, within, queue, ?_, fun none => absurd none (by simp),
      left⟩
    intro m others here
    obtain ⟨rfl, rfl⟩ := List.cons.inj here
    refine ⟨offset, fragments, fun m member => ?_⟩
    rcases List.mem_append.mp member with old | new
    · exact zero m old
    · rw [List.mem_singleton.mp new, fresh]

/-- One chunk cut from the message at the head. -/
theorem cut (streaming : Streaming full messages outbound chunks groups last done)
    (assoc : Association) {message : OutboundMessage} {rest : List OutboundMessage} {take : Nat}
    (first : outbound = message :: rest) (pos : 0 < take)
    (fits : message.offset + take ≤ message.bytes.length)
    (whole : message.bytes.length ≤ full → take = message.bytes.length - message.offset) :
    ∃ groups last done, Streaming full messages (afterCut assoc message rest take).outbound
      (chunks ++ [cutChunk assoc message take]) groups last done := by
  obtain ⟨offset, fragments, zero⟩ := streaming.head message rest first
  have next := cutChunk_fragment assoc pos fits
  have length : (cutChunk assoc message take).userData.length = take := by
    simp only [cutChunk, List.length_take, List.length_drop]
    omega
  rw [offset] at next
  have more := fragments.snoc next (by
    intro small
    -- a message that fits whole has not been begun
    have begun := (fragments.split small).2
    have unfinished : done < message.bytes.length :=
      offset ▸ streaming.left message (first ▸ List.mem_cons_self)
    have none : last = [] := begun.resolve_right (Nat.ne_of_lt unfinished)
    have start : done = 0 := fragments.started.mp none
    refine ⟨start, ?_⟩
    rw [length, whole small, offset, start, Nat.sub_zero]
    rfl)
  rw [length] at more
  have left : ∀ m ∈ rest, m.offset < m.bytes.length := fun m member =>
    streaming.left m (first ▸ List.mem_cons_of_mem _ member)
  have queue := streaming.queue
  rw [first, List.map_cons] at queue
  have here := streaming.next first
  have bound := (List.getElem?_eq_some_iff.mp here).1
  by_cases complete : message.offset + take = message.bytes.length
  · refine ⟨groups ++ [last ++ [cutChunk assoc message take]], [], 0, ?_⟩
    have outbound' : (afterCut assoc message rest take).outbound = rest := if_pos complete
    rw [outbound']
    refine ⟨?_, ?_, ?_, ?_, ?_, fun _ => rfl, left⟩
    · rw [streaming.chunks, List.flatten_append, List.append_nil, List.append_assoc,
        List.flatten_singleton]
    · rw [List.length_append, List.length_singleton, List.take_add_one, here]
      refine List.rel_append streaming.finished (List.Forall₂.cons ?_ .nil)
      rw [show message.accepted.bytes.length = done + take from offset ▸ complete.symm]
      exact more
    · rw [List.length_append, List.length_singleton]
      exact bound
    · rw [List.length_append, List.length_singleton, ← List.drop_drop, ← queue]
      rfl
    · intro m others tail
      exact ⟨zero m (tail ▸ List.mem_cons_self), .none full _, fun k member =>
        zero k (tail ▸ List.mem_cons_of_mem _ member)⟩
  · refine ⟨groups, last ++ [cutChunk assoc message take], done + take, ?_⟩
    have outbound' : (afterCut assoc message rest take).outbound
        = { message with offset := message.offset + take } :: rest := if_neg complete
    rw [outbound']
    refine ⟨?_, streaming.finished, streaming.within, queue, ?_, fun none =>
      absurd none (List.cons_ne_nil _ _), ?_⟩
    · rw [streaming.chunks, List.append_assoc]
    · intro m others same
      obtain ⟨rfl, rfl⟩ := List.cons.inj same
      exact ⟨by rw [← offset], more, zero⟩
    · intro m member
      rcases List.mem_cons.mp member with rfl | old
      · exact Nat.lt_of_le_of_ne fits complete
      · exact left m old

end Streaming

/-- A message no longer than a full fragment is cut whole or not at all. -/
theorem cutSize_whole {assoc : Association} {allowance : SendAllowance} {packetBytes : Nat}
    {probe : Bool} {message : OutboundMessage} {take : Nat}
    (small : message.bytes.length ≤ fullFragment assoc)
    (cut : cutSize assoc allowance packetBytes probe message = some take) :
    take = message.bytes.length - message.offset := by
  unfold cutSize at cut
  simp only at cut
  generalize (if probe = true then _ else _) = window at cut
  split at cut
  · rw [if_pos (Or.inl small)] at cut
    cases cut
  · rw [← Option.some.inj cut]
    omega

/-- The chunks of one call join the groups. -/
theorem Streaming.cutFrom (allowance : SendAllowance) {full : Nat} {messages : List SentMessage}
    (fuel : Nat) (assoc : Association) {chunks : List DataChunkValue} (packetBytes : Nat)
    (first : Bool) (pmdcs : assoc.pmdcs = defaultPmdcs) (fragment : fullFragment assoc = full)
    (streaming : ∃ groups last done, Streaming full messages assoc.outbound chunks groups last
      done) :
    ∃ groups last done, Streaming full messages
      (cutNewDataFrom allowance fuel assoc packetBytes first).assoc.outbound
        (chunks ++ (cutNewDataFrom allowance fuel assoc packetBytes first).chunks) groups last
          done := by
  induction fuel generalizing assoc chunks packetBytes first with
  | zero => simpa [cutNewDataFrom] using streaming
  | succ fuel ih =>
    unfold cutNewDataFrom
    split
    · simpa using streaming
    · next message rest outbound =>
      cases cut : cutSize assoc allowance packetBytes (allowance.zeroWindowProbe && first) message
        with
      | none => simpa [cut] using streaming
      | some take =>
        obtain ⟨groups, last, done, before⟩ := streaming
        obtain ⟨pos, fits⟩ := cutSize_bounds pmdcs
          (before.left message (outbound ▸ List.mem_cons_self)) cut
        have one := before.cut assoc outbound pos fits fun small =>
          cutSize_whole (fragment ▸ small) cut
        simp only [cut]
        split
        · exact one
        · have more := ih (afterCut assoc message rest take) (packetBytes + fragmentWireSize take)
            false pmdcs fragment one
          rwa [List.append_assoc] at more

/-! ## One call -/

/-- A zero-window probe cuts one chunk, if there is a message to cut it from. -/
theorem length_cut_probe {assoc : Association} {allowance : SendAllowance}
    (pmdcs : assoc.pmdcs = defaultPmdcs) (probe : allowance.zeroWindowProbe = true) :
    (cutNewData assoc allowance).chunks.length = if assoc.outbound = [] then 0 else 1 := by
  unfold cutNewData cutNewDataFrom
  cases outbound : assoc.outbound with
  | nil => simp
  | cons message rest =>
    have fits : ¬fragmentWireSize (min (message.bytes.length - message.offset) (fullFragment assoc))
        > assoc.pmdcs - 0 := by
      have small : min (message.bytes.length - message.offset) (fullFragment assoc)
          ≤ fullFragment assoc :=
        Nat.min_le_right _ _
      simp only [fragmentWireSize, fullFragment, pad4, dataChunkHeaderSize, pmdcs, defaultPmdcs]
        at small ⊢
      omega
    have cut : cutSize assoc allowance 0 true message
        = some (min (message.bytes.length - message.offset) (fullFragment assoc)) := by
      unfold cutSize
      simp only [if_true]
      rw [if_neg fits]
    simp [probe, cut]

/-- The loop ends before its fuel does: every pass takes at least a chunk header. -/
theorem cutNewDataFrom_fuel (allowance : SendAllowance) {fuel more : Nat} (assoc : Association)
    (packetBytes : Nat) (first : Bool) (enough : assoc.pmdcs - packetBytes < fuel)
    (longer : fuel ≤ more) :
    cutNewDataFrom allowance more assoc packetBytes first
      = cutNewDataFrom allowance fuel assoc packetBytes first := by
  induction fuel generalizing assoc packetBytes first more with
  | zero => cases enough
  | succ fuel ih =>
    obtain ⟨more, rfl⟩ : ∃ m, more = m + 1 := ⟨more - 1, by omega⟩
    unfold cutNewDataFrom
    cases outbound : assoc.outbound with
    | nil => rfl
    | cons message rest =>
      cases cut : cutSize assoc allowance packetBytes (allowance.zeroWindowProbe && first) message
        with
      | none => simp [cut]
      | some take =>
        have window := cutSize_window cut
        have space := cutWindow_le assoc allowance packetBytes (allowance.zeroWindowProbe && first)
        have header : dataChunkHeaderSize ≤ fragmentWireSize take := Nat.le_add_right _ _
        have rest' := ih (afterCut assoc message rest take) (packetBytes + fragmentWireSize take)
          false (by
            have same : (afterCut assoc message rest take).pmdcs = assoc.pmdcs := rfl
            rw [same]
            unfold dataChunkHeaderSize at header
            omega) (Nat.le_of_succ_le_succ longer)
        simp only [cut, rest']

/-! ## What is left to cut -/

/-- The bytes queued and not yet cut. -/
def unsentBytes (outbound : List OutboundMessage) : Nat :=
  (outbound.map fun m => m.bytes.length - m.offset).sum

theorem outboundBytes_afterCut {assoc : Association} {message : OutboundMessage}
    {rest : List OutboundMessage} {take : Nat}
    (counted : assoc.outboundBytes = unsentBytes (message :: rest))
    (fits : message.offset + take ≤ message.bytes.length) :
    (afterCut assoc message rest take).outboundBytes
      = unsentBytes (afterCut assoc message rest take).outbound := by
  simp only [afterCut, counted]
  split
  · simp only [unsentBytes, List.map_cons, List.sum_cons]
    omega
  · simp only [unsentBytes, List.map_cons, List.sum_cons]
    omega

/-- A call leaves `outbound_bytes` right, and no larger. -/
theorem outboundBytes_cutFrom (allowance : SendAllowance) (fuel : Nat) (assoc : Association)
    (packetBytes : Nat) (first : Bool) (pmdcs : assoc.pmdcs = defaultPmdcs)
    (left : ∀ m ∈ assoc.outbound, m.offset < m.bytes.length)
    (counted : assoc.outboundBytes = unsentBytes assoc.outbound) :
    (cutNewDataFrom allowance fuel assoc packetBytes first).assoc.outboundBytes
        = unsentBytes (cutNewDataFrom allowance fuel assoc packetBytes first).assoc.outbound
      ∧ (cutNewDataFrom allowance fuel assoc packetBytes first).assoc.outboundBytes
        ≤ assoc.outboundBytes := by
  induction fuel generalizing assoc packetBytes first with
  | zero => exact ⟨counted, Nat.le_refl _⟩
  | succ fuel ih =>
    unfold cutNewDataFrom
    split
    · exact ⟨counted, Nat.le_refl _⟩
    · next message rest outbound =>
      cases cut : cutSize assoc allowance packetBytes (allowance.zeroWindowProbe && first) message
        with
      | none => simpa [cut] using counted
      | some take =>
        obtain ⟨pos, fits⟩ := cutSize_bounds pmdcs (left message (outbound ▸ List.mem_cons_self))
          cut
        have counted' := outboundBytes_afterCut (outbound ▸ counted) fits
        have less : (afterCut assoc message rest take).outboundBytes ≤ assoc.outboundBytes :=
          Nat.sub_le _ _
        have left' : ∀ m ∈ (afterCut assoc message rest take).outbound, m.offset
            < m.bytes.length := by
          intro m member
          simp only [afterCut] at member
          split at member
          · exact left m (outbound ▸ List.mem_cons_of_mem _ member)
          · next partly =>
            rcases List.mem_cons.mp member with rfl | old
            · exact Nat.lt_of_le_of_ne fits partly
            · exact left m (outbound ▸ List.mem_cons_of_mem _ old)
        simp only [cut]
        split
        · exact ⟨counted', less⟩
        · obtain ⟨same, lower⟩ := ih (afterCut assoc message rest take)
            (packetBytes + fragmentWireSize take) false pmdcs left' counted'
          exact ⟨same, Nat.le_trans lower less⟩

/-! ## Runs -/

/-- A call of `cut_new_data`: what it was given. -/
structure CutCall where
  assoc : Association
  allowance : SendAllowance

def CutCall.chunks (call : CutCall) : List DataChunkValue :=
  (cutNewData call.assoc call.allowance).chunks

/-- The sender's association, the messages it accepted and the calls that cut them. -/
structure SendLog where
  assoc : Association
  messages : List SentMessage
  calls : List CutCall

def SendLog.chunks (log : SendLog) : List DataChunkValue := log.calls.flatMap CutCall.chunks

/-- An association that has accepted nothing yet, with nothing counted as queued. -/
structure FreshOutbound (assoc : Association) : Prop extends FreshSender assoc where
  outboundBytes : assoc.outboundBytes = 0

/-- Messages accepted by `sctp_send_data` and calls of `cut_new_data` in any order and under
any allowances, between anything else that leaves the queue alone. -/
inductive SendHistory (start : Association) : SendLog → Prop where
  | start : SendHistory start ⟨start, [], []⟩
  | accept {log : SendLog} (data : Bytes) (stream : StreamId) (unordered : Bool) :
      SendHistory start log → sendStatus log.assoc data stream = .ok →
      SendHistory start ⟨queueMessage log.assoc data stream unordered,
        log.messages ++ [⟨stream, if unordered then 0#16 else log.assoc.nextSsn.getD stream.toNat
          0#16, unordered, data⟩], log.calls⟩
  | cut {log : SendLog} (allowance : SendAllowance) : SendHistory start log →
      SendHistory start ⟨(cutNewData log.assoc allowance).assoc, log.messages, log.calls
        ++ [⟨log.assoc, allowance⟩]⟩
  | other {log : SendLog} (assoc : Association) :
      SendHistory start log → SameOutbound log.assoc assoc → assoc.outboundBytes
        = log.assoc.outboundBytes → SendHistory start ⟨assoc, log.messages, log.calls⟩

variable {start : Association} {log : SendLog}

/-- A call's chunks come behind those cut so far. -/
theorem chunks_cut (log : SendLog) (allowance : SendAllowance) (assoc : Association) :
    SendLog.chunks ⟨assoc, log.messages, log.calls ++ [⟨log.assoc, allowance⟩]⟩
      = log.chunks ++ (cutNewData log.assoc allowance).chunks := by
  rw [SendLog.chunks, List.flatMap_append, List.flatMap_singleton]
  rfl

theorem SendHistory.senderRun (history : SendHistory start log) :
    SenderRun start ⟨log.assoc, log.messages, log.chunks⟩ := by
  induction history with
  | start => exact .start
  | accept data stream unordered _ ok ih => exact .accept data stream unordered ih ok
  | @cut log allowance _ ih =>
    have more := SenderRun.cut allowance ih
    rw [← chunks_cut log allowance (cutNewData log.assoc allowance).assoc] at more
    exact more
  | other assoc _ same _ ih => exact .other assoc ih same

/-- The largest message accepted. -/
def largestMessage (messages : List SentMessage) : Nat :=
  (messages.map fun m => m.bytes.length).foldr max 0

theorem largestMessage_snoc (messages : List SentMessage) (m : SentMessage) :
    largestMessage (messages ++ [m]) = max (largestMessage messages) m.bytes.length := by
  induction messages with
  | nil => simp [largestMessage]
  | cons first rest ih =>
    have inner : largestMessage (first :: (rest ++ [m]))
        = max first.bytes.length (largestMessage (rest ++ [m])) := rfl
    have outer : largestMessage (first :: rest) = max first.bytes.length (largestMessage rest) :=
      rfl
    rw [List.cons_append, inner, ih, outer, Nat.max_assoc]

/-- What one call cuts fits the packet, and the window unless the call probes it. -/
structure CutCall.Bounded (call : CutCall) : Prop where
  packet : (call.chunks.map dataChunkWireSize).sum ≤ call.assoc.pmdcs
  window : call.allowance.zeroWindowProbe = false → (call.chunks.map dataChunkWireSize).sum
    ≤ call.allowance.rwnd
  probe : call.allowance.zeroWindowProbe = true → call.chunks.length = if call.assoc.outbound = []
    then 0 else 1

/-- A well-formed first-transmission stream. -/
structure WellFormedStream (start : Association) (log : SendLog) : Prop where
  consecutive : log.chunks.map DataChunkValue.tsn
    = (List.range log.chunks.length).map (ahead start.nextTsn)
  grouped : ∃ groups last done, Grouped (fullFragment start) log.messages log.chunks groups last
    done
  numbered : ∀ stream, (log.messages.filter (orderedOn stream)).map SentMessage.ssn
    = (List.range (log.messages.countP (orderedOn stream))).map (BitVec.ofNat 16)
  nonempty : ∀ data ∈ log.chunks, data.userData ≠ []
  bounded : ∀ call ∈ log.calls, call.assoc.pmdcs = start.pmdcs ∧ call.Bounded
  counted : log.assoc.outboundBytes = unsentBytes log.assoc.outbound
  limited : log.assoc.outboundBytes ≤ max sendBuffer (largestMessage log.messages)

theorem sendStatus_ok {assoc : Association} {data : Bytes} {stream : StreamId}
    (ok : sendStatus assoc data stream = .ok) :
    data ≠ [] ∧ (assoc.outbound = [] ∨ assoc.outboundBytes + data.length ≤ sendBuffer) := by
  unfold sendStatus at ok
  split at ok
  · unfold refusalIn at ok
    split at ok <;> cases ok
  · split at ok
    · cases ok
    · next some =>
      split at ok
      · cases ok
      · split at ok
        · cases ok
        · next room =>
          refine ⟨fun empty => some (by rw [empty]; rfl), ?_⟩
          by_cases idle : assoc.outbound = []
          · exact Or.inl idle
          · exact Or.inr (Nat.le_of_not_lt fun over_ => room ⟨idle, over_⟩)

/-- Messages numbered by how many of their stream came before are numbered in a row. -/
theorem ssns_consecutive {messages : List SentMessage} (stream : StreamId)
    (numbered : ∀ j m, messages[j]? = some m → m.unordered = false →
      m.ssn = BitVec.ofNat 16 (ordinal messages m.stream j)) :
    (messages.filter (orderedOn stream)).map SentMessage.ssn
      = (List.range (messages.countP (orderedOn stream))).map (BitVec.ofNat 16) := by
  induction messages using List.reverseRec with
  | nil => rfl
  | append_singleton messages m ih =>
    have earlier := ih fun j k here ordered => by
      have bound := (List.getElem?_eq_some_iff.mp here).1
      rw [← ordinal_append [m] _ (Nat.le_of_lt bound)]
      exact numbered j k (by rw [List.getElem?_append_left bound]; exact here) ordered
    rw [List.filter_append, List.map_append, List.countP_append, earlier, List.countP_singleton]
    cases here : orderedOn stream m with
    | false => simp [here]
    | true =>
      obtain ⟨ordered, same⟩ := Bool.and_eq_true_iff.mp here
      have last := numbered messages.length m List.getElem?_concat_length (by simpa using ordered)
      rw [ordinal, List.take_left', beq_iff_eq.mp same] at last
      · rw [if_pos rfl, List.range_succ, List.map_append]
        simp [here, last]
      · rfl

theorem fresh_fullFragment {assoc start : Association} (assocPmdcs : assoc.pmdcs = defaultPmdcs)
    (startPmdcs : start.pmdcs = defaultPmdcs) : fullFragment assoc = fullFragment start := by
  rw [fullFragment, fullFragment, assocPmdcs, startPmdcs]

theorem streaming_history (fresh : FreshOutbound start) (history : SendHistory start log) :
    ∃ groups last done,
      Streaming (fullFragment start) log.messages log.assoc.outbound log.chunks groups last
        done := by
  induction history with
  | start =>
    refine ⟨[], [], 0, rfl, .nil, Nat.le_refl _, ?_, ?_, fun _ => rfl, ?_⟩
    · rw [fresh.outbound]
      rfl
    · intro message rest queue
      rw [fresh.outbound] at queue
      cases queue
    · rw [fresh.outbound]
      exact fun m member => absurd member List.not_mem_nil
  | accept data stream unordered _ ok ih =>
    obtain ⟨groups, last, done, streaming⟩ := ih
    obtain ⟨some, -⟩ := sendStatus_ok ok
    obtain ⟨done, more⟩ := streaming.accept ⟨stream, if unordered then 0#16 else _, unordered,
      data, 0⟩ rfl (List.length_pos_iff.mpr some)
    exact ⟨groups, last, done, more⟩
  | @cut log allowance before ih =>
    have inv := senderInv_run fresh.toFreshSender before.senderRun
    have more := Streaming.cutFrom allowance (log.assoc.pmdcs + 1) log.assoc 0 true inv.pmdcs
      (fresh_fullFragment inv.pmdcs fresh.pmdcs) ih
    rw [chunks_cut]
    exact more
  | other assoc _ same _ ih =>
    rw [same.1]
    exact ih

theorem bounded_history (fresh : FreshOutbound start) (history : SendHistory start log) :
    ∀ call ∈ log.calls, call.assoc.pmdcs = start.pmdcs ∧ call.Bounded := by
  induction history with
  | start => exact fun call member => absurd member List.not_mem_nil
  | accept _ _ _ _ _ ih => exact ih
  | @cut log allowance before ih =>
    intro call member
    rcases List.mem_append.mp member with old | new
    · exact ih call old
    · rw [List.mem_singleton.mp new]
      have inv := senderInv_run fresh.toFreshSender before.senderRun
      obtain ⟨packet, window⟩ := size_cutFrom allowance (log.assoc.pmdcs + 1) log.assoc 0 true
      exact ⟨inv.pmdcs.trans fresh.pmdcs.symm, packet, window, length_cut_probe inv.pmdcs⟩
  | other _ _ _ _ ih => exact ih

theorem outboundBytes_history (fresh : FreshOutbound start) (history : SendHistory start log) :
    log.assoc.outboundBytes = unsentBytes log.assoc.outbound
      ∧ log.assoc.outboundBytes ≤ max sendBuffer (largestMessage log.messages) := by
  induction history with
  | start =>
    rw [fresh.outboundBytes, fresh.outbound]
    exact ⟨rfl, Nat.zero_le _⟩
  | @accept log data stream unordered _ ok ih =>
    obtain ⟨counted, limited⟩ := ih
    obtain ⟨some, room⟩ := sendStatus_ok ok
    have largest : largestMessage (log.messages ++ [⟨stream, if unordered then 0#16 else
        log.assoc.nextSsn.getD stream.toNat 0#16, unordered, data⟩])
          = max (largestMessage log.messages) data.length :=
      largestMessage_snoc log.messages _
    have queued : (queueMessage log.assoc data stream unordered).outboundBytes
        = log.assoc.outboundBytes + data.length := rfl
    rw [largest, queued]
    constructor
    · rw [counted]
      simp [queueMessage, unsentBytes]
    · rcases room with idle | room
      · -- nothing is queued, so nothing is counted
        rw [counted, idle]
        simp [unsentBytes]
      · exact Nat.le_trans room (Nat.le_max_left _ _)
  | @cut log allowance before ih =>
    obtain ⟨counted, limited⟩ := ih
    have inv := senderInv_run fresh.toFreshSender before.senderRun
    obtain ⟨same, lower⟩ := outboundBytes_cutFrom allowance (log.assoc.pmdcs + 1) log.assoc 0 true
      inv.pmdcs inv.left counted
    exact ⟨same, Nat.le_trans lower limited⟩
  | other assoc _ same bytes ih =>
    rw [bytes, same.1]
    exact ih

/-- The first-transmission stream is well formed, whatever was accepted and however it was cut. -/
theorem send_stream (fresh : FreshOutbound start) (history : SendHistory start log) :
    WellFormedStream start log := by
  have inv := senderInv_run fresh.toFreshSender history.senderRun
  obtain ⟨groups, last, done, streaming⟩ := streaming_history fresh history
  obtain ⟨counted, limited⟩ := outboundBytes_history fresh history
  refine ⟨?_, ⟨groups, last, done, streaming.grouped⟩, fun stream =>
    ssns_consecutive stream inv.numbered, ?_, bounded_history fresh history, counted, limited⟩
  · apply List.ext_getElem?
    intro i
    rw [List.getElem?_map, List.getElem?_map]
    cases here : log.chunks[i]? with
    | none =>
      rw [List.getElem?_eq_none
        (by rw [List.length_range]; exact List.getElem?_eq_none_iff.mp here)]
      rfl
    | some data =>
      obtain ⟨m, -, fragment⟩ := inv.framed i data here
      rw [List.getElem?_range (List.getElem?_eq_some_iff.mp here).1, Option.map_some,
        Option.map_some, fragment.tsn]
  · intro data member
    obtain ⟨i, here⟩ := List.mem_iff_getElem?.mp member
    obtain ⟨m, -, fragment⟩ := inv.framed i data here
    exact fragment.nonempty

/-- An association whose peer accepted one stream. -/
def loneSender : Association :=
  { Association.blank with
    state := .established
    pmdcs := defaultPmdcs
    nextTsn := 0xFFFFFFFF#32
    outStreams := 1#16
    nextSsn := [0#16] }

def wideWindow : SendAllowance := ⟨0, true, false, 65536, false, false⟩

/-- A message of 1300 bytes, accepted and cut by two calls. -/
def splitLog : SendLog :=
  let queued := queueMessage loneSender (List.replicate 1300 0x2A#8) 0#16 false
  let first := (cutNewData queued wideWindow).assoc
  ⟨(cutNewData first wideWindow).assoc, [⟨0#16, 0#16, false, List.replicate 1300 0x2A#8⟩],
    [⟨queued, wideWindow⟩, ⟨first, wideWindow⟩]⟩

set_option maxRecDepth 20000 in
theorem splitLog_wellFormed : WellFormedStream loneSender splitLog
    ∧ splitLog.chunks.map (fun data => (data.tsn, data.userData.length))
      = [(0xFFFFFFFF#32, 1184), (0#32, 116)] := by
  have accepted := SendHistory.accept (List.replicate 1300 0x2A#8) 0#16 false
    (.start : SendHistory loneSender _) (by decide)
  have history : SendHistory loneSender splitLog := (accepted.cut wideWindow).cut wideWindow
  exact ⟨send_stream ⟨⟨rfl, rfl, rfl⟩, rfl⟩ history, by decide +kernel⟩

/-! ## Where streams start -/

/-- The association an INIT is sent for has accepted nothing. -/
theorem freshOutbound_initNewAssociation (draws : Draws) (destination : SockAddr) :
    FreshOutbound (initNewAssociation draws destination) := ⟨⟨rfl, rfl, rfl⟩, rfl⟩

/-- Nor has one whose streams were just negotiated. -/
theorem FreshOutbound.negotiated {assoc : Association} (fresh : FreshOutbound assoc)
    (outStreams : BitVec 16) :
    FreshOutbound
      { assoc with outStreams := outStreams, nextSsn := List.replicate outStreams.toNat 0#16 } :=
  ⟨⟨fresh.outbound, rfl, fresh.pmdcs⟩, fresh.outboundBytes⟩

/-- Nor has one set up from a cookie. -/
theorem freshOutbound_fromCookie (cookie : StateCookie) :
    FreshOutbound (initNewAssociationFromCookie cookie) :=
  ⟨⟨rfl, rfl, rfl⟩, rfl⟩

end SctpStack
