import SctpStack.DataPacket
import SctpStack.Buffered

/-!
# What is held back from the ULP

Whatever a peer sends, a message is part way through its delivery exactly when the last
piece handed up did not end it (`takeData_left`). That rests on how chunks are held: an
association whose buffers are `Tidy` stays so.
-/

namespace SctpStack

/-- What has been received, as far as it is not handed up: nothing before the association
is up; only whole messages wait for one that is part way through; a message with bytes
is on a stream there is, and a held chunk without bytes is not, unless its message was
taken out early, and then the chunks of that message are consumed in a row. -/
structure Tidy (a : Association) : Prop where
  unborn : forming a.state = true → a.tsnOooBuffer = ∅ ∧ a.reassembly = .closed
    ∧ a.heldDeliveries = []
  held : ∀ d ∈ a.heldDeliveries, d.complete = true
  stream : a.reassembly.isOpen = true → a.reassembly.bytes ≠ [] ∨ a.reassembly.partiallyDelivered
    = true → a.reassembly.stream.toNat < a.inStreams.toNat
  blank : ∀ tsn h, a.tsnOooBuffer.get? tsn = some h → h.assembled = false →
    (h.data.userData = [] ↔ a.inStreams.toNat ≤ h.data.streamIdentifier.toNat)
  ahead : a.tsnOooBuffer.get? a.lastPeerTsn = none
  runs : ∀ tsn h, a.tsnOooBuffer.get? tsn = some h → h.assembled = true → h.data.begins = false →
    (∃ h', a.tsnOooBuffer.get? (tsn - 1#32) = some h' ∧ h'.assembled = true)
      ∨ tsn = a.lastPeerTsn + 1#32 ∧ a.reassembly.bytes = [] ∧ a.reassembly.partiallyDelivered
        = false

theorem Tidy.congr {a b : Association} (tidy : Tidy a)
    (forming : SctpStack.forming b.state = true → SctpStack.forming a.state = true)
    (inStreams : b.inStreams = a.inStreams) (lastPeerTsn : b.lastPeerTsn = a.lastPeerTsn)
    (tsnOooBuffer : b.tsnOooBuffer = a.tsnOooBuffer) (reassembly : b.reassembly = a.reassembly)
    (heldDeliveries : b.heldDeliveries = a.heldDeliveries) : Tidy b where
  unborn := by
    intro forms
    rw [tsnOooBuffer, reassembly, heldDeliveries]
    exact tidy.unborn (forming forms)
  held := by
    rw [heldDeliveries]
    exact tidy.held
  stream := by
    rw [reassembly, inStreams]
    exact tidy.stream
  blank := by
    rw [tsnOooBuffer, inStreams]
    exact tidy.blank
  ahead := by
    rw [tsnOooBuffer, lastPeerTsn]
    exact tidy.ahead
  runs := by
    rw [tsnOooBuffer, lastPeerTsn, reassembly]
    exact tidy.runs

/-- Whether a message is left part way through by what was handed up. -/
def leftOpen (before : Bool) (delivered : List Delivery) : Bool :=
  (delivered.getLast?).elim before fun last => !last.complete

/-! ## Ordering -/

/-- The order of messages changed: while one is part way through, whole messages wait for
it, and otherwise they go up. -/
structure Ordered (st st' : Receiving) : Prop where
  same : st'.assoc = { st.assoc with
    inboundStreams := st'.assoc.inboundStreams, heldDeliveries := st'.assoc.heldDeliveries }
  waiting : partialDeliveryOpen st.assoc = true → st'.delivered = st.delivered
    ∧ ∃ more, st'.assoc.heldDeliveries = st.assoc.heldDeliveries ++ more ∧ ∀ d ∈ more, d.complete
      = true
  handed : partialDeliveryOpen st.assoc = false → st'.assoc.heldDeliveries = st.assoc.heldDeliveries
    ∧ ∃ more, st'.delivered = st.delivered ++ more ∧ ∀ d ∈ more, d.complete = true

namespace Ordered

variable {st st' st'' : Receiving}

theorem refl (st : Receiving) : Ordered st st :=
  ⟨rfl, fun _ => ⟨rfl, [], (List.append_nil _).symm, nofun⟩,
    fun _ => ⟨rfl, [], (List.append_nil _).symm, nofun⟩⟩

theorem reassembly (ordered : Ordered st st') : st'.assoc.reassembly = st.assoc.reassembly := by
  rw [ordered.same]

theorem partially (ordered : Ordered st st') :
    partialDeliveryOpen st'.assoc = partialDeliveryOpen st.assoc := by
  rw [partialDeliveryOpen, partialDeliveryOpen, ordered.reassembly]

theorem append_complete {before middle after : List Delivery}
    (first : ∃ more, middle = before ++ more ∧ ∀ d ∈ more, d.complete = true)
    (second : ∃ more, after = middle ++ more ∧ ∀ d ∈ more, d.complete = true) :
    ∃ more, after = before ++ more ∧ ∀ d ∈ more, d.complete = true := by
  obtain ⟨more, rfl, whole⟩ := first
  obtain ⟨more', rfl, whole'⟩ := second
  refine ⟨more ++ more', List.append_assoc _ _ _, fun d member => ?_⟩
  rcases List.mem_append.mp member with early | late
  · exact whole d early
  · exact whole' d late

theorem trans (first : Ordered st st') (second : Ordered st' st'') : Ordered st st'' where
  same := by
    rw [second.same, first.same]
  waiting := by
    intro isOpen
    obtain ⟨delivered, held⟩ := first.waiting isOpen
    obtain ⟨delivered', held'⟩ := second.waiting (first.partially.trans isOpen)
    exact ⟨delivered'.trans delivered, append_complete held held'⟩
  handed := by
    intro isClosed
    obtain ⟨held, delivered⟩ := first.handed isClosed
    obtain ⟨held', delivered'⟩ := second.handed (first.partially.trans isClosed)
    exact ⟨held'.trans held, append_complete delivered delivered'⟩

theorem handUp (st : Receiving) (bytes : Bytes) (stream : StreamId) :
    Ordered st (st.handUp ⟨bytes, true, stream⟩) := by
  have one : ∀ d ∈ [(⟨bytes, true, stream⟩ : Delivery)], d.complete = true := by simp
  unfold Receiving.handUp
  split
  · next isOpen =>
    refine ⟨rfl, fun _ => ⟨rfl, _, rfl, one⟩, fun isClosed => ?_⟩
    rw [isOpen] at isClosed
    cases isClosed
  · next isClosed => exact ⟨rfl, fun isOpen => absurd isOpen isClosed, fun _ => ⟨rfl, _, rfl, one⟩⟩

theorem setStream (st : Receiving) (id : StreamId) (stream : InboundStream) :
    Ordered st (st.setStream id stream) :=
  ⟨rfl, fun _ => ⟨rfl, [], (List.append_nil _).symm, nofun⟩,
    fun _ => ⟨rfl, [], (List.append_nil _).symm, nofun⟩⟩

theorem drainEarly (id : StreamId) (fuel : Nat) (st : Receiving) :
    Ordered st (Receiving.drainEarly id fuel st) := by
  induction fuel generalizing st with
  | zero => exact refl st
  | succ fuel ih =>
    unfold Receiving.drainEarly
    simp only
    split
    · exact refl st
    · exact ((handUp st _ id).trans (setStream _ id _)).trans (ih _)

theorem advanceStream (st : Receiving) (id : StreamId) : Ordered st (st.advanceStream id) :=
  (setStream st id _).trans (drainEarly id _ _)

theorem orderMessage (st : Receiving) (id : StreamId) (ssn : Ssn) (unordered : Bool)
    (bytes : Bytes) :
    Ordered st (st.orderMessage id ssn unordered bytes).2 := by
  unfold Receiving.orderMessage
  split
  · exact handUp st bytes id
  · simp only
    split
    · split
      · exact refl st
      · exact setStream st id _
    · exact (handUp st bytes id).trans (advanceStream _ id)

end Ordered

/-! ## Reassembly -/

/-- What holds between two chunks; `before` says whether a message was part way through
when the packet came. -/
structure InOrder (before : Bool) (st : Receiving) : Prop where
  left : partialDeliveryOpen st.assoc = leftOpen before st.delivered
  held : ∀ d ∈ st.assoc.heldDeliveries, d.complete = true
  stream : st.assoc.reassembly.isOpen = true →
    st.assoc.reassembly.bytes ≠ [] ∨ st.assoc.reassembly.partiallyDelivered = true →
    st.assoc.reassembly.stream.toNat < st.assoc.inStreams.toNat

theorem leftOpen_append {before : Bool} {delivered more : List Delivery}
    (closed : leftOpen before delivered = false) (whole : ∀ d ∈ more, d.complete = true) :
    leftOpen before (delivered ++ more) = false := by
  unfold leftOpen at *
  rw [List.getLast?_append]
  cases last : more.getLast? with
  | none => exact closed
  | some d => simp [whole d (List.mem_of_getLast? last)]

theorem leftOpen_concat (before : Bool) (delivered : List Delivery) (d : Delivery) :
    leftOpen before (delivered ++ [d]) = !d.complete := by
  unfold leftOpen
  rw [List.getLast?_concat]
  rfl

theorem Ordered.inOrder {before : Bool} {st st' : Receiving} (ordered : Ordered st st')
    (inOrder : InOrder before st) :
    InOrder before st' where
  left := by
    rw [ordered.partially]
    cases isOpen : partialDeliveryOpen st.assoc with
    | true => rw [(ordered.waiting isOpen).1, ← inOrder.left, isOpen]
    | false =>
      obtain ⟨more, delivered, whole⟩ := (ordered.handed isOpen).2
      rw [delivered, leftOpen_append (inOrder.left.symm.trans isOpen) whole]
  held := by
    intro d member
    cases isOpen : partialDeliveryOpen st.assoc with
    | true =>
      obtain ⟨more, held, whole⟩ := (ordered.waiting isOpen).2
      rw [held] at member
      rcases List.mem_append.mp member with early | late
      · exact inOrder.held d early
      · exact whole d late
    | false =>
      rw [(ordered.handed isOpen).1] at member
      exact inOrder.held d member
  stream := by
    rw [ordered.same]
    exact inOrder.stream

/-- A chunk goes into a message on a stream there is. -/
theorem InOrder.takeChunk {before : Bool} {st : Receiving} {message : Reassembly}
    {data : DataChunkValue} (inOrder : InOrder before st)
    (valid : message.stream.toNat < st.assoc.inStreams.toNat)
    (isOpen : partialDeliveryOpen st.assoc = message.partiallyDelivered) :
    InOrder before (st.takeChunk message data true).2 := by
  unfold Receiving.takeChunk
  simp only [Bool.not_true, Bool.false_eq_true, if_false]
  split
  · next part =>
    split
    · next ends =>
      -- The end of the message goes up, and what waited for it.
      refine ⟨?_, nofun, fun _ _ => valid⟩
      simp only [Receiving.setReassembly, partialDeliveryOpen]
      rw [leftOpen_append _ inOrder.held]
      · simp [ends]
      · rw [leftOpen_concat]
        simp [ends]
    · next goes =>
      refine ⟨?_, inOrder.held, fun _ _ => valid⟩
      simp only [Receiving.setReassembly, partialDeliveryOpen]
      rw [leftOpen_concat]
      simp [goes, part]
  · next whole =>
    rw [Bool.not_eq_true] at whole
    have closed : leftOpen before st.delivered = false := by
      rw [← inOrder.left, isOpen]
      exact whole
    split
    · refine ⟨?_, inOrder.held, fun _ _ => valid⟩
      simp only [Receiving.setReassembly, partialDeliveryOpen]
      rw [closed]
      simp [whole]
    · refine (Ordered.orderMessage _ _ _ _ _).inOrder ⟨?_, inOrder.held, fun _ _ => valid⟩
      simp only [Receiving.setReassembly, partialDeliveryOpen]
      rw [closed]
      simp [whole]

/-- A chunk whose bytes are not kept is of a message without bytes. -/
theorem InOrder.skipChunk {before : Bool} {st : Receiving} {message : Reassembly}
    (data : DataChunkValue) (inOrder : InOrder before st) (empty : message.bytes = [])
    (whole : message.partiallyDelivered = false) (isOpen : partialDeliveryOpen st.assoc = false) :
    InOrder before (st.takeChunk message data false).2 := by
  unfold Receiving.takeChunk
  simp only [Bool.not_false, if_true]
  refine ⟨?_, inOrder.held, fun _ some => ?_⟩
  · simp only [Receiving.setReassembly, partialDeliveryOpen]
    rw [← inOrder.left, isOpen]
    simp [whole]
  · rcases some with bytes | part
    · exact absurd empty bytes
    · rw [show message.partiallyDelivered = true from part] at whole
      cases whole

/-- The next chunk in TSN order is taken. `valid` and `skipped` say when its bytes are kept. -/
theorem InOrder.reassemble {before : Bool} {st : Receiving} {data : DataChunkValue}
    {keepBytes : Bool} (inOrder : InOrder before st)
    (valid : keepBytes = true → data.streamIdentifier.toNat < st.assoc.inStreams.toNat)
    (skipped : keepBytes = false → data.begins = false → st.assoc.inStreams.toNat
      ≤ data.streamIdentifier.toNat
      ∨ st.assoc.reassembly.bytes = [] ∧ st.assoc.reassembly.partiallyDelivered = false)
    (ok : (st.reassemble data keepBytes).1 = true) :
    InOrder before (st.reassemble data keepBytes).2
      ∧ (keepBytes = false → (st.reassemble data keepBytes).2.assoc.reassembly.bytes = []
        ∧ (st.reassemble data keepBytes).2.assoc.reassembly.partiallyDelivered = false) := by
  unfold Receiving.reassemble at ok ⊢
  simp only at ok ⊢
  split at ok
  · cases ok
  · next differs =>
    rw [if_neg differs]
    split at ok
    · next begins =>
      rw [if_pos begins]
      have isClosed : partialDeliveryOpen st.assoc = false := by
        cases isOpen : st.assoc.reassembly.isOpen with
        | false => simp [partialDeliveryOpen, isOpen]
        | true => exact absurd (begins.trans isOpen.symm) differs
      cases keepBytes with
      | true => exact ⟨inOrder.takeChunk (valid rfl) isClosed, fun skips =>
          absurd skips.symm Bool.false_ne_true⟩
      | false => exact ⟨inOrder.skipChunk data rfl rfl isClosed, fun _ => ⟨rfl, rfl⟩⟩
    · next continues =>
      rw [if_neg continues]
      rw [Bool.not_eq_true] at continues
      have isOpen : st.assoc.reassembly.isOpen = true := by
        cases isOpen : st.assoc.reassembly.isOpen with
        | false => exact absurd (continues.trans isOpen.symm) differs
        | true => rfl
      split at ok
      · cases ok
      · next fits =>
        rw [if_neg fits]
        have stream : data.streamIdentifier = st.assoc.reassembly.stream := by
          by_contra other
          exact fits (Or.inl other)
        cases keepBytes with
        | true =>
          refine ⟨inOrder.takeChunk (by rw [← stream]; exact valid rfl) ?_, fun skips =>
            absurd skips.symm Bool.false_ne_true⟩
          simp [partialDeliveryOpen, isOpen]
        | false =>
          have none : st.assoc.reassembly.bytes = [] ∧ st.assoc.reassembly.partiallyDelivered
              = false := by
            rcases skipped rfl continues with invalid | none
            · rw [stream] at invalid
              constructor
              · by_contra some
                exact absurd (inOrder.stream isOpen (Or.inl some)) (Nat.not_lt.mpr invalid)
              · by_contra part
                rw [Bool.not_eq_false] at part
                exact absurd (inOrder.stream isOpen (Or.inr part)) (Nat.not_lt.mpr invalid)
            · exact none
          refine ⟨inOrder.skipChunk data none.1 none.2 ?_, fun _ => none⟩
          simp [partialDeliveryOpen, none.2]

/-! ## The out-of-order buffer -/

/-- The chunks that are held, `next` being the TSN consumed next. -/
structure Shelved (next : Tsn) (a : Association) : Prop where
  blank : ∀ tsn h, a.tsnOooBuffer.get? tsn = some h → h.assembled = false →
    (h.data.userData = [] ↔ a.inStreams.toNat ≤ h.data.streamIdentifier.toNat)
  ahead : a.tsnOooBuffer.get? (next - 1#32) = none
  runs : ∀ tsn h, a.tsnOooBuffer.get? tsn = some h → h.assembled = true → h.data.begins = false →
    (∃ h', a.tsnOooBuffer.get? (tsn - 1#32) = some h' ∧ h'.assembled = true)
      ∨ tsn = next ∧ a.reassembly.bytes = [] ∧ a.reassembly.partiallyDelivered = false

theorem Tidy.shelved {a : Association} (tidy : Tidy a) : Shelved (a.lastPeerTsn + 1#32) a :=
  ⟨tidy.blank, by rw [BitVec.add_sub_cancel]; exact tidy.ahead, tidy.runs⟩

theorem Tidy.of_shelved {a : Association} {before : Bool} {delivered : List Delivery}
    (up : forming a.state = false) (shelved : Shelved (a.lastPeerTsn + 1#32) a)
    (inOrder : InOrder before ⟨a, delivered⟩) : Tidy a where
  unborn := by
    intro forms
    rw [up] at forms
    cases forms
  held := inOrder.held
  stream := inOrder.stream
  blank := shelved.blank
  ahead := by
    have ahead := shelved.ahead
    rw [BitVec.add_sub_cancel] at ahead
    exact ahead
  runs := shelved.runs

theorem Shelved.congr {next : Tsn} {a b : Association} (shelved : Shelved next a)
    (inStreams : b.inStreams = a.inStreams) (buffer : b.tsnOooBuffer = a.tsnOooBuffer)
    (reassembly : b.reassembly = a.reassembly) : Shelved next b := by
  obtain ⟨blank, ahead, runs⟩ := shelved
  refine ⟨?_, ?_, ?_⟩
  · rw [buffer, inStreams]
    exact blank
  · rw [buffer]
    exact ahead
  · rw [buffer, reassembly]
    exact runs

/-- The chunk at `next` was consumed: the rest of an assembled message is what follows it. -/
theorem Shelved.consume {next : Tsn} {a b : Association} {h : HeldChunk} (shelved : Shelved next a)
    (found : a.tsnOooBuffer.get? next = some h) (inStreams : b.inStreams = a.inStreams)
    (buffer : b.tsnOooBuffer = a.tsnOooBuffer.erase next)
    (emptied : h.assembled = true → b.reassembly.bytes = [] ∧ b.reassembly.partiallyDelivered
      = false) :
    Shelved (next + 1#32) b where
  blank := by
    intro tsn h' here
    rw [buffer, KeyMap.get?_erase] at here
    split at here
    · cases here
    · rw [inStreams]
      exact shelved.blank tsn h' here
  ahead := by
    rw [buffer, BitVec.add_sub_cancel]
    simp
  runs := by
    intro tsn h' here assembled continues
    rw [buffer, KeyMap.get?_erase] at here
    split at here
    · cases here
    · next apart =>
      rcases shelved.runs tsn h' here assembled continues with ⟨previous, below, also⟩ | ⟨same, -⟩
      · by_cases last : tsn - 1#32 = next
        · rw [last, found] at below
          cases below
          refine Or.inr ⟨?_, emptied also⟩
          rw [← last, BitVec.sub_add_cancel]
        · exact Or.inl ⟨previous, by rw [buffer, KeyMap.get?_erase, if_neg last]; exact below, also⟩
      · exact absurd same apart

/-- When the bytes of a held chunk are kept, as `reassemble` asks it. -/
theorem Shelved.keeps {tsn : Tsn} {a : Association} {h : HeldChunk} (shelved : Shelved tsn a)
    (found : a.tsnOooBuffer.get? tsn = some h) :
    ((!h.assembled && !h.data.userData.isEmpty) = true → h.data.streamIdentifier.toNat
      < a.inStreams.toNat)
    ∧ ((!h.assembled && !h.data.userData.isEmpty) = false → h.data.begins = false →
      a.inStreams.toNat ≤ h.data.streamIdentifier.toNat
        ∨ a.reassembly.bytes = [] ∧ a.reassembly.partiallyDelivered = false) := by
  cases assembled : h.assembled with
  | false =>
    have blank := shelved.blank tsn h found assembled
    constructor
    · intro kept
      by_contra invalid
      rw [blank.mpr (Nat.not_lt.mp invalid)] at kept
      cases kept
    · intro skipped _
      refine Or.inl (blank.mp ?_)
      simpa using skipped
  | true =>
    refine ⟨nofun, fun _ continues => Or.inr ?_⟩
    rcases shelved.runs tsn h found assembled continues with ⟨previous, below, -⟩ | ⟨-, none⟩
    · rw [shelved.ahead] at below
      cases below
    · exact none

/-- The loop of `read_ooo_buffer`. -/
theorem readOooFrom_spec {before : Bool} {fuel : Nat} {tsn : Tsn} {st st' : Receiving}
    (read : Receiving.readOooFrom fuel tsn st = (true, st')) (inOrder : InOrder before st)
    (shelved : Shelved tsn st.assoc) :
    InOrder before st' ∧ Shelved (st'.assoc.lastPeerTsn + 1#32) st'.assoc := by
  have done : ∀ {tsn : Tsn} {st : Receiving}, InOrder before st → Shelved tsn st.assoc →
      InOrder before { st with assoc := { st.assoc with lastPeerTsn := tsn - 1#32 } }
        ∧ Shelved (tsn - 1#32 + 1#32) { st.assoc with lastPeerTsn := tsn - 1#32 } := by
    intro tsn st inOrder shelved
    refine ⟨⟨inOrder.left, inOrder.held, inOrder.stream⟩, ?_⟩
    rw [BitVec.sub_add_cancel]
    exact shelved.congr rfl rfl rfl
  induction fuel generalizing tsn st with
  | zero =>
    cases read
    exact done inOrder shelved
  | succ fuel ih =>
    unfold Receiving.readOooFrom at read
    cases found : st.assoc.tsnOooBuffer.get? tsn with
    | none =>
      rw [found] at read
      cases read
      exact done inOrder shelved
    | some h =>
      rw [found] at read
      simp only at read
      have keeps := shelved.keeps found
      have gains := st.reassemble_gains h.data (!h.assembled && !h.data.userData.isEmpty)
      split at read
      · cases read
      · next ok =>
        rw [Bool.not_eq_true, Bool.not_eq_false'] at ok
        obtain ⟨taken, emptied⟩ := inOrder.reassemble keeps.1 keeps.2 ok
        refine ih read ⟨taken.left, taken.held, taken.stream⟩
          (shelved.consume found ?_ ?_ fun assembled => ?_)
        · rw [gains.same]
        · simp only [gains.buffer]
        · exact emptied (by simp [assembled])

/-! ## Assembly ahead of the cumulative point -/

/-- The TSNs from `first` on that are held. -/
def Stored (a : Association) (first : Tsn) (n : Nat) : Prop :=
  ∀ j ≤ n, ∃ h, a.tsnOooBuffer.get? (first + BitVec.ofNat 32 j) = some h

theorem stored_of_usable {a : Association} {tsn : Tsn} {data : DataChunkValue}
    (usable : Receiving.usable a tsn = some data) :
    ∃ h, a.tsnOooBuffer.get? tsn = some h ∧ h.data = data := by
  unfold Receiving.usable at usable
  split at usable
  · cases usable
  · next h found =>
    split at usable
    · cases usable
    · exact ⟨h, found, Option.some.inj usable⟩

theorem ahead_succ (tsn : Tsn) (j : Nat) :
    tsn + BitVec.ofNat 32 (j + 1) = tsn + 1#32 + BitVec.ofNat 32 j := by
  rw [BitVec.ofNat_add, BitVec.add_comm (BitVec.ofNat 32 j), ← BitVec.add_assoc]

/-- The walk down to the first fragment goes over chunks that are held. -/
theorem firstFragment_stored {a : Association} {arrived chunk : DataChunkValue} {fuel : Nat}
    {tsn first : Tsn} {h : HeldChunk} (found : a.tsnOooBuffer.get? tsn = some h)
    (is : h.data = chunk) (walk : Receiving.firstFragment a arrived fuel tsn chunk = some first) :
    ∃ n, tsn = first + BitVec.ofNat 32 n ∧ Stored a first n
      ∧ ∃ h, a.tsnOooBuffer.get? first = some h ∧ h.data.begins = true := by
  induction fuel generalizing tsn chunk h with
  | zero => cases walk
  | succ fuel ih =>
    unfold Receiving.firstFragment at walk
    split at walk
    · next begins =>
      cases walk
      refine ⟨0, by simp, fun j none => ?_, h, found, by rw [is]; exact begins⟩
      rw [Nat.le_zero.mp none]
      exact ⟨h, by simpa using found⟩
    · cases below : Receiving.usable a (tsn - 1#32) with
      | none =>
        rw [below] at walk
        cases walk
      | some previous =>
        rw [below] at walk
        simp only at walk
        split at walk
        · obtain ⟨h', found', is'⟩ := stored_of_usable below
          obtain ⟨n, here, stored, start⟩ := ih found' is' walk
          have next : tsn = first + BitVec.ofNat 32 (n + 1) := by
            rw [BitVec.ofNat_add, ← BitVec.add_assoc, ← here, BitVec.sub_add_cancel]
          refine ⟨n + 1, next, fun j le => ?_, start⟩
          rcases Nat.le_succ_iff.mp le with lower | last
          · exact stored j lower
          · exact ⟨h, by rw [last, ← next]; exact found⟩
        · cases walk

theorem lastFragment_stored {a : Association} {arrived chunk : DataChunkValue} {fuel : Nat}
    {tsn last : Tsn} {h : HeldChunk} (found : a.tsnOooBuffer.get? tsn = some h)
    (walk : Receiving.lastFragment a arrived fuel tsn chunk = some last) :
    ∃ n, last = tsn + BitVec.ofNat 32 n ∧ Stored a tsn n := by
  induction fuel generalizing tsn chunk h with
  | zero => cases walk
  | succ fuel ih =>
    unfold Receiving.lastFragment at walk
    split at walk
    · cases walk
      refine ⟨0, by simp, fun j none => ?_⟩
      rw [Nat.le_zero.mp none]
      exact ⟨h, by simpa using found⟩
    · cases above : Receiving.usable a (tsn + 1#32) with
      | none =>
        rw [above] at walk
        cases walk
      | some following =>
        rw [above] at walk
        simp only at walk
        split at walk
        · obtain ⟨h', found', -⟩ := stored_of_usable above
          obtain ⟨n, here, stored⟩ := ih found' walk
          refine ⟨n + 1, here.trans (ahead_succ tsn n).symm, fun j le => ?_⟩
          cases j with
          | zero => exact ⟨h, by simpa using found⟩
          | succ j =>
            rw [ahead_succ]
            exact stored j (Nat.le_of_succ_le_succ le)
        · cases walk

theorem Stored.append {a : Association} {first : Tsn} {n m : Nat} (lower : Stored a first n)
    (upper : Stored a (first + BitVec.ofNat 32 n) m) : Stored a first (n + m) := by
  intro j le
  by_cases low : j ≤ n
  · exact lower j low
  · obtain ⟨h, found⟩ := upper (j - n) (by omega)
    refine ⟨h, ?_⟩
    rw [← found, BitVec.add_assoc, ← BitVec.ofNat_add, Nat.add_sub_cancel' (by omega)]

/-- The chunks of a whole message are marked. -/
theorem Shelved.markAssembled {next : Tsn} {a : Association} {first : Tsn} {n count : Nat}
    (shelved : Shelved next a) (stored : Stored a first n) (few : count ≤ n + 1)
    (start : ∃ h, a.tsnOooBuffer.get? first = some h ∧ h.data.begins = true) :
    Shelved next (Receiving.markAssembled a first count) := by
  have after : ∀ tsn, (Receiving.markAssembled a first count).tsnOooBuffer.get? tsn
      = (a.tsnOooBuffer.get? tsn).map fun held =>
        if (tsn - first).toNat < count then ⟨{ held.data with userData := [] }, true⟩ else held :=
    fun tsn => KeyMap.get?_mapVals _ _ _
  refine ⟨fun tsn h found loose => ?_, ?_, fun tsn h found assembled continues => ?_⟩
  · rw [after, Option.map_eq_some_iff] at found
    obtain ⟨held, before, rfl⟩ := found
    split at loose
    · cases loose
    · next out =>
      rw [if_neg out]
      exact shelved.blank tsn held before loose
  · rw [after, shelved.ahead]
    rfl
  · rw [after, Option.map_eq_some_iff] at found
    obtain ⟨held, before, rfl⟩ := found
    -- What was marked before stays marked.
    have marked : ∀ t h', a.tsnOooBuffer.get? t = some h' → h'.assembled = true
        ∨ (t - first).toNat < count → ∃ h'',
          (Receiving.markAssembled a first count).tsnOooBuffer.get? t = some h''
            ∧ h''.assembled = true := by
      intro t h' here either
      rw [after, here]
      refine ⟨_, rfl, ?_⟩
      split
      · rfl
      · next out => exact either.resolve_right out
    by_cases inside : (tsn - first).toNat < count
    · rw [if_pos inside] at continues
      have apart : tsn ≠ first := by
        rintro rfl
        obtain ⟨h', here, begins⟩ := start
        rw [here] at before
        rw [Option.some.inj before, show held.data.begins = false from continues] at begins
        cases begins
      have positive : 0 < (tsn - first).toNat := by bv_omega
      have less : (tsn - 1#32 - first).toNat + 1 = (tsn - first).toNat := by bv_omega
      obtain ⟨h', here⟩ := stored (tsn - 1#32 - first).toNat (by omega)
      rw [BitVec.ofNat_toNat, BitVec.setWidth_eq, BitVec.add_comm, BitVec.sub_add_cancel] at here
      exact Or.inl (marked _ h' here (Or.inr (by omega)))
    · rw [if_neg inside] at assembled continues
      rcases shelved.runs tsn held before assembled continues with ⟨previous, below, also⟩ | none
      · exact Or.inl (marked _ previous below (Or.inl also))
      · exact Or.inr none

theorem assembleEarly_spec {before : Bool} {next : Tsn} {st : Receiving} (tsn : Tsn)
    (inOrder : InOrder before st) (shelved : Shelved next st.assoc) :
    InOrder before (st.assembleEarly tsn).2 ∧ Shelved next (st.assembleEarly tsn).2.assoc
      ∧ (st.assembleEarly tsn).2.assoc.lastPeerTsn = st.assoc.lastPeerTsn := by
  unfold Receiving.assembleEarly
  cases arrived : Receiving.usable st.assoc tsn with
  | none => exact ⟨inOrder, shelved, rfl⟩
  | some data =>
    simp only
    obtain ⟨h, found, is⟩ := stored_of_usable arrived
    split
    · next first last down up =>
      obtain ⟨n, here, lower, start⟩ := firstFragment_stored found is down
      obtain ⟨m, there, upper⟩ := lastFragment_stored found up
      rw [here] at upper there
      have few : (last - first).toNat + 1 ≤ n + m + 1 := by
        rw [there, BitVec.add_assoc, ← BitVec.ofNat_add, BitVec.add_comm, BitVec.add_sub_cancel,
          BitVec.toNat_ofNat]
        exact Nat.succ_le_succ (Nat.mod_le _ _)
      have marked := shelved.markAssembled (lower.append upper) few start
      have ordered := Ordered.orderMessage
        { st with assoc := Receiving.markAssembled st.assoc first ((last - first).toNat + 1) }
          data.streamIdentifier
        data.streamSeqNum data.unordered
          (Receiving.fragmentBytes st.assoc first ((last - first).toNat + 1))
      refine ⟨ordered.inOrder ⟨inOrder.left, inOrder.held, inOrder.stream⟩, ?_, ?_⟩
      · refine marked.congr ?_ ?_ ordered.reassembly
        · rw [ordered.same]
        · rw [ordered.same]
      · rw [ordered.same]
        rfl
    · exact ⟨inOrder, shelved, rfl⟩

/-! ## The chunks of a packet -/

/-- A chunk that was held goes. -/
theorem Shelved.erase {next tsn : Tsn} {a : Association} {h : HeldChunk} (shelved : Shelved next a)
    (found : a.tsnOooBuffer.get? tsn = some h) (loose : h.assembled = false) :
    Shelved next { a with tsnOooBuffer := a.tsnOooBuffer.erase tsn } where
  blank := by
    intro t h' here
    rw [KeyMap.get?_erase] at here
    split at here
    · cases here
    · exact shelved.blank t h' here
  ahead := by
    rw [KeyMap.get?_erase]
    split
    · rfl
    · exact shelved.ahead
  runs := by
    intro t h' here assembled continues
    rw [KeyMap.get?_erase] at here
    split at here
    · cases here
    · rcases shelved.runs t h' here assembled continues with ⟨previous, below, also⟩ | none
      · refine Or.inl ⟨previous, ?_, also⟩
        rw [KeyMap.get?_erase, if_neg]
        · exact below
        · rintro same
          rw [same, found] at below
          cases below
          rw [loose] at also
          cases also
      · exact Or.inr none

/-- What is dropped to make room was held for reordering. -/
theorem admitChunk_shelved {a b : Association} {tsn next : Tsn} {used used' : Nat}
    (admitted : admitChunk a tsn used = some (b, used')) (shelved : Shelved next a) :
    Shelved next b ∧ b = { a with tsnOooBuffer := b.tsnOooBuffer }
      ∧ (a.tsnOooBuffer.get? tsn = none → b.tsnOooBuffer.get? tsn = none) := by
  unfold admitChunk at admitted
  split at admitted
  · cases admitted
    exact ⟨shelved, rfl, id⟩
  · split at admitted
    · next room made =>
      cases admitted
      unfold makeRoom at made
      split at made
      · cases made
      · next highest held chosen =>
        split at made
        · cases made
        · cases made
          have entry := KeyMap.mem_entries.mp
            (List.mem_reverse.mp (List.mem_of_find?_eq_some chosen))
          have loose := List.find?_some chosen
          rw [Bool.not_eq_true'] at loose
          refine ⟨shelved.erase entry loose, rfl, fun absent => ?_⟩
          rw [KeyMap.get?_erase, absent]
          split <;> rfl
    · split at admitted
      · cases admitted
        exact ⟨shelved, rfl, id⟩
      · cases admitted

/-- A chunk is held for reordering. -/
theorem Shelved.hold {next tsn : Tsn} {a : Association} {held : HeldChunk}
    (shelved : Shelved next a) (apart : tsn ≠ next - 1#32) (loose : held.assembled = false)
    (blank : held.data.userData = [] ↔ a.inStreams.toNat ≤ held.data.streamIdentifier.toNat)
    (absent : a.tsnOooBuffer.get? tsn = none) :
    Shelved next { a with tsnOooBuffer := a.tsnOooBuffer.emplaceBy tsnLt tsn held } := by
  have after : ∀ t, (a.tsnOooBuffer.emplaceBy tsnLt tsn held).get? t
      = if t = tsn then some held else a.tsnOooBuffer.get? t := by
    intro t
    rw [KeyMap.get?_emplaceBy, absent]
    rfl
  refine ⟨fun t h here free => ?_, ?_, fun t h here assembled continues => ?_⟩
  · rw [after] at here
    split at here
    · cases here
      exact blank
    · exact shelved.blank t h here free
  · rw [after, if_neg (Ne.symm apart)]
    exact shelved.ahead
  · rw [after] at here
    split at here
    · cases here
      rw [loose] at assembled
      cases assembled
    · rcases shelved.runs t h here assembled continues with ⟨previous, below, also⟩ | none
      · refine Or.inl ⟨previous, ?_, also⟩
        rw [after, if_neg]
        · exact below
        · rintro same
          rw [same, absent] at below
          cases below
      · exact Or.inr none

theorem storeChunk_spec {before : Bool} {st : Receiving} {data : DataChunkValue}
    {validStream : Bool} (inOrder : InOrder before st)
    (shelved : Shelved (st.assoc.lastPeerTsn + 1#32) st.assoc)
    (valid : validStream = true ↔ data.streamIdentifier.toNat < st.assoc.inStreams.toNat)
    (some : data.userData ≠ []) (fresh : st.assoc.tsnOooBuffer.get? data.tsn = none)
    (apart : data.tsn ≠ st.assoc.lastPeerTsn) (ok : (storeChunk st data validStream).1 = true) :
    InOrder before (storeChunk st data validStream).2
      ∧ Shelved ((storeChunk st data validStream).2.assoc.lastPeerTsn + 1#32)
        (storeChunk st data validStream).2.assoc := by
  unfold storeChunk at ok ⊢
  split
  · next next_ =>
    rw [if_pos next_] at ok
    simp only at ok ⊢
    have start : InOrder before { st with assoc := { st.assoc with lastPeerTsn := data.tsn } } :=
      ⟨inOrder.left, inOrder.held, inOrder.stream⟩
    have gains := Receiving.reassemble_gains
        { st with assoc := { st.assoc with lastPeerTsn := data.tsn } } data validStream
    split at ok
    · cases ok
    · next taken =>
      rw [if_neg taken]
      rw [Bool.not_eq_true, Bool.not_eq_false'] at taken
      obtain ⟨inOrder', -⟩ := start.reassemble valid.mp (fun invalid _ => Or.inl (by
        rw [← Nat.not_lt, ← valid, invalid]
        exact nofun)) taken
      -- Nothing held is the rest of an assembled message: its chunk before would be held too.
      have shelved' : Shelved (data.tsn + 1#32)
          (Receiving.reassemble { st with assoc := { st.assoc with lastPeerTsn := data.tsn } }
            data validStream).2.assoc := by
        refine ⟨?_, ?_, fun tsn h here assembled continues => ?_⟩
        · rw [gains.same]
          exact shelved.blank
        · rw [gains.buffer, BitVec.add_sub_cancel]
          exact fresh
        · rw [gains.buffer] at here ⊢
          rcases shelved.runs tsn h here assembled continues with below | ⟨same, -⟩
          · exact Or.inl below
          · rw [same, ← next_, fresh] at here
            cases here
      have last : (Receiving.reassemble
          { st with assoc := { st.assoc with lastPeerTsn := data.tsn } }
            data validStream).2.assoc.lastPeerTsn = data.tsn := by rw [gains.same]
      unfold Receiving.readOooBuffer at ok ⊢
      rw [last] at ok ⊢
      exact readOooFrom_spec (Prod.ext ok rfl) inOrder' shelved'
  · next later =>
    rw [if_neg later] at ok
    simp only at ok ⊢
    have stored : Shelved (st.assoc.lastPeerTsn + 1#32) { st.assoc with
        tsnOooBuffer := st.assoc.tsnOooBuffer.emplaceBy tsnLt data.tsn
          ⟨if validStream then data else { data with userData := [] }, false⟩ } := by
      refine shelved.hold (by rw [BitVec.add_sub_cancel]; exact apart) rfl ?_ fresh
      cases validStream with
      | true =>
        have inside := valid.mp rfl
        exact ⟨fun none => absurd none some, fun outside => absurd inside (Nat.not_lt.mpr outside)⟩
      | false =>
        refine ⟨fun _ => ?_, fun _ => rfl⟩
        rw [← Nat.not_lt]
        exact fun inside => Bool.false_ne_true (valid.mpr inside)
    have same : InOrder before { st with assoc := { st.assoc with
        tsnOooBuffer := st.assoc.tsnOooBuffer.emplaceBy tsnLt data.tsn
          ⟨if validStream then data else { data with userData := [] }, false⟩ } } :=
      ⟨inOrder.left, inOrder.held, inOrder.stream⟩
    split
    · exact ⟨same, stored⟩
    · obtain ⟨inOrder', shelved', last⟩ := assembleEarly_spec data.tsn same stored
      rw [last]
      exact ⟨inOrder', shelved'⟩

/-- The invariant of the loop over the chunks of a packet. -/
structure LoopTidy (before : Bool) (loop : DataLoop) : Prop where
  inOrder : InOrder before loop.st
  shelved : Shelved (loop.st.assoc.lastPeerTsn + 1#32) loop.st.assoc

theorem receiveChunk_tidy {before : Bool} {loop : DataLoop} {flag : BitVec 8}
    {data : DataChunkValue} (tidy : LoopTidy before loop) (some : data.userData ≠ [])
    (ok : (receiveChunk loop flag data).violation = false) :
    LoopTidy before (receiveChunk loop flag data) := by
  obtain ⟨inOrder, shelved⟩ := tidy
  unfold receiveChunk at ok ⊢
  simp only at ok ⊢
  split
  · exact ⟨⟨inOrder.left, inOrder.held, inOrder.stream⟩, shelved.congr rfl rfl rfl⟩
  · next fresh =>
    rw [if_neg fresh] at ok
    rw [Bool.or_eq_true, not_or, Bool.not_eq_true, Bool.not_eq_true] at fresh
    obtain ⟨later, absent⟩ := fresh
    have apart : data.tsn ≠ loop.st.assoc.lastPeerTsn := by
      intro same
      rw [same] at later
      simp [tsnLte] at later
    split
    · exact ⟨⟨inOrder.left, inOrder.held, inOrder.stream⟩, shelved.congr rfl rfl rfl⟩
    · next near =>
      rw [if_neg near] at ok
      split
      · exact ⟨⟨inOrder.left, inOrder.held, inOrder.stream⟩, shelved.congr rfl rfl rfl⟩
      · next b used admitted =>
        rw [admitted] at ok
        have shelved₁ : Shelved (loop.st.assoc.lastPeerTsn + 1#32) { loop.st.assoc with
            receivedSinceSack := (loop.st.assoc.receivedSinceSack + data.userData.length)
              % 2 ^ 32 } := shelved.congr rfl rfl rfl
        obtain ⟨shelved₂, only, gone⟩ := admitChunk_shelved admitted shelved₁
        have last : b.lastPeerTsn = loop.st.assoc.lastPeerTsn := by rw [only]
        have streams : b.inStreams = loop.st.assoc.inStreams := by rw [only]
        have inOrder₂ : InOrder before { loop.st with assoc := b } := by
          refine ⟨?_, ?_, ?_⟩
          · rw [only]
            exact inOrder.left
          · rw [only]
            exact inOrder.held
          · rw [only]
            exact inOrder.stream
        rw [← last] at shelved₂ apart
        have valid : decide (data.streamIdentifier.toNat < loop.st.assoc.inStreams.toNat) = true
            ↔ data.streamIdentifier.toNat < b.inStreams.toNat := by
          rw [streams]
          exact decide_eq_true_iff
        have stored := storeChunk_spec inOrder₂ shelved₂ valid some
          (gone (KeyMap.contains_eq_false.mp absent)) apart (by simpa using ok)
        exact ⟨stored.1, stored.2⟩

theorem receiveChunks_tidy {before : Bool} {chunks : List Chunk} {loop : DataLoop}
    (tidy : LoopTidy before loop) (some : ∀ chunk ∈ chunks, ∀ data, chunk.value = .data data →
      data.userData ≠ [])
    (ok : (receiveChunks chunks loop).violation = false) :
      LoopTidy before (receiveChunks chunks loop) := by
  induction chunks generalizing loop with
  | nil => exact tidy
  | cons chunk rest ih =>
    obtain ⟨head, tail⟩ := List.forall_mem_cons.mp some
    unfold receiveChunks at ok ⊢
    split
    · next data value =>
      rw [value] at ok
      simp only at ok ⊢
      split at ok
      · next stopped =>
        rw [stopped] at ok
        cases ok
      · next goes =>
        rw [if_neg goes]
        rw [Bool.not_eq_true] at goes
        exact ih (receiveChunk_tidy tidy (head data value) goes) tail ok
    · next other =>
      split at ok
      · next data value => exact absurd value (other data)
      · exact ih tidy tail ok

/-- The message that goes up as far as it has arrived is open, and has bytes. -/
theorem startPartialDelivery_tidy {before : Bool} {st : Receiving} (used : Nat)
    (inOrder : InOrder before st) (shelved : Shelved (st.assoc.lastPeerTsn + 1#32) st.assoc) :
    InOrder before (st.startPartialDelivery used)
      ∧ Shelved ((st.startPartialDelivery used).assoc.lastPeerTsn + 1#32)
        (st.startPartialDelivery used).assoc := by
  unfold Receiving.startPartialDelivery
  simp only
  split
  · next starts =>
    simp only [Bool.and_eq_true, Bool.not_eq_true', List.isEmpty_eq_false_iff] at starts
    obtain ⟨⟨⟨isOpen, bytes⟩, -⟩, -⟩ := starts
    have started : InOrder before (Receiving.setReassembly
        { st with delivered := st.delivered
          ++ [⟨st.assoc.reassembly.bytes, false, st.assoc.reassembly.stream⟩] }
        { st.assoc.reassembly with bytes := [], partiallyDelivered := true }) := by
      refine ⟨?_, inOrder.held, fun _ _ => inOrder.stream isOpen (Or.inl bytes)⟩
      simp only [Receiving.setReassembly, partialDeliveryOpen]
      rw [leftOpen_concat, isOpen]
      rfl
    have kept : Shelved (st.assoc.lastPeerTsn + 1#32) { st.assoc with
        reassembly := { st.assoc.reassembly with bytes := [], partiallyDelivered := true } } := by
      refine ⟨shelved.blank, shelved.ahead, fun tsn h here assembled continues => ?_⟩
      rcases shelved.runs tsn h here assembled continues with below | ⟨-, empty, -⟩
      · exact Or.inl below
      · exact absurd empty bytes
    split
    · have ordered := Ordered.advanceStream (Receiving.setReassembly
        { st with delivered := st.delivered
          ++ [⟨st.assoc.reassembly.bytes, false, st.assoc.reassembly.stream⟩] }
        { st.assoc.reassembly with bytes := [], partiallyDelivered := true })
          st.assoc.reassembly.stream
      refine ⟨ordered.inOrder started, ?_⟩
      rw [ordered.same]
      exact kept.congr rfl rfl rfl
    · exact ⟨started, kept⟩
  · exact ⟨inOrder, shelved⟩

/-- The DATA of a packet that is no violation: what is held stays tidy, and a message is
part way through if the last piece handed up did not end it. -/
theorem takeData_left (s : Socket) (key : AssociationKey) {a : Association} {chunks : List Chunk}
    (immediately : Bool) (tidy : Tidy a) (up : forming a.state = false)
    (some : ∀ chunk ∈ chunks, ∀ data, chunk.value = .data data → data.userData ≠ [])
    (ok : (takeData chunks (Socket.DataLoop.start s key a immediately)).violation = false) :
    Tidy (takeData chunks (Socket.DataLoop.start s key a immediately)).st.assoc
      ∧ partialDeliveryOpen (takeData chunks (Socket.DataLoop.start s key a immediately)).st.assoc
        = leftOpen (partialDeliveryOpen a)
        (takeData chunks (Socket.DataLoop.start s key a immediately)).st.delivered := by
  have start : LoopTidy (partialDeliveryOpen a) (Socket.DataLoop.start s key a immediately) :=
    ⟨⟨rfl, tidy.held, tidy.stream⟩, tidy.shelved⟩
  have state : (takeData chunks (Socket.DataLoop.start s key a immediately)).st.assoc.state
      = a.state := by
    rw [takeData_only chunks (Socket.DataLoop.start s key a immediately)]
    rfl
  have both : LoopTidy (partialDeliveryOpen a)
      (takeData chunks (Socket.DataLoop.start s key a immediately)) := by
    unfold takeData at ok ⊢
    simp only at ok ⊢
    split
    · next have_ =>
      rw [if_pos have_] at ok
      obtain ⟨inOrder, shelved⟩ := receiveChunks_tidy start some ok
      obtain ⟨inOrder', shelved'⟩ := startPartialDelivery_tidy
        (receiveChunks chunks (Socket.DataLoop.start s key a immediately)).used inOrder shelved
      exact ⟨inOrder', shelved'⟩
    · next none =>
      rw [if_neg none] at ok
      exact receiveChunks_tidy start some ok
  exact ⟨.of_shelved (by rw [state]; exact up) both.shelved both.inOrder, both.inOrder.left⟩

end SctpStack
