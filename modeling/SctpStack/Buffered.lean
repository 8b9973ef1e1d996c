import SctpStack.Delivery

/-!
# What the receiver holds

The bytes of a chunk move from the out-of-order buffer through reassembly and the
streams to what is delivered, and each operation of the receiving side says here that
it makes none: whatever it holds and delivers afterwards it held, or the chunk brought
it (`storeChunk_gains`).
-/

namespace SctpStack

/-- The bytes of a list of deliveries. -/
def deliveredBytes (delivered : List Delivery) : Nat :=
  (delivered.map fun delivery => delivery.bytes.length).sum

@[simp] theorem deliveredBytes_append (a b : List Delivery) :
    deliveredBytes (a ++ b) = deliveredBytes a + deliveredBytes b := by
  simp [deliveredBytes]

@[simp] theorem deliveredBytes_singleton (d : Delivery) : deliveredBytes [d] = d.bytes.length := by
  simp [deliveredBytes]

@[simp] theorem deliveredBytes_nil : deliveredBytes [] = 0 := rfl

/-- The bytes waiting for their turn in a stream. -/
def InboundStream.bytes (stream : InboundStream) : Nat := stream.early.weight List.length

/-- The bytes of the out-of-order buffer. -/
def bufferBytes (buffer : KeyMap Tsn HeldChunk) : Nat :=
  buffer.weight fun held => held.data.userData.length

theorem heldBytes_eq (a : Association) :
    heldBytes a = a.reassembly.bytes.length + bufferBytes a.tsnOooBuffer + a.inboundStreams.weight
      InboundStream.bytes + deliveredBytes a.heldDeliveries := rfl

/-- What is held, and what the packet being handled has delivered. -/
def Receiving.bytes (st : Receiving) : Nat := heldBytes st.assoc + deliveredBytes st.delivered

/-! ## Ordering -/

/-- Above the buffer: only the order of messages changed, and no more than `extra`
bytes came in. -/
structure Gains (extra : Nat) (st st' : Receiving) : Prop where
  same : st'.assoc = { st.assoc with
    reassembly := st'.assoc.reassembly
    inboundStreams := st'.assoc.inboundStreams
    heldDeliveries := st'.assoc.heldDeliveries }
  bytes : st'.bytes ≤ st.bytes + extra

namespace Gains

variable {m n : Nat} {st st' st'' : Receiving}

theorem refl (st : Receiving) : Gains 0 st st := ⟨rfl, Nat.le_refl _⟩

theorem trans (first : Gains m st st') (second : Gains n st' st'') : Gains (m + n) st st'' where
  same := by
    rw [second.same, first.same]
  bytes := by
    have one := first.bytes
    have two := second.bytes
    omega

theorem mono (gains : Gains m st st') (le : m ≤ n) : Gains n st st' :=
  ⟨gains.same, Nat.le_trans gains.bytes (Nat.add_le_add_left le _)⟩

theorem buffer (gains : Gains m st st') : st'.assoc.tsnOooBuffer = st.assoc.tsnOooBuffer := by
  rw [gains.same]

theorem only (gains : Gains m st st') : ReceiveOnly st.assoc st'.assoc := by
  unfold ReceiveOnly
  rw [gains.same]

end Gains

namespace Receiving

theorem handUp_gains (st : Receiving) (d : Delivery) : Gains d.bytes.length st (st.handUp d) := by
  unfold handUp
  split
  · refine ⟨rfl, ?_⟩
    simp only [bytes, heldBytes_eq, deliveredBytes_append, deliveredBytes_singleton]
    omega
  · refine ⟨rfl, ?_⟩
    simp only [bytes, deliveredBytes_append, deliveredBytes_singleton]
    omega

/-- A stream replaced: its bytes go, the new ones come. -/
theorem bytes_setStream (st : Receiving) (id : StreamId) (stream : InboundStream) :
    (st.setStream id stream).bytes + (st.assoc.inboundStream id).bytes
      = st.bytes + stream.bytes := by
  have old := KeyMap.weight_erase InboundStream.bytes st.assoc.inboundStreams id
  have new := KeyMap.weight_put InboundStream.bytes st.assoc.inboundStreams id stream
  have here : (st.assoc.inboundStreams.get? id).elim 0 InboundStream.bytes
      = (st.assoc.inboundStream id).bytes := by
    unfold Association.inboundStream
    cases st.assoc.inboundStreams.get? id <;> rfl
  simp only [bytes, heldBytes_eq, setStream]
  omega

theorem setStream_gains {st : Receiving} {id : StreamId} {stream : InboundStream} {extra : Nat}
    (few : stream.bytes ≤ (st.assoc.inboundStream id).bytes + extra) :
    Gains extra st (st.setStream id stream) := by
  refine ⟨rfl, ?_⟩
  have moved := bytes_setStream st id stream
  omega

theorem inboundStream_handUp (st : Receiving) (d : Delivery) (id : StreamId) :
    (st.handUp d).assoc.inboundStream id = st.assoc.inboundStream id := by
  unfold handUp
  split <;> rfl

theorem drainEarly_gains (id : StreamId) (fuel : Nat) (st : Receiving) :
    Gains 0 st (drainEarly id fuel st) := by
  induction fuel generalizing st with
  | zero => exact .refl st
  | succ fuel ih =>
    unfold drainEarly
    cases found : (st.assoc.inboundStream id).early.get? (st.assoc.inboundStream id).nextSsn with
    | none => simpa [found] using .refl st
    | some waiting =>
      simp only [found]
      refine Gains.trans (m := 0) ?_ (ih _)
      -- What goes up leaves the stream.
      have split := KeyMap.weight_erase List.length (st.assoc.inboundStream id).early
        (st.assoc.inboundStream id).nextSsn
      rw [found] at split
      have up := handUp_gains st ⟨waiting, true, id⟩
      refine ⟨by simp only [setStream]; rw [up.same], ?_⟩
      have moved := bytes_setStream (st.handUp ⟨waiting, true, id⟩)
        id ⟨(st.assoc.inboundStream id).nextSsn + 1#16,
        (st.assoc.inboundStream id).early.erase (st.assoc.inboundStream id).nextSsn⟩
      rw [inboundStream_handUp] at moved
      have more := up.bytes
      simp only [InboundStream.bytes, Option.elim_some] at moved split more
      omega

theorem advanceStream_gains (st : Receiving) (id : StreamId) :
    Gains 0 st (st.advanceStream id) := by
  have counted : Gains 0 st (st.setStream id
      { st.assoc.inboundStream id with nextSsn := (st.assoc.inboundStream id).nextSsn + 1#16 }) :=
    setStream_gains (Nat.le_refl _)
  exact counted.trans (drainEarly_gains id _ _)

theorem orderMessage_gains (st : Receiving) (id : StreamId) (ssn : Ssn) (unordered : Bool)
    (message : Bytes) :
    Gains message.length st (st.orderMessage id ssn unordered message).2 := by
  unfold orderMessage
  split
  · exact handUp_gains st ⟨message, true, id⟩
  · simp only
    split
    · split
      · exact (Gains.refl st).mono (Nat.zero_le _)
      · exact setStream_gains (KeyMap.weight_emplaceBy_le _ _ _ _ _)
    · exact (handUp_gains st ⟨message, true, id⟩).trans (advanceStream_gains _ id)

/-! ## Reassembly -/

theorem bytes_setReassembly (st : Receiving) (message : Reassembly) :
    (st.setReassembly message).bytes + st.assoc.reassembly.bytes.length
      = st.bytes + message.bytes.length := by
  simp only [bytes, heldBytes_eq, setReassembly]
  omega

/-- A chunk joins the open message, whose bytes are among those held. -/
theorem takeChunk_gains {st : Receiving} {message : Reassembly} {data : DataChunkValue}
    {keepBytes : Bool} (few : message.bytes.length ≤ st.assoc.reassembly.bytes.length) :
    Gains (if keepBytes then data.userData.length else 0) st
      (st.takeChunk message data keepBytes).2 := by
  unfold takeChunk
  simp only
  cases keepBytes with
  | false =>
    refine ⟨rfl, ?_⟩
    have moved := bytes_setReassembly st { message with isOpen := !data.ends }
    simp only [Bool.not_false, if_true, Bool.false_eq_true, if_false] at moved ⊢
    omega
  | true =>
    simp only [Bool.not_true, Bool.false_eq_true, if_false, if_true]
    split
    · have emptied := bytes_setReassembly st { message with isOpen := !data.ends, bytes := [] }
      split
      · refine ⟨rfl, ?_⟩
        simp only [bytes, heldBytes_eq, setReassembly, deliveredBytes_append,
          deliveredBytes_singleton, deliveredBytes_nil, List.length_append, List.length_nil]
            at emptied ⊢
        omega
      · refine ⟨rfl, ?_⟩
        simp only [bytes, heldBytes_eq, setReassembly, deliveredBytes_append,
          deliveredBytes_singleton, List.length_append, List.length_nil] at emptied ⊢
        omega
    · split
      · refine ⟨rfl, ?_⟩
        have moved := bytes_setReassembly st
          { message with isOpen := !data.ends, bytes := message.bytes ++ data.userData }
        simp only [List.length_append] at moved ⊢
        omega
      · have emptied := bytes_setReassembly st { message with isOpen := !data.ends, bytes := [] }
        have ordered := orderMessage_gains
            (st.setReassembly { message with isOpen := !data.ends, bytes := [] })
          message.stream message.ssn message.unordered (message.bytes ++ data.userData)
        refine ⟨?_, ?_⟩
        · rw [ordered.same]
          rfl
        · have more := ordered.bytes
          simp only [List.length_append, List.length_nil] at more emptied
          omega

theorem reassemble_gains (st : Receiving) (data : DataChunkValue) (keepBytes : Bool) :
    Gains (if keepBytes then data.userData.length else 0) st (st.reassemble data keepBytes).2 := by
  have none : ∀ n, Gains n st st := fun n => (Gains.refl st).mono (Nat.zero_le n)
  unfold reassemble
  simp only
  by_cases misframed : data.begins = st.assoc.reassembly.isOpen
  · rw [if_pos misframed]
    exact none _
  · rw [if_neg misframed]
    cases data.begins with
    | true => exact takeChunk_gains (Nat.zero_le _)
    | false =>
      simp only [Bool.false_eq_true, if_false]
      by_cases other : data.streamIdentifier ≠ st.assoc.reassembly.stream
          ∨ data.unordered ≠ st.assoc.reassembly.unordered
          ∨ (data.unordered = false ∧ data.streamSeqNum ≠ st.assoc.reassembly.ssn)
      · rw [if_pos other]
        exact none _
      · rw [if_neg other]
        exact takeChunk_gains (Nat.le_refl _)

/-! ## Assembly ahead of the cumulative point -/

theorem assembleEarly_only (st : Receiving) (tsn : Tsn) :
    ReceiveOnly st.assoc (st.assembleEarly tsn).2.assoc := by
  unfold assembleEarly
  split
  · exact .refl _
  · next arrived _ =>
    simp only
    split
    · refine ReceiveOnly.trans ?_ (orderMessage_gains _ _ _ _ _).only
      rfl
    · exact .refl _

theorem startPartialDelivery_gains (st : Receiving) (used : Nat) :
    Gains 0 st (st.startPartialDelivery used) := by
  unfold startPartialDelivery
  simp only
  split
  · have up : Gains 0 st (({ st with delivered := st.delivered
        ++ [⟨st.assoc.reassembly.bytes, false, st.assoc.reassembly.stream⟩] } :
          Receiving).setReassembly
        { st.assoc.reassembly with bytes := [], partiallyDelivered := true }) := by
      refine ⟨rfl, ?_⟩
      simp only [bytes, heldBytes_eq, setReassembly, deliveredBytes_append,
        deliveredBytes_singleton, List.length_nil]
      omega
    split
    · exact up.trans (advanceStream_gains _ _)
    · exact up
  · exact .refl st

end Receiving

/-! ## One chunk -/

theorem readOooFrom_only (fuel : Nat) (tsn : Tsn) (st : Receiving) :
    ReceiveOnly st.assoc (Receiving.readOooFrom fuel tsn st).2.assoc := by
  induction fuel generalizing tsn st with
  | zero => rfl
  | succ fuel ih =>
    unfold Receiving.readOooFrom
    split
    · rfl
    · next held _ =>
      have taken := (st.reassemble_gains held.data (!held.assembled
        && !held.data.userData.isEmpty)).only
      simp only
      split
      · exact taken
      · refine taken.trans (ReceiveOnly.trans ?_ (ih _ _))
        rfl

theorem storeChunk_only (st : Receiving) (data : DataChunkValue) (validStream : Bool) :
    ReceiveOnly st.assoc (storeChunk st data validStream).2.assoc := by
  unfold storeChunk
  split
  · have taken := (Receiving.reassemble_gains
      { st with assoc := { st.assoc with lastPeerTsn := data.tsn } } data validStream).only
    have first : ReceiveOnly st.assoc { st.assoc with lastPeerTsn := data.tsn } := rfl
    simp only
    split
    · exact first.trans taken
    · exact first.trans (taken.trans (readOooFrom_only _ _ _))
  · simp only
    split
    · rfl
    · refine ReceiveOnly.trans ?_ (Receiving.assembleEarly_only _ _)
      rfl

/-! ## A packet -/

theorem admitChunk_only {assoc after : Association} {tsn : Tsn} {used left : Nat}
    (admitted : admitChunk assoc tsn used = some (after, left)) : ReceiveOnly assoc after := by
  rcases admitChunk_spec admitted with ⟨rfl, -⟩ | ⟨highest, held, -, -, rfl, -⟩
  · rfl
  · rfl

theorem receiveChunk_only (loop : DataLoop) (flag : BitVec 8) (data : DataChunkValue) :
    ReceiveOnly loop.st.assoc (receiveChunk loop flag data).st.assoc := by
  unfold receiveChunk
  simp only
  split
  · rfl
  · split
    · rfl
    · split
      · rfl
      · next after left admitted =>
        exact (admitChunk_only admitted).trans (storeChunk_only _ data _)

theorem receiveChunks_only (chunks : List Chunk) (loop : DataLoop) :
    ReceiveOnly loop.st.assoc (receiveChunks chunks loop).st.assoc := by
  induction chunks generalizing loop with
  | nil => rfl
  | cons chunk rest ih =>
    unfold receiveChunks
    split
    · next data _ =>
      simp only
      split
      · exact receiveChunk_only loop chunk.flag data
      · exact (receiveChunk_only loop chunk.flag data).trans (ih _)
    · exact ih loop

theorem takeData_only (chunks : List Chunk) (start : DataLoop) :
    ReceiveOnly start.st.assoc (takeData chunks start).st.assoc := by
  unfold takeData
  simp only
  split
  · exact (receiveChunks_only chunks start).trans (Receiving.startPartialDelivery_gains _ _).only
  · exact receiveChunks_only chunks start

end SctpStack
