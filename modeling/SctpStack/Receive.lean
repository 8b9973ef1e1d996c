import SctpStack.Paths

/-!
# Receiving DATA

The receiver side of `socket_handlers.cpp`: the out-of-order buffer, reassembly in
TSN order, messages assembled ahead of the Cumulative TSN Ack, ordering per stream
and partial delivery. Each function works on the association and on the list of
what the packet being handled has delivered so far.
-/

namespace SctpStack

/-! ## What is held back -/

/-- User data held back from the ULP: for reordering, reassembly, or ordered delivery. -/
def heldBytes (assoc : Association) : Nat :=
  assoc.reassembly.bytes.length
    + (assoc.tsnOooBuffer.entries.map fun entry => entry.2.data.userData.length).sum
    + (assoc.inboundStreams.entries.map fun entry =>
        (entry.2.early.entries.map fun message => message.2.length).sum).sum
    + (assoc.heldDeliveries.map fun delivery => delivery.bytes.length).sum

/-- What the peer believes is left of our window. -/
def peerViewOfWindow (assoc : Association) : Nat := assoc.ourRwnd - assoc.receivedSinceSack

/-- Whether anything held is complete and waiting only on the TSN at the Cumulative
TSN Ack point. -/
def blockedOnCumulativeTsn (assoc : Association) : Bool :=
  (assoc.tsnOooBuffer.entries.any fun entry => entry.2.assembled)
    || assoc.inboundStreams.entries.any fun entry => !entry.2.early.isEmpty

/-- With the receive buffer full, a chunk below the highest TSN held for reordering
takes its place. `none` if nothing can be dropped for it. -/
def makeRoom (assoc : Association) (tsn : Tsn) (used : Nat) : Option (Association × Nat) :=
  match assoc.tsnOooBuffer.entries.reverse.find? fun entry => !entry.2.assembled with
  | none => none
  | some (highest, held) =>
    if tsnGt tsn highest then none
    else some ({ assoc with tsnOooBuffer := assoc.tsnOooBuffer.erase highest },
      used - held.data.userData.length)

def partialDeliveryOpen (assoc : Association) : Bool :=
  assoc.reassembly.isOpen && assoc.reassembly.partiallyDelivered

/-! ## Ordering -/

/-- The association while a packet is handled, and what it has delivered. -/
structure Receiving where
  assoc : Association
  delivered : List Delivery
deriving DecidableEq

/-- `inbound_streams[stream_id]`. -/
def Association.inboundStream (assoc : Association) (streamId : StreamId) : InboundStream :=
  (assoc.inboundStreams.get? streamId).getD ⟨0#16, ∅⟩

namespace Receiving

def setStream (st : Receiving) (streamId : StreamId) (stream : InboundStream) : Receiving :=
  { st with assoc := { st.assoc with inboundStreams := st.assoc.inboundStreams.put streamId stream }
    }

def setReassembly (st : Receiving) (message : Reassembly) : Receiving :=
  { st with assoc := { st.assoc with reassembly := message } }

def handUp (st : Receiving) (delivery : Delivery) : Receiving :=
  if partialDeliveryOpen st.assoc then
    { st with assoc := { st.assoc with heldDeliveries := st.assoc.heldDeliveries ++ [delivery] } }
  else { st with delivered := st.delivered ++ [delivery] }

/-- The loop of `advance_stream`: hands up what waits under the next SSN. Every pass
takes one entry of `early`. -/
def drainEarly (streamId : StreamId) : Nat → Receiving → Receiving
  | 0, st => st
  | fuel + 1, st =>
    let stream := st.assoc.inboundStream streamId
    match stream.early.get? stream.nextSsn with
    | none => st
    | some bytes =>
      drainEarly streamId fuel ((st.handUp ⟨bytes, true, streamId⟩).setStream streamId
        ⟨stream.nextSsn + 1#16, stream.early.erase stream.nextSsn⟩)

def advanceStream (st : Receiving) (streamId : StreamId) : Receiving :=
  let stream := st.assoc.inboundStream streamId
  drainEarly streamId stream.early.entries.length
    (st.setStream streamId { stream with nextSsn := stream.nextSsn + 1#16 })

/-- The keys of `early` are ordered as numbers. -/
def ssnLess (a b : Ssn) : Bool := decide (a.toNat < b.toNat)

/-- False if the SSN was already delivered or is already waiting: the peer reused it. -/
def orderMessage (st : Receiving) (streamId : StreamId) (ssn : Ssn) (unordered : Bool)
    (bytes : Bytes) :
    Bool × Receiving :=
  if unordered then (true, st.handUp ⟨bytes, true, streamId⟩)
  else
    let stream := st.assoc.inboundStream streamId
    if ssn ≠ stream.nextSsn then
      if !ssnGt ssn stream.nextSsn || stream.early.contains ssn then (false, st)
      else (true, st.setStream streamId
        { stream with early := stream.early.emplaceBy ssnLess ssn bytes })
    else (true, (st.handUp ⟨bytes, true, streamId⟩).advanceStream streamId)

/-! ## Reassembly -/

/-- A chunk taken into the open message: what is left of `reassemble` once its
framing is accepted. -/
def takeChunk (st : Receiving) (message : Reassembly) (data : DataChunkValue) (keepBytes : Bool) :
    Bool × Receiving :=
  let message := { message with isOpen := !data.ends }
  if !keepBytes then (true, st.setReassembly message)
  else
    let bytes := message.bytes ++ data.userData
    if message.partiallyDelivered then
      let st := st.setReassembly { message with bytes := [] }
      let st : Receiving := { st with delivered := st.delivered
        ++ [⟨bytes, data.ends, message.stream⟩] }
      if data.ends then
        (true, { assoc := { st.assoc with heldDeliveries := [] },
                 delivered := st.delivered ++ st.assoc.heldDeliveries })
      else (true, st)
    else if !data.ends then (true, st.setReassembly { message with bytes := bytes })
    else
      (st.setReassembly { message with bytes := [] }).orderMessage message.stream message.ssn
        message.unordered bytes

/-- Takes the next chunk in TSN order. False if it can neither begin a message nor
continue the open one. Without `keepBytes` only the framing is checked. -/
def reassemble (st : Receiving) (data : DataChunkValue) (keepBytes : Bool) : Bool × Receiving :=
  let message := st.assoc.reassembly
  if data.begins = message.isOpen then (false, st)
  else if data.begins then
    st.takeChunk ⟨true, false, data.unordered, data.streamIdentifier, data.streamSeqNum, []⟩
      data keepBytes
  else if data.streamIdentifier ≠ message.stream ∨ data.unordered ≠ message.unordered
      ∨ (data.unordered = false ∧ data.streamSeqNum ≠ message.ssn) then (false, st)
  else st.takeChunk message data keepBytes

/-- The loop of `read_ooo_buffer` from `tsn` on. Every pass takes one entry of the buffer. -/
def readOooFrom : Nat → Tsn → Receiving → Bool × Receiving
  | 0, tsn, st => (true, { st with assoc := { st.assoc with lastPeerTsn := tsn - 1#32 } })
  | fuel + 1, tsn, st =>
    match st.assoc.tsnOooBuffer.get? tsn with
    | none => (true, { st with assoc := { st.assoc with lastPeerTsn := tsn - 1#32 } })
    | some held =>
      let (ok, st) := st.reassemble held.data (!held.assembled && !held.data.userData.isEmpty)
      if !ok then (false, st)
      else
        readOooFrom fuel (tsn + 1#32)
          { st with assoc := { st.assoc with tsnOooBuffer := st.assoc.tsnOooBuffer.erase tsn } }

def readOooBuffer (st : Receiving) : Bool × Receiving :=
  readOooFrom st.assoc.tsnOooBuffer.entries.length (st.assoc.lastPeerTsn + 1#32) st

/-! ## Assembly ahead of the cumulative point -/

/-- The chunk at a TSN of the buffer, unless it was assembled or carries nothing. -/
def usable (assoc : Association) (tsn : Tsn) : Option DataChunkValue :=
  match assoc.tsnOooBuffer.get? tsn with
  | none => none
  | some held => if held.assembled || held.data.userData.isEmpty then none else some held.data

/-- A fragment of the same message as `arrived`. -/
def sameMessage (arrived chunk : DataChunkValue) : Bool :=
  chunk.streamIdentifier == arrived.streamIdentifier && chunk.unordered == arrived.unordered
    && (arrived.unordered || chunk.streamSeqNum == arrived.streamSeqNum)

/-- Walks down from the chunk at `tsn` to the one with the B bit. Every pass finds
one more chunk in the buffer. -/
def firstFragment (assoc : Association) (arrived : DataChunkValue) :
    Nat → Tsn → DataChunkValue → Option Tsn
  | 0, _, _ => none
  | fuel + 1, tsn, chunk =>
    if chunk.begins then some tsn
    else
      match usable assoc (tsn - 1#32) with
      | none => none
      | some previous =>
        if !previous.ends && sameMessage arrived previous then
          firstFragment assoc arrived fuel (tsn - 1#32) previous
        else none

/-- Walks up from the chunk at `tsn` to the one with the E bit. -/
def lastFragment (assoc : Association) (arrived : DataChunkValue) :
    Nat → Tsn → DataChunkValue → Option Tsn
  | 0, _, _ => none
  | fuel + 1, tsn, chunk =>
    if chunk.ends then some tsn
    else
      match usable assoc (tsn + 1#32) with
      | none => none
      | some following =>
        if !following.begins && sameMessage arrived following then
          lastFragment assoc arrived fuel (tsn + 1#32) following
        else none

/-- The bytes of the `count` chunks from `first` on. -/
def fragmentBytes (assoc : Association) (first : Tsn) (count : Nat) : Bytes :=
  (List.range count).flatMap fun i =>
    match assoc.tsnOooBuffer.get? (first + BitVec.ofNat 32 i) with
    | none => []
    | some held => held.data.userData

/-- Those chunks emptied and marked as assembled. -/
def markAssembled (assoc : Association) (first : Tsn) (count : Nat) : Association :=
  { assoc with
    tsnOooBuffer := assoc.tsnOooBuffer.mapVals fun tsn held =>
      if (tsn - first).toNat < count then ⟨{ held.data with userData := [] }, true⟩ else held }

/-- A message lying wholly above the Cumulative TSN Ack is taken out as soon as its
last fragment arrives, so a gap holds back only its own stream. -/
def assembleEarly (st : Receiving) (tsn : Tsn) : Bool × Receiving :=
  match usable st.assoc tsn with
  | none => (true, st)
  | some arrived =>
    let fuel := st.assoc.tsnOooBuffer.entries.length
    match firstFragment st.assoc arrived fuel tsn arrived,
      lastFragment st.assoc arrived fuel tsn arrived with
    | some first, some last =>
      let count := (last - first).toNat + 1
      let bytes := fragmentBytes st.assoc first count
      ({ st with assoc := markAssembled st.assoc first count }).orderMessage
        arrived.streamIdentifier arrived.streamSeqNum arrived.unordered bytes
    | _, _ => (true, st)

/-- Once the window cannot take another full-size chunk, the message next in its
stream goes up as far as it has arrived. -/
def startPartialDelivery (st : Receiving) (used : Nat) : Receiving :=
  let message := st.assoc.reassembly
  if message.isOpen && !message.bytes.isEmpty && decide (used + st.assoc.pmdcs > rwnd)
      && (message.unordered || message.ssn == (st.assoc.inboundStream message.stream).nextSsn) then
    let st : Receiving := { st with delivered := st.delivered
      ++ [⟨message.bytes, false, message.stream⟩] }
    let st := st.setReassembly { message with bytes := [], partiallyDelivered := true }
    if !message.unordered then st.advanceStream message.stream else st
  else st

end Receiving

/-! ## The DATA chunks of a packet -/

/-- The locals of `handle_data_packet` while it goes through the chunks. -/
structure DataLoop where
  st : Receiving
  used : Nat
  haveData : Bool
  sendImmediately : Bool
  sawDuplicate : Bool
  dropped : Bool
  violation : Bool
  invalidStreams : List ErrorCause
deriving DecidableEq

/-- Whether a chunk is taken with the buffer as full as it is, and what was dropped
for it. Without room only the next TSN is, and only if something waits on it. -/
def admitChunk (assoc : Association) (tsn : Tsn) (used : Nat) : Option (Association × Nat) :=
  if used < rwnd then some (assoc, used)
  else
    match makeRoom assoc tsn used with
    | some room => some room
    | none =>
      if tsn = assoc.lastPeerTsn + 1#32 ∧ blockedOnCumulativeTsn assoc = true
        then some (assoc, used)
      else none

/-- A chunk past the admission test: consumed if it is the next in TSN order, else
held. False on a protocol violation. -/
def storeChunk (st : Receiving) (data : DataChunkValue) (validStream : Bool) : Bool × Receiving :=
  if data.tsn = st.assoc.lastPeerTsn + 1#32 then
    let (ok, st) := ({ st with assoc := { st.assoc with lastPeerTsn := data.tsn } }).reassemble
      data validStream
    if !ok then (false, st) else st.readOooBuffer
  else
    let held : HeldChunk := ⟨if validStream then data else { data with userData := [] }, false⟩
    let st : Receiving := { st with assoc :=
      { st.assoc with tsnOooBuffer := st.assoc.tsnOooBuffer.emplaceBy tsnLt data.tsn held } }
    if !validStream then (true, st) else st.assembleEarly data.tsn

/-- One pass of the loop over the chunks of a packet. -/
def receiveChunk (loop : DataLoop) (flag : BitVec 8) (data : DataChunkValue) : DataLoop :=
  let assoc := { loop.st.assoc with
    receivedSinceSack := (loop.st.assoc.receivedSinceSack + data.userData.length) % 2 ^ 32 }
  let loop := { loop with
    st := { loop.st with assoc := assoc }
    haveData := true
    sendImmediately := loop.sendImmediately || flag &&& dataImmediateSackFlag != 0#8 }
  -- An invalid stream is still acked, but reported and never delivered.
  let validStream := decide (data.streamIdentifier.toNat < assoc.inStreams.toNat)
  if tsnLte data.tsn assoc.lastPeerTsn || assoc.tsnOooBuffer.contains data.tsn then
    { loop with
      st := { loop.st with assoc := { assoc with duplicateTsns := assoc.duplicateTsns
        ++ [data.tsn] } }
      sawDuplicate := true }
  -- Past what a Gap Ack Block can report, and past any window we can offer.
  else if (data.tsn - assoc.lastPeerTsn).toNat > 65535 then { loop with dropped := true }
  else
    match admitChunk assoc data.tsn loop.used with
    | none => { loop with dropped := true }
    | some (assoc, used) =>
      let (ok, st) := storeChunk { loop.st with assoc := assoc } data validStream
      { loop with
        st := st
        used := if validStream then used + data.userData.length else used
        invalidStreams :=
          if validStream then loop.invalidStreams
          else loop.invalidStreams ++ [invalidStreamCause data.streamIdentifier]
        violation := !ok }

/-- The loop, left at the first violation. -/
def receiveChunks : List Chunk → DataLoop → DataLoop
  | [], loop => loop
  | chunk :: rest, loop =>
    match chunk.value with
    | .data data =>
      let loop := receiveChunk loop chunk.flag data
      if loop.violation then loop else receiveChunks rest loop
    | _ => receiveChunks rest loop

/-- What the DATA chunks of a packet do to the association, and what they deliver. -/
def takeData (chunks : List Chunk) (start : DataLoop) : DataLoop :=
  let loop := receiveChunks chunks start
  if loop.haveData then { loop with st := loop.st.startPartialDelivery loop.used } else loop

end SctpStack
