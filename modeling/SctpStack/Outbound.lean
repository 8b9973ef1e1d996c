import SctpStack.SendQueue

/-!
# Cutting new DATA

The sender half that no packet from the peer drives: a message queued by the ULP,
and `cut_new_data`, which assigns TSNs as it cuts one packet of chunks from the
head of the queue.
-/

namespace SctpStack

/-! ## Queueing a message -/

inductive SctpStatus where
  | ok
  | notRunning
  | invalidAddress
  | associationExists
  | noAssociation
  | notEstablished
  | shuttingDown
  | emptyMessage
  | invalidStream
  | queueFull
  | unknownDestination
  | unconfirmedDestination
  | timedOut
deriving DecidableEq, Repr

def refusalIn (state : AssociationState) : SctpStatus :=
  if forming state then .notEstablished else .shuttingDown

/-- What `sctp_send_data` finds of an association, in the order it checks. -/
def sendStatus (assoc : Association) (data : Bytes) (stream : StreamId) : SctpStatus :=
  if assoc.state ≠ .established then refusalIn assoc.state
  else if data.isEmpty then .emptyMessage
  else if stream.toNat ≥ assoc.outStreams.toNat then .invalidStream
  else if assoc.outbound ≠ [] ∧ assoc.outboundBytes + data.length > sendBuffer then .queueFull
  else .ok

/-- A message accepted by `sctp_send_data`. An unordered one takes no SSN. -/
def queueMessage (assoc : Association) (data : Bytes) (stream : StreamId) (unordered : Bool) :
    Association :=
  let ssn := if unordered then 0#16 else assoc.nextSsn.getD stream.toNat 0#16
  { assoc with
    nextSsn := if unordered then assoc.nextSsn else assoc.nextSsn.modify stream.toNat (· + 1#16)
    outbound := assoc.outbound ++ [⟨stream, ssn, unordered, data, 0⟩]
    outboundBytes := assoc.outboundBytes + data.length }

/-! ## Cutting a packet -/

/-- `wire_size(payload)`. -/
def fragmentWireSize (payload : Nat) : Nat := dataChunkHeaderSize + pad4 payload

def fullFragment (assoc : Association) : Nat := (assoc.pmdcs - dataChunkHeaderSize) / 4 * 4

/-- How much of the message at the head goes into the next chunk, `packetBytes` being
taken. A message is fragmented only if it cannot fit a packet of its own, and a
fragment is cut short to fit the window only if it would still fill half the largest
window the peer has offered. `none` if nothing is cut. -/
def cutSize (assoc : Association) (allowance : SendAllowance) (packetBytes : Nat) (probe : Bool)
    (message : OutboundMessage) : Option Nat :=
  let take := min (message.bytes.length - message.offset) (fullFragment assoc)
  let space := assoc.pmdcs - packetBytes
  let window := if probe then space else min space (allowance.rwnd - packetBytes)
  if fragmentWireSize take > window then
    let cut := (window - dataChunkHeaderSize) / 4 * 4
    if message.bytes.length ≤ fullFragment assoc ∨ cut = 0 ∨ fragmentWireSize cut
      < assoc.peerMaxRwnd / 2 then none
    else some cut
  else some take

/-- The flags of a chunk of `take` bytes. -/
def cutFlags (message : OutboundMessage) (take : Nat) : BitVec 8 :=
  (if message.offset = 0 then dataFlagB else 0#8)
    ||| (if message.offset + take = message.bytes.length then dataFlagE else 0#8)
    ||| (if message.unordered then dataFlagU else 0#8)

def cutChunk (assoc : Association) (message : OutboundMessage) (take : Nat) : DataChunkValue where
  tsn := assoc.nextTsn
  streamIdentifier := message.stream
  streamSeqNum := message.ssn
  payloadProtocol := 0#32
  userData := (message.bytes.drop message.offset).take take
  flags := cutFlags message take

/-- The association once that chunk is cut; `rest` is the queue behind the message. -/
def afterCut (assoc : Association) (message : OutboundMessage) (rest : List OutboundMessage)
    (take : Nat) :
    Association :=
  { assoc with
    nextTsn := assoc.nextTsn + 1#32
    outboundBytes := assoc.outboundBytes - take
    outbound :=
      if message.offset + take = message.bytes.length then rest
      else { message with offset := message.offset + take } :: rest }

/-- What `cut_new_data` returns: the chunks, the association and whether the window
held back the first chunk. -/
structure Cut where
  chunks : List DataChunkValue
  assoc : Association
  rwndBlocked : Bool

/-- The loop of `cut_new_data`. Every pass takes at least a chunk header of the packet,
so there are no more passes than bytes in a packet. -/
def cutNewDataFrom (allowance : SendAllowance) : Nat → Association → Nat → Bool → Cut
  | 0, assoc, _, _ => ⟨[], assoc, false⟩
  | fuel + 1, assoc, packetBytes, first =>
    match assoc.outbound with
    | [] => ⟨[], assoc, false⟩
    | message :: rest =>
      let probe := allowance.zeroWindowProbe && first
      match cutSize assoc allowance packetBytes probe message with
      | none => ⟨[], assoc, first⟩
      | some take =>
        let chunk := cutChunk assoc message take
        let assoc := afterCut assoc message rest take
        if probe then ⟨[chunk], assoc, false⟩
        else
          let more := cutNewDataFrom allowance fuel assoc (packetBytes + fragmentWireSize take)
            false
          { more with chunks := chunk :: more.chunks }

/-- One packet of new DATA from the head of the outbound queue. -/
def cutNewData (assoc : Association) (allowance : SendAllowance) : Cut :=
  cutNewDataFrom allowance (assoc.pmdcs + 1) assoc 0 true

end SctpStack
