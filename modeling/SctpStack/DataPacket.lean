import SctpStack.Timers
import SctpStack.Receive

/-!
# DATA packets and SACKs

`handle_data_packet`, the SACKs it causes, and the window they advertise.
-/

namespace SctpStack

/-- The Gap Ack Blocks for offsets in iteration order; `blocks` is in reverse. -/
def gapAckBlocks (blocks : List SackGapAckBlock) : List (BitVec 16) → List SackGapAckBlock
  | [] => blocks.reverse
  | offset :: rest =>
    match blocks with
    | [] => gapAckBlocks [⟨offset, offset⟩] rest
    | last :: before =>
      if last.stop.toNat + 1 ≠ offset.toNat then gapAckBlocks (⟨offset, offset⟩ :: last :: before)
        rest
      else gapAckBlocks ({ last with stop := offset } :: before) rest

namespace Socket

/-- Receive buffer space not yet taken, in bytes of user data. -/
def receiveWindow (s : Socket) (key : AssociationKey) (assoc : Association) : Nat :=
  rwnd - (s.receives.bufferedBytes key + heldBytes assoc)

/-- An opening too small to be worth a packet is held back until it grows. A
shrinking window is always advertised as it is. -/
def advertisedWindow (s : Socket) (key : AssociationKey) (assoc : Association) : Nat :=
  let window := s.receiveWindow key assoc
  let believed := peerViewOfWindow assoc
  if window > believed ∧ window - believed < min (rwnd / 2) assoc.pmdcs then believed else window

def makeSack (s : Socket) (key : AssociationKey) (assoc : Association) : Packet × Association :=
  let gaps := gapAckBlocks [] (assoc.tsnOooBuffer.keys.map fun tsn =>
    (tsn - assoc.lastPeerTsn).setWidth 16)
  let window := s.advertisedWindow key assoc
  (buildSack s.localAddress.port key.address.port assoc.peerVerTag assoc.lastPeerTsn window gaps
      assoc.duplicateTsns,
    { assoc with
      ourRwnd := window
      receivedSinceSack := 0
      duplicateTsns := []
      delayedSackPacketCount := 0 })

def sendSack (s : Socket) (key : AssociationKey) : Socket :=
  match s.find? key with
  | none => s
  | some assoc =>
    if !receivesData assoc.state then s
    else
      let (sack, updated) := s.makeSack key assoc
      ((s.setAssociation key updated).cancelExpiration (timerOf key .delayedSack)).enqueuePacket
        ⟨key, (updated.path (dataPath updated)).address, sack⟩ .control

def maybeSendWindowUpdate (s : Socket) (key : AssociationKey) : Socket :=
  match s.find? key with
  | none => s
  | some assoc =>
    if !receivesData assoc.state then s
    else if s.receiveWindow key assoc < peerViewOfWindow assoc + rwnd / 4 then s
    else s.sendSack key

/-! ## Receiving a packet -/

/-- What `handle_data_packet` goes on to do once it has released the lock. -/
inductive DataReply where
  | shutdown (packet : Packet)
  | sack
  | delayedSack
deriving DecidableEq

/-- The locals of `handle_data_packet` before the first chunk. -/
def DataLoop.start (s : Socket) (key : AssociationKey) (assoc : Association)
    (acknowledgeImmediately : Bool) :
    DataLoop where
  st := ⟨assoc, []⟩
  used := s.receives.bufferedBytes key + heldBytes assoc
  haveData := false
  sendImmediately := acknowledgeImmediately
  sawDuplicate := false
  dropped := false
  violation := false
  invalidStreams := []

/-- What is decided under the lock after the chunks were taken in: the TCB and the
reply. In SHUTDOWN-SENT every DATA packet is answered with a SHUTDOWN, and with a
SACK as well whenever the SHUTDOWN alone would not say it all. -/
def acknowledgeData (s : Socket) (key : AssociationKey) (assoc : Association) (holeExisted : Bool)
    (loop : DataLoop) : Association × DataReply :=
  if assoc.state = .shutdownSent then
    let shutdown := buildShutdown s.localAddress.port key.address.port assoc.peerVerTag
      assoc.lastPeerTsn
    if !assoc.tsnOooBuffer.isEmpty || !assoc.duplicateTsns.isEmpty || loop.dropped then
      let (sack, assoc) := s.makeSack key assoc
      (assoc, .shutdown { shutdown with chunks := shutdown.chunks ++ sack.chunks.take 1 })
    else (assoc, .shutdown shutdown)
  else if loop.sendImmediately || loop.sawDuplicate || loop.dropped || holeExisted
      || !assoc.tsnOooBuffer.isEmpty then (assoc, .sack)
  else
    let assoc := { assoc with delayedSackPacketCount := assoc.delayedSackPacketCount + 1 }
    if assoc.delayedSackPacketCount ≥ 2 then (assoc, .sack) else (assoc, .delayedSack)

def pushDeliveries (s : Socket) (key : AssociationKey) (delivered : List Delivery) : Socket :=
  { s with
    receives := delivered.foldl (fun q d => q.push key d.bytes d.complete d.stream) s.receives }

def sendDataReply (s : Socket) (now : Time) (key : AssociationKey) (destination : SockAddr) :
    DataReply → Socket
  | .shutdown packet =>
    ((s.cancelExpiration (timerOf key .delayedSack)).enqueuePacket ⟨key, destination, packet⟩
      .control).restartT2 now key
  | .sack => s.sendSack key
  | .delayedSack => s.scheduleExpiration (timerOf key .delayedSack) (now + msec sackDelay)
      (noRetry key)

/-- A DATA chunk carrying no user data. -/
def emptyDataChunk (packet : Packet) : Option DataChunkValue :=
  packet.dataChunks.find? fun data => data.userData.isEmpty

/-- The chunks of a packet for an association that receives data. -/
def receiveData (s : Socket) (now : Time) (packet : Packet) (key : AssociationKey) (src : SockAddr)
    (acknowledgeImmediately : Bool) (assoc : Association) : Socket :=
  let loop := takeData packet.chunks (DataLoop.start s key assoc acknowledgeImmediately)
  if !loop.haveData then s
  else
    let (updated, reply) := s.acknowledgeData key loop.st.assoc (!assoc.tsnOooBuffer.isEmpty) loop
    let s := s.setAssociation key updated
    if loop.violation then
      s.abortAssociation key packet.header src [⟨causeProtocolViolation, []⟩]
    else
      let s := s.pushDeliveries key loop.st.delivered
      let s :=
        if loop.invalidStreams.isEmpty then s
        else s.sendError packet.header key (replyDestination assoc src) assoc.peerVerTag
          loop.invalidStreams
      s.sendDataReply now key (assoc.path (dataPath assoc)).address reply

def handleDataPacket (s : Socket) (now : Time) (packet : Packet) (key : AssociationKey)
    (src : SockAddr) (acknowledgeImmediately : Bool) : Socket :=
  match emptyDataChunk packet with
  | some data => s.abortAssociation key packet.header src [⟨causeNoUserData, be32Bytes data.tsn⟩]
  | none =>
    match s.find? key with
    | none => s
    | some assoc =>
      if !receivesData assoc.state then s
      else s.receiveData now packet key src acknowledgeImmediately assoc

end Socket

end SctpStack
