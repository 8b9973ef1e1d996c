import SctpStack.Builders

/-!
# Destinations

The helpers of `socket_internal.hpp`. A reference to one of an association's paths
is its index in `peer_address_list`.
-/

namespace SctpStack

def initialCwnd (pmdcs : Nat) : Nat := min (4 * pmdcs) (max (2 * pmdcs) 4404)

/-- Within one association a destination is its IP address alone. -/
def sameDestination (a b : SockAddr) : Bool := a.addr == b.addr

def pathKey (address : SockAddr) : AssociationKey := ⟨⟨address.addr, 0#16⟩⟩

def peerKey (address : SockAddr) (sctpPort : Port) : AssociationKey := ⟨⟨address.addr, sctpPort⟩⟩

def makePath (address : SockAddr) (confirmed : Bool) (pmdcs : Nat) : PeerPath where
  address := address
  confirmed := confirmed
  active := true
  errorCount := 0
  hbEnabled := true
  hbOutstanding := false
  hbNonce := 0#64
  hbSentAt := 0
  hbNext := 0
  hbPeriodStart := 0
  newDataSentAt := 0
  hasSrtt := false
  srtt := 0
  rttvar := 0
  rto := rtoInitial
  cwnd := initialCwnd pmdcs
  ssthresh := rwnd
  partialBytesAcked := 0
  singlePacketInFlight := false
  dataSentAt := 0
  idleDecaying := false

instance : Inhabited PeerPath := ⟨makePath default false 0⟩

namespace Association

/-- The path at an index. -/
def path (assoc : Association) (i : Nat) : PeerPath := assoc.peerAddressList.getD i default

def modifyPath (assoc : Association) (i : Nat) (f : PeerPath → PeerPath) : Association :=
  { assoc with peerAddressList := assoc.peerAddressList.modify i f }

end Association

def findPath (assoc : Association) (address : SockAddr) : Option Nat :=
  assoc.peerAddressList.findIdx? fun candidate => sameDestination candidate.address address

def primary (assoc : Association) : Nat := (findPath assoc assoc.primaryPath).getD 0

/-- New DATA goes to the primary while it is active, and otherwise to the first
active CONFIRMED path. -/
def dataPath (assoc : Association) : Nat :=
  let preferred := primary assoc
  if (assoc.path preferred).active then preferred
  else (assoc.peerAddressList.findIdx? fun path => path.confirmed && path.active).getD preferred

/-- Timed-out DATA goes to an active CONFIRMED path other than the one it was last
sent to, the next such in list order, if there is one. -/
def retransmissionPath (assoc : Association) (last : SockAddr) : Nat :=
  let preferred := dataPath assoc
  if !sameDestination (assoc.path preferred).address last then preferred
  else
    let count := assoc.peerAddressList.length
    let candidates := (List.range (count - 1)).map fun step => (preferred + (step + 1)) % count
    (candidates.find? fun i => (assoc.path i).confirmed && (assoc.path i).active).getD preferred

def destinationOf (assoc : Association) (outstanding : OutstandingData) : Nat :=
  (findPath assoc outstanding.destination).getD (primary assoc)

/-- A path awaiting confirmation. -/
def PeerPath.probing (path : PeerPath) : Bool := !path.confirmed && path.active && path.hbEnabled

/-- Paths awaiting confirmation are probed every RTO, HB.Max.Burst of them at a
time in list order. -/
def probesForConfirmation (assoc : Association) (i : Nat) : Bool :=
  decide (i < assoc.peerAddressList.length) && (assoc.path i).probing
    && decide ((assoc.peerAddressList.take i).countP PeerPath.probing < hbMaxBurst)

/-- A reply goes back where its packet came from, unless that address is UNCONFIRMED. -/
def replyDestination (assoc : Association) (src : SockAddr) : SockAddr :=
  match findPath assoc src with
  | some i => if (assoc.path i).confirmed then src else (assoc.path (dataPath assoc)).address
  | none => (assoc.path (dataPath assoc)).address

/-- The INIT's source, which the INIT ACK carrying the cookie was sent to. -/
def cookieSource (cookie : StateCookie) : SockAddr := ⟨cookie.peerIpv4, cookie.peerUdpPort⟩

def cookieKey (cookie : StateCookie) : AssociationKey :=
  peerKey (cookieSource cookie) cookie.sctpSrcPort

/-- Whether DATA sent to the path at index `i` is unacknowledged. -/
def hasUnacknowledgedData (assoc : Association) (i : Nat) : Bool :=
  assoc.outstandingData.entries.any fun entry => !entry.2.gapAcked
    && destinationOf assoc entry.2 == i

/-- The bytes of DATA in flight that satisfy `onPath`. -/
def flightOf (assoc : Association) (onPath : OutstandingData → Bool) : Nat :=
  (assoc.outstandingData.entries.map fun entry =>
    if !entry.2.gapAcked && !entry.2.pendingRetransmission && onPath entry.2 then
      dataChunkWireSize entry.2.data
    else 0).sum

/-- `bytes_in_flight(assoc)`. -/
def bytesInFlight (assoc : Association) : Nat := flightOf assoc fun _ => true

/-- `bytes_in_flight(assoc, &path)`. -/
def bytesInFlightOn (assoc : Association) (i : Nat) : Nat :=
  flightOf assoc fun outstanding => destinationOf assoc outstanding == i

def cwndOpen (assoc : Association) (i : Nat) : Bool :=
  let flight := bytesInFlightOn assoc i
  if (assoc.path i).singlePacketInFlight then flight == 0 else decide (flight < (assoc.path i).cwnd)

/-- DATA is sent and SACKs processed in these states... -/
def transmitsData : AssociationState → Bool
  | .established | .shutdownPending | .shutdownReceived => true
  | _ => false

/-- ...and DATA is received in these. -/
def receivesData : AssociationState → Bool
  | .established | .shutdownPending | .shutdownSent => true
  | _ => false

/-- COOKIE-WAIT and COOKIE-ECHOED: the association is not up yet. -/
def forming : AssociationState → Bool
  | .cookieWait | .cookieEchoed => true
  | _ => false

def containsChunk (packet : Packet) (type : ChunkType) : Bool :=
  packet.chunks.any fun chunk => decide (chunk.type = type)

/-- The DATA chunks of a packet, in order. -/
def Packet.dataChunks (packet : Packet) : List DataChunkValue :=
  packet.chunks.filterMap fun chunk =>
    match chunk.value with
    | .data data => some data
    | _ => none

end SctpStack
