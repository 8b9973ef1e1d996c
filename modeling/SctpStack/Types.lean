import SctpStack.Lib.KeyMap

/-!
# Data model

The protocol types of `sctp.hpp`, the per-association state of `association.hpp`
and the timer keys of `expiration_queue.hpp`.

* Machine words are bit vectors where the source compares or wraps them (TSNs,
  SSNs, tags, flags); byte counts and retry counters are naturals.
* Addresses are kept in host order: the byte swaps of `sockaddr_in` are left out.
* A chunk and its type are one value (`ChunkValue`), so a chunk always carries the
  alternative of its type.
* Time points are nanoseconds of the steady clock, durations microseconds.
-/

namespace SctpStack

abbrev Byte := BitVec 8
abbrev Bytes := List Byte
abbrev Tsn := BitVec 32
abbrev Tag := BitVec 32
abbrev Ssn := BitVec 16
abbrev StreamId := BitVec 16
abbrev Port := BitVec 16

/-- Whether a TSN, a tag or an address is in a list. -/
instance decidableMemWord (word : BitVec 32) (words : List (BitVec 32)) :
    Decidable (word ∈ words) := inferInstance

/-- A `steady_clock` time point, in nanoseconds. -/
abbrev Time := Int

/-- A duration in microseconds. -/
abbrev Micros := Int

/-- Microseconds as a distance between time points. -/
def usec (d : Micros) : Time := d * 1000

/-- Milliseconds as a distance between time points. -/
def msec (d : Int) : Time := d * 1000000

/-! ## Constants -/

def sctpCommonHeaderSize : Nat := 12
def sctpChunkHeaderSize : Nat := 4
def dataChunkHeaderSize : Nat := 16
def sctpChecksumOffset : Nat := 8

/-- The receive buffer of an association, in bytes of user data. -/
def rwnd : Nat := 65535

def rtoInitial : Micros := 1000000
def rtoMin : Micros := 1000000
def rtoMax : Micros := 60000000
def maxBurst : Nat := 4
/-- `VALID_COOKIE_LIFE`. -/
def validCookieLife : Micros := 60000000
def associationMaxRetrans : Nat := 10
def pathMaxRetrans : Nat := 5
def maxInitRetransmits : Nat := 8
/-- `HB_INTERVAL`, in milliseconds. -/
def hbIntervalDefault : Int := 30000
def hbMaxBurst : Nat := 1
/-- `SACK_DELAY`, in milliseconds. -/
def sackDelay : Int := 200

def chunkFlagTBit : BitVec 8 := 0x01#8
def dataFlagE : BitVec 8 := 0x01#8
def dataFlagB : BitVec 8 := 0x02#8
def dataFlagU : BitVec 8 := 0x04#8
def dataImmediateSackFlag : BitVec 8 := 0x08#8

def clockGranularity : Micros := 1000
/-- `T5_SHUTDOWN_GUARD`, five times RTO.Max. -/
def t5ShutdownGuard : Micros := 5 * rtoMax
/-- `SEND_RETRY_DELAY`, in milliseconds. -/
def sendRetryDelay : Int := 10
def defaultPmdcs : Nat := 1200
def slowStartIncreasePmdcs : Nat := 1
def ackedRetransmissionMemory : Nat := 64
def maxReceiveBatch : Nat := 64
def maxUdpDatagram : Nat := 65535
def maxSendBatch : Nat := 64
def sendBuffer : Nat := 256 * 1024
/-- `COOKIE_SECRET_ROTATION`. -/
def cookieSecretRotation : Micros := 3600000000
/-- `MAX_COOKIE_LIFE`. -/
def maxCookieLife : Micros := 120000000
def maxStaleCookieRetries : Nat := 2
def localOutStreams : BitVec 16 := 10#16
def localMaxInStreams : BitVec 16 := 65535#16
def maxQueuedControl : Nat := 256
def maxQueuedNotifications : Nat := 1024
def stateCookieBodySize : Nat := 64
def stateCookieMacSize : Nat := 32
def stateCookieSize : Nat := stateCookieBodySize + stateCookieMacSize
def stateCookieVersion : Byte := 1#8
def cookieSecretSize : Nat := 32
def heartbeatInfoSize : Nat := 14

def paramHeartbeatInfo : BitVec 16 := 1#16
def paramIpv4Address : BitVec 16 := 5#16
def paramIpv6Address : BitVec 16 := 6#16
def paramStateCookie : BitVec 16 := 7#16
def paramUnrecognized : BitVec 16 := 8#16
def paramCookiePreservative : BitVec 16 := 9#16
def paramHostNameAddress : BitVec 16 := 11#16
def paramSupportedAddressTypes : BitVec 16 := 12#16

def causeInvalidStreamId : BitVec 16 := 1#16
def causeMissingMandatoryParam : BitVec 16 := 2#16
def causeStaleCookie : BitVec 16 := 3#16
def causeUnresolvableAddress : BitVec 16 := 5#16
def causeUnrecognizedChunk : BitVec 16 := 6#16
def causeInvalidMandatoryParam : BitVec 16 := 7#16
def causeUnrecognizedParams : BitVec 16 := 8#16
def causeNoUserData : BitVec 16 := 9#16
def causeCookieWhileShuttingDown : BitVec 16 := 10#16
def causeRestartWithNewAddresses : BitVec 16 := 11#16
def causeUserInitiatedAbort : BitVec 16 := 12#16
def causeProtocolViolation : BitVec 16 := 13#16

/-! ## Packets -/

/-- `sockaddr_in`: an IPv4 address and a port. -/
structure SockAddr where
  addr : BitVec 32
  port : Port
deriving DecidableEq, Repr, Inhabited

/-- The peer's primary address and its SCTP port. -/
structure AssociationKey where
  address : SockAddr
deriving DecidableEq, Repr, Inhabited

structure CommonHeader where
  srcPort : Port
  desPort : Port
  verificationTag : Tag
deriving DecidableEq, Repr, Inhabited

/-- The type octet of a chunk. `unknown` are the values with no handler. -/
inductive ChunkType where
  | data
  | init
  | initAck
  | sack
  | heartbeat
  | heartbeatAck
  | abort
  | shutdown
  | shutdownAck
  | opError
  | cookieEcho
  | cookieAck
  | shutdownComplete
  | unknown (code : BitVec 8)
deriving DecidableEq, Repr

structure InitChunkValue where
  initiateTag : Tag
  aRwnd : BitVec 32
  outStreams : BitVec 16
  inStreams : BitVec 16
  initialTsn : Tsn
  optionalParameters : Bytes
deriving DecidableEq, Repr

structure DataChunkValue where
  tsn : Tsn
  streamIdentifier : StreamId
  streamSeqNum : Ssn
  payloadProtocol : BitVec 32
  userData : Bytes
  /-- U, B and E. -/
  flags : BitVec 8
deriving DecidableEq, Repr

namespace DataChunkValue

/-- The B bit. -/
def begins (data : DataChunkValue) : Bool := data.flags &&& dataFlagB != 0#8

/-- The E bit. -/
def ends (data : DataChunkValue) : Bool := data.flags &&& dataFlagE != 0#8

/-- The U bit. -/
def unordered (data : DataChunkValue) : Bool := data.flags &&& dataFlagU != 0#8

end DataChunkValue

structure SackGapAckBlock where
  start : BitVec 16
  stop : BitVec 16
deriving DecidableEq, Repr

structure SackChunkValue where
  cumulativeTsnAck : Tsn
  aRwnd : BitVec 32
  numberOfGapAckBlocks : BitVec 16
  numberOfDuplicateTsns : BitVec 16
  gapAckBlocks : List SackGapAckBlock
  duplicateTsns : List Tsn
deriving DecidableEq, Repr

structure ErrorCause where
  code : BitVec 16
  info : Bytes
deriving DecidableEq, Repr

/-- `Chunk_Value_Type` with the chunk's type: one alternative a type. -/
inductive ChunkValue where
  | data (value : DataChunkValue)
  | init (value : InitChunkValue)
  | initAck (value : InitChunkValue)
  | sack (value : SackChunkValue)
  | heartbeat (info : Bytes)
  | heartbeatAck (info : Bytes)
  | abort (causes : List ErrorCause)
  | shutdown (cumulativeTsnAck : Tsn)
  | shutdownAck
  | opError (causes : List ErrorCause)
  | cookieEcho (cookieData : Bytes)
  | cookieAck
  | shutdownComplete
  | unknown (code : BitVec 8) (body : Bytes)
deriving DecidableEq, Repr

structure Chunk where
  flag : BitVec 8
  value : ChunkValue
deriving DecidableEq, Repr

/-- The type octet of a chunk. -/
def Chunk.type (chunk : Chunk) : ChunkType :=
  match chunk.value with
  | .data _ => .data
  | .init _ => .init
  | .initAck _ => .initAck
  | .sack _ => .sack
  | .heartbeat _ => .heartbeat
  | .heartbeatAck _ => .heartbeatAck
  | .abort _ => .abort
  | .shutdown _ => .shutdown
  | .shutdownAck => .shutdownAck
  | .opError _ => .opError
  | .cookieEcho _ => .cookieEcho
  | .cookieAck => .cookieAck
  | .shutdownComplete => .shutdownComplete
  | .unknown code _ => .unknown code

structure Packet where
  header : CommonHeader
  chunks : List Chunk
deriving DecidableEq, Repr, Inhabited

structure StateCookie where
  version : Byte
  secretGeneration : Byte
  createdUs : BitVec 64
  lifespanUs : BitVec 32
  sctpSrcPort : Port
  sctpDstPort : Port
  peerIpv4 : BitVec 32
  peerUdpPort : Port
  localVerTag : Tag
  peerVerTag : Tag
  localInitialTsn : Tsn
  peerInitialTsn : Tsn
  peerARwnd : BitVec 32
  localOutStreams : BitVec 16
  localInStreams : BitVec 16
  peerOutStreams : BitVec 16
  peerInStreams : BitVec 16
  localTieTag : Tag
  peerTieTag : Tag
  peerAddresses : List (BitVec 32)
  mac : Bytes
deriving DecidableEq, Repr

/-- One outbound packet, its association and where it goes. -/
structure Deliverable where
  location : AssociationKey
  destination : SockAddr
  packet : Packet
deriving DecidableEq, Repr, Inhabited

/-! ## Associations -/

inductive AssociationState where
  | cookieWait
  | cookieEchoed
  | established
  | shutdownPending
  | shutdownSent
  | shutdownReceived
  | shutdownAckSent
deriving DecidableEq, Repr, Inhabited

structure OutstandingData where
  data : DataChunkValue
  firstSent : Time
  lastSent : Time
  retransmitted : Bool
  gapAcked : Bool
  missingReports : Nat
  fastRetransmitted : Bool
  pendingRetransmission : Bool
  /-- Where it was last sent, or, while pending retransmission, where it goes next. -/
  destination : SockAddr
deriving DecidableEq, Repr

structure AckedRetransmission where
  tsn : Tsn
  size : Nat
  destination : SockAddr
deriving DecidableEq, Repr

/-- A chunk received above the Cumulative TSN Ack; `assembled` once its message
was taken out of the chunks ahead of the cumulative point. -/
structure HeldChunk where
  data : DataChunkValue
  assembled : Bool
deriving DecidableEq, Repr

/-- Bytes of one message handed to the ULP; `complete` is false while more of it is to follow. -/
structure Delivery where
  bytes : Bytes
  complete : Bool
  stream : StreamId
deriving DecidableEq, Repr

/-- Ordered messages that arrived complete ahead of the next SSN, keyed by SSN. -/
structure InboundStream where
  nextSsn : Ssn
  early : KeyMap Ssn Bytes
deriving DecidableEq, Inhabited

structure OutboundMessage where
  stream : StreamId
  ssn : Ssn
  unordered : Bool
  bytes : Bytes
  offset : Nat
deriving DecidableEq, Repr

/-- The message whose fragments are being consumed in TSN order. -/
structure Reassembly where
  isOpen : Bool
  partiallyDelivered : Bool
  unordered : Bool
  stream : StreamId
  ssn : Ssn
  bytes : Bytes
deriving DecidableEq, Repr

/-- `Reassembly{}`. -/
def Reassembly.closed : Reassembly := ⟨false, false, false, 0#16, 0#16, []⟩

/-- A destination of the peer. -/
structure PeerPath where
  address : SockAddr
  confirmed : Bool
  active : Bool
  errorCount : Nat
  hbEnabled : Bool
  hbOutstanding : Bool
  hbNonce : BitVec 64
  hbSentAt : Time
  hbNext : Time
  hbPeriodStart : Time
  newDataSentAt : Time
  hasSrtt : Bool
  srtt : Micros
  rttvar : Micros
  rto : Micros
  cwnd : Nat
  ssthresh : Nat
  partialBytesAcked : Nat
  singlePacketInFlight : Bool
  dataSentAt : Time
  idleDecaying : Bool
deriving DecidableEq, Repr

/-- The TCB. -/
structure Association where
  peerVerTag : Tag
  thisVerTag : Tag
  localTieTag : Tag
  peerTieTag : Tag
  state : AssociationState
  peerAddressList : List PeerPath
  primaryPath : SockAddr
  errorCount : Nat
  errorThreshold : Nat
  peerRwnd : Nat
  peerMaxRwnd : Nat
  zeroWindowProbeAllowed : Bool
  zeroWindowProbing : Bool
  sackSinceT3 : Bool
  ourRwnd : Nat
  receivedSinceSack : Nat
  nextTsn : Tsn
  lastPeerTsn : Tsn
  initRetransmits : Nat
  cookieRetransmits : Nat
  staleCookieRetries : Nat
  cumulativeTsnAck : Tsn
  outstandingData : KeyMap Tsn OutstandingData
  hasRttMeasurementTsn : Bool
  rttMeasurementTsn : Tsn
  pmdcs : Nat
  /-- In milliseconds. -/
  hbInterval : Int
  burstCount : Nat
  ackedRetransmissions : List AckedRetransmission
  inFastRecovery : Bool
  fastRecoveryExitTsn : Tsn
  tsnOooBuffer : KeyMap Tsn HeldChunk
  duplicateTsns : List Tsn
  delayedSackPacketCount : Nat
  inStreams : BitVec 16
  outStreams : BitVec 16
  /-- Indexed by stream number. -/
  nextSsn : List Ssn
  outbound : List OutboundMessage
  outboundBytes : Nat
  reassembly : Reassembly
  inboundStreams : KeyMap StreamId InboundStream
  /-- Messages completed while another is part way through partial delivery. -/
  heldDeliveries : List Delivery
deriving DecidableEq

/-- `Association{}`. -/
def Association.blank : Association where
  peerVerTag := 0#32
  thisVerTag := 0#32
  localTieTag := 0#32
  peerTieTag := 0#32
  state := .cookieWait
  peerAddressList := []
  primaryPath := ⟨0#32, 0#16⟩
  errorCount := 0
  errorThreshold := 0
  peerRwnd := 0
  peerMaxRwnd := 0
  zeroWindowProbeAllowed := false
  zeroWindowProbing := false
  sackSinceT3 := false
  ourRwnd := 0
  receivedSinceSack := 0
  nextTsn := 0#32
  lastPeerTsn := 0#32
  initRetransmits := 0
  cookieRetransmits := 0
  staleCookieRetries := 0
  cumulativeTsnAck := 0#32
  outstandingData := ∅
  hasRttMeasurementTsn := false
  rttMeasurementTsn := 0#32
  pmdcs := 0
  hbInterval := 0
  burstCount := 0
  ackedRetransmissions := []
  inFastRecovery := false
  fastRecoveryExitTsn := 0#32
  tsnOooBuffer := ∅
  duplicateTsns := []
  delayedSackPacketCount := 0
  inStreams := 0#16
  outStreams := 0#16
  nextSsn := []
  outbound := []
  outboundBytes := 0
  reassembly := Reassembly.closed
  inboundStreams := ∅
  heldDeliveries := []

/-! ## Timers -/

inductive ExpirationTimerType where
  | t1Init
  | t1Cookie
  | t3Rtx
  | delayedSack
  | heartbeat
  | t2Shutdown
  | t5ShutdownGuard
  | zeroWindowProbe
deriving DecidableEq, Repr

/-- `path` names the destination for timers kept per destination, and is zero for
those kept per association. -/
structure ExpirationKey where
  location : AssociationKey
  type : ExpirationTimerType
  path : AssociationKey
deriving DecidableEq, Repr

/-- What the random generator returns during one handler run: tags from
`generate_nonzero_tag`, words from `generate_random`, the latter by destination
where the source draws one for each path. -/
structure Draws where
  tag : {t : Tag // t ≠ 0#32}
  tsn : Tsn
  localTieTag : {t : Tag // t ≠ 0#32}
  peerTieTag : {t : Tag // t ≠ 0#32}
  jitter : SockAddr → BitVec 32
  nonce : SockAddr → BitVec 64
  secret : Bytes

end SctpStack
