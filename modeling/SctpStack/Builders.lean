import SctpStack.Wire

/-!
# Outbound packet construction

`builders.cpp`. The checksum is written by the serializer, and `append_parameter`
is only given values short enough for it, or (`buildInitAck`) throws.
-/

namespace SctpStack

def packetWithHeader (srcPort desPort : Port) (tag : Tag) (chunks : List Chunk) : Packet :=
  ⟨⟨srcPort, desPort, tag⟩, chunks⟩

/-- What INIT and INIT ACK advertise of this end. -/
def localInitValue (initiateTag : Tag) (initialTsn : Tsn) (parameters : Bytes) :
    InitChunkValue where
  initiateTag := initiateTag
  aRwnd := BitVec.ofNat 32 rwnd
  outStreams := localOutStreams
  inStreams := localMaxInStreams
  initialTsn := initialTsn
  optionalParameters := parameters

def buildInit (srcPort desPort : Port) (initiateTag : Tag) (initialTsn : Tsn)
    (cookiePreservativeMs : BitVec 32) : Packet :=
  let parameters :=
    if cookiePreservativeMs = 0#32 then []
    else (appendParameter paramCookiePreservative (be32Bytes cookiePreservativeMs)).getD []
  packetWithHeader srcPort desPort 0#32
    [⟨0#8, .init (localInitValue initiateTag initialTsn parameters)⟩]

/-- The parameters of an INIT ACK: the cookie, then each report. -/
def initAckParameters (cookie : Bytes) (unrecognized : List Bytes) : Option Bytes :=
  unrecognized.foldl
    (fun parameters report =>
      match parameters, appendParameter paramUnrecognized report with
      | some out, some more => some (out ++ more)
      | _, _ => none)
    (appendParameter paramStateCookie cookie)

def buildInitAck (srcPort desPort : Port) (peerTag initiateTag : Tag) (initialTsn : Tsn)
    (cookie : Bytes) (unrecognized : List Bytes) : Option Packet :=
  (initAckParameters cookie unrecognized).map fun parameters =>
    packetWithHeader srcPort desPort peerTag
      [⟨0#8, .initAck (localInitValue initiateTag initialTsn parameters)⟩]

def buildCookieEcho (srcPort desPort : Port) (peerTag : Tag) (cookie : Bytes)
    (errors : List ErrorCause) : Packet :=
  packetWithHeader srcPort desPort peerTag
    (⟨0#8, .cookieEcho cookie⟩ :: if errors.isEmpty then [] else [⟨0#8, .opError errors⟩])

def buildCookieAck (srcPort desPort : Port) (peerTag : Tag) : Packet :=
  packetWithHeader srcPort desPort peerTag [⟨0#8, .cookieAck⟩]

def buildData (srcPort desPort : Port) (peerTag : Tag) (chunks : List DataChunkValue) : Packet :=
  packetWithHeader srcPort desPort peerTag (chunks.map fun data => ⟨data.flags, .data data⟩)

def buildSack (srcPort desPort : Port) (peerTag : Tag) (cumulativeTsnAck : Tsn) (aRwnd : Nat)
    (gaps : List SackGapAckBlock) (duplicateTsns : List Tsn) : Packet :=
  packetWithHeader srcPort desPort peerTag [⟨0#8, .sack {
    cumulativeTsnAck := cumulativeTsnAck
    aRwnd := BitVec.ofNat 32 aRwnd
    numberOfGapAckBlocks := BitVec.ofNat 16 gaps.length
    numberOfDuplicateTsns := BitVec.ofNat 16 duplicateTsns.length
    gapAckBlocks := gaps
    duplicateTsns := duplicateTsns }⟩]

def buildError (srcPort desPort : Port) (peerTag : Tag) (causes : List ErrorCause) : Packet :=
  packetWithHeader srcPort desPort peerTag [⟨0#8, .opError causes⟩]

def buildAbort (srcPort desPort : Port) (tag : Tag) (reflected : Bool) (causes : List ErrorCause) :
    Packet :=
  packetWithHeader srcPort desPort tag [⟨if reflected then chunkFlagTBit else 0#8, .abort causes⟩]

def buildShutdown (srcPort desPort : Port) (peerTag : Tag) (cumulativeTsnAck : Tsn) : Packet :=
  packetWithHeader srcPort desPort peerTag [⟨0#8, .shutdown cumulativeTsnAck⟩]

def buildShutdownAck (srcPort desPort : Port) (peerTag : Tag) : Packet :=
  packetWithHeader srcPort desPort peerTag [⟨0#8, .shutdownAck⟩]

def buildShutdownComplete (srcPort desPort : Port) (tag : Tag) (reflected : Bool) : Packet :=
  packetWithHeader srcPort desPort tag
    [⟨if reflected then chunkFlagTBit else 0#8, .shutdownComplete⟩]

def buildHeartbeat (srcPort desPort : Port) (peerTag : Tag) (info : Bytes) : Packet :=
  packetWithHeader srcPort desPort peerTag [⟨0#8, .heartbeat info⟩]

def buildHeartbeatAck (srcPort desPort : Port) (peerTag : Tag) (info : Bytes) : Packet :=
  packetWithHeader srcPort desPort peerTag [⟨0#8, .heartbeatAck info⟩]

/-! ## Error causes and Heartbeat Info -/

def invalidStreamCause (streamId : StreamId) : ErrorCause :=
  ⟨causeInvalidStreamId, append16 streamId ++ [0#8, 0#8]⟩

def staleCookieCause (stalenessUs : BitVec 32) : ErrorCause :=
  ⟨causeStaleCookie, be32Bytes stalenessUs⟩

def missingParameterCause (type : BitVec 16) : ErrorCause :=
  ⟨causeMissingMandatoryParam, [0#8, 0#8, 0#8, 1#8] ++ append16 type⟩

/-- The host name is the value of a parameter, so it is short enough to be one again. -/
def unresolvableAddressCause (hostName : Bytes) : ErrorCause :=
  ⟨causeUnresolvableAddress, (appendParameter paramHostNameAddress hostName).getD []⟩

def unrecognizedChunkCause (code flag : BitVec 8) (body : Bytes) : ErrorCause :=
  ⟨causeUnrecognizedChunk,
    [code, flag] ++ append16 (BitVec.ofNat 16 (sctpChunkHeaderSize + body.length)) ++ body⟩

/-- The nonce, then the destination's address and UDP port. -/
def heartbeatInfo (nonce : BitVec 64) (destination : SockAddr) : Bytes :=
  be32Bytes (nonce.extractLsb' 32 32) ++ be32Bytes (nonce.extractLsb' 0 32)
    ++ append32 destination.addr ++ append16 destination.port

def heartbeatInfoNonce (info : Bytes) : BitVec 64 := read32 info 0 ++ read32 info 4

def heartbeatInfoDestination (info : Bytes) : SockAddr := ⟨read32 info 8, read16 info 12⟩

end SctpStack
