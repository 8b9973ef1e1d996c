import SctpStack.Api

/-!
# Packet validation and dispatch

`handle_recv_packet`: the checksum and the wire format, the association a packet
belongs to, the verification tag, and the handlers of its chunks. Validation looks
at the first chunk; dispatch acts on every chunk.
-/

namespace SctpStack

inductive PacketValidation where
  | accept
  | discard
  | abortOotb
  | abortInit
  | shutdownCompleteOotb
deriving DecidableEq, Repr

def carriesStaleCookie (chunk : Chunk) : Bool :=
  match chunk.value with
  | .opError causes => causes.any fun cause => cause.code == causeStaleCookie
  | _ => false

/-- An unattributable packet is answered with an ABORT, except where a reply would
bounce forever or the sender is already tearing the association down. An ABORT
anywhere in the packet outranks the rest. -/
def ootbResponse (packet : Packet) : PacketValidation :=
  if containsChunk packet .abort then .discard
  else if containsChunk packet .shutdownAck then .shutdownCompleteOotb
  else if packet.chunks.any carriesStaleCookie || containsChunk packet .shutdownComplete
      || containsChunk packet .cookieAck then .discard
  else .abortOotb

/-- The Initiate Tag of a leading INIT. -/
def leadingInitTag (packet : Packet) : Tag :=
  match packet.chunks with
  | ⟨_, .init init⟩ :: _ => init.initiateTag
  | _ => 0#32

namespace Socket

def validateVerificationTag (s : Socket) (packet : Packet) (key : AssociationKey) :
    PacketValidation :=
  match packet.chunks with
  | [] => .discard
  | first :: rest =>
    let tag := packet.header.verificationTag
    -- Our SCTP port is our UDP port; no endpoint here listens on any other.
    if packet.header.desPort ≠ s.localAddress.port then
      if first.type ≠ .init then ootbResponse packet
      else if tag = 0#32 ∧ rest = [] ∧ leadingInitTag packet ≠ 0#32 then .abortInit
      else .discard
    else if first.type = .init then if tag = 0#32 ∧ rest = [] then .accept else .discard
    -- A restarting or colliding peer echoes under a tag the live TCB does not hold,
    -- so the cookie is checked instead.
    else if first.type = .cookieEcho then .accept
    else
      match s.find? key with
      | none => ootbResponse packet
      | some assoc =>
        if first.type = .abort ∨ first.type = .shutdownComplete then
          -- The T bit says which tag the sender could reach for.
          let expected :=
            if first.flag &&& chunkFlagTBit != 0#8 then assoc.peerVerTag else assoc.thisVerTag
          if expected ≠ 0#32 ∧ tag = expected then .accept else .discard
        -- The SHUTDOWN ACK belongs to an association this TCB replaced.
        else if forming assoc.state && containsChunk packet .shutdownAck then ootbResponse packet
        else if tag = assoc.thisVerTag then .accept
        else .discard

/-- The association a packet is for: its source's, or that of an address a leading
INIT or INIT ACK lists. -/
def packetKey (s : Socket) (packet : Packet) (src : SockAddr) : AssociationKey :=
  let key := s.associationKeyFor (peerKey src packet.header.srcPort)
  if s.associations.contains key then key
  else
    let listed := (initAddresses packet src).map fun address =>
      s.associationKeyFor (peerKey address packet.header.srcPort)
    (listed.find? fun k => s.associations.contains k).getD key

end Socket

/-- The chunks left once those of unknown type are taken out, and the causes to report
them with. The high bits of the type say whether the rest of the packet is skipped
and whether the chunk is reported. -/
def stripUnrecognized : List Chunk → List Chunk × List ErrorCause
  | [] => ([], [])
  | chunk :: rest =>
    match chunk.value with
    | .unknown code body =>
      let report := if code &&& 0x40#8 != 0#8 then [unrecognizedChunkCause code chunk.flag body]
        else []
      if code &&& 0x80#8 != 0#8 then
        let (chunks, causes) := stripUnrecognized rest
        (chunks, report ++ causes)
      else ([], report)
    | _ =>
      let (chunks, causes) := stripUnrecognized rest
      (chunk :: chunks, causes)

/-- The leading causes that fit a packet. -/
def fittingCauses (budget : Nat) : Nat → List ErrorCause → List ErrorCause
  | _, [] => []
  | size, cause :: rest =>
    let size := size + pad4 (sctpChunkHeaderSize + cause.info.length)
    if size > budget then [] else cause :: fittingCauses budget size rest

namespace Socket

/-- COOKIE_WAIT has no peer tag to address the report with. -/
def reportUnrecognizedChunks (s : Socket) (header : CommonHeader) (key : AssociationKey)
    (src : SockAddr) (causes : List ErrorCause) : Socket :=
  match s.find? key with
  | none => s
  | some assoc =>
    if assoc.state = .cookieWait then s
    else
      let fitting := fittingCauses assoc.pmdcs sctpChunkHeaderSize causes
      if fitting.isEmpty then s
      else s.sendError header key (replyDestination assoc src) assoc.peerVerTag fitting

/-- One chunk of a packet. DATA is handled once per packet, after the rest. -/
def handleChunk (s : Socket) (now : Time) (draws : Draws) (header : CommonHeader)
    (key : AssociationKey) (src : SockAddr) (chunk : Chunk) : Socket :=
  match chunk.value with
  | .init init => s.handleInit now draws header init key src
  | .initAck initAck => s.handleInitAck header initAck key src
  | .cookieAck => s.handleCookieAck now draws key
  | .sack sack => s.handleSack now header sack key src
  | .opError causes => s.handleError causes key
  | .abort causes => s.handleAbort causes key
  | .heartbeat info => s.handleHeartbeat header info key src
  | .heartbeatAck info => s.handleHeartbeatAck now draws info key
  | .shutdown cumulativeTsnAck => s.handleShutdown now header cumulativeTsnAck key src
  | .shutdownAck => s.handleShutdownAck header key src
  | .shutdownComplete => s.handleShutdownComplete key
  | .data _ | .cookieEcho _ | .unknown _ _ => s

/-- The loop over the chunks, each with what the random generator returns for it. It
stops at an ABORT, and the flag says it did. -/
def handleChunks (now : Time) (draws : Nat → Draws) (header : CommonHeader) (key : AssociationKey)
    (src : SockAddr) : Nat → List Chunk → Socket → Bool × Socket
  | _, [], s => (false, s)
  | i, chunk :: rest, s =>
    let s := s.handleChunk now (draws i) header key src chunk
    if chunk.type = .abort then (true, s) else handleChunks now draws header key src (i + 1) rest s

/-- Any packet from the peer in SHUTDOWN-SENT gives it more time. -/
def extendShutdown (s : Socket) (now : Time) (key : AssociationKey) : Socket :=
  match s.find? key with
  | none => s
  | some assoc =>
    if assoc.state = .shutdownSent then
      (s.setAssociation key { assoc with errorCount := 0 }).restartT2 now key
    else s

/-- What follows the COOKIE ECHO of a packet, or all of a packet without one. -/
def handleRest (s : Socket) (now : Time) (draws : Nat → Draws) (header : CommonHeader)
    (key : AssociationKey) (src : SockAddr) (chunks rest : List Chunk)
    (unrecognized : List ErrorCause) (carriedCookieEcho : Bool) : Socket :=
  -- An INIT carries no proof that it came from the peer.
  let s := if chunks.head?.any fun chunk => decide (chunk.type = .init) then s
    else s.recordEncapsulationPort key src
  let s := s.extendShutdown now key
  match handleChunks now draws header key src (if carriedCookieEcho then 1 else 0) rest s with
  | (true, s) => s
  | (false, s) =>
    -- DATA bundled with a COOKIE ECHO must skip the delayed-SACK timer.
    let s := s.handleDataPacket now ⟨header, chunks⟩ key src carriedCookieEcho
    if unrecognized.isEmpty then s else s.reportUnrecognizedChunks header key src unrecognized

/-- A packet that passed the tag check. A COOKIE ECHO skipped it, so it gates the rest
of the packet. -/
def acceptPacket (s : Socket) (now : Time) (draws : Nat → Draws) (packet : Packet)
    (key : AssociationKey) (src : SockAddr) : Socket :=
  let (chunks, unrecognized) := stripUnrecognized packet.chunks
  match chunks with
  | ⟨_, .cookieEcho cookieData⟩ :: rest =>
    match s.handleCookieEcho now (draws 0) packet.header cookieData key src with
    | (false, _, s) => s
    | (true, key, s) => s.handleRest now draws packet.header key src chunks rest unrecognized true
  | _ => s.handleRest now draws packet.header key src chunks chunks unrecognized false

/-- A decoded packet. -/
def handlePacket (s : Socket) (now : Time) (draws : Nat → Draws) (packet : Packet)
    (src : SockAddr) : Socket :=
  let key := s.packetKey packet src
  match s.validateVerificationTag packet key with
  | .accept => s.acceptPacket now draws packet key src
  | .abortOotb => s.sendAbort packet.header key src packet.header.verificationTag true []
  | .abortInit => s.sendAbort packet.header key src (leadingInitTag packet) false []
  | .shutdownCompleteOotb =>
    s.reply key src (buildShutdownComplete packet.header.desPort packet.header.srcPort
      packet.header.verificationTag true)
  | .discard => s

end Socket

/-- The packet a datagram carries, if its checksum and format are right. -/
def decodePacket (data : Bytes) : Option Packet :=
  if data.length < sctpCommonHeaderSize then none
  else if calculateSctpChecksum (sctpClearWireChecksum data) ≠ sctpReadWireChecksum data then none
  else deserializeSctpPacket data

def Socket.handleRecvPacket (s : Socket) (now : Time) (draws : Nat → Draws) (data : Bytes)
    (src : SockAddr) :
    Socket :=
  match decodePacket data with
  | none => s
  | some packet => s.handlePacket now draws packet src

end SctpStack
