import SctpStack.DataPacket
import SctpStack.Sack
import SctpStack.Handshake

/-!
# The other control chunks

ABORT, HEARTBEAT and HEARTBEAT ACK, the shutdown sequence, and the expiry handlers
of `socket_timers.cpp`.
-/

namespace SctpStack

namespace Socket

def handleAbort (s : Socket) (causes : List ErrorCause) (key : AssociationKey) : Socket :=
  match s.find? key with
  | none => s
  | some assoc =>
    let s := if causes.isEmpty then s else s.notify key (.remoteError causes)
    (s.removeAssociation key).notifyAssocChange key (if forming assoc.state then .cantStrAssoc
      else .commLost)

/-! ## Heartbeats -/

/-- The Info is echoed verbatim, unless the reply would not fit the wire. -/
def handleHeartbeat (s : Socket) (header : CommonHeader) (info : Bytes) (key : AssociationKey)
    (src : SockAddr) :
    Socket :=
  match s.find? key with
  | none => s
  | some assoc =>
    if assoc.state = .shutdownSent ∨ assoc.state = .shutdownAckSent
        ∨ 2 * sctpChunkHeaderSize + info.length > assoc.pmdcs then s
    else s.reply key src (buildHeartbeatAck header.desPort header.srcPort assoc.peerVerTag info)

/-- A heartbeat of the path at index `i` is answered. Only the path carrying DATA
answers for the association. -/
def creditHeartbeat (s : Socket) (now : Time) (draws : Draws) (key : AssociationKey)
    (assoc : Association) (i : Nat) : Socket :=
  let path := assoc.path i
  let s := s.updateAssociation key fun assoc => assoc.modifyPath i fun path =>
    updateRto { path with hbOutstanding := false } (microsBetween path.hbSentAt now)
  let s := s.clearPathErrorsAt key assoc i
  let s := s.updateAssociation key fun assoc =>
    if dataPath assoc = i then { assoc with errorCount := 0 } else assoc
  let s :=
    if path.confirmed then s
    else
      let s := s.updateAssociation key fun assoc => assoc.modifyPath i fun path =>
        { path with confirmed := true }
      let s := s.notifyPeerAddrChange key path.address .addrConfirmed
      s.updateAssociation key fun assoc => planNextProbe assoc draws i now
  if transmitsData assoc.state then (s.armHeartbeat key i).armConfirmationProbes now key else s

/-- The ACK is credited to the path its Info names, if it answers the heartbeat that
is out. -/
def handleHeartbeatAck (s : Socket) (now : Time) (draws : Draws) (info : Bytes)
    (key : AssociationKey) : Socket :=
  if info.length ≠ heartbeatInfoSize then s
  else
    match s.find? key with
    | none => s
    | some assoc =>
      match findPath assoc (heartbeatInfoDestination info) with
      | none => s
      | some i =>
        if !(assoc.path i).hbOutstanding || heartbeatInfoNonce info != (assoc.path i).hbNonce then s
        else s.creditHeartbeat now draws key assoc i

end Socket

/-! ## Shutdown -/

/-- The TCB after the Cumulative TSN Ack of a SHUTDOWN that advances it. Gap-acked
chunks stay so. -/
def acknowledgeShutdown (assoc : Association) (cumulativeTsnAck : Tsn) : Association :=
  let ackedNew := assoc.outstandingData.entries.any fun entry =>
    tsnLte entry.1 cumulativeTsnAck && !entry.2.gapAcked
  { assoc with
    outstandingData := assoc.outstandingData.filterMap fun tsn outstanding =>
      if tsnLte tsn cumulativeTsnAck then none else some outstanding
    cumulativeTsnAck := cumulativeTsnAck
    hasRttMeasurementTsn := assoc.hasRttMeasurementTsn
      && !tsnLte assoc.rttMeasurementTsn cumulativeTsnAck
    inFastRecovery := assoc.inFastRecovery && !tsnGte cumulativeTsnAck assoc.fastRecoveryExitTsn
    errorCount := if ackedNew then 0 else assoc.errorCount }

/-- The paths of the chunks a SHUTDOWN acknowledges, one for each chunk. -/
def pathsAcked (assoc : Association) (cumulativeTsnAck : Tsn) : List Nat :=
  (assoc.outstandingData.entries.filter fun entry =>
    tsnLte entry.1 cumulativeTsnAck && !entry.2.gapAcked).map fun entry =>
      destinationOf assoc entry.2

/-- A Cumulative TSN Ack as a SACK without Gap Ack Blocks. -/
def cumulativeSack (cumulativeTsnAck : Tsn) : SackChunkValue :=
  ⟨cumulativeTsnAck, 0#32, 0#16, 0#16, [], []⟩

namespace Socket

/-- A SHUTDOWN whose Cumulative TSN Ack advances. -/
def advanceByShutdown (s : Socket) (key : AssociationKey) (assoc : Association)
    (cumulativeTsnAck : Tsn) :
    Socket :=
  let s := (pathsAcked assoc cumulativeTsnAck).foldl
    (fun s i => ((s.find? key).elim s fun current => s.clearPathErrorsAt key current i)) s
  s.updateAssociation key fun assoc => acknowledgeShutdown assoc cumulativeTsnAck

/-- A SHUTDOWN for an association that is not closing from this side: its Cumulative
TSN Ack is applied as a SACK with no Gap Ack Blocks, except that the missing blocks
are not a renege. -/
def acceptShutdown (s : Socket) (now : Time) (cumulativeTsnAck : Tsn) (key : AssociationKey)
    (assoc : Association) : Socket :=
  let advanced := tsnGt cumulativeTsnAck assoc.cumulativeTsnAck
  let s := if advanced then s.advanceByShutdown key assoc cumulativeTsnAck else s
  let s := s.updateAssociation key fun assoc => { assoc with state := .shutdownReceived }
  let s := if assoc.state ≠ .shutdownReceived then s.notify key .shutdownEvent else s
  let s :=
    if advanced then
      let restarts := (List.range assoc.peerAddressList.length).filter fun i =>
        decide (i ∈ pathsAcked assoc cumulativeTsnAck)
      restarts.foldl (fun s i => s.restartT3 now key (assoc.path i).address)
        (s.removeAckedRetransmissions key (cumulativeSack cumulativeTsnAck))
    else s
  s.doNextShutdownStep now key

def handleShutdown (s : Socket) (now : Time) (header : CommonHeader) (cumulativeTsnAck : Tsn)
    (key : AssociationKey) (src : SockAddr) : Socket :=
  match s.find? key with
  | none => s
  | some assoc =>
    if forming assoc.state then s
    else if assoc.state = .shutdownSent ∨ assoc.state = .shutdownAckSent then
      let s := s.setAssociation key { assoc with state := .shutdownAckSent }
      (s.reply key (replyDestination assoc src)
        (buildShutdownAck header.desPort header.srcPort assoc.peerVerTag)).restartT2 now key
    else if !tsnLt cumulativeTsnAck assoc.nextTsn then
      s.abortAssociation key header src [⟨causeProtocolViolation, []⟩]
    else s.acceptShutdown now cumulativeTsnAck key assoc

def handleShutdownAck (s : Socket) (header : CommonHeader) (key : AssociationKey) (src : SockAddr) :
    Socket :=
  match s.find? key with
  | none => s
  | some assoc =>
    if assoc.state ≠ .shutdownSent ∧ assoc.state ≠ .shutdownAckSent then s
    else
      ((s.removeAssociation key).reply key (replyDestination assoc src)
        (buildShutdownComplete header.desPort header.srcPort assoc.peerVerTag
          false)).notifyAssocChange key
        .shutdownComp

def handleShutdownComplete (s : Socket) (key : AssociationKey) : Socket :=
  match s.find? key with
  | none => s
  | some assoc =>
    if assoc.state ≠ .shutdownAckSent then s
    else (s.removeAssociation key).notifyAssocChange key .shutdownComp

/-! ## Expiry handlers -/

/-- An unreachable peer is not sent an ABORT, it is simply gone. -/
def loseAssociation (s : Socket) (key : AssociationKey) : Socket :=
  (s.removeAssociation key).notifyAssocChange key .commLost

def handleT2Expiration (s : Socket) (now : Time) (key : AssociationKey) : Socket :=
  match s.find? key with
  | none => s
  | some assoc =>
    if assoc.state ≠ .shutdownSent ∧ assoc.state ≠ .shutdownAckSent then s
    else
      let i := dataPath assoc
      let assoc := { assoc.modifyPath i doubleRto with errorCount := assoc.errorCount + 1 }
      let s := s.setAssociation key assoc
      if assoc.errorCount > assoc.errorThreshold then s.loseAssociation key
      else
        -- A resent SHUTDOWN carries the Cumulative TSN Ack as it stands now.
        let packet :=
          if assoc.state = .shutdownSent then
            buildShutdown s.localAddress.port key.address.port assoc.peerVerTag assoc.lastPeerTsn
          else buildShutdownAck s.localAddress.port key.address.port assoc.peerVerTag
        (s.enqueuePacket ⟨key, (assoc.path i).address, packet⟩ .control).restartT2 now key

def handleT5Expiration (s : Socket) (key : AssociationKey) : Socket :=
  match s.find? key with
  | none => s
  | some assoc =>
    if assoc.state ≠ .shutdownSent ∧ assoc.state ≠ .shutdownAckSent then s
    else
      ((s.removeAssociation key).enqueuePacket ⟨key, (assoc.path (dataPath assoc)).address,
        buildAbort s.localAddress.port key.address.port assoc.peerVerTag false []⟩
          .control).notifyAssocChange key
        .commLost

end Socket

/-- The congestion response to a T3-rtx expiry on a path. -/
def collapseCwnd (pmdcs : Nat) (path : PeerPath) : PeerPath :=
  { path with
    ssthresh := max (path.cwnd / 2) (4 * pmdcs)
    cwnd := pmdcs
    partialBytesAcked := 0
    singlePacketInFlight := true }

/-- The chunks timed out on the path at index `i` are marked, and moved to the path
they will be retransmitted on. -/
def moveTimedOut (assoc : Association) (i : Nat) (target : SockAddr) : Association :=
  let timedOut (outstanding : OutstandingData) : Bool :=
    !outstanding.gapAcked && !outstanding.pendingRetransmission
      && destinationOf assoc outstanding == i
  { assoc with
    outstandingData := assoc.outstandingData.mapVals fun _ outstanding =>
      if timedOut outstanding then { outstanding
        with pendingRetransmission := true, destination := target }
      else outstanding
    peerRwnd := (assoc.peerRwnd + (assoc.outstandingData.entries.map fun entry =>
      if timedOut entry.2 then dataChunkWireSize entry.2.data else 0).sum) % 2 ^ 32 }

namespace Socket

/-- The TCB after a T3-rtx expiry on the path at index `i`, with the errors counted. -/
def expireT3 (s : Socket) (key : AssociationKey) (assoc : Association) (i : Nat) : Socket :=
  let s := s.updateAssociation key fun assoc => assoc.modifyPath i fun path =>
    doubleRto (if assoc.zeroWindowProbing then path else collapseCwnd assoc.pmdcs path)
  let s :=
    if !assoc.zeroWindowProbing || !assoc.sackSinceT3 then
      (s.countPathErrorAt key assoc i).updateAssociation key fun assoc =>
        { assoc with errorCount := assoc.errorCount + 1 }
    else s
  s.updateAssociation key fun assoc =>
    let target := (assoc.path (retransmissionPath assoc (assoc.path i).address)).address
    moveTimedOut { assoc with sackSinceT3 := false } i target

/-- Whether a T3-rtx expiry makes the peer unreachable. -/
def t3Unreachable (assoc : Association) : Bool :=
  (!assoc.zeroWindowProbing || !assoc.sackSinceT3)
    && decide (assoc.errorCount + 1 > assoc.errorThreshold)

def handleT3Expiration (s : Socket) (key : AssociationKey) (destination : SockAddr) : Socket :=
  match s.find? key with
  | none => s
  | some assoc =>
    if !transmitsData assoc.state then s
    else
      match findPath assoc destination with
      | none => s
      | some i =>
        if !hasUnacknowledgedData assoc i then s
        else
          let s := s.expireT3 key assoc i
          if t3Unreachable assoc then s.loseAssociation key
          else
            (s.removeRetransmissionsOfType key .data
              (some destination)).schedulePendingRetransmission key false

/-- A heartbeat was not answered within the RTO: the error is counted, and the flag
says the association is unreachable. -/
def missHeartbeat (s : Socket) (now : Time) (key : AssociationKey) (assoc : Association) (i : Nat) :
    Socket × Bool :=
  let wasProbing := probesForConfirmation assoc i
  let carriesData := (assoc.path i).confirmed && dataPath assoc == i
  let s := s.updateAssociation key fun assoc =>
    assoc.modifyPath i fun path => doubleRto { path with hbOutstanding := false }
  let s := s.countPathErrorAt key assoc i
  let s := s.updateAssociation key fun assoc =>
    if carriesData then { assoc with errorCount := assoc.errorCount + 1 } else assoc
  let failed := !(countPathError (assoc.path i)).1.active
  (if wasProbing && failed then s.armConfirmationProbes now key else s,
    carriesData && decide (assoc.errorCount + 1 > assoc.errorThreshold))

/-- The probe that is due, if any, and the path's timer for the next. A path is idle
when no new DATA went to it since its last probe was due. -/
def sendDueProbe (s : Socket) (now : Time) (draws : Draws) (key : AssociationKey) (i : Nat)
    (probeNow : Bool) : Socket × Option Deliverable :=
  match s.find? key with
  | none => (s, none)
  | some assoc =>
    if probeNow && (assoc.path i).hbEnabled then
      let (s, probe) :=
        if (assoc.path i).newDataSentAt < (assoc.path i).hbPeriodStart then
          let (s, probe) := s.buildProbe now draws key assoc i
          (s, some probe)
        else (s, none)
      ((s.updateAssociation key fun assoc => planNextProbe assoc draws i now).armHeartbeat key i,
        probe)
    else (s.armHeartbeat key i, none)

def handleHeartbeatExpiration (s : Socket) (now : Time) (draws : Draws) (key : AssociationKey)
    (destination : SockAddr) : Socket :=
  match s.find? key with
  | none => s
  | some assoc =>
    if !transmitsData assoc.state then s
    else
      match findPath assoc destination with
      | none => s
      | some i =>
        let wasOut := (assoc.path i).hbOutstanding
        let (s, unreachable) := if wasOut then s.missHeartbeat now key assoc i else (s, false)
        if unreachable then s.loseAssociation key
        else
          let probeNow := (s.find? key).any fun assoc =>
            !wasOut || probesForConfirmation assoc i || decide (now ≥ (assoc.path i).hbNext)
          match s.sendDueProbe now draws key i probeNow with
          | (s, none) => s
          | (s, some probe) => s.enqueuePacket probe .control

def handleZeroWindowProbeExpiration (s : Socket) (key : AssociationKey) : Socket :=
  s.updateAssociation key fun assoc =>
    if assoc.outstandingData.isEmpty then { assoc with zeroWindowProbeAllowed := true } else assoc

/-- T1-init and T1-cookie: the packet is sent again, or the handshake is given up. -/
def handleT1Expiration (s : Socket) (key : AssociationKey) (isInit : Bool) (retry : Deliverable) :
    Socket :=
  match s.find? key with
  | none => s
  | some assoc =>
    if assoc.state ≠ (if isInit then .cookieWait else .cookieEchoed) then s
    else if (if isInit then assoc.initRetransmits else assoc.cookieRetransmits) ≥ maxInitRetransmits
      then
      let s := (s.eraseAssociation key).forgetPeerAddresses key
      ((s.notifyAssocChange key .cantStrAssoc).cancelExpirations key).purgeSends key
    else
      (s.setAssociation key
        (if isInit then { assoc with initRetransmits := assoc.initRetransmits + 1 }
        else { assoc with cookieRetransmits := assoc.cookieRetransmits + 1 })).enqueuePacket retry
          .retransmission

def handleExpiration (s : Socket) (now : Time) (draws : Draws) (fallback : ExpirationFallback) :
    Socket :=
  let key := fallback.key.location
  match fallback.key.type with
  | .t3Rtx => s.handleT3Expiration key fallback.key.path.address
  | .delayedSack => s.sendSack key
  | .heartbeat => s.handleHeartbeatExpiration now draws key fallback.key.path.address
  | .t2Shutdown => s.handleT2Expiration now key
  | .t5ShutdownGuard => s.handleT5Expiration key
  | .zeroWindowProbe => s.handleZeroWindowProbeExpiration key
  | .t1Init => s.handleT1Expiration key true fallback.retry
  | .t1Cookie => s.handleT1Expiration key false fallback.retry

end Socket

end SctpStack
