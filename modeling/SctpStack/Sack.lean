import SctpStack.Timers

/-!
# SACK processing

`handle_sack` and the first stage of a shutdown, which its acknowledgements may
complete. The loops over `outstanding_data` are functions of one entry
(`ackEntry`, `missEntry`), and what a SACK did to one destination (`Path_Ack`) is
computed from the entries sent there.
-/

namespace SctpStack

/-! ## Shutdown, first stage -/

namespace Socket

/-- The packet that starts or answers a shutdown and the state it leads to, once
everything is acknowledged. -/
def nextShutdownStep (s : Socket) (key : AssociationKey) (assoc : Association) :
    Option (Packet × AssociationState) :=
  if assoc.cumulativeTsnAck ≠ assoc.nextTsn - 1#32 ∨ assoc.outbound ≠ [] then none
  else
    match assoc.state with
    | .shutdownPending =>
      some (buildShutdown s.localAddress.port key.address.port assoc.peerVerTag assoc.lastPeerTsn,
        .shutdownSent)
    | .shutdownReceived =>
      some (buildShutdownAck s.localAddress.port key.address.port assoc.peerVerTag,
        .shutdownAckSent)
    | _ => none

def doNextShutdownStep (s : Socket) (now : Time) (key : AssociationKey) : Socket :=
  match s.find? key with
  | none => s
  | some assoc =>
    match s.nextShutdownStep key assoc with
    | none => s
    | some (packet, state) =>
      let s := s.setAssociation key { assoc with state := state }
      let s := s.cancelExpirationsOfType key .heartbeat
      let s := s.cancelExpiration (timerOf key .delayedSack)
      let s := s.cancelExpirationsOfType key .t3Rtx
      let s := s.enqueuePacket ⟨key, (assoc.path (dataPath assoc)).address, packet⟩ .control
      let s := s.restartT2 now key
      if state = .shutdownSent then
        s.scheduleExpiration (timerOf key .t5ShutdownGuard) (now + usec t5ShutdownGuard)
        (noRetry key)
      else s

end Socket

/-! ## One entry of `outstanding_data` -/

/-- A SACK may not acknowledge what was never assigned. -/
def acksUnsent (assoc : Association) (sack : SackChunkValue) : Bool :=
  !tsnLt sack.cumulativeTsnAck assoc.nextTsn
    || sack.gapAckBlocks.any fun block =>
        !tsnLt (sack.cumulativeTsnAck + block.stop.setWidth 32) assoc.nextTsn

/-- Whether a SACK acknowledges an entry for the first time. -/
def newlyAcks (sack : SackChunkValue) (entry : Tsn × OutstandingData) : Bool :=
  sackAcknowledges sack entry.1 && !entry.2.gapAcked

/-- Whether a SACK withdraws the acknowledgement of an entry. -/
def reneges (sack : SackChunkValue) (entry : Tsn × OutstandingData) : Bool :=
  !sackAcknowledges sack entry.1 && entry.2.gapAcked

/-- What a SACK leaves of an entry: nothing at or below its cumulative point. -/
def ackEntry (sack : SackChunkValue) (tsn : Tsn) (outstanding : OutstandingData) :
    Option OutstandingData :=
  if tsnLte tsn sack.cumulativeTsnAck then none
  else if sackAcknowledges sack tsn then
    some { outstanding with gapAcked := true, pendingRetransmission := false }
  else if outstanding.gapAcked then
    some { outstanding with
      gapAcked := false
      missingReports :=
        if outstanding.fastRetransmitted then outstanding.missingReports
          else outstanding.missingReports + 1 }
  else some outstanding

/-- The highest of the TSNs `select` picks, in TSN order. -/
def highestTsn (select : Tsn × OutstandingData → Bool) (entries : List (Tsn × OutstandingData)) :
    Option Tsn :=
  (entries.filter select).foldl
    (fun highest entry =>
      match highest with
      | none => some entry.1
      | some tsn => if tsnGt entry.1 tsn then some entry.1 else some tsn)
    none

/-- Whether an entry counts as reported missing below `reported`. -/
def reportedMissing (reported : Option Tsn) (tsn : Tsn) : Bool :=
  match reported with
  | none => false
  | some highest => tsnLt tsn highest

/-- Missing reports of an entry that is left, and its mark at the third. A renege was
already counted. -/
def missEntry (reported : Option Tsn) (reneged : List Tsn) (tsn : Tsn)
    (outstanding : OutstandingData) :
    OutstandingData :=
  if outstanding.gapAcked || outstanding.fastRetransmitted then outstanding
  else
    let reports :=
      if reportedMissing reported tsn && !decide (tsn ∈ reneged) then outstanding.missingReports + 1
      else outstanding.missingReports
    if reports ≥ 3 then
      { outstanding with missingReports := reports, fastRetransmitted := true, pendingRetransmission
        := true }
    else { outstanding with missingReports := reports }

/-! ## Congestion control -/

/-- `flightBefore` is the flightsize before the SACK was applied. The sums are of 32 bits. -/
def growCwnd (inFastRecovery : Bool) (pmdcs : Nat) (path : PeerPath)
    (bytesAcked duplicateBytes : Nat) (flightBefore : Nat) : PeerPath :=
  let cwndFull := decide (flightBefore ≥ path.cwnd)
  if path.cwnd ≤ path.ssthresh then
    if cwndFull && !inFastRecovery then
      { path with cwnd := (path.cwnd + min bytesAcked (slowStartIncreasePmdcs * pmdcs)) % 2 ^ 32 }
    else path
  else
    let acked := (path.partialBytesAcked + (bytesAcked + duplicateBytes)) % 2 ^ 32
    if acked ≥ path.cwnd ∧ cwndFull then
      { path with partialBytesAcked := acked - path.cwnd, cwnd := (path.cwnd + pmdcs) % 2 ^ 32 }
    else if acked > path.cwnd then { path with partialBytesAcked := path.cwnd }
    else { path with partialBytesAcked := acked }

/-- The response to a Fast Retransmit. -/
def halveCwnd (pmdcs : Nat) (path : PeerPath) : PeerPath :=
  let ssthresh := max (path.cwnd / 2) (4 * pmdcs)
  { path with ssthresh := ssthresh, cwnd := ssthresh, partialBytesAcked := 0 }

/-- `duplicate_bytes`: the size and path of each duplicate a SACK reports; an entry of
`acked_retransmissions` is consumed when it is matched. -/
def duplicateBytes (assoc : Association) :
    List Tsn → List AckedRetransmission → List (Nat × Nat) × List AckedRetransmission
  | [], acked => ([], acked)
  | tsn :: rest, acked =>
    match assoc.outstandingData.get? tsn with
    | some outstanding =>
      let (found, acked) := duplicateBytes assoc rest acked
      ((destinationOf assoc outstanding, dataChunkWireSize outstanding.data) :: found, acked)
    | none =>
      match acked.find? fun entry => entry.tsn == tsn with
      | none => duplicateBytes assoc rest acked
      | some entry =>
        let (found, acked) := duplicateBytes assoc rest (acked.eraseP fun entry => entry.tsn == tsn)
        ((sentOn assoc entry.destination, entry.size) :: found, acked)

/-- The retransmitted chunks a SACK acknowledges cumulatively join the memory, which
keeps the latest. -/
def rememberAcked (memory : List AckedRetransmission) (acked : List (Tsn × OutstandingData)) :
    List AckedRetransmission :=
  acked.foldl
    (fun memory entry =>
      let memory := memory ++ [⟨entry.1, dataChunkWireSize entry.2.data, entry.2.destination⟩]
      if memory.length > ackedRetransmissionMemory then memory.drop 1 else memory)
    memory

/-! ## What a SACK did to one destination -/

/-- The entries sent to the path at index `i`. -/
def sentTo (assoc : Association) (i : Nat) : List (Tsn × OutstandingData) :=
  assoc.outstandingData.entries.filter fun entry => destinationOf assoc entry.2 == i

/-- The earliest unacknowledged TSN sent to a path. -/
def earliestTsn (assoc : Association) (i : Nat) : Option Tsn :=
  ((sentTo assoc i).filter fun entry => !entry.2.gapAcked).foldl
    (fun earliest entry =>
      match earliest with
      | none => some entry.1
      | some tsn =>
        if (entry.1 - assoc.cumulativeTsnAck).toNat < (tsn - assoc.cumulativeTsnAck).toNat
          then some entry.1
        else some tsn)
    none

/-- A path after the SACK: errors cleared and cwnd grown by what was acknowledged on
it. `remaining` are the entries left, `before` the association the SACK found. -/
def ackPath (before : Association) (sack : SackChunkValue) (remaining : Association)
    (duplicates : List (Nat × Nat)) (i : Nat) (path : PeerPath) : PeerPath :=
  let acked := (sentTo before i).filter (newlyAcks sack)
  let bytesAcked : Nat := (acked.map fun entry => dataChunkWireSize entry.2.data).sum % 2 ^ 32
  let duplicate : Nat := ((duplicates.filter fun d => d.1 == i).map Prod.snd).sum % 2 ^ 32
  let path := if acked.isEmpty then path
    else { (clearPathErrors path).1 with singlePacketInFlight := false }
  let path :=
    if !acked.isEmpty || decide (duplicate > 0) then
      growCwnd before.inFastRecovery before.pmdcs path bytesAcked duplicate
        (bytesInFlightOn before i)
    else path
  if (sentTo remaining i).isEmpty then { path with partialBytesAcked := 0 } else path

/-- The RTT measurement the SACK completes, if any, and the path it is for. -/
def rttSample (assoc : Association) (sack : SackChunkValue) : Option (Nat × Time) :=
  if !assoc.hasRttMeasurementTsn then none
  else
    match assoc.outstandingData.get? assoc.rttMeasurementTsn with
    | none => none
    | some outstanding =>
      if newlyAcks sack (assoc.rttMeasurementTsn, outstanding) && !outstanding.retransmitted then
        some (destinationOf assoc outstanding, outstanding.firstSent)
      else none

/-- The next TSN to measure the RTT with: never sent again, and not after a chunk
sent again since. -/
def nextRttMeasurement (assoc : Association) : Option Tsn :=
  let candidates := assoc.outstandingData.entries.filter fun entry =>
    !entry.2.gapAcked && !entry.2.retransmitted
      && !assoc.outstandingData.entries.any fun other =>
          other.2.retransmitted && tsnLte other.1 entry.1
            && decide (other.2.lastSent ≥ entry.2.firstSent)
  candidates.foldl
    (fun found entry =>
      match found with
      | none => some entry.1
      | some tsn =>
        if (entry.1 - assoc.cumulativeTsnAck).toNat < (tsn - assoc.cumulativeTsnAck).toNat
          then some entry.1
        else some tsn)
    none

/-! ## The TCB after a SACK -/

/-- The acknowledgements applied, with the RTT measured: the first pass over the entries. -/
def acknowledgeEntries (assoc : Association) (sack : SackChunkValue) (now : Time) : Association :=
  let entries := assoc.outstandingData.entries
  let removed := entries.filter fun entry => tsnLte entry.1 sack.cumulativeTsnAck
    && entry.2.retransmitted
  let measured :=
    match rttSample assoc sack with
    | none => assoc
    | some (i, firstSent) =>
      { assoc.modifyPath i fun path => updateRto path (microsBetween firstSent now) with
        hasRttMeasurementTsn := false }
  { measured with
    outstandingData := assoc.outstandingData.filterMap (ackEntry sack)
    ackedRetransmissions := rememberAcked assoc.ackedRetransmissions removed
    cumulativeTsnAck := sack.cumulativeTsnAck
    errorCount := if entries.any (newlyAcks sack) then 0 else assoc.errorCount }

/-- Congestion control: the windows of every path. -/
def updateWindows (before : Association) (sack : SackChunkValue) (assoc : Association) :
    Association :=
  let (duplicates, acked) := duplicateBytes assoc sack.duplicateTsns assoc.ackedRetransmissions
  let assoc := { assoc with ackedRetransmissions := acked }
  { assoc with
    peerAddressList := assoc.peerAddressList.mapIdx fun i path =>
      ackPath before sack assoc duplicates i path }

/-- What entries count as missing below: in fast recovery, when the cumulative point
advances, the highest TSN reported, else the highest newly acknowledged. -/
def missingBelow (before : Association) (sack : SackChunkValue) : Option Tsn :=
  let entries := before.outstandingData.entries
  if before.inFastRecovery && tsnGt sack.cumulativeTsnAck before.cumulativeTsnAck then
    highestTsn (fun entry => sackAcknowledges sack entry.1) entries
  else highestTsn (newlyAcks sack) entries

/-- Missing reports: the second pass over the entries. -/
def countMissing (before : Association) (sack : SackChunkValue) (assoc : Association) :
    Association :=
  let reneged := (before.outstandingData.entries.filter (reneges sack)).map Prod.fst
  { assoc with
    outstandingData := assoc.outstandingData.mapVals
      (missEntry (missingBelow before sack) reneged) }

/-- The entries the second pass marked for Fast Retransmit. -/
def fastRetransmits (assoc counted : Association) : List (Tsn × OutstandingData) :=
  counted.outstandingData.entries.filter fun entry =>
    entry.2.fastRetransmitted
      && (assoc.outstandingData.get? entry.1).any fun outstanding => !outstanding.fastRetransmitted

/-- Fast Recovery is entered: the windows of the paths concerned are halved. -/
def enterFastRecovery (marked : List (Tsn × OutstandingData)) (assoc : Association) : Association :=
  let paths := marked.map fun entry => destinationOf assoc entry.2
  { assoc with
    peerAddressList := assoc.peerAddressList.mapIdx fun i path =>
      if i ∈ paths then halveCwnd assoc.pmdcs path else path
    inFastRecovery := true
    fastRecoveryExitTsn := (assoc.outstandingData.keys.getLast?).getD assoc.fastRecoveryExitTsn }

/-- The rest of the TCB: Fast Recovery left, a new RTT measurement, the peer's window. -/
def finishSack (sack : SackChunkValue) (assoc : Association) : Association :=
  let assoc := { assoc with
    inFastRecovery := assoc.inFastRecovery
      && !tsnGte sack.cumulativeTsnAck assoc.fastRecoveryExitTsn }
  let assoc :=
    if assoc.hasRttMeasurementTsn then assoc
    else
      match nextRttMeasurement assoc with
      | none => assoc
      | some tsn => { assoc with hasRttMeasurementTsn := true, rttMeasurementTsn := tsn }
  { assoc with
    peerRwnd := sack.aRwnd.toNat - bytesInFlight assoc
    peerMaxRwnd := max assoc.peerMaxRwnd sack.aRwnd.toNat
    sackSinceT3 := true
    zeroWindowProbing := assoc.zeroWindowProbing && decide (sack.aRwnd.toNat = 0) }

/-- What `handle_sack` computes under the lock. -/
structure SackOutcome where
  assoc : Association
  scheduleFastRetransmission : Bool
  enteredFastRecovery : Bool
deriving DecidableEq

def applySack (before : Association) (sack : SackChunkValue) (now : Time) : SackOutcome :=
  let acknowledged := updateWindows before sack (acknowledgeEntries before sack now)
  let counted := countMissing before sack acknowledged
  let marked := fastRetransmits acknowledged counted
  let enters := !marked.isEmpty && !counted.inFastRecovery
  let assoc := if enters then enterFastRecovery marked counted else counted
  ⟨finishSack sack assoc, !marked.isEmpty, enters⟩

/-! ## T3-rtx -/

inductive T3Action where
  | stop
  | restart
  | start
deriving DecidableEq, Repr

/-- What a SACK does to the T3-rtx timer of a path; `active` says it is running. -/
def t3Action (before : Association) (sack : SackChunkValue) (outcome : SackOutcome) (active : Bool)
    (i : Nat) :
    Option T3Action :=
  let earliest := earliestTsn before i
  let retransmitsEarliest := outcome.scheduleFastRetransmission
    && earliest.any fun tsn => (outcome.assoc.outstandingData.get? tsn).any fun o =>
      o.pendingRetransmission
  if !hasUnacknowledgedData outcome.assoc i then if active then some .stop else none
  else if (earliest.any fun tsn => sackAcknowledges sack tsn) || retransmitsEarliest
    then some .restart
  else if ((sentTo before i).filter (reneges sack)).isEmpty then none
  else some .start

namespace Socket

def t3Actions (s : Socket) (key : AssociationKey) (before : Association) (sack : SackChunkValue)
    (outcome : SackOutcome) : List (SockAddr × T3Action) :=
  (List.range outcome.assoc.peerAddressList.length).filterMap fun i =>
    let address := (outcome.assoc.path i).address
    (t3Action before sack outcome (s.expirations.isActive (pathTimerOf key .t3Rtx address)) i).map
      (address, ·)

def runT3Action (s : Socket) (now : Time) (key : AssociationKey) (action : SockAddr × T3Action) :
    Socket :=
  match action.2 with
  | .stop => s.cancelExpiration (pathTimerOf key .t3Rtx action.1)
  | .restart => s.restartT3 now key action.1
  | .start => s.startT3IfStopped now key action.1

/-- A path that was inactive is reported available again when a SACK acknowledges
DATA sent to it. -/
def notifyAcked (s : Socket) (key : AssociationKey) (before : Association) (sack : SackChunkValue) :
    Socket :=
  (List.range before.peerAddressList.length).foldl
    (fun s i =>
      s.notifyIf (((sentTo before i).any (newlyAcks sack)) && !(before.path i).active) key
        (before.path i).address .addrAvailable)
    s

/-- The SACK applied to an association that sends data. -/
def acceptSack (s : Socket) (now : Time) (sack : SackChunkValue) (key : AssociationKey)
    (assoc : Association) : Socket :=
  let outcome := applySack assoc sack now
  let actions := s.t3Actions key assoc sack outcome
  let s := (s.setAssociation key outcome.assoc).notifyAcked key assoc sack
  let s := s.removeAckedRetransmissions key sack
  let s := if outcome.enteredFastRecovery then s.schedulePendingRetransmission key false else s
  let s := actions.foldl (fun s action => s.runT3Action now key action) s
  s.doNextShutdownStep now key

def handleSack (s : Socket) (now : Time) (header : CommonHeader) (sack : SackChunkValue)
    (key : AssociationKey) (src : SockAddr) : Socket :=
  match s.find? key with
  | none => s
  | some assoc =>
    if !transmitsData assoc.state then s
    else if acksUnsent assoc sack then
      s.abortAssociation key header src [⟨causeProtocolViolation, []⟩]
    else if tsnLt sack.cumulativeTsnAck assoc.cumulativeTsnAck then s
    else s.acceptSack now sack key assoc

end Socket

end SctpStack
