import SctpStack.Socket

/-!
# Timers and retransmission scheduling

`socket_timers.cpp`, less the expiry handlers: the RTO estimator, heartbeat probes,
the T2 and T3 timers, what is recorded when DATA goes out, and building the packets
that carry chunks marked for retransmission.
-/

namespace SctpStack

/-! ## One destination -/

def doubleRto (path : PeerPath) : PeerPath := { path with rto := min (path.rto * 2) rtoMax }

/-- The source mixes with the weights 1/8 and 1/4 in floating point and truncates. -/
def updateRto (path : PeerPath) (measurement : Micros) : PeerPath :=
  let path :=
    if !path.hasSrtt then
      { path with srtt := measurement, rttvar := measurement.tdiv 2, hasSrtt := true }
    else
      let deviation := if path.srtt > measurement then path.srtt - measurement
        else measurement - path.srtt
      { path with
        rttvar := (3 * path.rttvar + deviation).tdiv 4
        srtt := (7 * path.srtt + measurement).tdiv 8 }
  let path := if path.rttvar = 0 then { path with rttvar := clockGranularity } else path
  { path with rto := max rtoMin (min (path.srtt + path.rttvar * 4) rtoMax) }

/-- The time between two time points, in whole microseconds. -/
def microsBetween (since later : Time) : Micros := (later - since).tdiv 1000

/-- An inactive path stops counting. The flag says the path has just failed. -/
def countPathError (path : PeerPath) : PeerPath × Bool :=
  if path.active then
    let path := { path with errorCount := path.errorCount + 1 }
    if path.errorCount > pathMaxRetrans then ({ path with active := false }, true)
      else (path, false)
  else (path, false)

/-- The flag says the path has just become active again. -/
def clearPathErrors (path : PeerPath) : PeerPath × Bool :=
  ({ path with errorCount := 0, active := true }, !path.active)

/-- HB.interval plus the RTO, jittered by half the RTO either way; every RTO for a
path being confirmed. -/
def planNextProbe (assoc : Association) (draws : Draws) (i : Nat) (now : Time) : Association :=
  let path := assoc.path i
  let next :=
    if probesForConfirmation assoc i then now + usec path.rto
    else
      let jitter : Int := (draws.jitter path.address).toNat
      let offset := jitter % (path.rto + 1) - path.rto.tdiv 2
      now + msec assoc.hbInterval + usec path.rto + usec offset
  assoc.modifyPath i fun path => { path with hbPeriodStart := now, hbNext := next }

namespace Socket

def notifyIf (s : Socket) (changed : Bool) (key : AssociationKey) (address : SockAddr)
    (state : PeerAddrState) :
    Socket :=
  if changed then s.notifyPeerAddrChange key address state else s

/-- `count_path_error` on the path at index `i`. -/
def countPathErrorAt (s : Socket) (key : AssociationKey) (assoc : Association) (i : Nat) : Socket :=
  let path := assoc.path i
  (s.updateAssociation key fun assoc => assoc.modifyPath i fun path =>
    (countPathError path).1).notifyIf (countPathError path).2 key path.address .addrUnreachable

/-- `clear_path_errors` on the path at index `i`. -/
def clearPathErrorsAt (s : Socket) (key : AssociationKey) (assoc : Association) (i : Nat) :
    Socket :=
  let path := assoc.path i
  (s.updateAssociation key fun assoc => assoc.modifyPath i fun path =>
    (clearPathErrors path).1).notifyIf (clearPathErrors path).2 key path.address .addrAvailable

/-! ## Heartbeats -/

def armHeartbeat (s : Socket) (key : AssociationKey) (i : Nat) : Socket :=
  match s.find? key with
  | none => s
  | some assoc =>
    let path := assoc.path i
    let timer := pathTimerOf key .heartbeat path.address
    if path.hbOutstanding then s.scheduleExpiration timer (path.hbSentAt + usec path.rto)
      (noRetry key)
    else if !path.hbEnabled || (!path.confirmed && path.active && !probesForConfirmation assoc i)
      then
      s.cancelExpiration timer
    else s.scheduleExpiration timer path.hbNext (noRetry key)

/-- The number of paths of an association. -/
def pathCount (s : Socket) (key : AssociationKey) : Nat :=
  (s.find? key).elim 0 fun assoc => assoc.peerAddressList.length

/-- A path that has just taken a turn at confirmation is probed at once. -/
def armConfirmationProbe (s : Socket) (now : Time) (key : AssociationKey) (i : Nat) : Socket :=
  match s.find? key with
  | none => s
  | some assoc =>
    let path := assoc.path i
    if probesForConfirmation assoc i && !path.hbOutstanding
        && !s.expirations.isActive (pathTimerOf key .heartbeat path.address) then
      (s.updateAssociation key fun assoc =>
        assoc.modifyPath i fun path =>
          { path with hbPeriodStart := now, hbNext := now }).armHeartbeat key i
    else s

def armConfirmationProbes (s : Socket) (now : Time) (key : AssociationKey) : Socket :=
  (List.range (s.pathCount key)).foldl (fun s i => s.armConfirmationProbe now key i) s

/-- Plans the next probe of a path, at once if it is to be confirmed. -/
def planProbe (s : Socket) (now : Time) (draws : Draws) (key : AssociationKey) (i : Nat) : Socket :=
  s.updateAssociation key fun assoc =>
    let assoc := planNextProbe assoc draws i now
    if probesForConfirmation assoc i then assoc.modifyPath i fun path => { path with hbNext := now }
    else assoc

def startHeartbeats (s : Socket) (now : Time) (draws : Draws) (key : AssociationKey) : Socket :=
  (List.range (s.pathCount key)).foldl (fun s i => (s.planProbe now draws key i).armHeartbeat key i)
    s

/-- The probe of `build_probe`; the path notes its nonce and that it is out. -/
def buildProbe (s : Socket) (now : Time) (draws : Draws) (key : AssociationKey)
    (assoc : Association) (i : Nat) : Socket × Deliverable :=
  let address := (assoc.path i).address
  let nonce := draws.nonce address
  (s.updateAssociation key fun assoc =>
      assoc.modifyPath i fun path =>
        { path with hbNonce := nonce, hbOutstanding := true, hbSentAt := now },
    ⟨key, address, buildHeartbeat s.localAddress.port key.address.port assoc.peerVerTag
      (heartbeatInfo nonce address)⟩)

def recordHeartbeatSent (s : Socket) (key : AssociationKey) (destination : SockAddr)
    (sentAt : Time) : Socket :=
  s.updateAssociation key fun assoc =>
    match findPath assoc destination with
    | none => assoc
    | some i => assoc.modifyPath i fun path =>
        if path.hbOutstanding then { path with hbSentAt := sentAt } else path

/-! ## Retransmission timers -/

def restartT3 (s : Socket) (now : Time) (key : AssociationKey) (destination : SockAddr) : Socket :=
  let timer := pathTimerOf key .t3Rtx destination
  let rto? := do
    let assoc ← s.find? key
    let i ← findPath assoc destination
    if hasUnacknowledgedData assoc i then some (assoc.path i).rto else none
  match rto? with
  | none => s.cancelExpiration timer
  | some rto => s.scheduleExpiration timer (now + usec rto) (noRetry key)

def startT3IfStopped (s : Socket) (now : Time) (key : AssociationKey) (destination : SockAddr) :
    Socket :=
  if s.expirations.isActive (pathTimerOf key .t3Rtx destination) then s else s.restartT3 now key
    destination

def restartT2 (s : Socket) (now : Time) (key : AssociationKey) : Socket :=
  match s.find? key with
  | none => s
  | some assoc =>
    s.scheduleExpiration (timerOf key .t2Shutdown) (now + usec (assoc.path (dataPath assoc)).rto)
      (noRetry key)

end Socket

/-! ## DATA going out -/

/-- The path a packet to `destination` is accounted to. -/
def sentOn (assoc : Association) (destination : SockAddr) : Nat :=
  (findPath assoc destination).getD (primary assoc)

/-- `record_data_sent` for a chunk sent the first time. -/
def recordFirstSent (assoc : Association) (on : Nat) (data : DataChunkValue) (sentAt : Time)
    (exceedsRwnd : Bool) : Association :=
  let assoc := assoc.modifyPath on fun path => { path with newDataSentAt := sentAt }
  { assoc with
    zeroWindowProbing := assoc.zeroWindowProbeAllowed && exceedsRwnd
    zeroWindowProbeAllowed := false
    outstandingData := assoc.outstandingData.emplaceBy tsnLt data.tsn
      { data := data
        firstSent := sentAt
        lastSent := sentAt
        retransmitted := false
        gapAcked := false
        missingReports := 0
        fastRetransmitted := false
        pendingRetransmission := false
        destination := (assoc.path on).address }
    rttMeasurementTsn := if assoc.hasRttMeasurementTsn then assoc.rttMeasurementTsn else data.tsn
    hasRttMeasurementTsn := true }

/-- `record_data_sent` for a chunk sent again. -/
def recordSentAgain (assoc : Association) (on : Nat) (data : DataChunkValue) (sentAt : Time) :
    Association :=
  { assoc with
    outstandingData := assoc.outstandingData.modify data.tsn fun outstanding =>
      { outstanding with
        lastSent := sentAt
        retransmitted := true
        gapAcked := false
        destination := (assoc.path on).address }
    hasRttMeasurementTsn := assoc.hasRttMeasurementTsn && !tsnLte data.tsn assoc.rttMeasurementTsn }

def recordDataSentIn (assoc : Association) (destination : SockAddr) (data : DataChunkValue)
    (sentAt : Time) :
    Association :=
  let on := sentOn assoc destination
  let assoc := assoc.modifyPath on fun path =>
    { path with dataSentAt := sentAt, idleDecaying := false }
  let chunkSize := dataChunkWireSize data
  let exceedsRwnd := decide (chunkSize > assoc.peerRwnd)
  let assoc := { assoc with peerRwnd := assoc.peerRwnd - min assoc.peerRwnd chunkSize }
  if assoc.outstandingData.contains data.tsn then recordSentAgain assoc on data sentAt
  else recordFirstSent assoc on data sentAt exceedsRwnd

def Socket.recordDataSent (s : Socket) (key : AssociationKey) (destination : SockAddr)
    (data : DataChunkValue) (sentAt : Time) : Socket :=
  s.updateAssociation key fun assoc =>
    if transmitsData assoc.state then recordDataSentIn assoc destination data sentAt else assoc

/-! ## Chunks marked for retransmission -/

/-- The marked chunks, in TSN order. -/
def markedChunks (assoc : Association) : List (Tsn × OutstandingData) :=
  assoc.outstandingData.entries.filter fun entry => entry.2.pendingRetransmission
    && !entry.2.gapAcked

/-- The loop of `schedule_pending_retransmission`: the TSNs of the packet, `packetSize`
counting the bytes taken so far and `taken` whether there are any. -/
def bundleMarked (assoc : Association) (target : Nat) (packetSize : Nat) (taken : Bool) :
    List (Tsn × OutstandingData) → List (Tsn × OutstandingData)
  | [] => []
  | (tsn, outstanding) :: rest =>
    if destinationOf assoc outstanding ≠ target then bundleMarked assoc target packetSize taken rest
    else
      let chunkSize := dataChunkWireSize outstanding.data
      if taken && decide (packetSize + chunkSize > sctpCommonHeaderSize + assoc.pmdcs) then []
      else (tsn, outstanding) :: bundleMarked assoc target (packetSize + chunkSize) true rest

/-- One packet of the lowest marked TSNs that share a destination, sent there. `gated`
waits for the destination's cwnd. -/
def Socket.schedulePendingRetransmission (s : Socket) (key : AssociationKey) (gated : Bool) :
    Socket :=
  match s.find? key with
  | none => s
  | some assoc =>
    match markedChunks assoc with
    | [] => s
    | first :: rest =>
      let target := destinationOf assoc first.2
      if gated && !cwndOpen assoc target then s
      else
        let bundle := bundleMarked assoc target sctpCommonHeaderSize false (first :: rest)
        let tsns := bundle.map Prod.fst
        let packet := buildData s.localAddress.port key.address.port assoc.peerVerTag
          (bundle.map fun entry => entry.2.data)
        (s.updateAssociation key fun assoc => { assoc with
          outstandingData := assoc.outstandingData.mapVals fun tsn outstanding =>
            if tsn ∈ tsns then { outstanding with pendingRetransmission := false }
              else outstanding }).enqueuePacket
          ⟨key, (assoc.path target).address, packet⟩ .retransmission

end SctpStack
