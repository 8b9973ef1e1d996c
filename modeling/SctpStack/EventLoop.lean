import SctpStack.Control
import SctpStack.Outbound

/-!
# The send side of the event loop

`socket_event_loop.cpp`: the snapshot of the windows, the packets built when there
is room for them, and what happens once a packet has gone out. Whether the socket
takes a packet is up to the environment.
-/

namespace SctpStack

/-! ## Windows -/

/-- The halvings of an idle cwnd, down to `floor`. -/
def halveTo (floor : Nat) : Nat → Nat → Nat
  | 0, cwnd => cwnd
  | periods + 1, cwnd => if cwnd > floor then halveTo floor periods (max (cwnd / 2) floor) else cwnd

/-- A no-op unless cwnd is above 4 * PMDCS: the decay never raises cwnd. -/
def decayIdleCwnd (pmdcs : Nat) (now : Time) (path : PeerPath) : PeerPath :=
  if path.rto ≤ 0 ∨ now - path.dataSentAt < usec path.rto then path
  else
    let periods := ((now - path.dataSentAt) / usec path.rto).toNat
    let path := { path with dataSentAt := path.dataSentAt + periods * usec path.rto }
    let floor := 4 * pmdcs
    if path.cwnd ≤ floor then path
    else
      { path with
        ssthresh := if path.idleDecaying then path.ssthresh else path.cwnd
        idleDecaying := true
        cwnd := halveTo floor periods path.cwnd }

def decayPaths (now : Time) (assoc : Association) : Association :=
  { assoc with peerAddressList := assoc.peerAddressList.map (decayIdleCwnd assoc.pmdcs now) }

def sendAllowance (assoc : Association) : SendAllowance where
  flightSize := bytesInFlight assoc
  cwndOpen := cwndOpen assoc (dataPath assoc)
  burstSpent := decide (assoc.burstCount ≥ maxBurst)
  rwnd := assoc.peerRwnd
  zeroWindowProbe := assoc.zeroWindowProbeAllowed && bytesInFlight assoc == 0
  rwndBlocked := false

namespace Socket

/-- Max.Burst is applied by counting the new-DATA packets each association sends in
one pass of the send loop. -/
def startTransmissionOpportunity (s : Socket) : Socket :=
  { s with associations := s.associations.mapVals fun _ assoc => { assoc with burstCount := 0 } }

/-- The idle windows decayed, and a snapshot of every association that sends. -/
def sendAllowances (s : Socket) (now : Time) : Socket × SendAllowances :=
  let associations := s.associations.mapVals fun _ assoc =>
    if transmitsData assoc.state then decayPaths now assoc else assoc
  ({ s with associations := associations },
    associations.filterMap fun _ assoc =>
      if transmitsData assoc.state then some (sendAllowance assoc) else none)

/-! ## Building packets -/

/-- Chunks marked for retransmission go out one packet at a time as their
destination's cwnd allows. -/
def refillRetransmissions (s : Socket) (allowances : SendAllowances) : Socket :=
  allowances.keys.foldl
    (fun s key => if s.sends.hasRetransmissionFor key then s else s.schedulePendingRetransmission
      key true) s

/-- What is being refilled: the socket, the allowances, and what was cut on the way for
each association. -/
structure Refill where
  socket : Socket
  allowances : SendAllowances
  cut : List (AssociationKey × DataChunkValue)

/-- One packet of new DATA for an association, at most one of them ahead. -/
def refillNewDataFor (r : Refill) (key : AssociationKey) : Refill :=
  match r.allowances.get? key, r.socket.find? key with
  | some allowance, some assoc =>
    if !allowance.cwndOpen || allowance.burstSpent || r.socket.sends.hasNewDataFor key then r
    else
      let cut := cutNewData assoc allowance
      let s := r.socket.setAssociation key cut.assoc
      let allowances := r.allowances.put key
        { allowance with rwndBlocked := allowance.rwndBlocked || cut.rwndBlocked }
      if cut.chunks.isEmpty then { r with socket := s, allowances := allowances }
      else
        { socket := s.enqueuePacket ⟨key, (cut.assoc.path (dataPath cut.assoc)).address,
            buildData s.localAddress.port key.address.port cut.assoc.peerVerTag cut.chunks⟩ .newData
          allowances := allowances
          cut := r.cut ++ cut.chunks.map (Prod.mk key) }
  | _, _ => r

/-- TSNs are assigned here rather than when the ULP sends, so a packet is cut against
the window as it stands. -/
def refillNewData (s : Socket) (allowances : SendAllowances) : Refill :=
  allowances.keys.foldl refillNewDataFor ⟨s, allowances, []⟩

/-- The first probe of a closed window goes one RTO after it is found closed with
nothing in flight. -/
def armZeroWindowProbe (s : Socket) (now : Time) (key : AssociationKey)
    (allowance : SendAllowance) : Socket :=
  let timer := timerOf key .zeroWindowProbe
  if !allowance.rwndBlocked || allowance.flightSize != 0 || s.expirations.isActive timer then s
  else
    match s.find? key with
    | none => s
    | some assoc =>
      if assoc.zeroWindowProbeAllowed then s
      else s.scheduleExpiration timer (now + usec (assoc.path (dataPath assoc)).rto) (noRetry key)

def armZeroWindowProbes (s : Socket) (now : Time) (allowances : SendAllowances) : Socket :=
  allowances.entries.foldl (fun s entry => s.armZeroWindowProbe now entry.1 entry.2) s

end Socket

/-- Sets the I bit on the last DATA chunk. -/
def setImmediate (chunks : List Chunk) : List Chunk :=
  match chunks with
  | [] => []
  | chunk :: rest =>
    if chunk.type = .data ∧ rest.all (fun c => decide (c.type ≠ .data)) then
      { chunk with flag := chunk.flag ||| dataImmediateSackFlag } :: rest
    else chunk :: setImmediate rest

def packetSize (packet : Packet) : Nat := ((serializeSctpPacket packet).getD []).length

namespace Socket

/-- The I bit goes on when the packet fills the congestion or receiver window, or in
SHUTDOWN-PENDING. A SACK being delayed is bundled, or sent on its own when there is no
room for it. What is built here always serializes. -/
def prepareDataPacket (s : Socket) (deliverable : Deliverable) (newData : Bool) :
    Socket × Deliverable :=
  let packet := deliverable.packet
  if !containsChunk packet .data then (s, deliverable)
  else
    let key := deliverable.location
    match s.find? key with
    | none => (s, deliverable)
    | some assoc =>
      let on := sentOn assoc deliverable.destination
      let dataSize := dataBytes packet
      let flightAfter := bytesInFlightOn assoc on + (if newData then dataSize else 0)
      let immediate := decide (flightAfter ≥ (assoc.path on).cwnd)
        || decide (dataSize ≥ assoc.peerRwnd) || decide (assoc.state = .shutdownPending)
      let packet := { packet with chunks := if immediate then setImmediate packet.chunks
        else packet.chunks }
      if !s.expirations.isActive (timerOf key .delayedSack) || !receivesData assoc.state then
        (s, { deliverable with packet := packet })
      else
        let (sack, updated) := s.makeSack key assoc
        let s := (s.setAssociation key updated).cancelExpiration (timerOf key .delayedSack)
        let sackSize := packetSize sack - sctpCommonHeaderSize
        if packetSize packet + sackSize ≤ sctpCommonHeaderSize + assoc.pmdcs then
          (s, { deliverable with packet := { packet with chunks := sack.chunks.take 1
            ++ packet.chunks } })
        else
          (s.enqueuePacket ⟨key, deliverable.destination, sack⟩ .control,
          { deliverable with packet := packet })

/-- What `next_packet` returns, with the chunks it cut on the way. -/
structure NextPacket where
  pending : Option Pending
  socket : Socket
  cut : List (AssociationKey × DataChunkValue)

/-- The next packet to put on the wire, if there is one. -/
def nextPacket (s : Socket) (now : Time) : NextPacket :=
  let (s, allowances) := s.sendAllowances now
  let s := s.refillRetransmissions allowances
  let refill := s.refillNewData allowances
  let (pending, sends, allowances) := refill.socket.sends.peek now refill.allowances
  let s := ({ refill.socket with sends := sends }).armZeroWindowProbes now allowances
  match pending with
  | none => ⟨none, s, refill.cut⟩
  | some pending =>
    if pending.priority = .control then ⟨some pending, s, refill.cut⟩
    else
      let (s, deliverable) := s.prepareDataPacket pending.deliverable
        (decide (pending.priority = .newData))
      ⟨some { pending with deliverable := deliverable }, s, refill.cut⟩

/-! ## After a packet went out -/

/-- The first timeout of T1, doubled once for every retransmission. -/
def backedOffT1 (retransmits : Nat) : Micros := min (1000000 * 2 ^ retransmits) rtoMax

/-- What a chunk on the wire arms or records. -/
def chunkSent (s : Socket) (deliverable : Deliverable) (sentAt : Time) (chunk : Chunk) : Socket :=
  let key := deliverable.location
  let armT1 (type : ExpirationTimerType) (expected : AssociationState) (retransmits : Association →
    Nat) : Socket :=
    match s.find? key with
    | none => s
    | some assoc =>
      if assoc.state ≠ expected then s
      else s.scheduleExpiration (timerOf key type) (sentAt + usec (backedOffT1 (retransmits assoc)))
        deliverable
  match chunk.value with
  | .heartbeat _ => s.recordHeartbeatSent key deliverable.destination sentAt
  | .data data => s.recordDataSent key deliverable.destination data sentAt
  | .init _ => armT1 .t1Init .cookieWait Association.initRetransmits
  | .cookieEcho _ => armT1 .t1Cookie .cookieEchoed Association.cookieRetransmits
  | _ => s

def scheduleExpirationsAfterSend (s : Socket) (deliverable : Deliverable) (sentAt : Time) :
    Socket :=
  let s := deliverable.packet.chunks.foldl (fun s chunk => s.chunkSent deliverable sentAt chunk) s
  if containsChunk deliverable.packet .data then
    s.startT3IfStopped sentAt deliverable.location deliverable.destination
  else s

def packetSent (s : Socket) (sentAt : Time) (pending : Pending) : Socket :=
  let s := { s with sends := s.sends.commit pending }
  let s := s.scheduleExpirationsAfterSend pending.deliverable sentAt
  if pending.priority ≠ .newData then s
  else s.updateAssociation pending.deliverable.location fun assoc =>
    { assoc with burstCount := assoc.burstCount + 1 }

/-- The queued copy of a packet never carries the SACK bundled into it, so a failed
send would otherwise lose that SACK. -/
def requeueBundledSack (s : Socket) (pending : Pending) : Socket :=
  match pending.deliverable.packet.chunks with
  | chunk :: _ =>
    if pending.priority = .control ∨ chunk.type ≠ .sack then s
    else
      s.enqueuePacket ⟨pending.deliverable.location, pending.deliverable.destination,
        { pending.deliverable.packet with chunks := [chunk] }⟩ .control
  | [] => s

/-- A packet the socket refused stays queued, and the queue backs off. -/
def packetRefused (s : Socket) (now : Time) (pending : Pending) : Socket :=
  ({ s with sends := s.sends.defer (now + msec sendRetryDelay) }).requeueBundledSack pending

/-! ## Expiry -/

/-- Every timer that is due, each with what the random generator returns for it. -/
def runExpire (s : Socket) (now : Time) (draws : Nat → Draws) : Socket :=
  let (expired, expirations) := s.expirations.drainExpired now
  expired.zipIdx.foldl (fun s (fallback, i) => s.handleExpiration now (draws i) fallback)
    { s with expirations := expirations }

end Socket

end SctpStack
