import SctpStack.EventLoop

/-!
# The calls of the application

`socket_api.cpp`. A call that waits is the attempt it ends with: the state it sees
when the wait is over.
-/

namespace SctpStack

namespace Socket

/-- `port` is the peer's SCTP port, and `toAddress` where it is reached over UDP. -/
def sctpAssociate (s : Socket) (draws : Draws) (toAddress : SockAddr) (port : Port) :
    SctpStatus × Socket :=
  if !s.running then (.notRunning, s)
  else
    let key := peerKey toAddress port
    if s.associations.contains (s.associationKeyFor key) then (.associationExists, s)
    else
      let assoc := initNewAssociation draws toAddress
      let s := { s with associations := s.associations.emplace key assoc }
      (.ok, s.enqueuePacket ⟨key, assoc.primaryPath, buildInit s.localAddress.port key.address.port
        assoc.thisVerTag assoc.nextTsn 0#32⟩ .control)

def sctpSendData (s : Socket) (key : AssociationKey) (data : Bytes) (stream : StreamId)
    (unordered : Bool) :
    SctpStatus × Socket :=
  match s.find? key with
  | none => (.noAssociation, s)
  | some assoc =>
    if sendStatus assoc data stream = .ok then
      (.ok, s.setAssociation key (queueMessage assoc data stream unordered))
    else (sendStatus assoc data stream, s)

/-- The queued DATA is purged first: it must not accompany the ABORT. In COOKIE_WAIT
there is no tag the peer would accept the ABORT under. -/
def sctpAbort (s : Socket) (key : AssociationKey) (reason : Bytes) : SctpStatus × Socket :=
  match s.find? key with
  | none => (.noAssociation, s)
  | some assoc =>
    let s := s.removeAssociation key
    if assoc.peerVerTag = 0#32 then (.ok, s)
    else
      let reason := reason.take (min reason.length (assoc.pmdcs - 2 * sctpChunkHeaderSize))
      (.ok, s.enqueuePacket ⟨key, (assoc.path (dataPath assoc)).address,
      buildAbort s.localAddress.port
        key.address.port assoc.peerVerTag false [⟨causeUserInitiatedAbort, reason⟩]⟩ .control)

def sctpRecvData (s : Socket) (capacity : Nat) : Option Read × Socket :=
  match s.receives.readAny capacity with
  | (none, receives) => (none, { s with receives := receives })
  | (some read, receives) => (some read,
      ({ s with receives := receives }).maybeSendWindowUpdate read.key)

def sctpRecvDataFrom (s : Socket) (key : AssociationKey) (capacity : Nat) : Option Read × Socket :=
  match s.receives.readFrom key capacity with
  | (none, receives) => (none, { s with receives := receives })
  | (some read, receives) => (some read,
      ({ s with receives := receives }).maybeSendWindowUpdate key)

/-- Before COMMUNICATION UP there is nothing to close gracefully: the TCB goes without
a word to the peer. -/
def sctpShutdown (s : Socket) (now : Time) (key : AssociationKey) : SctpStatus × Socket :=
  match s.find? key with
  | none => (.noAssociation, s)
  | some assoc =>
    if forming assoc.state then
      (.ok, (((s.eraseAssociation key).forgetPeerAddresses key).cancelExpirations key).purgeSends
        key)
    else if assoc.state = .established then
      (.ok, (s.setAssociation key { assoc with state := .shutdownPending }).doNextShutdownStep
        now key)
    else (.shuttingDown, s)

/-- A path of `sctp_change_heartbeat` whose settings changed. -/
def replanHeartbeat (s : Socket) (now : Time) (draws : Draws) (key : AssociationKey) (i : Nat) :
    Socket :=
  match s.find? key with
  | none => s
  | some assoc =>
    (if (assoc.path i).hbOutstanding then s else s.planProbe now draws key i).armHeartbeat key i

/-- A new interval, in milliseconds, applies to every destination of the association. -/
def sctpChangeHeartbeat (s : Socket) (now : Time) (draws : Draws) (key : AssociationKey)
    (destination : SockAddr) (enabled : Bool) (interval : Option Int) : SctpStatus × Socket :=
  match s.find? key with
  | none => (.noAssociation, s)
  | some assoc =>
    match findPath assoc destination with
    | none => (.unknownDestination, s)
    | some changed =>
      let s := s.updateAssociation key fun assoc =>
        { assoc.modifyPath changed fun path => { path with hbEnabled := enabled } with
          hbInterval := interval.getD assoc.hbInterval }
      if !transmitsData assoc.state then (.ok, s)
      else
        let paths := (List.range assoc.peerAddressList.length).filter fun i => i == changed
          || interval.isSome
        (.ok, (paths.foldl (fun s i => s.replanHeartbeat now draws key i) s).armConfirmationProbes
          now key)

def sctpRequestHeartbeat (s : Socket) (now : Time) (draws : Draws) (key : AssociationKey)
    (destination : SockAddr) : SctpStatus × Socket :=
  match s.find? key with
  | none => (.noAssociation, s)
  | some assoc =>
    match findPath assoc destination with
    | none => (.unknownDestination, s)
    | some i =>
      if !transmitsData assoc.state then (refusalIn assoc.state, s)
      else
        let (s, probe) := s.buildProbe now draws key assoc i
        (.ok, (s.armHeartbeat key i).enqueuePacket probe .control)

def sctpSetPrimary (s : Socket) (key : AssociationKey) (destination : SockAddr) :
    SctpStatus × Socket :=
  match s.find? key with
  | none => (.noAssociation, s)
  | some assoc =>
    match findPath assoc destination with
    | none => (.unknownDestination, s)
    | some i =>
      if !(assoc.path i).confirmed then (.unconfirmedDestination, s)
      else (.ok, s.setAssociation key { assoc with primaryPath := (assoc.path i).address })

def sctpSubscribe (s : Socket) (type : NotificationType) (on : Bool) : Socket :=
  { s with notifications := s.notifications.setSubscribed type on }

def sctpRecvNotification (s : Socket) : Option Notification × Socket :=
  let (front, notifications) := s.notifications.dequeue
  (front, { s with notifications := notifications })

end Socket

end SctpStack
