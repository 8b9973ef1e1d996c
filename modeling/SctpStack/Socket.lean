import SctpStack.SendQueue
import SctpStack.ReceiveQueue
import SctpStack.ExpirationQueue
import SctpStack.CookieAuth

/-!
# The socket

The state `SCTP_Socket` guards with its mutexes, and the helpers every handler
shares. A handler is a function on this state that runs to its end: what it does
under the association lock and after releasing it are one step. Maps the source
hashes are iterated in the order their keys came in.

The wakeups of the event loop and of waiting API calls carry no state and are left
out.
-/

namespace SctpStack

/-! ## Notifications -/

inductive NotificationType where
  | assocChange
  | remoteError
  | sendFailed
  | peerAddrChange
  | shutdownEvent
  | partialDeliveryEvent
deriving DecidableEq, Repr

inductive AssocChangeState where
  | commUp
  | commLost
  | restart
  | shutdownComp
  | cantStrAssoc
deriving DecidableEq, Repr

inductive PeerAddrState where
  | addrAvailable
  | addrUnreachable
  | addrConfirmed
deriving DecidableEq, Repr

inductive NotificationPayload where
  | assocChange (state : AssocChangeState)
  | remoteError (causes : List ErrorCause)
  | shutdownEvent
  | peerAddrChange (address : SockAddr) (state : PeerAddrState)
  | partialDeliveryEvent (stream : StreamId) (ssn : Ssn)
deriving DecidableEq, Repr

def NotificationPayload.type : NotificationPayload → NotificationType
  | .assocChange _ => .assocChange
  | .remoteError _ => .remoteError
  | .shutdownEvent => .shutdownEvent
  | .peerAddrChange _ _ => .peerAddrChange
  | .partialDeliveryEvent _ _ => .partialDeliveryEvent

structure Notification where
  src : AssociationKey
  sequenceNumber : Nat
  payload : NotificationPayload
deriving DecidableEq, Repr

structure NotificationQueue where
  queue : List Notification
  subscribed : List NotificationType
  nextSequenceNumber : Nat
  droppedCount : Nat
deriving DecidableEq, Repr

/-- Bounded by association lifetimes, so never dropped at the cap. -/
def isLifecycle : NotificationType → Bool
  | .assocChange | .shutdownEvent | .partialDeliveryEvent => true
  | _ => false

namespace NotificationQueue

def fresh : NotificationQueue := ⟨[], [.assocChange], 1, 0⟩

def enqueue (q : NotificationQueue) (src : AssociationKey) (payload : NotificationPayload) :
    NotificationQueue :=
  if payload.type ∉ q.subscribed then q
  else if q.queue.length ≥ maxQueuedNotifications ∧ isLifecycle payload.type = false then
    { q with droppedCount := q.droppedCount + 1 }
  else
    { q with
      queue := q.queue ++ [⟨src, q.nextSequenceNumber, payload⟩]
      nextSequenceNumber := q.nextSequenceNumber + 1 }

def dequeue (q : NotificationQueue) : Option Notification × NotificationQueue :=
  match q.queue with
  | [] => (none, q)
  | front :: rest => (some front, { q with queue := rest })

def setSubscribed (q : NotificationQueue) (type : NotificationType) (on : Bool) :
    NotificationQueue :=
  { q with
    subscribed := if on then type :: q.subscribed else q.subscribed.filter fun t =>
      decide (t ≠ type) }

end NotificationQueue

/-! ## State -/

structure Socket where
  localAddress : SockAddr
  running : Bool
  associations : KeyMap AssociationKey Association
  /-- A peer's transport addresses other than the one its association is keyed on. -/
  peerAddresses : KeyMap AssociationKey AssociationKey
  sends : SendQueue
  receives : ReceiveQueue
  expirations : ExpirationQueue
  notifications : NotificationQueue
  cookieAuthorizer : CookieAuth
deriving DecidableEq

/-- A socket bound to an address and running, before its first association. -/
def Socket.fresh (localAddress : SockAddr) : Socket where
  localAddress := localAddress
  running := true
  associations := ∅
  peerAddresses := ∅
  sends := .fresh
  receives := .fresh
  expirations := .fresh
  notifications := .fresh
  cookieAuthorizer := .fresh

/-- A timer kept per association. -/
def timerOf (key : AssociationKey) (type : ExpirationTimerType) : ExpirationKey :=
  ⟨key, type, ⟨⟨0#32, 0#16⟩⟩⟩

/-- A timer kept per destination. -/
def pathTimerOf (key : AssociationKey) (type : ExpirationTimerType) (destination : SockAddr) :
    ExpirationKey := ⟨key, type, pathKey destination⟩

/-- The fallback of a timer that retries nothing. -/
def noRetry (key : AssociationKey) : Deliverable := ⟨key, ⟨0#32, 0#16⟩, ⟨⟨0#16, 0#16, 0#32⟩, []⟩⟩

namespace Socket

def find? (s : Socket) (key : AssociationKey) : Option Association := s.associations.get? key

def setAssociation (s : Socket) (key : AssociationKey) (assoc : Association) : Socket :=
  { s with associations := s.associations.put key assoc }

def updateAssociation (s : Socket) (key : AssociationKey) (f : Association → Association) :
    Socket :=
  { s with associations := s.associations.modify key f }

def eraseAssociation (s : Socket) (key : AssociationKey) : Socket :=
  { s with associations := s.associations.erase key }

def enqueuePacket (s : Socket) (deliverable : Deliverable) (priority : SendPriority) : Socket :=
  { s with sends := s.sends.enqueue deliverable priority }

def scheduleExpiration (s : Socket) (timer : ExpirationKey) (expiration : Time)
    (retry : Deliverable) :
    Socket :=
  { s with expirations := s.expirations.schedule timer expiration retry }

def cancelExpiration (s : Socket) (timer : ExpirationKey) : Socket :=
  { s with expirations := s.expirations.cancel timer }

def cancelExpirations (s : Socket) (location : AssociationKey) : Socket :=
  { s with expirations := s.expirations.cancelAll location }

/-- `expirations.cancel_all(key, type)`. -/
def cancelExpirationsOfType (s : Socket) (location : AssociationKey) (type : ExpirationTimerType) :
    Socket :=
  { s with expirations := s.expirations.cancelAllOfType location type }

def purgeSends (s : Socket) (location : AssociationKey) : Socket :=
  { s with sends := s.sends.purge location }

def removeRetransmissionsOfType (s : Socket) (location : AssociationKey) (type : ChunkType)
    (destination : Option SockAddr) : Socket :=
  { s with sends := s.sends.removeRetransmissionsOfType location type destination }

def removeAckedRetransmissions (s : Socket) (location : AssociationKey) (sack : SackChunkValue) :
    Socket :=
  { s with sends := s.sends.removeAckedRetransmissions location sack }

def notify (s : Socket) (key : AssociationKey) (payload : NotificationPayload) : Socket :=
  { s with notifications := s.notifications.enqueue key payload }

def notifyAssocChange (s : Socket) (key : AssociationKey) (state : AssocChangeState) : Socket :=
  s.notify key (.assocChange state)

def notifyPeerAddrChange (s : Socket) (key : AssociationKey) (address : SockAddr)
    (state : PeerAddrState) :
    Socket :=
  s.notify key (.peerAddrChange { address with port := key.address.port } state)

def associationKeyFor (s : Socket) (peer : AssociationKey) : AssociationKey :=
  if s.associations.contains peer then peer else (s.peerAddresses.get? peer).getD peer

/-- `associations_mutex` is held: one address of `add_peer_addresses`. -/
def addPeerAddress (s : Socket) (key : AssociationKey) (address : SockAddr) : Socket :=
  let s := s.updateAssociation key fun assoc =>
    if findPath assoc address = none then
      { assoc with peerAddressList := assoc.peerAddressList
        ++ [makePath address false assoc.pmdcs] }
    else assoc
  if sameDestination address key.address then s
  else { s with peerAddresses := s.peerAddresses.emplace (peerKey address key.address.port) key }

/-- Appends the addresses the association lacks, as UNCONFIRMED, and maps each to `key`. -/
def addPeerAddresses (s : Socket) (key : AssociationKey) (addresses : List SockAddr) : Socket :=
  addresses.foldl (fun s address => s.addPeerAddress key address) s

def recordEncapsulationPort (s : Socket) (key : AssociationKey) (src : SockAddr) : Socket :=
  s.updateAssociation key fun assoc =>
    match findPath assoc src with
    | none => assoc
    | some i => assoc.modifyPath i fun path =>
        { path with address := { path.address with port := src.port } }

def forgetPeerAddresses (s : Socket) (key : AssociationKey) : Socket :=
  { s with
    peerAddresses := s.peerAddresses.filterMap fun _ owner =>
      if owner = key then none else some owner }

/-- For a TCB being discarded or reset. -/
def abandonPartialDelivery (s : Socket) (key : AssociationKey) (assoc : Association) : Socket :=
  if !assoc.reassembly.isOpen || !assoc.reassembly.partiallyDelivered then s
  else
    ({ s with receives := s.receives.abandonOpen key }).notify key
      (.partialDeliveryEvent assoc.reassembly.stream assoc.reassembly.ssn)

def detachReceives (s : Socket) (key : AssociationKey) : Socket :=
  { s with receives := s.receives.detach key }

def removeAssociation (s : Socket) (key : AssociationKey) : Socket :=
  let s :=
    match s.find? key with
    | none => s
    | some assoc => (s.abandonPartialDelivery key assoc).eraseAssociation key
  (((s.detachReceives key).forgetPeerAddresses key).cancelExpirations key).purgeSends key

end Socket

/-! ## New associations -/

/-- `init_new_association(destination)`: the initiator's TCB. -/
def initNewAssociation (draws : Draws) (destination : SockAddr) : Association :=
  { Association.blank with
    pmdcs := defaultPmdcs
    peerAddressList := [makePath destination true defaultPmdcs]
    primaryPath := destination
    state := .cookieWait
    thisVerTag := draws.tag
    nextTsn := draws.tsn
    cumulativeTsnAck := draws.tsn - 1#32
    outStreams := localOutStreams
    inStreams := localMaxInStreams
    nextSsn := List.replicate localOutStreams.toNat 0#16
    errorThreshold := associationMaxRetrans
    hbInterval := hbIntervalDefault
    ourRwnd := rwnd }

/-- The smaller of what the two ends offered. -/
def minStreams (a b : BitVec 16) : BitVec 16 := if b.toNat < a.toNat then b else a

/-- `init_new_association(cookie)`: the TCB a cookie describes. -/
def initNewAssociationFromCookie (cookie : StateCookie) : Association :=
  let outStreams := minStreams cookie.localOutStreams cookie.peerInStreams
  { Association.blank with
    pmdcs := defaultPmdcs
    peerAddressList := [makePath (cookieSource cookie) true defaultPmdcs]
    primaryPath := cookieSource cookie
    state := .established
    thisVerTag := cookie.localVerTag
    peerVerTag := cookie.peerVerTag
    nextTsn := cookie.localInitialTsn
    cumulativeTsnAck := cookie.localInitialTsn - 1#32
    lastPeerTsn := cookie.peerInitialTsn - 1#32
    peerRwnd := cookie.peerARwnd.toNat
    peerMaxRwnd := cookie.peerARwnd.toNat
    outStreams := outStreams
    inStreams := minStreams cookie.localInStreams cookie.peerOutStreams
    nextSsn := List.replicate outStreams.toNat 0#16
    errorThreshold := associationMaxRetrans
    hbInterval := hbIntervalDefault
    ourRwnd := rwnd }

/-! ## Packets sent in answer to one received -/

namespace Socket

/-- A reply takes its ports from the packet it answers. -/
def reply (s : Socket) (key : AssociationKey) (destination : SockAddr) (packet : Packet) : Socket :=
  s.enqueuePacket ⟨key, destination, packet⟩ .control

def sendCookieAck (s : Socket) (header : CommonHeader) (key : AssociationKey)
    (destination : SockAddr) (peerTag : Tag) : Socket :=
  s.reply key destination (buildCookieAck header.desPort header.srcPort peerTag)

def sendError (s : Socket) (header : CommonHeader) (key : AssociationKey) (destination : SockAddr)
    (peerTag : Tag) (causes : List ErrorCause) : Socket :=
  s.reply key destination (buildError header.desPort header.srcPort peerTag causes)

def sendStaleCookieError (s : Socket) (header : CommonHeader) (key : AssociationKey)
    (destination : SockAddr) (cookie : StateCookie) (stalenessUs : BitVec 32) : Socket :=
  s.sendError header key destination cookie.peerVerTag [staleCookieCause stalenessUs]

def sendAbort (s : Socket) (header : CommonHeader) (key : AssociationKey) (destination : SockAddr)
    (tag : Tag) (reflected : Bool) (causes : List ErrorCause) : Socket :=
  s.reply key destination (buildAbort header.desPort header.srcPort tag reflected causes)

/-- Tears the association down, then tells the peer: the purge of the teardown would
drop the ABORT. -/
def abortAssociation (s : Socket) (key : AssociationKey) (header : CommonHeader) (src : SockAddr)
    (causes : List ErrorCause) : Socket :=
  match s.find? key with
  | none => s
  | some assoc =>
    let destination := replyDestination assoc src
    let s := s.removeAssociation key
    let s :=
      if assoc.peerVerTag ≠ 0#32 then s.sendAbort header key destination assoc.peerVerTag false
        causes else s
    s.notifyAssocChange key (if forming assoc.state then .cantStrAssoc else .commLost)

end Socket

end SctpStack
