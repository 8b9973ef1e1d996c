import SctpStack.Timers

/-!
# The four-way handshake

INIT, INIT ACK, COOKIE ECHO and COOKIE ACK, with the collision and restart rules,
and the ERROR chunk that sends a handshake back to its start.
-/

namespace SctpStack

/-! ## Parameters and addresses -/

/-- Leading reports win: keeps as many as fit in `room`, each costing `perReport` on
top of its size. -/
def trimReports (room perReport : Nat) : Nat → List Bytes → List Bytes
  | _, [] => []
  | used, report :: rest =>
    let used := used + (perReport + report.length)
    if used > room then [] else report :: trimReports room perReport used rest

def scanInit (init : InitChunkValue) : ParameterScan :=
  scanParameters init.optionalParameters
    [paramIpv4Address, paramIpv6Address, paramCookiePreservative, paramHostNameAddress,
      paramSupportedAddressTypes]

def scanInitAck (initAck : InitChunkValue) : ParameterScan :=
  scanParameters initAck.optionalParameters
    [paramStateCookie, paramIpv4Address, paramIpv6Address, paramUnrecognized, paramHostNameAddress]

/-- The source address first, then each IPv4 Address parameter once, all with the
source's UDP port. -/
def transportAddresses (src : SockAddr) (recognized : Bytes) : List SockAddr :=
  (findIpv4Addresses recognized).foldl
    (fun out address =>
      let listed : SockAddr := { src with addr := address }
      if out.any fun seen => sameDestination seen listed then out else out ++ [listed])
    [src]

/-- What an INIT or INIT ACK leading the packet would make the peer's addresses. -/
def initAddresses (packet : Packet) (src : SockAddr) : List SockAddr :=
  match packet.chunks with
  | ⟨_, .init init⟩ :: _ => transportAddresses src (scanInit init).recognized
  | ⟨_, .initAck initAck⟩ :: _ => transportAddresses src (scanInitAck initAck).recognized
  | _ => []

/-- A copy of each IPv4 Address parameter that was new. -/
def newAddressCauses (added : List SockAddr) (recognized : Bytes) : List ErrorCause :=
  let listed := findIpv4Addresses recognized
  let info := added.flatMap fun address =>
    if address.addr ∈ listed then (appendParameter paramIpv4Address (append32 address.addr)).getD []
      else []
  if info.isEmpty then [] else [⟨causeRestartWithNewAddresses, info⟩]

def cookieAddresses (cookie : StateCookie) : List SockAddr :=
  cookieSource cookie :: cookie.peerAddresses.map fun address =>
    { cookieSource cookie with addr := address }

/-! ## INIT -/

/-- What an INIT is answered with: the tag and TSN this end offers, the Tie-Tags, and
where the INIT ACK goes. -/
structure InitAnswer where
  localTag : Tag
  localTsn : Tsn
  localTieTag : Tag
  peerTieTag : Tag
  destination : SockAddr
deriving DecidableEq

/-- The association with Tie-Tags, drawn the first time they are needed. -/
def withTieTags (draws : Draws) (assoc : Association) : Association :=
  if assoc.localTieTag = 0#32 then
    { assoc with localTieTag := draws.localTieTag, peerTieTag := draws.peerTieTag }
  else assoc

namespace Socket

/-- The INIT ACK for a tag and TSN, under a cookie that describes the association. -/
def sendInitAck (s : Socket) (now : Time) (draws : Draws) (header : CommonHeader)
    (init : InitChunkValue) (key : AssociationKey) (src : SockAddr) (answer : InitAnswer) :
    Socket :=
  let params := scanInit init
  let lifespanIncrementMs :=
    match findParameter params.recognized paramCookiePreservative with
    | some preservative => if preservative.length = 4 then readBe32 preservative else 0#32
    | none => 0#32
  let otherAddresses := ((transportAddresses src params.recognized).drop 1).map SockAddr.addr
  let (auth, cookie) := s.cookieAuthorizer.generate now draws.secret header init src answer.localTag
    answer.localTsn answer.localTieTag answer.peerTieTag lifespanIncrementMs otherAddresses
  let s := { s with cookieAuthorizer := auth }
  let initAckSize := sctpChunkHeaderSize + 16 + sctpChunkHeaderSize + pad4 cookie.length
  let reports := trimReports (defaultPmdcs - min defaultPmdcs initAckSize) sctpChunkHeaderSize
    0 params.reported
  match buildInitAck header.desPort header.srcPort init.initiateTag answer.localTag answer.localTsn
    cookie
      reports with
  | none => s
  | some packet => s.reply key answer.destination packet

/-- An INIT past its checks. One for an association being closed is answered with the
SHUTDOWN ACK again; a TCB already held survives, since an INIT carries no proof of
origin. -/
def answerInit (s : Socket) (now : Time) (draws : Draws) (header : CommonHeader)
    (init : InitChunkValue) (key : AssociationKey) (src : SockAddr) : Socket :=
  let drawn : InitAnswer := ⟨draws.tag, draws.tsn, 0#32, 0#32, src⟩
  match s.find? key with
  | none => s.sendInitAck now draws header init key src drawn
  | some assoc =>
    if assoc.state = .shutdownAckSent then
      s.reply key (replyDestination assoc src)
      (buildShutdownAck header.desPort header.srcPort assoc.peerVerTag)
    else if assoc.state = .cookieWait then
      s.sendInitAck now draws header init key src
        { drawn with
          localTag := assoc.thisVerTag
          localTsn := assoc.nextTsn
          destination := (assoc.path (primary assoc)).address }
    else
      let recognized := (scanInit init).recognized
      let added := (transportAddresses src recognized).filter fun address =>
        (findPath assoc address).isNone
      if !added.isEmpty then
        s.sendAbort header key src init.initiateTag false (newAddressCauses added recognized)
      else
        let assoc := withTieTags draws assoc
        let tied := { drawn with localTieTag := assoc.localTieTag, peerTieTag := assoc.peerTieTag }
        (s.setAssociation key assoc).sendInitAck now draws header init key src
          (if assoc.state = .cookieEchoed then
            { tied with localTag := assoc.thisVerTag, localTsn := assoc.nextTsn }
          else tied)

def handleInit (s : Socket) (now : Time) (draws : Draws) (header : CommonHeader)
    (init : InitChunkValue) (key : AssociationKey) (src : SockAddr) : Socket :=
  if init.initiateTag = 0#32 then
    s.sendAbort header key src header.verificationTag true [⟨causeInvalidMandatoryParam, []⟩]
  else if init.outStreams = 0#16 ∨ init.inStreams = 0#16 then
    s.sendAbort header key src init.initiateTag false [⟨causeInvalidMandatoryParam, []⟩]
  else
    match findParameter (scanInit init).recognized paramHostNameAddress with
    | some hostName =>
      s.sendAbort header key src init.initiateTag false [unresolvableAddressCause hostName]
    | none => s.answerInit now draws header init key src

/-! ## INIT ACK -/

/-- The handshake fails on an INIT ACK: the TCB goes, and the peer is told why. -/
def refuseInitAck (s : Socket) (header : CommonHeader) (key : AssociationKey) (src : SockAddr)
    (tag : Tag) (reflected : Bool) (cause : ErrorCause) : Socket :=
  ((s.removeAssociation key).sendAbort header key src tag reflected [cause]).notifyAssocChange
    key .cantStrAssoc

/-- The peer's parameters taken from its INIT ACK; the cookie is echoed. -/
def acceptInitAck (s : Socket) (header : CommonHeader) (initAck : InitChunkValue)
    (key : AssociationKey) (src : SockAddr) (cookie : Bytes) : Socket :=
  let params := scanInitAck initAck
  let s := s.addPeerAddresses key (transportAddresses src params.recognized)
  match s.find? key with
  | none => s
  | some assoc =>
    let destination := replyDestination assoc src
    let outStreams := minStreams localOutStreams initAck.inStreams
    let room := assoc.pmdcs - min assoc.pmdcs (3 * sctpChunkHeaderSize + pad4 cookie.length)
    let s := s.setAssociation key { assoc with
      lastPeerTsn := initAck.initialTsn - 1#32
      peerVerTag := initAck.initiateTag
      peerRwnd := initAck.aRwnd.toNat
      peerMaxRwnd := initAck.aRwnd.toNat
      outStreams := outStreams
      inStreams := minStreams localMaxInStreams initAck.outStreams
      nextSsn := List.replicate outStreams.toNat 0#16
      state := .cookieEchoed }
    let s := s.cancelExpiration (timerOf key .t1Init)
    let s := s.removeRetransmissionsOfType key .init none
    let reports := trimReports room 0 0 params.reported
    let errors : List ErrorCause :=
      if reports.isEmpty then [] else [⟨causeUnrecognizedParams, reports.flatten⟩]
    s.reply key destination
      (buildCookieEcho header.desPort header.srcPort initAck.initiateTag cookie errors)

def handleInitAck (s : Socket) (header : CommonHeader) (initAck : InitChunkValue)
    (key : AssociationKey) (src : SockAddr) : Socket :=
  match s.find? key with
  | none => s
  | some assoc =>
    if assoc.state ≠ .cookieWait then s
    else if initAck.initiateTag = 0#32 then
      s.refuseInitAck header key src header.verificationTag true ⟨causeInvalidMandatoryParam, []⟩
    else
      let recognized := (scanInitAck initAck).recognized
      match findParameter recognized paramStateCookie with
      | none =>
        s.refuseInitAck header key src initAck.initiateTag false
          (missingParameterCause paramStateCookie)
      | some cookie =>
        if initAck.outStreams = 0#16 ∨ initAck.inStreams = 0#16 then
          s.refuseInitAck header key src initAck.initiateTag false ⟨causeInvalidMandatoryParam, []⟩
        else
          match findParameter recognized paramHostNameAddress with
          | some hostName =>
            s.refuseInitAck header key src initAck.initiateTag false
              (unresolvableAddressCause hostName)
          | none => s.acceptInitAck header initAck key src cookie

/-! ## COOKIE ECHO -/

/-- A TCB made from a cookie, for a peer that has none here. -/
def createFromCookie (s : Socket) (now : Time) (draws : Draws) (header : CommonHeader)
    (key : AssociationKey) (src : SockAddr) (cookie : StateCookie) : Socket :=
  let s := s.setAssociation key (initNewAssociationFromCookie cookie)
  let s := s.addPeerAddresses key (cookieAddresses cookie)
  let s := s.notifyAssocChange key .commUp
  let s := s.startHeartbeats now draws key
  match s.find? key with
  | none => s
  | some assoc => s.sendCookieAck header key (replyDestination assoc src) cookie.peerVerTag

/-- The end of every accepting branch for an existing TCB. -/
def finishCookieEcho (s : Socket) (header : CommonHeader) (key : AssociationKey)
    (destination : SockAddr) (cookie : StateCookie) : Socket :=
  let s := s.cancelExpiration (timerOf key .t1Init)
  let s := s.cancelExpiration (timerOf key .t1Cookie)
  let s := s.removeRetransmissionsOfType key .init none
  let s := s.removeRetransmissionsOfType key .cookieEcho none
  s.sendCookieAck header key destination cookie.peerVerTag

/-- Action A: the peer restarted. -/
def restartFromCookie (s : Socket) (now : Time) (draws : Draws) (key : AssociationKey)
    (tcb : Association) (cookie : StateCookie) : Socket :=
  let s := s.cancelExpirations key
  let s := s.purgeSends key
  let s := s.forgetPeerAddresses key
  let s := s.abandonPartialDelivery key tcb
  let s := s.detachReceives key
  let s := s.setAssociation key (initNewAssociationFromCookie cookie)
  let s := s.addPeerAddresses key (cookieAddresses cookie)
  let s := s.notifyAssocChange key .restart
  s.startHeartbeats now draws key

/-- The association comes up, unless it is past that. -/
def bringUp (s : Socket) (now : Time) (draws : Draws) (key : AssociationKey) : Socket :=
  let s := s.updateAssociation key fun assoc => { assoc with state := .established }
  let s := s.notifyAssocChange key .commUp
  s.startHeartbeats now draws key

/-- Action B: collision, the peer's tag is new or not yet known. -/
def collideWithCookie (s : Socket) (now : Time) (draws : Draws) (key : AssociationKey)
    (tcb : Association) (cookie : StateCookie) : Socket :=
  let s := s.addPeerAddresses key (cookieAddresses cookie)
  let s := s.abandonPartialDelivery key tcb
  let s := s.updateAssociation key fun assoc => { assoc with
    peerVerTag := cookie.peerVerTag
    lastPeerTsn := cookie.peerInitialTsn - 1#32
    peerRwnd := cookie.peerARwnd.toNat
    peerMaxRwnd := cookie.peerARwnd.toNat
    tsnOooBuffer := ∅
    reassembly := .closed
    inboundStreams := ∅
    heldDeliveries := []
    duplicateTsns := [] }
  if forming tcb.state then s.bringUp now draws key
  else if transmitsData tcb.state then s.armConfirmationProbes now key
  else s

/-- The collision and restart table, for a cookie that verified. A zero Tie-Tag means
"none" and never matches. -/
def acceptCookie (s : Socket) (now : Time) (draws : Draws) (header : CommonHeader)
    (key : AssociationKey) (src : SockAddr) (tcb : Association) (cookie : StateCookie) :
    Bool × Socket :=
  let localMatch := decide (cookie.localVerTag = tcb.thisVerTag)
  let peerMatch := decide (cookie.peerVerTag = tcb.peerVerTag)
  let tieTagsMatch := decide (cookie.localTieTag ≠ 0#32 ∧ cookie.localTieTag = tcb.localTieTag
    ∧ cookie.peerTieTag = tcb.peerTieTag)
  let destination := replyDestination tcb src
  if localMatch && peerMatch then
    let s := if tcb.state = .cookieEchoed then s.bringUp now draws key else s
    (true, s.finishCookieEcho header key destination cookie)
  else if !localMatch && !peerMatch && tieTagsMatch then
    if tcb.state = .shutdownAckSent then
      let s := s.reply key destination
        (buildShutdownAck header.desPort header.srcPort tcb.peerVerTag)
      (false, s.sendError header key destination cookie.peerVerTag
        [⟨causeCookieWhileShuttingDown, []⟩])
    else
      let s := s.restartFromCookie now draws key tcb cookie
      let destination := (s.find? key).elim destination fun assoc => replyDestination assoc src
      (true, s.finishCookieEcho header key destination cookie)
  else if localMatch then
    let s := s.collideWithCookie now draws key tcb cookie
    (true, s.finishCookieEcho header key destination cookie)
  else (false, s)

/-- Whether the cookie was accepted, the association it names, and the socket. A stale
cookie whose tags both match is a retransmission. -/
def handleCookieEcho (s : Socket) (now : Time) (draws : Draws) (header : CommonHeader)
    (cookieData : Bytes) (key : AssociationKey) (src : SockAddr) : Bool × AssociationKey × Socket :=
  match s.cookieAuthorizer.verify now cookieData header src with
  | .valid cookie =>
    let key := s.associationKeyFor (cookieKey cookie)
    match s.find? key with
    | none => (true, key, s.createFromCookie now draws header key src cookie)
    | some tcb =>
      let (accepted, s) := s.acceptCookie now draws header key src tcb cookie
      (accepted, key, s)
  | .stale cookie stalenessUs =>
    let key := s.associationKeyFor (cookieKey cookie)
    match s.find? key with
    | none => (false, key, s.sendStaleCookieError header key src cookie stalenessUs)
    | some tcb =>
      if cookie.localVerTag = tcb.thisVerTag ∧ cookie.peerVerTag = tcb.peerVerTag then
        let (accepted, s) := s.acceptCookie now draws header key src tcb cookie
        (accepted, key, s)
      else
        (false, key, s.sendStaleCookieError header key (replyDestination tcb src)
          cookie stalenessUs)
  | _ => (false, key, s)

def handleCookieAck (s : Socket) (now : Time) (draws : Draws) (key : AssociationKey) : Socket :=
  match s.find? key with
  | none => s
  | some assoc =>
    if assoc.state ≠ .cookieEchoed then s
    else
      ((s.bringUp now draws key).cancelExpiration
        (timerOf key .t1Cookie)).removeRetransmissionsOfType key .cookieEcho none

/-! ## ERROR -/

/-- What the first usable Stale Cookie cause of an ERROR does to a handshake. -/
inductive StaleCookieOutcome where
  | ignored
  | retry (stalenessUs : BitVec 32)
  | failed
deriving DecidableEq

def staleCookieOutcome (assoc : Association) (causes : List ErrorCause) : StaleCookieOutcome :=
  if assoc.state ≠ .cookieEchoed then .ignored
  else
    match causes.find? fun cause => cause.code == causeStaleCookie && cause.info.length == 4 with
    | none => .ignored
    | some cause =>
      if assoc.staleCookieRetries ≥ maxStaleCookieRetries then .failed
        else .retry (readBe32 cause.info)

/-- Twice the staleness, in milliseconds, the second half no more than a second. -/
def cookiePreservative (stalenessUs : BitVec 32) : BitVec 32 :=
  let stalenessMs := stalenessUs / 1000#32 + 1#32
  stalenessMs + (if 1000 < stalenessMs.toNat then 1000#32 else stalenessMs)

def handleError (s : Socket) (causes : List ErrorCause) (key : AssociationKey) : Socket :=
  if causes.isEmpty then s
  else
    match s.find? key with
    | none => s
    | some assoc =>
      match staleCookieOutcome assoc causes with
      | .ignored => s.notify key (.remoteError causes)
      | .retry stalenessUs =>
        let s := s.setAssociation key { assoc with
          staleCookieRetries := assoc.staleCookieRetries + 1
          state := .cookieWait
          peerVerTag := 0#32
          initRetransmits := 0
          cookieRetransmits := 0 }
        let s := s.cancelExpiration (timerOf key .t1Cookie)
        let s := s.removeRetransmissionsOfType key .cookieEcho none
        s.enqueuePacket ⟨key, (assoc.path (primary assoc)).address, buildInit s.localAddress.port
          key.address.port assoc.thisVerTag assoc.nextTsn (cookiePreservative stalenessUs)⟩ .control
      | .failed =>
        let s := s.cancelExpiration (timerOf key .t1Cookie)
        let s := s.removeRetransmissionsOfType key .cookieEcho none
        (s.removeAssociation key).notifyAssocChange key .cantStrAssoc

end Socket

end SctpStack
