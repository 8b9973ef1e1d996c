import SctpStack.WaysIn
import SctpStack.Tidy
import SctpStack.Lib.Retry

/-!
# What is done for one association

Whatever a handler does to a socket, it does for the association under one key, in small
deeds: it changes the TCB, queues a packet, sets or stops a timer, tells the ULP
something, hands up data. A deed says what it touches, and where a packet it queues goes
(`Deed`). Everything a handler does is a sequence of deeds for its key (`Deeds`), so
what every deed keeps, every handler keeps.
-/

namespace SctpStack

/-! ## Confirmed addresses -/

/-- The addresses of an association, each with whether it is confirmed. -/
def Association.marks (a : Association) : List (BitVec 32 × Bool) :=
  a.peerAddressList.map fun path => (path.address.addr, path.confirmed)

/-- The address is that of a confirmed path. -/
def Confirmed (a : Association) (address : SockAddr) :
    Prop := a.marks.lookup address.addr = some true

/-- No two addresses are the same, the primary path is confirmed, and so is every path
DATA is outstanding on. -/
structure Sound (a : Association) : Prop where
  distinct : (a.marks.map Prod.fst).Nodup
  primary : Confirmed a a.primaryPath
  outstanding : ∀ tsn o, a.outstandingData.get? tsn = some o → Confirmed a o.destination

/-- Nothing but unconfirmed addresses was added. -/
def Listed (a b : Association) : Prop := ∃ more, b.marks = a.marks ++ more ∧ ∀ m ∈ more, m.2 = false

/-- The chunks that only go to a confirmed address of an association. -/
def needsConfirmed : ChunkType → Bool
  | .data | .sack | .cookieEcho | .cookieAck | .shutdown | .shutdownAck | .opError => true
  | _ => false

/-- The packet carries such a chunk. -/
def guarded (packet : Packet) : Bool := packet.chunks.any fun chunk => needsConfirmed chunk.type

/-! ## The handshake -/

/-- The exchange of INIT and COOKIE ECHO, as long as the association waits for an answer. -/
def Association.exchange (a : Association) : Option Retry.Exchange :=
  match a.state with
  | .cookieWait => some ⟨false, a.initRetransmits, a.cookieRetransmits, a.staleCookieRetries⟩
  | .cookieEchoed => some ⟨true, a.initRetransmits, a.cookieRetransmits, a.staleCookieRetries⟩
  | _ => none

abbrev HandshakeStep : Retry.Exchange → Retry.Exchange → Prop :=
  Retry.Exchange.Step maxInitRetransmits maxStaleCookieRetries

abbrev HandshakeCourse : Retry.Exchange → Retry.Exchange → Prop :=
  Retry.Exchange.Course maxInitRetransmits maxStaleCookieRetries

/-- Both associations are up, or the handshake went on from the one to the other. -/
abbrev Handshakes (a b : Association) : Prop := Option.Rel HandshakeCourse a.exchange b.exchange

section Handshakes

variable {a b c : Association}

theorem isSome_exchange (a : Association) : a.exchange.isSome = forming a.state := by
  unfold Association.exchange
  cases a.state <;> rfl

theorem exchange_of_waiting (waits : a.state = .cookieWait) :
    a.exchange = some ⟨false, a.initRetransmits, a.cookieRetransmits, a.staleCookieRetries⟩ := by
  unfold Association.exchange
  rw [waits]

theorem exchange_of_echoed (echoed : a.state = .cookieEchoed) :
    a.exchange = some ⟨true, a.initRetransmits, a.cookieRetransmits, a.staleCookieRetries⟩ := by
  unfold Association.exchange
  rw [echoed]

theorem exchange_of_up (up : forming a.state = false) : a.exchange = none := by
  rw [← Option.not_isSome_iff_eq_none, isSome_exchange, up]
  exact Bool.false_ne_true

theorem Handshakes.of_eq (same : b.exchange = a.exchange) : Handshakes a b := by
  unfold Handshakes
  rw [same]
  cases a.exchange with
  | none => exact .none
  | some x => exact .some .refl

theorem Handshakes.trans (first : Handshakes a b) (second : Handshakes b c) : Handshakes a c := by
  unfold Handshakes at first second ⊢
  revert first second
  generalize a.exchange = x, b.exchange = y, c.exchange = z
  rintro (course | _) (course' | _)
  · exact .some (Relation.ReflTransGen.trans course course')
  · exact .none

theorem Handshakes.step {x y : Retry.Exchange} (before : a.exchange = some x)
    (step : HandshakeStep x y) (after : b.exchange = some y) : Handshakes a b := by
  unfold Handshakes
  rw [before, after]
  exact .some (.single step)

/-- The request T1 waits for an answer to was sent again, and counted. -/
def Association.resent (isInit : Bool) (a : Association) : Association :=
  if isInit then { a with initRetransmits := a.initRetransmits + 1 }
    else { a with cookieRetransmits := a.cookieRetransmits + 1 }

theorem exchange_resent {isInit : Bool}
    (state : a.state = if isInit then .cookieWait else .cookieEchoed)
    (left : (if isInit then a.initRetransmits else a.cookieRetransmits) < maxInitRetransmits) :
    ∃ x y, a.exchange = some x ∧ (a.resent isInit).exchange = some y ∧ HandshakeStep x y
      ∧ y.weight maxInitRetransmits = x.weight maxInitRetransmits + 1 := by
  cases isInit with
  | true =>
    refine ⟨_, _, exchange_of_waiting state, exchange_of_waiting state, .firstAgain rfl left, ?_⟩
    exact congrArg (_ + ·) (Nat.succ_add _ _)
  | false =>
    exact ⟨_, _, exchange_of_echoed state, exchange_of_echoed state, .secondAgain rfl left, rfl⟩

theorem forming_of_exchange (same : b.exchange = a.exchange) :
    forming b.state = forming a.state := by
  rw [← isSome_exchange, ← isSome_exchange, same]

end Handshakes

/-! ## Changes to a TCB -/

/-- The TCB is still that of the same association, as far up as it was. -/
structure Follows (a b : Association) : Prop where
  thisVerTag : b.thisVerTag = a.thisVerTag
  localTieTag : b.localTieTag = a.localTieTag
  peerTieTag : b.peerTieTag = a.peerTieTag
  handshakes : Handshakes a b
  listed : Listed a b
  sound : Sound a → Sound b
  tidy : Tidy a → Tidy b

theorem Follows.forming {a b : Association} (follows : Follows a b) :
    forming b.state = forming a.state := by
  have both := follows.handshakes
  unfold Handshakes at both
  rw [← isSome_exchange, ← isSome_exchange]
  revert both
  generalize a.exchange = x, b.exchange = y
  rintro (course | _) <;> rfl

/-- What is probed of an address: whether it waits to be confirmed, and whether a heartbeat
is out. -/
structure Probe where
  ip : BitVec 32
  waits : Bool
  out : Bool
deriving DecidableEq

def PeerPath.probe (path : PeerPath) : Probe :=
  ⟨path.address.addr, path.probing, path.hbOutstanding⟩

def Association.probes (a : Association) : List Probe := a.peerAddressList.map PeerPath.probe

/-- An association that transmits did so before, and what is probed is as it was. -/
def Spares (a b : Association) : Prop :=
  transmitsData b.state = true → transmitsData a.state = true ∧ b.probes = a.probes

/-- The peer is the same, and nothing more was received from it. -/
structure Heeds (a b : Association) : Prop where
  lastPeerTsn : b.lastPeerTsn = a.lastPeerTsn
  peerVerTag : b.peerVerTag = a.peerVerTag

/-- A change that is not about what was received. -/
structure Succeeds (a b : Association) : Prop extends Follows a b where
  partially : partialDeliveryOpen b = partialDeliveryOpen a
  heeds : forming a.state = false → Heeds a b

/-- What a HEARTBEAT ACK has to say to confirm the path at an index. -/
structure Heard (info : Bytes) (a : Association) (i : Nat) : Prop where
  size : info.length = heartbeatInfoSize
  destination : findPath a (heartbeatInfoDestination info) = some i
  outstanding : (a.path i).hbOutstanding = true
  nonce : heartbeatInfoNonce info = (a.path i).hbNonce

/-- The path at an index is confirmed, and the rest follows. -/
structure Credited (i : Nat) (a b : Association) : Prop where
  thisVerTag : b.thisVerTag = a.thisVerTag
  localTieTag : b.localTieTag = a.localTieTag
  peerTieTag : b.peerTieTag = a.peerTieTag
  state : b.state = a.state
  exchange : b.exchange = a.exchange
  partially : partialDeliveryOpen b = partialDeliveryOpen a
  primaryPath : b.primaryPath = a.primaryPath
  outstanding : b.outstandingData = a.outstandingData
  tidy : Tidy a → Tidy b
  heeds : Heeds a b
  marks : b.marks = a.marks.modify i fun mark => (mark.1, true)

/-- A TCB just set up. -/
structure Begins (a : Association) : Prop where
  localTieTag : a.localTieTag = 0#32
  partially : partialDeliveryOpen a = false
  marks : a.marks = [(a.primaryPath.addr, true)]
  sound : Sound a
  tidy : Tidy a

/-- The last word about an association that ends. -/
def Ends (state : AssociationState) (told : AssocChangeState) : Prop :=
  if forming state then told = .cantStrAssoc else told = .commLost ∨ told = .shutdownComp

/-- What is told of an association between its beginning and its end. -/
def isNote : NotificationPayload → Bool
  | .remoteError _ | .shutdownEvent | .peerAddrChange _ _ => true
  | _ => false

/-! ## Deeds -/

namespace Socket

/-- What every end of an association has in common. -/
def tearDown (s : Socket) (key : AssociationKey) : Socket :=
  (((s.eraseAssociation key).forgetPeerAddresses key).cancelExpirations key).purgeSends key

end Socket

/-- T1 goes off: it is none of its business, the attempt is over, or the packet is sent
again. -/
theorem handleT1Expiration_cases (s : Socket) (key : AssociationKey) (isInit : Bool)
    (retry : Deliverable) :
    (∀ a, s.find? key = some a → a.state ≠ openingState isInit)
      ∧ s.handleT1Expiration key isInit retry = s
      ∨ ∃ a, s.find? key = some a ∧ a.state = openingState isInit
        ∧ (s.handleT1Expiration key isInit retry
          = (s.tearDown key).notifyAssocChange key .cantStrAssoc
          ∨ (if isInit then a.initRetransmits else a.cookieRetransmits) < maxInitRetransmits
            ∧ s.handleT1Expiration key isInit retry
              = (s.setAssociation key (a.resent isInit)).enqueuePacket retry .retransmission) := by
  unfold Socket.handleT1Expiration
  cases found : s.find? key with
  | none =>
    refine Or.inl ⟨fun a absent => ?_, rfl⟩
    cases absent
  | some a =>
    by_cases state : a.state = openingState isInit
    · refine Or.inr ⟨a, rfl, state, ?_⟩
      simp only
      rw [if_neg (show ¬a.state ≠ if isInit then .cookieWait else .cookieEchoed
        from not_not.mpr state)]
      by_cases spent : (if isInit then a.initRetransmits else a.cookieRetransmits)
        ≥ maxInitRetransmits
      · rw [if_pos spent]
        exact Or.inl rfl
      · rw [if_neg spent]
        exact Or.inr ⟨Nat.lt_of_not_ge spent, rfl⟩
    · simp only
      rw [if_pos (show a.state ≠ if isInit then .cookieWait else .cookieEchoed from state)]
      refine Or.inl ⟨fun b same => ?_, rfl⟩
      cases same
      exact state

/-- The timers of a handshake send a packet again. -/
def isT1 : ExpirationTimerType → Bool
  | .t1Init | .t1Cookie => true
  | _ => false

/-- A timer runs for the packet once it is sent: T1 for INIT and COOKIE ECHO, T3 for DATA. -/
def followedUp (packet : Packet) : Bool :=
  packet.chunks.any fun chunk => decide (chunk.type = .data ∨ chunk.type = .cookieEcho
    ∨ chunk.type = .init)

/-- How far a chunk acknowledges what was received. -/
def Chunk.acked (chunk : Chunk) : Option Tsn :=
  match chunk.value with
  | .sack sack => some sack.cumulativeTsnAck
  | .shutdown cumulativeTsnAck => some cumulativeTsnAck
  | _ => none

/-- How far the chunks of a packet do, in order. -/
def Packet.acks (packet : Packet) : List Tsn := packet.chunks.filterMap Chunk.acked

/-- DATA goes with something else. -/
def Packet.mixed (packet : Packet) : Bool :=
  (packet.chunks.any fun chunk => decide (chunk.type = .data)) && packet.chunks.any fun chunk =>
    decide (chunk.type ≠ .data)

/-- A packet that acknowledges nothing yet: DATA has nothing bundled with it. -/
structure Packet.Silent (packet : Packet) : Prop where
  acks : packet.acks = []
  apart : packet.mixed = false

/-- A packet acknowledges what was received so far, if it acknowledges anything, and then
the association is up and no timer follows the packet up. -/
def Packet.Current (packet : Packet) (a : Association) : Prop :=
  packet.Silent ∨ forming a.state = false ∧ followedUp packet = false ∧ ∀ tsn ∈ packet.acks, tsn
    = a.lastPeerTsn

/-- What may be queued for a key. -/
structure Fit (s : Socket) (key : AssociationKey) (d : Deliverable) : Prop where
  location : d.location = key
  nonempty : d.packet.chunks ≠ []
  current : d.packet.Silent ∨ ∃ a, s.find? key = some a ∧ d.packet.Current a
  /-- What a timer follows up is only sent for an association. -/
  present : followedUp d.packet = true → (s.find? key).isSome = true
  confirmed : guarded d.packet = true → ∀ a, s.find? key = some a → Sound a →
    Confirmed a d.destination

/-- What a cookie made for an INIT says of the association the INIT is taken for. -/
def Answers (s : Socket) (key : AssociationKey) (answer : InitAnswer) : Prop :=
  answer.localTieTag = 0#32
    ∨ ∃ a, s.find? key = some a ∧ answer.localTieTag = a.localTieTag
    ∧ (forming a.state = true → answer.localTag = a.thisVerTag)

/-- What the event that is handled shows: the Info of a HEARTBEAT ACK, a COOKIE ECHO, or
DATA that violates the protocol, with whether it leaves a partial delivery open, or that
moves the cumulative TSN; that a cookie gives an association another tag of the peer; or
that it may change what is probed. -/
inductive Evidence where
  | acked (info : Bytes)
  | echoed (now : Time) (cookieData : Bytes) (header : CommonHeader) (src : SockAddr)
  | spoiled (a : Association) (partly : Bool)
  | took (before after : Tsn)
  | met (key : AssociationKey) (forms : Bool) (before after : Tag)
  | probed

/-- The cookie is shown, and it verifies. -/
def Shown (heard : Evidence → Prop) (s : Socket) (cookie : StateCookie) : Prop :=
  ∃ now cookieData header src, heard (.echoed now cookieData header src)
    ∧ s.cookieAuthorizer.verify now cookieData header src = .valid cookie

/-- A cookie that restarts an association: it is shown, and its Tie-Tags are those of
the association, but its tag is not. -/
structure Restarts (heard : Evidence → Prop) (s : Socket) (a : Association) (cookie : StateCookie) :
    Prop where
  shown : Shown heard s cookie
  localVerTag : cookie.localVerTag ≠ a.thisVerTag
  peerVerTag : cookie.peerVerTag ≠ a.peerVerTag
  localTieTag : cookie.localTieTag ≠ 0#32
  tied : cookie.localTieTag = a.localTieTag

/-- What is probed changes only where the event may do so. -/
def Minds (heard : Evidence → Prop) (a b : Association) :
    Prop := heard .probed ∨ (Sound a → Spares a b)

/-- A timer that may stop: no heartbeat, or one of an association that does not transmit,
unless the event may change what is probed. -/
def Unneeded (heard : Evidence → Prop) (s : Socket) (timer : ExpirationKey) : Prop :=
  heard .probed ∨ (timer.type = .heartbeat → ∀ a, s.find? timer.location = some a →
    transmitsData a.state = false)

/-- One deed for the association under `key`; `heard` says what the event shows. -/
inductive Deed (heard : Evidence → Prop) (key : AssociationKey) (s : Socket) : Socket → Prop where
  | update {a b : Association} : s.find? key = some a → Succeeds a b → Minds heard a b →
      Deed heard key s (s.setAssociation key b)
  | tie {a : Association} (draws : Draws) :
      s.find? key = some a → forming a.state = false ∨ a.state = .cookieEchoed →
        Deed heard key s (s.setAssociation key (withTieTags draws a))
  /-- A path is confirmed, and the ULP may be told that it is. -/
  | credit {a b : Association} {info : Bytes} {i : Nat} (notes : List NotificationPayload) :
      s.find? key = some a → heard (.acked info) → Heard info a i → Credited i a b →
        (∀ note ∈ notes, isNote note = true) →
      Deed heard key s (notes.foldl (fun s note => s.notify key note) (s.setAssociation key b))
  /-- The association is up. -/
  | up {a : Association} : s.find? key = some a → forming a.state = true → heard .probed →
      Deed heard key s ((s.setAssociation key { a with state := .established }).notifyAssocChange
        key .commUp)
  /-- An association from a cookie is up at once. -/
  | created {a : Association} {cookie : StateCookie} : s.find? key = none → Shown heard s cookie →
      a = initNewAssociationFromCookie cookie → Begins a → forming a.state = false →
      Deed heard key s ((s.setAssociation key a).notifyAssocChange key .commUp)
  /-- The peer restarted. -/
  | restarted {a : Association} {cookie : StateCookie} :
      s.find? key = some a → Restarts heard s a cookie →
        Deed heard key s (((s.clearedFor key a).setAssociation key
          (initNewAssociationFromCookie cookie)).notifyAssocChange key .restart)
  /-- What was received so far is forgotten. -/
  | collided {a b : Association} :
      s.find? key = some a → Follows a b → Spares a b → partialDeliveryOpen b = false →
        heard (.met key (forming a.state) a.peerVerTag b.peerVerTag) →
      Deed heard key s ((s.abandonPartialDelivery key a).setAssociation key b)
  /-- The ULP is told that the association ended. -/
  | ended {a : Association} (told : AssocChangeState) : s.find? key = some a → Ends a.state told →
      Deed heard key s ((s.removeAssociation key).notifyAssocChange key told)
  /-- The DATA of a packet violates the protocol. -/
  | violated {a b : Association} : s.find? key = some a → receivesData a.state = true →
      heard (.spoiled a (partialDeliveryOpen b)) →
      Deed heard key s (((s.setAssociation key b).removeAssociation key).notifyAssocChange key
        .commLost)
  | gaveUp {a : Association} : s.find? key = some a → forming a.state = true →
      Deed heard key s ((s.tearDown key).notifyAssocChange key .cantStrAssoc)
  | deliver {a b : Association} (delivered : List Delivery) :
      s.find? key = some a → receivesData a.state = true → Follows a b → Spares a b →
        heard (.took a.lastPeerTsn b.lastPeerTsn) → b.peerVerTag = a.peerVerTag →
          (Tidy a → partialDeliveryOpen b = leftOpen (partialDeliveryOpen a) delivered) →
      Deed heard key s ((s.setAssociation key b).pushDeliveries key delivered)
  | enqueue (d : Deliverable) (priority : SendPriority) : Fit s key d →
      (priority ≠ .control → followedUp d.packet = true) →
      Deed heard key s (s.enqueuePacket d priority)
  | schedule (timer : ExpirationKey) (expiration : Time) (retry : Deliverable) :
      timer.location = key → (s.find? key).isSome = true →
      (isT1 timer.type = true → Fit s key retry ∧ followedUp retry.packet = true) →
      Deed heard key s (s.scheduleExpiration timer expiration retry)
  | stop (q : ExpirationQueue) :
      q.queue = s.expirations.queue → q.nextGeneration = s.expirations.nextGeneration →
        (∀ timer, q.active.get? timer = s.expirations.active.get? timer
        ∨ timer.location = key ∧ q.active.get? timer = none ∧ Unneeded heard s timer) →
      Deed heard key s { s with expirations := q }
  | drop (sel : Queued → Bool) (what : Queued → Chunk → Bool) :
      (∀ e, sel e = true → e.deliverable.location = key) →
      Deed heard key s { s with sends := { s.sends
        with retransmission := dropChunks sel what s.sends.retransmission } }
  | note (payload : NotificationPayload) : isNote payload = true → (s.find? key).isSome = true →
      Deed heard key s (s.notify key payload)
  | list (peer : AssociationKey) : (s.find? key).isSome = true →
      Deed heard key s { s with peerAddresses := s.peerAddresses.emplace peer key }
  /-- A cookie is made for an INIT ACK. -/
  | mint (now : Time) (secret : Bytes) (header : CommonHeader) (init : InitChunkValue)
      (src : SockAddr) (answer : InitAnswer) (increment : BitVec 32) (others : List (BitVec 32)) :
      Answers s key answer → Deed heard key s { s with
        cookieAuthorizer := (s.cookieAuthorizer.generate now secret header init src answer.localTag
          answer.localTsn answer.localTieTag answer.peerTieTag increment others).1 }

/-- A sequence of deeds for one key. -/
abbrev Deeds (heard : Evidence → Prop) (key : AssociationKey) : Socket → Socket → Prop :=
  Relation.ReflTransGen (Deed heard key)

theorem Deed.mono {heard heard' : Evidence → Prop} {key : AssociationKey} {s s' : Socket}
    (more : ∀ e, heard e → heard' e) (deed : Deed heard key s s') : Deed heard' key s s' := by
  have shown : ∀ {cookie}, Shown heard s cookie → Shown heard' s cookie := by
    rintro cookie ⟨now, cookieData, header, src, told, verified⟩
    exact ⟨now, cookieData, header, src, more _ told, verified⟩
  cases deed with
  | update found succeeds minds => exact .update found succeeds (minds.imp_left (more _))
  | tie draws found state => exact .tie draws found state
  | credit notes found told heard credited are =>
      exact .credit notes found (more _ told) heard credited are
  | up found forms probed => exact .up found forms (more _ probed)
  | created absent cookie is begins up => exact .created absent (shown cookie) is begins up
  | restarted found restarts => exact .restarted found { restarts
      with shown := shown restarts.shown }
  | collided found follows spares closed met =>
      exact .collided found follows spares closed (more _ met)
  | ended told found ends => exact .ended told found ends
  | violated found receives spoilt => exact .violated found receives (more _ spoilt)
  | gaveUp found forms => exact .gaveUp found forms
  | deliver delivered found receives follows spares took tag left =>
    exact .deliver delivered found receives follows spares (more _ took) tag left
  | enqueue d priority fit follows => exact .enqueue d priority fit follows
  | schedule timer expiration retry here present fit =>
      exact .schedule timer expiration retry here present fit
  | stop q queue next active =>
    exact .stop q queue next fun timer => (active timer).imp_right fun here =>
      ⟨here.1, here.2.1, here.2.2.imp_left (more _)⟩
  | drop sel what chosen => exact .drop sel what chosen
  | note payload is present => exact .note payload is present
  | list peer present => exact .list peer present
  | mint now secret header init src answer increment others answers =>
    exact .mint now secret header init src answer increment others answers

/-- What is heard, less the cookie. -/
def unechoed (heard : Evidence → Prop) : Evidence → Prop
  | .echoed _ _ _ _ => False
  | .acked info => heard (.acked info)
  | .spoiled a partly => heard (.spoiled a partly)
  | .took before after => heard (.took before after)
  | .met key forms before after => heard (.met key forms before after)
  | .probed => heard .probed

/-- A sequence of deeds, the first of which may be owed to more than the others are. -/
def Led (heard heard' : Evidence → Prop) (key : AssociationKey) (s s' : Socket) : Prop :=
  ∃ s₁, (s₁ = s ∨ Deed heard key s s₁) ∧ Deeds heard' key s₁ s'

theorem Deeds.mono {heard heard' : Evidence → Prop} {key : AssociationKey} {s s' : Socket}
    (more : ∀ e, heard e → heard' e) (deeds : Deeds heard key s s') : Deeds heard' key s s' :=
  Relation.ReflTransGen.mono (fun _ _ deed => deed.mono more) _ _ deeds

namespace Led

variable {heard heard' told told' : Evidence → Prop} {key : AssociationKey} {s s' s'' : Socket}

theorem of_deeds (deeds : Deeds heard' key s s') : Led heard heard' key s s' :=
  ⟨s, Or.inl rfl, deeds⟩

theorem of_deed (deed : Deed heard key s s') : Led heard heard' key s s' := ⟨s', Or.inr deed, .refl⟩

theorem trans (led : Led heard heard' key s s') (deeds : Deeds heard' key s' s'') :
    Led heard heard' key s s'' := by
  obtain ⟨s₁, first, rest⟩ := led
  exact ⟨s₁, first, Relation.ReflTransGen.trans rest deeds⟩

theorem mono (first : ∀ e, heard e → told e) (rest : ∀ e, heard' e → told' e)
    (led : Led heard heard' key s s') :
    Led told told' key s s' := by
  obtain ⟨s₁, start, deeds⟩ := led
  exact ⟨s₁, start.imp_right (Deed.mono first), Deeds.mono rest deeds⟩

theorem deeds (led : Led heard heard' key s s') (less : ∀ e, heard' e → heard e) :
    Deeds heard key s s' := by
  obtain ⟨s₁, first, rest⟩ := led
  rcases first with rfl | deed
  · exact Deeds.mono less rest
  · exact Relation.ReflTransGen.head deed (Deeds.mono less rest)

end Led

theorem of_unechoed {heard : Evidence → Prop} (e : Evidence) (told : unechoed heard e) :
    heard e := by
  cases e with
  | echoed => cases told
  | _ => exact told

/-! ## Confirmed addresses stay confirmed -/

section Marks

variable {a b c : Association} {address : SockAddr}

theorem lookup_unconfirmed {more : List (BitVec 32 × Bool)} (unconfirmed : ∀ m ∈ more, m.2 = false)
    (ip : BitVec 32) :
    more.lookup ip ≠ some true := by
  induction more with
  | nil => exact nofun
  | cons m rest ih =>
    obtain ⟨head, tail⟩ := List.forall_mem_cons.mp unconfirmed
    rw [List.lookup_cons]
    split
    · rw [head]
      exact nofun
    · exact ih tail

theorem Listed.refl (a : Association) : Listed a a := ⟨[], (List.append_nil _).symm, nofun⟩

theorem Listed.of_marks (same : b.marks = a.marks) : Listed a b :=
  ⟨[], by rw [same, List.append_nil], nofun⟩

theorem Listed.trans (first : Listed a b) (second : Listed b c) : Listed a c := by
  obtain ⟨more, marks, unconfirmed⟩ := first
  obtain ⟨more', marks', unconfirmed'⟩ := second
  refine ⟨more ++ more', by rw [marks', marks, List.append_assoc], fun m member => ?_⟩
  rcases List.mem_append.mp member with early | late
  · exact unconfirmed m early
  · exact unconfirmed' m late

theorem Listed.confirmed_iff (listed : Listed a b) : Confirmed b address ↔ Confirmed a address := by
  obtain ⟨more, marks, unconfirmed⟩ := listed
  unfold Confirmed
  rw [marks, List.lookup_append]
  cases a.marks.lookup address.addr with
  | none => simpa using lookup_unconfirmed unconfirmed address.addr
  | some v => simp

theorem Listed.confirmed (listed : Listed a b) (confirmed : Confirmed a address) :
    Confirmed b address :=
  listed.confirmed_iff.mpr confirmed

/-- A path is found by its address, and its mark is the first with that address. -/
theorem lookup_marks (a : Association) (address : SockAddr) :
    a.marks.lookup address.addr = (findPath a address).map fun i => (a.path i).confirmed := by
  unfold Association.marks findPath Association.path
  induction a.peerAddressList with
  | nil => rfl
  | cons path rest ih =>
    rw [List.map_cons, List.lookup_cons, List.findIdx?_cons]
    by_cases same : path.address.addr = address.addr
    · have here : (address.addr == path.address.addr) = true := by
        rw [same]; exact beq_self_eq_true _
      have there : sameDestination path.address address = true := by
        rw [sameDestination, same]; exact beq_self_eq_true _
      rw [here, there]
      rfl
    · have here : (address.addr == path.address.addr) = false :=
        beq_eq_false_iff_ne.mpr (Ne.symm same)
      have there : sameDestination path.address address = false := beq_eq_false_iff_ne.mpr same
      rw [here, there, ih]
      simp [Option.map_map, Function.comp_def]

theorem confirmed_iff : Confirmed a address ↔ ∃ i, findPath a address = some i
    ∧ (a.path i).confirmed = true := by
  rw [Confirmed, lookup_marks, Option.map_eq_some_iff]

/-- A confirmed path is confirmed under its address. -/
theorem confirmed_path {i : Nat} (distinct : (a.marks.map Prod.fst).Nodup)
    (confirmed : (a.path i).confirmed = true) :
    Confirmed a (a.path i).address := by
  refine (KeyMap.lookup_eq_some distinct).mpr (List.mem_map.mpr ⟨a.path i, ?_, by rw [confirmed]⟩)
  unfold Association.path at confirmed ⊢
  rw [List.getD_eq_getElem?_getD] at confirmed ⊢
  cases found : a.peerAddressList[i]? with
  | none =>
    rw [found] at confirmed
    cases confirmed
  | some path => exact List.mem_of_getElem? found

theorem Sound.confirmed_primary (sound : Sound a) :
    (a.path (SctpStack.primary a)).confirmed = true := by
  obtain ⟨i, found, confirmed⟩ := confirmed_iff.mp sound.primary
  rw [SctpStack.primary, found]
  exact confirmed

/-- The index of the first path with a property has it. -/
theorem path_of_findIdx? {p : PeerPath → Bool} {i : Nat}
    (found : a.peerAddressList.findIdx? p = some i) :
    p (a.path i) = true := by
  obtain ⟨bound, holds, -⟩ := List.findIdx?_eq_some_iff_getElem.mp found
  rw [Association.path, List.getD_eq_getElem?_getD, List.getElem?_eq_getElem bound]
  exact holds

theorem Sound.confirmed_dataPath (sound : Sound a) : (a.path (dataPath a)).confirmed = true := by
  unfold dataPath
  simp only
  split
  · exact sound.confirmed_primary
  · cases found : a.peerAddressList.findIdx? fun path => path.confirmed && path.active with
    | none => exact sound.confirmed_primary
    | some i =>
      have both := path_of_findIdx? found
      simp only [Bool.and_eq_true] at both
      exact both.1

theorem Sound.confirmed_retransmissionPath (sound : Sound a) (last : SockAddr) :
    (a.path (retransmissionPath a last)).confirmed = true := by
  unfold retransmissionPath
  simp only
  split
  · exact sound.confirmed_dataPath
  · cases found : ((List.range (a.peerAddressList.length - 1)).map fun step =>
        (dataPath a + (step + 1)) % a.peerAddressList.length).find? fun i => (a.path i).confirmed
          && (a.path i).active with
    | none => exact sound.confirmed_dataPath
    | some i =>
      have both := List.find?_some found
      simp only [Bool.and_eq_true] at both
      exact both.1

theorem confirmed_sentOn (confirmed : Confirmed a address) :
    (a.path (sentOn a address)).confirmed = true := by
  obtain ⟨i, found, here⟩ := confirmed_iff.mp confirmed
  rw [sentOn, found]
  exact here

theorem Sound.dataPath (sound : Sound a) : Confirmed a (a.path (dataPath a)).address :=
  confirmed_path sound.distinct sound.confirmed_dataPath

/-- A path that DATA is outstanding on is confirmed. -/
theorem Sound.confirmed_destinationOf (sound : Sound a) {tsn : Tsn} {o : OutstandingData}
    (found : a.outstandingData.get? tsn = some o) : (a.path (destinationOf a o)).confirmed = true :=
  confirmed_sentOn (sound.outstanding tsn o found)

theorem confirmed_of_marks (same : b.marks = a.marks) (i : Nat) :
    (b.path i).confirmed = (a.path i).confirmed := by
  have here := congrArg (fun marks : List (BitVec 32 × Bool) => marks[i]?) same
  simp only [Association.marks, List.getElem?_map] at here
  rw [Association.path, Association.path, List.getD_eq_getElem?_getD, List.getD_eq_getElem?_getD]
  revert here
  cases b.peerAddressList[i]? with
  | none =>
    cases a.peerAddressList[i]? with
    | none => exact fun _ => rfl
    | some path => exact fun here => absurd here.symm (Option.some_ne_none _)
  | some path =>
    cases a.peerAddressList[i]? with
    | none => exact fun here => absurd here (Option.some_ne_none _)
    | some path' => exact fun here => congrArg Prod.snd (Option.some.inj here)

/-- A reply goes to a confirmed address. -/
theorem Sound.replyDestination (sound : Sound a) (src : SockAddr) :
    Confirmed a (replyDestination a src) := by
  unfold SctpStack.replyDestination
  split
  · next i found =>
    split
    · next confirmed => exact confirmed_iff.mpr ⟨i, found, confirmed⟩
    · exact sound.dataPath
  · exact sound.dataPath

end Marks

/-! ## Changes that leave the outline alone -/

/-- What a deed may depend on of a TCB. -/
structure Outline where
  thisVerTag : Tag
  localTieTag : Tag
  peerTieTag : Tag
  peerVerTag : Tag
  exchange : Option Retry.Exchange
  marks : List (BitVec 32 × Bool)
  primaryPath : SockAddr
  outstandingData : KeyMap Tsn OutstandingData
  inStreams : BitVec 16
  lastPeerTsn : Tsn
  tsnOooBuffer : KeyMap Tsn HeldChunk
  reassembly : Reassembly
  heldDeliveries : List Delivery

def Association.outline (a : Association) : Outline where
  thisVerTag := a.thisVerTag
  localTieTag := a.localTieTag
  peerTieTag := a.peerTieTag
  peerVerTag := a.peerVerTag
  exchange := a.exchange
  marks := a.marks
  primaryPath := a.primaryPath
  outstandingData := a.outstandingData
  inStreams := a.inStreams
  lastPeerTsn := a.lastPeerTsn
  tsnOooBuffer := a.tsnOooBuffer
  reassembly := a.reassembly
  heldDeliveries := a.heldDeliveries


namespace Succeeds

variable {a b c : Association}

/-- The outline is the same but for what is outstanding, which goes no other way than before. -/
theorem of_outstanding (outline : { b.outline with outstandingData := a.outstandingData }
    = a.outline) (outstanding : Sound a → ∀ tsn o, b.outstandingData.get? tsn = some o →
      Confirmed a o.destination) :
    Succeeds a b where
  thisVerTag := congrArg Outline.thisVerTag outline
  localTieTag := congrArg Outline.localTieTag outline
  peerTieTag := congrArg Outline.peerTieTag outline
  handshakes := .of_eq (congrArg Outline.exchange outline)
  listed := .of_marks (congrArg Outline.marks outline)
  partially := by
    unfold partialDeliveryOpen
    rw [show b.reassembly = a.reassembly from congrArg Outline.reassembly outline]
  heeds := fun _ => ⟨congrArg Outline.lastPeerTsn outline, congrArg Outline.peerVerTag outline⟩
  tidy := by
    intro tidy
    refine tidy.congr (fun forms => ?_) (congrArg Outline.inStreams outline)
      (congrArg Outline.lastPeerTsn outline) (congrArg Outline.tsnOooBuffer outline)
      (congrArg Outline.reassembly outline) (congrArg Outline.heldDeliveries outline)
    exact (forming_of_exchange (congrArg Outline.exchange outline)).symm.trans forms
  sound := by
    intro sound
    have marks : b.marks = a.marks := congrArg Outline.marks outline
    have listed : Listed a b := .of_marks marks
    refine ⟨by rw [marks]; exact sound.distinct, ?_, fun tsn o found =>
      listed.confirmed (outstanding sound tsn o found)⟩
    rw [show b.primaryPath = a.primaryPath from congrArg Outline.primaryPath outline]
    exact listed.confirmed sound.primary

theorem of_outline (outline : b.outline = a.outline) : Succeeds a b := by
  have same : b.outstandingData = a.outstandingData := congrArg Outline.outstandingData outline
  refine of_outstanding (by rw [← same]; exact outline) fun sound tsn o found => ?_
  rw [same] at found
  exact sound.outstanding tsn o found

theorem refl (a : Association) : Succeeds a a := of_outline rfl

/-- An association that is up goes on to another state that is. -/
theorem of_state {state : AssociationState} (before : forming a.state = false)
    (after : forming state = false) :
    Succeeds a { a with state := state } := by
  refine of_outline ?_
  unfold Association.outline
  rw [exchange_of_up before, exchange_of_up (a := { a with state := state }) after]
  rfl

end Succeeds

theorem Follows.trans {a b c : Association} (first : Follows a b) (second : Follows b c) :
    Follows a c where
  thisVerTag := second.thisVerTag.trans first.thisVerTag
  localTieTag := second.localTieTag.trans first.localTieTag
  peerTieTag := second.peerTieTag.trans first.peerTieTag
  handshakes := first.handshakes.trans second.handshakes
  listed := first.listed.trans second.listed
  sound := fun sound => second.sound (first.sound sound)
  tidy := fun tidy => second.tidy (first.tidy tidy)

theorem Heeds.trans {a b c : Association} (first : Heeds a b) (second : Heeds b c) : Heeds a c :=
  ⟨second.lastPeerTsn.trans first.lastPeerTsn, second.peerVerTag.trans first.peerVerTag⟩

/-- What leaves the address of a path and its mark alone. -/
def KeepsMark (f : PeerPath → PeerPath) : Prop :=
  ∀ path, (f path).address.addr = path.address.addr ∧ (f path).confirmed = path.confirmed

theorem marks_modifyPath (a : Association) (i : Nat) {f : PeerPath → PeerPath}
    (keeps : KeepsMark f) :
    (a.modifyPath i f).marks = a.marks := by
  unfold Association.modifyPath Association.marks
  apply List.ext_getElem?
  intro j
  rw [List.getElem?_map, List.getElem?_map, List.getElem?_modify]
  cases a.peerAddressList[j]? with
  | none => rfl
  | some path =>
    by_cases here : i = j
    · simp [here, keeps path]
    · simp [here]

theorem outline_modifyPath (a : Association) (i : Nat) {f : PeerPath → PeerPath}
    (keeps : KeepsMark f) :
    (a.modifyPath i f).outline = a.outline := by
  unfold Association.outline
  rw [marks_modifyPath a i keeps]
  rfl

/-! ## Changes that leave alone what is probed -/

namespace Spares

variable {a b c : Association}

theorem of_eq (state : b.state = a.state) (probes : b.probes = a.probes) : Spares a b := by
  intro transmits
  rw [state] at transmits
  exact ⟨transmits, probes⟩

theorem refl (a : Association) : Spares a a := of_eq rfl rfl

theorem of_stopped (stopped : transmitsData b.state = false) : Spares a b := by
  intro transmits
  rw [stopped] at transmits
  cases transmits

theorem trans (first : Spares a b) (second : Spares b c) : Spares a c := by
  intro transmits
  obtain ⟨before, same⟩ := second transmits
  obtain ⟨start, same'⟩ := first before
  exact ⟨start, same.trans same'⟩

end Spares

theorem Spares.minds {heard : Evidence → Prop} {a b : Association} (spares : Spares a b) :
    Minds heard a b :=
  Or.inr fun _ => spares

/-- What leaves alone what is probed of a path. -/
def KeepsProbe (f : PeerPath → PeerPath) : Prop := ∀ path, (f path).probe = path.probe

theorem probes_modifyPath (a : Association) (i : Nat) {f : PeerPath → PeerPath}
    (keeps : KeepsProbe f) :
    (a.modifyPath i f).probes = a.probes := by
  unfold Association.modifyPath Association.probes
  apply List.ext_getElem?
  intro j
  rw [List.getElem?_map, List.getElem?_map, List.getElem?_modify]
  cases a.peerAddressList[j]? with
  | none => rfl
  | some path =>
    by_cases here : i = j
    · simp [here, keeps path]
    · simp [here]

theorem spares_modifyPath (a : Association) (i : Nat) {f : PeerPath → PeerPath}
    (keeps : KeepsProbe f) :
    Spares a (a.modifyPath i f) := .of_eq rfl (probes_modifyPath a i keeps)

/-- Of a confirmed path nothing waits, so whether it is active does not show. -/
theorem probes_modifyConfirmed {a : Association} {i : Nat} {f : PeerPath → PeerPath}
    (confirmed : (a.path i).confirmed = true)
    (keeps : ∀ path, (f path).address.addr = path.address.addr ∧ (f path).confirmed = path.confirmed
      ∧ (f path).hbOutstanding = path.hbOutstanding) :
    (a.modifyPath i f).probes = a.probes := by
  unfold Association.modifyPath Association.probes
  apply List.ext_getElem?
  intro j
  rw [List.getElem?_map, List.getElem?_map, List.getElem?_modify]
  cases found : a.peerAddressList[j]? with
  | none => rfl
  | some path =>
    by_cases here : i = j
    · subst here
      have here : path.confirmed = true := by
        rw [Association.path, List.getD_eq_getElem?_getD, found] at confirmed
        exact confirmed
      obtain ⟨address, same, out⟩ := keeps path
      simp [PeerPath.probe, PeerPath.probing, address, same, out, here]
    · simp [here]

/-! ## What a deed does to the associations -/

variable {heard : Evidence → Prop}

theorem find?_notes (s : Socket) (key k : AssociationKey) (notes : List NotificationPayload) :
    (notes.foldl (fun s note => s.notify key note) s).find? k = s.find? k := by
  induction notes generalizing s with
  | nil => rfl
  | cons note rest ih => exact (ih (s.notify key note)).trans rfl

theorem find?_abandonPartialDelivery (s : Socket) (key k : AssociationKey) (a : Association) :
    (s.abandonPartialDelivery key a).find? k = s.find? k := by
  unfold Socket.abandonPartialDelivery
  split <;> rfl

@[simp] theorem find?_removeAssociation (s : Socket) (key k : AssociationKey) :
    (s.removeAssociation key).find? k = if k = key then none else s.find? k :=
      (removed_removeAssociation s key).find? k

@[simp] theorem find?_notifyAssocChange (s : Socket) (key k : AssociationKey)
    (state : AssocChangeState) :
    (s.notifyAssocChange key state).find? k = s.find? k := rfl

@[simp] theorem find?_tearDown (s : Socket) (key k : AssociationKey) :
    (s.tearDown key).find? k = if k = key then none else s.find? k := s.find?_eraseAssociation key k

@[simp] theorem find?_pushDeliveries (s : Socket) (key k : AssociationKey)
    (delivered : List Delivery) :
    (s.pushDeliveries key delivered).find? k = s.find? k := rfl

/-- The TCB under the key after a deed: the one before or one that follows it, a new one,
or none. -/
inductive TcbStep (before : Option Association) : Option Association → Prop where
  | same : TcbStep before before
  | follows {a b : Association} : before = some a → Follows a b → TcbStep before (some b)
  | tie {a : Association} (draws : Draws) :
      before = some a → forming a.state = false ∨ a.state = .cookieEchoed →
        TcbStep before (some (withTieTags draws a))
  | credit {a b : Association} {i : Nat} {info : Bytes} :
      before = some a → Heard info a i → Credited i a b → TcbStep before (some b)
  | up {a : Association} : before = some a → forming a.state = true →
      TcbStep before (some { a with state := .established })
  | created {a : Association} : before = none → Begins a → forming a.state = false →
      TcbStep before (some a)
  | restarted {a : Association} (cookie : StateCookie) : before = some a →
      TcbStep before (some (initNewAssociationFromCookie cookie))
  | ended {a : Association} : before = some a → TcbStep before none

theorem Deed.tcb {key : AssociationKey} {s s' : Socket} (deed : Deed heard key s s') :
    TcbStep (s.find? key) (s'.find? key) := by
  cases deed with
  | update found succeeds => simpa using .follows found succeeds.toFollows
  | tie draws found state => simpa using .tie draws found state
  | credit notes found _ heard credited => simpa [find?_notes] using .credit found heard credited
  | up found forms => simpa using .up found forms
  | created absent shown is begins up => simpa using .created absent begins up
  | restarted found restarts => simpa using .restarted _ found
  | collided found follows => simpa using .follows found follows
  | ended told found ends => simpa using .ended found
  | violated found => simpa using .ended found
  | gaveUp found => simpa using .ended found
  | deliver delivered found receives follows => simpa using .follows found follows
  | _ => exact .same

theorem Deed.find?_other {key k : AssociationKey} {s s' : Socket} (deed : Deed heard key s s')
    (other : k ≠ key) :
    s'.find? k = s.find? k := by
  cases deed with
  | credit => simp [find?_notes, other]
  | collided => simp [other, find?_abandonPartialDelivery]
  | restarted => simp [other, find?_clearedFor]
  | update | tie | up | created | ended | violated | gaveUp | deliver => simp [other]
  | _ => rfl

end SctpStack
