import SctpStack.Deadlines
import SctpStack.GracefulClose

/-!
# What keeps an association in order

Some of what holds of an association depends on nothing but its own figures: the gauges of
its paths, the error counts, what is outstanding and how its round trips are timed, and
the packets that wait for a SACK. Such a property, kept by each of the few things the
handlers do to these (`Upkeep`), is kept by every handler, and so holds of every
association of every reachable socket.
-/

namespace SctpStack

/-! ## Figures -/

/-- A path as congestion control and failure detection see it. -/
structure Gauge where
  rto : Micros
  cwnd : Nat
  ssthresh : Nat
  errorCount : Nat
  active : Bool

def PeerPath.gauge (path : PeerPath) : Gauge :=
  ⟨path.rto, path.cwnd, path.ssthresh, path.errorCount, path.active⟩

/-- What may be done to the gauge of a path; `grows` are the flightsizes its window may be
grown at. -/
inductive Adjusts (pmdcs : Nat) (grows : Nat → Prop) (path : PeerPath) : PeerPath → Prop where
  | other {path' : PeerPath} : path'.gauge = path.gauge → Adjusts pmdcs grows path path'
  | doubled : Adjusts pmdcs grows path (doubleRto path)
  | measured (measurement : Micros) : Adjusts pmdcs grows path (updateRto path measurement)
  | counted : Adjusts pmdcs grows path (countPathError path).1
  | cleared : Adjusts pmdcs grows path (clearPathErrors path).1
  | grown (inFastRecovery : Bool) (bytesAcked duplicateBytes : Nat) {flightBefore : Nat} :
      grows flightBefore → Adjusts pmdcs grows
        path (growCwnd inFastRecovery pmdcs path bytesAcked duplicateBytes flightBefore)
  | halved : Adjusts pmdcs grows path (halveCwnd pmdcs path)
  | collapsed : Adjusts pmdcs grows path (collapseCwnd pmdcs path)
  | decayed (now : Time) : Adjusts pmdcs grows path (decayIdleCwnd pmdcs now path)

abbrev Adjusted (pmdcs : Nat) (grows : Nat → Prop) : PeerPath → PeerPath → Prop :=
  Relation.ReflTransGen (Adjusts pmdcs grows)

/-- The figures of an association beside its paths: where it stands, what it sends and what
it received. -/
structure Figures where
  thisVerTag : Tag
  peerVerTag : Tag
  state : AssociationState
  pmdcs : Nat
  errorCount : Nat
  errorThreshold : Nat
  nextTsn : Tsn
  cumulativeTsnAck : Tsn
  outstandingData : KeyMap Tsn OutstandingData
  hasRttMeasurementTsn : Bool
  rttMeasurementTsn : Tsn
  outStreams : BitVec 16
  nextSsn : List Ssn
  outbound : List OutboundMessage
  outboundBytes : Nat
  delayedSackPacketCount : Nat
  lastPeerTsn : Tsn
  inStreams : BitVec 16
  tsnOooBuffer : KeyMap Tsn HeldChunk
  reassembly : Reassembly
  inboundStreams : KeyMap StreamId InboundStream
  heldDeliveries : List Delivery

def Association.figures (a : Association) : Figures where
  thisVerTag := a.thisVerTag
  peerVerTag := a.peerVerTag
  state := a.state
  pmdcs := a.pmdcs
  errorCount := a.errorCount
  errorThreshold := a.errorThreshold
  nextTsn := a.nextTsn
  cumulativeTsnAck := a.cumulativeTsnAck
  outstandingData := a.outstandingData
  hasRttMeasurementTsn := a.hasRttMeasurementTsn
  rttMeasurementTsn := a.rttMeasurementTsn
  outStreams := a.outStreams
  nextSsn := a.nextSsn
  outbound := a.outbound
  outboundBytes := a.outboundBytes
  delayedSackPacketCount := a.delayedSackPacketCount
  lastPeerTsn := a.lastPeerTsn
  inStreams := a.inStreams
  tsnOooBuffer := a.tsnOooBuffer
  reassembly := a.reassembly
  inboundStreams := a.inboundStreams
  heldDeliveries := a.heldDeliveries

/-- What a step may be about, as far as it matters to a TCB. -/
inductive Cause where
  /-- A chunk of a packet is handled. -/
  | chunk (value : ChunkValue)
  /-- The DATA of a packet is taken in. -/
  | data
  /-- The application sends a message. -/
  | message
  /-- DATA is cut for sending. -/
  | cut
  /-- A packet is sent. -/
  | sent

/-- What an event is about. -/
inductive Event.Causes : Event → Cause → Prop where
  | chunk {now : Time} {draws : Nat → Draws} {packet : Packet} {src : SockAddr} {chunk : Chunk} :
      chunk ∈ packet.chunks → Causes (.recv now draws packet src) (.chunk chunk.value)
  | data {now : Time} {draws : Nat → Draws} {packet : Packet} {src : SockAddr} :
      Causes (.recv now draws packet src) .data
  | message {key : AssociationKey} {data : Bytes} {stream : StreamId} {unordered : Bool} :
      Causes (.sendData key data stream unordered) .message
  | cut {now : Time} {accepted : Bool} : Causes (.send now accepted) .cut
  | sent {now : Time} {accepted : Bool} : Causes (.send now accepted) .sent

/-- The wire size of all the DATA outstanding, in flight or not. -/
def outstandingBytes (a : Association) : Nat :=
  a.outstandingData.weight fun o => dataChunkWireSize o.data

/-- A SACK may grow a window at this flightsize, with `before` the association it finds. -/
def Grows (cause : Cause → Prop) (before : Association) (flight : Nat) : Prop :=
  (∃ sack, cause (.chunk (.sack sack))) ∧ flight ≤ outstandingBytes before

/-- DATA is received, and SACKs may be put off. -/
def delays : AssociationState → Bool
  | .established | .shutdownPending => true
  | _ => false

/-- No association goes back to where SACKs are put off, or to a handshake. -/
def Proceeds (state state' : AssociationState) : Prop :=
  (delays state' = true → forming state = true ∨ delays state = true)
    ∧ (forming state' = true → forming state = true)

/-- A property of an association and of whether its DELAYED_SACK timer runs, and what it has
to be kept by in a step: `start` is the association there was before, and `cause` what the
step is about. -/
structure Upkeep (start : Option Association) (cause : Cause → Prop)
    (I : Prop → Association → Prop) : Prop where
  opened : ∀ r draws destination, start = none → I r (initNewAssociation draws destination)
  created : ∀ r cookie, start = none → I r (initNewAssociationFromCookie cookie)
  restarted : ∀ {b} r cookie, start = some b → cookie.localVerTag ≠ b.thisVerTag →
    I r (initNewAssociationFromCookie cookie)
  collided : ∀ {r a b} cookie, start = some b → cookie.peerVerTag ≠ b.peerVerTag → I r a →
    I r (Socket.collided cookie a)
  answered : ∀ {r a} initAck, a.state = .cookieWait → I r a → I r (initAcked initAck a)
  retried : ∀ {r a}, forming a.state = true → I r a → I r { a with
    staleCookieRetries := a.staleCookieRetries + 1
    state := .cookieWait
    peerVerTag := 0#32
    initRetransmits := 0
    cookieRetransmits := 0 }
  adjusted : ∀ {r a b before}, b.figures = a.figures →
    List.Forall₂ (Adjusted a.pmdcs (Grows cause before)) a.peerAddressList b.peerAddressList →
      I r before → I r a → I r b
  listed : ∀ {r a} address, I r a → I r (withPath a address)
  onward : ∀ {r a} state, Proceeds a.state state → I r a → I r { a with state := state }
  undelayed : ∀ {r r' a}, delays a.state = false → I r a → I r' a
  heard : ∀ {r a}, I r a → I r { a with errorCount := 0 }
  missed : ∀ {r a}, a.errorCount + 1 ≤ a.errorThreshold → I r a →
    I r { a with errorCount := a.errorCount + 1 }
  queued : ∀ {r a} data stream unordered, cause .message → I r a →
    I r (queueMessage a data stream unordered)
  cut : ∀ {r a} allowance, cause .cut → I r a → I r (cutNewData a allowance).assoc
  sent : ∀ {r a} destination data sentAt, cause .sent → I r a →
    I r (recordDataSentIn a destination data sentAt)
  marked : ∀ {r a} (f : Tsn → OutstandingData → OutstandingData),
    (∀ tsn o, (f tsn o).retransmitted = o.retransmitted ∧ (f tsn o).gapAcked = o.gapAcked
      ∧ (f tsn o).data = o.data) →
    I r a → I r { a with outstandingData := a.outstandingData.mapVals f }
  acked : ∀ {r a} sack now, cause (.chunk (.sack sack)) → I r a →
    I r (acknowledgeEntries a sack now)
  ackedByShutdown : ∀ {r a} cumulativeTsnAck, cause (.chunk (.shutdown cumulativeTsnAck)) → I r a →
    I r (acknowledgeShutdown a cumulativeTsnAck)
  timed : ∀ {r a} tsn, nextRttMeasurement a = some tsn → I r a →
    I r { a with hasRttMeasurementTsn := true, rttMeasurementTsn := tsn }
  received : ∀ {r a b}, cause .data → ReceiveOnly a b → I r a → I r b
  reported : ∀ {r r' a}, I r a → I r' { a with delayedSackPacketCount := 0 }
  delayed : ∀ {r a}, delays a.state = true → a.delayedSackPacketCount + 1 < 2 → I r a →
    I True { a with delayedSackPacketCount := a.delayedSackPacketCount + 1 }

/-- It holds of the association under the key, if there is one, while the timers in `due`
went off and were not handled yet. -/
def Held (I : Prop → Association → Prop) (due : List ExpirationFallback) (key : AssociationKey)
    (s : Socket) : Prop :=
  ∀ a, s.find? key = some a → I (Awaited due s (timerOf key .delayedSack)) a

/-! ## Paths -/

section Paths

variable {pmdcs : Nat} {grows : Nat → Prop} {paths : List PeerPath}

theorem Adjusts.adjusted {path path' : PeerPath} (step : Adjusts pmdcs grows path path') :
    Adjusted pmdcs grows path path' := .single step

theorem Adjusted.of_gauge {path path' : PeerPath} (same : path'.gauge = path.gauge) :
    Adjusted pmdcs grows path path' :=
  .single (.other same)

theorem forall₂_adjusted_refl (paths : List PeerPath) :
    List.Forall₂ (Adjusted pmdcs grows) paths paths :=
  List.forall₂_same.mpr fun _ _ => .refl

theorem forall₂_adjusted_mapIdx {f : Nat → PeerPath → PeerPath}
    (each : ∀ i path, Adjusted pmdcs grows path (f i path)) :
    List.Forall₂ (Adjusted pmdcs grows) paths (paths.mapIdx f) := by
  induction paths generalizing f with
  | nil => exact .nil
  | cons path rest ih =>
    rw [List.mapIdx_cons]
    exact .cons (each 0 path) (ih fun i path => each (i + 1) path)

theorem forall₂_adjusted_modify (i : Nat) {f : PeerPath → PeerPath}
    (each : ∀ path, Adjusted pmdcs grows path (f path)) :
    List.Forall₂ (Adjusted pmdcs grows) paths (paths.modify i f) := by
  induction paths generalizing i with
  | nil => cases i <;> exact .nil
  | cons path rest ih =>
    cases i with
    | zero => exact .cons (each path) (forall₂_adjusted_refl rest)
    | succ i => exact .cons .refl (ih i)

end Paths

/-! ## One change -/

namespace Upkeep

variable {start : Option Association} {cause : Cause → Prop} {I : Prop → Association → Prop}
    (upkeep : Upkeep start cause I)
  {r : Prop} {a b : Association}
include upkeep

/-- Neither the figures nor the paths change. -/
theorem same (holds : I r a) (figures : b.figures = a.figures)
    (paths : b.peerAddressList = a.peerAddressList) : I r b := by
  refine upkeep.adjusted figures ?_ holds holds
  rw [paths]
  exact forall₂_adjusted_refl a.peerAddressList

/-- From here on no SACK is put off. -/
theorem silenced {r' : Prop} (state : AssociationState) (closing : state = .shutdownSent
    ∨ state = .shutdownAckSent) (holds : I r a) : I r' { a with state := state } := by
  rcases closing with rfl | rfl
  · exact upkeep.undelayed rfl (upkeep.onward .shutdownSent ⟨nofun, nofun⟩ holds)
  · exact upkeep.undelayed rfl (upkeep.onward .shutdownAckSent ⟨nofun, nofun⟩ holds)

theorem modifyPath (i : Nat) {f : PeerPath → PeerPath}
    (each : ∀ path, Adjusted a.pmdcs (Grows cause a) path (f path)) (holds : I r a) :
    I r (a.modifyPath i f) :=
  upkeep.adjusted (a := a) rfl (forall₂_adjusted_modify i each) holds holds

/-- A path changes, but not its gauge. -/
theorem regauge (i : Nat) {f : PeerPath → PeerPath} (each : ∀ path, (f path).gauge = path.gauge)
    (holds : I r a) :
    I r (a.modifyPath i f) := upkeep.modifyPath i (fun path => .of_gauge (each path)) holds

theorem planNextProbe (draws : Draws) (i : Nat) (now : Time) (holds : I r a) :
    I r (planNextProbe a draws i now) :=
  upkeep.regauge i (fun _ => rfl) holds

end Upkeep

/-! ## One operation -/

namespace Held

variable {I : Prop → Association → Prop} {due : List ExpirationFallback} {key : AssociationKey}
    {s s' : Socket}

/-- The TCB is as it was, and so is the timer. -/
theorem of_same (held : Held I due key s) (found : s'.find? key = s.find? key)
    (active : s'.expirations.isActive (timerOf key .delayedSack)
      = s.expirations.isActive (timerOf key .delayedSack)) :
    Held I due key s' := by
  intro a here
  rw [Awaited, active]
  exact held a (found.symm.trans here)

theorem gone (none : s'.find? key = none) : Held I due key s' := by
  intro a found
  rw [none] at found
  cases found

theorem set {a b : Association} (held : Held I due key s) (found : s.find? key = some a)
    (step : ∀ {r}, I r a → I r b) :
    Held I due key (s.setAssociation key b) := by
  intro c here
  rw [Socket.find?_setAssociation, if_pos rfl] at here
  cases here
  exact step (held a found)

theorem update (held : Held I due key s) {f : Association → Association}
    (step : ∀ {r a}, s.find? key = some a → I r a → I r (f a)) :
    Held I due key (s.updateAssociation key f) := by
  cases found : s.find? key with
  | none =>
    rw [Deeds.updateAssociation_of_none found]
    exact held
  | some a =>
    rw [Deeds.updateAssociation_of_some found]
    exact held.set found (step found)

/-- Another timer is started. -/
theorem schedule (held : Held I due key s) {timer : ExpirationKey}
    (other : timer.type ≠ .delayedSack) (expiration : Time) (retry : Deliverable) :
    Held I due key (s.scheduleExpiration timer expiration retry) := by
  refine held.of_same rfl ?_
  have apart : timerOf key .delayedSack ≠ timer := fun same =>
    other (congrArg ExpirationKey.type same).symm
  simp [ExpirationQueue.isActive, Socket.scheduleExpiration, ExpirationQueue.schedule,
    KeyMap.contains_put, apart]

/-- Another timer is stopped. -/
theorem cancel (held : Held I due key s) {timer : ExpirationKey}
    (other : timer.type ≠ .delayedSack) :
    Held I due key (s.cancelExpiration timer) := by
  refine held.of_same rfl ?_
  have apart : timerOf key .delayedSack ≠ timer := fun same =>
    other (congrArg ExpirationKey.type same).symm
  simp [ExpirationQueue.isActive, Socket.cancelExpiration, ExpirationQueue.cancel, KeyMap.contains,
    apart]

/-- One of its timers of another type is stopped. -/
theorem stop (held : Held I due key s) {type : ExpirationTimerType} (other : type ≠ .delayedSack) :
    Held I due key (s.cancelExpiration (timerOf key type)) := held.cancel other

theorem foldl {α : Type} {f : Socket → α → Socket}
    (each : ∀ s x, Held I due key s → Held I due key (f s x)) (l : List α) (s : Socket)
    (held : Held I due key s) : Held I due key (l.foldl f s) := by
  induction l generalizing s with
  | nil => exact held
  | cons x rest ih => exact ih _ (each s x held)

theorem notifyIf (held : Held I due key s) (changed : Bool) (address : SockAddr)
    (state : PeerAddrState) :
    Held I due key (s.notifyIf changed key address state) := by
  unfold Socket.notifyIf
  split <;> exact held

theorem armHeartbeat (held : Held I due key s) (i : Nat) :
    Held I due key (s.armHeartbeat key i) := by
  unfold Socket.armHeartbeat
  split
  · exact held
  · simp only
    split
    · exact held.schedule (show ExpirationTimerType.heartbeat ≠ .delayedSack from nofun) _ _
    · split
      · exact held.cancel (show ExpirationTimerType.heartbeat ≠ .delayedSack from nofun)
      · exact held.schedule (show ExpirationTimerType.heartbeat ≠ .delayedSack from nofun) _ _

theorem restartT3 (held : Held I due key s) (now : Time) (k : AssociationKey)
    (destination : SockAddr) :
    Held I due key (s.restartT3 now k destination) := by
  unfold Socket.restartT3
  simp only
  split
  · exact held.cancel (show ExpirationTimerType.t3Rtx ≠ .delayedSack from nofun)
  · exact held.schedule (show ExpirationTimerType.t3Rtx ≠ .delayedSack from nofun) _ _

theorem startT3IfStopped (held : Held I due key s) (now : Time) (k : AssociationKey)
    (destination : SockAddr) :
    Held I due key (s.startT3IfStopped now k destination) := by
  unfold Socket.startT3IfStopped
  split
  · exact held
  · exact held.restartT3 now k destination

theorem restartT2 (held : Held I due key s) (now : Time) :
    Held I due key (s.restartT2 now key) := by
  unfold Socket.restartT2
  split
  · exact held
  · exact held.schedule (show ExpirationTimerType.t2Shutdown ≠ .delayedSack from nofun) _ _

end Held

/-! ## The paths of one association -/

section Operations

variable {start : Option Association} {cause : Cause → Prop} {I : Prop → Association → Prop}
    (upkeep : Upkeep start cause I)
  {due : List ExpirationFallback} {key : AssociationKey} {s : Socket}
include upkeep

namespace Upkeep

theorem countPathErrorAt (a : Association) (i : Nat) (held : Held I due key s) :
    Held I due key (s.countPathErrorAt key a i) :=
  (held.update fun _ => upkeep.modifyPath i fun _ => Adjusts.counted.adjusted).notifyIf _ _ _

theorem clearPathErrorsAt (a : Association) (i : Nat) (held : Held I due key s) :
    Held I due key (s.clearPathErrorsAt key a i) :=
  (held.update fun _ => upkeep.modifyPath i fun _ => Adjusts.cleared.adjusted).notifyIf _ _ _

/-! ## Heartbeats -/

theorem armConfirmationProbes (now : Time) (held : Held I due key s) :
    Held I due key (s.armConfirmationProbes now key) := by
  refine .foldl (fun s i held => ?_) _ s held
  unfold Socket.armConfirmationProbe
  split
  · exact held
  · simp only
    split
    · refine Held.armHeartbeat (held.update fun _ => ?_) i
      exact upkeep.regauge i fun _ => rfl
    · exact held

theorem planProbe (now : Time) (draws : Draws) (i : Nat) (held : Held I due key s) :
    Held I due key (s.planProbe now draws key i) := by
  refine held.update fun _ holds => ?_
  have planned := upkeep.planNextProbe draws i now holds
  simp only
  split
  · exact upkeep.regauge i (fun _ => rfl) planned
  · exact planned

theorem startHeartbeats (now : Time) (draws : Draws) (held : Held I due key s) :
    Held I due key (s.startHeartbeats now draws key) :=
  .foldl (fun _ i held => (upkeep.planProbe now draws i held).armHeartbeat i) _ s held

theorem buildProbe (now : Time) (draws : Draws) (a : Association) (i : Nat)
    (held : Held I due key s) :
    Held I due key (s.buildProbe now draws key a i).1 :=
  held.update fun _ => upkeep.regauge i fun _ => rfl

/-! ## Retransmissions -/

theorem schedulePendingRetransmission (gated : Bool) (held : Held I due key s) :
    Held I due key (s.schedulePendingRetransmission key gated) := by
  unfold Socket.schedulePendingRetransmission
  split
  · exact held
  · split
    · exact held
    · simp only
      split
      · exact held
      · exact held.update fun _ => upkeep.marked _ fun tsn o => by split <;> exact ⟨rfl, rfl, rfl⟩

/-! ## Addresses -/

theorem recordEncapsulationPort (src : SockAddr) (held : Held I due key s) :
    Held I due key (s.recordEncapsulationPort key src) := by
  refine held.update fun _ holds => ?_
  split
  · exact holds
  · exact upkeep.regauge _ (fun _ => rfl) holds

end Upkeep

end Operations

end SctpStack
