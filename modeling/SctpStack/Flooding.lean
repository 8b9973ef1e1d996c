import SctpStack.Arming
import SctpStack.SackEffects
import SctpStack.MoveHandlers
import SctpStack.InitEffects

/-!
# A window filled to its limit

An association with one path keeps its window full, and its peer acknowledges all of it
at once, round after round: each round opens the window by a packet. The window counts
bytes in 32 bits, and in the end it wraps to nothing, with nothing in flight.
-/

namespace SctpStack

/-! ## One path -/

section OnePath

variable {a : Association} {path : PeerPath}

theorem findPath_getD_zero (paths : a.peerAddressList = [path]) (address : SockAddr) {d : Nat}
    (zero : d = 0) :
    (findPath a address).getD d = 0 := by
  rw [findPath, paths, List.findIdx?_cons]
  split
  · rfl
  · simpa using zero

theorem primary_zero (paths : a.peerAddressList = [path]) : primary a = 0 :=
  findPath_getD_zero paths _ rfl

theorem sentOn_zero (paths : a.peerAddressList = [path]) (address : SockAddr) :
    sentOn a address = 0 :=
  findPath_getD_zero paths _ (primary_zero paths)

theorem destinationOf_zero (paths : a.peerAddressList = [path]) (o : OutstandingData) :
    destinationOf a o = 0 :=
  findPath_getD_zero paths _ (primary_zero paths)

theorem path_zero (paths : a.peerAddressList = [path]) : a.path 0 = path := by
  rw [Association.path, paths]
  rfl

theorem dataPath_zero (paths : a.peerAddressList = [path]) : dataPath a = 0 := by
  unfold dataPath
  simp only [primary_zero paths, path_zero paths, paths, List.findIdx?_cons, List.findIdx?_nil,
    Option.map_none]
  split
  · rfl
  · split <;> rfl

end OnePath

/-! ## A window filled with full chunks -/

/-- A chunk that is in flight, and fills a packet. -/
structure InFlight (chunks : Nat) (nextTsn tsn : Tsn) (o : OutstandingData) : Prop where
  gapAcked : o.gapAcked = false
  unmarked : o.pendingRetransmission = false
  full : dataChunkWireSize o.data = 1200
  sent : 1 ≤ (nextTsn - tsn).toNat
  recent : (nextTsn - tsn).toNat ≤ chunks

/-- An association with one path has `chunks` full chunks in flight and nothing else to
send; the peer's window has room for what it has not used. -/
structure Filling (chunks cwnd : Nat) (a : Association) (path : PeerPath) : Prop where
  state : a.state = .established
  thisVerTag : a.thisVerTag = 1#32
  pmdcs : a.pmdcs = 1200
  outStreams : a.outStreams = 1#16
  recovering : a.inFastRecovery = false
  probing : a.zeroWindowProbeAllowed = false
  outbound : a.outbound = []
  room : a.peerRwnd + 1200 * chunks = 2 ^ 32 - 1
  paths : a.peerAddressList = [path]
  cwnd : path.cwnd = cwnd
  uncounted : path.partialBytesAcked = 0
  many : path.singlePacketInFlight = false
  sentAt : path.dataSentAt = 0
  count : a.outstandingData.entries.length = chunks
  flying : ∀ tsn o, a.outstandingData.get? tsn = some o → InFlight chunks a.nextTsn tsn o
  point : a.nextTsn - a.cumulativeTsnAck = BitVec.ofNat 32 (chunks + 1)

namespace Filling

variable {chunks cwnd : Nat} {a : Association} {path : PeerPath}

theorem flightOf_eq (filling : Filling chunks cwnd a path) (onPath : OutstandingData → Bool)
    (all : ∀ o, onPath o = true) :
    flightOf a onPath = 1200 * chunks := by
  have each : ∀ e ∈ a.outstandingData.entries,
      (if !e.2.gapAcked && !e.2.pendingRetransmission && onPath e.2 then
      dataChunkWireSize e.2.data else 0) = 1200 := by
    intro e member
    have flies := filling.flying e.1 e.2 (KeyMap.mem_entries.mp member)
    simp [flies.gapAcked, flies.unmarked, flies.full, all]
  rw [flightOf, List.map_congr_left each, List.map_const', List.sum_replicate_nat, filling.count,
    Nat.mul_comm]

theorem bytesInFlightOn_eq (filling : Filling chunks cwnd a path) :
    bytesInFlightOn a 0 = 1200 * chunks :=
  filling.flightOf_eq _ fun o => by rw [destinationOf_zero filling.paths]; rfl

theorem markedChunks_nil (filling : Filling chunks cwnd a path) : markedChunks a = [] := by
  rw [markedChunks, List.filter_eq_nil_iff]
  intro e member
  simp [(filling.flying e.1 e.2 (KeyMap.mem_entries.mp member)).unmarked]

theorem cwndOpen_eq (filling : Filling chunks cwnd a path) :
    cwndOpen a (dataPath a) = decide (1200 * chunks < cwnd) := by
  rw [dataPath_zero filling.paths, cwndOpen, path_zero filling.paths, filling.many, filling.cwnd,
    filling.bytesInFlightOn_eq]
  rfl

theorem decayPaths_eq (filling : Filling chunks cwnd a path) : decayPaths 0 a = a := by
  have still : decayIdleCwnd a.pmdcs 0 path = path := by
    unfold decayIdleCwnd
    rw [filling.sentAt, if_pos]
    by_cases late : path.rto ≤ 0
    · exact Or.inl late
    · right
      rw [Int.sub_zero]
      exact Int.mul_pos (Int.not_le.mp late) (by decide)
  unfold decayPaths
  rw [filling.paths, List.map_singleton, still, ← filling.paths]

end Filling

/-! ## A pass over one association -/

/-- A socket with one association, which sends, marks nothing for retransmission and has no
window to decay. Nothing is queued. -/
structure Lone (now : Time) (s : Socket) (key : AssociationKey) (a : Association) : Prop where
  alone : s.associations = .single key a
  transmits : transmitsData a.state = true
  still : decayPaths now a = a
  unmarked : markedChunks a = []
  control : s.sends.control = []
  retransmission : s.sends.retransmission = []
  newData : s.sends.newData = []

section Alone

variable {s : Socket} {key : AssociationKey} {a : Association} {now : Time}

theorem find?_alone (alone : s.associations = .single key a) : s.find? key = some a := by
  simp [Socket.find?, alone]

theorem Lone.sendAllowances (lone : Lone now s key a) :
    s.sendAllowances now = (s, .single key (sendAllowance a)) := by
  unfold Socket.sendAllowances
  simp only [lone.alone, KeyMap.mapVals_single, lone.transmits, if_true, lone.still]
  rw [KeyMap.filterMap_single (by rw [if_pos lone.transmits]), ← lone.alone]

theorem Lone.refillRetransmissions (lone : Lone now s key a) (allowance : SendAllowance) :
    s.refillRetransmissions (.single key allowance) = s := by
  unfold Socket.refillRetransmissions
  simp only [KeyMap.keys_single, List.foldl_cons, List.foldl_nil]
  split
  · rfl
  · unfold Socket.schedulePendingRetransmission
    simp only [find?_alone lone.alone, lone.unmarked]

theorem Lone.refilled (lone : Lone now s key a) :
    s.refilled now = Socket.refillNewDataFor ⟨s, .single key (sendAllowance a), []⟩ key := by
  unfold Socket.refilled
  rw [lone.sendAllowances]
  simp only
  rw [lone.refillRetransmissions]
  rfl

theorem setAssociation_alone (alone : s.associations = .single key a) (b : Association) :
    s.setAssociation key b = { s with associations := .single key b } := by
  rw [Socket.setAssociation, alone, KeyMap.put_single]

theorem cutNewData_empty (outbound : a.outbound = []) (allowance : SendAllowance) :
    cutNewData a allowance = ⟨[], a, false⟩ := by
  rw [cutNewData, cutNewDataFrom, outbound]

theorem refillNewDataFor_nothing (alone : s.associations = .single key a)
    (idle : cwndOpen a (dataPath a) = false ∨ a.outbound = []) :
    Socket.refillNewDataFor ⟨s, .single key (sendAllowance a), []⟩ key
      = ⟨s, .single key (sendAllowance a), []⟩ := by
  unfold Socket.refillNewDataFor
  simp only [KeyMap.get?_single, if_true, find?_alone alone]
  split
  · rfl
  · next open_ =>
    rcases idle with closed | outbound
    · simp [sendAllowance, closed] at open_
    · rw [cutNewData_empty outbound]
      simp only [List.isEmpty_nil, if_true, Bool.or_false, KeyMap.put_single,
        setAssociation_alone alone, ← alone]

/-- With nothing queued and nothing to cut, `next_packet` finds nothing and changes nothing
but the queue's note of it. -/
theorem Lone.nextPacket_nothing (lone : Lone now s key a)
    (idle : cwndOpen a (dataPath a) = false ∨ a.outbound = []) :
    (s.nextPacket now).pending = none ∧ ∃ blocked, (s.nextPacket now).socket
      = { s with sends := { s.sends with newDataBlocked := blocked } } := by
  have refilled := lone.refilled
  rw [refillNewDataFor_nothing lone.alone idle] at refilled
  have peeked : ∃ blocked, s.peeked now
      = (none, { s.sends with newDataBlocked := blocked }, .single key (sendAllowance a)) := by
    unfold Socket.peeked SendQueue.peek
    rw [refilled]
    by_cases deferred : now < s.sends.nextSendAttempt
    · exact ⟨s.sends.newDataBlocked, if_pos deferred⟩
    · simp only [if_neg deferred, lone.control, lone.retransmission, lone.newData,
        SendQueue.peekNewData]
      exact ⟨_, rfl⟩
  obtain ⟨blocked, peeked⟩ := peeked
  rw [nextPacket_eq, peeked]
  refine ⟨rfl, blocked, ?_⟩
  unfold Socket.armed
  rw [peeked, refilled]
  rfl

end Alone

/-! ## One chunk goes out -/

section Chunk

variable {s : Socket} {key : AssociationKey} {a : Association} {message : OutboundMessage}

/-- An association with one message to send, which fills a packet, and windows with room for
it. -/
structure Cuttable (a : Association) (message : OutboundMessage) : Prop where
  pmdcs : a.pmdcs = 1200
  outbound : a.outbound = [message]
  fresh : message.offset = 0
  long : message.bytes.length = 1184
  probing : a.zeroWindowProbeAllowed = false
  room : 1200 ≤ a.peerRwnd
  opened : cwndOpen a (dataPath a) = true
  unsent : a.burstCount = 0

/-- The association once the one message it has is cut. -/
def emptied (a : Association) : Association :=
  { a with nextTsn := a.nextTsn + 1#32, outboundBytes := a.outboundBytes - 1184, outbound := [] }

/-- The chunk a message that fills a packet is cut into. -/
theorem Cuttable.cutNewData (ahead : Cuttable a message) :
    cutNewData a (sendAllowance a) = ⟨[cutChunk a message 1184], emptied a, false⟩ := by
  have closed : (sendAllowance a).zeroWindowProbe = false := by simp [sendAllowance, ahead.probing]
  have size : cutSize a (sendAllowance a) 0 false message = some 1184 := by
    unfold cutSize fullFragment
    simp only [ahead.pmdcs, ahead.fresh, ahead.long, Nat.sub_zero, Bool.false_eq_true, if_false]
    rw [show min 1200 (sendAllowance a).rwnd = 1200 from Nat.min_eq_left ahead.room]
    rfl
  have whole : afterCut a message [] 1184 = emptied a := by
    unfold afterCut
    rw [ahead.fresh, ahead.long]
    rfl
  rw [SctpStack.cutNewData, cutNewDataFrom, ahead.outbound]
  simp only [closed, Bool.false_and, size, Bool.false_eq_true, if_false, whole]
  rw [ahead.pmdcs, cutNewDataFrom]
  rfl

theorem Cuttable.dataChunkWireSize (ahead : Cuttable a message) :
    dataChunkWireSize (cutChunk a message 1184) = 1200 := by
  simp only [SctpStack.dataChunkWireSize, cutChunk, ahead.fresh, List.drop_zero, List.length_take,
    ahead.long]
  rfl

/-- The packet that carries it. -/
def fullPacket (s : Socket) (key : AssociationKey) (a : Association) (message : OutboundMessage) :
    Deliverable :=
  ⟨key, (a.path (dataPath a)).address,
    buildData s.localAddress.port key.address.port a.peerVerTag [cutChunk a message 1184]⟩

theorem refillNewDataFor_full {now : Time} (lone : Lone now s key a)
    (ahead : Cuttable a message) :
    ∃ cut, Socket.refillNewDataFor ⟨s, .single key (sendAllowance a), []⟩ key
      = ⟨({ s with associations := .single key (emptied a) }).enqueuePacket
        (fullPacket s key a message) .newData, .single key (sendAllowance a), cut⟩ := by
  have ready : (!(sendAllowance a).cwndOpen || (sendAllowance a).burstSpent
      || s.sends.hasNewDataFor key) = false := by
    simp [sendAllowance, ahead.opened, ahead.unsent, SendQueue.hasNewDataFor, lone.newData,
      maxBurst]
  unfold Socket.refillNewDataFor
  simp only [KeyMap.get?_single, if_true, find?_alone lone.alone, ready, Bool.false_eq_true,
    if_false, ahead.cutNewData, List.isEmpty_cons, Bool.or_false, KeyMap.put_single,
    setAssociation_alone lone.alone]
  exact ⟨_, rfl⟩

/-- The packet, with or without the I bit, and the socket it was built in. -/
theorem nextPacket_full {now : Time} (lone : Lone now s key a) (ahead : Cuttable a message)
    (ready : s.sends.nextSendAttempt ≤ now)
    (quiet : s.expirations.isActive (timerOf key .delayedSack) = false) :
    ∃ d flag, (s.nextPacket now).pending = some ⟨.newData, d, s.sends.nextId⟩ ∧ d.location = key
      ∧ d.packet.chunks = [⟨flag, .data (cutChunk a message 1184)⟩]
      ∧ (s.nextPacket now).socket
        = ({ s with associations := .single key (emptied a) }).enqueuePacket
          (fullPacket s key a message) .newData := by
  have refilled := lone.refilled
  obtain ⟨cut, full⟩ := refillNewDataFor_full lone ahead
  rw [full] at refilled
  have bytes : dataBytes (fullPacket s key a message).packet = 1200 := by
    rw [dataBytes, show (fullPacket s key a message).packet.dataChunks = [cutChunk a message 1184]
      from rfl, List.map_singleton, List.sum_singleton, ahead.dataChunkWireSize]
  have admitted : admits (sendAllowance a) (fullPacket s key a message).packet
      = (true, sendAllowance a) := by
    unfold admits
    rw [bytes]
    simp [sendAllowance, ahead.opened, ahead.unsent, maxBurst, ahead.room]
  have peeked : s.peeked now = (some ⟨.newData, fullPacket s key a message, s.sends.nextId⟩,
      s.sends.enqueue (fullPacket s key a message) .newData, .single key (sendAllowance a)) := by
    unfold Socket.peeked SendQueue.peek
    rw [refilled]
    simp only [Socket.enqueuePacket, SendQueue.enqueue, if_neg (Int.not_lt.mpr ready),
      lone.control, lone.retransmission, lone.newData, List.nil_append, SendQueue.peekNewData,
      List.not_mem_nil, if_false]
    rw [show (fullPacket s key a message).location = key from rfl]
    simp only [KeyMap.get?_single, if_true, admitted, KeyMap.put_single]
  have armed : s.armed now
      = ({ s with associations := .single key (emptied a) }).enqueuePacket
        (fullPacket s key a message) .newData := by
    unfold Socket.armed
    rw [peeked, refilled]
    rfl
  rw [nextPacket_eq, peeked]
  simp only [armed, reduceCtorEq, if_false, decide_true]
  have found : (({ s with associations := .single key (emptied a) } : Socket).enqueuePacket
      (fullPacket s key a message) .newData).find? key = some (emptied a) := find?_alone rfl
  have carries : containsChunk (fullPacket s key a message).packet .data = true := rfl
  have quiet' : (({ s with associations := .single key (emptied a) } : Socket).enqueuePacket
      (fullPacket s key a message) .newData).expirations.isActive (timerOf key .delayedSack)
        = false := quiet
  unfold Socket.prepareDataPacket
  rw [show (fullPacket s key a message).location = key from rfl]
  simp only [carries, found, quiet', Bool.not_true, Bool.false_eq_true, if_false, Bool.not_false,
    Bool.true_or, if_true]
  split
  · exact ⟨_, _, rfl, rfl, rfl, trivial⟩
  · exact ⟨_, _, rfl, rfl, rfl, trivial⟩

/-- What T3-rtx has nothing to do with. -/
structure T3Only (s s' : Socket) : Prop where
  localAddress : s'.localAddress = s.localAddress
  associations : s'.associations = s.associations
  sends : s'.sends = s.sends
  timers : ∀ timer, timer.type ≠ .t3Rtx → s'.expirations.isActive timer
    = s.expirations.isActive timer

theorem T3Only.schedule (s : Socket) {timer : ExpirationKey} (t3 : timer.type = .t3Rtx)
    (expiration : Time) (retry : Deliverable) :
    T3Only s (s.scheduleExpiration timer expiration retry) := by
  refine ⟨rfl, rfl, rfl, fun other apart => ?_⟩
  have different : other ≠ timer := fun same => apart (same ▸ t3)
  rw [isActive_scheduleExpiration, decide_eq_false different, Bool.false_or]

theorem T3Only.cancel (s : Socket) {timer : ExpirationKey} (t3 : timer.type = .t3Rtx) :
    T3Only s (s.cancelExpiration timer) := by
  refine ⟨rfl, rfl, rfl, fun other apart => ?_⟩
  have different : other ≠ timer := fun same => apart (same ▸ t3)
  rw [isActive_cancelExpiration, decide_eq_false different, Bool.not_false, Bool.true_and]

theorem T3Only.startT3IfStopped (s : Socket) (now : Time) (key : AssociationKey)
    (destination : SockAddr) :
    T3Only s (s.startT3IfStopped now key destination) := by
  unfold Socket.startT3IfStopped
  split
  · exact ⟨rfl, rfl, rfl, fun _ _ => rfl⟩
  · unfold Socket.restartT3
    simp only
    split
    · exact .cancel s rfl
    · exact .schedule s rfl _ _

theorem packetSent_full {b : Association} (alone : s.associations = .single key b)
    (transmits : transmitsData b.state = true) {id : Nat} {d₀ : Deliverable}
    (newData : s.sends.newData = [⟨id, d₀⟩]) {d : Deliverable} (location : d.location = key)
    {flag : BitVec 8} {chunk : DataChunkValue} (chunks : d.packet.chunks = [⟨flag, .data chunk⟩])
    (now : Time) :
    (s.packetSent now ⟨.newData, d, id⟩).localAddress = s.localAddress
      ∧ (s.packetSent now ⟨.newData, d, id⟩).associations
        = .single key { recordDataSentIn b d.destination chunk now with
            burstCount := (recordDataSentIn b d.destination chunk now).burstCount + 1 }
      ∧ (s.packetSent now ⟨.newData, d, id⟩).sends
        = { s.sends with newData := [], nextSendAttempt := 0 }
      ∧ ∀ timer, timer.type ≠ .t3Rtx →
        (s.packetSent now ⟨.newData, d, id⟩).expirations.isActive timer
          = s.expirations.isActive timer := by
  have committed : s.sends.commit ⟨.newData, d, id⟩
      = { s.sends with newData := [], nextSendAttempt := 0 } := by
    simp [SendQueue.commit, newData]
  have recorded : d.packet.chunks.foldl (fun s chunk => Socket.chunkSent s d now chunk)
      { s with sends := { s.sends with newData := [], nextSendAttempt := 0 } }
      = { s with
          sends := { s.sends with newData := [], nextSendAttempt := 0 }
          associations := .single key (recordDataSentIn b d.destination chunk now) } := by
    rw [chunks]
    simp only [List.foldl_cons, List.foldl_nil, Socket.chunkSent, Socket.recordDataSent,
      Socket.updateAssociation, location, alone, KeyMap.modify_single, transmits, if_true]
  have carries : containsChunk d.packet .data = true := by
    rw [containsChunk, chunks]
    rfl
  unfold Socket.packetSent Socket.scheduleExpirationsAfterSend
  simp only [committed, recorded, carries, if_true, ne_eq, not_true_eq_false, if_false]
  obtain ⟨localAddress, associations, sends, timers⟩ := T3Only.startT3IfStopped
    { s with
      sends := { s.sends with newData := [], nextSendAttempt := 0 }
      associations := .single key (recordDataSentIn b d.destination chunk now) } now d.location
        d.destination
  refine ⟨localAddress, ?_, sends, timers⟩
  rw [Socket.updateAssociation, associations, location, KeyMap.modify_single]

end Chunk

namespace Filling

variable {chunks cwnd : Nat} {a : Association} {path : PeerPath}

/-- A chunk more is in flight. -/
theorem recorded (filling : Filling chunks cwnd a path) (room : 1200 * (chunks + 1) < 2 ^ 32)
    {b : Association} (cut : b = { a with
      nextTsn := a.nextTsn + 1#32, nextSsn := b.nextSsn, outbound := []
      outboundBytes := b.outboundBytes, burstCount := b.burstCount })
    {chunk : DataChunkValue} (tsn : chunk.tsn = a.nextTsn) (full : dataChunkWireSize chunk = 1200)
    (destination : SockAddr) (count : Nat) :
    ∃ path', Filling (chunks + 1) cwnd
      { recordDataSentIn b destination chunk 0 with burstCount := count } path' := by
  have paths : b.peerAddressList = [path] := by rw [cut]; exact filling.paths
  have absent : a.outstandingData.get? a.nextTsn = none := by
    cases here : a.outstandingData.get? a.nextTsn with
    | none => rfl
    | some o =>
      have sent := (filling.flying _ _ here).sent
      simp at sent
  have outstanding : b.outstandingData = a.outstandingData := by rw [cut]
  have new : b.outstandingData.contains chunk.tsn = false := by
    rw [outstanding, tsn]
    exact KeyMap.contains_eq_false.mpr absent
  have recorded : recordDataSentIn b destination chunk 0 = recordFirstSent { b with
      peerAddressList := [{ path with dataSentAt := 0, idleDecaying := false }]
      peerRwnd := b.peerRwnd - min b.peerRwnd (dataChunkWireSize chunk) } 0 chunk 0
      (decide (dataChunkWireSize chunk > b.peerRwnd)) := by
    unfold recordDataSentIn
    simp only [sentOn_zero paths, Association.modifyPath, paths, List.modify_zero_cons,
      new, Bool.false_eq_true, if_false]
  have few : chunks < 2 ^ 31 := by omega
  have rwnd : b.peerRwnd = a.peerRwnd := by rw [cut]
  have left := filling.room
  rw [recorded, recordFirstSent]
  refine ⟨{ path with dataSentAt := 0, idleDecaying := false, newDataSentAt := 0 }, ?_⟩
  refine ⟨?_, ?_, ?_, ?_, ?_, rfl, ?_, ?_, rfl, filling.cwnd, filling.uncounted, filling.many,
    rfl, ?_, ?_, ?_⟩
  · rw [cut]; exact filling.state
  · rw [cut]; exact filling.thisVerTag
  · rw [cut]; exact filling.pmdcs
  · rw [cut]; exact filling.outStreams
  · rw [cut]; exact filling.recovering
  · rw [cut]; rfl
  · simp only [Association.modifyPath, rwnd, full]
    omega
  · have more (u : OutstandingData) : (a.outstandingData.emplaceBy tsnLt a.nextTsn u).entries.Perm
        ((a.nextTsn, u) :: a.outstandingData.entries) := KeyMap.perm_emplaceBy absent
    simp only [Association.modifyPath, outstanding, tsn]
    rw [(more _).length_eq, List.length_cons, filling.count]
  · intro tsn' o here
    simp only [Association.modifyPath, outstanding, tsn] at here
    rw [KeyMap.get?_emplaceBy] at here
    have next : b.nextTsn = a.nextTsn + 1#32 := by rw [cut]
    simp only [Association.modifyPath, next]
    split at here
    · next same =>
      rw [absent] at here
      cases here
      rw [same]
      refine ⟨rfl, rfl, full, ?_, ?_⟩ <;> bv_omega
    · have old := filling.flying tsn' o here
      have sent := old.sent
      have recent := old.recent
      refine ⟨old.gapAcked, old.unmarked, old.full, ?_, ?_⟩ <;> bv_omega
  · have point := filling.point
    have next : b.nextTsn = a.nextTsn + 1#32 := by rw [cut]
    have acked : b.cumulativeTsnAck = a.cumulativeTsnAck := by rw [cut]
    simp only [Association.modifyPath, next, acked]
    rw [show a.nextTsn + 1#32 - a.cumulativeTsnAck = a.nextTsn - a.cumulativeTsnAck + 1#32 by
      bv_omega, point]
    apply BitVec.eq_of_toNat_eq
    simp only [BitVec.toNat_add, BitVec.toNat_ofNat]
    omega

end Filling


/-! ## A SACK of everything -/

/-- The SACK that acknowledges all that was sent, from a peer whose window is as large as it
can be. -/
def sackAll (a : Association) : SackChunkValue :=
  ⟨a.nextTsn - 1#32, 0xFFFFFFFF#32, 0#16, 0#16, [], []⟩

theorem acksUnsent_sackAll (a : Association) : acksUnsent a (sackAll a) = false := by
  have before : tsnLt (a.nextTsn - 1#32) a.nextTsn = true := by
    rw [tsnLt_iff]
    constructor <;> bv_omega
  simp [acksUnsent, sackAll, before]

namespace Filling

variable {chunks cwnd : Nat} {a : Association} {path : PeerPath}

theorem below (filling : Filling chunks cwnd a path) (fits : 1200 * chunks < 2 ^ 32) {tsn : Tsn}
    {o : OutstandingData} (here : a.outstandingData.get? tsn = some o) :
    tsnLte tsn (sackAll a).cumulativeTsnAck = true := by
  have flies := filling.flying tsn o here
  have sent := flies.sent
  have recent := flies.recent
  rw [tsnLte, Bool.or_eq_true, beq_iff_eq, tsnLt_iff, sackAll]
  by_cases last : tsn = a.nextTsn - 1#32
  · exact Or.inl last
  · right
    constructor <;> bv_omega

theorem later (filling : Filling chunks cwnd a path) (fits : 1200 * chunks < 2 ^ 32) :
    tsnLt (sackAll a).cumulativeTsnAck a.cumulativeTsnAck = false := by
  have point := filling.point
  have few : chunks + 1 < 2 ^ 31 := by omega
  rw [← Bool.not_eq_true, tsnLt_iff, sackAll]
  rintro ⟨ahead, half⟩
  have gap : (a.nextTsn - a.cumulativeTsnAck).toNat = chunks + 1 := by
    rw [point, BitVec.toNat_ofNat]
    omega
  bv_omega

/-- Nothing is left of what it acknowledges. -/
theorem acknowledged_nil (filling : Filling chunks cwnd a path) (fits : 1200 * chunks < 2 ^ 32) :
    (a.outstandingData.filterMap (ackEntry (sackAll a))).entries = [] := by
  rw [List.eq_nil_iff_forall_not_mem]
  rintro ⟨tsn, o⟩ member
  have here := KeyMap.mem_entries.mp member
  rw [KeyMap.get?_filterMap, Option.bind_eq_some_iff] at here
  obtain ⟨o, before, kept⟩ := here
  have gone : ackEntry (sackAll a) tsn o = none := if_pos (filling.below fits before)
  rw [gone] at kept
  cases kept

/-- All that is in flight counts as acknowledged by it. -/
theorem acknowledged_eq (filling : Filling chunks cwnd a path) (fits : 1200 * chunks < 2 ^ 32) :
    (sentTo a 0).filter (newlyAcks (sackAll a)) = a.outstandingData.entries := by
  have here : sentTo a 0 = a.outstandingData.entries := by
    refine List.filter_eq_self.mpr fun e _ => ?_
    rw [destinationOf_zero filling.paths]
    rfl
  rw [here, List.filter_eq_self]
  rintro ⟨tsn, o⟩ member
  have found := KeyMap.mem_entries.mp member
  rw [newlyAcks, sackAcknowledges_of_below (filling.below fits found),
    (filling.flying tsn o found).gapAcked]
  rfl

theorem finishSack_rwnd {b : Association} (nothing : b.outstandingData.entries = [])
    (sack : SackChunkValue) :
    (finishSack sack b).peerRwnd = sack.aRwnd.toNat := by
  unfold finishSack
  simp only
  (repeat' split) <;> simp [bytesInFlight, flightOf, nothing]

/-- The window grows by the packet that a full window may grow by, in 32 bits. -/
theorem growCwnd_full (path : PeerPath) (uncounted : path.partialBytesAcked = 0) (some : 0 < chunks)
    (fits : 1200 * chunks < 2 ^ 32) (full : path.cwnd ≤ 1200 * chunks) :
    ∃ partialBytesAcked, growCwnd false 1200 path (1200 * chunks) 0 (1200 * chunks)
      = { path with cwnd := (path.cwnd + 1200) % 2 ^ 32, partialBytesAcked :=
        partialBytesAcked } := by
  have whole : (1200 * chunks) % 2 ^ 32 = 1200 * chunks := Nat.mod_eq_of_lt fits
  have step : min (1200 * chunks) (slowStartIncreasePmdcs * 1200) = 1200 :=
    Nat.min_eq_right (by rw [slowStartIncreasePmdcs]; omega)
  unfold growCwnd
  simp only [ge_iff_le, full, uncounted, Nat.add_zero, Nat.zero_add, whole, step]
  split
  · exact ⟨_, rfl⟩
  · exact ⟨_, rfl⟩

theorem ackPath_full (filling : Filling chunks cwnd a path) (some : 0 < chunks)
    (fits : 1200 * chunks < 2 ^ 32) (full : cwnd ≤ 1200 * chunks) {remaining : Association}
    (nothing : remaining.outstandingData.entries = []) {measured : PeerPath}
    (same : measured.cwnd = cwnd) (uncounted : measured.partialBytesAcked = 0) :
    ackPath a (sackAll a) remaining [] 0 measured = { (clearPathErrors measured).1 with
      singlePacketInFlight := false, cwnd := (cwnd + 1200) % 2 ^ 32, partialBytesAcked := 0 } := by
  have gone : (sentTo remaining 0).isEmpty = true := by
    rw [sentTo, nothing]
    rfl
  have entries : a.outstandingData.entries.isEmpty = false := by
    rw [List.isEmpty_eq_false_iff, ← List.length_pos_iff, filling.count]
    exact some
  have bytes : (a.outstandingData.entries.map fun e => dataChunkWireSize e.2.data).sum % 2 ^ 32
      = 1200 * chunks := by
    have each : ∀ e ∈ a.outstandingData.entries, dataChunkWireSize e.2.data = 1200 :=
      fun e member => (filling.flying e.1 e.2 (KeyMap.mem_entries.mp member)).full
    rw [List.map_congr_left each, List.map_const', List.sum_replicate_nat, filling.count,
      Nat.mul_comm, Nat.mod_eq_of_lt fits]
  obtain ⟨partialBytesAcked, grown⟩ := growCwnd_full
    { (clearPathErrors measured).1 with singlePacketInFlight := false } uncounted some fits
    (Nat.le_trans (Nat.le_of_eq same) full)
  unfold ackPath
  simp only [filling.acknowledged_eq fits, entries, bytes, gone, filling.pmdcs, filling.recovering,
    filling.bytesInFlightOn_eq, List.filter_nil, List.map_nil, List.sum_nil, Nat.zero_mod,
    Bool.false_eq_true, if_false, Bool.not_false, Bool.true_or, if_true]
  rw [grown, ← same]
  rfl

/-- One path is left, with its RTO measured and its window grown. -/
theorem acked (filling : Filling chunks cwnd a path) (some : 0 < chunks)
    (fits : 1200 * chunks < 2 ^ 32) (full : cwnd ≤ 1200 * chunks) (now : Time) :
    (applySack a (sackAll a) now).enteredFastRecovery = false
      ∧ ∃ path', Filling 0 ((cwnd + 1200) % 2 ^ 32) (applySack a (sackAll a) now).assoc path' := by
  have empty : (acknowledgeEntries a (sackAll a) now).outstandingData.entries = [] :=
    filling.acknowledged_nil fits
  have counted : (countedSack a (sackAll a) now).outstandingData.entries = [] := by
    have mapped : (countedSack a (sackAll a) now).outstandingData
        = (acknowledgeEntries a (sackAll a) now).outstandingData.mapVals
          (missEntry (missingBelow a (sackAll a))
          ((a.outstandingData.entries.filter (reneges (sackAll a))).map Prod.fst)) := rfl
    rw [mapped, KeyMap.entries_mapVals, empty]
    rfl
  have unmarked : markedSack a (sackAll a) now = [] := by
    rw [markedSack, fastRetransmits, counted]
    rfl
  have left : (applySack a (sackAll a) now).assoc
      = finishSack (sackAll a) (countedSack a (sackAll a) now) := by
    rw [applySack_eq, unmarked]
    rfl
  obtain ⟨measured, paths, kept⟩ :
      ∃ measured, (acknowledgeEntries a (sackAll a) now).peerAddressList = [measured]
      ∧ (measured = path ∨ ∃ micros, measured = updateRto path micros) := by
    unfold acknowledgeEntries
    cases rttSample a (sackAll a) with
    | none => exact ⟨path, filling.paths, Or.inl rfl⟩
    | some sample =>
      simp only [Association.modifyPath, filling.paths]
      cases sample.1 with
      | zero => exact ⟨_, rfl, Or.inr ⟨_, rfl⟩⟩
      | succ i => exact ⟨path, by simp, Or.inl rfl⟩
  obtain ⟨wide, uncounted, sentAt⟩ : measured.cwnd = cwnd ∧ measured.partialBytesAcked = 0
      ∧ measured.dataSentAt = 0 := by
    rcases kept with rfl | ⟨micros, rfl⟩
    · exact ⟨filling.cwnd, filling.uncounted, filling.sentAt⟩
    · unfold updateRto
      simp only
      (repeat' split) <;> exact ⟨filling.cwnd, filling.uncounted, filling.sentAt⟩
  have windows : (applySack a (sackAll a) now).assoc.peerAddressList
      = [{ (clearPathErrors measured).1 with
        singlePacketInFlight := false, cwnd := (cwnd + 1200) % 2 ^ 32, partialBytesAcked :=
          0 }] := by
    rw [left, (finishSack_spec _ _).1]
    have mapped : (countedSack a (sackAll a) now).peerAddressList
        = (acknowledgeEntries a (sackAll a) now).peerAddressList.mapIdx
      fun i path => ackPath a (sackAll a) (acknowledgeEntries a (sackAll a) now) [] i path := rfl
    rw [mapped, paths, ← filling.ackPath_full some fits full empty wide uncounted]
    rfl
  have nothing : (applySack a (sackAll a) now).assoc.outstandingData.entries = [] := by
    rw [outstandingData_applySack]
    exact counted
  have recovering : (applySack a (sackAll a) now).assoc.inFastRecovery = false := by
    rw [left, (finishSack_spec _ _).2.1, (countedSack_spec a (sackAll a) now).2.2.1,
      filling.recovering]
    rfl
  have rwnd : (applySack a (sackAll a) now).assoc.peerRwnd = 2 ^ 32 - 1 := by
    rw [left, finishSack_rwnd counted]
    rfl
  have only := applySack_only a (sackAll a) now
  have acked := applySack_cumulativeTsnAck a (sackAll a) now
  have outside : (applySack a (sackAll a) now).enteredFastRecovery = false := by
    rw [applySack_eq, unmarked]
    rfl
  refine ⟨outside, _, ?_, ?_, ?_, ?_, recovering, ?_, ?_, ?_, windows, rfl, rfl, rfl, sentAt, ?_,
    ?_, ?_⟩
  · rw [only]; exact filling.state
  · rw [only]; exact filling.thisVerTag
  · rw [only]; exact filling.pmdcs
  · rw [only]; exact filling.outStreams
  · rw [only]; exact filling.probing
  · rw [only]; exact filling.outbound
  · exact rwnd
  · rw [nothing]; rfl
  · intro tsn o here
    have member := KeyMap.mem_entries.mpr here
    rw [nothing] at member
    cases member
  · have next : (applySack a (sackAll a) now).assoc.nextTsn = a.nextTsn := by rw [only]
    rw [next, acked, sackAll]
    bv_omega

end Filling


/-- An association that notes the port its peer sends from. -/
def portNoted (a : Association) (src : SockAddr) : Association :=
  match findPath a src with
  | none => a
  | some i => a.modifyPath i fun path =>
      { path with address := { path.address with port := src.port } }

theorem portNoted_only (a : Association) (src : SockAddr) :
    portNoted a src = { a with peerAddressList := (portNoted a src).peerAddressList } := by
  unfold portNoted
  split <;> rfl

theorem Filling.portNoted {chunks cwnd : Nat} {a : Association} {path : PeerPath}
    (filling : Filling chunks cwnd a path) (src : SockAddr) :
    ∃ path', Filling chunks cwnd (portNoted a src) path' := by
  obtain ⟨path', paths, wide, uncounted, many, sentAt⟩ :
      ∃ path', (SctpStack.portNoted a src).peerAddressList = [path']
      ∧ path'.cwnd = cwnd ∧ path'.partialBytesAcked = 0 ∧ path'.singlePacketInFlight = false
      ∧ path'.dataSentAt = 0 := by
    unfold SctpStack.portNoted
    cases findPath a src with
    | none => exact ⟨path, filling.paths, filling.cwnd, filling.uncounted, filling.many,
        filling.sentAt⟩
    | some i =>
      simp only [Association.modifyPath, filling.paths]
      cases i with
      | zero => exact ⟨_, rfl, filling.cwnd, filling.uncounted, filling.many, filling.sentAt⟩
      | succ i => exact ⟨path, by simp, filling.cwnd, filling.uncounted, filling.many,
          filling.sentAt⟩
  refine ⟨path', ?_⟩
  rw [portNoted_only, paths]
  exact ⟨filling.state, filling.thisVerTag, filling.pmdcs, filling.outStreams, filling.recovering,
    filling.probing, filling.outbound, filling.room, rfl, wide, uncounted, many, sentAt,
    filling.count, filling.flying, filling.point⟩

/-- The packet that carries it. -/
def sackPacket (a : Association) : Packet :=
  ⟨⟨5000#16, 5000#16, 1#32⟩, [⟨0#8, .sack (sackAll a)⟩]⟩

/-- A packet with nothing but a SACK is that SACK, once the port it came from is noted. -/
theorem acceptPacket_sack (s : Socket) (now : Time) (draws : Nat → Draws) (header : CommonHeader)
    (flag : BitVec 8) (sack : SackChunkValue) (key : AssociationKey) (src : SockAddr) :
    s.acceptPacket now draws ⟨header, [⟨flag, .sack sack⟩]⟩ key src
      = ((s.recordEncapsulationPort key src).extendShutdown now key).handleSack now header sack key
        src := by
  have apart : ([⟨flag, .sack sack⟩] : List Chunk).head?.any
      (fun chunk => decide (chunk.type = .init)) = false := rfl
  have handled (s : Socket) : Socket.handleChunks now draws header key src 0 [⟨flag, .sack sack⟩] s
      = (false, s.handleSack now header sack key src) := rfl
  unfold Socket.acceptPacket Socket.handleRest
  simp only [stripUnrecognized, apart, handled, Bool.false_eq_true, if_false, List.isEmpty_nil,
    if_true]
  refine handleDataPacket_noData _ now (fun chunk member => ?_) key src _
  rw [List.mem_singleton.mp member]
  exact (by decide : ChunkType.sack ≠ .data)

/-- The socket with another association in place of its own. -/
def holding (s : Socket) (a : Association) : Socket :=
  { s with associations := .single Opened.key a }

/-- A socket with one association, as `Filling` says, and nothing queued. -/
structure Flooding (chunks cwnd : Nat) (s : Socket) (a : Association) (path : PeerPath) : Prop where
  localAddress : s.localAddress = Opened.own
  alone : s.associations = .single Opened.key a
  control : s.sends.control = []
  retransmission : s.sends.retransmission = []
  newData : s.sends.newData = []
  ready : s.sends.nextSendAttempt ≤ 0
  quiet : s.expirations.isActive (timerOf Opened.key .delayedSack) = false
  unprobed : s.expirations.isActive (timerOf Opened.key .zeroWindowProbe) = false
  filling : Filling chunks cwnd a path

namespace Flooding

variable {chunks cwnd : Nat} {s : Socket} {a : Association} {path : PeerPath}

/-- A SACK of everything opens the window by a packet, and stops T3-rtx. -/
theorem acceptSack (flooding : Flooding chunks cwnd s a path) (some : 0 < chunks)
    (fits : 1200 * chunks < 2 ^ 32) (full : cwnd ≤ 1200 * chunks) (now : Time) :
    ∃ b path',
      Flooding 0 ((cwnd + 1200) % 2 ^ 32) (s.acceptSack now (sackAll a) Opened.key a) b path'
        ∧ (s.acceptSack now (sackAll a) Opened.key a).expirations.isActive
          (pathTimerOf Opened.key .t3Rtx path'.address) = false := by
  obtain ⟨outside, path', filling⟩ := flooding.filling.acked some fits full now
  have nothing : hasUnacknowledgedData (applySack a (sackAll a) now).assoc 0 = false := by
    rw [hasUnacknowledgedData, List.length_eq_zero_iff.mp filling.count]
    rfl
  obtain ⟨notifications, acknowledged⟩ :=
    notifyAcked_eq (s.setAssociation Opened.key (applySack a (sackAll a) now).assoc) Opened.key
      a (sackAll a)
  have actions : s.t3Actions Opened.key a (sackAll a) (applySack a (sackAll a) now)
      = if s.expirations.isActive (pathTimerOf Opened.key .t3Rtx path'.address)
        then [(path'.address, .stop)] else [] := by
    unfold Socket.t3Actions
    rw [filling.paths]
    simp only [List.length_singleton, List.range_one, List.filterMap_cons, List.filterMap_nil,
      t3Action, nothing, path_zero filling.paths, Bool.not_false, if_true]
    cases s.expirations.isActive (pathTimerOf Opened.key .t3Rtx path'.address) <;> rfl
  have dropped : s.sends.removeAckedRetransmissions Opened.key (sackAll a) = s.sends := by
    unfold SendQueue.removeAckedRetransmissions
    rw [flooding.retransmission, show dropChunks _ _ [] = [] from rfl, ← flooding.retransmission]
  have before : ((s.setAssociation Opened.key (applySack a (sackAll a) now).assoc).notifyAcked
      Opened.key a (sackAll a)).removeAckedRetransmissions Opened.key (sackAll a)
      = { s with
          associations := .single Opened.key (applySack a (sackAll a) now).assoc
          notifications := notifications } := by
    rw [acknowledged, setAssociation_alone flooding.alone, Socket.removeAckedRetransmissions]
    simp only [dropped]
  have last : ∀ s' : Socket, s'.associations
      = .single Opened.key (applySack a (sackAll a) now).assoc →
        s'.doNextShutdownStep now Opened.key = s' := by
    intro s' alone
    have none : s'.nextShutdownStep Opened.key (applySack a (sackAll a) now).assoc = none := by
      unfold Socket.nextShutdownStep
      rw [filling.state]
      split <;> rfl
    unfold Socket.doNextShutdownStep
    simp only [find?_alone alone, none]
  unfold Socket.acceptSack
  simp only [before, actions, outside, Bool.false_eq_true, if_false]
  cases active : s.expirations.isActive (pathTimerOf Opened.key .t3Rtx path'.address) with
  | false =>
    simp only [Bool.false_eq_true, if_false, List.foldl_nil]
    rw [last _ rfl]
    exact ⟨_, _, ⟨flooding.localAddress, rfl, flooding.control, flooding.retransmission,
      flooding.newData, flooding.ready, flooding.quiet, flooding.unprobed, filling⟩, active⟩
  | true =>
    simp only [if_true, List.foldl_cons, List.foldl_nil, Socket.runT3Action]
    rw [last _ rfl]
    refine ⟨_, path', ⟨flooding.localAddress, rfl, flooding.control, flooding.retransmission,
      flooding.newData, flooding.ready, ?_, ?_, filling⟩, ?_⟩
    · exact ((T3Only.cancel _ rfl).timers _ (by decide)).trans flooding.quiet
    · exact ((T3Only.cancel _ rfl).timers _ (by decide)).trans flooding.unprobed
    · simp

/-- The packet is the association's. -/
theorem accepts (flooding : Flooding chunks cwnd s a path) :
    s.packetKey (sackPacket a) Opened.peer = Opened.key
      ∧ s.validateVerificationTag (sackPacket a) Opened.key = .accept := by
  have found := find?_alone flooding.alone
  have known := KeyMap.contains_eq_true.mpr ⟨a, found⟩
  constructor
  · unfold Socket.packetKey
    have here : s.associationKeyFor (peerKey Opened.peer 5000#16) = Opened.key := if_pos known
    simp only [sackPacket, here]
    exact if_pos known
  · unfold Socket.validateVerificationTag
    simp only [sackPacket, flooding.localAddress, found, flooding.filling.state,
      flooding.filling.thisVerTag]
    rfl

theorem handlePacket (flooding : Flooding chunks cwnd s a path) (some : 0 < chunks)
    (fits : 1200 * chunks < 2 ^ 32) (full : cwnd ≤ 1200 * chunks) (draws : Nat → Draws) :
    ∃ b path',
      Flooding 0 ((cwnd + 1200) % 2 ^ 32)
          (s.handlePacket 0 draws (sackPacket a) Opened.peer) b path'
        ∧ (s.handlePacket 0 draws (sackPacket a) Opened.peer).expirations.isActive
          (pathTimerOf Opened.key .t3Rtx path'.address) = false := by
  obtain ⟨path', filling⟩ := flooding.filling.portNoted Opened.peer
  have next : (portNoted a Opened.peer).nextTsn = a.nextTsn := by rw [portNoted_only]
  have same : sackAll a = sackAll (portNoted a Opened.peer) := by rw [sackAll, sackAll, next]
  have noted : s.recordEncapsulationPort Opened.key Opened.peer
      = holding s (portNoted a Opened.peer) := by
    unfold Socket.recordEncapsulationPort Socket.updateAssociation
    rw [flooding.alone, KeyMap.modify_single]
    rfl
  generalize portNoted a Opened.peer = b at filling same noted
  have found : (holding s b).find? Opened.key = .some b := find?_alone rfl
  have extended : (holding s b).extendShutdown 0 Opened.key = holding s b := by
    unfold Socket.extendShutdown
    simp only [found, filling.state, reduceCtorEq, if_false]
  have taken (header : CommonHeader) : (holding s b).handleSack 0 header (sackAll b) Opened.key
      Opened.peer = (holding s b).acceptSack 0 (sackAll b) Opened.key b := by
    unfold Socket.handleSack
    simp only [found, filling.state, acksUnsent_sackAll b, filling.later fits]
    rfl
  have handled : s.handlePacket 0 draws (sackPacket a) Opened.peer
      = (holding s b).acceptSack 0 (sackAll b) Opened.key b := by
    unfold Socket.handlePacket
    simp only [flooding.accepts.1, flooding.accepts.2]
    rw [sackPacket, acceptPacket_sack, noted, extended, same, taken]
  have flooding' : Flooding chunks cwnd (holding s b) b path' :=
    ⟨flooding.localAddress, rfl, flooding.control, flooding.retransmission, flooding.newData,
      flooding.ready, flooding.quiet, flooding.unprobed, filling⟩
  rw [handled]
  exact flooding'.acceptSack some fits full 0

/-- The message that fills a packet. -/
def fullMessage : Bytes := List.replicate 1184 0#8

theorem queueMessage_full (filling : Filling chunks cwnd a path) :
    sendStatus a fullMessage 0#16 = .ok := by
  have some : fullMessage.isEmpty = false := rfl
  unfold sendStatus
  simp only [filling.state, filling.outStreams, filling.outbound, some]
  rfl

theorem lone (flooding : Flooding chunks cwnd s a path) : Lone 0 s Opened.key a where
  alone := flooding.alone
  transmits := by
    rw [flooding.filling.state]
    rfl
  still := flooding.filling.decayPaths_eq
  unmarked := flooding.filling.markedChunks_nil
  control := flooding.control
  retransmission := flooding.retransmission
  newData := flooding.newData

/-- A pass that finds nothing ends the batch. -/
theorem idle (flooding : Flooding chunks cwnd s a path) (left : Nat)
    (cutAs : AssociationKey → Tsn → Option DataChunkValue) : ∃ s' cutAs',
      System.step ⟨s, some (left + 1), cutAs⟩ (.send 0 true) = some ⟨s', none, cutAs'⟩
      ∧ Flooding chunks cwnd s' a path := by
  obtain ⟨pending, blocked, socket⟩ :=
    flooding.lone.nextPacket_nothing (Or.inr flooding.filling.outbound)
  refine ⟨(s.nextPacket 0).socket, (s.nextPacket 0).cut.foldl System.recordCut cutAs, ?_, ?_⟩
  · simp only [System.step, System.sendOne, pending]
  · rw [socket]
    exact ⟨flooding.localAddress, flooding.alone, flooding.control, flooding.retransmission,
      flooding.newData, flooding.ready, flooding.quiet, flooding.unprobed, flooding.filling⟩

/-- The association with a message queued that fills a packet. -/
structure Queued (a b : Association) (message : OutboundMessage) : Prop where
  only : b = { a with
    nextSsn := b.nextSsn, outbound := [message], outboundBytes := b.outboundBytes, burstCount := 0 }
  fresh : message.offset = 0
  long : message.bytes.length = 1184

namespace Queued

variable {b : Association} {message : OutboundMessage}

theorem cwndOpen_eq (queued : Queued a b message) (filling : Filling chunks cwnd a path) :
    cwndOpen b (dataPath b) = decide (1200 * chunks < cwnd) := by
  have same : cwndOpen b (dataPath b) = cwndOpen a (dataPath a) := by
    rw [queued.only]
    rfl
  rw [same, filling.cwndOpen_eq]

/-- The message changes nothing that sending looks at first. -/
theorem lone (queued : Queued a b message) (flooding : Flooding chunks cwnd s a path) :
    Lone 0 (holding s b) Opened.key b := by
  have lone := flooding.lone
  have decayed : decayPaths 0 b
      = { b with peerAddressList := (decayPaths 0 a).peerAddressList } := by
    rw [queued.only]
    rfl
  have marked : markedChunks b = markedChunks a := by
    rw [queued.only]
    rfl
  refine ⟨rfl, ?_, ?_, marked.trans lone.unmarked, lone.control, lone.retransmission, lone.newData⟩
  · rw [queued.only]
    exact lone.transmits
  · rw [decayed, lone.still, queued.only]

/-- The windows have room for it. -/
theorem cuttable (queued : Queued a b message) (filling : Filling chunks cwnd a path)
    (less : 1200 * chunks < cwnd) (room : 1200 * (chunks + 1) < 2 ^ 32) : Cuttable b message := by
  have window := filling.room
  refine ⟨?_, ?_, queued.fresh, queued.long, ?_, ?_,
    (queued.cwndOpen_eq filling).trans (decide_eq_true less), ?_⟩
  · rw [queued.only]; exact filling.pmdcs
  · rw [queued.only]
  · rw [queued.only]; exact filling.probing
  · rw [queued.only]; simp only; omega
  · rw [queued.only]

end Queued

/-- A message is queued, and a batch begins. -/
theorem queue {cutAs : AssociationKey → Tsn → Option DataChunkValue}
    (reached : System.Reached (fun _ _ => True) ⟨s, none, cutAs⟩)
    (flooding : Flooding chunks cwnd s a path) :
    ∃ b message, System.Reached (fun _ _ => True) ⟨holding s b, some maxSendBatch, cutAs⟩
      ∧ Queued a b message := by
  have filling := flooding.filling
  have sent : System.step ⟨s, none, cutAs⟩ (.sendData Opened.key fullMessage 0#16 false)
      = some ⟨holding s (queueMessage a fullMessage 0#16 false), none, cutAs⟩ := by
    simp only [System.step, System.call, Option.map_some, Socket.sctpSendData,
      find?_alone flooding.alone, queueMessage_full filling, if_true,
      setAssociation_alone flooding.alone, holding]
  have started : System.step ⟨holding s (queueMessage a fullMessage 0#16 false), none, cutAs⟩
      .startSending
      = some ⟨holding s { queueMessage a fullMessage 0#16 false with burstCount := 0 },
        some maxSendBatch, cutAs⟩ := rfl
  obtain ⟨message, outbound, fresh, long⟩ :
      ∃ message, (queueMessage a fullMessage 0#16 false).outbound = [message]
      ∧ message.offset = 0 ∧ message.bytes.length = 1184 := by
    simp only [queueMessage, filling.outbound, List.nil_append]
    exact ⟨_, rfl, rfl, List.length_replicate⟩
  refine ⟨_, message, (reached.next trivial sent).next trivial started, ?_, fresh, long⟩
  rw [← outbound]
  rfl

/-- The message goes out. -/
theorem more {σ : System} (reached : System.Reached (fun _ _ => True) σ) (idle : σ.batch = none)
    (flooding : Flooding chunks cwnd σ.socket a path) (less : 1200 * chunks < cwnd)
    (room : 1200 * (chunks + 1) < 2 ^ 32) :
    ∃ σ' b path', System.Reached (fun _ _ => True) σ' ∧ σ'.batch = none
      ∧ Flooding (chunks + 1) cwnd σ'.socket b path' := by
  obtain ⟨s, batch, cutAs⟩ := σ
  subst idle
  change Flooding chunks cwnd s a path at flooding
  have filling := flooding.filling
  obtain ⟨b, message, reached, queued⟩ := flooding.queue reached
  have lone := queued.lone flooding
  have ahead := queued.cuttable filling less room
  obtain ⟨d, flag, pending, location, packed, socket⟩ :=
    nextPacket_full lone ahead flooding.ready flooding.quiet
  have passed : System.step ⟨holding s b, some maxSendBatch, cutAs⟩ (.send 0 true)
      = some ⟨((holding s (emptied b)).enqueuePacket (fullPacket (holding s b) Opened.key b message)
          .newData).packetSent 0 ⟨.newData, d, s.sends.nextId⟩,
        some 63, ((holding s b).nextPacket 0).cut.foldl System.recordCut cutAs⟩ := by
    simp only [System.step, maxSendBatch, System.sendOne, pending, socket]
    rfl
  have waiting : ((holding s (emptied b)).enqueuePacket
      (fullPacket (holding s b) Opened.key b message) .newData).sends.newData
        = [⟨s.sends.nextId, fullPacket (holding s b) Opened.key b message⟩] := by
    simp [Socket.enqueuePacket, SendQueue.enqueue, holding, flooding.newData]
  obtain ⟨localAddress, associations, sends, timers⟩ :=
    packetSent_full (b := emptied b) rfl lone.transmits waiting location packed 0
  have next : (cutChunk b message 1184).tsn = a.nextTsn := by
    rw [queued.only]
    rfl
  obtain ⟨path', filling'⟩ := filling.recorded room (b := emptied b) (by rw [queued.only]; rfl) next
    ahead.dataChunkWireSize d.destination
    ((recordDataSentIn (emptied b) d.destination (cutChunk b message 1184) 0).burstCount + 1)
  obtain ⟨c, flooding'⟩ : ∃ c, Flooding (chunks + 1) cwnd
      (((holding s (emptied b)).enqueuePacket (fullPacket (holding s b) Opened.key b message)
        .newData).packetSent 0 ⟨.newData, d, s.sends.nextId⟩) c path' := by
    refine ⟨_, localAddress.trans flooding.localAddress, associations, ?_, ?_, ?_, ?_, ?_, ?_,
      filling'⟩
    · rw [sends]; exact flooding.control
    · rw [sends]; exact flooding.retransmission
    · rw [sends]
    · rw [sends]
    · rw [timers _ (by decide)]; exact flooding.quiet
    · rw [timers _ (by decide)]; exact flooding.unprobed
  generalize ((holding s (emptied b)).enqueuePacket (fullPacket (holding s b) Opened.key b message)
    .newData).packetSent 0 ⟨.newData, d, s.sends.nextId⟩ = s' at passed flooding'
  obtain ⟨s'', cutAs'', ended, flooding''⟩ := flooding'.idle 62
    (((holding s b).nextPacket 0).cut.foldl System.recordCut cutAs)
  have reached' := (reached.next trivial passed).next trivial ended
  exact ⟨_, _, _, reached', rfl, flooding''⟩

end Flooding

/-! ## The rounds -/

/-- A run fills the window so far. -/
def Flooded (chunks cwnd : Nat) : Prop :=
  ∃ σ a path, System.Reached (fun _ _ => True) σ ∧ σ.batch = none
    ∧ Flooding chunks cwnd σ.socket a path

namespace Flooded

/-- The events that open the association and its window, to five packets less a few bytes. -/
def opening : List Event :=
  [.sendData Opened.key (List.replicate 876 0#8) 0#16 false] ++ Opened.batch 1
    ++ List.replicate 3 (.sendData Opened.key Flooding.fullMessage 0#16 false) ++ Opened.batch 3
    ++ [Opened.arrives [⟨0#8, .sack ⟨10#32, 0xFFFFFFFF#32, 0#16, 0#16, [], []⟩⟩],
      Opened.arrives [⟨0#8, .sack ⟨13#32, 0xFFFFFFFF#32, 0#16, 0#16, [], []⟩⟩]]

/-- What it leads to, as it is computed. -/
def opened (σ : System) : Bool :=
  decide (σ.batch = none ∧ σ.socket.localAddress = Opened.own
      ∧ σ.socket.associations.keys = [Opened.key]
      ∧ σ.socket.sends.control.length = 0 ∧ σ.socket.sends.retransmission.length = 0
      ∧ σ.socket.sends.newData.length = 0 ∧ σ.socket.sends.nextSendAttempt ≤ 0
      ∧ σ.socket.expirations.isActive (timerOf Opened.key .delayedSack) = false
      ∧ σ.socket.expirations.isActive (timerOf Opened.key .zeroWindowProbe) = false)
    && (σ.socket.find? Opened.key).any fun a => decide (a.state = .established ∧ a.thisVerTag = 1#32
      ∧ a.pmdcs = 1200 ∧ a.outStreams = 1#16 ∧ a.inFastRecovery = false
      ∧ a.zeroWindowProbeAllowed = false ∧ a.outbound.length = 0 ∧ a.peerRwnd = 2 ^ 32 - 1
      ∧ a.outstandingData.entries.length = 0 ∧ a.nextTsn - a.cumulativeTsnAck = 1#32
      ∧ a.peerAddressList.length = 1 ∧ (a.path 0).cwnd = 496 + 1200 * 4
      ∧ (a.path 0).partialBytesAcked = 0 ∧ (a.path 0).singlePacketInFlight = false
      ∧ (a.path 0).dataSentAt = 0)

theorem start : Flooded 0 (496 + 1200 * 4) := by
  obtain ⟨σ, reached, ends⟩ := Opened.exists_reached opening (p := opened) (by decide +kernel)
  rw [opened, Bool.and_eq_true, decide_eq_true_eq] at ends
  obtain ⟨⟨batch, localAddress, keys, control, retransmission, newData, ready, quiet, unprobed⟩,
      some⟩ := ends
  obtain ⟨a, found, holds⟩ := (Option.any_eq_true _ _).mp some
  obtain ⟨state, thisVerTag, pmdcs, outStreams, recovering, probing, outbound, room, count, point,
      one, wide, uncounted, many,
    sentAt⟩ := of_decide_eq_true holds
  refine ⟨σ, a, a.path 0, reached, batch, localAddress, KeyMap.eq_single keys found,
    List.length_eq_zero_iff.mp control, List.length_eq_zero_iff.mp retransmission,
    List.length_eq_zero_iff.mp newData, ready, quiet, unprobed, ?_⟩
  obtain ⟨path, paths⟩ := List.length_eq_one_iff.mp one
  have here := path_zero paths
  refine ⟨state, thisVerTag, pmdcs, outStreams, recovering, probing,
    List.length_eq_zero_iff.mp outbound, room, here.symm ▸ paths, wide, uncounted, many, sentAt,
    count, fun tsn o entry => ?_, point⟩
  have member := KeyMap.mem_entries.mpr entry
  rw [List.length_eq_zero_iff.mp count] at member
  cases member

/-- The window fills up packet by packet. -/
theorem fill {m : Nat} (flooded : Flooded 0 (496 + 1200 * m))
    (small : 496 + 1200 * m ≤ 2 ^ 32 - 1200) :
    ∀ chunks, chunks ≤ m + 1 → Flooded chunks (496 + 1200 * m)
  | 0, _ => flooded
  | chunks + 1, most => by
    obtain ⟨σ, a, path, reached, idle, flooding⟩ :=
      fill flooded small chunks (Nat.le_of_succ_le most)
    obtain ⟨σ', b, path', reached', idle', flooding'⟩ :=
      flooding.more reached idle (by omega) (by omega)
    exact ⟨σ', b, path', reached', idle', flooding'⟩

/-- A full window, acknowledged: it grows by a packet, in 32 bits. -/
theorem acknowledged {m : Nat} (flooded : Flooded 0 (496 + 1200 * m))
    (small : 496 + 1200 * m ≤ 2 ^ 32 - 1200) :
    ∃ σ a path, System.Reached (fun _ _ => True) σ ∧ σ.batch = none
      ∧ Flooding 0 ((496 + 1200 * (m + 1)) % 2 ^ 32) σ.socket a path
      ∧ σ.socket.expirations.isActive (pathTimerOf Opened.key .t3Rtx path.address) = false := by
  obtain ⟨σ, a, path, reached, idle, flooding⟩ := flooded.fill small (m + 1) (Nat.le_refl _)
  obtain ⟨b, path', flooding', stopped⟩ :=
    flooding.handlePacket (Nat.succ_pos m) (by omega) (by omega) fun _ => Opened.draws
  have larger : 496 + 1200 * m + 1200 = 496 + 1200 * (m + 1) := by omega
  rw [larger] at flooding'
  have stepped : σ.step (Opened.arrives [⟨0#8, .sack (sackAll a)⟩]) = some { σ with
      socket := σ.socket.handlePacket 0 (fun _ => Opened.draws) (sackPacket a) Opened.peer } := by
    simp only [System.step, Opened.arrives, idle, sackPacket]
  exact ⟨_, b, path', reached.next trivial stepped, idle, flooding', stopped⟩

/-- Round after round, until the window is as large as 32 bits allow. -/
theorem rounds : ∀ m, 4 ≤ m → 496 + 1200 * m ≤ 2 ^ 32 - 1200 → Flooded 0 (496 + 1200 * m) := by
  intro m least
  induction m, least using Nat.le_induction with
  | base => exact fun _ => start
  | succ m least ih =>
    intro small
    obtain ⟨σ, a, path, reached, idle, flooding, -⟩ := (ih (by omega)).acknowledged (by omega)
    rw [Nat.mod_eq_of_lt (by omega)] at flooding
    exact ⟨σ, a, path, reached, idle, flooding⟩

/-- The window of a path wraps to nothing, with nothing in flight and no timer running. -/
theorem wraps : ∃ σ a path, System.Reached (fun _ _ => True) σ ∧ σ.batch = none
    ∧ Flooding 0 0 σ.socket a path
    ∧ σ.socket.expirations.isActive (pathTimerOf Opened.key .t3Rtx path.address) = false := by
  obtain ⟨σ, a, path, reached, idle, flooding, stopped⟩ :=
    (rounds 3579138 (by decide) (by decide)).acknowledged (by decide)
  have nothing : (496 + 1200 * (3579138 + 1)) % 2 ^ 32 = 0 := by decide
  rw [nothing] at flooding
  exact ⟨σ, a, path, reached, idle, flooding, stopped⟩

end Flooded

end SctpStack
