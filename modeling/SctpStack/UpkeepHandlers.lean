import SctpStack.Upkeep

/-!
# What every handler keeps

The handlers of chunks and of timers, one after the other: each keeps what `Upkeep` asks
for.
-/

namespace SctpStack

variable {start : Option Association} {cause : Cause → Prop} {I : Prop → Association → Prop}
    (upkeep : Upkeep start cause I)
  {due : List ExpirationFallback} {key : AssociationKey} {s : Socket}

theorem receives_of_delays {state : AssociationState} (is : delays state = true) :
    receivesData state = true := by
  cases state with
  | established => rfl
  | shutdownPending => rfl
  | _ => cases is

theorem delays_of_receives {state : AssociationState} (receives : receivesData state = true)
    (other : state ≠ .shutdownSent) :
    delays state = true := by
  cases state with
  | established => rfl
  | shutdownPending => rfl
  | shutdownSent => exact absurd rfl other
  | _ => cases receives

/-- It holds whether or not the timer runs. -/
theorem Held.settled {b : Association} (found : s.find? key = some b) (holds : ∀ {r}, I r b) :
    Held I due key s := by
  intro a here
  rw [found] at here
  cases here
  exact holds

theorem find?_removed (s : Socket) (key : AssociationKey) :
    (s.removeAssociation key).find? key = none := by
  rw [find?_removeAssociation, if_pos rfl]

theorem Held.removed {s : Socket} {key : AssociationKey} :
    Held I due key (s.removeAssociation key) := .gone (find?_removed s key)

theorem Held.abortAssociation (held : Held I due key s) (header : CommonHeader) (src : SockAddr)
    (causes : List ErrorCause) :
    Held I due key (s.abortAssociation key header src causes) := by
  unfold Socket.abortAssociation
  split
  · exact held
  · simp only
    split
    · exact Held.gone (find?_removed s key)
    · exact Held.gone (find?_removed s key)

theorem Held.aborted {a : Association} (found : s.find? key = some a) (header : CommonHeader)
    (src : SockAddr) (causes : List ErrorCause) :
    Held I due key (s.abortAssociation key header src causes) := by
  unfold Socket.abortAssociation
  rw [found]
  simp only
  split
  · exact Held.gone (find?_removed s key)
  · exact Held.gone (find?_removed s key)

theorem Held.handleAbort (held : Held I due key s) (causes : List ErrorCause) :
    Held I due key (s.handleAbort causes key) := by
  unfold Socket.handleAbort
  split
  · exact held
  · exact Held.gone (find?_removed _ key)

theorem Held.handleShutdownAck (held : Held I due key s) (header : CommonHeader) (src : SockAddr) :
    Held I due key (s.handleShutdownAck header key src) := by
  unfold Socket.handleShutdownAck
  split
  · exact held
  · split
    · exact held
    · exact Held.gone (find?_removed s key)

theorem Held.handleShutdownComplete (held : Held I due key s) :
    Held I due key (s.handleShutdownComplete key) := by
  unfold Socket.handleShutdownComplete
  split
  · exact held
  · split
    · exact held
    · exact Held.gone (find?_removed s key)

theorem Held.handleT5Expiration (held : Held I due key s) :
    Held I due key (s.handleT5Expiration key) := by
  unfold Socket.handleT5Expiration
  split
  · exact held
  · split
    · exact held
    · exact Held.gone (find?_removed s key)

/-- A timer that went off, and is not the one that matters. -/
theorem Held.discharge {f : ExpirationFallback} (held : Held I (f :: due) key s)
    (other : f.key ≠ timerOf key .delayedSack) :
    Held I due key s := by
  intro a found
  have same : Awaited due s (timerOf key .delayedSack)
      = Awaited (f :: due) s (timerOf key .delayedSack) := by
    unfold Awaited
    simp [other]
  rw [same]
  exact held a found

/-! ## What a SACK does to a path -/

theorem flightOf_le (a : Association) (onPath : OutstandingData → Bool) :
    flightOf a onPath ≤ outstandingBytes a := by
  unfold flightOf outstandingBytes KeyMap.weight
  refine List.sum_le_sum fun entry _ => ?_
  split
  · exact Nat.le_refl _
  · exact Nat.zero_le _

theorem adjusted_ackPath {grows : Nat → Prop} (before : Association) (sack : SackChunkValue)
    (remaining : Association) (duplicates : List (Nat × Nat)) (i : Nat) (path : PeerPath)
    (within : grows (bytesInFlightOn before i)) :
    Adjusted before.pmdcs grows path (ackPath before sack remaining duplicates i path) := by
  unfold ackPath
  simp only
  generalize (sentTo before i).filter (newlyAcks sack) = acked
  generalize ((duplicates.filter fun d => d.1 == i).map Prod.snd).sum % 2 ^ 32 = duplicate
  have cleared : Adjusted before.pmdcs grows path
      (if acked.isEmpty = true then path
        else { (clearPathErrors path).1 with singlePacketInFlight := false }) := by
    split
    · exact .refl
    · exact Adjusts.cleared.adjusted.tail (.other rfl)
  generalize (if acked.isEmpty = true then path
    else { (clearPathErrors path).1 with singlePacketInFlight := false }) = path₁ at cleared
  have grown : Adjusted before.pmdcs grows path
      (if (!acked.isEmpty || decide (duplicate > 0)) = true then
      growCwnd before.inFastRecovery before.pmdcs path₁
        ((acked.map fun entry => dataChunkWireSize entry.2.data).sum % 2 ^ 32) duplicate
          (bytesInFlightOn before i) else path₁) := by
    split
    · exact cleared.tail (.grown _ _ _ within)
    · exact cleared
  split
  · exact grown.tail (.other rfl)
  · exact grown

/-! ## What the reply to DATA does -/

/-- What holds of the association once the DATA of a packet was taken in, until the reply is
sent. -/
def Replies (I : Prop → Association → Prop) (b : Association) : Socket.DataReply → Prop
  | .shutdown _ => ∀ r, I r b
  | .sack => receivesData b.state = true ∧ ∀ (s : Socket) key r, I r (s.makeSack key b).2
  | .delayedSack => I True b

theorem Replies.held {b : Association} (found : s.find? key = some b) (now : Time)
    (destination : SockAddr) {reply : Socket.DataReply} (replies : Replies I b reply) :
    Held I due key (s.sendDataReply now key destination reply) := by
  cases reply with
  | shutdown packet =>
    have settled : Held I due key ((s.cancelExpiration (timerOf key .delayedSack)).enqueuePacket
        ⟨key, destination, packet⟩
        .control) := Held.settled found (replies _)
    exact settled.restartT2 now
  | sack =>
    unfold Socket.sendDataReply Socket.sendSack
    rw [found]
    simp only
    rw [replies.1]
    exact Held.settled (find?_setAssociation_self s key _) (replies.2 s key _)
  | delayedSack =>
    intro c here
    have same : some b = some c := found.symm.trans here
    cases same
    have runs : Awaited due (s.sendDataReply now key destination .delayedSack)
        (timerOf key .delayedSack) := by
      refine Or.inl ?_
      rw [Socket.sendDataReply, Socket.scheduleExpiration, isActive_schedule]
      simp
    rw [eq_true runs]
    exact replies

namespace Upkeep

include upkeep

/-! ## Shutdown -/

theorem doNextShutdownStep (now : Time) (held : Held I due key s) :
    Held I due key (s.doNextShutdownStep now key) := by
  unfold Socket.doNextShutdownStep
  cases found : s.find? key with
  | none => exact held
  | some a =>
    simp only
    cases next : s.nextShutdownStep key a with
    | none => exact held
    | some step =>
      obtain ⟨packet, state⟩ := step
      have closing : state = .shutdownSent ∨ state = .shutdownAckSent := by
        unfold Socket.nextShutdownStep at next
        split at next
        · cases next
        · split at next
          · cases next
            exact Or.inl rfl
          · cases next
            exact Or.inr rfl
          · cases next
      have silenced : ∀ {r}, I r { a with state := state } :=
        upkeep.silenced state closing (held a found)
      simp only
      split
      · refine Held.settled ((Deeds.find?_restartT2 _ key now key).trans ?_) silenced
        exact find?_setAssociation_self s key _
      · refine Held.settled ((Deeds.find?_restartT2 _ key now key).trans ?_) silenced
        exact find?_setAssociation_self s key _

/-! ## SACK -/

theorem finishSack {r : Prop} {a : Association} (sack : SackChunkValue) (holds : I r a) :
    I r (finishSack sack a) := by
  let b : Association :=
    { a with inFastRecovery := a.inFastRecovery
      && !tsnGte sack.cumulativeTsnAck a.fastRecoveryExitTsn }
  have left : I r b := by
    refine upkeep.same holds ?_ ?_ <;> rfl
  unfold SctpStack.finishSack
  simp only
  split
  · refine upkeep.same left ?_ ?_ <;> rfl
  · split
    · refine upkeep.same left ?_ ?_ <;> rfl
    · next tsn next =>
      have timed : I r { b with hasRttMeasurementTsn := true, rttMeasurementTsn := tsn } :=
        upkeep.timed tsn next left
      refine upkeep.same timed ?_ ?_ <;> rfl

theorem applySack {r : Prop} {a : Association} (sack : SackChunkValue) (now : Time)
    (told : cause (.chunk (.sack sack))) (holds : I r a) : I r (applySack a sack now).assoc := by
  have acked := upkeep.acked sack now told holds
  have pmdcs : (acknowledgeEntries a sack now).pmdcs = a.pmdcs := by
    unfold acknowledgeEntries
    simp only
    split <;> rfl
  have windows : I r (updateWindows a sack (acknowledgeEntries a sack now)) := by
    refine upkeep.adjusted (a := acknowledgeEntries a sack now) rfl
      (forall₂_adjusted_mapIdx fun i path => ?_) holds acked
    rw [pmdcs]
    exact adjusted_ackPath a sack _ _ i path ⟨⟨sack, told⟩, flightOf_le a _⟩
  have counted : I r (countMissing a sack
      (updateWindows a sack (acknowledgeEntries a sack now))) := by
    refine upkeep.marked _ (fun tsn o => ?_) windows
    unfold missEntry
    simp only
    (repeat' split) <;> exact ⟨rfl, rfl, rfl⟩
  unfold SctpStack.applySack
  simp only
  generalize countMissing a sack (updateWindows a sack (acknowledgeEntries a sack now))
    = b at counted
  generalize fastRetransmits (updateWindows a sack (acknowledgeEntries a sack now)) b = marked
  have entered : I r (if (!marked.isEmpty && !b.inFastRecovery) = true then enterFastRecovery marked
      b else b) := by
    split
    · refine upkeep.adjusted (a := b) rfl (forall₂_adjusted_mapIdx fun i path => ?_) counted counted
      split
      · exact Adjusts.halved.adjusted
      · exact .refl
    · exact counted
  generalize (if (!marked.isEmpty && !b.inFastRecovery) = true then enterFastRecovery marked b
    else b) = c at entered
  exact upkeep.finishSack sack entered

/-- The SACK is accepted for the association that was found. -/
theorem acceptSack {a : Association} (found : s.find? key = some a) (now : Time)
    (sack : SackChunkValue) (told : cause (.chunk (.sack sack))) (held : Held I due key s) :
    Held I due key (s.acceptSack now sack key a) := by
  have applied : Held I due key (s.setAssociation key (SctpStack.applySack a sack now).assoc) :=
    held.set found (upkeep.applySack sack now told)
  have noted : Held I due key ((s.setAssociation key
      (SctpStack.applySack a sack now).assoc).notifyAcked key a sack) :=
    .foldl (fun _ i held => held.notifyIf _ _ _) _ _ applied
  unfold Socket.acceptSack
  simp only
  refine upkeep.doNextShutdownStep now (.foldl (fun s action held => ?_) _ _ ?_)
  · unfold Socket.runT3Action
    split
    · exact held.cancel (show ExpirationTimerType.t3Rtx ≠ .delayedSack from nofun)
    · exact held.restartT3 now _ _
    · exact held.startT3IfStopped now _ _
  · split
    · exact upkeep.schedulePendingRetransmission false noted
    · exact noted

theorem handleSack (now : Time) (header : CommonHeader) (sack : SackChunkValue) (src : SockAddr)
    (told : cause (.chunk (.sack sack))) (held : Held I due key s) :
    Held I due key (s.handleSack now header sack key src) := by
  unfold Socket.handleSack
  cases found : s.find? key with
  | none => exact held
  | some a =>
    simp only
    split
    · exact held
    · split
      · exact held.abortAssociation header src _
      · split
        · exact held
        · exact upkeep.acceptSack found now sack told held

/-! ## SHUTDOWN -/

theorem advanceByShutdown (a : Association) (cumulativeTsnAck : Tsn)
    (told : cause (.chunk (.shutdown cumulativeTsnAck))) (held : Held I due key s) :
    Held I due key (s.advanceByShutdown key a cumulativeTsnAck) := by
  have cleared := Held.foldl (f := fun s i =>
    ((s.find? key).elim s fun current => s.clearPathErrorsAt key current i))
      (fun s i (held : Held I due key s) => by
      cases s.find? key with
      | none => exact held
      | some current => exact upkeep.clearPathErrorsAt current i held)
    (pathsAcked a cumulativeTsnAck) s held
  exact cleared.update fun _ => upkeep.ackedByShutdown cumulativeTsnAck told

theorem acceptShutdown (now : Time) (cumulativeTsnAck : Tsn) (a : Association)
    (told : cause (.chunk (.shutdown cumulativeTsnAck))) (held : Held I due key s) :
    Held I due key (s.acceptShutdown now cumulativeTsnAck key a) := by
  have advanced : Held I due key (if tsnGt cumulativeTsnAck a.cumulativeTsnAck = true then
      s.advanceByShutdown key a cumulativeTsnAck else s) := by
    split
    · exact upkeep.advanceByShutdown a cumulativeTsnAck told held
    · exact held
  unfold Socket.acceptShutdown
  simp only
  generalize (if tsnGt cumulativeTsnAck a.cumulativeTsnAck = true then s.advanceByShutdown key
    a cumulativeTsnAck else s) = s₁ at advanced
  have received : Held I due key (s₁.updateAssociation key fun a =>
      { a with state := .shutdownReceived }) :=
    advanced.update fun _ => upkeep.onward .shutdownReceived ⟨nofun, nofun⟩
  generalize s₁.updateAssociation key (fun a => { a with state := .shutdownReceived })
    = s₂ at received
  have noted : Held I due key (if a.state ≠ .shutdownReceived then s₂.notify key .shutdownEvent
      else s₂) := by
    split
    · exact received
    · exact received
  generalize (if a.state ≠ .shutdownReceived then s₂.notify key .shutdownEvent else s₂)
    = s₃ at noted
  refine upkeep.doNextShutdownStep now ?_
  split
  · exact .foldl (fun _ _ held => held.restartT3 now _ _) _ _ noted
  · exact noted

theorem handleShutdown (now : Time) (header : CommonHeader) (cumulativeTsnAck : Tsn)
    (src : SockAddr) (told : cause (.chunk (.shutdown cumulativeTsnAck)))
    (held : Held I due key s) : Held I due key
      (s.handleShutdown now header cumulativeTsnAck key src) := by
  unfold Socket.handleShutdown
  cases found : s.find? key with
  | none => exact held
  | some a =>
    simp only
    split
    · exact held
    · split
      · have answered : Held I due key
          ((s.setAssociation key { a with state := .shutdownAckSent }).reply key
            (replyDestination a src) (buildShutdownAck header.desPort header.srcPort
              a.peerVerTag)) :=
          held.set found (upkeep.silenced .shutdownAckSent (Or.inr rfl))
        exact answered.restartT2 now
      · split
        · exact held.abortAssociation header src _
        · exact upkeep.acceptShutdown now cumulativeTsnAck a told held

/-! ## DATA -/

/-- What a SACK reports starts anew, whether or not the timer is stopped. -/
theorem makeSack {r r' : Prop} {a : Association} (s : Socket) (key : AssociationKey)
    (holds : I r a) :
    I r' (s.makeSack key a).2 := by
  have reported : I r' { a with delayedSackPacketCount := 0 } := upkeep.reported holds
  refine upkeep.same reported ?_ ?_ <;> rfl

/-- The timer of a SACK that was put off may have gone off. -/
theorem sendSackDue {due' : List ExpirationFallback} (held : Held I due' key s) :
    Held I due key (s.sendSack key) := by
  unfold Socket.sendSack
  cases found : s.find? key with
  | none => exact Held.gone found
  | some a =>
    simp only
    split
    · next deaf =>
      refine Held.settled found (upkeep.undelayed ?_ (held a found))
      rw [Bool.not_eq_true'] at deaf
      exact Bool.eq_false_iff.mpr fun delays =>
        Bool.eq_false_iff.mp deaf (receives_of_delays delays)
    · refine Held.settled (b := (s.makeSack key a).2) ?_ (upkeep.makeSack s key (held a found))
      exact find?_setAssociation_self s key _

theorem acknowledgeData {r : Prop} {a : Association} (receives : receivesData a.state = true)
    (hole : Bool) (loop : DataLoop) (holds : I r a) :
    Replies I (s.acknowledgeData key a hole loop).1 (s.acknowledgeData key a hole loop).2 := by
  have sack : Replies I a .sack := ⟨receives, fun s key r => upkeep.makeSack s key holds⟩
  unfold Socket.acknowledgeData
  simp only
  split
  · next closing =>
    have settled : ∀ r, I r a := fun r => by
      have silenced : I r { a with state := .shutdownSent } :=
        upkeep.silenced .shutdownSent (Or.inl rfl) holds
      refine upkeep.same silenced ?_ rfl
      simp only [Association.figures, closing]
    split
    · exact fun r => upkeep.makeSack s key holds
    · exact settled
  · next first =>
    split
    · exact sack
    · split
      · refine ⟨receives, fun s key r => ?_⟩
        have reported : I r { a with delayedSackPacketCount := 0 } := upkeep.reported holds
        refine upkeep.same reported ?_ ?_ <;> rfl
      · next few => exact upkeep.delayed (delays_of_receives
          receives first) (Nat.lt_of_not_le few) holds

theorem receiveData (now : Time) (packet : Packet) (src : SockAddr) (atOnce : Bool)
    {a : Association} (found : s.find? key = some a) (receives : receivesData a.state = true)
    (told : cause .data) (held : Held I due key s) :
    Held I due key (s.receiveData now packet key src atOnce a) := by
  have only := takeData_only packet.chunks (Socket.DataLoop.start s key a atOnce)
  unfold Socket.receiveData
  simp only
  generalize takeData packet.chunks (Socket.DataLoop.start s key a atOnce) = loop at only
  have taken : I (Awaited due s (timerOf key .delayedSack)) loop.st.assoc :=
    upkeep.received told only (held a found)
  have replies : Replies I (s.acknowledgeData key loop.st.assoc (!a.tsnOooBuffer.isEmpty) loop).1
      (s.acknowledgeData key loop.st.assoc (!a.tsnOooBuffer.isEmpty) loop).2 :=
    upkeep.acknowledgeData (by rw [only]; exact receives) (!a.tsnOooBuffer.isEmpty) loop taken
  generalize s.acknowledgeData key loop.st.assoc (!a.tsnOooBuffer.isEmpty) loop = answer at replies
  obtain ⟨updated, reply⟩ := answer
  simp only at replies ⊢
  split
  · exact held
  · split
    · exact Held.aborted (find?_setAssociation_self s key updated) packet.header src _
    · refine Replies.held (b := updated) ?_ now _ replies
      split
      · exact find?_setAssociation_self s key updated
      · exact find?_setAssociation_self s key updated

theorem handleDataPacket (now : Time) (packet : Packet) (src : SockAddr) (atOnce : Bool)
    (told : cause .data) (held : Held I due key s) :
    Held I due key (s.handleDataPacket now packet key src atOnce) := by
  unfold Socket.handleDataPacket
  split
  · exact held.abortAssociation packet.header src _
  · cases found : s.find? key with
    | none => exact held
    | some a =>
      simp only
      split
      · exact held
      · next receives => exact upkeep.receiveData now packet src atOnce found (by
          simpa using receives) told held

/-! ## Heartbeats -/

theorem creditHeartbeat (now : Time) (draws : Draws) (a : Association) (i : Nat)
    (held : Held I due key s) :
    Held I due key (s.creditHeartbeat now draws key a i) := by
  have measured : Held I due key (s.updateAssociation key fun assoc =>
      assoc.modifyPath i fun path =>
      updateRto { path with hbOutstanding := false } (microsBetween path.hbSentAt now)) :=
    held.update fun _ => upkeep.modifyPath i fun path =>
      Relation.ReflTransGen.tail (b := { path with hbOutstanding := false }) (Adjusted.of_gauge rfl)
        (.measured _)
  have cleared := upkeep.clearPathErrorsAt a i measured
  unfold Socket.creditHeartbeat
  simp only
  generalize (s.updateAssociation key fun assoc => assoc.modifyPath i fun path =>
    updateRto { path with hbOutstanding := false }
      (microsBetween path.hbSentAt now)).clearPathErrorsAt key a i = s₁ at cleared
  have heard : Held I due key (s₁.updateAssociation key fun assoc =>
      if dataPath assoc = i then { assoc with errorCount := 0 } else assoc) := by
    refine cleared.update fun _ holds => ?_
    split
    · exact upkeep.heard holds
    · exact holds
  generalize s₁.updateAssociation key (fun assoc =>
    if dataPath assoc = i then { assoc with errorCount := 0 } else assoc) = s₂ at heard
  have confirmed : Held I due key (if (a.path i).confirmed = true then s₂ else
      (((s₂.updateAssociation key fun assoc => assoc.modifyPath i fun path =>
        { path with confirmed := true }).notifyPeerAddrChange key (a.path i).address
          .addrConfirmed).updateAssociation key fun assoc =>
            SctpStack.planNextProbe assoc draws i now)) := by
    split
    · exact heard
    · have marked : Held I due key
        ((s₂.updateAssociation key fun assoc => assoc.modifyPath i fun path =>
          { path with confirmed := true }).notifyPeerAddrChange key (a.path i).address
            .addrConfirmed) :=
        heard.update fun _ => upkeep.regauge i fun _ => rfl
      exact marked.update fun _ => upkeep.planNextProbe draws i now
  split
  · exact upkeep.armConfirmationProbes now (confirmed.armHeartbeat i)
  · exact confirmed

theorem handleHeartbeatAck (now : Time) (draws : Draws) (info : Bytes) (held : Held I due key s) :
    Held I due key (s.handleHeartbeatAck now draws info key) := by
  unfold Socket.handleHeartbeatAck
  split
  · exact held
  · split
    · exact held
    · split
      · exact held
      · split
        · exact held
        · exact upkeep.creditHeartbeat now draws _ _ held

/-- The association does not go past what it tolerates, unless it is found unreachable. -/
theorem missHeartbeat {a : Association} (found : s.find? key = some a) (now : Time) (i : Nat)
    (held : Held I due key s) (few : (s.missHeartbeat now key a i).2 = false) :
    Held I due key (s.missHeartbeat now key a i).1 := by
  have out := Rewritten.update found fun assoc => assoc.modifyPath i fun path =>
      doubleRto { path with hbOutstanding := false }
  have missed := out.trans (Rewritten.countPathErrorAt out.found a i)
  have backedOff : Held I due key (s.updateAssociation key fun assoc =>
      assoc.modifyPath i fun path => doubleRto { path with hbOutstanding := false }) :=
    held.update fun _ => upkeep.modifyPath i fun path =>
      Relation.ReflTransGen.tail (b := { path with hbOutstanding := false }) (Adjusted.of_gauge rfl)
        .doubled
  have counted := upkeep.countPathErrorAt a i backedOff
  unfold Socket.missHeartbeat at few ⊢
  simp only [Bool.and_eq_false_iff, decide_eq_false_iff_not, Nat.not_lt] at few
  simp only
  have told : Held I due key ((Socket.countPathErrorAt (s.updateAssociation key fun assoc =>
      assoc.modifyPath i fun path => doubleRto { path with hbOutstanding := false })
        key a i).updateAssociation key fun assoc =>
        if ((a.path i).confirmed && dataPath a == i) = true
          then { assoc with errorCount := assoc.errorCount + 1 }
        else assoc) := by
    refine counted.update fun {r b} here holds => ?_
    have same : some _ = some b := missed.found.symm.trans here
    cases same
    split
    · next carries =>
      refine upkeep.missed ?_ holds
      rcases few with idle | few
      · rw [Bool.and_eq_true] at carries
        rcases idle with other | other
        · rw [carries.1] at other
          cases other
        · rw [carries.2] at other
          cases other
      · exact few
    · exact holds
  split
  · exact upkeep.armConfirmationProbes now told
  · exact told

theorem sendDueProbe (now : Time) (draws : Draws) (i : Nat) (probeNow : Bool)
    (held : Held I due key s) :
    Held I due key (s.sendDueProbe now draws key i probeNow).1 := by
  unfold Socket.sendDueProbe
  split
  · exact held
  · split
    · refine Held.armHeartbeat (Held.update ?_ fun _ => upkeep.planNextProbe draws i now) i
      split
      · exact upkeep.buildProbe now draws _ i held
      · exact held
    · exact held.armHeartbeat i

theorem handleHeartbeatExpiration (now : Time) (draws : Draws) (destination : SockAddr)
    (held : Held I due key s) :
    Held I due key (s.handleHeartbeatExpiration now draws key destination) := by
  unfold Socket.handleHeartbeatExpiration
  cases found : s.find? key with
  | none => exact held
  | some a =>
    simp only
    split
    · exact held
    · cases findPath a destination with
      | none => exact held
      | some i =>
        simp only
        have checked : (if (a.path i).hbOutstanding = true then s.missHeartbeat now key a i
            else (s, false)).2 = false → Held I due key (if (a.path i).hbOutstanding = true
              then s.missHeartbeat now key a i else (s, false)).1 := by
          split
          · exact upkeep.missHeartbeat found now i held
          · exact fun _ => held
        generalize (if (a.path i).hbOutstanding = true then s.missHeartbeat now key a i
          else (s, false)) = answer at checked ⊢
        obtain ⟨s₁, unreachable⟩ := answer
        simp only at checked ⊢
        cases unreachable with
        | true => exact Held.gone (find?_removed s₁ key)
        | false =>
          have sent := fun probeNow => upkeep.sendDueProbe now draws i probeNow (checked rfl)
          simp only [Bool.false_eq_true, if_false]
          split
          · next s₂ same =>
            have last := congrArg Prod.fst same
            rw [← show _ = s₂ from last]
            exact sent _
          · next s₂ probe same =>
            have last := congrArg Prod.fst same
            rw [← show _ = s₂ from last]
            exact sent _

/-! ## Timers -/

theorem handleT2Expiration (now : Time) (held : Held I due key s) :
    Held I due key (s.handleT2Expiration now key) := by
  unfold Socket.handleT2Expiration
  cases found : s.find? key with
  | none => exact held
  | some a =>
    simp only
    split
    · exact held
    · split
      · exact Held.gone (find?_removed _ key)
      · next few =>
        have counted : Held I due key (s.setAssociation key
            { a.modifyPath (dataPath a) doubleRto with
            errorCount := a.errorCount + 1 }) :=
          held.set found fun holds => upkeep.missed (a := a.modifyPath (dataPath a) doubleRto)
            (Nat.le_of_not_lt few) (upkeep.modifyPath (dataPath a)
            (fun _ => Adjusts.doubled.adjusted) holds)
        exact Held.restartT2 (s := Socket.enqueuePacket _ _ _) counted now

theorem moveTimedOut {r : Prop} {a : Association} (i : Nat) (target : SockAddr) (holds : I r a) :
    I r (moveTimedOut a i target) := by
  have marked : I r { a with outstandingData := a.outstandingData.mapVals fun _ o =>
      if !o.gapAcked && !o.pendingRetransmission && destinationOf a o == i then
        { o with pendingRetransmission := true, destination := target } else o } :=
    upkeep.marked _ (fun tsn o => by split <;> exact ⟨rfl, rfl, rfl⟩) holds
  refine upkeep.same marked ?_ ?_ <;> rfl

theorem expireT3 {a : Association} (found : s.find? key = some a) (i : Nat)
    (few : Socket.t3Unreachable a = false) (held : Held I due key s) :
    Held I due key (s.expireT3 key a i) := by
  have first := Rewritten.update found fun assoc => assoc.modifyPath i (expirePath assoc)
  have noted := first.trans (Rewritten.countPathErrorAt first.found a i)
  have backedOff : Held I due key (s.updateAssociation key fun assoc =>
      assoc.modifyPath i (expirePath assoc)) := by
    refine held.update fun {r b} _ => upkeep.modifyPath i fun path => ?_
    unfold expirePath
    split
    · exact Adjusts.doubled.adjusted
    · exact Adjusts.collapsed.adjusted.tail .doubled
  have counted : Held I due key (if !a.zeroWindowProbing || !a.sackSinceT3 then
        ((s.updateAssociation key fun assoc =>
          assoc.modifyPath i (expirePath assoc)).countPathErrorAt key a i).updateAssociation key
            fun assoc => { assoc with errorCount := assoc.errorCount + 1 }
      else s.updateAssociation key fun assoc => assoc.modifyPath i (expirePath assoc)) := by
    split
    · next counts =>
      refine (upkeep.countPathErrorAt a i backedOff).update fun {r b} here holds => ?_
      have same : some _ = some b := noted.found.symm.trans here
      cases same
      refine upkeep.missed ?_ holds
      unfold Socket.t3Unreachable at few
      rw [counts, Bool.true_and, decide_eq_false_iff_not] at few
      exact Nat.le_of_not_lt few
    · exact backedOff
  unfold Socket.expireT3
  refine Held.update (s := if !a.zeroWindowProbing || !a.sackSinceT3 then _ else _) counted
    fun {r b} _ holds => ?_
  have moved : I r { b with sackSinceT3 := false } := by
    refine upkeep.same holds ?_ ?_ <;> rfl
  exact upkeep.moveTimedOut i _ moved

theorem handleT3Expiration (destination : SockAddr) (held : Held I due key s) :
    Held I due key (s.handleT3Expiration key destination) := by
  unfold Socket.handleT3Expiration
  cases found : s.find? key with
  | none => exact held
  | some a =>
    simp only
    split
    · exact held
    · split
      · exact held
      · split
        · exact held
        · split
          · exact Held.gone (find?_removed _ key)
          · next i _ _ few =>
            have expired := upkeep.expireT3 found i (Bool.eq_false_iff.mpr few) held
            exact upkeep.schedulePendingRetransmission
              (s := Socket.removeRetransmissionsOfType _ _ _ _) false expired

theorem handleZeroWindowProbeExpiration (held : Held I due key s) :
    Held I due key (s.handleZeroWindowProbeExpiration key) := by
  refine held.update fun _ holds => ?_
  split
  · refine upkeep.same holds ?_ ?_ <;> rfl
  · exact holds

/-- The packet goes out again, or the association is gone. -/
theorem handleT1Expiration (isInit : Bool) (retry : Deliverable) (held : Held I due key s) :
    Held I due key (s.handleT1Expiration key isInit retry) := by
  unfold Socket.handleT1Expiration
  cases found : s.find? key with
  | none => exact held
  | some a =>
    have erased : (s.eraseAssociation key).find? key = none := by simp
    have resent : ∀ b : Association, b.figures = a.figures → b.peerAddressList = a.peerAddressList →
        Held I due key (s.setAssociation key b) := fun b figures paths =>
      held.set found fun holds => upkeep.same holds figures paths
    cases isInit with
    | true =>
      simp only [if_true]
      split
      · exact held
      · split
        · exact Held.gone erased
        · exact resent _ rfl rfl
    | false =>
      simp only [Bool.false_eq_true, if_false]
      split
      · exact held
      · split
        · exact Held.gone erased
        · exact resent _ rfl rfl

/-- A timer of the association is handled, once it went off. -/
theorem handleExpiration (now : Time) (draws : Draws) (f : ExpirationFallback)
    (mine : f.key.location = key) (held : Held I (f :: due) key s) :
    Held I due key (s.handleExpiration now draws f) := by
  have others : f.key.type ≠ .delayedSack → Held I due key s := fun other =>
    held.discharge fun same => other (by rw [same]; rfl)
  unfold Socket.handleExpiration
  simp only [mine]
  cases type : f.key.type with
  | t3Rtx => exact upkeep.handleT3Expiration _ (others (by rw [type]; decide))
  | delayedSack => exact upkeep.sendSackDue held
  | heartbeat => exact upkeep.handleHeartbeatExpiration now draws _ (others (by rw [type]; decide))
  | t2Shutdown => exact upkeep.handleT2Expiration now (others (by rw [type]; decide))
  | t5ShutdownGuard => exact (others (by rw [type]; decide)).handleT5Expiration
  | zeroWindowProbe => exact upkeep.handleZeroWindowProbeExpiration (others (by rw [type]; decide))
  | t1Init => exact upkeep.handleT1Expiration true _ (others (by rw [type]; decide))
  | t1Cookie => exact upkeep.handleT1Expiration false _ (others (by rw [type]; decide))

end Upkeep

end SctpStack
