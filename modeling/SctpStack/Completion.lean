import SctpStack.GracefulClose

/-!
# The end of a graceful close

SHUTDOWN_COMP tells the ULP that nothing was lost. Of all that a socket does only a
SHUTDOWN ACK and a SHUTDOWN COMPLETE notify it, and they do so for an association that
closes: everything it accepted was sent and is acknowledged
(`shutdown_comp_after_drained`).
-/

namespace SctpStack

/-! ## What notifies no SHUTDOWN_COMP -/

/-- No SHUTDOWN_COMP was notified. -/
abbrev Uncompleted (s s' : Socket) : Prop := NothingCompleted s.notifications s'.notifications

namespace Uncompleted

variable (s : Socket) (key : AssociationKey)

theorem told {state : AssocChangeState} (other : state ≠ .shutdownComp) :
    Uncompleted s (s.notifyAssocChange key state) :=
  .enqueue _ key (by simpa using other)

theorem noted {payload : NotificationPayload} (other : payload ≠ .assocChange .shutdownComp) :
    Uncompleted s (s.notify key payload) := .enqueue _ key other

theorem removeAssociation : Uncompleted s (s.removeAssociation key) :=
  (removed_removeAssociation s key).notifications

/-- An association ends, and the ULP is told why. -/
theorem ended (forms : Bool) : Uncompleted s ((s.removeAssociation key).notifyAssocChange key
    (if forms then .cantStrAssoc else .commLost)) :=
  (removeAssociation s key).trans (told _ key (by cases forms <;> exact nofun))

theorem abortAssociation (header : CommonHeader) (src : SockAddr) (causes : List ErrorCause) :
    Uncompleted s (s.abortAssociation key header src causes) := by
  unfold Socket.abortAssociation
  split
  · exact .refl _
  · simp only
    split
    · exact ended s key _
    · exact ended s key _

theorem loseAssociation : Uncompleted s (s.loseAssociation key) :=
  (removeAssociation s key).trans (told _ key nofun)

theorem refuseInitAck (header : CommonHeader) (src : SockAddr) (tag : Tag) (reflected : Bool)
    (cause : ErrorCause) :
    Uncompleted s (s.refuseInitAck header key src tag reflected cause) :=
  ((removeAssociation s key).trans (Quiet.reply _ key _ _).notifications).trans (told _ key nofun)

/-! ### Chunks -/

theorem bringUp (now : Time) (draws : Draws) : Uncompleted s (s.bringUp now draws key) :=
  (Acts.broughtUp s key now draws).notifications

theorem handleInitAck (header : CommonHeader) (initAck : InitChunkValue) (src : SockAddr) :
    Uncompleted s (s.handleInitAck header initAck key src) := by
  unfold Socket.handleInitAck
  cases found : s.find? key with
  | none => exact .refl _
  | some a =>
    simp only
    split
    · exact .refl _
    · split
      · exact refuseInitAck s key header src _ _ _
      · split
        · exact refuseInitAck s key header src _ _ _
        · next cookie _ =>
          split
          · exact refuseInitAck s key header src _ _ _
          · split
            · exact refuseInitAck s key header src _ _ _
            · obtain ⟨s₁, destination, errors, same, -, -, -, -, -, notifications, -⟩ :=
                acceptInitAck_eq found header initAck src cookie
              rw [same]
              show NothingCompleted s.notifications s₁.notifications
              rw [notifications]
              exact .refl _

theorem handleCookieAck (now : Time) (draws : Draws) :
    Uncompleted s (s.handleCookieAck now draws key) := by
  unfold Socket.handleCookieAck
  split
  · exact .refl _
  · split
    · exact .refl _
    · exact bringUp s key now draws

theorem handleAbort (causes : List ErrorCause) : Uncompleted s (s.handleAbort causes key) := by
  unfold Socket.handleAbort
  split
  · exact .refl _
  · simp only
    split
    · exact ended s key _
    · have reason : Uncompleted s (s.notify key (.remoteError causes)) := noted s key nofun
      exact reason.trans (ended _ key _)

theorem handleError (causes : List ErrorCause) : Uncompleted s (s.handleError causes key) := by
  unfold Socket.handleError
  split
  · exact .refl _
  · cases s.find? key with
    | none => exact .refl _
    | some a =>
      simp only
      split
      · exact noted s key nofun
      · exact .refl _
      · exact (removed_afterStale s key).notifications.trans (told _ key nofun)

theorem doNextShutdownStep (now : Time) : Uncompleted s (s.doNextShutdownStep now key) := by
  rcases doNextShutdownStep_cases s now key with ⟨same, -⟩ | ⟨a, s₁, -, -, kept, -,
    ⟨-, same⟩ | ⟨-, same⟩⟩
  · rw [same]
    exact .refl _
  · rw [same]
    exact kept.notifications
  · rw [same]
    exact kept.notifications

theorem handleSack (now : Time) (header : CommonHeader) (sack : SackChunkValue) (src : SockAddr) :
    Uncompleted s (s.handleSack now header sack key src) := by
  unfold Socket.handleSack
  cases s.find? key with
  | none => exact .refl _
  | some a =>
    simp only
    split
    · exact .refl _
    · split
      · exact abortAssociation s key header src _
      · split
        · exact .refl _
        · rw [acceptSack_eq]
          refine NothingCompleted.trans ?_ (doNextShutdownStep _ key now)
          have settled : Uncompleted s (s.acknowledgeSack now sack key a) :=
            (Quiet.trans (Acts.notifyAcked (s.setAssociation key _) key a sack)
              (.removeAckedRetransmissions _ key sack)).notifications
          unfold Socket.settleSack
          refine NothingCompleted.trans ?_ (Acts.runT3Actions _ key now _).notifications
          split
          · exact settled.trans (Quiet.schedulePendingRetransmission _ key false).notifications
          · exact settled

theorem handleShutdown (now : Time) (header : CommonHeader) (cumulativeTsnAck : Tsn)
    (src : SockAddr) :
    Uncompleted s (s.handleShutdown now header cumulativeTsnAck key src) := by
  unfold Socket.handleShutdown
  cases found : s.find? key with
  | none => exact .refl _
  | some a =>
    simp only
    split
    · exact .refl _
    · next up =>
      split
      · exact (Quiet.trans (.reply (s.setAssociation key _) key _ _)
          (.restartT2 _ key now)).notifications
      · next open_ =>
        split
        · exact abortAssociation s key header src _
        · next sent =>
          rw [Bool.not_eq_true', Bool.not_eq_false] at sent
          rw [Bool.not_eq_true] at up
          rw [acceptShutdown_eq]
          refine NothingCompleted.trans ?_ (doNextShutdownStep _ key now)
          exact (keeping_acknowledgeByShutdown found (transmitsData_of_open up open_)
            sent).notifications.trans (Acts.runT3Actions _ key now _).notifications

/-- What a chunk's handler notifies, but for the two that end a shutdown. -/
theorem handleChunk (now : Time) (draws : Draws) (header : CommonHeader) (src : SockAddr)
    {chunk : Chunk} (ack : chunk.type ≠ .shutdownAck) (complete : chunk.type ≠ .shutdownComplete) :
    Uncompleted s (s.handleChunk now draws header key src chunk) := by
  obtain ⟨flag, value⟩ := chunk
  cases value with
  | shutdownAck => exact absurd rfl ack
  | shutdownComplete => exact absurd rfl complete
  | init v => exact (Quiet.handleInit s key now draws header v src).notifications
  | initAck v => exact handleInitAck s key header v src
  | cookieAck => exact handleCookieAck s key now draws
  | sack v => exact handleSack s key now header v src
  | abort causes => exact handleAbort s key causes
  | heartbeat info => exact (Quiet.handleHeartbeat s key header info src).notifications
  | heartbeatAck info => exact (Quiet.handleHeartbeatAck s key now draws info).notifications
  | shutdown cumulativeTsnAck => exact handleShutdown s key now header cumulativeTsnAck src
  | opError causes => exact handleError s key causes
  | data v => exact .refl _
  | cookieEcho cookieData => exact .refl _
  | unknown code body => exact .refl _

/-! ### Cookies -/

theorem createFromCookie (now : Time) (draws : Draws) (header : CommonHeader) (src : SockAddr)
    (cookie : StateCookie) :
    Uncompleted s (s.createFromCookie now draws header key src cookie) := by
  have up : Uncompleted s ((((s.createdFrom key cookie).notifyAssocChange
      key .commUp)).startHeartbeats now draws key) :=
    (undisturbed_createdFrom s key cookie).notifications.trans
      (Acts.finishCreation _ key now draws (show AssocChangeState.commUp ≠ .shutdownComp
        from nofun)).notifications
  unfold Socket.createFromCookie
  simp only
  split
  · exact up
  · exact up

theorem restartFromCookie (now : Time) (draws : Draws) (a : Association) (cookie : StateCookie) :
    Uncompleted s (s.restartFromCookie now draws key a cookie) :=
  NothingCompleted.trans (undisturbed_restartedFrom s key a cookie).notifications
    (Acts.finishCreation (s.restartedFrom key a cookie) key now draws
      (show AssocChangeState.restart ≠ .shutdownComp from nofun)).notifications

theorem collideWithCookie (now : Time) (draws : Draws) (a : Association) (cookie : StateCookie) :
    Uncompleted s (s.collideWithCookie now draws key a cookie) := by
  have settled : Uncompleted s ((s.addPeerAddresses key
      (cookieAddresses cookie)).abandonPartialDelivery key a) :=
    ((undisturbed_addPeerAddresses s key (cookieAddresses cookie)).trans
      (undisturbed_abandonPartialDelivery _ key a)).notifications
  unfold Socket.collideWithCookie
  simp only
  split
  · exact settled.trans (bringUp (Socket.updateAssociation _ key _) key now draws)
  · split
    · exact settled.trans (Quiet.armConfirmationProbes (Socket.updateAssociation _ key _)
        key now).notifications
    · exact settled

theorem finishCookieEcho (header : CommonHeader) (destination : SockAddr) (cookie : StateCookie) :
    Uncompleted s (s.finishCookieEcho header key destination cookie) := .refl s.notifications

theorem acceptCookie (now : Time) (draws : Draws) (header : CommonHeader) (src : SockAddr)
    (a : Association) (cookie : StateCookie) :
    Uncompleted s (s.acceptCookie now draws header key src a cookie).2 := by
  unfold Socket.acceptCookie
  simp only
  split
  · refine NothingCompleted.trans ?_ (finishCookieEcho _ key header _ cookie)
    split
    · exact bringUp s key now draws
    · exact .refl _
  · split
    · split
      · exact ((Quiet.reply s key _ _).trans (.reply _ key _ _)).notifications
      · exact (restartFromCookie s key now draws a cookie).trans
          (finishCookieEcho _ key header _ cookie)
    · split
      · exact (collideWithCookie s key now draws a cookie).trans
          (finishCookieEcho _ key header _ cookie)
      · exact .refl _

theorem handleCookieEcho (now : Time) (draws : Draws) (header : CommonHeader) (cookieData : Bytes)
    (src : SockAddr) :
    Uncompleted s (s.handleCookieEcho now draws header cookieData key src).2.2 := by
  unfold Socket.handleCookieEcho
  split
  · simp only
    split
    · exact createFromCookie s _ now draws header src _
    · exact acceptCookie s _ now draws header src _ _
  · simp only
    split
    · exact .refl _
    · split
      · exact acceptCookie s _ now draws header src _ _
      · exact .refl _
  · exact .refl _

/-! ### DATA -/

theorem receiveData (now : Time) (packet : Packet) (src : SockAddr) (acknowledgeImmediately : Bool)
    (a : Association) :
    Uncompleted s (s.receiveData now packet key src acknowledgeImmediately a) := by
  unfold Socket.receiveData
  simp only
  generalize takeData packet.chunks (Socket.DataLoop.start s key a acknowledgeImmediately) = loop
  split
  · exact .refl _
  · split
    · exact abortAssociation (s.setAssociation key _) key _ src _
    · refine NothingCompleted.trans ?_ (quiet_sendDataReply _ now key _ _).notifications
      split
      · exact .refl s.notifications
      · exact .refl s.notifications

theorem handleDataPacket (now : Time) (packet : Packet) (src : SockAddr)
    (acknowledgeImmediately : Bool) :
    Uncompleted s (s.handleDataPacket now packet key src acknowledgeImmediately) := by
  unfold Socket.handleDataPacket
  split
  · exact abortAssociation s key _ src _
  · split
    · exact .refl _
    · split
      · exact .refl _
      · exact receiveData s key now packet src acknowledgeImmediately _

/-! ### Timers -/

theorem handleT1Expiration (isInit : Bool) (retry : Deliverable) :
    Uncompleted s (s.handleT1Expiration key isInit retry) := by
  rcases handleT1Expiration_cases s key isInit retry with ⟨-, same⟩ | ⟨a, -, -, gone | ⟨-, again⟩⟩
  · rw [same]
    exact .refl _
  · rw [gone]
    exact told (s.tearDown key) key nofun
  · rw [again]
    exact (Quiet.enqueue (s.setAssociation key _) retry .retransmission).notifications

theorem handleT2Expiration (now : Time) : Uncompleted s (s.handleT2Expiration now key) := by
  unfold Socket.handleT2Expiration
  split
  · exact .refl _
  · split
    · exact .refl _
    · simp only
      split
      · exact loseAssociation (s.setAssociation key _) key
      · exact (Quiet.trans (.enqueue (s.setAssociation key _) _ _)
          (.restartT2 _ key now)).notifications

theorem handleT3Expiration (destination : SockAddr) :
    Uncompleted s (s.handleT3Expiration key destination) := by
  unfold Socket.handleT3Expiration
  split
  · exact .refl _
  · next a _ =>
    split
    · exact .refl _
    · split
      · exact .refl _
      · next i _ =>
        split
        · exact .refl _
        · simp only
          split
          · exact (Quiet.expireT3 s key a i).notifications.trans (loseAssociation _ key)
          · exact (((Quiet.expireT3 s key a i).trans (.removeDataRetransmissions _ key _)).trans
              (.schedulePendingRetransmission _ key false)).notifications

theorem handleT5Expiration : Uncompleted s (s.handleT5Expiration key) := by
  unfold Socket.handleT5Expiration
  split
  · exact .refl _
  · split
    · exact .refl _
    · exact ended s key false

theorem handleHeartbeatExpiration (now : Time) (draws : Draws) (destination : SockAddr) :
    Uncompleted s (s.handleHeartbeatExpiration now draws key destination) := by
  unfold Socket.handleHeartbeatExpiration
  split
  · exact .refl _
  · next a _ =>
    split
    · exact .refl _
    · split
      · exact .refl _
      · next i _ =>
        simp only
        have missed : Quiet s (if (a.path i).hbOutstanding = true then s.missHeartbeat now key a i
            else (s, false)).1 := by
          split
          · exact .missHeartbeat s key now a i
          · exact .refl s
        generalize (if (a.path i).hbOutstanding = true then s.missHeartbeat now key a i
          else (s, false)) = outcome at missed ⊢
        split
        · exact missed.notifications.trans (loseAssociation _ key)
        · refine missed.notifications.trans ?_
          generalize (Option.any _ (outcome.1.find? key)) = probeNow
          have probed := Quiet.sendDueProbe outcome.1 key now draws i probeNow
          cases due : outcome.1.sendDueProbe now draws key i probeNow with
          | mk s' probe =>
            rw [due] at probed
            cases probe with
            | none => exact probed.notifications
            | some probe => exact (probed.trans (.enqueue _ _ _)).notifications

theorem handleExpiration (now : Time) (draws : Draws) (f : ExpirationFallback) :
    Uncompleted s (s.handleExpiration now draws f) := by
  unfold Socket.handleExpiration
  simp only
  split
  · exact handleT3Expiration s _ _
  · exact (Quiet.sendSack s _).notifications
  · exact handleHeartbeatExpiration s _ now draws _
  · exact handleT2Expiration s _ now
  · exact handleT5Expiration s _
  · exact (Quiet.handleZeroWindowProbeExpiration s _).notifications
  · exact handleT1Expiration s _ true _
  · exact handleT1Expiration s _ false _

/-! ### Sending, and calls -/

theorem refilled (now : Time) : Uncompleted s (s.refilled now).socket := by
  have queued : Uncompleted s ((s.sendAllowances now).1.refillRetransmissions
      (s.sendAllowances now).2) := by
    refine (Quiet.trans (.sendAllowances s now) (.foldl _ (fun s key => ?_) _)).notifications
    split
    · exact .refl s
    · exact .schedulePendingRetransmission s key true
  refine List.foldlRecOn (motive := fun r : Socket.Refill => Uncompleted s r.socket)
    (s.sendAllowances now).2.keys Socket.refillNewDataFor queued fun r holds key _ => holds.trans ?_
  rcases refillNewDataFor_cases r key with same | ⟨allowance, a, -, -, -, -, -, -,
    ⟨-, socket, -⟩ | ⟨-, socket, -⟩⟩
  · rw [same]
    exact .refl _
  · rw [socket]
    exact .refl _
  · rw [socket]
    exact (Quiet.enqueue (r.socket.setAssociation key _) _ _).notifications

theorem nextPacket (now : Time) : Uncompleted s (s.nextPacket now).socket := by
  have armed : Uncompleted s (s.armed now) :=
    (refilled s now).trans (Quiet.armed s now).notifications
  rw [nextPacket_eq]
  split
  · exact armed
  · split
    · exact armed
    · exact armed.trans (Quiet.prepareDataPacket _ _ _).notifications

theorem sctpAssociate (draws : Draws) (toAddress : SockAddr) (port : Port) :
    Uncompleted s (s.sctpAssociate draws toAddress port).2 := by
  unfold Socket.sctpAssociate
  split
  · exact .refl _
  · simp only
    split
    · exact .refl _
    · exact .refl s.notifications

theorem call {event : Event} {s' : Socket} (called : System.call s event = some s') :
    Uncompleted s s' := by
  cases event with
  | associate draws toAddress port =>
    cases called
    exact sctpAssociate s draws toAddress port
  | sendData key data stream unordered =>
    cases called
    unfold Socket.sctpSendData
    split
    · exact .refl _
    · split
      · exact .refl s.notifications
      · exact .refl _
  | abort key reason =>
    cases called
    unfold Socket.sctpAbort
    split
    · exact .refl _
    · simp only
      split
      · exact removeAssociation s key
      · exact removeAssociation s key
  | shutdown now key =>
    cases called
    unfold Socket.sctpShutdown
    split
    · exact .refl _
    · split
      · exact .refl s.notifications
      · split
        · exact doNextShutdownStep (s.setAssociation key _) key now
        · exact .refl _
  | recvNotification =>
    cases called
    intro n member
    simp only [Socket.sctpRecvNotification, NotificationQueue.dequeue] at member
    split at member
    · exact Or.inl member
    · next front rest queue =>
      rw [queue]
      exact Or.inl (List.mem_cons_of_mem _ member)
  | recvData capacity =>
    cases called
    unfold Socket.sctpRecvData
    split
    · exact .refl s.notifications
    · exact (Quiet.trans (.receives s _) (.maybeSendWindowUpdate _ _)).notifications
  | recvDataFrom key capacity =>
    cases called
    unfold Socket.sctpRecvDataFrom
    split
    · exact .refl s.notifications
    · exact (Quiet.trans (.receives s _) (.maybeSendWindowUpdate _ _)).notifications
  | changeHeartbeat now draws key destination enabled interval =>
    cases called
    unfold Socket.sctpChangeHeartbeat
    split
    · exact .refl _
    · split
      · exact .refl _
      · simp only
        split
        · exact .refl s.notifications
        · exact (Quiet.trans (.foldl (s.updateAssociation key _) (fun s i =>
            .replanHeartbeat s key now draws i) _) (.armConfirmationProbes _ key now)).notifications
  | requestHeartbeat now draws key destination =>
    cases called
    unfold Socket.sctpRequestHeartbeat
    split
    · exact .refl _
    · next a _ =>
      split
      · exact .refl _
      · next i _ =>
        split
        · exact .refl _
        · exact (((Quiet.buildProbe s key now draws a i).trans (.armHeartbeat _ key i)).trans
            (.enqueue _ _ _)).notifications
  | setPrimary key destination =>
    cases called
    unfold Socket.sctpSetPrimary
    split
    · exact .refl _
    · split
      · exact .refl _
      · split
        · exact .refl _
        · exact .refl s.notifications
  | subscribe type on =>
    cases called
    exact fun n => Or.inl
  | _ => cases called

end Uncompleted

/-! ## The handlers of an event -/

/-- What a handler of a packet does: it is one of those for its COOKIE ECHO, for a chunk
or for its DATA, or nothing that counts. -/
inductive Handles (now : Time) (packet : Packet) (src : SockAddr) (s : Socket) : Socket → Prop where
  | cookieEcho (draws : Draws) (cookieData : Bytes) (key : AssociationKey) :
      Handles now packet src s (s.handleCookieEcho now draws packet.header cookieData key src).2.2
  | chunk (draws : Draws) (key : AssociationKey) (chunk : Chunk) :
      Handles now packet src s (s.handleChunk now draws packet.header key src chunk)
  | data (key : AssociationKey) (carried : Bool) :
      Handles now packet src s (s.handleDataPacket now ⟨packet.header,
        (stripUnrecognized packet.chunks).1⟩ key src carried)
  | quiet {s' : Socket} : Quiet s s' → Handles now packet src s s'

section Turns

variable {now : Time} {draws : Nat → Draws} {packet : Packet} {key : AssociationKey}
    {src : SockAddr} {turn : Turn} {s : Socket}

theorem handles_chunkTurns {chunks : List Chunk} {i : Nat} {leads : Bool}
    (member : turn ∈ Socket.chunkTurns now draws packet.header key src i leads chunks s) :
    Handles now packet src turn.before turn.after := by
  obtain ⟨chunk, -, draws₁, -, here, -, after⟩ :=
    mem_chunkTurns (fun _ => True) (fun _ _ _ _ _ => trivial) trivial member
  rw [after]
  exact .chunk draws₁ key chunk

theorem handles_restTurns {carried : Bool}
    (member : turn ∈ s.restTurns now draws packet key src carried) :
    Handles now packet src turn.before turn.after := by
  unfold Socket.restTurns Socket.loopTurns at member
  rcases List.mem_cons.mp member with rfl | member
  · exact .quiet (.beforeChunks s key now packet src)
  rcases List.mem_append.mp member with loop | rest
  · exact handles_chunkTurns loop
  · split at rest
    · cases rest
    · next s₁ _ =>
      simp only [List.mem_cons, List.not_mem_nil, or_false] at rest
      rcases rest with rfl | rfl
      · exact .data key carried
      · refine .quiet ?_
        simp only
        split
        · exact .refl _
        · exact .reportUnrecognizedChunks _ key _ _ _

/-- Every handler of a packet is one of these. -/
theorem handles_turns (member : turn ∈ s.turns now draws packet src) :
    Handles now packet src turn.before turn.after := by
  unfold Socket.turns at member
  simp only at member
  split at member
  · split at member
    · rcases List.mem_cons.mp member with rfl | later
      · exact .cookieEcho (draws 0) _ _
      · split at later
        · exact handles_restTurns later
        · cases later
    · exact handles_restTurns member
  · next refused =>
    rw [List.mem_singleton] at member
    subst member
    refine .quiet (show Quiet s (s.handlePacket now draws packet src) from ?_)
    unfold Socket.handlePacket
    simp only
    split
    · next accepted => exact absurd accepted refused
    · exact .reply s _ _ _
    · exact .reply s _ _ _
    · exact .reply s _ _ _
    · exact .refl s

end Turns

/-- What each handler keeps, each of them finds. -/
theorem Chained.finds {inv : Socket → Prop} {s s' : Socket} {turns : List Turn}
    (chained : Chained s turns s') (each : ∀ turn ∈ turns, inv turn.before → inv turn.after)
    (holds : inv s) : ∀ turn ∈ turns, inv turn.before := by
  induction chained with
  | nil s =>
    intro turn none
    cases none
  | cons first _ ih =>
    intro turn member
    rcases List.mem_cons.mp member with rfl | later
    · exact holds
    · exact ih (fun other inside => each other (List.mem_cons_of_mem first inside))
        (each first List.mem_cons_self holds) turn later

/-! ## What closes, handler by handler -/

theorem Closes.acts {due : List ExpirationFallback} {s s' : Socket} (holds : Closes due s)
    (acts : Acts s s') : Closes due s' :=
  acts.keeps (fun _ _ move holds => Closes.move holds move) holds

theorem Closes.handles {now : Time} {packet : Packet} {src : SockAddr} {s s' : Socket}
    (holds : Closes [] s) (handles : Handles now packet src s s') : Closes [] s' := by
  cases handles with
  | cookieEcho draws cookieData key =>
    rcases handleCookieEcho_cases s now draws packet.header cookieData key src with
      moved | ⟨cookie, s₁, -, entry, moved⟩ | ⟨cookie, tcb, -, found, waits, -, same⟩
    · exact holds.acts moved
    · exact (holds.entry entry).acts moved
    · rw [same]
      exact holds.stuck found waits packet.header _ cookie
  | chunk draws key chunk =>
    obtain ⟨flag, value⟩ := chunk
    cases value with
    | initAck v =>
      rcases handleInitAck_cases s packet.header v key src with moved | ⟨a, cookie, found, -, -,
        accepted⟩
      · exact holds.acts moved
      · have after := holds.initAck found packet.header v src cookie
        rw [← accepted] at after
        exact after
    | opError causes =>
      rcases handleError_cases s causes key with moved | ⟨a, staleness, -, -, retried⟩
      · exact holds.acts moved
      · have after : Closes [] (s.retryHandshake key a staleness) := holds.retry staleness
        rw [← retried] at after
        exact after
    | _ => exact holds.acts (Acts.handleChunk s key now draws packet.header src nofun nofun)
  | data key carried =>
    rcases handleDataPacket_cases s now ⟨packet.header, (stripUnrecognized packet.chunks).1⟩ key
      src carried with
      moved | ⟨a, -, -, same, -, taken⟩
    · exact holds.acts moved
    · rw [same]
      exact holds.keeping taken fun _ _ _ related => .of_essence related.essence
  | quiet quiet => exact holds.quiet quiet

theorem Closes.timerPassages {now : Time} {draws : Nat → Draws}
    {expired : List (ExpirationFallback × Nat)} {s : Socket}
    (holds : Closes (expired.map Prod.fst) s) {p : Passage}
    (member : p ∈ timerPassages now draws expired s) :
    ∃ due, Closes due p.before := by
  induction expired generalizing s with
  | nil => cases member
  | cons pair rest ih =>
    rcases List.mem_cons.mp member with rfl | later
    · exact ⟨_, holds⟩
    · exact ih (Closes.fire now (draws pair.2) holds) later

/-! ## The notification -/

/-- A shutdown is completed: the association that closes ends, and SHUTDOWN_COMP is
notified. -/
def Completes (s s' : Socket) : Prop :=
  ∃ key a, s.find? key = some a ∧ closes a.state = true ∧ s'.find? key = none
    ∧ ∀ n ∈ s'.notifications.queue, n ∈ s.notifications.queue
    ∨ n.payload ≠ .assocChange .shutdownComp ∨ n.src = key

theorem completes_notified {s : Socket} {key : AssociationKey} (a : Association)
    (closing : closes a.state = true) (found : s.find? key = some a) {s' : Socket}
    (absent : s'.find? key = none) (told : Uncompleted s s') :
    Completes s (s'.notifyAssocChange key .shutdownComp) := by
  refine ⟨key, a, found, closing, absent, fun n member => ?_⟩
  have either : n ∈ s'.notifications.queue ∨ n.src = key := by
    unfold Socket.notifyAssocChange Socket.notify NotificationQueue.enqueue at member
    split at member
    · exact Or.inl member
    · split at member
      · exact Or.inl member
      · rcases List.mem_append.mp member with before | new
        · exact Or.inl before
        · rw [List.mem_singleton.mp new]
          exact Or.inr rfl
  rcases either with before | here
  · exact (told n before).imp_right Or.inl
  · exact Or.inr (Or.inr here)

theorem handleShutdownAck_completes (s : Socket) (header : CommonHeader) (key : AssociationKey)
    (src : SockAddr) :
    s.handleShutdownAck header key src = s ∨ Completes s (s.handleShutdownAck header key src) := by
  unfold Socket.handleShutdownAck
  cases found : s.find? key with
  | none => exact Or.inl rfl
  | some a =>
    simp only
    split
    · exact Or.inl rfl
    · next closing =>
      rw [not_and_or, Decidable.not_not, Decidable.not_not] at closing
      have removed := removed_removeAssociation s key
      refine Or.inr (completes_notified a (closes_iff.mpr closing) found ?_ removed.notifications)
      exact (removed.find? key).trans (if_pos rfl)

theorem handleShutdownComplete_completes (s : Socket) (key : AssociationKey) :
    s.handleShutdownComplete key = s ∨ Completes s (s.handleShutdownComplete key) := by
  unfold Socket.handleShutdownComplete
  cases found : s.find? key with
  | none => exact Or.inl rfl
  | some a =>
    simp only
    split
    · exact Or.inl rfl
    · next closing =>
      have removed := removed_removeAssociation s key
      refine Or.inr (completes_notified a (closes_iff.mpr (Or.inr (Decidable.not_not.mp closing)))
        found ?_ removed.notifications)
      exact (removed.find? key).trans (if_pos rfl)

theorem Handles.completes {now : Time} {packet : Packet} {src : SockAddr} {s s' : Socket}
    (handles : Handles now packet src s s') :
    Uncompleted s s' ∨ Completes s s' := by
  cases handles with
  | cookieEcho draws cookieData key =>
      exact Or.inl (.handleCookieEcho s key now draws packet.header cookieData src)
  | chunk draws key chunk =>
    by_cases ack : chunk.type = .shutdownAck
    · obtain ⟨flag, value⟩ := chunk
      cases value with
      | shutdownAck =>
        rcases handleShutdownAck_completes s packet.header key src with same | completes
        · refine Or.inl ?_
          show Uncompleted s (s.handleShutdownAck packet.header key src)
          rw [same]
          exact .refl _
        · exact Or.inr completes
      | _ => cases ack
    · by_cases complete : chunk.type = .shutdownComplete
      · obtain ⟨flag, value⟩ := chunk
        cases value with
        | shutdownComplete =>
          rcases handleShutdownComplete_completes s key with same | completes
          · refine Or.inl ?_
            show Uncompleted s (s.handleShutdownComplete key)
            rw [same]
            exact .refl _
          · exact Or.inr completes
        | _ => cases complete
      · exact Or.inl (.handleChunk s key now draws packet.header src ack complete)
  | data key carried => exact Or.inl (.handleDataPacket s key now _ src carried)
  | quiet quiet => exact Or.inl quiet.notifications

/-- Every handler of an event finds what closes as it should be, and completes a shutdown
or notifies no SHUTDOWN_COMP. -/
theorem System.passages_complete {σ σ' : System} {event : Event} (stepped : σ.step event = some σ')
    (holds : Closes [] σ.socket) {p : Passage} (member : p ∈ σ.passages event) :
    (∃ due, Closes due p.before) ∧ (Uncompleted p.before p.after ∨ Completes p.before p.after) := by
  rcases step_cases stepped with ⟨now, draws, packet, src, rfl, -, -⟩ | ⟨now, draws, rfl, -,
    -⟩ | ⟨rfl, -, rfl⟩
    | ⟨now, accepted, left, rfl, -, -⟩ | ⟨s, called, rfl⟩
  · obtain ⟨turn, inside, rfl⟩ := List.mem_map.mp member
    have chained : Chained σ.socket (σ.socket.turns now draws packet src) _ :=
      chained_turns σ.socket
    have before := chained.finds (fun turn inside holds =>
      Closes.handles holds (handles_turns inside)) holds turn inside
    exact ⟨⟨[], before⟩, (handles_turns inside).completes⟩
  · rcases List.mem_cons.mp member with rfl | fired
    · exact ⟨⟨[], holds⟩, Or.inl (.refl _)⟩
    · obtain ⟨pair, -, same⟩ := mem_timerPassages fired
      refine ⟨Closes.timerPassages ?_ fired, Or.inl ?_⟩
      · rw [List.zipIdx_map_fst]
        exact holds.off now
      · rw [same]
        exact .handleExpiration _ now _ _
  · simp only [passages, stepped, List.mem_singleton] at member
    subst member
    exact ⟨⟨[], holds⟩, Or.inl (Quiet.startTransmissionOpportunity σ.socket).notifications⟩
  · have next : Closes [] (σ.socket.nextPacket now).socket := holds.acts (.nextPacket σ.socket now)
    rcases List.mem_cons.mp member with rfl | later
    · exact ⟨⟨[], holds⟩, Or.inl (.nextPacket σ.socket now)⟩
    · cases pending : (σ.socket.nextPacket now).pending with
      | none =>
        rw [pending] at later
        cases later
      | some d =>
        rw [pending] at later
        rw [List.mem_singleton.mp later]
        refine ⟨⟨[], next⟩, Or.inl ?_⟩
        cases accepted with
        | true => exact (afterSend_packetSent _ now d).notifications
        | false => exact (Quiet.packetRefused _ now d).notifications
  · cases event with
    | recv | expire | startSending | send => cases called
    | _ =>
      simp only [passages, stepped, List.mem_singleton] at member
      subst member
      exact ⟨⟨[], holds⟩, Or.inl (.call _ called)⟩

/-- In every run, a handler that notifies SHUTDOWN_COMP of an association finds it in
SHUTDOWN-SENT or SHUTDOWN-ACK-SENT, with nothing left to send and everything it sent
acknowledged, and removes it. -/
theorem shutdown_comp_after_drained {σ : System} {passed : List Passage}
    (history : System.History σ passed) {p : Passage} (member : p ∈ passed) {n : Notification}
    (queued : n ∈ p.after.notifications.queue) (new : n ∉ p.before.notifications.queue)
    (comp : n.payload = .assocChange .shutdownComp) :
    ∃ a, p.before.find? n.src = some a ∧ (a.state = .shutdownSent ∨ a.state = .shutdownAckSent)
      ∧ Drained a
      ∧ p.after.find? n.src = none := by
  have each : (∃ due, Closes due p.before)
      ∧ (Uncompleted p.before p.after ∨ Completes p.before p.after) := by
    induction history with
    | start => cases member
    | next history stepped ih =>
      rcases List.mem_append.mp member with earlier | now
      · exact ih earlier
      · exact System.passages_complete stepped history.reached.closes now
  obtain ⟨⟨due, holds⟩, told | ⟨key, a, found, closing, absent, notified⟩⟩ := each
  · rcases told n queued with before | other
    · exact absurd before new
    · exact absurd comp other
  · rcases notified n queued with before | other | here
    · exact absurd before new
    · exact absurd comp other
    · rw [here]
      exact ⟨a, found, closes_iff.mp closing, holds.drained key a found closing, absent⟩

/-- The ULP closes, and the peer answers with SHUTDOWN ACK. -/
theorem answered_shutdown_drained : ∃ σ passed p n a, System.History σ passed ∧ p ∈ passed
    ∧ n ∈ p.after.notifications.queue ∧ n.payload = .assocChange .shutdownComp
    ∧ p.before.find? n.src = some a
    ∧ (a.state = .shutdownSent ∨ a.state = .shutdownAckSent) ∧ Drained a ∧ p.after.find? n.src
      = none := by
  obtain ⟨σ, passed, history, ends⟩ := Opened.exists_history
    (Opened.events ++ [.shutdown 0 Opened.key, Opened.arrives [⟨0#8, .shutdownAck⟩]])
    (p := fun w => w.2.any fun p => p.after.notifications.queue.any fun n =>
      decide (n ∉ p.before.notifications.queue ∧ n.payload = .assocChange .shutdownComp))
        (by decide +kernel)
  obtain ⟨p, member, some⟩ := List.any_eq_true.mp ends
  obtain ⟨n, queued, is⟩ := List.any_eq_true.mp some
  obtain ⟨new, comp⟩ := of_decide_eq_true is
  obtain ⟨a, found, closing, drained, gone⟩ :=
    shutdown_comp_after_drained history member queued new comp
  exact ⟨σ, passed, p, n, a, history, member, queued, comp, found, closing, drained, gone⟩

end SctpStack
