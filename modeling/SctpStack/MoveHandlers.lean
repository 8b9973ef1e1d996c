import SctpStack.Moves
import SctpStack.Acknowledging
import SctpStack.Buffered

/-!
# Every handler as a sequence of moves

One lemma for each handler of a chunk, of a timer and of a call. Those with a way into an
association are told apart by cases (`handleInitAck_cases`, `handleError_cases`).
-/

namespace SctpStack

namespace Acts

variable (s : Socket) (key : AssociationKey)

theorem removeAssociation : Acts s (s.removeAssociation key) :=
  .single (.removed key (removed_removeAssociation s key))

theorem abortAssociation (header : CommonHeader) (src : SockAddr) (causes : List ErrorCause) :
    Acts s (s.abortAssociation key header src causes) := by
  unfold Socket.abortAssociation
  split
  · exact .refl
  · next a _ =>
    have told : Quiet (s.removeAssociation key) _ := .reply _ key (replyDestination a src)
      (buildAbort header.desPort header.srcPort a.peerVerTag false causes)
    have notified : ∀ s', Quiet s'
        (s'.notifyAssocChange key (if forming a.state then .cantStrAssoc else .commLost)) :=
      fun s' => .notifyAssocChange s' key (by split <;> exact nofun)
    simp only
    split
    · exact ((removeAssociation s key).thenQuiet told).thenQuiet (notified _)
    · exact (removeAssociation s key).thenQuiet (notified _)

/-- An association that was changed first, and is aborted. -/
theorem abortChanged (b : Association) (header : CommonHeader) (src : SockAddr)
    (causes : List ErrorCause) :
    Acts s ((s.setAssociation key b).abortAssociation key header src causes) := by
  have gone : Acts s ((s.setAssociation key b).removeAssociation key) :=
    Relation.ReflTransGen.single (Move.removed
      key (removed_removeAssociation (s.setAssociation key b) key).of_set)
  unfold Socket.abortAssociation
  rw [Socket.find?_setAssociation, if_pos rfl]
  simp only
  have notified : ∀ s', Quiet s'
      (s'.notifyAssocChange key (if forming b.state then .cantStrAssoc else .commLost)) :=
    fun s' => .notifyAssocChange s' key (by split <;> exact nofun)
  split
  · exact (gone.thenQuiet (.reply _ key _ _)).thenQuiet (notified _)
  · exact gone.thenQuiet (notified _)

theorem loseAssociation : Acts s (s.loseAssociation key) :=
  (removeAssociation s key).thenQuiet (.notifyAssocChange _ key nofun)

/-! ## The handshake -/

theorem refuseInitAck (header : CommonHeader) (src : SockAddr) (tag : Tag) (reflected : Bool)
    (cause : ErrorCause) :
    Acts s (s.refuseInitAck header key src tag reflected cause) :=
  ((removeAssociation s key).thenQuiet (.reply _ key _ _)).thenQuiet
    (.notifyAssocChange _ key nofun)

/-- Past the change of its state, coming up is quiet. -/
theorem broughtUp (now : Time) (draws : Draws) :
    Quiet (s.updateAssociation key fun assoc => { assoc with state := .established })
      (s.bringUp now draws key) := by
  unfold Socket.bringUp
  refine Quiet.trans ?_ (.startHeartbeats _ key now draws)
  exact .notifyAssocChange _ key nofun

theorem bringUp (now : Time) (draws : Draws) {a : Association} (found : s.find? key = some a)
    (echoed : a.state = .cookieEchoed) : Acts s (s.bringUp now draws key) := by
  have up : Acts s _ := Relation.ReflTransGen.single (Move.up key a found echoed)
  exact up.thenQuiet (broughtUp s key now draws)

end Acts

theorem state_bringUp {s : Socket} {key : AssociationKey} {now : Time} {draws : Draws}
    {b : Association} (found : (s.bringUp now draws key).find? key = some b) :
    b.state = .established := by
  obtain ⟨a, before, same⟩ := (Acts.broughtUp s key now draws).before found
  rw [Socket.find?_updateAssociation, if_pos rfl, Option.map_eq_some_iff] at before
  obtain ⟨a', -, rfl⟩ := before
  exact congrArg Essence.state same.essence

namespace Acts

variable (s : Socket) (key : AssociationKey)

/-- T1 and its packet are taken back once nothing waits for them. -/
theorem settle (isInit : Bool)
    (passed : ∀ a, s.find? key = some a → a.state ≠ openingState isInit) :
    Acts s ((s.cancelExpiration (timerOf key (openingTimer isInit))).removeRetransmissionsOfType key
      (openingChunk isInit) none) :=
  (Relation.ReflTransGen.single (Move.settled key isInit passed)).tail (.dropped key isInit passed)

theorem handleCookieAck (now : Time) (draws : Draws) :
    Acts s (s.handleCookieAck now draws key) := by
  unfold Socket.handleCookieAck
  cases found : s.find? key with
  | none => exact .refl
  | some a =>
    simp only
    split
    · exact .refl
    · next echoed =>
      refine (bringUp s key now draws found (Decidable.not_not.mp echoed)).trans
        (settle _ key false fun b after => ?_)
      rw [state_bringUp after]
      exact nofun

/-! ## Teardown -/

theorem handleAbort (causes : List ErrorCause) : Acts s (s.handleAbort causes key) := by
  unfold Socket.handleAbort
  split
  · exact .refl
  · simp only
    refine Relation.ReflTransGen.trans ?_ ((removeAssociation _ key).thenQuiet
      (.notifyAssocChange _ key (by split <;> exact nofun)))
    split
    · exact .refl
    · exact Acts.quiet (.notify s key nofun)

theorem handleShutdownAck (header : CommonHeader) (src : SockAddr) :
    Acts s (s.handleShutdownAck header key src) := by
  unfold Socket.handleShutdownAck
  cases found : s.find? key with
  | none => exact .refl
  | some a =>
    simp only
    split
    · exact .refl
    · next closing =>
      refine .single (.completed key a found ?_ (removed_removeAssociation s key)
        (.reply _ key _ _))
      rw [not_and_or, Decidable.not_not, Decidable.not_not] at closing
      exact closing

theorem handleShutdownComplete : Acts s (s.handleShutdownComplete key) := by
  unfold Socket.handleShutdownComplete
  cases found : s.find? key with
  | none => exact .refl
  | some a =>
    simp only
    split
    · exact .refl
    · next closing =>
      exact .single (.completed key a found (Or.inr (Decidable.not_not.mp closing))
        (removed_removeAssociation s key) (.refl _))

/-! ## SACK and SHUTDOWN -/

theorem runT3Actions (now : Time) (actions : List (SockAddr × T3Action)) :
    Quiet s (actions.foldl (fun s action => s.runT3Action now key action) s) := by
  refine .foldl s (fun s action => ?_) actions
  unfold Socket.runT3Action
  split
  · exact .cancel s rfl nofun
  · exact .restartT3 s key now action.1
  · exact .startT3IfStopped s key now action.1

end Acts

/-- What a SACK changes of an association. -/
def AckOnly (a b : Association) : Prop :=
  b = { a with
    peerAddressList := b.peerAddressList
    errorCount := b.errorCount
    peerRwnd := b.peerRwnd
    peerMaxRwnd := b.peerMaxRwnd
    zeroWindowProbing := b.zeroWindowProbing
    sackSinceT3 := b.sackSinceT3
    cumulativeTsnAck := b.cumulativeTsnAck
    outstandingData := b.outstandingData
    hasRttMeasurementTsn := b.hasRttMeasurementTsn
    rttMeasurementTsn := b.rttMeasurementTsn
    ackedRetransmissions := b.ackedRetransmissions
    inFastRecovery := b.inFastRecovery
    fastRecoveryExitTsn := b.fastRecoveryExitTsn }

theorem AckOnly.trans {a b c : Association} (first : AckOnly a b) (second : AckOnly b c) :
    AckOnly a c := by
  unfold AckOnly at *
  rw [first] at second
  exact second

theorem applySack_only (a : Association) (sack : SackChunkValue) (now : Time) :
    AckOnly a (applySack a sack now).assoc := by
  have acknowledged : AckOnly a (acknowledgeEntries a sack now) := by
    unfold acknowledgeEntries
    cases rttSample a sack with
    | none => rfl
    | some sample => rfl
  have counted : AckOnly a (countMissing a sack
      (updateWindows a sack (acknowledgeEntries a sack now))) :=
    acknowledged.trans rfl
  have finished : ∀ b, AckOnly b (finishSack sack b) := by
    intro b
    unfold finishSack
    simp only
    (repeat' split) <;> rfl
  unfold applySack
  simp only
  refine AckOnly.trans ?_ (finished _)
  split
  · exact counted.trans rfl
  · exact counted

/-- A SACK that is applied. -/
theorem closing_applySack {a : Association} {sack : SackChunkValue} (now : Time)
    (transmits : transmitsData a.state = true) (sent : acksUnsent a sack = false)
    (later : tsnLt sack.cumulativeTsnAck a.cumulativeTsnAck = false) :
    Closing a (applySack a sack now).assoc := by
  have only := applySack_only a sack now
  have frame := applySack_frame a sack now
  have assigned : tsnLt sack.cumulativeTsnAck a.nextTsn = true := by
    rw [acksUnsent, Bool.or_eq_false_iff, Bool.not_eq_false'] at sent
    exact sent.1
  constructor
  · have ips := frame.ips
    revert ips only
    generalize (applySack a sack now).assoc = b
    intro only ips
    unfold Association.essence
    simp only [ips]
    rw [only]
  · rw [only]
    exact ⟨rfl, rfl, Or.inl rfl⟩
  · exact transmits
  · rw [frame.state]
    exact transmits
  · rw [frame.state]
    exact id
  · rw [applySack_cumulativeTsnAck]
    exact Or.inr ⟨assigned, later⟩

namespace Acts

variable (s : Socket) (key : AssociationKey)

theorem notifyAcked (before : Association) (sack : SackChunkValue) :
    Quiet s (s.notifyAcked key before sack) :=
  .foldl s (fun s _ => .notifyIf s key _ _ _) _

theorem handleSack (now : Time) (header : CommonHeader) (sack : SackChunkValue) (src : SockAddr) :
    Acts s (s.handleSack now header sack key src) := by
  unfold Socket.handleSack
  cases found : s.find? key with
  | none => exact .refl
  | some a =>
    simp only
    split
    · exact .refl
    · next transmits =>
      rw [Bool.not_eq_true', Bool.not_eq_false] at transmits
      split
      · exact abortAssociation s key header src _
      · next sent =>
        split
        · exact .refl
        · next later =>
          rw [Bool.not_eq_true] at sent later
          rw [acceptSack_eq]
          refine .single (.closed key now ?_)
          have acked := Keeping.setAt found (closing_applySack now transmits sent later)
          have settled : Keeping (At key Closing) s (s.acknowledgeSack now sack key a) :=
            (acked.thenQuiet (notifyAcked _ key a sack)).thenQuiet
              (.removeAckedRetransmissions _ key sack)
          unfold Socket.settleSack
          refine Keeping.thenQuiet ?_ (runT3Actions _ key now _)
          split
          · exact settled.thenQuiet (.schedulePendingRetransmission _ key false)
          · exact settled

end Acts

/-! ## SHUTDOWN -/

theorem Closing.refl {a : Association} (transmits : transmitsData a.state = true) : Closing a a :=
  ⟨rfl, .refl a, transmits, transmits, id, Or.inl rfl⟩

theorem Closing.of_same {a b c : Association} (same : Same a b) (closing : Closing b c) :
    Closing a c := by
  have state : b.state = a.state := congrArg Essence.state same.essence
  have cumulative : b.cumulativeTsnAck = a.cumulativeTsnAck :=
    congrArg Essence.cumulativeTsnAck same.essence
  have next : b.nextTsn = a.nextTsn := congrArg Essence.nextTsn same.essence
  refine ⟨?_, same.holds.trans closing.holds, state ▸ closing.before, closing.after,
    state ▸ closing.established, ?_⟩
  · rw [← same.essence, ← state, ← cumulative]
    exact closing.essence
  · rw [← cumulative, ← next]
    exact closing.acked

/-- The peer closes: what is acknowledged stays so. -/
theorem Closing.received {a b : Association} (closing : Closing a b) :
    Closing a { b with state := .shutdownReceived } :=
  ⟨closing.essence, closing.holds.trans ⟨rfl, rfl, Or.inl rfl⟩, closing.before, rfl, nofun,
    closing.acked⟩

theorem closing_acknowledgeShutdown {a : Association} {cumulativeTsnAck : Tsn}
    (transmits : transmitsData a.state = true) (sent : tsnLt cumulativeTsnAck a.nextTsn = true)
    (advanced : tsnGt cumulativeTsnAck a.cumulativeTsnAck = true) :
    Closing a (acknowledgeShutdown a cumulativeTsnAck) :=
  ⟨rfl, ⟨rfl, rfl, Or.inl rfl⟩, transmits, transmits, id, Or.inr ⟨sent, tsnLt_asymm advanced⟩⟩

section

variable {s : Socket} {key : AssociationKey} {a : Association} {cumulativeTsnAck : Tsn}

theorem keeping_advanceByShutdown (found : s.find? key = some a)
    (transmits : transmitsData a.state = true) (sent : tsnLt cumulativeTsnAck a.nextTsn = true)
    (advanced : tsnGt cumulativeTsnAck a.cumulativeTsnAck = true) :
    Keeping (At key Closing) s (s.advanceByShutdown key a cumulativeTsnAck) := by
  have cleared : Quiet s ((pathsAcked a cumulativeTsnAck).foldl
      (fun s i => ((s.find? key).elim s fun current => s.clearPathErrorsAt key current i)) s) := by
    refine .foldl s (fun s i => ?_) _
    cases s.find? key with
    | none => exact .refl s
    | some current => exact .clearPathErrorsAt s key current i
  obtain ⟨b, after, same⟩ := cleared.present key a found
  have state : b.state = a.state := congrArg Essence.state same.essence
  have cumulative : b.cumulativeTsnAck = a.cumulativeTsnAck :=
    congrArg Essence.cumulativeTsnAck same.essence
  have next : b.nextTsn = a.nextTsn := congrArg Essence.nextTsn same.essence
  have acknowledged : Keeping (At key Closing) ((pathsAcked a cumulativeTsnAck).foldl
      (fun s i => ((s.find? key).elim s fun current => s.clearPathErrorsAt key current i)) s)
      (s.advanceByShutdown key a cumulativeTsnAck) := by
    refine .update _ (fun _ a apart => at_of_ne apart a) fun b' here => ?_
    rw [after] at here
    cases here
    refine at_self (closing_acknowledgeShutdown ?_ ?_ ?_)
    · rw [state]
      exact transmits
    · rw [next]
      exact sent
    · rw [cumulative]
      exact advanced
  refine cleared.comp acknowledged fun k a b c before closing => ?_
  unfold At at closing ⊢
  split
  · next eq =>
    rw [if_pos eq] at closing
    exact closing.of_same before
  · next apart =>
    rw [if_neg apart] at closing
    exact before.trans closing

theorem keeping_acknowledgeByShutdown (found : s.find? key = some a)
    (transmits : transmitsData a.state = true) (sent : tsnLt cumulativeTsnAck a.nextTsn = true) :
    Keeping (At key Closing) s (s.acknowledgeByShutdown cumulativeTsnAck key a) := by
  have advanced : Keeping (At key Closing) s (if tsnGt cumulativeTsnAck a.cumulativeTsnAck then
      s.advanceByShutdown key a cumulativeTsnAck else s) := by
    split
    · next later => exact keeping_advanceByShutdown found transmits sent later
    · refine (Quiet.refl s).mono fun k a' b here same => ?_
      unfold At
      split
      · next eq =>
        rw [eq, found] at here
        cases here
        exact (Closing.refl transmits).same same
      · exact same
  have entered : ∀ s' : Socket, Keeping (At key fun b c => c
      = { b with state := .shutdownReceived }) s' (s'.updateAssociation key fun assoc =>
        { assoc with state := .shutdownReceived }) := fun s' =>
    .update _ (fun _ a apart => at_of_ne apart a) fun _ _ => at_self rfl
  have received : Keeping (At key Closing) s ((if tsnGt cumulativeTsnAck a.cumulativeTsnAck then
      s.advanceByShutdown key a cumulativeTsnAck else s).updateAssociation key fun assoc =>
        { assoc with state := .shutdownReceived }) := by
    refine advanced.comp (entered _) fun k a b c closing after => ?_
    unfold At at closing after ⊢
    split
    · next eq =>
      rw [if_pos eq] at closing after
      rw [after]
      exact closing.received
    · next apart =>
      rw [if_neg apart] at closing after
      exact closing.trans after
  have notified : ∀ s', Quiet s' (if a.state ≠ .shutdownReceived then s'.notify key .shutdownEvent
      else s') := by
    intro s'
    split
    · exact .notify s' key nofun
    · exact .refl s'
  have finished := received.thenQuiet (notified _)
  unfold Socket.acknowledgeByShutdown
  simp only
  revert finished
  generalize (if a.state ≠ .shutdownReceived then _ else _ : Socket) = s'
  intro finished
  split
  · exact finished.thenQuiet (.removeAckedRetransmissions s' key _)
  · exact finished

end

namespace Acts

variable (s : Socket) (key : AssociationKey)

theorem handleShutdown (now : Time) (header : CommonHeader) (cumulativeTsnAck : Tsn)
    (src : SockAddr) :
    Acts s (s.handleShutdown now header cumulativeTsnAck key src) := by
  unfold Socket.handleShutdown
  cases found : s.find? key with
  | none => exact .refl
  | some a =>
    simp only
    split
    · exact .refl
    · next up =>
      split
      · next closing =>
        refine .single (.shift key ?_)
        have shifted : Keeping (At key Shift)
            s (s.setAssociation key { a with state := .shutdownAckSent }) :=
          .setAt found (.answered rfl ⟨rfl, rfl, Or.inl rfl⟩ closing rfl)
        exact (shifted.followed (fun _ _ _ => Shift.same) (.reply _ key _ _)).followed (fun _ _ _ =>
          Shift.same) (.restartT2 _ key now)
      · next open_ =>
        split
        · exact abortAssociation s key header src _
        · next sent =>
          rw [Bool.not_eq_true', Bool.not_eq_false] at sent
          rw [Bool.not_eq_true] at up
          rw [acceptShutdown_eq]
          refine .single (.closed key now ?_)
          exact (keeping_acknowledgeByShutdown found (transmitsData_of_open up open_)
            sent).thenQuiet (runT3Actions _ key now _)

end Acts

/-! ## Ways into an association -/

/-- The handshake starts over after a stale cookie. -/
def Socket.retryHandshake (s : Socket) (key : AssociationKey) (assoc : Association)
    (stalenessUs : BitVec 32) : Socket :=
  let s := s.setAssociation key { assoc with
    staleCookieRetries := assoc.staleCookieRetries + 1
    state := .cookieWait
    peerVerTag := 0#32
    initRetransmits := 0
    cookieRetransmits := 0 }
  let s := s.cancelExpiration (timerOf key .t1Cookie)
  let s := s.removeRetransmissionsOfType key .cookieEcho none
  s.enqueuePacket ⟨key, (assoc.path (primary assoc)).address, buildInit s.localAddress.port
    key.address.port assoc.thisVerTag assoc.nextTsn (cookiePreservative stalenessUs)⟩ .control

/-- Packets are dropped for one key alone... -/
theorem QueuedWith.dropFor {q : SendQueue} {key k : AssociationKey} {type other : ChunkType}
    {destination : Option SockAddr} (apart : k ≠ key) (queued : QueuedWith q k type) :
    QueuedWith (q.removeRetransmissionsOfType key other destination) k type := by
  refine queued.drop fun e chunk location _ selected => ?_
  rw [Bool.and_eq_true, decide_eq_true_eq] at selected
  exact absurd (location.symm.trans selected.1) apart

/-- ...and with them no chunk that opens an association but that asked for. -/
theorem QueuedWith.dropOther {q : SendQueue} {key k : AssociationKey} {type other : ChunkType}
    {destination : Option SockAddr} (opening : opens type = true) (apart : type ≠ other)
    (queued : QueuedWith q k type) :
    QueuedWith (q.removeRetransmissionsOfType key other destination) k type := by
  refine queued.drop fun e chunk _ is _ => ?_
  have error : type ≠ .opError := by
    rintro rfl
    cases opening
  rw [is, decide_eq_false apart, decide_eq_false error, Bool.or_self, Bool.and_false]

/-- The handshake fails for good after a stale cookie. -/
theorem removed_afterStale (s : Socket) (key : AssociationKey) :
    Removed key s (((s.cancelExpiration (timerOf key .t1Cookie)).removeRetransmissionsOfType key
      .cookieEcho none).removeAssociation key) := by
  have removed := removed_removeAssociation
    ((s.cancelExpiration (timerOf key .t1Cookie)).removeRetransmissionsOfType key .cookieEcho none)
      key
  refine ⟨removed.localAddress, removed.find?, removed.peerAddresses, removed.timers.of_cancel rfl,
    ?_, removed.notifications⟩
  intro k type apart opening queued
  exact removed.openings k type apart opening (queued.dropFor apart)

/-- An ERROR moves an association on, or sends it back to the start of its handshake. -/
theorem handleError_cases (s : Socket) (causes : List ErrorCause) (key : AssociationKey) :
    Acts s (s.handleError causes key)
    ∨ ∃ a stalenessUs, s.find? key = some a ∧ Socket.staleCookieOutcome a causes
      = .retry stalenessUs
      ∧ s.handleError causes key = s.retryHandshake key a stalenessUs := by
  unfold Socket.handleError
  split
  · exact Or.inl .refl
  · cases found : s.find? key with
    | none => exact Or.inl .refl
    | some a =>
      simp only
      cases outcome : Socket.staleCookieOutcome a causes with
      | ignored => exact Or.inl (Acts.quiet (.notify s key nofun))
      | retry stalenessUs => exact Or.inr ⟨a, stalenessUs, rfl, outcome, rfl⟩
      | failed =>
        have gone : Acts s _ := Relation.ReflTransGen.single
          (Move.removed key (removed_afterStale s key))
        exact Or.inl (gone.thenQuiet (.notifyAssocChange _ key nofun))

/-- The cookie of an INIT ACK that has all an INIT ACK needs. -/
def echoedCookie (initAck : InitChunkValue) : Option Bytes :=
  if initAck.initiateTag = 0#32 ∨ initAck.outStreams = 0#16 ∨ initAck.inStreams = 0#16
      ∨ (findParameter (scanInitAck initAck).recognized paramHostNameAddress).isSome then none
  else findParameter (scanInitAck initAck).recognized paramStateCookie

/-- An INIT ACK is ignored, refused, or answered with a COOKIE ECHO. -/
theorem handleInitAck_cases (s : Socket) (header : CommonHeader) (initAck : InitChunkValue)
    (key : AssociationKey) (src : SockAddr) :
    Acts s (s.handleInitAck header initAck key src)
    ∨ ∃ a cookie, s.find? key = some a ∧ a.state = .cookieWait ∧ echoedCookie initAck = some cookie
      ∧ s.handleInitAck header initAck key src = s.acceptInitAck header initAck key src cookie := by
  unfold Socket.handleInitAck
  cases found : s.find? key with
  | none => exact Or.inl .refl
  | some a =>
    simp only
    split
    · exact Or.inl .refl
    · next waits =>
      split
      · exact Or.inl (.refuseInitAck s key header src _ _ _)
      · next tag =>
        split
        · exact Or.inl (.refuseInitAck s key header src _ _ _)
        · next cookie carried =>
          split
          · exact Or.inl (.refuseInitAck s key header src _ _ _)
          · next streams =>
            split
            · exact Or.inl (.refuseInitAck s key header src _ _ _)
            · next named =>
              refine Or.inr ⟨a, cookie, rfl, Decidable.not_not.mp waits, ?_, rfl⟩
              rw [echoedCookie, if_neg, carried]
              rintro (zero | out | inbound | host)
              · exact tag zero
              · exact streams (Or.inl out)
              · exact streams (Or.inr inbound)
              · rw [named] at host
                cases host

/-- Every other chunk moves an association on. -/
theorem Acts.handleChunk (s : Socket) (key : AssociationKey) (now : Time) (draws : Draws)
    (header : CommonHeader) (src : SockAddr) {chunk : Chunk} (initAck : chunk.type ≠ .initAck)
    (error : chunk.type ≠ .opError) :
    Acts s (s.handleChunk now draws header key src chunk) := by
  obtain ⟨flag, value⟩ := chunk
  cases value with
  | initAck v => exact absurd rfl initAck
  | opError causes => exact absurd rfl error
  | init v => exact Acts.quiet (.handleInit s key now draws header v src)
  | cookieAck => exact handleCookieAck s key now draws
  | sack v => exact handleSack s key now header v src
  | abort causes => exact handleAbort s key causes
  | heartbeat info => exact Acts.quiet (.handleHeartbeat s key header info src)
  | heartbeatAck info => exact Acts.quiet (.handleHeartbeatAck s key now draws info)
  | shutdown cumulativeTsnAck => exact handleShutdown s key now header cumulativeTsnAck src
  | shutdownAck => exact handleShutdownAck s key header src
  | shutdownComplete => exact handleShutdownComplete s key
  | data v => exact .refl
  | cookieEcho cookieData => exact .refl
  | unknown code body => exact .refl

/-! ## DATA -/

/-- DATA was taken in: where the association stands did not change. -/
def Taken (key : AssociationKey) : AssociationKey → Association → Association → Prop :=
  At key fun a b => b.essence = a.essence

theorem Taken.essence {key k : AssociationKey} {a b : Association} (taken : Taken key k a b) :
    b.essence = a.essence := by
  unfold Taken At at taken
  split at taken
  · exact taken
  · exact taken.essence

theorem Keeping.takenThen {s s' s'' : Socket} {key : AssociationKey}
    (first : Keeping (Taken key) s s') (second : Quiet s' s'') : Keeping (Taken key) s s'' :=
  first.followed (fun _ _ _ here same => same.essence.trans here) second

theorem essence_acknowledgeData (s : Socket) (key : AssociationKey) (assoc : Association)
    (holeExisted : Bool) (loop : DataLoop) :
    (s.acknowledgeData key assoc holeExisted loop).1.essence = assoc.essence := by
  unfold Socket.acknowledgeData
  simp only
  (repeat' split) <;> rfl

theorem essence_takeData (chunks : List Chunk) (start : DataLoop) :
    (takeData chunks start).st.assoc.essence = start.st.assoc.essence := by
  have only := takeData_only chunks start
  rw [only]
  rfl

theorem quiet_sendDataReply (s : Socket) (now : Time) (key : AssociationKey)
    (destination : SockAddr) (reply : Socket.DataReply) :
    Quiet s (s.sendDataReply now key destination reply) := by
  cases reply with
  | shutdown packet =>
    exact Quiet.trans (Quiet.trans (.cancel s rfl (by exact nofun)) (.enqueue _ _ _))
      (.restartT2 _ key now)
  | sack => exact .sendSack s key
  | delayedSack => exact .schedule s rfl _ _

/-- The DATA of a packet is taken in, or it ends the association. -/
theorem receiveData_cases {s : Socket} {key : AssociationKey} {a : Association}
    (found : s.find? key = some a) (now : Time) (packet : Packet) (src : SockAddr)
    (acknowledgeImmediately : Bool) :
    Acts s (s.receiveData now packet key src acknowledgeImmediately a)
    ∨ (takeData packet.chunks (Socket.DataLoop.start s key a acknowledgeImmediately)).violation
      = false
      ∧ Keeping (Taken key) s (s.receiveData now packet key src acknowledgeImmediately a) := by
  have essence : (takeData packet.chunks
      (Socket.DataLoop.start s key a acknowledgeImmediately)).st.assoc.essence
      = a.essence := essence_takeData _ _
  unfold Socket.receiveData
  simp only
  revert essence
  generalize takeData packet.chunks (Socket.DataLoop.start s key a acknowledgeImmediately) = loop
  intro essence
  split
  · exact Or.inl .refl
  · split
    · exact Or.inl (.abortChanged s key _ _ src _)
    · next fine =>
      refine Or.inr ⟨Bool.not_eq_true _ ▸ fine,
        Keeping.takenThen ?_ (quiet_sendDataReply _ now key _ _)⟩
      have taken : Keeping (Taken key) s (s.setAssociation key
          (s.acknowledgeData key loop.st.assoc (!a.tsnOooBuffer.isEmpty) loop).1) :=
        Keeping.setAt found ((essence_acknowledgeData s key _ _ _).trans essence)
      have pushed : Keeping (Taken key)
          s ((s.setAssociation key _).pushDeliveries key loop.st.delivered) :=
        taken.takenThen (.receives _ _)
      split
      · exact pushed
      · exact pushed.takenThen (.reply _ key _ _)

/-- A packet without DATA to take in, or whose DATA ends the association, moves it on. -/
theorem handleDataPacket_cases (s : Socket) (now : Time) (packet : Packet) (key : AssociationKey)
    (src : SockAddr) (acknowledgeImmediately : Bool) :
    Acts s (s.handleDataPacket now packet key src acknowledgeImmediately)
    ∨ ∃ a, s.find? key = some a ∧ receivesData a.state = true
      ∧ s.handleDataPacket now packet key src acknowledgeImmediately
        = s.receiveData now packet key src acknowledgeImmediately a
      ∧ (takeData packet.chunks (Socket.DataLoop.start s key a acknowledgeImmediately)).violation
        = false
      ∧ Keeping (Taken key) s (s.receiveData now packet key src acknowledgeImmediately a) := by
  unfold Socket.handleDataPacket
  split
  · exact Or.inl (.abortAssociation s key _ src _)
  · cases found : s.find? key with
    | none => exact Or.inl .refl
    | some a =>
      simp only
      split
      · exact Or.inl .refl
      · next receives =>
        rw [Bool.not_eq_true', Bool.not_eq_false] at receives
        rcases receiveData_cases found now packet src acknowledgeImmediately
          with acts | ⟨fine, taken⟩
        · exact Or.inl acts
        · exact Or.inr ⟨a, rfl, receives, rfl, fine, taken⟩

/-! ## Timers -/

namespace Acts

variable (s : Socket) (key : AssociationKey)

theorem handleT2Expiration (now : Time) : Acts s (s.handleT2Expiration now key) := by
  unfold Socket.handleT2Expiration
  cases found : s.find? key with
  | none => exact .refl
  | some a =>
    simp only
    split
    · exact .refl
    · have doubled : Quiet s (s.setAssociation key { a.modifyPath (dataPath a) doubleRto with
          errorCount := a.errorCount + 1 }) :=
        .set found ((Same.modifyPath a (dataPath a) (f := doubleRto) fun _ => rfl).trans ⟨rfl,
          rfl, rfl, Or.inl rfl⟩)
      split
      · exact (Acts.quiet doubled).trans (loseAssociation _ key)
      · exact ((Acts.quiet doubled).thenQuiet (.enqueue _ _ _)).thenQuiet (.restartT2 _ key now)

theorem handleT5Expiration : Acts s (s.handleT5Expiration key) := by
  unfold Socket.handleT5Expiration
  split
  · exact .refl
  · split
    · exact .refl
    · exact ((removeAssociation s key).thenQuiet (.enqueue _ _ _)).thenQuiet
        (.notifyAssocChange _ key nofun)

theorem handleT3Expiration (destination : SockAddr) :
    Acts s (s.handleT3Expiration key destination) := by
  unfold Socket.handleT3Expiration
  split
  · exact .refl
  · next a _ =>
    split
    · exact .refl
    · split
      · exact .refl
      · next i _ =>
        split
        · exact .refl
        · simp only
          split
          · exact (Acts.quiet (.expireT3 s key a i)).trans (loseAssociation _ key)
          · exact ((Acts.quiet (.expireT3 s key a i)).thenQuiet
              (.removeDataRetransmissions _ key _)).thenQuiet
                (.schedulePendingRetransmission _ key false)

theorem handleHeartbeatExpiration (now : Time) (draws : Draws) (destination : SockAddr) :
    Acts s (s.handleHeartbeatExpiration now draws key destination) := by
  unfold Socket.handleHeartbeatExpiration
  split
  · exact .refl
  · next a _ =>
    split
    · exact .refl
    · split
      · exact .refl
      · next i _ =>
        simp only
        have missed : Quiet s (if (a.path i).hbOutstanding = true then s.missHeartbeat now key a i
            else (s, false)).1 := by
          split
          · exact .missHeartbeat s key now a i
          · exact .refl s
        generalize (if (a.path i).hbOutstanding = true then s.missHeartbeat now key a i
          else (s, false)) = outcome at missed ⊢
        split
        · exact (Acts.quiet missed).trans (loseAssociation _ key)
        · refine (Acts.quiet missed).trans ?_
          generalize (Option.any _ (outcome.1.find? key)) = probeNow
          have probed := Quiet.sendDueProbe outcome.1 key now draws i probeNow
          cases due : outcome.1.sendDueProbe now draws key i probeNow with
          | mk s' probe =>
            rw [due] at probed
            cases probe with
            | none => exact Acts.quiet probed
            | some probe => exact (Acts.quiet probed).thenQuiet (.enqueue _ _ _)

/-- The handshake is given up. -/
theorem removed_afterT1 : Removed key s
    (((((s.eraseAssociation key).forgetPeerAddresses key).notifyAssocChange
      key .cantStrAssoc).cancelExpirations key).purgeSends key) := by
  have gone :
      Removed key s
        (((((s.eraseAssociation key).notifyAssocChange key .cantStrAssoc).forgetPeerAddresses
          key).cancelExpirations key).purgeSends key) :=
    removed_of_steps (fun k => Socket.find?_eraseAssociation s key k) rfl rfl rfl rfl
      (.enqueue _ key nofun)
  exact gone

theorem handleT1Expiration (isInit : Bool) (retry : Deliverable) :
    Acts s (s.handleT1Expiration key isInit retry) := by
  unfold Socket.handleT1Expiration
  cases found : s.find? key with
  | none => exact .refl
  | some a =>
    simp only
    by_cases other : a.state ≠ if isInit then .cookieWait else .cookieEchoed
    · rw [if_pos other]
    · rw [if_neg other]
      by_cases spent : (if isInit then a.initRetransmits else a.cookieRetransmits)
        ≥ maxInitRetransmits
      · rw [if_pos spent]
        exact Relation.ReflTransGen.single (Move.removed key (removed_afterT1 s key))
      · rw [if_neg spent]
        refine (Acts.quiet (.set found ?_)).thenQuiet (.enqueue _ _ _)
        split <;> exact ⟨rfl, rfl, rfl, Or.inl rfl⟩

theorem handleExpiration (now : Time) (draws : Draws) (fallback : ExpirationFallback) :
    Acts s (s.handleExpiration now draws fallback) := by
  unfold Socket.handleExpiration
  simp only
  split
  · exact handleT3Expiration s _ _
  · exact Acts.quiet (.sendSack s _)
  · exact handleHeartbeatExpiration s _ now draws _
  · exact handleT2Expiration s _ now
  · exact handleT5Expiration s _
  · exact Acts.quiet (.handleZeroWindowProbeExpiration s _)
  · exact handleT1Expiration s _ true _
  · exact handleT1Expiration s _ false _

/-! ## Calls -/

theorem sctpSendData (data : Bytes) (stream : StreamId) (unordered : Bool) :
    Acts s (s.sctpSendData key data stream unordered).2 := by
  unfold Socket.sctpSendData
  cases found : s.find? key with
  | none => exact .refl
  | some a =>
    simp only
    split
    · next ok =>
      have established : a.state = .established := by
        unfold sendStatus at ok
        by_contra other
        rw [if_pos other] at ok
        unfold refusalIn at ok
        split at ok <;> cases ok
      have queued : Shift a (queueMessage a data stream unordered) := by
        refine .queued ?_ ⟨rfl, rfl, Or.inl rfl⟩ established
        unfold queueMessage Association.essence
        cases unordered with
        | true => rfl
        | false => simp [Association.ips]
      exact .single (.shift key (.setAt found queued))
    · exact .refl

theorem sctpAbort (reason : Bytes) : Acts s (s.sctpAbort key reason).2 := by
  unfold Socket.sctpAbort
  split
  · exact .refl
  · simp only
    split
    · exact removeAssociation s key
    · exact (removeAssociation s key).thenQuiet (.enqueue _ _ _)

theorem sctpRecvData (capacity : Nat) : Acts s (s.sctpRecvData capacity).2 := by
  unfold Socket.sctpRecvData
  split
  · exact Acts.quiet (.receives s _)
  · exact (Acts.quiet (.receives s _)).thenQuiet (.maybeSendWindowUpdate _ _)

theorem sctpRecvDataFrom (capacity : Nat) : Acts s (s.sctpRecvDataFrom key capacity).2 := by
  unfold Socket.sctpRecvDataFrom
  split
  · exact Acts.quiet (.receives s _)
  · exact (Acts.quiet (.receives s _)).thenQuiet (.maybeSendWindowUpdate _ _)

theorem sctpShutdown (now : Time) : Acts s (s.sctpShutdown now key).2 := by
  unfold Socket.sctpShutdown
  cases found : s.find? key with
  | none => exact .refl
  | some a =>
    simp only
    split
    · exact Relation.ReflTransGen.single (Move.removed key
        (removed_of_steps (fun k => Socket.find?_eraseAssociation s key k) rfl rfl rfl rfl
          (.refl _)))
    · split
      · next established =>
        have transmits : transmitsData a.state = true := by
          rw [established]
          rfl
        refine .single (.closed key now (.setAt found ?_))
        exact ⟨rfl, ⟨rfl, rfl, Or.inl rfl⟩, transmits, rfl, nofun, Or.inl rfl⟩
      · exact .refl

theorem sctpChangeHeartbeat (now : Time) (draws : Draws) (destination : SockAddr) (enabled : Bool)
    (interval : Option Int) : Acts s
      (s.sctpChangeHeartbeat now draws key destination enabled interval).2 := by
  unfold Socket.sctpChangeHeartbeat
  split
  · exact .refl
  · split
    · exact .refl
    · next changed _ =>
      have set : Quiet s (s.updateAssociation key fun assoc =>
          { assoc.modifyPath changed fun path => { path with hbEnabled := enabled } with
            hbInterval := interval.getD assoc.hbInterval }) :=
        .update fun a _ => (Same.modifyPath a changed (f := fun path =>
          { path with hbEnabled := enabled })
          fun _ => rfl).trans ⟨rfl, rfl, rfl, Or.inl rfl⟩
      simp only
      split
      · exact Acts.quiet set
      · refine ((Acts.quiet set).thenQuiet ?_).thenQuiet (.armConfirmationProbes _ key now)
        exact .foldl _ (fun s i => .replanHeartbeat s key now draws i) _

theorem sctpRequestHeartbeat (now : Time) (draws : Draws) (destination : SockAddr) :
    Acts s (s.sctpRequestHeartbeat now draws key destination).2 := by
  unfold Socket.sctpRequestHeartbeat
  split
  · exact .refl
  · next a _ =>
    split
    · exact .refl
    · next i _ =>
      split
      · exact .refl
      · simp only
        exact ((Acts.quiet (.buildProbe s key now draws a i)).thenQuiet
          (.armHeartbeat _ key i)).thenQuiet (.enqueue _ _ _)

theorem sctpSetPrimary (destination : SockAddr) : Acts s (s.sctpSetPrimary key destination).2 := by
  unfold Socket.sctpSetPrimary
  cases found : s.find? key with
  | none => exact .refl
  | some a =>
    simp only
    split
    · exact .refl
    · split
      · exact .refl
      · exact Acts.quiet (.set found ⟨rfl, rfl, rfl, Or.inl rfl⟩)

/-- Every call but that which opens an association. -/
theorem call {event : Event} {s' : Socket} (called : System.call s event = some s')
    (other : ∀ draws toAddress port, event ≠ .associate draws toAddress port) : Acts s s' := by
  cases event with
  | associate draws toAddress port => exact absurd rfl (other draws toAddress port)
  | sendData key data stream unordered =>
    cases called
    exact sctpSendData s key data stream unordered
  | abort key reason =>
    cases called
    exact sctpAbort s key reason
  | recvData capacity =>
    cases called
    exact sctpRecvData s capacity
  | recvDataFrom key capacity =>
    cases called
    exact sctpRecvDataFrom s key capacity
  | shutdown now key =>
    cases called
    exact sctpShutdown s key now
  | changeHeartbeat now draws key destination enabled interval =>
    cases called
    exact sctpChangeHeartbeat s key now draws destination enabled interval
  | requestHeartbeat now draws key destination =>
    cases called
    exact sctpRequestHeartbeat s key now draws destination
  | setPrimary key destination =>
    cases called
    exact sctpSetPrimary s key destination
  | subscribe type on =>
    cases called
    exact Acts.quiet (.of_same (fun _ => rfl) rfl rfl (.refl _) (.refl _) fun _ => Or.inl)
  | recvNotification =>
    cases called
    refine Acts.quiet (.of_same (fun _ => rfl) rfl rfl (.refl _) (.refl _) fun n member =>
      Or.inl ?_)
    simp only [Socket.sctpRecvNotification, NotificationQueue.dequeue] at member
    split at member
    · exact member
    · next front rest queue =>
      rw [queue]
      exact List.mem_cons_of_mem _ member
  | _ => cases called

end Acts

end SctpStack
