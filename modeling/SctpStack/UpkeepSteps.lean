import SctpStack.UpkeepHandlers
import SctpStack.Isolation

/-!
# What every step keeps

The handshake, the packets, the send pass and the calls of the application keep what
`Upkeep` asks for, each for the association it is about; the others are left alone
(`Isolated`). So it holds of every association of every reachable socket
(`System.Reached.held`).
-/

namespace SctpStack

variable {start : Option Association} {cause : Cause → Prop} {I : Prop → Association → Prop}
    (upkeep : Upkeep start cause I)
  {due : List ExpirationFallback} {key : AssociationKey} {s : Socket}

/-- The chunks of a packet are handled for the association it is for. -/
theorem Socket.resolvedKey_of_dispatch {s s' : Socket} {now : Time} {draws : Nat → Draws}
    {packet : Packet} {src : SockAddr} {k : AssociationKey} {carried : Bool}
    (gone : s.dispatch now draws packet src = some (s', k, carried)) :
    s.resolvedKey now packet src = k := by
  unfold Socket.dispatch at gone
  unfold Socket.resolvedKey
  cases verdict : s.validateVerificationTag packet (s.packetKey packet src) with
  | accept =>
    simp only [verdict] at gone ⊢
    by_cases leads : ∃ flag cookieData rest, (stripUnrecognized packet.chunks).1
      = ⟨flag, .cookieEcho cookieData⟩ :: rest
    · obtain ⟨flag, cookieData, rest, chunks⟩ := leads
      simp only [chunks] at gone ⊢
      rw [← s.handleCookieEcho_key now (draws 0) packet.header cookieData (s.packetKey packet src)
        src]
      cases outcome : s.handleCookieEcho now (draws 0) packet.header cookieData
        (s.packetKey packet src) src with
      | mk accepted after =>
        rw [outcome] at gone
        cases accepted with
        | false => cases gone
        | true =>
          cases gone
          rfl
    · split at gone
      · next flag cookieData rest chunks => exact absurd ⟨flag, cookieData, rest, chunks⟩ leads
      · cases gone
        split
        · next flag cookieData rest _ chunks => exact absurd ⟨flag, cookieData, rest, chunks⟩ leads
        · rfl
  | _ =>
    rw [verdict] at gone
    cases gone

namespace Held

/-- Another association is handled. -/
theorem isolated {k : AssociationKey} {s' : Socket} (held : Held I due key s)
    (alone : Isolated k s s') (other : key ≠ k) :
    Held I due key s' := by
  refine held.of_same (alone.tcbs key other) ?_
  rw [ExpirationQueue.isActive, ExpirationQueue.isActive, KeyMap.contains, KeyMap.contains]
  rw [alone.timers (timerOf key .delayedSack) other]

/-- The TCB is another, and the timer is as it was. -/
theorem becomes {s' : Socket} {a b : Association} (held : Held I due key s)
    (before : s.find? key = some a) (after : s'.find? key = some b)
    (active : s'.expirations.isActive (timerOf key .delayedSack)
      = s.expirations.isActive (timerOf key .delayedSack))
    (step : ∀ {r}, I r a → I r b) : Held I due key s' := by
  intro c here
  have same : some b = some c := after.symm.trans here
  cases same
  rw [Awaited, active]
  exact step (held a before)

theorem sendInitAck (held : Held I due key s) (now : Time) (draws : Draws) (header : CommonHeader)
    (init : InitChunkValue) (src : SockAddr) (answer : InitAnswer) :
    Held I due key (s.sendInitAck now draws header init key src answer) := by
  unfold Socket.sendInitAck
  simp only
  split
  · exact held
  · exact held

theorem refuseInitAck (header : CommonHeader) (src : SockAddr) (tag : Tag) (reflected : Bool)
    (cause : ErrorCause) :
    Held I due key (s.refuseInitAck header key src tag reflected cause) :=
      .gone (find?_removed s key)

theorem handleHeartbeat (held : Held I due key s) (header : CommonHeader) (info : Bytes)
    (src : SockAddr) :
    Held I due key (s.handleHeartbeat header info key src) := by
  unfold Socket.handleHeartbeat
  split
  · exact held
  · split
    · exact held
    · exact held

theorem finishCookieEcho (held : Held I due key s) (header : CommonHeader) (destination : SockAddr)
    (cookie : StateCookie) :
    Held I due key (s.finishCookieEcho header key destination cookie) := by
  have stopped := (held.stop (show ExpirationTimerType.t1Init ≠ .delayedSack from nofun)).stop
    (show ExpirationTimerType.t1Cookie ≠ .delayedSack from nofun)
  exact stopped

theorem reportUnrecognizedChunks (held : Held I due key s) (header : CommonHeader) (src : SockAddr)
    (causes : List ErrorCause) :
    Held I due key (s.reportUnrecognizedChunks header key src causes) := by
  unfold Socket.reportUnrecognizedChunks
  split
  · exact held
  · split
    · exact held
    · simp only
      split
      · exact held
      · exact held

/-- The timers that were taken off the heap are those that ran. -/
theorem drained (held : Held I [] key s) (now : Time) :
    Held I (s.expirations.drainExpired now).1 key
      { s with expirations := (s.expirations.drainExpired now).2 } := by
  obtain ⟨-, -, running⟩ := ExpirationQueue.drainExpiredFrom_spec now s.expirations.queue.length
    s.expirations
  obtain ⟨off, -, active⟩ := ExpirationQueue.drainExpiredFrom_live now s.expirations.queue.length
    s.expirations
  have ran : ∀ timer, Awaited (s.expirations.drainExpired now).1
      { s with expirations := (s.expirations.drainExpired now).2 } timer = Awaited [] s timer := by
    refine fun timer => propext ⟨?_, ?_⟩
    · rintro (runs | ⟨f, member, rfl⟩)
      · obtain ⟨generation, here⟩ := Option.isSome_iff_exists.mp runs
        exact Or.inl (Option.isSome_iff_exists.mpr ⟨generation, active timer generation here⟩)
      · exact Or.inl (Option.isSome_iff_exists.mpr ⟨f.generation, off f member⟩)
    · rintro (runs | ⟨f, member, -⟩)
      · exact running timer runs
      · cases member
  intro a found
  rw [ran]
  exact held a found

end Held

namespace Upkeep

include upkeep

/-! ## The handshake -/

theorem withPaths {r : Prop} {a : Association} (addresses : List SockAddr) (holds : I r a) :
    I r (withPaths a addresses) := by
  unfold SctpStack.withPaths
  induction addresses generalizing a with
  | nil => exact holds
  | cons address rest ih => exact ih (upkeep.listed address holds)

theorem withTieTags {r : Prop} {a : Association} (draws : Draws) (holds : I r a) :
    I r (withTieTags draws a) := by
  unfold SctpStack.withTieTags
  split
  · refine upkeep.same holds ?_ ?_ <;> rfl
  · exact holds

theorem answerInit (now : Time) (draws : Draws) (header : CommonHeader) (init : InitChunkValue)
    (src : SockAddr) (held : Held I due key s) :
    Held I due key (s.answerInit now draws header init key src) := by
  unfold Socket.answerInit
  cases found : s.find? key with
  | none => exact held.sendInitAck now draws header init src _
  | some a =>
    simp only
    split
    · exact held
    · split
      · exact held.sendInitAck now draws header init src _
      · split
        · exact held
        · exact (held.set found (upkeep.withTieTags draws)).sendInitAck now draws header init src _

theorem handleInit (now : Time) (draws : Draws) (header : CommonHeader) (init : InitChunkValue)
    (src : SockAddr) (held : Held I due key s) :
    Held I due key (s.handleInit now draws header init key src) := by
  unfold Socket.handleInit
  split
  · exact held
  · split
    · exact held
    · split
      · exact held
      · exact upkeep.answerInit now draws header init src held

theorem acceptInitAck {a : Association} (found : s.find? key = some a)
    (waits : a.state = .cookieWait) (header : CommonHeader) (initAck : InitChunkValue)
    (src : SockAddr) (cookie : Bytes) (held : Held I due key s) :
    Held I due key (s.acceptInitAck header initAck key src cookie) := by
  obtain ⟨s₁, destination, errors, same, after, -, -, expirations, -⟩ :=
    acceptInitAck_eq found header initAck src cookie
  rw [same]
  have accepted : Held I due key s₁ := by
    refine held.becomes found ((after key).trans (if_pos rfl)) (by rw [expirations]) fun holds => ?_
    refine upkeep.answered initAck
      ?_ (upkeep.withPaths (transportAddresses src (scanInitAck initAck).recognized) holds)
    rw [withPaths_only]
    exact waits
  exact accepted.stop (show ExpirationTimerType.t1Init ≠ .delayedSack from nofun)

theorem handleInitAck (header : CommonHeader) (initAck : InitChunkValue) (src : SockAddr)
    (held : Held I due key s) :
    Held I due key (s.handleInitAck header initAck key src) := by
  unfold Socket.handleInitAck
  cases found : s.find? key with
  | none => exact held
  | some a =>
    simp only
    split
    · exact held
    · next waits =>
      split
      · exact .refuseInitAck header src _ _ _
      · split
        · exact .refuseInitAck header src _ _ _
        · split
          · exact .refuseInitAck header src _ _ _
          · split
            · exact .refuseInitAck header src _ _ _
            · exact upkeep.acceptInitAck found (Decidable.not_not.mp waits) header initAck src
                _ held

theorem bringUp (forms : ∀ a, s.find? key = some a → forming a.state = true) (now : Time)
    (draws : Draws) (held : Held I due key s) : Held I due key (s.bringUp now draws key) := by
  have up : Held I due key ((s.updateAssociation key fun assoc =>
      { assoc with state := .established }).notifyAssocChange key
      .commUp) := held.update fun {r a} found =>
        upkeep.onward .established ⟨fun _ => Or.inl (forms a found), nofun⟩
  exact upkeep.startHeartbeats now draws up

/-- A TCB is made from a cookie. -/
theorem createdFrom {s : Socket} (cookie : StateCookie)
    (new : ∀ r, I r (initNewAssociationFromCookie cookie)) :
    Held I due key (s.createdFrom key cookie) := by
  refine Held.settled ((find?_createdFrom s key key cookie).trans (if_pos rfl)) ?_
  exact upkeep.withPaths (cookieAddresses cookie) (new _)

theorem createFromCookie (absent : start = none) (now : Time) (draws : Draws)
    (header : CommonHeader) (src : SockAddr) (cookie : StateCookie) :
    Held I due key (s.createFromCookie now draws header key src cookie) := by
  have created : Held I due key ((s.createdFrom key cookie).notifyAssocChange key .commUp) :=
    upkeep.createdFrom cookie fun r => upkeep.created r cookie absent
  have up := upkeep.startHeartbeats now draws created
  unfold Socket.createFromCookie
  simp only
  split
  · exact up
  · exact up

theorem restartFromCookie {tcb : Association} (was : start = some tcb) (now : Time) (draws : Draws)
    {cookie : StateCookie} (other : cookie.localVerTag ≠ tcb.thisVerTag) :
    Held I due key (s.restartFromCookie now draws key tcb cookie) := by
  have created : Held I due key ((s.restartedFrom key tcb cookie).notifyAssocChange key .restart) :=
    upkeep.createdFrom cookie fun r => upkeep.restarted r cookie was other
  exact upkeep.startHeartbeats now draws created

theorem collideWithCookie {a : Association} (was : start = some a) (found : s.find? key = some a)
    (now : Time) (draws : Draws) {cookie : StateCookie} (other : cookie.peerVerTag ≠ a.peerVerTag)
    (held : Held I due key s) :
    Held I due key (s.collideWithCookie now draws key a cookie) := by
  have collided : Held I due key (s.collidedWith key a cookie) := by
    refine held.becomes found ((find?_collidedWith found cookie key).trans (if_pos rfl))
      ?_ fun {r} holds => ?_
    · rw [(undisturbed_collidedWith s key a cookie).expirations]
    · have listed := upkeep.withPaths (cookieAddresses cookie) holds
      have forgotten : I r (Socket.collided cookie
          (SctpStack.withPaths a (cookieAddresses cookie))) :=
        upkeep.collided cookie was other listed
      split
      · next forms =>
        refine upkeep.onward .established ⟨fun _ => Or.inl ?_, nofun⟩ forgotten
        show forming (SctpStack.withPaths a (cookieAddresses cookie)).state = true
        rw [withPaths_only]
        exact forms
      · exact forgotten
  unfold Socket.collidedWith at collided
  unfold Socket.collideWithCookie
  simp only at collided ⊢
  split
  · next forms =>
    rw [if_pos forms] at collided
    exact upkeep.startHeartbeats (s := Socket.notifyAssocChange _ _ _) now draws collided
  · next passed =>
    rw [if_neg passed] at collided
    split
    · exact upkeep.armConfirmationProbes now collided
    · exact collided

theorem acceptCookie {a : Association} (was : start = some a) (found : s.find? key = some a)
    (now : Time) (draws : Draws) (header : CommonHeader) (src : SockAddr) (cookie : StateCookie)
    (held : Held I due key s) :
    Held I due key (s.acceptCookie now draws header key src a cookie).2 := by
  unfold Socket.acceptCookie
  simp only
  split
  · have up : Held I due key (if a.state = .cookieEchoed then s.bringUp now draws key else s) := by
      split
      · next echoed =>
        refine upkeep.bringUp (fun b here => ?_) now draws held
        rw [found] at here
        cases here
        rw [echoed]
        rfl
      · exact held
    exact up.finishCookieEcho header _ cookie
  · next differ =>
    split
    · next restarts =>
      split
      · exact held
      · have other : cookie.localVerTag ≠ a.thisVerTag := by
          simp only [Bool.and_eq_true, Bool.not_eq_true', decide_eq_false_iff_not] at restarts
          exact restarts.1.1
        exact (upkeep.restartFromCookie was now draws other).finishCookieEcho header _ cookie
    · split
      · next mine =>
        have other : cookie.peerVerTag ≠ a.peerVerTag := by
          rw [mine, Bool.true_and, decide_eq_true_eq] at differ
          exact differ
        exact (upkeep.collideWithCookie was found now draws other held).finishCookieEcho header
          _ cookie
      · exact held

/-- A COOKIE ECHO, for the association it names. -/
theorem handleCookieEcho (was : s.find? key = start) (now : Time) (draws : Draws)
    (header : CommonHeader) (cookieData : Bytes) (k : AssociationKey) (src : SockAddr)
    (named : (s.handleCookieEcho now draws header cookieData k src).2.1 = key)
    (held : Held I due key s) : Held I due key
      (s.handleCookieEcho now draws header cookieData k src).2.2 := by
  unfold Socket.handleCookieEcho at named ⊢
  cases verified : s.cookieAuthorizer.verify now cookieData header src with
  | valid cookie =>
    simp only [verified] at named ⊢
    cases found : s.find? (s.associationKeyFor (cookieKey cookie)) with
    | none =>
      simp only [found] at named ⊢
      rw [← named] at was ⊢
      exact upkeep.createFromCookie (was.symm.trans found) now draws header src cookie
    | some a =>
      simp only [found] at named ⊢
      rw [← named] at held was ⊢
      exact upkeep.acceptCookie (was.symm.trans found) found now draws header src cookie held
  | stale cookie staleness =>
    simp only [verified] at named ⊢
    cases found : s.find? (s.associationKeyFor (cookieKey cookie)) with
    | none => exact held
    | some a =>
      simp only [found] at named ⊢
      split
      · next matching =>
        rw [if_pos matching] at named
        rw [← show s.associationKeyFor (cookieKey cookie) = key from named] at held was ⊢
        exact upkeep.acceptCookie (was.symm.trans found) found now draws header src cookie held
      · exact held
  | malformed => exact held
  | unknownSecret => exact held
  | badMac => exact held
  | wrongEndpoint => exact held

theorem handleCookieAck (now : Time) (draws : Draws) (held : Held I due key s) :
    Held I due key (s.handleCookieAck now draws key) := by
  unfold Socket.handleCookieAck
  cases found : s.find? key with
  | none => exact held
  | some a =>
    simp only
    split
    · exact held
    · next echoed =>
      have up : Held I due key (s.bringUp now draws key) := by
        refine upkeep.bringUp (fun b here => ?_) now draws held
        rw [found] at here
        cases here
        rw [Decidable.not_not.mp echoed]
        rfl
      exact up.stop (show ExpirationTimerType.t1Cookie ≠ .delayedSack from nofun)

/-- A stale cookie sends the handshake back to its start, or ends it. -/
theorem handleError (causes : List ErrorCause) (held : Held I due key s) :
    Held I due key (s.handleError causes key) := by
  unfold Socket.handleError
  split
  · exact held
  · cases found : s.find? key with
    | none => exact held
    | some a =>
      simp only
      cases outcome : Socket.staleCookieOutcome a causes with
      | ignored => exact held
      | retry staleness =>
        have forms : forming a.state = true := by
          by_contra formed
          rw [Deeds.staleCookieOutcome_ignored (fun echoed => formed (by rw [echoed]; rfl))]
            at outcome
          cases outcome
        have retried : Held I due key (s.setAssociation key { a with
            staleCookieRetries := a.staleCookieRetries + 1
            state := .cookieWait
            peerVerTag := 0#32
            initRetransmits := 0
            cookieRetransmits := 0 }) := held.set found fun holds => upkeep.retried forms holds
        exact retried.stop (show ExpirationTimerType.t1Cookie ≠ .delayedSack from nofun)
      | failed => exact Held.gone (find?_removed _ key)

/-! ## Packets -/

theorem extendShutdown (now : Time) (held : Held I due key s) :
    Held I due key (s.extendShutdown now key) := by
  unfold Socket.extendShutdown
  cases found : s.find? key with
  | none => exact held
  | some a =>
    simp only
    split
    · exact (held.set found upkeep.heard).restartT2 now
    · exact held

theorem handleChunk (now : Time) (draws : Draws) (header : CommonHeader) (src : SockAddr)
    {chunk : Chunk} (told : cause (.chunk chunk.value)) (held : Held I due key s) :
    Held I due key (s.handleChunk now draws header key src chunk) := by
  unfold Socket.handleChunk
  cases value : chunk.value with
  | init v => exact upkeep.handleInit now draws header v src held
  | initAck v => exact upkeep.handleInitAck header v src held
  | cookieAck => exact upkeep.handleCookieAck now draws held
  | sack v => exact upkeep.handleSack now header v src (value ▸ told) held
  | opError causes => exact upkeep.handleError causes held
  | abort causes => exact held.handleAbort causes
  | heartbeat info => exact held.handleHeartbeat header info src
  | heartbeatAck info => exact upkeep.handleHeartbeatAck now draws info held
  | shutdown cumulativeTsnAck =>
      exact upkeep.handleShutdown now header cumulativeTsnAck src (value ▸ told) held
  | shutdownAck => exact held.handleShutdownAck header src
  | shutdownComplete => exact held.handleShutdownComplete
  | data v => exact held
  | cookieEcho v => exact held
  | unknown code body => exact held

theorem handleChunks (now : Time) (draws : Nat → Draws) (header : CommonHeader) (src : SockAddr)
    (i : Nat) {chunks : List Chunk} (told : ∀ chunk ∈ chunks, cause (.chunk chunk.value))
    (held : Held I due key s) :
    Held I due key (Socket.handleChunks now draws header key src i chunks s).2 := by
  induction chunks generalizing i s with
  | nil => exact held
  | cons chunk rest ih =>
    obtain ⟨first, others⟩ := List.forall_mem_cons.mp told
    have handled := upkeep.handleChunk now (draws i) header src first held
    unfold Socket.handleChunks
    simp only
    split
    · exact handled
    · exact ih (i + 1) others handled

/-- The packet is for the association, and its COOKIE ECHO is behind it. -/
theorem dispatched {s' : Socket} {carried : Bool} (was : s.find? key = start) (now : Time)
    (draws : Nat → Draws) (packet : Packet) (src : SockAddr)
    (gone : s.dispatch now draws packet src = some (s', key, carried)) (held : Held I due key s) :
    Held I due key s' := by
  unfold Socket.dispatch at gone
  split at gone
  · split at gone
    · next flag cookieData rest _ =>
      cases outcome : s.handleCookieEcho now (draws 0) packet.header cookieData
        (s.packetKey packet src) src with
      | mk accepted after =>
        obtain ⟨k, s₁⟩ := after
        simp only [outcome] at gone
        cases accepted with
        | false => cases gone
        | true =>
          cases gone
          have echoed := upkeep.handleCookieEcho was now (draws 0) packet.header cookieData
            (s.packetKey packet src) src (by rw [outcome]) held
          rw [outcome] at echoed
          exact echoed
    · cases gone
      exact held
  · cases gone

/-- The packet is for the association, and goes no further. -/
theorem refused (was : s.find? key = start) (now : Time) (draws : Nat → Draws) (packet : Packet)
    (src : SockAddr) (here : s.resolvedKey now packet src = key)
    (none : s.dispatch now draws packet src = none) (held : Held I due key s) :
    Held I due key (s.handlePacket now draws packet src) := by
  unfold Socket.handlePacket
  unfold Socket.dispatch at none
  unfold Socket.resolvedKey at here
  simp only
  cases verdict : s.validateVerificationTag packet (s.packetKey packet src) with
  | accept =>
    simp only [Socket.acceptPacket]
    by_cases leads : ∃ flag cookieData rest, (stripUnrecognized packet.chunks).1
      = ⟨flag, .cookieEcho cookieData⟩ :: rest
    · obtain ⟨flag, cookieData, rest, chunks⟩ := leads
      simp only [verdict, chunks] at none here ⊢
      have named : (s.handleCookieEcho now (draws 0) packet.header cookieData
          (s.packetKey packet src) src).2.1 = key := by
        rw [Socket.handleCookieEcho_key]
        exact here
      have echoed := upkeep.handleCookieEcho was now (draws 0) packet.header cookieData _ src named
        held
      cases outcome : s.handleCookieEcho now (draws 0) packet.header cookieData
        (s.packetKey packet src) src with
      | mk accepted after =>
        obtain ⟨k, s₁⟩ := after
        rw [outcome] at none echoed
        cases accepted with
        | false => exact echoed
        | true => cases none
    · simp only [verdict] at none
      split at none
      · next flag cookieData rest chunks => exact absurd ⟨flag, cookieData, rest, chunks⟩ leads
      · cases none
  | discard => exact held
  | abortOotb => exact held
  | abortInit => exact held
  | shutdownCompleteOotb => exact held

theorem afterChunks (now : Time) (draws : Nat → Draws) {packet : Packet} (src : SockAddr)
    (carried : Bool) (told : ∀ chunk ∈ packet.chunks, cause (.chunk chunk.value))
    (held : Held I due key s) :
    Held I due key (s.afterChunks now draws packet key src carried).2 := by
  have before : Held I due key (s.beforeChunks now packet key src) := by
    refine upkeep.extendShutdown now ?_
    split
    · exact held
    · exact upkeep.recordEncapsulationPort src held
  refine upkeep.handleChunks now draws packet.header src _ (fun chunk member => told chunk ?_)
    before
  refine (stripUnrecognized_sublist packet.chunks).subset ?_
  unfold Socket.chunksToHandle at member
  split at member
  · exact List.mem_of_mem_tail member
  · exact member

/-- A packet for the association. -/
theorem handlePacket (was : s.find? key = start) (now : Time) (draws : Nat → Draws)
    {packet : Packet} (src : SockAddr) (here : s.resolvedKey now packet src = key)
    (told : ∀ chunk ∈ packet.chunks, cause (.chunk chunk.value)) (takes : cause .data)
    (held : Held I due key s) : Held I due key (s.handlePacket now draws packet src) := by
  rcases handlePacket_dispatch s now draws packet src with ⟨none, -⟩ | ⟨s', k, carried, gone, -,
    same⟩
  · exact upkeep.refused was now draws packet src here none held
  · have mine : k = key := (Socket.resolvedKey_of_dispatch gone).symm.trans here
    subst mine
    have handled := upkeep.afterChunks now draws src carried told
      (upkeep.dispatched was now draws packet src gone held)
    rw [same, handleRest_eq]
    split
    · next last =>
      rw [last] at handled
      exact handled
    · next last =>
      rw [last] at handled
      have taken := upkeep.handleDataPacket now ⟨packet.header, (stripUnrecognized packet.chunks).1⟩
        src carried takes handled
      simp only
      split
      · exact taken
      · exact taken.reportUnrecognizedChunks packet.header src _

/-! ## Expiry -/

/-- Every timer that went off is handled, the association's or another's. -/
theorem runExpire (standing : Standing s) (now : Time) (draws : Nat → Draws)
    (held : Held I [] key s) :
    Held I [] key (s.runExpire now draws) := by
  obtain ⟨queued, left, -⟩ := ExpirationQueue.drainExpiredFrom_spec now s.expirations.queue.length
    s.expirations
  obtain ⟨off, next, active⟩ := ExpirationQueue.drainExpiredFrom_live now s.expirations.queue.length
    s.expirations
  refine (@runExpire_fires (fun due s₁ =>
    (Formed { s with expirations := (s.expirations.drainExpired now).2 } s₁
      ∧ (∀ f ∈ due, isT1 f.key.type = true →
        Retries { s with expirations := (s.expirations.drainExpired now).2 } f)
      ∧ Standing s₁) ∧ Held I due key s₁) s now draws (fun f due s₁ draws holds => ?_)
    ⟨⟨.refl _, fun f member is => ?_, standing.stop left next active⟩, held.drained now⟩).2
  · obtain ⟨⟨formed, retries, standing⟩, held⟩ := holds
    have handled : Deeds (fun _ => True) f.key.location s₁ (s₁.handleExpiration now draws f) :=
      .expires formed (retries f List.mem_cons_self) (fun _ => trivial) now draws
    refine ⟨⟨formed.trans handled.formed, fun g later => retries g (List.mem_cons_of_mem _ later),
      Deeds.standing handled standing⟩, ?_⟩
    by_cases mine : f.key.location = key
    · exact upkeep.handleExpiration now draws f mine held
    · have other : f.key ≠ timerOf key .delayedSack := fun same => mine (by rw [same]; rfl)
      exact (held.discharge other).isolated (handled.isolated standing) (Ne.symm mine)
  · exact (standing.retries f (queued f member) (off f member) is).of_find? fun _ => rfl

end Upkeep

/-! ## The send pass -/

namespace Held

/-- A TCB is changed, this one or another. -/
theorem setAt {k : AssociationKey} {a b : Association} (held : Held I due key s)
    (found : s.find? k = some a) (step : ∀ {r}, I r a → I r b) :
    Held I due key (s.setAssociation k b) := by
  by_cases here : key = k
  · subst here
    exact held.set found step
  · exact held.of_same ((Socket.find?_setAssociation s k key b).trans (if_neg here)) rfl

theorem updateAt {k : AssociationKey} {f : Association → Association} (held : Held I due key s)
    (step : ∀ {r a}, I r a → I r (f a)) : Held I due key (s.updateAssociation k f) := by
  cases found : s.find? k with
  | none =>
    rw [Deeds.updateAssociation_of_none found]
    exact held
  | some a =>
    rw [Deeds.updateAssociation_of_some found]
    exact held.setAt found step

theorem mapVals {f : AssociationKey → Association → Association} (held : Held I due key s)
    (step : ∀ {r a}, I r a → I r (f key a)) :
    Held I due key { s with associations := s.associations.mapVals f } := by
  intro b here
  rw [find?_mapVals, Option.map_eq_some_iff] at here
  obtain ⟨a, found, rfl⟩ := here
  exact step (held a found)

theorem armed (now : Time) (held : Held I due key (s.refilled now).socket) :
    Held I due key (s.armed now) := by
  have peeked : Held I due key { (s.refilled now).socket with sends := (s.peeked now).2.1 } := held
  refine .foldl (fun s entry held => ?_) _ _ peeked
  unfold Socket.armZeroWindowProbe
  simp only
  split
  · exact held
  · split
    · exact held
    · split
      · exact held
      · exact held.schedule (show ExpirationTimerType.zeroWindowProbe ≠ .delayedSack from nofun) _ _

theorem packetRefused (held : Held I due key s) (now : Time) (p : Pending) :
    Held I due key (s.packetRefused now p) := by
  unfold Socket.packetRefused Socket.requeueBundledSack
  split
  · split
    · exact held
    · exact held
  · exact held

end Held

namespace Upkeep

include upkeep

theorem decayPaths {r : Prop} {a : Association} (now : Time) (holds : I r a) :
    I r (decayPaths now a) := by
  refine upkeep.adjusted (a := a) rfl ?_ holds holds
  exact List.forall₂_map_right_iff.mpr (List.forall₂_same.mpr fun path _ => .single (.decayed now))

theorem sendAllowances (now : Time) (held : Held I due key s) :
    Held I due key (s.sendAllowances now).1 := by
  refine held.mapVals fun holds => ?_
  split
  · exact upkeep.decayPaths now holds
  · exact holds

theorem startTransmissionOpportunity (held : Held I due key s) :
    Held I due key s.startTransmissionOpportunity := by
  refine held.mapVals fun holds => ?_
  refine upkeep.same holds ?_ ?_ <;> rfl

/-- A packet of marked chunks, of any association. -/
theorem schedulePendingAt (k : AssociationKey) (gated : Bool) (held : Held I due key s) :
    Held I due key (s.schedulePendingRetransmission k gated) := by
  cases found : s.find? k with
  | none =>
    unfold Socket.schedulePendingRetransmission
    simp only [found]
    exact held
  | some a =>
    rcases schedulePendingRetransmission_cases found gated with ⟨same, -⟩ | ⟨target, bundle, -,
      made⟩
    · rw [same]
      exact held
    · rw [made]
      refine held.updateAt fun {r b} holds => ?_
      exact upkeep.marked _ (fun tsn o => by split <;> exact ⟨rfl, rfl, rfl⟩) holds

theorem refillNewDataFor (told : cause .cut) (r : Socket.Refill) (k : AssociationKey)
    (held : Held I due key r.socket) :
    Held I due key (Socket.refillNewDataFor r k).socket := by
  rcases refillNewDataFor_cases r k with same | ⟨allowance, a, -, found, -, -, -, -, done⟩
  · rw [same]
    exact held
  · have cut : Held I due key (r.socket.setAssociation k (cutNewData a allowance).assoc) :=
      held.setAt found fun holds => upkeep.cut allowance told holds
    rcases done with ⟨-, socket, -⟩ | ⟨-, socket, -⟩
    · rw [socket]
      exact cut
    · rw [socket]
      exact cut

theorem refillRetransmissions (allowances : SendAllowances) (held : Held I due key s) :
    Held I due key (s.refillRetransmissions allowances) := by
  refine .foldl (fun s k held => ?_) _ _ held
  split
  · exact held
  · exact upkeep.schedulePendingAt k true held

theorem refilled (told : cause .cut) (now : Time) (held : Held I due key s) :
    Held I due key (s.refilled now).socket := by
  have queued := upkeep.refillRetransmissions (s.sendAllowances now).2
    (upkeep.sendAllowances now held)
  exact List.foldlRecOn (motive := fun r : Socket.Refill => Held I due key r.socket)
    (s.sendAllowances now).2.keys Socket.refillNewDataFor queued fun r holds k _ =>
      upkeep.refillNewDataFor told r k holds

/-- A SACK goes out with DATA, and its timer is stopped. -/
theorem bundled {k : AssociationKey} {a : Association} (found : s.find? k = some a)
    (held : Held I due key s) :
    Held I due key ((s.setAssociation k (s.makeSack k a).2).cancelExpiration
      (timerOf k .delayedSack)) := by
  by_cases here : key = k
  · subst here
    exact Held.settled (find?_setAssociation_self s key _) (upkeep.makeSack s key (held a found))
  · refine held.of_same ((Socket.find?_setAssociation s k key _).trans (if_neg here)) ?_
    have apart : timerOf key .delayedSack ≠ timerOf k .delayedSack := fun same =>
      here (congrArg ExpirationKey.location same)
    simp [ExpirationQueue.isActive, Socket.cancelExpiration, ExpirationQueue.cancel,
      KeyMap.contains, Socket.setAssociation, apart]

theorem prepareDataPacket (d : Deliverable) (newData : Bool) (held : Held I due key s) :
    Held I due key (s.prepareDataPacket d newData).1 := by
  unfold Socket.prepareDataPacket
  simp only
  split
  · exact held
  · cases found : s.find? d.location with
    | none => exact held
    | some a =>
      have sacked := upkeep.bundled found held
      simp only
      generalize (_ || _ || decide (a.state = .shutdownPending)) = on
      generalize (if on = true then setImmediate d.packet.chunks else d.packet.chunks) = chunks
      split
      · exact held
      · split
        · exact sacked
        · exact sacked

/-- Once the queues are refilled, nothing more is cut. -/
theorem prepared (now : Time) (held : Held I due key (s.refilled now).socket) :
    Held I due key (s.nextPacket now).socket := by
  have armed := held.armed now
  rw [nextPacket_eq]
  split
  · exact armed
  · split
    · exact armed
    · exact upkeep.prepareDataPacket _ _ armed

theorem chunkSent (told : cause .sent) (d : Deliverable) (sentAt : Time) (chunk : Chunk)
    (held : Held I due key s) :
    Held I due key (s.chunkSent d sentAt chunk) := by
  unfold Socket.chunkSent
  simp only
  split
  · refine held.updateAt fun holds => ?_
    split
    · exact holds
    · refine upkeep.regauge _ (fun path => ?_) holds
      split <;> rfl
  · refine held.updateAt fun holds => ?_
    split
    · exact upkeep.sent d.destination _ sentAt told holds
    · exact holds
  · split
    · exact held
    · split
      · exact held
      · exact held.schedule (show ExpirationTimerType.t1Init ≠ .delayedSack from nofun) _ _
  · split
    · exact held
    · split
      · exact held
      · exact held.schedule (show ExpirationTimerType.t1Cookie ≠ .delayedSack from nofun) _ _
  · exact held

theorem packetSent (told : cause .sent) (sentAt : Time) (p : Pending) (held : Held I due key s) :
    Held I due key (s.packetSent sentAt p) := by
  have committed : Held I due key { s with sends := s.sends.commit p } := held
  have recorded := Held.foldl (fun s chunk held =>
      upkeep.chunkSent (s := s) told p.deliverable sentAt chunk held)
    p.deliverable.packet.chunks _ committed
  have timed : Held I due key (({ s with sends := s.sends.commit p } :
    Socket).scheduleExpirationsAfterSend p.deliverable
      sentAt) := by
    unfold Socket.scheduleExpirationsAfterSend
    simp only
    split
    · exact recorded.startT3IfStopped sentAt _ _
    · exact recorded
  unfold Socket.packetSent
  simp only
  split
  · exact timed
  · refine timed.updateAt fun holds => ?_
    refine upkeep.same holds ?_ ?_ <;> rfl

theorem putOut {σ : System} (told : cause .sent) (now : Time) (accepted : Bool) (left : Nat)
    (held : Held I due key (σ.socket.nextPacket now).socket) :
    Held I due key (σ.sendOne now accepted left).socket := by
  unfold System.sendOne
  simp only
  cases (σ.socket.nextPacket now).pending with
  | none => exact held
  | some p =>
    simp only
    split
    · exact upkeep.packetSent told now p held
    · exact held.packetRefused now p

theorem sendOne {σ : System} (cut : cause .cut) (sent : cause .sent) (now : Time) (accepted : Bool)
    (left : Nat) (held : Held I due key σ.socket) :
    Held I due key (σ.sendOne now accepted left).socket :=
  upkeep.putOut sent now accepted left (upkeep.prepared now (upkeep.refilled cut now held))

/-! ## Calls -/

/-- A SACK of any association. -/
theorem windowUpdateAt (k : AssociationKey) (held : Held I due key s) :
    Held I due key (s.maybeSendWindowUpdate k) := by
  have sack : Held I due key (s.sendSack k) := by
    unfold Socket.sendSack
    cases found : s.find? k with
    | none => exact held
    | some a =>
      simp only
      split
      · exact held
      · exact upkeep.bundled found held
  unfold Socket.maybeSendWindowUpdate
  split
  · exact held
  · split
    · exact held
    · split
      · exact held
      · exact sack

theorem sctpAssociate (was : s.find? key = start) (draws : Draws) (toAddress : SockAddr)
    (port : Port) (held : Held I due key s) :
    Held I due key (s.sctpAssociate draws toAddress port).2 := by
  unfold Socket.sctpAssociate
  split
  · exact held
  · simp only
    split
    · exact held
    · next known =>
      have opened := find?_emplace (absent_of_unknown known) (initNewAssociation draws toAddress)
        key
      by_cases here : key = peerKey toAddress port
      · rw [if_pos here] at opened
        have absent : start = none := by
          rw [← was, here]
          exact absent_of_unknown known
        exact Held.settled opened (upkeep.opened _ draws toAddress absent)
      · rw [if_neg here] at opened
        exact held.of_same opened rfl

theorem sctpShutdown (standing : Standing s) (now : Time) (k : AssociationKey)
    (held : Held I due key s) :
    Held I due key (s.sctpShutdown now k).2 := by
  unfold Socket.sctpShutdown
  cases found : s.find? k with
  | none => exact held
  | some a =>
    have torn := Isolated.tearDown k s
    simp only
    split
    · by_cases here : key = k
      · subst here
        exact Held.gone (by simp)
      · exact held.isolated torn here
    · split
      · next up =>
        have pending : Held I due key (s.setAssociation
            k { a with state := .shutdownPending }) := by
          refine held.setAt found (upkeep.onward .shutdownPending ⟨fun _ => Or.inr ?_, nofun⟩)
          rw [up]
          rfl
        by_cases here : key = k
        · subst here
          exact upkeep.doNextShutdownStep now pending
        · have shut : Deeds (fun _ => True) k s
            (s.setAssociation k { a with state := .shutdownPending }) :=
            Deeds.set found (.of_state (by rw [up]; rfl) rfl) (Or.inr fun _ _ =>
              ⟨by rw [up]; rfl, rfl⟩)
          have closed := shut.trans (Deeds.doNextShutdownStep _ k now)
          exact held.isolated (Deeds.isolated closed standing) here
      · exact held

theorem replanHeartbeat (now : Time) (draws : Draws) (i : Nat) (held : Held I due key s) :
    Held I due key (s.replanHeartbeat now draws key i) := by
  unfold Socket.replanHeartbeat
  split
  · exact held
  · refine Held.armHeartbeat ?_ i
    split
    · exact held
    · exact upkeep.planProbe now draws i held

theorem sctpChangeHeartbeat (now : Time) (draws : Draws) (destination : SockAddr) (enabled : Bool)
    (interval : Option Int) (held : Held I due key s) :
    Held I due key (s.sctpChangeHeartbeat now draws key destination enabled interval).2 := by
  unfold Socket.sctpChangeHeartbeat
  split
  · exact held
  · split
    · exact held
    · next changed _ =>
      have set : Held I due key (s.updateAssociation key fun assoc =>
          { assoc.modifyPath changed fun path => { path with hbEnabled := enabled } with
            hbInterval := interval.getD assoc.hbInterval }) := by
        refine held.update fun {r a} _ holds => ?_
        have modified : I r (a.modifyPath changed fun path => { path with hbEnabled := enabled }) :=
          upkeep.regauge changed (fun _ => rfl) holds
        refine upkeep.same modified ?_ ?_ <;> rfl
      simp only
      split
      · exact set
      · exact upkeep.armConfirmationProbes now
          (.foldl (fun s i held => upkeep.replanHeartbeat now draws i held) _ _ set)

theorem sctpRequestHeartbeat (now : Time) (draws : Draws) (destination : SockAddr)
    (held : Held I due key s) :
    Held I due key (s.sctpRequestHeartbeat now draws key destination).2 := by
  unfold Socket.sctpRequestHeartbeat
  split
  · exact held
  · split
    · exact held
    · split
      · exact held
      · exact (upkeep.buildProbe now draws _ _ held).armHeartbeat _

theorem sctpSetPrimary (k : AssociationKey) (destination : SockAddr) (held : Held I due key s) :
    Held I due key (s.sctpSetPrimary k destination).2 := by
  unfold Socket.sctpSetPrimary
  cases found : s.find? k with
  | none => exact held
  | some a =>
    simp only
    split
    · exact held
    · split
      · exact held
      · refine held.setAt found fun holds => ?_
        refine upkeep.same holds ?_ ?_ <;> rfl

theorem sctpSendData (k : AssociationKey) (data : Bytes) (stream : StreamId) (unordered : Bool)
    (told : cause .message) (held : Held I due key s) :
    Held I due key (s.sctpSendData k data stream unordered).2 := by
  unfold Socket.sctpSendData
  cases found : s.find? k with
  | none => exact held
  | some a =>
    simp only
    split
    · exact held.setAt found fun holds => upkeep.queued data stream unordered told holds
    · exact held

theorem call {event : Event} {s' : Socket} (standing : Standing s)
    (called : System.call s event = some s') (was : s.find? key = start)
    (told : ∀ k data stream unordered, event = .sendData k data stream unordered → cause .message)
    (held : Held I due key s) : Held I due key s' := by
  cases event with
  | associate draws toAddress port =>
    cases called
    exact upkeep.sctpAssociate was draws toAddress port held
  | sendData k data stream unordered =>
    cases called
    exact upkeep.sctpSendData k data stream unordered (told k data stream unordered rfl) held
  | abort k reason =>
    cases called
    have removed : Held I due key (s.removeAssociation k) := by
      by_cases here : key = k
      · subst here
        exact Held.removed
      · exact held.isolated (.remove k s) here
    unfold Socket.sctpAbort
    split
    · exact held
    · simp only
      split
      · exact removed
      · exact removed
  | recvData capacity =>
    cases called
    unfold Socket.sctpRecvData
    split
    · exact held
    · next read receives _ => exact upkeep.windowUpdateAt (s := { s
        with receives := receives }) read.key held
  | recvDataFrom k capacity =>
    cases called
    unfold Socket.sctpRecvDataFrom
    split
    · exact held
    · next read receives _ => exact upkeep.windowUpdateAt (s := { s
        with receives := receives }) k held
  | shutdown now k =>
    cases called
    exact upkeep.sctpShutdown standing now k held
  | changeHeartbeat now draws k destination enabled interval =>
    cases called
    by_cases here : key = k
    · subst here
      exact upkeep.sctpChangeHeartbeat now draws destination enabled interval held
    · have deeds : Deeds (fun _ => True) k s _ :=
        Deeds.sctpChangeHeartbeat s trivial now draws k destination enabled interval
      exact held.isolated (deeds.isolated standing) here
  | requestHeartbeat now draws k destination =>
    cases called
    by_cases here : key = k
    · subst here
      exact upkeep.sctpRequestHeartbeat now draws destination held
    · have deeds : Deeds (fun _ => True) k s _ :=
        Deeds.sctpRequestHeartbeat s trivial now draws k destination
      exact held.isolated (deeds.isolated standing) here
  | setPrimary k destination =>
    cases called
    exact upkeep.sctpSetPrimary k destination held
  | subscribe type on =>
    cases called
    exact held
  | recvNotification =>
    cases called
    exact held
  | _ => cases called

/-! ## Runs -/

theorem step {σ σ' : System} {event : Event} (standing : Standing σ.socket)
    (stepped : σ.step event = some σ') (was : σ.socket.find? key = start)
    (told : ∀ c, event.Causes c → cause c) (held : Held I [] key σ.socket) :
    Held I [] key σ'.socket := by
  rcases System.step_cases stepped with ⟨now, draws, packet, src, rfl, -, rfl⟩ | ⟨now, draws, rfl,
    -, rfl⟩ | ⟨rfl, -, rfl⟩
    | ⟨now, accepted, left, rfl, -, rfl⟩ | ⟨s, called, rfl⟩
  · by_cases here : σ.socket.resolvedKey now packet src = key
    · exact upkeep.handlePacket was now draws src here (fun chunk member => told _ (.chunk member))
        (told _ .data) held
    · have deeds : Deeds (fun _ => True) _ σ.socket _ :=
        (Deeds.handlePacket σ.socket now draws packet src (.all ..)).deeds of_unechoed
      exact held.isolated (deeds.isolated standing) (Ne.symm here)
  · exact upkeep.runExpire standing now draws held
  · exact upkeep.startTransmissionOpportunity held
  · exact upkeep.sendOne (told _ .cut) (told _ .sent) now accepted left held
  · exact upkeep.call standing called was (fun _ _ _ _ is => told _ (is ▸ .message)) held

end Upkeep

/-- It holds of every association in every state reached, under whatever proviso, with the
timer as it is. -/
theorem System.Reached.held {I : Prop → Association → Prop}
    (upkeep : ∀ start, Upkeep start (fun _ => True) I) {ok : System → Event → Prop} {σ : System}
    (reached : System.Reached ok σ) {key : AssociationKey} {a : Association}
    (found : σ.socket.find? key = some a) :
    I (σ.socket.expirations.isActive (timerOf key .delayedSack) = true) a := by
  have held : Standing σ.socket ∧ Held I [] key σ.socket := by
    refine Run.Reach.invariant (fun σ => Standing σ.socket ∧ Held I [] key σ.socket) reached ?_ ?_
    · rintro _ ⟨address, rfl⟩
      exact ⟨standing_fresh address, Held.gone rfl⟩
    · rintro σ event σ' ⟨standing, held⟩ - stepped
      exact ⟨(System.step_works standing stepped).standing standing,
        (upkeep (σ.socket.find? key)).step standing stepped rfl (fun _ _ => trivial) held⟩
  have runs : Awaited [] σ.socket (timerOf key .delayedSack)
      = (σ.socket.expirations.isActive (timerOf key .delayedSack) = true) := by
    unfold Awaited
    simp
  rw [← runs]
  exact held.2 a found

end SctpStack
