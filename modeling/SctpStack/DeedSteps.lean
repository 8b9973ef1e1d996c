import SctpStack.DeedHandshake

/-!
# Timers and packets, deed by deed

A timer that goes off acts for the association it was set for; a packet for the one it
is found to be from, or, with a cookie of ours, for the one the cookie names
(`Deeds.handlePacket`).
-/

namespace SctpStack

namespace Deeds

variable {heard heard' : Evidence → Prop} (s : Socket) {s' : Socket} (key : AssociationKey)

/-! ## Timers -/

theorem closing_up {state : AssociationState}
    (closing : ¬(state ≠ .shutdownSent ∧ state ≠ .shutdownAckSent)) :
    forming state = false := by
  rw [not_and_or, not_not, not_not] at closing
  exact up_of_shuttingDown closing

theorem handleT2Expiration (now : Time) : Deeds heard key s (s.handleT2Expiration now key) := by
  unfold Socket.handleT2Expiration
  cases found : s.find? key with
  | none => exact .refl
  | some a =>
    simp only
    split
    · exact .refl
    · next closing =>
      have counted : Deeds heard key s (s.setAssociation key
          { a.modifyPath (dataPath a) doubleRto with errorCount := a.errorCount + 1 }) :=
        set found (.of_outline (outline_modifyPath a (dataPath a) fun _ => ⟨rfl, rfl⟩))
          (Spares.trans (b := a.modifyPath (dataPath a) doubleRto)
          (spares_modifyPath a (dataPath a) fun _ => rfl)
            (.of_eq rfl rfl)).minds
      have found' : (s.setAssociation key { a.modifyPath (dataPath a) doubleRto with
          errorCount := a.errorCount + 1 }).find? key
          = some { a.modifyPath (dataPath a) doubleRto with errorCount := a.errorCount + 1 } := by
            simp
      split
      · exact counted.trans (loseAssociation found' (closing_up closing))
      · have here : (({ a.modifyPath (dataPath a) doubleRto with errorCount := a.errorCount + 1 } :
          Association).path
            (dataPath a)).address = (a.path (dataPath a)).address := by
          simp only [Association.path, Association.modifyPath]
          rw [List.getD_eq_getElem?_getD, List.getD_eq_getElem?_getD, List.getElem?_modify]
          cases a.peerAddressList[dataPath a]? with
          | none => rfl
          | some path => simp [doubleRto]
        rw [here]
        refine (counted.trans (enqueue _ (.found found' rfl ?_ ?_ fun sound => ?_))).trans
          (restartT2 _ key now)
        · split <;> exact List.cons_ne_nil _ _
        · split
          · exact Or.inr ⟨closing_up closing, rfl, fun _ => List.mem_singleton.mp⟩
          · exact Or.inl ⟨rfl, rfl⟩
        · have outline := outline_modifyPath a (dataPath a) (f := doubleRto) fun _ => ⟨rfl, rfl⟩
          have back : Sound a := (Succeeds.of_outline
              (a := { a.modifyPath (dataPath a) doubleRto with
            errorCount := a.errorCount + 1 }) outline.symm).sound sound
          exact (Listed.of_marks (congrArg Outline.marks outline)).confirmed back.dataPath

theorem handleT5Expiration : Deeds heard key s (s.handleT5Expiration key) := by
  unfold Socket.handleT5Expiration
  cases found : s.find? key with
  | none => exact .refl
  | some a =>
    simp only
    split
    · exact .refl
    · next closing =>
      -- The ULP is told before the ABORT is queued: the order does not show.
      exact (ended found (ends_up (closing_up closing) (Or.inl rfl))).trans
        (enqueue _ (.plain rfl (List.cons_ne_nil _ _) rfl rfl))

/-- What timed out is sent to a confirmed path. -/
theorem succeeds_moveTimedOut (a : Association) (i : Nat) :
    Succeeds a (moveTimedOut { a with sackSinceT3 := false } i
      (a.path (retransmissionPath a (a.path i).address)).address) := by
  refine .of_outstanding rfl fun sound tsn o found => ?_
  rw [show (moveTimedOut { a with sackSinceT3 := false } i (a.path (retransmissionPath a
    (a.path i).address)).address).outstandingData.get? tsn = _ from KeyMap.get?_mapVals _ _ _,
    Option.map_eq_some_iff] at found
  obtain ⟨o', before, rfl⟩ := found
  simp only
  split
  · exact confirmed_path sound.distinct (sound.confirmed_retransmissionPath _)
  · exact sound.outstanding tsn o' before

/-- T3 runs for a path that DATA is outstanding on, so it is confirmed. -/
theorem expireT3 {s : Socket} {key : AssociationKey} (a : Association) (i : Nat)
    (present : (s.find? key).isSome = true) (sure : ∀ b, s.find? key = some b → Sound b →
      (b.path i).confirmed = true) :
    Deeds heard key s (s.expireT3 key a i) := by
  have outline : ∀ b : Association, (b.modifyPath i fun path =>
      doubleRto (if b.zeroWindowProbing then path else collapseCwnd b.pmdcs path)).outline
        = b.outline := by
    refine fun b => outline_modifyPath b i fun path => ?_
    split <;> exact ⟨rfl, rfl⟩
  have doubled : Deeds heard key s (s.updateAssociation key fun assoc =>
      assoc.modifyPath i fun path =>
      doubleRto (if assoc.zeroWindowProbing then path else collapseCwnd assoc.pmdcs path)) := by
    refine adjust s key outline fun b => (spares_modifyPath b i fun path => ?_).minds
    split <;> rfl
  unfold Socket.expireT3
  simp only
  refine Relation.ReflTransGen.trans ?_ (update (fun b _ => succeeds_moveTimedOut b i) fun b _ =>
    (Spares.of_eq rfl rfl).minds)
  split
  · have counted := doubled.trans (countPathErrorAt _ key a i (present_update present _)
      (Or.inr fun b' found sound => ?_))
    · refine counted.trans (adjust _ key ?_ fun b => (Spares.of_eq rfl rfl).minds)
      exact fun _ => rfl
    · rw [Socket.find?_updateAssociation, if_pos rfl, Option.map_eq_some_iff] at found
      obtain ⟨b, before, rfl⟩ := found
      rw [confirmed_of_marks (congrArg Outline.marks (outline b)) i]
      exact sure b before ((Succeeds.of_outline (outline b).symm).sound sound)
  · exact doubled

/-- An association that was up and had nothing happen to it but errors is lost. -/
theorem loseAfter {s s' : Socket} {key : AssociationKey} {a : Association}
    (found : s.find? key = some a) (up : forming a.state = false) (quiet : Quiet s s') :
    Deeds heard key s' (s'.loseAssociation key) := by
  obtain ⟨b, here, same⟩ := quiet.present key a found
  refine loseAssociation here ?_
  rw [show b.state = a.state from congrArg Essence.state same.essence]
  exact up

theorem handleT3Expiration (destination : SockAddr) :
    Deeds heard key s (s.handleT3Expiration key destination) := by
  unfold Socket.handleT3Expiration
  cases found : s.find? key with
  | none => exact .refl
  | some a =>
    simp only
    split
    · exact .refl
    · next transmits =>
      rw [Bool.not_eq_true', Bool.not_eq_false] at transmits
      split
      · exact .refl
      · next i _ =>
        split
        · exact .refl
        · next waits =>
          rw [Bool.not_eq_true', Bool.not_eq_false] at waits
          have expired : Deeds heard key s (s.expireT3 key a i) := by
            refine expireT3 a i (by rw [found]; rfl) fun b here sound => ?_
            rw [found] at here
            cases here
            obtain ⟨entry, member, on⟩ := List.any_eq_true.mp waits
            rw [Bool.and_eq_true, beq_iff_eq] at on
            rw [← on.2]
            exact sound.confirmed_destinationOf (KeyMap.mem_entries.mp member)
          split
          · exact expired.trans (loseAfter found (up_of_transmitsData transmits)
              (.expireT3 s key a i))
          · exact (expired.trans (dropOfType _ key .data _)).trans
              (schedulePendingRetransmission _ key false)

theorem outline_buildProbe (a : Association) (i : Nat) (nonce : BitVec 64) (now : Time) :
    (a.modifyPath i fun path => { path with hbNonce := nonce, hbOutstanding := true, hbSentAt :=
      now }).outline
      = a.outline :=
  outline_modifyPath a i fun _ => ⟨rfl, rfl⟩

theorem buildProbe (probed : heard .probed) (now : Time) (draws : Draws) (a : Association)
    (i : Nat) :
    Deeds heard key s (s.buildProbe now draws key a i).1 :=
  adjust s key (fun b => outline_buildProbe b i _ now) fun _ => Or.inl probed

/-- A probe may go anywhere. -/
theorem fit_probe (s s' : Socket) (now : Time) (draws : Draws) (key : AssociationKey)
    (a : Association) (i : Nat) :
    Fit s' key (s.buildProbe now draws key a i).2 := .plain rfl (List.cons_ne_nil _ _) rfl rfl

theorem missHeartbeat (probed : heard .probed) (now : Time) (a : Association) (i : Nat)
    (present : (s.find? key).isSome = true) :
    Deeds heard key s (s.missHeartbeat now key a i).1 := by
  have missed : Deeds heard key s (s.updateAssociation key fun assoc =>
      assoc.modifyPath i fun path => doubleRto { path with hbOutstanding := false }) := by
    refine adjust s key (fun b => outline_modifyPath b i ?_) fun _ => Or.inl probed
    exact fun _ => ⟨rfl, rfl⟩
  have outline : ∀ b : Association, (if ((a.path i).confirmed && dataPath a == i) = true then
      { b with errorCount := b.errorCount + 1 } else b).outline = b.outline := by
    intro b
    split <;> rfl
  have counted := (missed.trans (countPathErrorAt _ key a i (present_update present _)
    (Or.inl probed))).trans (adjust _ key outline fun _ => Or.inl probed)
  unfold Socket.missHeartbeat
  simp only
  split
  · exact counted.trans (armConfirmationProbes _ key probed now)
  · exact counted

theorem sendDueProbe (probed : heard .probed) (now : Time) (draws : Draws) (i : Nat)
    (probeNow : Bool) :
    Deeds heard key s (s.sendDueProbe now draws key i probeNow).1
      ∧ ∀ probe, (s.sendDueProbe now draws key i probeNow).2 = some probe →
        ∀ s', Fit s' key probe := by
  have planned : ∀ s : Socket, Deeds heard key s (s.updateAssociation key fun assoc =>
      planNextProbe assoc draws i now) :=
    fun s => adjust s key (fun b => outline_planNextProbe b draws i now) fun b =>
      (spares_planNextProbe b draws i now).minds
  unfold Socket.sendDueProbe
  cases found : s.find? key with
  | none => exact ⟨.refl, nofun⟩
  | some a =>
    simp only
    split
    · split
      · refine ⟨((buildProbe s key probed now draws a i).trans (planned _)).trans
          (armHeartbeat _ key probed i),
          fun probe is s' => ?_⟩
        cases is
        exact fit_probe s s' now draws key a i
      · exact ⟨(planned s).trans (armHeartbeat _ key probed i), nofun⟩
    · exact ⟨armHeartbeat s key probed i, nofun⟩

theorem handleHeartbeatExpiration (probed : heard .probed) (now : Time) (draws : Draws)
    (destination : SockAddr) :
    Deeds heard key s (s.handleHeartbeatExpiration now draws key destination) := by
  unfold Socket.handleHeartbeatExpiration
  cases found : s.find? key with
  | none => exact .refl
  | some a =>
    simp only
    split
    · exact .refl
    · next transmits =>
      rw [Bool.not_eq_true', Bool.not_eq_false] at transmits
      split
      · exact .refl
      · next i _ =>
        have missed : Deeds heard key s (if (a.path i).hbOutstanding = true
            then s.missHeartbeat now key a i
            else (s, false)).1 := by
          split
          · exact missHeartbeat s key probed now a i (by rw [found]; rfl)
          · exact .refl
        have quiet : Quiet s (if (a.path i).hbOutstanding = true then s.missHeartbeat now key a i
            else (s, false)).1 := by
          split
          · exact .missHeartbeat s key now a i
          · exact .refl s
        revert missed quiet
        generalize (if (a.path i).hbOutstanding = true then s.missHeartbeat now key a i
          else (s, false)) = outcome
        obtain ⟨s₁, unreachable⟩ := outcome
        intro missed quiet
        simp only
        split
        · exact missed.trans (loseAfter found (up_of_transmitsData transmits) quiet)
        · obtain ⟨sent, fit⟩ := sendDueProbe s₁ key probed now draws
            i ((s₁.find? key).any fun assoc =>
            !(a.path i).hbOutstanding || probesForConfirmation assoc i
              || decide (now ≥ (assoc.path i).hbNext))
          split
          · next s₂ none =>
            rw [none] at sent
            exact missed.trans sent
          · next s₂ probe some =>
            rw [some] at sent fit
            exact (missed.trans sent).trans (enqueue s₂ (fit probe rfl s₂))

theorem handleZeroWindowProbeExpiration :
    Deeds heard key s (s.handleZeroWindowProbeExpiration key) := by
  refine adjust s key (fun a => ?_) fun a => Spares.minds ?_
  · split <;> rfl
  · split
    · exact .of_eq rfl rfl
    · exact .refl a

theorem succeeds_resent {a : Association} {isInit : Bool}
    (state : a.state = if isInit then .cookieWait else .cookieEchoed)
    (left : (if isInit then a.initRetransmits else a.cookieRetransmits) < maxInitRetransmits) :
    Succeeds a (a.resent isInit) := by
  obtain ⟨x, y, before, after, step, -⟩ := exchange_resent state left
  have handshakes : Handshakes a (a.resent isInit) := .step before step after
  cases isInit <;>
    exact ⟨⟨rfl, rfl, rfl, handshakes, .refl a, fun sound =>
      ⟨sound.distinct, sound.primary, sound.outstanding⟩,
      fun tidy => tidy.congr id rfl rfl rfl rfl rfl⟩, rfl, fun _ => ⟨rfl, rfl⟩⟩

/-- What T1 sends again is fit to be sent as long as the handshake lasts. -/
theorem handleT1Expiration (isInit : Bool) {retry : Deliverable}
    (fit : ∀ a, s.find? key = some a → forming a.state = true →
      Fit s key retry ∧ followedUp retry.packet = true) :
    Deeds heard key s (s.handleT1Expiration key isInit retry) := by
  unfold Socket.handleT1Expiration
  cases found : s.find? key with
  | none => exact .refl
  | some a =>
    by_cases state : a.state = (if isInit then .cookieWait else .cookieEchoed)
    · have forms : forming a.state = true := by
        rw [state]
        cases isInit <;> rfl
      simp only [if_neg (not_not.mpr state)]
      by_cases spent : (if isInit then a.initRetransmits else a.cookieRetransmits)
        ≥ maxInitRetransmits
      · rw [if_pos spent]
        exact .single (.gaveUp found forms)
      · rw [if_neg spent]
        obtain ⟨ready, follows⟩ := fit a found forms
        have again : Deeds heard key s (s.setAssociation key (a.resent isInit)) := by
          refine set found (succeeds_resent state (Nat.lt_of_not_ge spent)) (Spares.minds ?_)
          cases isInit <;> exact .of_eq rfl rfl
        refine again.trans (.single (.enqueue retry .retransmission
          ⟨ready.location, ready.nonempty, Or.inl (ready.silent follows), fun _ => by simp,
          fun guards b here sound => ?_⟩ fun _ => follows))
        rw [Socket.find?_setAssociation, if_pos rfl] at here
        cases here
        have same : Sound a ∧ Listed a (a.resent isInit) := by
          cases isInit <;> exact ⟨⟨sound.distinct, sound.primary, sound.outstanding⟩, .refl a⟩
        exact same.2.confirmed (ready.confirmed guards a found same.1)
    · simp only [if_pos (show a.state ≠ _ from state)]
      exact .refl

/-- A timer that goes off acts for the association it was set for. -/
theorem handleExpiration (now : Time) (draws : Draws) (f : ExpirationFallback)
    (fit : isT1 f.key.type = true → ∀ a, s.find? f.key.location = some a → forming a.state = true →
      Fit s f.key.location f.retry ∧ followedUp f.retry.packet = true)
    (probed : f.key.type = .heartbeat → heard .probed) :
      Deeds heard f.key.location s (s.handleExpiration now draws f) := by
  unfold Socket.handleExpiration
  simp only
  cases type : f.key.type with
  | t3Rtx => exact handleT3Expiration s _ _
  | delayedSack => exact sendSack s _
  | heartbeat => exact handleHeartbeatExpiration s _ (probed type) now draws _
  | t2Shutdown => exact handleT2Expiration s _ now
  | t5ShutdownGuard => exact handleT5Expiration s _
  | zeroWindowProbe => exact handleZeroWindowProbeExpiration s _
  | t1Init => exact handleT1Expiration s _ true (fit (by rw [type]; rfl))
  | t1Cookie => exact handleT1Expiration s _ false (fit (by rw [type]; rfl))

/-! ## Packets -/

theorem reportUnrecognizedChunks (header : CommonHeader) (src : SockAddr)
    (causes : List ErrorCause) :
    Deeds heard key s (s.reportUnrecognizedChunks header key src causes) := by
  unfold Socket.reportUnrecognizedChunks
  cases found : s.find? key with
  | none => exact .refl
  | some a =>
    simp only
    split
    · exact .refl
    · split
      · exact .refl
      · exact replyFound found (List.cons_ne_nil _ _) ⟨rfl, rfl⟩ fun sound =>
          sound.replyDestination src

theorem extendShutdown (now : Time) : Deeds heard key s (s.extendShutdown now key) := by
  unfold Socket.extendShutdown
  cases found : s.find? key with
  | none => exact .refl
  | some a =>
    simp only
    split
    · have cleared : Deeds heard key s (s.setAssociation key { a with errorCount := 0 }) :=
        set found (.of_outline rfl) (Spares.of_eq rfl rfl).minds
      exact cleared.trans (restartT2 _ key now)
    · exact .refl

/-- The answers that may change what is probed. -/
def answersProbe : ChunkValue → Bool
  | .cookieAck | .heartbeatAck _ => true
  | _ => false

theorem handleChunk (now : Time) (draws : Draws) (header : CommonHeader) (src : SockAddr)
    (chunk : Chunk) (told : ∀ info, chunk.value = .heartbeatAck info → heard (.acked info))
    (probed : answersProbe chunk.value = true → heard' .probed) :
    Led heard heard' key s (s.handleChunk now draws header key src chunk) := by
  unfold Socket.handleChunk
  cases value : chunk.value with
  | init init => exact .of_deeds (handleInit s key now draws header init src)
  | initAck initAck => exact .of_deeds (handleInitAck s key header initAck src)
  | cookieAck => exact .of_deeds (handleCookieAck s key (probed (by rw [value]; rfl)) now draws)
  | sack sack => exact .of_deeds (handleSack s key now header sack src)
  | opError causes => exact .of_deeds (handleError s key causes)
  | abort causes => exact .of_deeds (handleAbort s key causes)
  | heartbeat info => exact .of_deeds (handleHeartbeat s key header info src)
  | heartbeatAck info => exact handleHeartbeatAck s key now draws (told info value) (probed
      (by rw [value]; rfl))
  | shutdown cumulativeTsnAck =>
      exact .of_deeds (handleShutdown s key now header cumulativeTsnAck src)
  | shutdownAck => exact .of_deeds (handleShutdownAck s key header src)
  | shutdownComplete => exact .of_deeds (handleShutdownComplete s key)
  | data _ | cookieEcho _ | unknown _ _ => exact .of_deeds .refl

theorem handleChunks (now : Time) (draws : Nat → Draws) (header : CommonHeader) (src : SockAddr)
    (i : Nat) (chunks : List Chunk)
    (told : ∀ chunk ∈ chunks, ∀ info, chunk.value = .heartbeatAck info → heard (.acked info))
    (probed : heard .probed) :
    Deeds heard key s (Socket.handleChunks now draws header key src i chunks s).2 := by
  induction chunks generalizing s i with
  | nil => exact .refl
  | cons chunk rest ih =>
    obtain ⟨head, tail⟩ := List.forall_mem_cons.mp told
    have first : Deeds heard key s _ :=
      (handleChunk s key now (draws i) header src chunk head fun _ => probed).deeds fun _ => id
    unfold Socket.handleChunks
    simp only
    split
    · exact first
    · exact first.trans (ih _ (i + 1) tail)

theorem beforeChunks (now : Time) (packet : Packet) (src : SockAddr) :
    Deeds heard key s (s.beforeChunks now packet key src) := by
  unfold Socket.beforeChunks
  refine Relation.ReflTransGen.trans ?_ (extendShutdown _ key now)
  split
  · exact .refl
  · exact recordEncapsulationPort s key src

/-- What is handled past a COOKIE ECHO, with its DATA last. -/
theorem handleRest (now : Time) (draws : Nat → Draws) (packet : Packet) (src : SockAddr)
    (carried : Bool) (told : ∀ chunk ∈ packet.chunks, ∀ info, chunk.value = .heartbeatAck info →
      heard (.acked info)) (probed : heard .probed)
    (revealed : ∀ s', s.afterChunks now draws packet key src carried = (false, s') →
      Reveals heard s' ⟨packet.header, (stripUnrecognized packet.chunks).1⟩ key carried) :
    Deeds heard key s (s.handleRest now draws packet.header key src
      (stripUnrecognized packet.chunks).1 (Socket.chunksToHandle packet carried)
      (stripUnrecognized packet.chunks).2 carried) := by
  have inside : ∀ chunk ∈ Socket.chunksToHandle packet carried, chunk ∈ packet.chunks := by
    intro chunk member
    unfold Socket.chunksToHandle at member
    split at member
    · exact (stripUnrecognized_sublist packet.chunks).subset (List.mem_of_mem_tail member)
    · exact (stripUnrecognized_sublist packet.chunks).subset member
  have handled : Deeds heard key s (s.afterChunks now draws packet key src carried).2 :=
    (beforeChunks s key now packet src).trans (handleChunks _ key now draws packet.header src _ _
      (fun chunk member => told chunk (inside chunk member)) probed)
  rw [handleRest_eq]
  cases after : s.afterChunks now draws packet key src carried with
  | mk stopped s₁ =>
    rw [after] at handled
    cases stopped with
    | true => exact handled
    | false =>
      have taken := handled.trans (handleDataPacket s₁ key now _ src carried (revealed s₁ after))
      simp only
      split
      · exact taken
      · exact taken.trans (reportUnrecognizedChunks _ key packet.header src _)

end Deeds

namespace Socket

/-- The association a packet is handled for: the one it is found to be from, unless it
leads with a COOKIE ECHO whose cookie is ours. -/
def resolvedKey (s : Socket) (now : Time) (packet : Packet) (src : SockAddr) : AssociationKey :=
  match s.validateVerificationTag packet (s.packetKey packet src),
    (stripUnrecognized packet.chunks).1 with
  | .accept, ⟨_, .cookieEcho cookieData⟩ :: _ =>
    match s.cookieAuthorizer.verify now cookieData packet.header src with
    | .valid cookie | .stale cookie _ => s.associationKeyFor (cookieKey cookie)
    | _ => s.packetKey packet src
  | _, _ => s.packetKey packet src

theorem handleCookieEcho_key (s : Socket) (now : Time) (draws : Draws) (header : CommonHeader)
    (cookieData : Bytes) (key : AssociationKey) (src : SockAddr) :
    (s.handleCookieEcho now draws header cookieData key src).2.1
      = match s.cookieAuthorizer.verify now cookieData header src with
        | .valid cookie | .stale cookie _ => s.associationKeyFor (cookieKey cookie)
        | _ => key := by
  unfold Socket.handleCookieEcho
  cases s.cookieAuthorizer.verify now cookieData header src with
  | valid cookie =>
    simp only
    split <;> rfl
  | stale cookie stalenessUs =>
    simp only
    (repeat' split) <;> rfl
  | _ => rfl

end Socket

/-- What a packet shows is heard. -/
structure Shows (heard : Evidence → Prop) (s : Socket) (now : Time) (draws : Nat → Draws)
    (packet : Packet) (src : SockAddr) : Prop where
  acked : ∀ chunk ∈ packet.chunks, ∀ info, chunk.value = .heartbeatAck info → heard (.acked info)
  echoed : ∀ flag cookieData rest, (stripUnrecognized packet.chunks).1
    = ⟨flag, .cookieEcho cookieData⟩ :: rest → heard (.echoed now cookieData packet.header src)
  revealed : ∀ s' key carried s'', s.dispatch now draws packet src = some (s', key, carried) →
    s'.afterChunks now draws packet key src carried = (false, s'') →
    Deeds.Reveals heard s'' ⟨packet.header, (stripUnrecognized packet.chunks).1⟩ key carried
  met : ∀ key a tag, s.find? key = some a → tag ≠ a.peerVerTag →
    heard (.met key (forming a.state) a.peerVerTag tag)
  probed : heard .probed

theorem Shows.all (s : Socket) (now : Time) (draws : Nat → Draws) (packet : Packet)
    (src : SockAddr) :
    Shows (fun _ => True) s now draws packet src :=
  ⟨fun _ _ _ _ => trivial, fun _ _ _ _ => trivial, fun _ _ _ _ _ _ =>
    ⟨fun _ _ _ _ => trivial, fun _ _ _ _ => trivial⟩,
    fun _ _ _ _ _ => trivial, trivial⟩

namespace Deeds

variable {heard : Evidence → Prop} (s : Socket)

/-- A packet that does not pass the tag check is answered at most. -/
theorem refused {now : Time} {draws : Nat → Draws} {packet : Packet} {src : SockAddr}
    (verdict : s.validateVerificationTag packet (s.packetKey packet src) ≠ .accept) :
    Deeds heard (s.packetKey packet src) s (s.handlePacket now draws packet src) := by
  unfold Socket.handlePacket
  simp only
  cases is : s.validateVerificationTag packet (s.packetKey packet src) with
  | accept => exact absurd is verdict
  | discard => exact .refl
  | abortOotb => exact sendAbort s _ packet.header src _ true []
  | abortInit => exact sendAbort s _ packet.header src _ false []
  | shutdownCompleteOotb => exact replyPlain s _ (List.cons_ne_nil _ _) rfl rfl

/-- Everything a packet does, it does for one association, and what a cookie does comes
first. -/
theorem handlePacket (now : Time) (draws : Nat → Draws) (packet : Packet) (src : SockAddr)
    (shows : Shows heard s now draws packet src) :
    Led heard (unechoed heard) (s.resolvedKey now packet src)
      s (s.handlePacket now draws packet src) := by
  have revealed : ∀ s' key carried s'', s.dispatch now draws packet src = some (s', key, carried) →
      s'.afterChunks now draws packet key src carried = (false, s'') →
      Reveals (unechoed heard) s'' ⟨packet.header, (stripUnrecognized packet.chunks).1⟩
        key carried :=
    fun s' key carried s'' dispatched after =>
      ⟨(shows.revealed s' key carried s'' dispatched after).spoiled,
        (shows.revealed s' key carried s'' dispatched after).took⟩
  by_cases verdict : s.validateVerificationTag packet (s.packetKey packet src) = .accept
  · by_cases leads : ∃ flag cookieData rest, (stripUnrecognized packet.chunks).1
      = ⟨flag, .cookieEcho cookieData⟩ :: rest
    · obtain ⟨flag, cookieData, rest, chunks⟩ := leads
      have echoed : Led heard (unechoed heard) _ s _ :=
        handleCookieEcho s (s.packetKey packet src) now (draws 0) packet.header cookieData src
          (shows.echoed flag cookieData rest chunks) shows.probed shows.met
      have key : s.resolvedKey now packet src
          = (s.handleCookieEcho now (draws 0) packet.header cookieData (s.packetKey packet src)
            src).2.1 := by
        rw [Socket.handleCookieEcho_key]
        simp only [Socket.resolvedKey, verdict, chunks]
      rw [key]
      have tail : Socket.chunksToHandle packet true = rest := by
        simp [Socket.chunksToHandle, chunks]
      cases outcome : s.handleCookieEcho now (draws 0) packet.header cookieData
        (s.packetKey packet src) src with
      | mk accepted after =>
        obtain ⟨key, s₁⟩ := after
        rw [outcome] at echoed
        cases accepted with
        | false =>
          have handled : s.handlePacket now draws packet src = s₁ := by
            simp only [Socket.handlePacket, Socket.acceptPacket, verdict, chunks, outcome]
          rw [handled]
          exact echoed
        | true =>
          have dispatched : s.dispatch now draws packet src = some (s₁, key, true) := by
            simp only [Socket.dispatch, verdict, chunks, outcome]
          have handled : s.handlePacket now draws packet src
              = s₁.handleRest now draws packet.header key src (stripUnrecognized packet.chunks).1
                (Socket.chunksToHandle packet true) (stripUnrecognized packet.chunks).2
              true := by
            simp only [Socket.handlePacket, Socket.acceptPacket, verdict, chunks, outcome, tail]
          rw [handled]
          exact echoed.trans (handleRest s₁ key now draws packet src true shows.acked shows.probed
            (revealed s₁ key true · dispatched))
    · have plain : ∀ flag cookieData rest, (stripUnrecognized packet.chunks).1
        ≠ ⟨flag, .cookieEcho cookieData⟩ :: rest :=
        fun flag cookieData rest chunks => leads ⟨flag, cookieData, rest, chunks⟩
      have key : s.resolvedKey now packet src = s.packetKey packet src := by
        unfold Socket.resolvedKey
        split
        · next chunks => exact absurd chunks (plain _ _ _)
        · rfl
      have dispatched : s.dispatch now draws packet src
          = some (s, s.packetKey packet src, false) := by
        simp only [Socket.dispatch, verdict]
      rw [key, handlePacket_plain verdict plain]
      exact .of_deeds (handleRest s _ now draws packet src false shows.acked shows.probed
        (revealed s _ false · dispatched))
  · have key : s.resolvedKey now packet src = s.packetKey packet src := by
      unfold Socket.resolvedKey
      split
      · next is _ => exact absurd is verdict
      · rfl
    rw [key]
    exact .of_deeds (refused s verdict)

end Deeds

end SctpStack
