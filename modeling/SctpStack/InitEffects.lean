import SctpStack.Codec
import SctpStack.Dispatch

/-!
# What an INIT does

An INIT carries no proof of where it came from. It is answered, and all it leaves behind
in an association it is taken for are the Tie-Tags of the answer (`init_leaves_unmoved`).
-/

namespace SctpStack

theorem CookieAuth.rotateIfDue_again (auth : CookieAuth) (now : Time) (secret : Bytes) :
    (auth.rotateIfDue now secret).rotateIfDue now secret = auth.rotateIfDue now secret := by
  have rotation : 0 < usec cookieSecretRotation := by decide
  have short : now - now < usec cookieSecretRotation := by rwa [Int.sub_self]
  unfold CookieAuth.rotateIfDue
  by_cases initialized : auth.initialized = true
  · by_cases early : now - auth.rotatedAt < usec cookieSecretRotation
    · simp [initialized, early]
    · simp only [initialized, Bool.not_true, Bool.false_eq_true, ↓reduceIte, early, short]
  · simp [initialized, rotation]

/-- Nothing but packets to send, the Tie-Tags of associations and the secrets of the
cookies differ; `secret` is what the authorizer draws if it has to. -/
structure Answered (now : Time) (secret : Bytes) (s s' : Socket) : Prop where
  localAddress : s'.localAddress = s.localAddress
  running : s'.running = s.running
  peerAddresses : s'.peerAddresses = s.peerAddresses
  receives : s'.receives = s.receives
  expirations : s'.expirations = s.expirations
  notifications : s'.notifications = s.notifications
  absent : ∀ key, s.find? key = none → s'.find? key = none
  assoc : ∀ key a, s.find? key = some a → ∃ b, s'.find? key = some b
    ∧ b = { a with localTieTag := b.localTieTag, peerTieTag := b.peerTieTag }
  control : ∃ added, s'.sends.control = s.sends.control ++ added
  retransmission : s'.sends.retransmission = s.sends.retransmission
  newData : s'.sends.newData = s.sends.newData
  nextSendAttempt : s'.sends.nextSendAttempt = s.sends.nextSendAttempt
  cookieAuthorizer : s'.cookieAuthorizer = s.cookieAuthorizer
    ∨ s'.cookieAuthorizer = s.cookieAuthorizer.rotateIfDue now secret

namespace Answered

variable {now : Time} {secret : Bytes} {s s' s'' : Socket}

theorem refl (s : Socket) : Answered now secret s s :=
  ⟨rfl, rfl, rfl, rfl, rfl, rfl, fun _ => id, fun _ a found => ⟨a, found, rfl⟩,
    ⟨[], (List.append_nil _).symm⟩, rfl, rfl, rfl, Or.inl rfl⟩

theorem trans (first : Answered now secret s s') (second : Answered now secret s' s'') :
    Answered now secret s s'' where
  localAddress := second.localAddress.trans first.localAddress
  running := second.running.trans first.running
  peerAddresses := second.peerAddresses.trans first.peerAddresses
  receives := second.receives.trans first.receives
  expirations := second.expirations.trans first.expirations
  notifications := second.notifications.trans first.notifications
  absent := fun key none => second.absent key (first.absent key none)
  assoc := by
    intro key a found
    obtain ⟨b, found', tied⟩ := first.assoc key a found
    obtain ⟨c, found'', tied'⟩ := second.assoc key b found'
    refine ⟨c, found'', ?_⟩
    rw [tied', tied]
  control := by
    obtain ⟨added, here⟩ := first.control
    obtain ⟨added', there⟩ := second.control
    exact ⟨added ++ added', by rw [there, here, List.append_assoc]⟩
  retransmission := second.retransmission.trans first.retransmission
  newData := second.newData.trans first.newData
  nextSendAttempt := second.nextSendAttempt.trans first.nextSendAttempt
  cookieAuthorizer := by
    rcases second.cookieAuthorizer with same | drawn
    · rw [same]
      exact first.cookieAuthorizer
    · rw [drawn]
      rcases first.cookieAuthorizer with same | drawn'
      · rw [same]
        exact Or.inr rfl
      · rw [drawn', CookieAuth.rotateIfDue_again]
        exact Or.inr rfl

variable (s) (key : AssociationKey)

theorem reply (destination : SockAddr) (packet : Packet) :
    Answered now secret s (s.reply key destination packet) := by
  refine ⟨rfl, rfl, rfl, rfl, rfl, rfl, fun _ => id, fun _ a found => ⟨a, found, rfl⟩, ?_, ?_,
    ?_, ?_, Or.inl rfl⟩
  all_goals unfold Socket.reply Socket.enqueuePacket SendQueue.enqueue
  all_goals simp only
  all_goals split
  all_goals first | rfl | exact ⟨_, rfl⟩ | exact ⟨[], (List.append_nil _).symm⟩

theorem authorizer (now : Time) (secret : Bytes) :
    Answered now secret s { s with cookieAuthorizer :=
      s.cookieAuthorizer.rotateIfDue now secret } :=
  ⟨rfl, rfl, rfl, rfl, rfl, rfl, fun _ => id, fun _ a found => ⟨a, found, rfl⟩,
    ⟨[], (List.append_nil _).symm⟩, rfl, rfl, rfl, Or.inr rfl⟩

variable {s key}

theorem tie {a : Association} (found : s.find? key = some a) (draws : Draws) :
    Answered now secret s (s.setAssociation key (withTieTags draws a)) := by
  refine ⟨rfl, rfl, rfl, rfl, rfl, rfl, fun k none => ?_, fun k b here => ?_,
    ⟨[], (List.append_nil _).symm⟩, rfl, rfl, rfl, Or.inl rfl⟩
  · by_cases same : k = key
    · rw [same, found] at none
      cases none
    · simp [same, none]
  · by_cases same : k = key
    · subst same
      rw [found, Option.some.injEq] at here
      refine ⟨withTieTags draws a, by simp, ?_⟩
      subst here
      unfold withTieTags
      split <;> rfl
    · exact ⟨b, by simp [same, here], rfl⟩

variable (s key) (now : Time) (draws : Draws) (header : CommonHeader) (init : InitChunkValue)
    (src : SockAddr)

theorem sendInitAck (answer : InitAnswer) :
    Answered now draws.secret s (s.sendInitAck now draws header init key src answer) := by
  unfold Socket.sendInitAck
  simp only
  split
  · exact authorizer s now draws.secret
  · exact (authorizer s now draws.secret).trans (reply _ key _ _)

theorem answerInit : Answered now draws.secret s (s.answerInit now draws header init key src) := by
  unfold Socket.answerInit
  cases found : s.find? key with
  | none => exact sendInitAck s key now draws header init src _
  | some a =>
    simp only
    split
    · exact reply s key _ _
    · split
      · exact sendInitAck s key now draws header init src _
      · split
        · exact reply s key _ _
        · exact (tie found draws).trans (sendInitAck _ key now draws header init src _)

theorem handleInit : Answered now draws.secret s (s.handleInit now draws header init key src) := by
  unfold Socket.handleInit
  split
  · exact reply s key _ _
  · split
    · exact reply s key _ _
    · split
      · exact reply s key _ _
      · exact answerInit s key now draws header init src

end Answered

/-- What an INIT leaves as it was: every association but for its Tie-Tags, the addresses
they are found by, what was received, and the timers. Packets are queued behind the
others, and the authorizer draws `secret` if its first one or a rotation is due, or nothing.
For an association in SHUTDOWN-SENT the error counter and T2-shutdown are left open. -/
structure Unmoved (now : Time) (secret : Bytes) (s s' : Socket) : Prop where
  peerAddresses : s'.peerAddresses = s.peerAddresses
  receives : s'.receives = s.receives
  notifications : s'.notifications = s.notifications
  settings : s'.localAddress = s.localAddress ∧ s'.running = s.running
  absent : ∀ key, s.find? key = none → s'.find? key = none
  assoc : ∀ key a, s.find? key = some a → ∃ b, s'.find? key = some b
    ∧ b = { a with localTieTag := b.localTieTag, peerTieTag := b.peerTieTag, errorCount :=
      b.errorCount }
    ∧ (a.state ≠ .shutdownSent → b.errorCount = a.errorCount)
  timers : s'.expirations = s.expirations
    ∨ ∃ key a deadline, s.find? key = some a ∧ a.state = .shutdownSent
      ∧ s'.expirations = s.expirations.schedule (timerOf key .t2Shutdown) deadline (noRetry key)
  control : ∃ added, s'.sends.control = s.sends.control ++ added
  retransmission : s'.sends.retransmission = s.sends.retransmission
  newData : s'.sends.newData = s.sends.newData
  nextSendAttempt : s'.sends.nextSendAttempt = s.sends.nextSendAttempt
  cookieAuthorizer : s'.cookieAuthorizer = s.cookieAuthorizer
    ∨ s'.cookieAuthorizer = s.cookieAuthorizer.rotateIfDue now secret

theorem Answered.unmoved {now : Time} {secret : Bytes} {s s' : Socket}
    (answered : Answered now secret s s') :
    Unmoved now secret s s' where
  peerAddresses := answered.peerAddresses
  receives := answered.receives
  notifications := answered.notifications
  settings := ⟨answered.localAddress, answered.running⟩
  absent := answered.absent
  assoc := by
    intro key a found
    obtain ⟨b, found', tied⟩ := answered.assoc key a found
    have same : b.errorCount = a.errorCount := by rw [tied]
    exact ⟨b, found', by rw [tied], fun _ => same⟩
  timers := Or.inl answered.expirations
  control := answered.control
  retransmission := answered.retransmission
  newData := answered.newData
  nextSendAttempt := answered.nextSendAttempt
  cookieAuthorizer := answered.cookieAuthorizer

/-- More time for a shutdown, and then the answer. -/
theorem Unmoved.extendShutdown {s s' : Socket} {now : Time} {secret : Bytes} {key : AssociationKey}
    (answered : Answered now secret (s.extendShutdown now key) s') : Unmoved now secret s s' := by
  unfold Socket.extendShutdown at answered
  cases found : s.find? key with
  | none =>
    simp only [found] at answered
    exact answered.unmoved
  | some a =>
    simp only [found] at answered
    split at answered
    · next sent =>
      unfold Socket.restartT2 at answered
      simp only [Socket.find?_setAssociation, ↓reduceIte] at answered
      refine ⟨answered.peerAddresses, answered.receives, answered.notifications,
        ⟨answered.localAddress, answered.running⟩, fun k none => answered.absent k ?_,
        fun k b here => ?_, Or.inr ⟨key, a, _, found, sent, answered.expirations⟩, answered.control,
          answered.retransmission,
        answered.newData, answered.nextSendAttempt, answered.cookieAuthorizer⟩
      · by_cases same : k = key
        · rw [same, found] at none
          cases none
        · simp [same, none]
      · by_cases same : k = key
        · subst same
          rw [found, Option.some.injEq] at here
          subst here
          obtain ⟨c, found', tied⟩ := answered.assoc k { a with errorCount := 0 } (by simp)
          exact ⟨c, found', by rw [tied], fun other => absurd sent other⟩
        · obtain ⟨c, found', tied⟩ := answered.assoc k b (by simp [same, here])
          have count : c.errorCount = b.errorCount := by rw [tied]
          exact ⟨c, found', by rw [tied], fun _ => count⟩
    · exact answered.unmoved

theorem receiveChunks_noData {chunks : List Chunk} (none : ∀ chunk ∈ chunks, chunk.type ≠ .data)
    (loop : DataLoop) :
    receiveChunks chunks loop = loop := by
  induction chunks with
  | nil => rfl
  | cons chunk rest ih =>
    have later := ih fun c member => none c (List.mem_cons_of_mem _ member)
    have first := none chunk List.mem_cons_self
    obtain ⟨flag, value⟩ := chunk
    cases value with
    | data v => exact absurd rfl first
    | _ => exact later

/-- A packet without DATA leaves the receiver alone. -/
theorem handleDataPacket_noData (s : Socket) (now : Time) {packet : Packet}
    (none : ∀ chunk ∈ packet.chunks, chunk.type ≠ .data) (key : AssociationKey) (src : SockAddr)
    (acknowledgeImmediately : Bool) :
    s.handleDataPacket now packet key src acknowledgeImmediately = s := by
  have empty : packet.dataChunks = [] := by
    refine List.eq_nil_iff_forall_not_mem.mpr fun data member => ?_
    obtain ⟨⟨flag, value⟩, inside, is⟩ := List.mem_filterMap.mp member
    cases value with
    | data v => exact none _ inside rfl
    | _ => cases is
  unfold Socket.handleDataPacket Socket.emptyDataChunk
  rw [empty]
  simp only [List.find?_nil]
  cases found : s.find? key with
  | none => rfl
  | some a =>
    simp only
    split
    · rfl
    · unfold Socket.receiveData takeData
      rw [receiveChunks_noData none]
      simp [Socket.DataLoop.start]

/-- A packet led by an INIT is refused, answered at once, or handled as that INIT alone. -/
theorem handlePacket_init {s : Socket} {packet : Packet} {flag : BitVec 8} {init : InitChunkValue}
    {rest : List Chunk} (leads : packet.chunks = ⟨flag, .init init⟩ :: rest) (now : Time)
    (draws : Nat → Draws) (src : SockAddr) :
    Answered now (draws 0).secret s (s.handlePacket now draws packet src)
    ∨ Answered now (draws 0).secret (s.extendShutdown now (s.packetKey packet src))
      (s.handlePacket now draws packet src) := by
  unfold Socket.handlePacket
  simp only
  cases verdict : s.validateVerificationTag packet (s.packetKey packet src) with
  | discard => exact Or.inl (.refl s)
  | abortOotb => exact Or.inl (.reply s _ _ _)
  | abortInit => exact Or.inl (.reply s _ _ _)
  | shutdownCompleteOotb => exact Or.inl (.reply s _ _ _)
  | accept =>
    have alone : rest = [] := by
      unfold Socket.validateVerificationTag at verdict
      simp only [leads] at verdict
      split at verdict
      · split at verdict
        · next other => exact absurd rfl other
        · split at verdict <;> cases verdict
      · split at verdict
        · split at verdict
          · next single => exact single.2
          · cases verdict
        · next other => exact absurd rfl other
    subst alone
    right
    have kept : stripUnrecognized packet.chunks = ([⟨flag, .init init⟩], []) := by
      rw [leads]
      rfl
    have silent : ∀ chunk ∈ (Packet.mk packet.header [⟨flag, .init init⟩]).chunks,
        chunk.type ≠ .data := by
      intro chunk member
      rcases List.mem_singleton.mp member with rfl
      exact nofun
    have handled : s.acceptPacket now draws packet (s.packetKey packet src) src =
        (s.extendShutdown now (s.packetKey packet src)).handleInit now (draws 0) packet.header init
          (s.packetKey packet src) src := by
      simp only [Socket.acceptPacket, kept]
      exact handleDataPacket_noData _ now silent _ src false
    rw [handled]
    exact .handleInit _ _ now (draws 0) packet.header init src

/-- For every socket and every datagram led by an INIT: no association comes or goes, and
every one stays as it was but for its Tie-Tags, with the addresses it is found by, what
was received and its timers. What the INIT does is to queue packets, and to have the
authorizer draw a secret where its first one or a rotation is due. (The error counter and
T2-shutdown of an association in SHUTDOWN-SENT are left open.) -/
theorem init_leaves_unmoved (s : Socket) {data : Bytes} {packet : Packet} {flag : BitVec 8}
    {init : InitChunkValue} {rest : List Chunk} (decoded : decodePacket data = some packet)
    (leads : packet.chunks = ⟨flag, .init init⟩ :: rest) (now : Time) (draws : Nat → Draws)
    (src : SockAddr) :
    Unmoved now (draws 0).secret s (s.handleRecvPacket now draws data src) := by
  rw [Socket.handleRecvPacket, decoded]
  rcases handlePacket_init leads now draws src with answered | answered
  · exact answered.unmoved
  · exact .extendShutdown answered

/-- The INIT of a peer. -/
def peerInit : Packet := buildInit 5000#16 5000#16 7#32 100#32 0#32

theorem peerInit_decodes : ∃ data, decodePacket data = some peerInit := by
  have formed : ∀ chunk ∈ peerInit.chunks, chunk.WellFormed := by
    intro chunk member
    rcases List.mem_singleton.mp member with rfl
    trivial
  have fits : ∀ chunk ∈ peerInit.chunks, chunk.wireLength ≤ 65535 := by decide
  cases encoded : serializeSctpPacket peerInit with
  | none => cases encoded
  | some data =>
    refine ⟨data, ?_⟩
    rw [decodePacket_encoded encoded]
    exact deserializeSctpPacket_encoded encoded formed fits

/-- An INIT for an association that is open. -/
theorem peerInit_unmoved : ∃ σ data, System.Reached (fun _ _ => True) σ
    ∧ (σ.socket.find? Opened.key).isSome = true ∧ decodePacket data = some peerInit
    ∧ Unmoved 0 Opened.draws.secret σ.socket (σ.socket.handleRecvPacket 0 (fun _ => Opened.draws)
      data Opened.peer) := by
  obtain ⟨σ, reached, ends⟩ := Opened.exists_reached []
    (p := fun σ => (σ.socket.find? Opened.key).isSome) (by decide +kernel)
  obtain ⟨data, decoded⟩ := peerInit_decodes
  exact ⟨σ, data, reached, ends, decoded,
    init_leaves_unmoved σ.socket decoded rfl 0 (fun _ => Opened.draws) Opened.peer⟩

/-- An INIT for an association in SHUTDOWN-SENT restarts its T2-shutdown, and the
authorizer draws its first secret. -/
theorem init_restarts_shutdown : ∃ σ data a, System.Reached (fun _ _ => True) σ
    ∧ σ.socket.find? Opened.key = some a ∧ a.state = .shutdownSent
    ∧ decodePacket data = some peerInit
    ∧ (σ.socket.handleRecvPacket 0 (fun _ => Opened.draws) data Opened.peer).expirations.active.get?
        (timerOf Opened.key .t2Shutdown)
          ≠ σ.socket.expirations.active.get? (timerOf Opened.key .t2Shutdown)
    ∧ (σ.socket.handleRecvPacket 0 (fun _ => Opened.draws) data Opened.peer).cookieAuthorizer
        ≠ σ.socket.cookieAuthorizer := by
  obtain ⟨σ, reached, ends⟩ := Opened.exists_reached [.shutdown 0 Opened.key]
    (p := fun σ => ((σ.socket.find? Opened.key).any fun a => a.state == .shutdownSent)
      && ((σ.socket.handlePacket 0 (fun _ => Opened.draws) peerInit
        Opened.peer).expirations.active.get?
          (timerOf Opened.key .t2Shutdown) != σ.socket.expirations.active.get?
            (timerOf Opened.key .t2Shutdown)
      && (σ.socket.handlePacket 0 (fun _ => Opened.draws) peerInit
        Opened.peer).cookieAuthorizer.initialized != σ.socket.cookieAuthorizer.initialized))
        (by decide +kernel)
  rw [Bool.and_eq_true, Bool.and_eq_true, bne_iff_ne, bne_iff_ne] at ends
  obtain ⟨sent, restarted, drawn⟩ := ends
  obtain ⟨a, found, state⟩ := (Option.any_eq_true _ _).mp sent
  obtain ⟨data, decoded⟩ := peerInit_decodes
  refine ⟨σ, data, a, reached, found, beq_iff_eq.mp state, decoded, ?_⟩
  rw [Socket.handleRecvPacket, decoded]
  exact ⟨restarted, fun same => drawn (congrArg CookieAuth.initialized same)⟩

end SctpStack
