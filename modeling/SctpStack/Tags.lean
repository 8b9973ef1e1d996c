import SctpStack.Isolation
import SctpStack.Terms

/-!
# The tags chunks are handled under

The verification tag of a packet is checked against its first chunk, and then every chunk
of the packet is handled. A chunk has the right to change an association if it came under
the association's own tag, or it is one of the few that prove themselves in another way
(`Licensed`). The handlers of a packet, called one after the other (`Socket.turns`), keep
to that but for what comes behind a SHUTDOWN COMPLETE with the T bit set
(`disciplined_iff`).
-/

namespace SctpStack

/-! ## The handlers of a packet -/

/-- One call of a handler: the association it is called for, the chunks it acts on, whether
they lead the packet, and the socket before and after. -/
structure Turn where
  key : AssociationKey
  leads : Bool
  chunks : List Chunk
  before : Socket
  after : Socket

/-- The chunks the loop of a packet calls a handler for. -/
def dispatched (chunk : Chunk) : Bool :=
  match chunk.value with
  | .data _ | .cookieEcho _ | .unknown _ _ => false
  | _ => true

def isDataChunk (chunk : Chunk) : Bool := decide (chunk.type = .data)

namespace Socket

/-- The loop over the chunks of a packet. -/
def chunkTurns (now : Time) (draws : Nat → Draws) (header : CommonHeader) (key : AssociationKey)
    (src : SockAddr) :
    Nat → Bool → List Chunk → Socket → List Turn
  | _, _, [], _ => []
  | i, leads, chunk :: rest, s =>
    let after := s.handleChunk now (draws i) header key src chunk
    ⟨key, leads, if dispatched chunk then [chunk] else [], s, after⟩
      :: if chunk.type = .abort then [] else chunkTurns now draws header key src (i + 1) false
        rest after

/-- The loop, and what follows it unless it stopped at an ABORT: the DATA, and the report
of unrecognized chunks. -/
def loopTurns (now : Time) (draws : Nat → Draws) (packet : Packet) (key : AssociationKey)
    (src : SockAddr) (carriedCookieEcho : Bool) (i : Nat) (leads : Bool) (chunks : List Chunk)
    (s : Socket) : List Turn :=
  chunkTurns now draws packet.header key src i leads chunks s
    ++ match handleChunks now draws packet.header key src i chunks s with
      | (true, _) => []
      | (false, s₁) =>
        let (recognized, unrecognized) := stripUnrecognized packet.chunks
        let s₂ := s₁.handleDataPacket now ⟨packet.header, recognized⟩ key src carriedCookieEcho
        [⟨key, false, recognized.filter isDataChunk, s₁, s₂⟩,
          ⟨key, false, [], s₂, if unrecognized.isEmpty then s₂
            else s₂.reportUnrecognizedChunks packet.header key src unrecognized⟩]

/-- What follows the COOKIE ECHO of a packet, or all of a packet without one. What is done
for any packet counts as its first chunk's doing. -/
def restTurns (s : Socket) (now : Time) (draws : Nat → Draws) (packet : Packet)
    (key : AssociationKey) (src : SockAddr) (carriedCookieEcho : Bool) : List Turn :=
  ⟨key, true, packet.chunks.take 1, s, s.beforeChunks now packet key src⟩
    :: loopTurns now draws packet key src carriedCookieEcho (if carriedCookieEcho then 1 else 0)
      (!carriedCookieEcho && decide (packet.chunks.head?
        = (stripUnrecognized packet.chunks).1.head?))
      (chunksToHandle packet carriedCookieEcho) (s.beforeChunks now packet key src)

/-- The handlers a packet is given to. The answer to a packet that is refused is no
chunk's doing. -/
def turns (s : Socket) (now : Time) (draws : Nat → Draws) (packet : Packet) (src : SockAddr) :
    List Turn :=
  let key := s.packetKey packet src
  match s.validateVerificationTag packet key with
  | .accept =>
    match (stripUnrecognized packet.chunks).1 with
    | ⟨flag, .cookieEcho cookieData⟩ :: _ =>
      match s.handleCookieEcho now (draws 0) packet.header cookieData key src with
      | (accepted, key, after) =>
        ⟨key, true, [⟨flag, .cookieEcho cookieData⟩], s, after⟩
          :: if accepted then after.restTurns now draws packet key src true else []
    | _ => s.restTurns now draws packet key src false
  | _ => [⟨key, true, [], s, s.handlePacket now draws packet src⟩]

end Socket

/-- The turns take one socket to the other, each from where the one before left it. -/
inductive Chained : Socket → List Turn → Socket → Prop where
  | nil (s : Socket) : Chained s [] s
  | cons (turn : Turn) {rest : List Turn} {s' : Socket} :
      Chained turn.after rest s' → Chained turn.before (turn :: rest) s'

/-- What each turn keeps, they keep together. -/
theorem Chained.keeps {s s' : Socket} {turns : List Turn} (chained : Chained s turns s')
    (inv : Socket → Prop) (each : ∀ turn ∈ turns, inv turn.before → inv turn.after)
    (holds : inv s) : inv s' := by
  induction chained with
  | nil s => exact holds
  | cons turn _ ih =>
    exact ih (fun other member => each other (List.mem_cons_of_mem turn member))
      (each turn List.mem_cons_self holds)

section Chained

variable {now : Time} {draws : Nat → Draws} {packet : Packet} {key : AssociationKey}
    {src : SockAddr} {more : List Turn}
  {s' : Socket}

theorem chained_chunkTurns {header : CommonHeader} (chunks : List Chunk) (i : Nat) (leads : Bool)
    (s : Socket) (later : Chained (Socket.handleChunks now draws header key src i chunks s).2 more
      s') :
    Chained s (Socket.chunkTurns now draws header key src i leads chunks s ++ more) s' := by
  induction chunks generalizing i leads s with
  | nil => exact later
  | cons chunk rest ih =>
    unfold Socket.handleChunks at later
    unfold Socket.chunkTurns
    simp only at later ⊢
    by_cases stops : chunk.type = .abort
    · rw [if_pos stops] at later ⊢
      exact .cons ⟨key, leads, _, s, _⟩ later
    · rw [if_neg stops] at later ⊢
      exact .cons ⟨key, leads, _, s, _⟩ (ih _ _ _ later)

theorem chained_restTurns (s : Socket) (carried : Bool) :
    Chained s (s.restTurns now draws packet key src carried)
      (s.handleRest now draws packet.header key src (stripUnrecognized packet.chunks).1
        (Socket.chunksToHandle packet carried) (stripUnrecognized packet.chunks).2 carried) := by
  rw [handleRest_eq]
  unfold Socket.restTurns Socket.loopTurns
  refine .cons ⟨key, true, _, s, _⟩ (chained_chunkTurns _ _ _ _ ?_)
  simp only [← Socket.afterChunks.eq_1]
  cases s.afterChunks now draws packet key src carried with
  | mk stopped s₁ =>
    cases stopped with
    | true => exact .nil s₁
    | false => exact .cons ⟨key, false, _, s₁, _⟩ (.cons ⟨key, false, [], _, _⟩ (.nil _))

/-- A packet that passed the tag check and does not lead with a COOKIE ECHO. -/
theorem turns_plain {s : Socket}
    (verdict : s.validateVerificationTag packet (s.packetKey packet src) = .accept)
    (plain : ∀ flag cookieData rest, (stripUnrecognized packet.chunks).1
      ≠ ⟨flag, .cookieEcho cookieData⟩ :: rest) :
    s.turns now draws packet src = s.restTurns now draws packet (s.packetKey packet src)
      src false := by
  unfold Socket.turns
  simp only [verdict]

/-- The handlers do all that is done for a packet. -/
theorem chained_turns (s : Socket) :
    Chained s (s.turns now draws packet src) (s.handlePacket now draws packet src) := by
  by_cases verdict : s.validateVerificationTag packet (s.packetKey packet src) = .accept
  · by_cases leads : ∃ flag cookieData rest, (stripUnrecognized packet.chunks).1
      = ⟨flag, .cookieEcho cookieData⟩ :: rest
    · obtain ⟨flag, cookieData, rest, chunks⟩ := leads
      have tail : Socket.chunksToHandle packet true = rest := by
        simp [Socket.chunksToHandle, chunks]
      unfold Socket.turns Socket.handlePacket Socket.acceptPacket
      simp only [verdict, chunks]
      cases outcome : s.handleCookieEcho now (draws 0) packet.header cookieData
        (s.packetKey packet src) src with
      | mk accepted after =>
        obtain ⟨key, s₁⟩ := after
        cases accepted with
        | false => exact .cons ⟨key, true, _, s, s₁⟩ (.nil s₁)
        | true =>
          have later := @chained_restTurns now draws packet key src s₁ true
          rw [tail, chunks] at later
          exact .cons ⟨key, true, _, s, s₁⟩ later
    · have plain : ∀ flag cookieData rest, (stripUnrecognized packet.chunks).1
        ≠ ⟨flag, .cookieEcho cookieData⟩ :: rest :=
        fun flag cookieData rest chunks => leads ⟨flag, cookieData, rest, chunks⟩
      rw [turns_plain verdict plain, handlePacket_plain verdict plain]
      exact chained_restTurns s false
  · unfold Socket.turns
    simp only
    cases is : s.validateVerificationTag packet (s.packetKey packet src) with
    | accept => exact absurd is verdict
    | _ => exact .cons ⟨_, true, [], s, _⟩ (.nil _)

end Chained

/-! ## The discipline -/

/-- The TCB, a timer or the received data of the association under `key` changed. -/
def Touched (key : AssociationKey) (s s' : Socket) : Prop :=
  s'.find? key ≠ s.find? key
    ∨ (∃ timer : ExpirationKey, timer.location = key ∧ s'.expirations.active.get? timer
      ≠ s.expirations.active.get? timer)
    ∨ s'.receives.pending.get? key ≠ s.receives.pending.get? key

/-- What gives a chunk of a packet the right to change an association `a`. -/
inductive Licensed (s : Socket) (now : Time) (packet : Packet) (src : SockAddr) (leads : Bool)
    (chunk : Chunk) (a : Association) : Prop where
  | own : packet.header.verificationTag = a.thisVerTag → Licensed s now packet src leads chunk a
  /-- The peer no longer has the association, and reflects the tag it was given. -/
  | reflected : leads = true → chunk.type = .abort ∨ chunk.type = .shutdownComplete →
      (chunk.flag &&& chunkFlagTBit != 0#8) = true → a.peerVerTag ≠ 0#32 →
        packet.header.verificationTag = a.peerVerTag →
      Licensed s now packet src leads chunk a
  | init : packet.chunks = [chunk] → chunk.type = .init → packet.header.verificationTag = 0#32 →
      Licensed s now packet src leads chunk a
  /-- The chunk is a COOKIE ECHO, or behind one, whose cookie verifies. -/
  | cookie (flag : BitVec 8) (cookieData : Bytes) (rest : List Chunk) (cookie : StateCookie) :
      (stripUnrecognized packet.chunks).1 = ⟨flag, .cookieEcho cookieData⟩ :: rest →
      s.cookieAuthorizer.verify now cookieData packet.header src = .valid cookie →
      Licensed s now packet src leads chunk a

/-- The chunks that are never acted on without a licence. -/
def actedOn (chunk : Chunk) : Bool :=
  decide (chunk.type = .data ∨ chunk.type = .sack ∨ chunk.type = .opError
    ∨ chunk.type = .heartbeatAck
    ∨ chunk.type = .shutdown ∨ chunk.type = .cookieAck)

/-- No chunk changes an association without a licence, and some are not even looked at. -/
def Disciplined (s : Socket) (now : Time) (draws : Nat → Draws) (packet : Packet) (src : SockAddr) :
    Prop :=
  ∀ turn ∈ s.turns now draws packet src, ∀ k a, turn.before.find? k = some a →
    (Touched k turn.before turn.after →
      turn.chunks ≠ [] ∧ ∀ chunk ∈ turn.chunks, Licensed s now packet src turn.leads chunk a)
    ∧ (k = turn.key → ∀ chunk ∈ turn.chunks, actedOn chunk = true →
      Licensed s now packet src turn.leads chunk a)

/-- An INIT that gives an association its Tie-Tags. -/
def ties (a : Association) (src : SockAddr) (init : InitChunkValue) : Bool :=
  let recognized := (scanInit init).recognized
  decide (init.initiateTag ≠ 0#32 ∧ init.outStreams ≠ 0#16 ∧ init.inStreams ≠ 0#16)
    && (findParameter recognized paramHostNameAddress).isNone
    && decide (a.state ≠ .cookieWait ∧ a.state ≠ .shutdownAckSent ∧ a.localTieTag = 0#32)
    && (transportAddresses src recognized).all fun address => (findPath a address).isSome

/-- Whether the handler of a chunk acts on an association in its state. -/
def acts (a : Association) (src : SockAddr) (chunk : Chunk) : Bool :=
  match chunk.value with
  | .abort _ => true
  | .shutdownAck => decide (a.state = .shutdownSent ∨ a.state = .shutdownAckSent)
  | .initAck _ => decide (a.state = .cookieWait)
  | .init init => ties a src init
  | _ => actedOn chunk

/-- A SHUTDOWN COMPLETE with the T bit set leads the packet, under the tag of the peer
alone, and does not end the association. -/
def idleComplete (s : Socket) (packet : Packet) (a : Association) : Bool :=
  packet.chunks.head?.any (fun first => decide (first.type = .shutdownComplete)
    && (first.flag &&& chunkFlagTBit != 0#8)) && decide (packet.header.desPort = s.localAddress.port
    ∧ a.peerVerTag ≠ 0#32
      ∧ packet.header.verificationTag = a.peerVerTag ∧ packet.header.verificationTag ≠ a.thisVerTag
      ∧ a.state ≠ .shutdownAckSent)

/-- Nothing that acts comes behind such a SHUTDOWN COMPLETE. -/
def NothingBehind (s : Socket) (packet : Packet) (src : SockAddr) : Prop :=
  ∀ a, s.find? (s.packetKey packet src) = some a → idleComplete s packet a = true →
    ∀ chunk ∈ (stripUnrecognized packet.chunks).1.tail, acts a src chunk = false

/-! ## What touches nothing -/

/-- No association, no timer and nothing received changed. -/
structure Untouched (s s' : Socket) : Prop where
  tcbs : ∀ k, s'.find? k = s.find? k
  expirations : s'.expirations = s.expirations
  receives : s'.receives = s.receives

namespace Untouched

variable {s s' s'' : Socket} {key : AssociationKey}

theorem refl (s : Socket) : Untouched s s := ⟨fun _ => rfl, rfl, rfl⟩

theorem trans (first : Untouched s s') (second : Untouched s' s'') : Untouched s s'' :=
  ⟨fun k => (second.tcbs k).trans (first.tcbs k), second.expirations.trans first.expirations,
    second.receives.trans first.receives⟩

theorem not_touched (untouched : Untouched s s') : ¬Touched key s s' := by
  rintro (tcb | ⟨timer, -, changed⟩ | received)
  · exact tcb (untouched.tcbs key)
  · exact changed (by rw [untouched.expirations])
  · exact received (by rw [untouched.receives])

theorem reply (s : Socket) (key : AssociationKey) (destination : SockAddr) (packet : Packet) :
    Untouched s (s.reply key destination packet) := ⟨fun _ => rfl, rfl, rfl⟩

theorem reportUnrecognizedChunks (s : Socket) (header : CommonHeader) (key : AssociationKey)
    (src : SockAddr) (causes : List ErrorCause) :
    Untouched s (s.reportUnrecognizedChunks header key src causes) := by
  unfold Socket.reportUnrecognizedChunks
  split
  · exact refl s
  · split
    · exact refl s
    · simp only
      split
      · exact refl s
      · exact reply s key _ _

theorem handleDataPacket {packet : Packet} (without : packet.chunks.filter isDataChunk = [])
    (s : Socket) (now : Time) (key : AssociationKey) (src : SockAddr) (immediately : Bool) :
    Untouched s (s.handleDataPacket now packet key src immediately) := by
  have none : ∀ chunk ∈ packet.chunks, chunk.type ≠ .data := fun chunk member is =>
    List.filter_eq_nil_iff.mp without chunk member (decide_eq_true is)
  rw [handleDataPacket_noData s now none]
  exact refl s

/-- A chunk the loop calls no handler for. -/
theorem handleChunk {chunk : Chunk} (skipped : dispatched chunk = false) (s : Socket) (now : Time)
    (draws : Draws) (header : CommonHeader) (key : AssociationKey) (src : SockAddr) :
    Untouched s (s.handleChunk now draws header key src chunk) := by
  obtain ⟨flag, value⟩ := chunk
  cases value with
  | data _ | cookieEcho _ | unknown _ _ => exact refl s
  | _ => cases skipped

end Untouched

/-! ## The own tag of an association stays -/

/-- The association under the key has this tag of its own, if there is one. -/
def Owned (key : AssociationKey) (tag : Tag) (s : Socket) : Prop :=
  ∀ a, s.find? key = some a → a.thisVerTag = tag

namespace Owned

variable {key : AssociationKey} {tag : Tag} {s s' : Socket}

theorem lasting (owned : Owned key tag s) (lasting : Lasting (fun _ => Stays) s s') :
    Owned key tag s' := by
  intro b found
  obtain ⟨a, before, stays⟩ := lasting.before found
  exact (congrArg Terms.thisVerTag stays.terms :).trans (owned a before)

theorem acts (acts : Acts s s') (owned : Owned key tag s) : Owned key tag s' := by
  refine Acts.keeps (fun s s' move owned => ?_) acts owned
  rcases move.kept with lasting | ⟨other, s₁, gone, lasting⟩
  · exact owned.lasting lasting
  · refine Owned.lasting (fun a found => ?_) lasting
    rw [gone.find?] at found
    split at found
    · cases found
    · exact owned a found

theorem handleChunk (owned : Owned key tag s) (now : Time) (draws : Draws) (header : CommonHeader)
    (src : SockAddr) (chunk : Chunk) :
    Owned key tag (s.handleChunk now draws header key src chunk) := by
  obtain ⟨flag, value⟩ := chunk
  cases value with
  | initAck v =>
    show Owned key tag (s.handleInitAck header v key src)
    rcases handleInitAck_cases s header v key src with moved | ⟨a, cookie, found, -, -, accepted⟩
    · exact owned.acts moved
    · obtain ⟨s₁, destination, errors, same, tcbs, -⟩ := acceptInitAck_eq found header v src cookie
      rw [accepted, same]
      intro b after
      simp only [Socket.find?_reply, Socket.find?_removeRetransmissionsOfType,
        Socket.find?_cancelExpiration, tcbs, if_true, Option.some.injEq] at after
      rw [← after, ← owned a found]
      exact (congrArg Association.thisVerTag (withPaths_only a _) :)
  | opError causes =>
    show Owned key tag (s.handleError causes key)
    rcases handleError_cases s causes key with moved | ⟨a, staleness, found, -, retried⟩
    · exact owned.acts moved
    · rw [retried]
      intro b after
      rw [Socket.retryHandshake, Socket.find?_enqueuePacket,
        Socket.find?_removeRetransmissionsOfType] at after
      simp only [Socket.find?_cancelExpiration, Socket.find?_setAssociation, if_true,
        Option.some.injEq] at after
      rw [← after]
      exact owned a found
  | _ => exact owned.acts (Acts.handleChunk s key now draws header src nofun nofun)

theorem handleDataPacket (owned : Owned key tag s) (now : Time) (packet : Packet) (src : SockAddr)
    (immediately : Bool) :
    Owned key tag (s.handleDataPacket now packet key src immediately) := by
  rcases handleDataPacket_cases s now packet key src immediately with moved | ⟨a, found, -, same,
    -, taken⟩
  · exact owned.acts moved
  · rw [same]
    intro b after
    obtain ⟨a', before, here⟩ := taken.before after
    exact (congrArg Essence.thisVerTag here.essence :).trans (owned a' before)

end Owned

/-! ## Turns -/

theorem Isolated.not_touched {key k : AssociationKey} {s s' : Socket} (isolated : Isolated key s s')
    (apart : k ≠ key) :
    ¬Touched k s s' := by
  rintro (tcb | ⟨timer, location, changed⟩ | received)
  · exact tcb (isolated.tcbs k apart)
  · exact changed (isolated.timers timer fun same => apart (location.symm.trans same))
  · exact received (isolated.received k apart)

/-- What the chunks of a turn show. -/
def Turn.shows (turn : Turn) (now : Time) (packet : Packet) (src : SockAddr) : Evidence → Prop
  | .acked info => ∃ flag, ⟨flag, .heartbeatAck info⟩ ∈ turn.chunks
  | .echoed now' cookieData header src' => (now' = now ∧ header = packet.header ∧ src' = src)
      ∧ ∃ flag, ⟨flag, .cookieEcho cookieData⟩ ∈ turn.chunks
  | .spoiled _ _ | .took _ _ | .met _ _ _ _ | .probed => True

/-- DATA may be wrong in any turn, and what is probed may change. -/
def inAnyTurn : Evidence → Prop
  | .spoiled _ _ | .took _ _ | .met _ _ _ _ | .probed => True
  | _ => False

/-- What a handler does, it does for its association; and where no chunk is acted on,
nothing is touched. -/
structure Turn.Sane (turn : Turn) (now : Time) (packet : Packet) (src : SockAddr) : Prop where
  standing : Standing turn.before
  led : Led (turn.shows now packet src) inAnyTurn turn.key turn.before turn.after
  blank : turn.chunks = [] → Untouched turn.before turn.after

theorem Turn.Sane.deeds {turn : Turn} {now : Time} {packet : Packet} {src : SockAddr}
    (sane : turn.Sane now packet src) :
    Deeds (fun _ => True) turn.key turn.before turn.after :=
  (sane.led.mono (fun _ _ => trivial) fun _ _ => trivial).deeds fun _ => id

theorem standing_handleChunk {s : Socket} (standing : Standing s) (now : Time) (draws : Draws)
    (header : CommonHeader) (key : AssociationKey) (src : SockAddr) (chunk : Chunk) :
    Standing (s.handleChunk now draws header key src chunk) := by
  have led : Led (fun _ => True) (fun _ => True) key s _ :=
    Deeds.handleChunk s key now draws header src chunk (fun _ _ => trivial) fun _ => trivial
  exact Deeds.standing (led.deeds fun _ => id) standing

section Turns

variable {now : Time} {draws : Nat → Draws} {packet : Packet} {key : AssociationKey}
    {src : SockAddr} {turn : Turn}

/-- It is enough to look at the association a handler is called for. -/
theorem Turn.Sane.disciplined {s : Socket} (sane : turn.Sane now packet src)
    (licensed : ∀ a, turn.before.find? turn.key = some a → ∀ chunk ∈ turn.chunks,
      Touched turn.key turn.before turn.after ∨ actedOn chunk = true →
        Licensed s now packet src turn.leads chunk a)
    (k : AssociationKey) (a : Association) (found : turn.before.find? k = some a) :
    (Touched k turn.before turn.after →
      turn.chunks ≠ [] ∧ ∀ chunk ∈ turn.chunks, Licensed s now packet src turn.leads chunk a)
    ∧ (k = turn.key → ∀ chunk ∈ turn.chunks, actedOn chunk = true →
      Licensed s now packet src turn.leads chunk a) := by
  constructor
  · intro touched
    have here : k = turn.key := by
      by_contra apart
      exact (Deeds.isolated sane.deeds sane.standing).not_touched apart touched
    subst here
    exact ⟨fun none => (sane.blank none).not_touched touched, fun chunk member =>
      licensed a found chunk member (Or.inl touched)⟩
  · rintro rfl chunk member acted
    exact licensed a found chunk member (Or.inr acted)

/-- What every chunk keeps, each of their handlers finds. -/
theorem mem_chunkTurns (inv : Socket → Prop) {header : CommonHeader} {chunks : List Chunk} {i : Nat}
    {leads : Bool} {s : Socket} (each : ∀ s draws, ∀ chunk ∈ chunks, inv s →
      inv (s.handleChunk now draws header key src chunk))
    (holds : inv s) (member : turn ∈ Socket.chunkTurns now draws header key src i leads chunks s) :
    ∃ chunk ∈ chunks, ∃ draws₁ : Draws, inv turn.before ∧ turn.key = key
      ∧ turn.chunks = (if dispatched chunk then [chunk] else [])
      ∧ turn.after = turn.before.handleChunk now draws₁ header key src chunk := by
  induction chunks generalizing i leads s with
  | nil => cases member
  | cons chunk rest ih =>
    have first := fun s draws => each s draws chunk List.mem_cons_self
    have others := fun s draws chunk' member =>
      each s draws chunk' (List.mem_cons_of_mem chunk member)
    unfold Socket.chunkTurns at member
    rcases List.mem_cons.mp member with here | later
    · subst here
      exact ⟨chunk, List.mem_cons_self, draws i, holds, rfl, rfl, rfl⟩
    · split at later
      · cases later
      · obtain ⟨chunk', inside, rest⟩ := ih others (first s (draws i) holds) later
        exact ⟨chunk', List.mem_cons_of_mem _ inside, rest⟩

/-- The handlers after the first: each finds what every chunk keeps, and it acts on a
chunk, on the DATA of the packet, or on nothing. -/
theorem mem_loopTurns (inv : Socket → Prop) {carried : Bool} {chunks : List Chunk} {i : Nat}
    {leads : Bool} {s : Socket} (each : ∀ s draws, ∀ chunk ∈ chunks, inv s →
      inv (s.handleChunk now draws packet.header key src chunk))
    (data : ∀ s, inv s → inv (s.handleDataPacket now ⟨packet.header,
      (stripUnrecognized packet.chunks).1⟩ key src carried))
    (holds : inv s) (standing : Standing s)
    (member : turn ∈ Socket.loopTurns now draws packet key src carried i leads chunks s) :
    turn.Sane now packet src ∧ turn.key = key ∧ inv turn.before
      ∧ ((∃ chunk ∈ chunks, ∃ draws₁ : Draws, turn.chunks
        = (if dispatched chunk then [chunk] else [])
            ∧ turn.after = turn.before.handleChunk now draws₁ packet.header key src chunk)
        ∨ turn.chunks = (stripUnrecognized packet.chunks).1.filter isDataChunk
        ∨ turn.chunks = []) := by
  have both : ∀ (s : Socket) draws, ∀ chunk ∈ chunks, inv s ∧ Standing s →
      inv (s.handleChunk now draws packet.header key src chunk)
      ∧ Standing (s.handleChunk now draws packet.header key src chunk) := by
    intro s draws chunk inside here
    exact ⟨each s draws chunk inside here.1,
      standing_handleChunk here.2 now draws packet.header key src chunk⟩
  unfold Socket.loopTurns at member
  rcases List.mem_append.mp member with loop | rest
  · obtain ⟨chunk, inside, draws₁, here, rfl, acted, after⟩ :=
      mem_chunkTurns (fun s => inv s ∧ Standing s) both ⟨holds, standing⟩ loop
    refine ⟨⟨here.2, ?_, fun none => ?_⟩, rfl, here.1, Or.inl ⟨chunk, inside, draws₁, acted, after⟩⟩
    · rw [after]
      refine Deeds.handleChunk _ _ now draws₁ packet.header src chunk (fun info value =>
        ⟨chunk.flag, ?_⟩) fun _ => trivial
      obtain ⟨flag, value'⟩ := chunk
      cases value
      rw [acted]
      exact List.mem_singleton_self _
    · rw [after]
      rw [acted] at none
      refine .handleChunk ?_ _ now draws₁ packet.header _ src
      split at none
      · cases none
      · next skipped => exact Bool.eq_false_iff.mpr skipped
  · have handled : inv (Socket.handleChunks now draws packet.header key src i chunks s).2
        ∧ Standing (Socket.handleChunks now draws packet.header key src i chunks s).2 :=
      handleChunks_keeps (fun s draws chunk inside here => both s draws chunk inside here)
        i ⟨holds, standing⟩
    cases after : Socket.handleChunks now draws packet.header key src i chunks s with
    | mk stopped s₁ =>
      rw [after] at rest handled
      cases stopped with
      | true => cases rest
      | false =>
        have taken : Deeds inAnyTurn key s₁ _ := .handleDataPacket s₁ key now
          ⟨packet.header, (stripUnrecognized packet.chunks).1⟩ src carried ⟨fun _ _ _ _ => trivial,
          fun _ _ _ _ => trivial⟩
        rcases List.mem_cons.mp rest with here | report
        · subst here
          exact ⟨⟨handled.2, .of_deeds taken,
            fun none => .handleDataPacket none s₁ now key src carried⟩, rfl, handled.1,
              Or.inr (Or.inl rfl)⟩
        · rw [List.mem_singleton] at report
          subst report
          refine ⟨⟨Deeds.standing taken handled.2, ?_, fun _ => ?_⟩, rfl, data s₁ handled.1,
            Or.inr (Or.inr rfl)⟩
          · simp only
            split
            · exact .of_deeds .refl
            · exact .of_deeds (.reportUnrecognizedChunks _ key packet.header src _)
          · simp only
            split
            · exact .refl _
            · exact .reportUnrecognizedChunks _ packet.header key src _

/-- The same for all handlers past a COOKIE ECHO. -/
theorem mem_restTurns (inv : Socket → Prop) {s : Socket} {carried : Bool}
    (nonempty : packet.chunks ≠ [])
    (each : ∀ s draws chunk, inv s → inv (s.handleChunk now draws packet.header key src chunk))
    (data : ∀ s, inv s → inv (s.handleDataPacket now ⟨packet.header,
    (stripUnrecognized packet.chunks).1⟩ key src carried)) (holds : inv s)
    (prepared : inv (s.beforeChunks now packet key src)) (standing : Standing s)
    (member : turn ∈ s.restTurns now draws packet key src carried) :
    turn.Sane now packet src ∧ turn.key = key ∧ inv turn.before ∧ ∀ chunk ∈ turn.chunks, chunk
      ∈ packet.chunks := by
  have before : Deeds inAnyTurn key s (s.beforeChunks now packet key src) :=
    .beforeChunks s key now packet src
  have recognized := stripUnrecognized_sublist packet.chunks
  rcases List.mem_cons.mp member with lead | later
  · subst lead
    refine ⟨⟨standing, .of_deeds before, fun none => ?_⟩, rfl, holds, fun chunk =>
      List.mem_of_mem_take⟩
    exact absurd ((List.take_eq_nil_iff.mp none).resolve_left nofun) nonempty
  · obtain ⟨sane, here, found, chunk | data | none⟩ :=
      mem_loopTurns inv (fun s draws chunk _ => each s draws chunk) data prepared
        (Deeds.standing before standing) later
    · obtain ⟨chunk, inside, -, acted, -⟩ := chunk
      refine ⟨sane, here, found, fun chunk' member => ?_⟩
      rw [acted] at member
      split at member
      · rw [List.mem_singleton.mp member]
        unfold Socket.chunksToHandle at inside
        split at inside
        · exact recognized.subset (List.mem_of_mem_tail inside)
        · exact recognized.subset inside
      · cases member
    · refine ⟨sane, here, found, fun chunk member => ?_⟩
      rw [data] at member
      exact recognized.subset (List.mem_of_mem_filter member)
    · refine ⟨sane, here, found, fun chunk member => ?_⟩
      rw [none] at member
      cases member

end Turns

/-! ## Packets that are licensed as a whole -/

section Licences

variable {s : Socket} {now : Time} {draws : Nat → Draws} {packet : Packet} {key : AssociationKey}
    {src : SockAddr}

/-- The association has the tag of the packet when its chunks are handled. -/
theorem restTurns_own {turn : Turn} {s' : Socket} {carried : Bool} (nonempty : packet.chunks ≠ [])
    (standing : Standing s') (owned : Owned key packet.header.verificationTag s')
    (member : turn ∈ s'.restTurns now draws packet key src carried) :
    turn.Sane now packet src ∧ ∀ a, turn.before.find? turn.key = some a → ∀ chunk ∈ turn.chunks,
      Licensed s now packet src turn.leads chunk a := by
  obtain ⟨sane, rfl, here, -⟩ := mem_restTurns (Owned key packet.header.verificationTag) nonempty
    (fun s draws chunk owned => owned.handleChunk now draws packet.header src chunk)
    (fun s owned => owned.handleDataPacket now _ src carried) owned
    (owned.acts (.quiet (.beforeChunks s' key now packet src))) standing member
  exact ⟨sane, fun a found _ _ => .own (here a found).symm⟩

/-- Whatever the chunks behind a COOKIE ECHO find. -/
theorem restTurns_sane {turn : Turn} {s' : Socket} {carried : Bool} (nonempty : packet.chunks ≠ [])
    (standing : Standing s') (member : turn ∈ s'.restTurns now draws packet key src carried) :
    turn.Sane now packet src ∧ ∀ chunk ∈ turn.chunks, chunk ∈ packet.chunks := by
  obtain ⟨sane, -, -, inside⟩ := mem_restTurns (fun _ => True) nonempty (fun _ _ _ _ => trivial)
    (fun _ _ => trivial) trivial trivial standing member
  exact ⟨sane, inside⟩

theorem verify_stale_tag {auth : CookieAuth} {bytes : Bytes} {header : CommonHeader}
    {cookie : StateCookie} {staleness : BitVec 32}
    (verified : auth.verify now bytes header src = .stale cookie staleness) :
    cookie.localVerTag = header.verificationTag := by
  unfold CookieAuth.verify at verified
  split at verified
  · cases verified
  · split at verified
    · cases verified
    · simp only at verified
      split at verified
      · cases verified
      · split at verified
        · cases verified
        · next fits =>
          have tag := Decidable.not_not.mp fun differs => fits (Or.inr (Or.inr (Or.inl differs)))
          split at verified
          · cases verified
            exact tag
          · split at verified
            · cases verified
              exact tag
            · cases verified

theorem untouched_sendStaleCookieError (s : Socket) (header : CommonHeader) (key : AssociationKey)
    (destination : SockAddr) (cookie : StateCookie) (staleness : BitVec 32) :
    Untouched s (s.sendStaleCookieError header key destination cookie staleness) :=
      ⟨fun _ => rfl, rfl, rfl⟩

/-- A COOKIE ECHO touches nothing and the packet goes no further, or the cookie verified,
or the tag of the packet is that of the association. -/
theorem handleCookieEcho_tag (s : Socket) (now : Time) (draws : Draws) (header : CommonHeader)
    (cookieData : Bytes) (key : AssociationKey) (src : SockAddr) :
    ((s.handleCookieEcho now draws header cookieData key src).1 = false
      ∧ Untouched s (s.handleCookieEcho now draws header cookieData key src).2.2)
    ∨ (∃ cookie, s.cookieAuthorizer.verify now cookieData header src = .valid cookie)
    ∨ Owned (s.handleCookieEcho now draws header cookieData key src).2.1 header.verificationTag s
      ∧ Owned (s.handleCookieEcho now draws header cookieData key src).2.1 header.verificationTag
        (s.handleCookieEcho now draws header cookieData key src).2.2 := by
  unfold Socket.handleCookieEcho
  cases verified : s.cookieAuthorizer.verify now cookieData header src with
  | valid cookie => exact Or.inr (Or.inl ⟨cookie, rfl⟩)
  | stale cookie staleness =>
    simp only
    cases found : s.find? (s.associationKeyFor (cookieKey cookie)) with
    | none => exact Or.inl ⟨rfl, untouched_sendStaleCookieError s _ _ _ _ _⟩
    | some tcb =>
      simp only
      split
      · next matching =>
        have owned : Owned (s.associationKeyFor (cookieKey cookie)) header.verificationTag s := by
          intro a here
          rw [found, Option.some.injEq] at here
          rw [← here, ← matching.1, verify_stale_tag verified]
        refine Or.inr (Or.inr ⟨owned, ?_⟩)
        rcases (acceptCookie_matching now draws header src found cookie matching.1 matching.2).2
          with acts | ⟨-, same⟩
        · exact owned.acts acts
        · intro a here
          rw [same] at here
          exact owned a here
      · exact Or.inl ⟨rfl, untouched_sendStaleCookieError s _ _ _ _ _⟩
  | _ => exact Or.inl ⟨rfl, .refl s⟩

/-- What a packet has to be like to pass the tag check. -/
theorem accept_cases (verdict : s.validateVerificationTag packet key = .accept) :
    ∃ first rest, packet.chunks = first :: rest ∧ packet.header.desPort = s.localAddress.port
      ∧ ((first.type = .init ∧ rest = [] ∧ packet.header.verificationTag = 0#32)
        ∨ first.type = .cookieEcho
        ∨ ∃ a, s.find? key = some a ∧ (packet.header.verificationTag = a.thisVerTag
          ∨ (first.type = .abort ∨ first.type = .shutdownComplete)
          ∧ (first.flag &&& chunkFlagTBit != 0#8) = true
            ∧ a.peerVerTag ≠ 0#32 ∧ packet.header.verificationTag = a.peerVerTag)) := by
  have refused : ootbResponse packet ≠ .accept := by
    unfold ootbResponse
    repeat' split
    all_goals exact nofun
  unfold Socket.validateVerificationTag at verdict
  split at verdict
  · cases verdict
  · next first rest chunks =>
    refine ⟨first, rest, chunks, ?_⟩
    simp only at verdict
    split at verdict
    · split at verdict
      · exact absurd verdict refused
      · split at verdict <;> cases verdict
    · next port =>
      refine ⟨Decidable.not_not.mp port, ?_⟩
      split at verdict
      · next init =>
        split at verdict
        · next alone => exact Or.inl ⟨init, alone.2, alone.1⟩
        · cases verdict
      · split at verdict
        · next echo => exact Or.inr (Or.inl echo)
        · cases found : s.find? key with
          | none =>
            rw [found] at verdict
            exact absurd verdict refused
          | some a =>
            rw [found] at verdict
            refine Or.inr (Or.inr ⟨a, rfl, ?_⟩)
            simp only at verdict
            split at verdict
            · next ends =>
              split at verdict
              · next bit =>
                split at verdict
                · next fits => exact Or.inr ⟨ends, bit, fits⟩
                · cases verdict
              · split at verdict
                · next fits => exact Or.inl fits.2
                · cases verdict
            · split at verdict
              · exact absurd verdict refused
              · split at verdict
                · next own => exact Or.inl own
                · cases verdict

end Licences

/-! ## Behind a SHUTDOWN COMPLETE -/

section Behind

variable {s : Socket} {now : Time} {draws : Nat → Draws} {packet : Packet} {key : AssociationKey}
    {src : SockAddr}
  {a b : Association}

theorem untouched_sendInitAck (s : Socket) (now : Time) (draws : Draws) (header : CommonHeader)
    (init : InitChunkValue) (key : AssociationKey) (src : SockAddr) (answer : InitAnswer) :
    Untouched s (s.sendInitAck now draws header init key src answer) := by
  unfold Socket.sendInitAck
  simp only
  split
  · exact ⟨fun _ => rfl, rfl, rfl⟩
  · exact ⟨fun _ => rfl, rfl, rfl⟩

theorem untouched_init (found : s.find? key = some a) {init : InitChunkValue}
    (closing : a.state ≠ .shutdownAckSent) (idle : ties a src init = false) (draws : Draws)
    (header : CommonHeader) :
    Untouched s (s.handleInit now draws header init key src) := by
  unfold Socket.handleInit
  split
  · exact .reply s key _ _
  · next tag =>
    split
    · exact .reply s key _ _
    · next streams =>
      rw [not_or] at streams
      split
      · exact .reply s key _ _
      · next named =>
        unfold Socket.answerInit
        rw [found]
        simp only
        rw [if_neg closing]
        split
        · exact untouched_sendInitAck s now draws header init key src _
        · next waits =>
          split
          · exact .reply s key _ _
          · next added =>
            -- All addresses are known, so the association has Tie-Tags already.
            have known : (transportAddresses src (scanInit init).recognized).all (fun address =>
                (findPath a address).isSome)
                = true := by
              rw [Bool.not_eq_true', Bool.not_eq_false, List.isEmpty_iff, List.filter_eq_nil_iff]
                at added
              refine List.all_eq_true.mpr fun address member => ?_
              have := added address member
              rw [Bool.not_eq_true, Option.isNone_eq_false_iff] at this
              exact this
            have tied : a.localTieTag ≠ 0#32 := by
              intro zero
              have : ties a src init = true := by
                simp [ties, tag, streams.1, streams.2, named, waits, closing, zero]
                exact fun address member => List.all_eq_true.mp known address member
              rw [this] at idle
              cases idle
            have same : withTieTags draws a = a := if_neg tied
            rw [same]
            have kept : Untouched s (s.setAssociation key a) := by
              refine ⟨fun k => ?_, rfl, rfl⟩
              rw [Socket.find?_setAssociation]
              split
              · next here => rw [here, found]
              · rfl
            exact kept.trans (untouched_sendInitAck _ now draws header init key src _)

/-- A chunk that does not act on the association touches nothing. -/
theorem untouched_idle (found : s.find? key = some a) (closing : a.state ≠ .shutdownAckSent)
    {chunk : Chunk} (idle : acts a src chunk = false ∨ dispatched chunk = false) (now : Time)
    (draws : Draws) (header : CommonHeader) :
    Untouched s (s.handleChunk now draws header key src chunk) := by
  rcases idle with idle | skipped
  · obtain ⟨flag, value⟩ := chunk
    unfold Socket.handleChunk
    cases value with
    | init init => exact untouched_init found closing idle draws header
    | initAck initAck =>
      have waits : a.state ≠ .cookieWait := of_decide_eq_false idle
      simp only [Socket.handleInitAck, found, if_pos waits]
      exact .refl s
    | heartbeat info =>
      simp only [Socket.handleHeartbeat, found]
      split
      · exact .refl s
      · exact .reply s key _ _
    | shutdownAck =>
      have open_ := not_or.mp (of_decide_eq_false idle)
      simp only [Socket.handleShutdownAck, found, if_pos (And.intro open_.1 open_.2)]
      exact .refl s
    | shutdownComplete =>
      simp only [Socket.handleShutdownComplete, found, if_pos closing]
      exact .refl s
    | cookieEcho _ | unknown _ _ => exact .refl s
    | _ => cases idle
  · exact .handleChunk skipped s now draws header key src

/-- What is done for any packet changes nothing that decides what acts. -/
theorem find?_beforeChunks (found : s.find? key = some a) (now : Time) (packet : Packet)
    (src : SockAddr) :
    ∃ b, (s.beforeChunks now packet key src).find? key = some b ∧ b.essence = a.essence
      ∧ b.localTieTag = a.localTieTag := by
  have quiet : Quiet s (s.beforeChunks now packet key src) := .beforeChunks s key now packet src
  obtain ⟨b, after, same⟩ := quiet.present key a found
  refine ⟨b, after, same.essence, ?_⟩
  have first : ∃ a₁, (if (stripUnrecognized packet.chunks).1.head?.any fun chunk =>
      decide (chunk.type = .init) then s
      else s.recordEncapsulationPort key src).find? key = some a₁
        ∧ a₁.localTieTag = a.localTieTag := by
    split
    · exact ⟨a, found, rfl⟩
    · simp only [Socket.recordEncapsulationPort, Socket.find?_updateAssociation, if_true, found,
        Option.map_some]
      refine ⟨_, rfl, ?_⟩
      split <;> rfl
  obtain ⟨a₁, middle, tag⟩ := first
  unfold Socket.beforeChunks Socket.extendShutdown at after
  simp only [middle] at after
  split at after
  · simp only [Deeds.find?_restartT2, Socket.find?_setAssociation, if_true, Option.some.injEq]
      at after
    rw [← after]
    exact tag
  · rw [middle, Option.some.injEq] at after
    rw [← after]
    exact tag

theorem acts_congr (essence : b.essence = a.essence) (tied : b.localTieTag = a.localTieTag)
    (src : SockAddr) (chunk : Chunk) :
    acts b src chunk = acts a src chunk := by
  have state : b.state = a.state := congrArg Essence.state essence
  have known : ∀ address, (findPath b address).isSome = (findPath a address).isSome := by
    intro address
    have ips : b.ips = a.ips := congrArg Essence.ips essence
    have same : findPath b address = none ↔ findPath a address = none := by
      rw [findPath_eq_none, findPath_eq_none, ips]
    cases left : findPath b address <;> cases right : findPath a address <;> simp_all
  unfold acts ties
  simp only [state, tied, known]

/-- A chunk that is not of an unknown type stays first. -/
theorem stripUnrecognized_first (first : Chunk) (rest : List Chunk)
    (known : ∀ code, first.type ≠ .unknown code) :
    ∃ others, (stripUnrecognized (first :: rest)).1 = first :: others := by
  unfold stripUnrecognized
  split
  · next code body value =>
    refine absurd ?_ (known code)
    obtain ⟨flag, v⟩ := first
    cases value
    rfl
  · exact ⟨_, rfl⟩

theorem loopTurns_cons (carried leads : Bool) (i : Nat) (first : Chunk) (rest : List Chunk)
    (s : Socket) :
    Socket.loopTurns now draws packet key src carried i leads (first :: rest) s
      = ⟨key, leads, if dispatched first then [first] else [],
      s, s.handleChunk now (draws i) packet.header key src first⟩
        :: if first.type = .abort then []
          else Socket.loopTurns now draws packet key src carried (i + 1) false rest
            (s.handleChunk now (draws i) packet.header key src first) := by
  unfold Socket.loopTurns
  rw [Socket.chunkTurns, Socket.handleChunks]
  simp only
  by_cases stops : first.type = .abort
  · rw [if_pos stops, if_pos stops, if_pos stops]
    rfl
  · rw [if_neg stops, if_neg stops, if_neg stops]
    rfl

/-- The handlers of a packet that leads with an ABORT or a SHUTDOWN COMPLETE. -/
theorem restTurns_ends {first : Chunk} {rest : List Chunk} (chunks : packet.chunks = first :: rest)
    (ends : first.type = .abort ∨ first.type = .shutdownComplete) (s : Socket) (now : Time)
    (draws : Nat → Draws) (key : AssociationKey) (src : SockAddr) :
    ∃ others, (stripUnrecognized packet.chunks).1 = first :: others
      ∧ s.restTurns now draws packet key src false
        = ⟨key, true, [first], s, s.beforeChunks now packet key src⟩
          :: ⟨key, true, [first], s.beforeChunks now packet key src,
            (s.beforeChunks now packet key src).handleChunk now (draws 0) packet.header key src
              first⟩
          :: if first.type = .abort then []
            else Socket.loopTurns now draws packet key src false 1 false others
              ((s.beforeChunks now packet key src).handleChunk now (draws 0) packet.header key
                src first) := by
  have known : ∀ code, first.type ≠ .unknown code := by
    rcases ends with is | is
    · rw [is]
      exact nofun
    · rw [is]
      exact nofun
  have handled : dispatched first = true := by
    obtain ⟨flag, value⟩ := first
    cases value <;> first | rfl | (rcases ends with is | is <;> cases is)
  obtain ⟨others, recognized⟩ := stripUnrecognized_first first rest known
  refine ⟨others, by rw [chunks]; exact recognized, ?_⟩
  unfold Socket.restTurns Socket.chunksToHandle
  rw [if_neg nofun, if_neg nofun, chunks, recognized, loopTurns_cons, handled]
  simp

theorem acts_of_actedOn {chunk : Chunk} (acted : actedOn chunk = true) (a : Association)
    (src : SockAddr) :
    acts a src chunk = true := by
  obtain ⟨flag, value⟩ := chunk
  cases value <;> first | exact acted | cases acted

theorem no_data_of_idle (a : Association) (src : SockAddr) {chunks : List Chunk}
    (idle : ∀ chunk ∈ chunks, acts a src chunk = false) :
    chunks.filter isDataChunk = [] := by
  refine List.filter_eq_nil_iff.mpr fun chunk member is => ?_
  have acted : actedOn chunk = true := decide_eq_true (Or.inl (of_decide_eq_true is))
  exact absurd ((acts_of_actedOn acted a src).symm.trans (idle chunk member)) nofun

/-- Behind a SHUTDOWN COMPLETE that does nothing, and chunks that do not act. -/
theorem loopTurns_idle {turn : Turn} {leads : Bool} {i : Nat} {others : List Chunk}
    (standing : Standing s) (found : s.find? key = some a) (closing : a.state ≠ .shutdownAckSent)
    (idle : ∀ chunk ∈ others, acts a src chunk = false)
    (without : (stripUnrecognized packet.chunks).1.filter isDataChunk = [])
    (member : turn ∈ Socket.loopTurns now draws packet key src false i leads others s) :
    turn.Sane now packet src ∧ ∀ chunk ∈ turn.chunks, ¬(Touched turn.key turn.before turn.after
      ∨ actedOn chunk = true) := by
  obtain ⟨sane, -, here, chunk | data | none⟩ := mem_loopTurns (fun s => s.find? key = some a)
    (fun s draws chunk inside here =>
      ((untouched_idle here closing (Or.inl (idle chunk inside)) now draws packet.header).tcbs
        key).trans here)
    (fun s here => ((Untouched.handleDataPacket without s now key src false).tcbs key).trans here)
      found standing member
  · obtain ⟨chunk, inside, draws₁, acted, after⟩ := chunk
    refine ⟨sane, fun chunk' member => ?_⟩
    rw [acted] at member
    split at member
    · rw [List.mem_singleton.mp member]
      rintro (touched | is)
      · rw [after] at touched
        exact (untouched_idle here closing (Or.inl (idle chunk inside)) now draws₁
          packet.header).not_touched touched
      · exact absurd ((acts_of_actedOn is a src).symm.trans (idle chunk inside)) nofun
    · cases member
  · rw [without] at data
    refine ⟨sane, fun chunk member => ?_⟩
    rw [data] at member
    cases member
  · refine ⟨sane, fun chunk member => ?_⟩
    rw [none] at member
    cases member

/-- Once the association is gone, the chunks that follow find none. -/
theorem loopTurns_gone {turn : Turn} {leads : Bool} {i : Nat} {others : List Chunk}
    (standing : Standing s) (gone : s.find? key = none)
    (member : turn ∈ Socket.loopTurns now draws packet key src false i leads others s) :
    turn.Sane now packet src ∧ turn.before.find? turn.key = none := by
  have anyTag : ∀ tag, Owned key tag s := by
    intro tag a found
    rw [gone] at found
    cases found
  obtain ⟨sane, rfl, here, -⟩ := mem_loopTurns (fun s => ∀ tag, Owned key tag s)
    (fun s draws chunk _ owned tag => (owned tag).handleChunk now draws packet.header src chunk)
    (fun s owned tag => (owned tag).handleDataPacket now _ src false) anyTag standing member
  refine ⟨sane, ?_⟩
  cases found : turn.before.find? turn.key with
  | none => rfl
  | some a => exact absurd ((here 0#32 a found).symm.trans (here 1#32 a found)) (by decide)

end Behind

/-! ## Packets -/

section Packets

variable {s : Socket} {now : Time} {draws : Nat → Draws} {packet : Packet} {src : SockAddr}
    {turn : Turn}

/-- A handler is called for an association that exists only with a licence, if it changes
it or its chunk is not to be looked at otherwise. -/
def Turn.Fair (turn : Turn) (s : Socket) (now : Time) (packet : Packet) (src : SockAddr) : Prop :=
  turn.Sane now packet src ∧ ∀ a, turn.before.find? turn.key = some a → ∀ chunk ∈ turn.chunks,
    Touched turn.key turn.before turn.after ∨ actedOn chunk = true →
      Licensed s now packet src turn.leads chunk a

/-- The peer reflected the tag it was given. -/
theorem fair_reflected (standing : Standing s) (behind : NothingBehind s packet src) {first : Chunk}
    {rest : List Chunk} (chunks : packet.chunks = first :: rest)
    (port : packet.header.desPort = s.localAddress.port) {a : Association}
    (found : s.find? (s.packetKey packet src) = some a)
    (foreign : packet.header.verificationTag ≠ a.thisVerTag)
    (ends : first.type = .abort ∨ first.type = .shutdownComplete)
    (bit : (first.flag &&& chunkFlagTBit != 0#8) = true) (nonzero : a.peerVerTag ≠ 0#32)
    (tag : packet.header.verificationTag = a.peerVerTag)
    (member : turn ∈ s.restTurns now draws packet (s.packetKey packet src) src false) :
    turn.Fair s now packet src := by
  have prepared : Deeds inAnyTurn (s.packetKey packet src)
      s (s.beforeChunks now packet (s.packetKey packet src) src) :=
    .beforeChunks s _ now packet src
  have ready := Deeds.standing prepared standing
  obtain ⟨b, found', essence, tied⟩ := find?_beforeChunks found now packet src
  have peer : b.peerVerTag = a.peerVerTag := congrArg Essence.peerVerTag essence
  obtain ⟨others, recognized, shape⟩ :=
    restTurns_ends chunks ends s now draws (s.packetKey packet src) src
  rw [shape] at member
  rcases List.mem_cons.mp member with lead | later
  · -- What is done for any packet is done for its first chunk.
    subst lead
    refine ⟨⟨standing, .of_deeds prepared, nofun⟩, fun a' here chunk inside _ => ?_⟩
    rw [found, Option.some.injEq] at here
    rw [List.mem_singleton.mp inside, ← here]
    exact .reflected rfl ends bit nonzero tag
  · have done : Standing ((s.beforeChunks now packet (s.packetKey packet src) src).handleChunk
      now (draws 0) packet.header
        (s.packetKey packet src) src first) :=
          standing_handleChunk ready now (draws 0) packet.header _ src first
    rcases List.mem_cons.mp later with here | later
    · subst here
      refine ⟨⟨ready, Deeds.handleChunk _ _ now (draws 0) packet.header src first (fun info value =>
        ⟨first.flag, ?_⟩)
        fun _ => trivial, nofun⟩, fun b' here chunk inside _ => ?_⟩
      · rw [← value]
        exact List.mem_singleton_self _
      rw [found', Option.some.injEq] at here
      rw [List.mem_singleton.mp inside, ← here]
      exact .reflected rfl ends bit (peer ▸ nonzero) (tag.trans peer.symm)
    · rcases ends with is | is
      · rw [if_pos is] at later
        cases later
      · rw [if_neg (by rw [is]; exact nofun)] at later
        by_cases closing : b.state = .shutdownAckSent
        · -- The SHUTDOWN COMPLETE ends the association.
          have gone : ((s.beforeChunks now packet (s.packetKey packet src) src).handleChunk now
              (draws 0) packet.header (s.packetKey packet src) src first).find?
                (s.packetKey packet src) = none := by
            obtain ⟨flag, value⟩ := first
            cases value <;> cases is
            simp [Socket.handleChunk, Socket.handleShutdownComplete, found', closing]
          obtain ⟨sane, absent⟩ := loopTurns_gone done gone later
          refine ⟨sane, fun a' here => ?_⟩
          rw [absent] at here
          cases here
        · have complete : acts b src first = false := by
            obtain ⟨flag, value⟩ := first
            cases value <;> cases is
            rfl
          have idle : ∀ chunk ∈ others, acts b src chunk = false := by
            intro chunk inside
            rw [acts_congr essence tied]
            refine behind a found ?_ chunk (by rw [recognized]; exact inside)
            have state : a.state ≠ .shutdownAckSent := by
              rwa [← show b.state = a.state from congrArg Essence.state essence]
            simp [idleComplete, chunks, is, bit, port, nonzero, tag.symm ▸ foreign, tag, state]
          have same := untouched_idle found' closing (Or.inl complete) now (draws 0) packet.header
          have without : (stripUnrecognized packet.chunks).1.filter isDataChunk = [] := by
            refine no_data_of_idle b src fun chunk inside => ?_
            rw [recognized] at inside
            rcases List.mem_cons.mp inside with rfl | later
            · exact complete
            · exact idle chunk later
          obtain ⟨sane, fair⟩ := loopTurns_idle done ((same.tcbs _).trans found') closing idle
            without later
          exact ⟨sane, fun a' _ chunk inside acted => absurd acted (fair chunk inside)⟩

/-- A packet that is refused is answered at most. -/
theorem untouched_refused (refused : s.validateVerificationTag packet (s.packetKey packet src)
    ≠ .accept) :
    Untouched s (s.handlePacket now draws packet src) := by
  unfold Socket.handlePacket
  simp only
  cases verdict : s.validateVerificationTag packet (s.packetKey packet src) with
  | accept => exact absurd verdict refused
  | discard => exact .refl s
  | _ => exact .reply s _ _ _

theorem nonempty_of_accept {key : AssociationKey}
    (verdict : s.validateVerificationTag packet key = .accept) :
    packet.chunks ≠ [] := by
  obtain ⟨first, rest, chunks, -⟩ := accept_cases verdict
  rw [chunks]
  exact nofun

/-- The handlers of a packet that leads with a COOKIE ECHO. -/
theorem fair_cookieEcho (standing : Standing s) (nonempty : packet.chunks ≠ []) {flag : BitVec 8}
    {cookieData : Bytes} {rest : List Chunk}
    (leads : (stripUnrecognized packet.chunks).1 = ⟨flag, .cookieEcho cookieData⟩ :: rest)
    {accepted : Bool} {key : AssociationKey} {after : Socket}
    (outcome : s.handleCookieEcho now (draws 0) packet.header cookieData (s.packetKey packet src)
      src = (accepted, key, after)) (member : turn
        ∈ (⟨key, true, [⟨flag, .cookieEcho cookieData⟩], s, after⟩ : Turn)
      :: if accepted then after.restTurns now draws packet key src true else []) :
        turn.Fair s now packet src := by
  have echoed : Led (Turn.shows ⟨key, true, [⟨flag, .cookieEcho cookieData⟩], s, after⟩
      now packet src) inAnyTurn _ s _ :=
    Deeds.handleCookieEcho s (s.packetKey packet src) now (draws 0) packet.header cookieData src
      ⟨⟨rfl, rfl, rfl⟩, flag, List.mem_singleton_self _⟩ trivial fun _ _ _ _ _ => trivial
  have verdict := handleCookieEcho_tag s now (draws 0) packet.header cookieData
    (s.packetKey packet src) src
  rw [outcome] at echoed verdict
  rcases List.mem_cons.mp member with here | later
  · subst here
    refine ⟨⟨standing, echoed, nofun⟩, fun a found chunk inside acted => ?_⟩
    rcases verdict with ⟨-, untouched⟩ | ⟨cookie, verified⟩ | ⟨owned, -⟩
    · rcases acted with touched | is
      · exact absurd touched untouched.not_touched
      · rw [List.mem_singleton.mp inside] at is
        cases is
    · exact .cookie flag cookieData rest cookie leads verified
    · exact .own (owned a found).symm
  · have ready : Standing after := Deeds.standing
      ((echoed.mono (fun _ _ => trivial) fun _ _ => trivial : Led (fun _ => True)
      (fun _ => True) _ s _).deeds fun _ => id) standing
    rcases verdict with ⟨refused, -⟩ | ⟨cookie, verified⟩ | ⟨-, owned⟩
    · simp only at refused
      rw [refused, if_neg nofun] at later
      cases later
    · split at later
      · obtain ⟨sane, -⟩ := restTurns_sane nonempty ready later
        exact ⟨sane, fun _ _ _ _ _ => .cookie flag cookieData rest cookie leads verified⟩
      · cases later
    · split at later
      · obtain ⟨sane, own⟩ := restTurns_own nonempty ready owned later
        exact ⟨sane, fun a found chunk inside _ => own a found chunk inside⟩
      · cases later

/-- The handlers of a packet that does not lead with a COOKIE ECHO are left to look at. -/
theorem fair_or_plain (standing : Standing s) (member : turn ∈ s.turns now draws packet src) :
    turn.Fair s now packet src
    ∨ s.validateVerificationTag packet (s.packetKey packet src) = .accept
      ∧ (∀ flag cookieData rest, (stripUnrecognized packet.chunks).1
        ≠ ⟨flag, .cookieEcho cookieData⟩ :: rest)
      ∧ turn ∈ s.restTurns now draws packet (s.packetKey packet src) src false := by
  unfold Socket.turns at member
  simp only at member
  by_cases verdict : s.validateVerificationTag packet (s.packetKey packet src) = .accept
  · rw [verdict] at member
    simp only at member
    split at member
    · next flag cookieData rest leads =>
      cases outcome : s.handleCookieEcho now (draws 0) packet.header cookieData
        (s.packetKey packet src) src with
      | mk accepted after =>
        rw [outcome] at member
        exact Or.inl (fair_cookieEcho standing (nonempty_of_accept verdict) leads outcome member)
    · next without => exact Or.inr ⟨verdict, fun flag cookieData rest =>
        without flag cookieData rest, member⟩
  · have refused : turn = ⟨s.packetKey packet src, true, [],
      s, s.handlePacket now draws packet src⟩ := by
      cases is : s.validateVerificationTag packet (s.packetKey packet src) with
      | accept => exact absurd is verdict
      | _ =>
        rw [is] at member
        exact List.mem_singleton.mp member
    subst refused
    refine Or.inl ⟨⟨standing, .of_deeds (Deeds.refused s verdict), fun _ =>
      untouched_refused verdict⟩, ?_⟩
    exact fun _ _ _ inside => absurd inside List.not_mem_nil

theorem sane_turns (standing : Standing s) (member : turn ∈ s.turns now draws packet src) :
    turn.Sane now packet src := by
  rcases fair_or_plain standing member with fair | ⟨verdict, -, rest⟩
  · exact fair.1
  · exact (restTurns_sane (nonempty_of_accept verdict) standing rest).1

theorem fair_turns (standing : Standing s) (behind : NothingBehind s packet src)
    (member : turn ∈ s.turns now draws packet src) : turn.Fair s now packet src := by
  rcases fair_or_plain standing member with fair | ⟨verdict, plain, member⟩
  · exact fair
  · have nonempty := nonempty_of_accept verdict
    obtain ⟨first, rest, chunks, port, ⟨is, alone, tag⟩ | echo | ⟨a, found, tag⟩⟩ :=
      accept_cases verdict
    · -- An INIT is alone in its packet.
      obtain ⟨sane, inside⟩ := restTurns_sane nonempty standing member
      refine ⟨sane, fun a _ chunk acted _ => ?_⟩
      have here := inside chunk acted
      rw [chunks, alone, List.mem_singleton] at here
      subst here
      exact .init (by rw [chunks, alone]) is tag
    · -- A COOKIE ECHO would be the first chunk left.
      obtain ⟨others, recognized⟩ := stripUnrecognized_first first rest (by rw [echo]; exact nofun)
      obtain ⟨flag, value⟩ := first
      cases value <;> cases echo
      rw [← chunks] at recognized
      exact absurd recognized (plain _ _ _)
    · by_cases own : packet.header.verificationTag = a.thisVerTag
      · have owned : Owned (s.packetKey packet src) packet.header.verificationTag s := by
          intro a' here
          rw [found, Option.some.injEq] at here
          rw [← here, own]
        obtain ⟨sane, licensed⟩ := restTurns_own nonempty standing owned member
        exact ⟨sane, fun a found chunk inside _ => licensed a found chunk inside⟩
      · obtain ⟨ends, bit, nonzero, tag⟩ := tag.resolve_left own
        exact fair_reflected standing behind chunks port found own ends bit nonzero tag member

end Packets

/-! ## What acts -/

section Acting

variable {s : Socket} {now : Time} {draws : Nat → Draws} {packet : Packet} {key : AssociationKey}
    {src : SockAddr}
  {a : Association}

theorem find?_tied (found : s.find? key = some a) {init : InitChunkValue}
    (tied : ties a src init = true) (draws : Draws) (header : CommonHeader) :
    (s.handleInit now draws header init key src).find? key = some (withTieTags draws a) := by
  simp only [ties, Bool.and_eq_true, decide_eq_true_eq] at tied
  obtain ⟨⟨⟨⟨tag, outgoing, incoming⟩, named⟩, waits, closing, -⟩, known⟩ := tied
  have added : (transportAddresses src (scanInit init).recognized).filter (fun address =>
      (findPath a address).isNone) = [] := by
    refine List.filter_eq_nil_iff.mpr fun address member => ?_
    have here := List.all_eq_true.mp known address member
    rw [Bool.not_eq_true, Option.isNone_eq_false_iff]
    exact here
  unfold Socket.handleInit
  rw [if_neg tag, if_neg (not_or.mpr ⟨outgoing, incoming⟩), Option.isNone_iff_eq_none.mp named]
  unfold Socket.answerInit
  simp only [found, if_neg closing, if_neg waits, added, List.isEmpty_nil, Bool.not_true,
    Bool.false_eq_true, if_false]
  rw [(untouched_sendInitAck _ now draws header init key src _).tcbs key,
    Socket.find?_setAssociation, if_pos rfl]

/-- A chunk that acts on an association changes it, or is one that is not to be looked at. -/
theorem touched_of_acts (found : s.find? key = some a) {chunk : Chunk}
    (acting : acts a src chunk = true) (now : Time) (draws : Draws) (header : CommonHeader) :
    Touched key s (s.handleChunk now draws header key src chunk) ∨ actedOn chunk = true := by
  have gone : ∀ {s' : Socket}, s'.find? key = none → Touched key s s' := by
    intro s' none
    refine Or.inl ?_
    rw [none, found]
    exact nofun
  obtain ⟨flag, value⟩ := chunk
  unfold Socket.handleChunk
  cases value with
  | abort causes =>
    refine Or.inl (gone ?_)
    simp [Socket.handleAbort, found]
  | shutdownAck =>
    have closing : ¬(a.state ≠ .shutdownSent ∧ a.state ≠ .shutdownAckSent) := by
      rw [not_and_or, not_not, not_not]
      exact of_decide_eq_true acting
    refine Or.inl (gone ?_)
    simp [Socket.handleShutdownAck, found, closing]
  | initAck initAck =>
    have waits : a.state = .cookieWait := of_decide_eq_true acting
    have refused : ∀ tag reflected cause,
        Touched key s (s.refuseInitAck header key src tag reflected cause) := by
      intro tag reflected cause
      refine gone ?_
      simp [Socket.refuseInitAck, Socket.sendAbort]
    refine Or.inl ?_
    simp only [Socket.handleInitAck, found, waits, ne_eq, not_true, if_false]
    split
    · exact refused _ _ _
    · split
      · exact refused _ _ _
      · next cookie _ =>
        split
        · exact refused _ _ _
        · split
          · exact refused _ _ _
          · obtain ⟨s₁, destination, errors, same, tcbs, -⟩ :=
              acceptInitAck_eq found header initAck src cookie
            refine Or.inl ?_
            rw [same, found]
            simp only [Socket.find?_reply, Socket.find?_removeRetransmissionsOfType,
              Socket.find?_cancelExpiration, tcbs, if_true]
            intro equal
            have state := congrArg Association.state (Option.some.inj equal)
            rw [waits] at state
            cases state
  | init init =>
    refine Or.inl (Or.inl ?_)
    simp only
    rw [find?_tied found acting draws header, found]
    intro equal
    have tied : a.localTieTag = 0#32 := by
      simp only [acts, ties, Bool.and_eq_true, decide_eq_true_eq] at acting
      exact acting.1.2.2.2
    have drawn := congrArg Association.localTieTag (Option.some.inj equal)
    rw [withTieTags, if_pos tied, tied] at drawn
    exact draws.localTieTag.2 drawn
  | _ => exact Or.inr acting

/-- A chunk that acts is reached, and finds the association as it was. -/
theorem exists_acting (now : Time) (draws : Nat → Draws) (packet : Packet) {others : List Chunk}
    {i : Nat} (found : s.find? key = some a) (closing : a.state ≠ .shutdownAckSent)
    (data : ∀ chunk ∈ others, chunk.type = .data → chunk ∈ (stripUnrecognized packet.chunks).1)
    (acting : (∃ chunk ∈ others, acts a src chunk = true)
      ∨ (stripUnrecognized packet.chunks).1.filter isDataChunk ≠ []) :
    ∃ turn ∈ Socket.loopTurns now draws packet key src false i false others s, turn.leads = false
      ∧ turn.key = key
      ∧ turn.before.find? key = some a
      ∧ ∃ chunk ∈ turn.chunks, Touched key turn.before turn.after ∨ actedOn chunk = true := by
  induction others generalizing i s with
  | nil =>
    have some := acting.resolve_left fun ⟨_, inside, _⟩ => nomatch inside
    obtain ⟨chunk, inside⟩ := List.exists_mem_of_ne_nil _ some
    have is : actedOn chunk = true :=
      decide_eq_true (Or.inl (of_decide_eq_true (List.mem_filter.mp inside).2))
    refine ⟨_, List.mem_cons_self, rfl, rfl, found, chunk, inside, Or.inr is⟩
  | cons chunk rest ih =>
    rw [loopTurns_cons]
    by_cases here : acts a src chunk = true ∧ dispatched chunk = true
    · refine ⟨_, List.mem_cons_self, rfl, rfl, found, chunk, ?_,
        touched_of_acts found here.1 now (draws i) packet.header⟩
      rw [if_pos here.2]
      exact List.mem_singleton_self chunk
    · have idle : acts a src chunk = false ∨ dispatched chunk = false := by
        rw [← Bool.not_eq_true, ← Bool.not_eq_true, ← not_and_or]
        exact here
      have goesOn : chunk.type ≠ .abort := by
        intro is
        obtain ⟨flag, value⟩ := chunk
        cases value <;> cases is
        exact here ⟨rfl, rfl⟩
      have same := untouched_idle found closing idle now (draws i) packet.header
      have later : (∃ chunk ∈ rest, acts a src chunk = true)
          ∨ (stripUnrecognized packet.chunks).1.filter isDataChunk ≠ [] := by
        rcases acting with ⟨acting, inside, is⟩ | data'
        · rcases List.mem_cons.mp inside with rfl | tail
          · -- What acts without a handler of its own is DATA.
            have isData : acting.type = .data := by
              have skipped := idle.resolve_left (by rw [is]; exact nofun)
              obtain ⟨flag, value⟩ := acting
              cases value <;> first | rfl | (cases is; done) | cases skipped
            exact Or.inr (List.ne_nil_of_mem
              (List.mem_filter.mpr ⟨data acting List.mem_cons_self isData, decide_eq_true isData⟩))
          · exact Or.inl ⟨acting, tail, is⟩
        · exact Or.inr data'
      obtain ⟨turn, member, rest⟩ := ih ((same.tcbs key).trans found)
        (fun chunk inside => data chunk (List.mem_cons_of_mem _ inside)) later
      rw [if_neg goesOn]
      exact ⟨turn, List.mem_cons_of_mem _ member, rest⟩

/-- A SHUTDOWN COMPLETE under the tag of the peer passes the tag check. -/
theorem accept_of_idleComplete (found : s.find? key = some a)
    (complete : idleComplete s packet a = true) :
    ∃ first rest, packet.chunks = first :: rest ∧ first.type = .shutdownComplete
      ∧ s.validateVerificationTag packet key = .accept := by
  simp only [idleComplete, Bool.and_eq_true, decide_eq_true_eq] at complete
  obtain ⟨leads, port, nonzero, tag, -, -⟩ := complete
  cases chunks : packet.chunks with
  | nil =>
    rw [chunks] at leads
    cases leads
  | cons first rest =>
    simp only [chunks, List.head?_cons, Option.any_some, Bool.and_eq_true, decide_eq_true_eq]
      at leads
    refine ⟨first, rest, rfl, leads.1, ?_⟩
    unfold Socket.validateVerificationTag
    simp [chunks, port, leads.1, leads.2, found, nonzero, tag]

end Acting

/-- The chunks of a packet act on associations only with a licence, unless something that
acts comes behind a SHUTDOWN COMPLETE with the T bit set that does not end the
association. -/
theorem disciplined_iff {σ : System} (reached : System.Reached (fun _ _ => True) σ) (now : Time)
    (draws : Nat → Draws) (packet : Packet) (src : SockAddr) :
    Disciplined σ.socket now draws packet src ↔ NothingBehind σ.socket packet src := by
  have standing : Standing σ.socket := reached.standing
  constructor
  · intro disciplined a found complete
    by_contra acting
    push Not at acting
    obtain ⟨chunk, inside, acting⟩ := acting
    obtain ⟨first, rest, chunks, is, verdict⟩ := accept_of_idleComplete found complete
    have terms := complete
    simp only [idleComplete, Bool.and_eq_true, decide_eq_true_eq] at terms
    obtain ⟨-, -, nonzero, tag, foreign, closing⟩ := terms
    obtain ⟨others, recognized, shape⟩ := restTurns_ends chunks (Or.inr is) σ.socket now draws
      (σ.socket.packetKey packet src) src
    rw [if_neg (by rw [is]; exact nofun)] at shape
    obtain ⟨b, found', essence, tied⟩ := find?_beforeChunks found now packet src
    have closing' : b.state ≠ .shutdownAckSent := by
      rwa [show b.state = a.state from congrArg Essence.state essence]
    have own : b.thisVerTag = a.thisVerTag := congrArg Essence.thisVerTag essence
    have idle : acts b src first = false := by
      obtain ⟨flag, value⟩ := first
      cases value <;> cases is
      rfl
    have same := untouched_idle found' closing' (Or.inl idle) now (draws 0) packet.header
    rw [recognized, List.tail_cons] at inside
    obtain ⟨turn, member, leads, key, before, chunk', acted, unfair⟩ :=
      exists_acting now draws packet (i := 1) ((same.tcbs _).trans found') closing'
        (fun chunk inside _ => by rw [recognized]; exact List.mem_cons_of_mem _ inside)
        (Or.inl ⟨chunk, inside, by rw [acts_congr essence tied]; simpa using acting⟩)
    have plain : ∀ flag cookieData rest, (stripUnrecognized packet.chunks).1
        ≠ ⟨flag, .cookieEcho cookieData⟩ :: rest := by
      intro flag cookieData rest leads'
      rw [recognized] at leads'
      rw [(List.cons.inj leads').1] at is
      cases is
    have called : turn ∈ σ.socket.turns now draws packet src := by
      rw [turns_plain verdict plain, shape]
      exact List.mem_cons_of_mem _ (List.mem_cons_of_mem _ member)
    obtain ⟨touched, looked⟩ := disciplined turn called _ b before
    have licensed : Licensed σ.socket now packet src turn.leads chunk' b := by
      rcases unfair with changed | is
      · exact (touched changed).2 chunk' acted
      · exact looked key.symm chunk' acted is
    cases licensed with
    | own same => exact foreign (same.trans own)
    | reflected first' => rw [leads] at first'; cases first'
    | init alone isInit =>
      rw [chunks] at alone
      rw [← (List.cons.inj alone).1, is] at isInit
      cases isInit
    | cookie flag cookieData rest cookie leads' => exact plain flag cookieData rest leads'
  · intro behind turn member
    obtain ⟨sane, fair⟩ := fair_turns standing behind member
    exact sane.disciplined fair

/-- A HEARTBEAT behind a SHUTDOWN COMPLETE is harmless. -/
theorem disciplined_heartbeat : ∃ σ, System.Reached (fun _ _ => True) σ
    ∧ ((σ.socket.find? Opened.key).any fun a => idleComplete σ.socket
        ⟨⟨5000#16, 5000#16, 7#32⟩, [⟨1#8, .shutdownComplete⟩, ⟨0#8, .heartbeat [1#8]⟩]⟩ a) = true
    ∧ Disciplined σ.socket 0 (fun _ => Opened.draws)
        ⟨⟨5000#16, 5000#16, 7#32⟩, [⟨1#8, .shutdownComplete⟩, ⟨0#8, .heartbeat [1#8]⟩]⟩
          Opened.peer := by
  obtain ⟨σ, reached, ends⟩ := Opened.exists_reached []
    (p := fun σ => (σ.socket.find? Opened.key).any fun a => idleComplete σ.socket
      ⟨⟨5000#16, 5000#16, 7#32⟩, [⟨1#8, .shutdownComplete⟩, ⟨0#8, .heartbeat [1#8]⟩]⟩ a)
      (by decide +kernel)
  refine ⟨σ, reached, ends, (disciplined_iff reached _ _ _ _).mpr fun a _ _ chunk inside => ?_⟩
  rw [List.mem_singleton.mp inside]
  rfl

/-- DATA under the tag of the peer, behind a SHUTDOWN COMPLETE with the T bit set. -/
def smuggled : Packet :=
  ⟨⟨5000#16, 5000#16, 7#32⟩, [⟨1#8, .shutdownComplete⟩,
    ⟨3#8, .data ⟨100#32, 0#16, 0#16, 0#32, [42#8], 3#8⟩⟩]⟩

/-- It is delivered. -/
theorem smuggled_undisciplined : ∃ σ, System.Reached (fun _ _ => True) σ
    ∧ σ.socket.receives.pending.get? Opened.key
      ≠ (σ.socket.handlePacket 0 (fun _ => Opened.draws) smuggled Opened.peer).receives.pending.get?
        Opened.key
    ∧ ¬Disciplined σ.socket 0 (fun _ => Opened.draws) smuggled Opened.peer := by
  obtain ⟨σ, reached, ends⟩ := Opened.exists_reached []
    (p := fun σ => (σ.socket.receives.pending.get? Opened.key
        != (σ.socket.handlePacket 0 (fun _ => Opened.draws)
          smuggled Opened.peer).receives.pending.get? Opened.key)
      && (σ.socket.turns 0 (fun _ => Opened.draws) smuggled Opened.peer).any fun turn => !turn.leads
        && ((turn.before.find? turn.key).any fun a => a.thisVerTag != 7#32)
        && turn.chunks.any isDataChunk) (by decide +kernel)
  rw [Bool.and_eq_true, bne_iff_ne, List.any_eq_true] at ends
  obtain ⟨delivered, turn, member, terms⟩ := ends
  simp only [Bool.and_eq_true, Bool.not_eq_true', Option.any_eq_true, bne_iff_ne, List.any_eq_true]
    at terms
  obtain ⟨⟨behind, a, found, foreign⟩, chunk, acted, is⟩ := terms
  refine ⟨σ, reached, delivered, fun disciplined => ?_⟩
  have data : chunk.type = .data := of_decide_eq_true is
  cases (disciplined turn member _ a found).2 rfl chunk acted (decide_eq_true (Or.inl data)) with
  | own same => exact foreign same.symm
  | reflected leads => rw [behind] at leads; cases leads
  | init alone => cases alone
  | cookie flag cookieData rest cookie leads => cases leads

end SctpStack
