import SctpStack.CalmHandlers

/-!
# What a packet and an expiry run do

A packet is refused, and what that does is calm; or it gets past its tag check and its
COOKIE ECHO, and then its chunks are handled one by one, and its DATA last
(`handlePacket_cases`). What every chunk keeps, the packet keeps (`handlePacket_keeps`), and
what every timer keeps, an expiry run keeps (`runExpire_keeps`).
-/

namespace SctpStack

namespace Socket

/-- Where the chunks of a packet are handled: the socket past the COOKIE ECHO, the
association, and whether there was a COOKIE ECHO. -/
def dispatch (s : Socket) (now : Time) (draws : Nat → Draws) (packet : Packet) (src : SockAddr) :
    Option (Socket × AssociationKey × Bool) :=
  match s.validateVerificationTag packet (s.packetKey packet src) with
  | .accept =>
    match (stripUnrecognized packet.chunks).1 with
    | ⟨_, .cookieEcho cookieData⟩ :: _ =>
      match s.handleCookieEcho now (draws 0) packet.header cookieData (s.packetKey packet src) src
        with
      | (false, _, _) => none
      | (true, key, s) => some (s, key, true)
    | _ => some (s, s.packetKey packet src, false)
  | _ => none

/-- The chunks left for the handlers. -/
def chunksToHandle (packet : Packet) (carriedCookieEcho : Bool) : List Chunk :=
  if carriedCookieEcho then (stripUnrecognized packet.chunks).1.tail
    else (stripUnrecognized packet.chunks).1

/-- The socket the chunks find. -/
def beforeChunks (s : Socket) (now : Time) (packet : Packet) (key : AssociationKey)
    (src : SockAddr) : Socket :=
  (if (stripUnrecognized packet.chunks).1.head?.any fun chunk => decide (chunk.type = .init) then s
    else s.recordEncapsulationPort key src).extendShutdown now key

/-- The socket after the chunks, the flag set if one was an ABORT. -/
def afterChunks (s : Socket) (now : Time) (draws : Nat → Draws) (packet : Packet)
    (key : AssociationKey) (src : SockAddr) (carriedCookieEcho : Bool) : Bool × Socket :=
  handleChunks now draws packet.header key src (if carriedCookieEcho then 1 else 0)
    (chunksToHandle packet carriedCookieEcho) (s.beforeChunks now packet key src)

end Socket

section Packets

variable (strict : Prop) (s : Socket) (now : Time) (draws : Nat → Draws) (packet : Packet)
    (src : SockAddr)

/-- A packet is refused, or its chunks are handled and then its DATA. -/
theorem handlePacket_cases (empty : ∀ k, s.find? k = none → NothingQueued s k) :
    (s.dispatch now draws packet src = none ∧ Calm strict s (s.handlePacket now draws packet src))
    ∨ ∃ s' key carried, s.dispatch now draws packet src = some (s', key, carried) ∧ Calm strict s s'
      ∧ Calm strict s' (s'.beforeChunks now packet key src)
      ∧ ((∃ s'', s'.afterChunks now draws packet key src carried = (true, s'')
            ∧ s.handlePacket now draws packet src = s'')
        ∨ ∃ s'', s'.afterChunks now draws packet key src carried = (false, s'')
            ∧ Calm strict (s''.handleDataPacket now ⟨packet.header,
              (stripUnrecognized packet.chunks).1⟩ key src carried)
                (s.handlePacket now draws packet src)) := by
  have rest : ∀ (s' : Socket) (key : AssociationKey) (carried : Bool),
      Calm strict s' (s'.beforeChunks now packet key src)
      ∧ ((∃ s'', s'.afterChunks now draws packet key src carried = (true, s'')
          ∧ s'.handleRest now draws packet.header key src (stripUnrecognized packet.chunks).1
            (Socket.chunksToHandle packet carried) (stripUnrecognized packet.chunks).2 carried
              = s'')
        ∨ ∃ s'', s'.afterChunks now draws packet key src carried = (false, s'')
          ∧ Calm strict (s''.handleDataPacket now ⟨packet.header,
            (stripUnrecognized packet.chunks).1⟩ key src carried)
              (s'.handleRest now draws packet.header key src (stripUnrecognized packet.chunks).1
                (Socket.chunksToHandle packet carried)
                (stripUnrecognized packet.chunks).2 carried)) := by
    intro s' key carried
    constructor
    · unfold Socket.beforeChunks
      refine Calm.trans ?_ (Calm.extendShutdown _ key now)
      split
      · exact .refl s'
      · exact .recordEncapsulationPort s' key src
    · unfold Socket.handleRest
      cases handled : s'.afterChunks now draws packet key src carried with
      | mk stopped s'' =>
        simp only [Socket.afterChunks, Socket.beforeChunks] at handled
        cases stopped with
        | true => exact Or.inl ⟨s'', rfl, by simp only [handled]⟩
        | false =>
          refine Or.inr ⟨s'', rfl, ?_⟩
          simp only [handled]
          split
          · exact .refl _
          · exact .reportUnrecognizedChunks _ key _ _ _
  unfold Socket.handlePacket Socket.dispatch
  simp only
  cases verdict : s.validateVerificationTag packet (s.packetKey packet src) with
  | discard => exact Or.inl ⟨rfl, .refl s⟩
  | abortOotb => exact Or.inl ⟨rfl, .reply s _ rfl⟩
  | abortInit => exact Or.inl ⟨rfl, .reply s _ rfl⟩
  | shutdownCompleteOotb => exact Or.inl ⟨rfl, .reply s _ rfl⟩
  | accept =>
    simp only [Socket.acceptPacket]
    by_cases leads : ∃ flag cookieData others,
        (stripUnrecognized packet.chunks).1 = ⟨flag, .cookieEcho cookieData⟩ :: others
    · obtain ⟨flag, cookieData, others, chunks⟩ := leads
      have echoed : Calm strict s _ := .handleCookieEcho s (s.packetKey packet src) now (draws 0)
        packet.header cookieData src empty
      simp only [chunks] at rest ⊢
      cases outcome : s.handleCookieEcho now (draws 0) packet.header cookieData
        (s.packetKey packet src) src with
      | mk accepted after =>
        obtain ⟨key, s'⟩ := after
        rw [outcome] at echoed
        cases accepted with
        | false => exact Or.inl ⟨rfl, echoed⟩
        | true =>
          have tail : Socket.chunksToHandle packet true = others := by
            simp [Socket.chunksToHandle, chunks]
          obtain ⟨prepared, done⟩ := rest s' key true
          rw [tail] at done
          exact Or.inr ⟨s', key, true, rfl, echoed, prepared, done⟩
    · obtain ⟨prepared, done⟩ := rest s (s.packetKey packet src) false
      refine Or.inr ⟨s, s.packetKey packet src, false, ?_, .refl s, prepared, ?_⟩
      · split
        · next flag cookieData others chunks =>
            exact absurd ⟨flag, cookieData, others, chunks⟩ leads
        · rfl
      · split
        · next flag cookieData others chunks =>
            exact absurd ⟨flag, cookieData, others, chunks⟩ leads
        · exact done

variable {strict s now draws packet src}

/-- What every chunk keeps, all of them keep. -/
theorem handleChunks_keeps {inv : Socket → Prop} {key : AssociationKey} {header : CommonHeader}
    {chunks : List Chunk} (each : ∀ s draws chunk, chunk ∈ chunks → inv s →
      inv (s.handleChunk now draws header key src chunk))
    (i : Nat) (holds : inv s) : inv
      (Socket.handleChunks now draws header key src i chunks s).2 := by
  induction chunks generalizing s i with
  | nil => exact holds
  | cons chunk rest ih =>
    have first := each s (draws i) chunk List.mem_cons_self holds
    unfold Socket.handleChunks
    simp only
    split
    · exact first
    · exact ih (fun s draws chunk member => each s draws chunk (List.mem_cons_of_mem _ member))
        (i + 1) first

/-- What calm steps keep, and SACK, SHUTDOWN and DATA where the packet has them, a
packet keeps. -/
theorem handlePacket_keeps (inv : Socket → Prop) (calm : ∀ s s', Calm strict s s' → inv s → inv s')
    (empty : ∀ s, inv s → ∀ k, s.find? k = none → NothingQueued s k)
    (acks : ∀ s' key carried, s.dispatch now draws packet src = some (s', key, carried) → ∀ chunk,
      chunk ∈ Socket.chunksToHandle packet carried → chunk.type = .sack ∨ chunk.type = .shutdown →
      ∀ s draws, inv s → inv (s.handleChunk now draws packet.header key src chunk))
    (data : ∀ s' key carried s'', s.dispatch now draws packet src = some (s', key, carried) →
      s'.afterChunks now draws packet key src carried = (false, s'') → inv s'' →
      inv (s''.handleDataPacket now ⟨packet.header, (stripUnrecognized packet.chunks).1⟩
        key src carried))
    (holds : inv s) : inv (s.handlePacket now draws packet src) := by
  rcases handlePacket_cases strict s now draws packet src (empty s holds) with
    ⟨-, refused⟩ | ⟨s', key, carried, dispatched, before, prepared, done⟩
  · exact calm _ _ refused holds
  · have handled : inv (s'.afterChunks now draws packet key src carried).2 := by
      refine handleChunks_keeps (fun s₁ draws chunk member here => ?_) _
        (calm _ _ prepared (calm _ _ before holds))
      by_cases acking : chunk.type = .sack ∨ chunk.type = .shutdown
      · exact acks s' key carried dispatched chunk member acking s₁ draws here
      · rw [not_or] at acking
        exact calm _ _ (.handleChunk s₁ key now draws packet.header src acking.1 acking.2) here
    rcases done with ⟨s'', after, same⟩ | ⟨s'', after, finished⟩
    · rw [after] at handled
      rw [same]
      exact handled
    · rw [after] at handled
      exact calm _ _ finished (data s' key carried s'' dispatched after handled)

end Packets

/-! ## Expiry -/

namespace ExpirationQueue

theorem popTop_spec {queue : List ExpirationFallback} {top : ExpirationFallback}
    {rest : List ExpirationFallback} (popped : popTop queue = some (top, rest)) :
    top ∈ queue ∧ rest ⊆ queue := by
  induction queue generalizing top rest with
  | nil => cases popped
  | cons entry later ih =>
    unfold popTop at popped
    split at popped
    · cases popped
      exact ⟨List.mem_cons_self, by simp⟩
    · next top' others popped' =>
      obtain ⟨member, sub⟩ := ih popped'
      split at popped
      · cases popped
        exact ⟨List.mem_cons_self, List.subset_cons_self _ _⟩
      · cases popped
        exact ⟨List.mem_cons_of_mem _ member, List.cons_subset_cons _ sub⟩

/-- A timer that goes off was queued; one that was running runs on or goes off. -/
theorem drainExpiredFrom_spec (now : Time) (fuel : Nat) (q : ExpirationQueue) :
    (∀ f ∈ (drainExpiredFrom now fuel q).1, f ∈ q.queue)
      ∧ (drainExpiredFrom now fuel q).2.queue ⊆ q.queue
      ∧ ∀ timer, q.isActive timer = true → (drainExpiredFrom now fuel q).2.isActive timer = true
          ∨ ∃ f ∈ (drainExpiredFrom now fuel q).1, f.key = timer := by
  induction fuel generalizing q with
  | zero => exact ⟨by simp [drainExpiredFrom], fun f => id, fun timer active => Or.inl active⟩
  | succ fuel ih =>
    unfold drainExpiredFrom
    cases popped : popTop q.queue with
    | none => exact ⟨by simp, fun f => id, fun timer active => Or.inl active⟩
    | some pair =>
      obtain ⟨top, rest⟩ := pair
      obtain ⟨member, sub⟩ := popTop_spec popped
      simp only
      split
      · split
        · obtain ⟨queued, left, running⟩ := ih (cancel { q with queue := rest } top.key)
          refine ⟨fun f inside => ?_, fun f inside => sub (left inside), fun timer active => ?_⟩
          · rcases List.mem_cons.mp inside with rfl | later
            · exact member
            · exact sub (queued f later)
          · by_cases here : timer = top.key
            · exact Or.inr ⟨top, List.mem_cons_self, here.symm⟩
            · have still : (cancel { q with queue := rest } top.key).isActive timer = true := by
                simpa [cancel, isActive, KeyMap.contains, here] using active
              rcases running timer still with runs | ⟨f, inside, off⟩
              · exact Or.inl runs
              · exact Or.inr ⟨f, List.mem_cons_of_mem _ inside, off⟩
        · obtain ⟨queued, left, running⟩ := ih { q with queue := rest }
          exact ⟨fun f inside => sub (queued f inside), fun f inside => sub (left inside), running⟩
      · exact ⟨by simp, fun f => id, fun timer active => Or.inl active⟩

end ExpirationQueue

/-- What T3-rtx and the calm timers keep, all that are due keep. -/
theorem runExpire_keeps {strict : Prop} {s : Socket} (inv : Socket → Prop) (now : Time)
    (draws : Nat → Draws) (calm : ∀ s s', Calm strict s s' → inv s → inv s')
    (t3 : ∀ s key destination, inv s → inv (s.handleT3Expiration key destination))
    (retries : ∀ f ∈ s.expirations.queue, NoData f.retry.packet)
    (drained : inv { s with expirations := (s.expirations.drainExpired now).2 }) :
    inv (s.runExpire now draws) := by
  have queued := (ExpirationQueue.drainExpiredFrom_spec now s.expirations.queue.length
    s.expirations).1
  unfold Socket.runExpire
  simp only
  change ∀ f ∈ (s.expirations.drainExpired now).1, _ at queued
  revert drained
  generalize ({ s with expirations := (s.expirations.drainExpired now).2 } : Socket) = s'
  generalize indices : (s.expirations.drainExpired now).1.zipIdx = expired
  have each : ∀ pair ∈ expired, NoData pair.1.retry.packet := by
    intro pair member
    rw [← indices] at member
    exact retries _ (queued _ (List.fst_mem_of_mem_zipIdx member))
  clear indices
  induction expired generalizing s' with
  | nil => exact id
  | cons pair rest ih =>
    intro holds
    rw [List.foldl_cons]
    refine ih _ (fun other member => each other (List.mem_cons_of_mem _ member)) ?_
    by_cases rtx : pair.1.key.type = .t3Rtx
    · unfold Socket.handleExpiration
      simp only [rtx]
      exact t3 s' _ _ holds
    · exact calm _ _ (.handleExpiration s' now _ rtx (each pair List.mem_cons_self)) holds

end SctpStack
