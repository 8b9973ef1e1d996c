import SctpStack.QuietHandlers
import SctpStack.SendPass
import SctpStack.SentOut

/-!
# What moves an association on

What a socket does is a sequence of moves: quiet steps, and the few steps that take an
association from one state to the next, tear it down, or let it send (`Move`). The ways
into an association are not among them: opening it, an INIT ACK, a cookie and the retry
after a stale one each have a lemma of their own, since what they do depends on what the
peer sent.
-/

namespace SctpStack

/-! ## Changes to one association -/

/-- One association is changed by `R`, the others are the same. -/
def At (key : AssociationKey) (R : Association → Association → Prop) (k : AssociationKey)
    (a b : Association) : Prop :=
  if k = key then R a b else Same a b

/-- An acknowledgement, or the start of a shutdown, for an association that sends. -/
structure Closing (a b : Association) : Prop where
  essence : { b.essence with cumulativeTsnAck := a.cumulativeTsnAck, state := a.state } = a.essence
  holds : StillHolds a b
  before : transmitsData a.state = true
  after : transmitsData b.state = true
  established : b.state = .established → a.state = .established
  acked : b.cumulativeTsnAck = a.cumulativeTsnAck
    ∨ tsnLt b.cumulativeTsnAck a.nextTsn = true ∧ tsnLt b.cumulativeTsnAck a.cumulativeTsnAck
      = false

/-- A change that takes an association on without closing it further than it is. -/
inductive Shift (a b : Association) : Prop where
  /-- The ULP queued a message. -/
  | queued : { b.essence with outbound := a.outbound } = a.essence → StillHolds a b →
      a.state = .established → Shift a b
  /-- Chunks were cut from what is queued. -/
  | cut (n : Nat) : { b.essence with nextTsn := a.nextTsn, outbound := a.outbound } = a.essence →
      StillHolds a b → transmitsData a.state = true → b.nextTsn = Serial.ahead a.nextTsn n →
        (n = 0 → b.outbound = a.outbound) →
      Shift a b
  /-- A SHUTDOWN came while closing. -/
  | answered : { b.essence with state := a.state } = a.essence → StillHolds a b →
      a.state = .shutdownSent ∨ a.state = .shutdownAckSent → b.state = .shutdownAckSent → Shift a b

theorem Closing.same {a b c : Association} (closing : Closing a b) (same : Same b c) :
    Closing a c where
  essence := by
    rw [same.essence]
    exact closing.essence
  holds := closing.holds.trans same.holds
  before := closing.before
  after := by
    rw [show c.state = b.state from congrArg Essence.state same.essence]
    exact closing.after
  established := by
    rw [show c.state = b.state from congrArg Essence.state same.essence]
    exact closing.established
  acked := by
    rw [show c.cumulativeTsnAck = b.cumulativeTsnAck from congrArg Essence.cumulativeTsnAck
      same.essence]
    exact closing.acked

theorem Shift.same {a b c : Association} (shift : Shift a b) (same : Same b c) : Shift a c := by
  cases shift with
  | queued essence holds state =>
      exact .queued (by rw [same.essence]; exact essence) (holds.trans same.holds) state
  | cut n essence holds state nextTsn none =>
    refine .cut n (by rw [same.essence]; exact essence) (holds.trans same.holds)
      state ?_ fun nothing => ?_
    · exact (congrArg Essence.nextTsn same.essence).trans nextTsn
    · exact (congrArg Essence.outbound same.essence).trans (none nothing)
  | answered essence holds before after =>
    refine .answered (by rw [same.essence]; exact essence) (holds.trans same.holds) before ?_
    exact (congrArg Essence.state same.essence).trans after

section At

variable {R : Association → Association → Prop} {s s' s'' : Socket} {key : AssociationKey}

theorem at_of_ne {k : AssociationKey} (apart : k ≠ key) (a : Association) : At key R k a a := by
  rw [At, if_neg apart]
  exact .refl a

theorem at_self {a b : Association} (related : R a b) : At key R key a b := by
  rw [At, if_pos rfl]
  exact related

theorem Keeping.followed (first : Keeping (At key R) s s')
    (absorbs : ∀ a b c, R a b → Same b c → R a c) (second : Quiet s' s'') :
    Keeping (At key R) s s'' := by
  refine first.comp second fun k a b c here same => ?_
  unfold At at here ⊢
  split
  · next eq =>
    rw [if_pos eq] at here
    exact absorbs a b c here same
  · next apart =>
    rw [if_neg apart] at here
    exact here.trans same

theorem Keeping.thenQuiet (first : Keeping (At key Closing) s s') (second : Quiet s' s'') :
    Keeping (At key Closing) s s'' :=
  first.followed (fun _ _ _ => Closing.same) second

theorem Keeping.setAt {a b : Association} (found : s.find? key = some a) (related : R a b) :
    Keeping (At key R) s (s.setAssociation key b) :=
  .set found (fun _ a apart => at_of_ne apart a) (at_self related)

end At

/-! ## Teardown -/

/-- The timers of one key are stopped. -/
structure TimersStopped (key : AssociationKey) (q q' : ExpirationQueue) : Prop where
  active : ∀ timer, q'.active.get? timer = if timer.location = key then none
    else q.active.get? timer
  queue : q'.queue = q.queue
  next : q'.nextGeneration = q.nextGeneration

theorem TimersStopped.cancelAll (key : AssociationKey) (q : ExpirationQueue) :
    TimersStopped key q (q.cancelAll key) := by
  refine ⟨fun timer => ?_, rfl, rfl⟩
  rw [ExpirationQueue.cancelAll, KeyMap.get?_filterMap]
  cases q.active.get? timer with
  | none => simp
  | some generation =>
    simp only [Option.bind_some]

/-- A timer of the key was stopped before the rest of them. -/
theorem TimersStopped.of_cancel {key : AssociationKey} {q q' : ExpirationQueue}
    {timer : ExpirationKey} (here : timer.location = key)
    (stopped : TimersStopped key (q.cancel timer) q') : TimersStopped key q q' := by
  refine ⟨fun other => ?_, stopped.queue, stopped.next⟩
  rw [stopped.active]
  split
  · rfl
  · next apart =>
    have differs : other ≠ timer := by
      rintro rfl
      exact apart here
    simp [ExpirationQueue.cancel, differs]

/-- An association is gone with all that was kept for it. -/
structure Removed (key : AssociationKey) (s s' : Socket) : Prop where
  localAddress : s'.localAddress = s.localAddress
  find? : ∀ k, s'.find? k = if k = key then none else s.find? k
  peerAddresses : s'.peerAddresses = (s.forgetPeerAddresses key).peerAddresses
  timers : TimersStopped key s.expirations s'.expirations
  openings : ∀ k type, k ≠ key → opens type = true → QueuedWith s.sends k type →
    QueuedWith s'.sends k type
  notifications : NothingCompleted s.notifications s'.notifications

theorem Removed.of_set {key : AssociationKey} {s s' : Socket} {b : Association}
    (removed : Removed key (s.setAssociation key b) s') : Removed key s s' where
  localAddress := removed.localAddress
  find? := by
    intro k
    rw [removed.find?]
    split
    · rfl
    · next apart => simp [apart]
  peerAddresses := removed.peerAddresses
  timers := removed.timers
  openings := removed.openings
  notifications := removed.notifications

theorem queuedWith_purge {q : SendQueue} {key k : AssociationKey} {type : ChunkType}
    (apart : k ≠ key) (queued : QueuedWith q k type) : QueuedWith (q.purge key) k type := by
  obtain ⟨e, member, location, contains⟩ := queued
  refine ⟨e, ?_, location, contains⟩
  have stays : decide (e.deliverable.location ≠ key) = true := by
    rw [location]
    exact decide_eq_true apart
  rcases List.mem_append.mp member with inside | inside
  · exact List.mem_append_left _ (List.mem_filter.mpr ⟨inside, stays⟩)
  · exact List.mem_append_right _ (List.mem_filter.mpr ⟨inside, stays⟩)

/-- Whatever else happened to what was received, the steps of a teardown. -/
theorem removed_of_steps {s s₁ : Socket} {key : AssociationKey}
    (found : ∀ k, s₁.find? k = if k = key then none else s.find? k)
    (localAddress : s₁.localAddress = s.localAddress)
    (peerAddresses : s₁.peerAddresses = s.peerAddresses)
    (expirations : s₁.expirations = s.expirations) (sends : s₁.sends = s.sends)
    (notifications : NothingCompleted s.notifications s₁.notifications) :
    Removed key s (((s₁.forgetPeerAddresses key).cancelExpirations key).purgeSends key) where
  localAddress := localAddress
  find? := found
  peerAddresses := by
    simp only [Socket.purgeSends, Socket.cancelExpirations, Socket.forgetPeerAddresses,
      peerAddresses]
  timers := by
    simp only [Socket.purgeSends, Socket.cancelExpirations, Socket.forgetPeerAddresses, expirations]
    exact .cancelAll key s.expirations
  openings := by
    intro k type apart _ queued
    simp only [Socket.purgeSends, Socket.cancelExpirations, Socket.forgetPeerAddresses, sends]
    exact queuedWith_purge apart queued
  notifications := notifications

theorem removed_removeAssociation (s : Socket) (key : AssociationKey) :
    Removed key s (s.removeAssociation key) := by
  unfold Socket.removeAssociation
  simp only
  cases found : s.find? key with
  | none =>
    refine removed_of_steps (fun k => ?_) rfl rfl rfl rfl (.refl _)
    by_cases here : k = key
    · rw [if_pos here, here]
      exact found
    · rw [if_neg here]
      rfl
  | some a =>
    have abandoned : ∀ k, (s.abandonPartialDelivery key a).find? k = s.find? k
        ∧ (s.abandonPartialDelivery key a).localAddress = s.localAddress
        ∧ (s.abandonPartialDelivery key a).peerAddresses = s.peerAddresses
        ∧ (s.abandonPartialDelivery key a).expirations = s.expirations
        ∧ (s.abandonPartialDelivery key a).sends = s.sends
        ∧ NothingCompleted s.notifications (s.abandonPartialDelivery key a).notifications := by
      intro k
      unfold Socket.abandonPartialDelivery
      split
      · exact ⟨rfl, rfl, rfl, rfl, rfl, .refl _⟩
      · exact ⟨rfl, rfl, rfl, rfl, rfl, .enqueue _ key nofun⟩
    obtain ⟨-, localAddress, peerAddresses, expirations, sends, notifications⟩ := abandoned key
    refine removed_of_steps (fun k => ?_) localAddress peerAddresses expirations sends notifications
    rw [Socket.find?_detachReceives, Socket.find?_eraseAssociation]
    split
    · rfl
    · exact (abandoned k).1

/-! ## The handshake's packets -/

/-- The state that waits for the answer to an INIT, or to a COOKIE ECHO. -/
def openingState (isInit : Bool) : AssociationState := if isInit then .cookieWait else .cookieEchoed

def openingTimer (isInit : Bool) : ExpirationTimerType := if isInit then .t1Init else .t1Cookie

def openingChunk (isInit : Bool) : ChunkType := if isInit then .init else .cookieEcho

/-- A packet on its way out, still at the head of its queue. -/
inductive Leaves (sends : SendQueue) (p : Pending) : Prop where
  | control (e : Queued) (rest : List Queued) :
      p.priority = .control → sends.control = e :: rest → p.id = e.id →
        p.deliverable = e.deliverable → Leaves sends p
  | retransmission (e : Queued) (rest : List Queued) : p.priority = .retransmission →
      sends.retransmission = e :: rest → p.id = e.id → p.deliverable.location
        = e.deliverable.location →
      (∀ type, containsChunk e.deliverable.packet type = true →
        containsChunk p.deliverable.packet type = true) →
      Leaves sends p
  | newData : p.priority = .newData → Leaves sends p

/-! ## Moves -/

inductive Move (s : Socket) : Socket → Prop where
  | quiet {s' : Socket} : Quiet s s' → Move s s'
  | shift {s' : Socket} (key : AssociationKey) : Keeping (At key Shift) s s' → Move s s'
  | removed {s' : Socket} (key : AssociationKey) : Removed key s s' → Move s s'
  /-- The shutdown is over, and the ULP is told. -/
  | completed {s' s'' : Socket} (key : AssociationKey) (a : Association) : s.find? key = some a →
      a.state = .shutdownSent ∨ a.state = .shutdownAckSent → Removed key s s' → Quiet s' s'' →
      Move s (s''.notifyAssocChange key .shutdownComp)
  /-- A COOKIE ECHO was acknowledged. -/
  | up (key : AssociationKey) (a : Association) : s.find? key = some a → a.state = .cookieEchoed →
      Move s (s.updateAssociation key fun assoc => { assoc with state := .established })
  /-- T1 stops: nothing waits for it. -/
  | settled (key : AssociationKey) (isInit : Bool) :
      (∀ a, s.find? key = some a → a.state ≠ openingState isInit) →
        Move s (s.cancelExpiration (timerOf key (openingTimer isInit)))
  /-- Nor is its packet sent again. -/
  | dropped (key : AssociationKey) (isInit : Bool) :
      (∀ a, s.find? key = some a → a.state ≠ openingState isInit) →
        Move s (s.removeRetransmissionsOfType key (openingChunk isInit) none)
  | closed {s' : Socket} (key : AssociationKey) (now : Time) : Keeping (At key Closing) s s' →
      Move s (s'.doNextShutdownStep now key)
  | sent (p : Pending) (now : Time) : Leaves s.sends p → Move s (s.packetSent now p)

/-- A sequence of moves. -/
abbrev Acts : Socket → Socket → Prop := Relation.ReflTransGen Move

theorem Acts.quiet {s s' : Socket} (quiet : Quiet s s') : Acts s s' := .single (.quiet quiet)

theorem Acts.thenQuiet {s s' s'' : Socket} (acts : Acts s s') (quiet : Quiet s' s'') : Acts s s'' :=
  acts.tail (.quiet quiet)

/-- What every move keeps, a sequence of them keeps. -/
theorem Acts.keeps {inv : Socket → Prop} (moves : ∀ s s', Move s s' → inv s → inv s')
    {s s' : Socket} (acts : Acts s s') (holds : inv s) : inv s' := by
  induction acts with
  | refl => exact holds
  | tail _ move ih => exact moves _ _ move ih

end SctpStack
