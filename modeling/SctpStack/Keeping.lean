import SctpStack.CalmHandlers

/-!
# Steps that leave the state of every association alone

Where an association stands is its tags, its state, what it may still send, its streams
and its addresses (`Essence`). Most of what a socket does leaves all that as it is for
every association, keeps the timers its handshake and its shutdown depend on, and takes
no packet of the handshake out of the send queue: such a step is `Quiet`. `Keeping` says
the same of a step that changes associations by some relation.
-/

namespace SctpStack

/-- Where an association stands. -/
structure Essence where
  thisVerTag : Tag
  peerVerTag : Tag
  state : AssociationState
  nextTsn : Tsn
  cumulativeTsnAck : Tsn
  outbound : List OutboundMessage
  inStreams : BitVec 16
  outStreams : BitVec 16
  /-- The number of streams SSNs are kept for. -/
  ssns : Nat
  pmdcs : Nat
  ips : List (BitVec 32)

def Association.essence (a : Association) : Essence where
  thisVerTag := a.thisVerTag
  peerVerTag := a.peerVerTag
  state := a.state
  nextTsn := a.nextTsn
  cumulativeTsnAck := a.cumulativeTsnAck
  outbound := a.outbound
  inStreams := a.inStreams
  outStreams := a.outStreams
  ssns := a.nextSsn.length
  pmdcs := a.pmdcs
  ips := a.ips

/-- What was received is held as it was. Duplicates may have been reported. -/
structure StillHolds (a b : Association) : Prop where
  lastPeerTsn : b.lastPeerTsn = a.lastPeerTsn
  tsnOooBuffer : b.tsnOooBuffer = a.tsnOooBuffer
  duplicateTsns : b.duplicateTsns = a.duplicateTsns ∨ b.duplicateTsns = []

/-- Nothing changed that matters. -/
structure Same (a b : Association) : Prop where
  essence : b.essence = a.essence
  holds : StillHolds a b

theorem StillHolds.refl (a : Association) : StillHolds a a := ⟨rfl, rfl, Or.inl rfl⟩

theorem StillHolds.trans {a b c : Association} (first : StillHolds a b) (second : StillHolds b c) :
    StillHolds a c where
  lastPeerTsn := second.lastPeerTsn.trans first.lastPeerTsn
  tsnOooBuffer := second.tsnOooBuffer.trans first.tsnOooBuffer
  duplicateTsns := by
    rcases second.duplicateTsns with same | none
    · rw [same]
      exact first.duplicateTsns
    · exact Or.inr none

theorem Same.refl (a : Association) : Same a a := ⟨rfl, .refl a⟩

theorem Same.trans {a b c : Association} (first : Same a b) (second : Same b c) : Same a c :=
  ⟨second.essence.trans first.essence, first.holds.trans second.holds⟩

/-! ## Timers -/

/-- The timers of a handshake and the guard of a shutdown. -/
def isMajor : ExpirationTimerType → Bool
  | .t1Init | .t1Cookie | .t5ShutdownGuard => true
  | _ => false

/-- The major timers are as they were, and a T2-shutdown that was running runs. -/
structure TimersKept (q q' : ExpirationQueue) : Prop where
  active : ∀ timer, isMajor timer.type = true → q'.active.get? timer = q.active.get? timer
  t2 : ∀ key, q.isActive (timerOf key .t2Shutdown) = true → q'.isActive (timerOf key .t2Shutdown)
    = true
  heap : ∃ more, q'.queue = q.queue ++ more
    ∧ ∀ f ∈ more, isMajor f.key.type = false ∧ f.generation < q'.nextGeneration
  next : q.nextGeneration ≤ q'.nextGeneration

namespace TimersKept

variable (q : ExpirationQueue)

theorem refl : TimersKept q q :=
  ⟨fun _ _ => rfl, fun _ => id, ⟨[], (List.append_nil _).symm, by simp⟩, Nat.le_refl _⟩

theorem trans {q q' q'' : ExpirationQueue} (first : TimersKept q q') (second : TimersKept q' q'') :
    TimersKept q q'' where
  active := fun timer major => (second.active timer major).trans (first.active timer major)
  t2 := fun key active => second.t2 key (first.t2 key active)
  heap := by
    obtain ⟨more, queue, minor⟩ := first.heap
    obtain ⟨more', queue', minor'⟩ := second.heap
    refine ⟨more ++ more', by rw [queue', queue, List.append_assoc], fun f member => ?_⟩
    rcases List.mem_append.mp member with early | late
    · exact ⟨(minor f early).1, Nat.lt_of_lt_of_le (minor f early).2 second.next⟩
    · exact minor' f late
  next := Nat.le_trans first.next second.next

theorem schedule {timer : ExpirationKey} (minor : isMajor timer.type = false) (expiration : Time)
    (retry : Deliverable) : TimersKept q (q.schedule timer expiration retry) where
  active := by
    intro other major
    have apart : other ≠ timer := by
      rintro rfl
      rw [minor] at major
      cases major
    simp [ExpirationQueue.schedule, apart]
  t2 := by
    intro key active
    simp only [ExpirationQueue.isActive, ExpirationQueue.schedule, KeyMap.contains_put] at active ⊢
    simp [active]
  heap := ⟨_, rfl, by
    intro f member
    rcases List.mem_singleton.mp member with rfl
    exact ⟨minor, Nat.lt_succ_self _⟩⟩
  next := Nat.le_succ _

/-- Timers are stopped that are neither major nor T2-shutdown. -/
theorem stops {q' : ExpirationQueue} (queue : q'.queue = q.queue)
    (next : q'.nextGeneration = q.nextGeneration) (active : ∀ timer, isMajor timer.type = true
      ∨ timer.type = .t2Shutdown → q'.active.get? timer = q.active.get? timer) :
        TimersKept q q' where
  active := fun timer major => active timer (Or.inl major)
  t2 := by
    intro key was
    simp only [ExpirationQueue.isActive, KeyMap.contains] at was ⊢
    rw [active (timerOf key .t2Shutdown) (Or.inr rfl)]
    exact was
  heap := ⟨[], by rw [queue, List.append_nil], by simp⟩
  next := Nat.le_of_eq next.symm

theorem cancel {timer : ExpirationKey} (minor : isMajor timer.type = false)
    (other : timer.type ≠ .t2Shutdown) :
    TimersKept q (q.cancel timer) := by
  refine stops q rfl rfl fun timer' here => ?_
  have apart : timer' ≠ timer := by
    rintro rfl
    rcases here with major | t2
    · rw [minor] at major
      cases major
    · exact other t2
  simp [ExpirationQueue.cancel, apart]

theorem cancelAllOfType (key : AssociationKey) {type : ExpirationTimerType}
    (minor : isMajor type = false) (other : type ≠ .t2Shutdown) :
    TimersKept q (q.cancelAllOfType key type) := by
  refine stops q rfl rfl fun timer here => ?_
  have apart : ¬(timer.location = key ∧ timer.type = type) := by
    rintro ⟨-, rfl⟩
    rcases here with major | t2
    · rw [minor] at major
      cases major
    · exact other t2
  rw [ExpirationQueue.cancelAllOfType, KeyMap.get?_filterMap]
  cases q.active.get? timer with
  | none => rfl
  | some generation => simp [apart]

end TimersKept

/-! ## Queued packets -/

/-- A packet with a chunk of a type is queued for a key, as control traffic or for
retransmission. -/
def QueuedWith (q : SendQueue) (key : AssociationKey) (type : ChunkType) : Prop :=
  ∃ e ∈ q.control ++ q.retransmission, e.deliverable.location = key
    ∧ containsChunk e.deliverable.packet type = true

/-- The chunks that open an association. -/
def opens : ChunkType → Bool
  | .init | .cookieEcho => true
  | _ => false

/-- No packet of a handshake left the queue. -/
def OpeningsKept (q q' : SendQueue) : Prop :=
  ∀ key type, opens type = true → QueuedWith q key type → QueuedWith q' key type

theorem OpeningsKept.refl (q : SendQueue) : OpeningsKept q q := fun _ _ _ => id

theorem OpeningsKept.trans {q q' q'' : SendQueue} (first : OpeningsKept q q')
    (second : OpeningsKept q' q'') :
    OpeningsKept q q'' :=
  fun key type opening queued => second key type opening (first key type opening queued)

theorem OpeningsKept.of_subset {q q' : SendQueue} (control : q.control ⊆ q'.control)
    (retransmission : q.retransmission ⊆ q'.retransmission) : OpeningsKept q q' := by
  rintro key type - ⟨e, member, here⟩
  refine ⟨e, ?_, here⟩
  rcases List.mem_append.mp member with inside | inside
  · exact List.mem_append_left _ (control inside)
  · exact List.mem_append_right _ (retransmission inside)

theorem OpeningsKept.enqueue (q : SendQueue) (d : Deliverable) (priority : SendPriority) :
    OpeningsKept q (q.enqueue d priority) := by
  cases priority with
  | control =>
    unfold SendQueue.enqueue
    simp only
    split
    · exact .refl q
    · exact .of_subset (List.subset_append_left _ _) fun _ => id
  | retransmission => exact .of_subset (fun _ => id) (List.subset_append_left _ _)
  | newData => exact .of_subset (fun _ => id) fun _ => id

/-! ## Keeping -/

/-- No SHUTDOWN COMPLETE is notified. -/
def NothingCompleted (q q' : NotificationQueue) : Prop :=
  ∀ n ∈ q'.queue, n ∈ q.queue ∨ n.payload ≠ .assocChange .shutdownComp

theorem NothingCompleted.refl (q : NotificationQueue) : NothingCompleted q q := fun _ => Or.inl

theorem NothingCompleted.trans {q q' q'' : NotificationQueue} (first : NothingCompleted q q')
    (second : NothingCompleted q' q'') : NothingCompleted q q'' := by
  intro n member
  rcases second n member with before | other
  · exact first n before
  · exact Or.inr other

theorem NothingCompleted.enqueue (q : NotificationQueue) (key : AssociationKey)
    {payload : NotificationPayload} (other : payload ≠ .assocChange .shutdownComp) :
    NothingCompleted q (q.enqueue key payload) := by
  intro n member
  unfold NotificationQueue.enqueue at member
  split at member
  · exact Or.inl member
  · split at member
    · exact Or.inl member
    · rcases List.mem_append.mp member with before | new
      · exact Or.inl before
      · rcases List.mem_singleton.mp new with rfl
        exact Or.inr other

/-- Every association is changed by `R`, none comes or goes, and the rest is kept. -/
structure Keeping (R : AssociationKey → Association → Association → Prop) (s s' : Socket) :
    Prop where
  localAddress : s'.localAddress = s.localAddress
  peerAddresses : s'.peerAddresses = s.peerAddresses
  absent : ∀ key, s.find? key = none → s'.find? key = none
  present : ∀ key a, s.find? key = some a → ∃ b, s'.find? key = some b ∧ R key a b
  timers : TimersKept s.expirations s'.expirations
  openings : OpeningsKept s.sends s'.sends
  notifications : NothingCompleted s.notifications s'.notifications

abbrev Quiet : Socket → Socket → Prop := Keeping fun _ => Same

namespace Keeping

variable {R R' R'' : AssociationKey → Association → Association → Prop} {s s' s'' : Socket}
    {key : AssociationKey}

theorem mono (keeping : Keeping R s s') (weaker : ∀ key a b, s.find? key = some a → R key a b →
    R' key a b) :
    Keeping R' s s' where
  localAddress := keeping.localAddress
  peerAddresses := keeping.peerAddresses
  absent := keeping.absent
  present := by
    intro key a found
    obtain ⟨b, after, related⟩ := keeping.present key a found
    exact ⟨b, after, weaker key a b found related⟩
  timers := keeping.timers
  openings := keeping.openings
  notifications := keeping.notifications

theorem comp (first : Keeping R s s') (second : Keeping R' s' s'')
    (both : ∀ key a b c, R key a b → R' key b c → R'' key a c) : Keeping R'' s s'' where
  localAddress := second.localAddress.trans first.localAddress
  peerAddresses := second.peerAddresses.trans first.peerAddresses
  absent := fun key found => second.absent key (first.absent key found)
  present := by
    intro key a found
    obtain ⟨b, middle, here⟩ := first.present key a found
    obtain ⟨c, after, there⟩ := second.present key b middle
    exact ⟨c, after, both key a b c here there⟩
  timers := first.timers.trans second.timers
  openings := first.openings.trans second.openings
  notifications := first.notifications.trans second.notifications

/-- What an association was before a step. -/
theorem before (keeping : Keeping R s s') {b : Association} (found : s'.find? key = some b) :
    ∃ a, s.find? key = some a ∧ R key a b := by
  cases here : s.find? key with
  | none =>
    rw [keeping.absent key here] at found
    cases found
  | some a =>
    obtain ⟨b', after, related⟩ := keeping.present key a here
    rw [found] at after
    cases after
    exact ⟨a, rfl, related⟩

/-- A step that touches associations alone. -/
theorem of_associations (localAddress : s'.localAddress = s.localAddress)
    (peerAddresses : s'.peerAddresses = s.peerAddresses)
    (expirations : s'.expirations = s.expirations) (sends : s'.sends = s.sends)
    (notifications : s'.notifications = s.notifications)
    (absent : ∀ key, s.find? key = none → s'.find? key = none)
    (present : ∀ key a, s.find? key = some a → ∃ b, s'.find? key = some b ∧ R key a b) :
    Keeping R s s' where
  localAddress := localAddress
  peerAddresses := peerAddresses
  absent := absent
  present := present
  timers := by
    rw [expirations]
    exact .refl _
  openings := by
    rw [sends]
    exact .refl _
  notifications := by
    rw [notifications]
    exact .refl _

theorem update (f : Association → Association) (refl : ∀ k a, k ≠ key → R k a a)
    (here : ∀ a, s.find? key = some a → R key a (f a)) :
    Keeping R s (s.updateAssociation key f) := by
  refine of_associations rfl rfl rfl rfl rfl (fun k gone => ?_) fun k a found => ?_
  · by_cases same : k = key
    · subst same
      simp [gone]
    · simp [same, gone]
  · by_cases same : k = key
    · subst same
      exact ⟨f a, by simp [found], here a found⟩
    · exact ⟨a, by simp [same, found], refl k a same⟩

theorem set {a b : Association} (found : s.find? key = some a) (refl : ∀ k a, k ≠ key → R k a a)
    (here : R key a b) :
    Keeping R s (s.setAssociation key b) := by
  refine of_associations rfl rfl rfl rfl rfl (fun k gone => ?_) fun k c present => ?_
  · by_cases same : k = key
    · subst same
      rw [gone] at found
      cases found
    · simp [same, gone]
  · by_cases same : k = key
    · subst same
      rw [present] at found
      cases found
      exact ⟨b, by simp, here⟩
    · exact ⟨c, by simp [same, present], refl k c same⟩

end Keeping

/-! ## Quiet operations -/

namespace Quiet

variable (s : Socket) (key : AssociationKey)

/-- A step that leaves every association as it is. -/
theorem of_same {s s' : Socket} (found : ∀ k, s'.find? k = s.find? k)
    (localAddress : s'.localAddress = s.localAddress)
    (peerAddresses : s'.peerAddresses = s.peerAddresses)
    (timers : TimersKept s.expirations s'.expirations) (openings : OpeningsKept s.sends s'.sends)
    (notifications : NothingCompleted s.notifications s'.notifications) :
    Quiet s s' where
  localAddress := localAddress
  peerAddresses := peerAddresses
  absent := fun k gone => (found k).trans gone
  present := fun k a here => ⟨a, (found k).trans here, .refl a⟩
  timers := timers
  openings := openings
  notifications := notifications

theorem refl : Quiet s s := of_same (fun _ => rfl) rfl rfl (.refl _) (.refl _) (.refl _)

theorem trans {s s' s'' : Socket} (first : Quiet s s') (second : Quiet s' s'') : Quiet s s'' :=
  first.comp second fun _ _ _ _ => Same.trans

theorem update {s : Socket} {key : AssociationKey} {f : Association → Association}
    (same : ∀ a, s.find? key = some a → Same a (f a)) : Quiet s (s.updateAssociation key f) :=
  Keeping.update f (fun _ a _ => .refl a) same

theorem set {s : Socket} {key : AssociationKey} {a b : Association} (found : s.find? key = some a)
    (same : Same a b) :
    Quiet s (s.setAssociation key b) :=
  Keeping.set found (fun _ a _ => .refl a) same

theorem enqueue (d : Deliverable) (priority : SendPriority) :
    Quiet s (s.enqueuePacket d priority) :=
  of_same (fun _ => rfl) rfl rfl (.refl _) (.enqueue _ d priority) (.refl _)

theorem reply (destination : SockAddr) (packet : Packet) :
    Quiet s (s.reply key destination packet) :=
  enqueue s _ _

theorem notify {payload : NotificationPayload} (other : payload ≠ .assocChange .shutdownComp) :
    Quiet s (s.notify key payload) :=
  of_same (fun _ => rfl) rfl rfl (.refl _) (.refl _) (.enqueue _ key other)

theorem notifyAssocChange {state : AssocChangeState} (other : state ≠ .shutdownComp) :
    Quiet s (s.notifyAssocChange key state) :=
  notify s key fun same => other (NotificationPayload.assocChange.inj same)

theorem schedule {timer : ExpirationKey} (minor : isMajor timer.type = false) (expiration : Time)
    (retry : Deliverable) :
    Quiet s (s.scheduleExpiration timer expiration retry) :=
  of_same (fun _ => rfl) rfl rfl (.schedule _ minor expiration retry) (.refl _) (.refl _)

theorem cancel {timer : ExpirationKey} (minor : isMajor timer.type = false)
    (other : timer.type ≠ .t2Shutdown) :
    Quiet s (s.cancelExpiration timer) :=
  of_same (fun _ => rfl) rfl rfl (.cancel _ minor other) (.refl _) (.refl _)

theorem cancelOfType {type : ExpirationTimerType} (minor : isMajor type = false)
    (other : type ≠ .t2Shutdown) :
    Quiet s (s.cancelExpirationsOfType key type) :=
  of_same (fun _ => rfl) rfl rfl (.cancelAllOfType _ key minor other) (.refl _) (.refl _)

theorem receives (receives : ReceiveQueue) : Quiet s { s with receives := receives } :=
  of_same (fun _ => rfl) rfl rfl (.refl _) (.refl _) (.refl _)

theorem authorizer (auth : CookieAuth) : Quiet s { s with cookieAuthorizer := auth } :=
  of_same (fun _ => rfl) rfl rfl (.refl _) (.refl _) (.refl _)

theorem foldl {α : Type} {f : Socket → α → Socket} (each : ∀ s a, Quiet s (f s a)) (l : List α) :
    Quiet s (l.foldl f s) := by
  induction l generalizing s with
  | nil => exact .refl s
  | cons a rest ih => exact (each s a).trans (ih (f s a))

end Quiet

end SctpStack
