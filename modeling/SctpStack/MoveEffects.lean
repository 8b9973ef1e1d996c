import SctpStack.WaysIn

/-!
# What sending and closing change

Two of the moves start major timers: a packet that goes out arms T1 for what opens an
association (`AfterSend`), and the step of a shutdown starts T2-shutdown and, on the side
that closed first, the guard (`doNextShutdownStep_cases`).
-/

namespace SctpStack

/-! ## Associations, whatever the timers and the queues -/

/-- Every association is changed by `R`, and none comes or goes. -/
structure Lasting (R : AssociationKey → Association → Association → Prop) (s s' : Socket) :
    Prop where
  localAddress : s'.localAddress = s.localAddress
  peerAddresses : s'.peerAddresses = s.peerAddresses
  absent : ∀ key, s.find? key = none → s'.find? key = none
  present : ∀ key a, s.find? key = some a → ∃ b, s'.find? key = some b ∧ R key a b

section Lasting

variable {R R' R'' : AssociationKey → Association → Association → Prop} {s s' s'' : Socket}

theorem Keeping.lasting (keeping : Keeping R s s') : Lasting R s s' :=
  ⟨keeping.localAddress, keeping.peerAddresses, keeping.absent, keeping.present⟩

theorem Lasting.mono (lasting : Lasting R s s') (weaker : ∀ key a b, R key a b → R' key a b) :
    Lasting R' s s' where
  localAddress := lasting.localAddress
  peerAddresses := lasting.peerAddresses
  absent := lasting.absent
  present := by
    intro key a found
    obtain ⟨b, after, related⟩ := lasting.present key a found
    exact ⟨b, after, weaker key a b related⟩

theorem Lasting.comp (first : Lasting R s s') (second : Lasting R' s' s'')
    (both : ∀ key a b c, R key a b → R' key b c → R'' key a c) : Lasting R'' s s'' where
  localAddress := second.localAddress.trans first.localAddress
  peerAddresses := second.peerAddresses.trans first.peerAddresses
  absent := fun key found => second.absent key (first.absent key found)
  present := by
    intro key a found
    obtain ⟨b, middle, here⟩ := first.present key a found
    obtain ⟨c, after, there⟩ := second.present key b middle
    exact ⟨c, after, both key a b c here there⟩

theorem Lasting.before (lasting : Lasting R s s') {key : AssociationKey} {b : Association}
    (found : s'.find? key = some b) : ∃ a, s.find? key = some a ∧ R key a b := by
  cases here : s.find? key with
  | none =>
    rw [lasting.absent key here] at found
    cases found
  | some a =>
    obtain ⟨b', after, related⟩ := lasting.present key a here
    rw [found] at after
    cases after
    exact ⟨a, rfl, related⟩

/-- A step that touches no association. -/
theorem Lasting.of_same (refl : ∀ key a, R key a a)
    (localAddress : s'.localAddress = s.localAddress)
    (peerAddresses : s'.peerAddresses = s.peerAddresses)
    (found : ∀ key, s'.find? key = s.find? key) : Lasting R s s' :=
  ⟨localAddress, peerAddresses, fun key none => (found key).trans none, fun key a some =>
    ⟨a, (found key).trans some, refl key a⟩⟩

end Lasting

/-- Every association is the same, whatever the timers. -/
abbrev Steady : Socket → Socket → Prop := Lasting fun _ => Same

theorem Steady.trans {s s' s'' : Socket} (first : Steady s s') (second : Steady s' s'') :
    Steady s s'' :=
  first.comp second fun _ _ _ _ => Same.trans

theorem Steady.of_same {s s' : Socket} (localAddress : s'.localAddress = s.localAddress)
    (peerAddresses : s'.peerAddresses = s.peerAddresses)
    (found : ∀ key, s'.find? key = s.find? key) : Steady s s' :=
  Lasting.of_same (fun _ => Same.refl) localAddress peerAddresses found

theorem same_recordDataSentIn (a : Association) (destination : SockAddr) (data : DataChunkValue)
    (sentAt : Time) :
    Same a (recordDataSentIn a destination data sentAt) := by
  have dated := Same.modifyPath a (sentOn a destination) (f := fun path =>
      { path with dataSentAt := sentAt, idleDecaying := false })
    fun _ => rfl
  unfold recordDataSentIn
  simp only
  split
  · exact dated.trans ⟨rfl, rfl, rfl, Or.inl rfl⟩
  · refine dated.trans (Same.trans (Same.modifyPath _ (sentOn a destination)
      (f := fun path => { path with newDataSentAt := sentAt }) fun _ => rfl) ?_)
    exact ⟨rfl, rfl, rfl, Or.inl rfl⟩

/-! ## After a packet went out -/

/-- What a packet that went out does to the timers: T1 is armed for what opens an
association, and no other major timer changes. -/
structure AfterSend (d : Deliverable) (s s' : Socket) : Prop where
  steady : Steady s s'
  t5 : ∀ key, s'.expirations.active.get? (timerOf key .t5ShutdownGuard)
    = s.expirations.active.get? (timerOf key .t5ShutdownGuard)
  active : ∀ timer, isMajor timer.type = true → s.expirations.isActive timer = true →
    s'.expirations.isActive timer = true
  t2 : ∀ key, s.expirations.isActive (timerOf key .t2Shutdown) = true →
    s'.expirations.isActive (timerOf key .t2Shutdown) = true
  heap : ∃ more, s'.expirations.queue = s.expirations.queue ++ more
    ∧ ∀ f ∈ more, f.generation < s'.expirations.nextGeneration
      ∧ (isMajor f.key.type = false ∨ ∃ isInit, f.key = timerOf d.location (openingTimer isInit)
      ∧ f.retry = d
        ∧ containsChunk d.packet (openingChunk isInit) = true)
  next : s.expirations.nextGeneration ≤ s'.expirations.nextGeneration
  openings : OpeningsKept s.sends s'.sends
  notifications : NothingCompleted s.notifications s'.notifications

theorem Keeping.afterSend {s s' : Socket} (quiet : Quiet s s') (d : Deliverable) :
    AfterSend d s s' where
  steady := quiet.lasting
  t5 := fun key => quiet.timers.active _ rfl
  active := by
    intro timer major runs
    rw [ExpirationQueue.isActive, KeyMap.contains, quiet.timers.active timer major]
    exact runs
  t2 := quiet.timers.t2
  heap := by
    obtain ⟨more, queue, minor⟩ := quiet.timers.heap
    exact ⟨more, queue, fun f member => ⟨(minor f member).2, Or.inl (minor f member).1⟩⟩
  next := quiet.timers.next
  openings := quiet.openings
  notifications := quiet.notifications

theorem AfterSend.trans {d : Deliverable} {s s' s'' : Socket} (first : AfterSend d s s')
    (second : AfterSend d s' s'') :
    AfterSend d s s'' where
  steady := first.steady.trans second.steady
  t5 := fun key => (second.t5 key).trans (first.t5 key)
  active := fun timer major runs => second.active timer major (first.active timer major runs)
  t2 := fun key runs => second.t2 key (first.t2 key runs)
  heap := by
    obtain ⟨more, queue, new⟩ := first.heap
    obtain ⟨more', queue', new'⟩ := second.heap
    refine ⟨more ++ more', by rw [queue', queue, List.append_assoc], fun f member => ?_⟩
    rcases List.mem_append.mp member with early | late
    · exact ⟨Nat.lt_of_lt_of_le (new f early).1 second.next, (new f early).2⟩
    · exact new' f late
  next := Nat.le_trans first.next second.next
  openings := first.openings.trans second.openings
  notifications := first.notifications.trans second.notifications

/-- A T1 timer is armed for a packet that went out. -/
theorem AfterSend.arm (s : Socket) {d : Deliverable} (isInit : Bool)
    (carries : containsChunk d.packet (openingChunk isInit) = true) (expiration : Time) :
    AfterSend d s (s.scheduleExpiration (timerOf d.location (openingTimer isInit)) expiration d)
      where
  steady := .of_same rfl rfl fun _ => rfl
  t5 := by
    intro key
    have apart : timerOf key .t5ShutdownGuard ≠ timerOf d.location (openingTimer isInit) := by
      intro same
      have type := congrArg ExpirationKey.type same
      cases isInit <;> cases type
    simp [Socket.scheduleExpiration, ExpirationQueue.schedule, apart]
  active := by
    intro timer _ runs
    simp only [ExpirationQueue.isActive, Socket.scheduleExpiration, ExpirationQueue.schedule,
      KeyMap.contains_put] at runs ⊢
    simp [runs]
  t2 := by
    intro key runs
    simp only [ExpirationQueue.isActive, Socket.scheduleExpiration, ExpirationQueue.schedule,
      KeyMap.contains_put] at runs ⊢
    simp [runs]
  heap := by
    refine ⟨_, rfl, fun f member => ?_⟩
    rcases List.mem_singleton.mp member with rfl
    exact ⟨Nat.lt_succ_self _, Or.inr ⟨isInit, rfl, rfl, carries⟩⟩
  next := Nat.le_succ _
  openings := .refl _
  notifications := .refl _

/-- T1 is armed for a packet that went out, where the association waits for its answer. -/
def Socket.armT1 (s : Socket) (d : Deliverable) (sentAt : Time) (isInit : Bool) : Socket :=
  match s.find? d.location with
  | none => s
  | some a =>
    if a.state ≠ openingState isInit then s
    else s.scheduleExpiration (timerOf d.location (openingTimer isInit))
      (sentAt + usec (backedOffT1 (if isInit then a.initRetransmits else a.cookieRetransmits))) d

theorem chunkSent_cases (s : Socket) (d : Deliverable) (sentAt : Time) (chunk : Chunk) :
    (∃ isInit, chunk.type = openingChunk isInit ∧ s.chunkSent d sentAt chunk
      = s.armT1 d sentAt isInit)
    ∨ opens chunk.type = false ∧ Quiet s (s.chunkSent d sentAt chunk) := by
  obtain ⟨flag, value⟩ := chunk
  cases value with
  | init v => exact Or.inl ⟨true, rfl, rfl⟩
  | cookieEcho v => exact Or.inl ⟨false, rfl, rfl⟩
  | heartbeat info => exact Or.inr ⟨rfl, .recordHeartbeatSent s _ _ _⟩
  | data v =>
    refine Or.inr ⟨rfl, .update fun a _ => ?_⟩
    split
    · exact same_recordDataSentIn a _ _ _
    · exact .refl a
  | _ => exact Or.inr ⟨rfl, .refl s⟩

theorem afterSend_armT1 (s : Socket) {d : Deliverable} (sentAt : Time) {isInit : Bool}
    (carries : containsChunk d.packet (openingChunk isInit) = true) :
    AfterSend d s (s.armT1 d sentAt isInit) := by
  have same : AfterSend d s s := Keeping.afterSend (.refl s) d
  unfold Socket.armT1
  split
  · exact same
  · split
    · exact same
    · exact .arm s isInit carries _

theorem afterSend_chunkSent (s : Socket) {d : Deliverable} (sentAt : Time) {chunk : Chunk}
    (member : chunk ∈ d.packet.chunks) :
    AfterSend d s (s.chunkSent d sentAt chunk) := by
  rcases chunkSent_cases s d sentAt chunk with ⟨isInit, type, same⟩ | ⟨-, quiet⟩
  · rw [same]
    exact afterSend_armT1 s sentAt (List.any_eq_true.mpr ⟨chunk, member, decide_eq_true type⟩)
  · exact quiet.afterSend d

theorem afterSend_chunksSent {d : Deliverable} (sentAt : Time) {chunks : List Chunk}
    (members : chunks ⊆ d.packet.chunks) (s : Socket) :
    AfterSend d s (chunks.foldl (fun s chunk => s.chunkSent d sentAt chunk) s) := by
  induction chunks generalizing s with
  | nil => exact Keeping.afterSend (.refl s) d
  | cons chunk rest ih =>
    exact (afterSend_chunkSent s sentAt (members List.mem_cons_self)).trans
      (ih (fun _ later => members (List.mem_cons_of_mem _ later)) _)

/-- T1 runs once the packet it is for is out. -/
theorem armed_chunksSent {d : Deliverable} (sentAt : Time) {chunks : List Chunk}
    (members : chunks ⊆ d.packet.chunks) {isInit : Bool}
    (carries : ∃ chunk ∈ chunks, chunk.type = openingChunk isInit) {s : Socket} {a : Association}
    (found : s.find? d.location = some a) (waits : a.state = openingState isInit) :
    (chunks.foldl (fun s chunk => s.chunkSent d sentAt chunk) s).expirations.isActive
      (timerOf d.location (openingTimer isInit)) = true := by
  have major : isMajor (openingTimer isInit) = true := by cases isInit <;> rfl
  induction chunks generalizing s a with
  | nil =>
    obtain ⟨chunk, member, -⟩ := carries
    cases member
  | cons chunk rest ih =>
    have first := afterSend_chunkSent s sentAt (members List.mem_cons_self)
    have later : rest ⊆ d.packet.chunks := fun _ inside => members (List.mem_cons_of_mem _ inside)
    rw [List.foldl_cons]
    by_cases type : chunk.type = openingChunk isInit
    · refine (afterSend_chunksSent sentAt later _).active _ major ?_
      have arms : s.chunkSent d sentAt chunk = s.armT1 d sentAt isInit := by
        rcases chunkSent_cases s d sentAt chunk with ⟨isInit', type', same⟩ | ⟨closed, -⟩
        · have which : isInit' = isInit := by
            rw [type] at type'
            cases isInit <;> cases isInit' <;> first | rfl | cases type'
          rw [← which]
          exact same
        · rw [type] at closed
          cases isInit <;> cases closed
      rw [arms, Socket.armT1, found]
      simp [waits, ExpirationQueue.isActive, Socket.scheduleExpiration, ExpirationQueue.schedule,
        KeyMap.contains_put]
    · obtain ⟨b, after, same⟩ := first.steady.present _ a found
      refine ih later ?_ after ?_
      · obtain ⟨other, member, is⟩ := carries
        rcases List.mem_cons.mp member with rfl | inside
        · exact absurd is type
        · exact ⟨other, inside, is⟩
      · rw [show b.state = a.state from congrArg Essence.state same.essence]
        exact waits

theorem packetSent_eq (s : Socket) (now : Time) (p : Pending) :
    Quiet (p.deliverable.packet.chunks.foldl (fun s chunk => s.chunkSent p.deliverable now chunk)
      { s with sends := s.sends.commit p }) (s.packetSent now p) := by
  have scheduled : Quiet (p.deliverable.packet.chunks.foldl (fun s chunk =>
      s.chunkSent p.deliverable now chunk) { s with sends := s.sends.commit p })
      (({ s with sends := s.sends.commit p } : Socket).scheduleExpirationsAfterSend p.deliverable
        now) := by
    unfold Socket.scheduleExpirationsAfterSend
    simp only
    split
    · exact .startT3IfStopped _ _ now _
    · exact .refl _
  unfold Socket.packetSent
  simp only
  split
  · exact scheduled
  · refine scheduled.trans (.update fun a _ => ?_)
    exact ⟨rfl, rfl, rfl, Or.inl rfl⟩

theorem afterSend_packetSent (s : Socket) (now : Time) (p : Pending) :
    AfterSend p.deliverable { s with sends := s.sends.commit p } (s.packetSent now p) :=
  (afterSend_chunksSent now (fun _ => id) _).trans ((packetSent_eq s now p).afterSend _)

theorem steady_packetSent (s : Socket) (now : Time) (p : Pending) :
    Steady s (s.packetSent now p) := by
  have committed : Steady s { s with sends := s.sends.commit p } := .of_same rfl rfl fun _ => rfl
  exact committed.trans (afterSend_packetSent s now p).steady

theorem armed_packetSent {s : Socket} (now : Time) {p : Pending} {isInit : Bool}
    (carries : containsChunk p.deliverable.packet (openingChunk isInit) = true) {a : Association}
    (found : s.find? p.deliverable.location = some a) (waits : a.state = openingState isInit) :
    (s.packetSent now p).expirations.isActive (timerOf p.deliverable.location (openingTimer isInit))
      = true := by
  obtain ⟨chunk, member, is⟩ := List.any_eq_true.mp carries
  refine ((packetSent_eq s now p).afterSend p.deliverable).active _ (by cases isInit <;> rfl) ?_
  exact armed_chunksSent now (fun _ => id) ⟨chunk, member, of_decide_eq_true is⟩
    (s := { s with sends := s.sends.commit p }) found waits

/-! ## A step of the shutdown -/

/-- The step of a shutdown that everything acknowledged allows. -/
structure Stepped (a b : Association) : Prop where
  essence : { b.essence with state := a.state } = a.essence
  holds : StillHolds a b
  acked : a.cumulativeTsnAck = a.nextTsn - 1#32
  sent : a.outbound = []
  state : a.state = .shutdownPending ∧ b.state = .shutdownSent ∨ a.state = .shutdownReceived
    ∧ b.state = .shutdownAckSent

/-- Whether there is a step to take. -/
def waitsToStep (a : Association) : Bool :=
  decide (a.cumulativeTsnAck = a.nextTsn - 1#32) && a.outbound.isEmpty
    && (decide (a.state = .shutdownPending) || decide (a.state = .shutdownReceived))

theorem nextShutdownStep_cases (s : Socket) (key : AssociationKey) (a : Association) :
    (s.nextShutdownStep key a = none ∧ waitsToStep a = false)
    ∨ ∃ packet state, s.nextShutdownStep key a = some (packet, state) ∧ waitsToStep a = true
      ∧ Stepped a { a with state := state } := by
  unfold Socket.nextShutdownStep waitsToStep
  by_cases settled : a.cumulativeTsnAck = a.nextTsn - 1#32 ∧ a.outbound = []
  · obtain ⟨acked, sent⟩ := settled
    rw [if_neg (by simp [acked, sent])]
    cases state : a.state with
    | shutdownPending =>
      refine Or.inr ⟨_, _, rfl, by simp [acked, sent], ?_, ⟨rfl, rfl, Or.inl rfl⟩, acked, sent,
        Or.inl ⟨state, rfl⟩⟩
      rw [state]
      exact congrArg (fun state => { a.essence with state := state }) state.symm
    | shutdownReceived =>
      refine Or.inr ⟨_, _, rfl, by simp [acked, sent], ?_, ⟨rfl, rfl, Or.inl rfl⟩, acked, sent,
        Or.inr ⟨state, rfl⟩⟩
      rw [state]
      exact congrArg (fun state => { a.essence with state := state }) state.symm
    | _ => exact Or.inl ⟨rfl, by simp⟩
  · refine Or.inl ⟨if_pos ?_, ?_⟩
    · by_contra both
      simp only [not_or, Decidable.not_not] at both
      exact settled both
    · rw [Bool.and_eq_false_iff, Bool.and_eq_false_iff]
      by_cases acked : a.cumulativeTsnAck = a.nextTsn - 1#32
      · have sent : a.outbound ≠ [] := fun none => settled ⟨acked, none⟩
        exact Or.inl (Or.inr (by simpa using sent))
      · exact Or.inl (Or.inl (by simpa using acked))

/-- The step to `state`, but for the guard of the side that closed first. -/
def Socket.steppedTo (s : Socket) (now : Time) (key : AssociationKey) (a : Association)
    (packet : Packet) (state : AssociationState) : Socket :=
  (((((s.setAssociation key { a with state := state }).cancelExpirationsOfType key
    .heartbeat).cancelExpiration (timerOf key .delayedSack)).cancelExpirationsOfType key
      .t3Rtx).enqueuePacket ⟨key, (a.path (dataPath a)).address, packet⟩ .control).restartT2 now key

theorem keeping_steppedTo {s : Socket} {key : AssociationKey} {a : Association}
    (found : s.find? key = some a) (now : Time) (packet : Packet) {state : AssociationState}
    (stepped : Stepped a { a with state := state }) :
    Keeping (At key Stepped) s (s.steppedTo now key a packet state) := by
  have quiet : Quiet (s.setAssociation key { a with state := state })
      (s.steppedTo now key a packet state) := by
    unfold Socket.steppedTo
    exact Quiet.trans (.cancelOfType _ key rfl (by exact nofun))
      (Quiet.trans (.cancel _ rfl (by exact nofun))
      (Quiet.trans (.cancelOfType _ key rfl (by exact nofun))
      (Quiet.trans (.enqueue _ _ _) (.restartT2 _ key now))))
  refine (Keeping.setAt found stepped).followed (fun _ b c step same => ?_) quiet
  refine ⟨?_, step.holds.trans same.holds, step.acked, step.sent, ?_⟩
  · rw [same.essence]
    exact step.essence
  · rw [show c.state = b.state from congrArg Essence.state same.essence]
    exact step.state

theorem t2_steppedTo (s : Socket) (now : Time) (key : AssociationKey) (a : Association)
    (packet : Packet) (state : AssociationState) :
    (s.steppedTo now key a packet state).expirations.isActive (timerOf key .t2Shutdown) = true := by
  have found :
      (((((s.setAssociation key { a with state := state }).cancelExpirationsOfType
        key .heartbeat).cancelExpiration (timerOf key .delayedSack)).cancelExpirationsOfType key
          .t3Rtx).enqueuePacket ⟨key, (a.path (dataPath a)).address, packet⟩ .control).find? key
            = some { a with state := state } := by
    simp
  unfold Socket.steppedTo Socket.restartT2
  rw [found]
  simp [ExpirationQueue.isActive, Socket.scheduleExpiration, ExpirationQueue.schedule,
    KeyMap.contains_put]

/-- The step is taken where there is one: the timers of the association but T2-shutdown
stop, and the side that closed first sets its guard. -/
theorem doNextShutdownStep_cases (s : Socket) (now : Time) (key : AssociationKey) :
    (s.doNextShutdownStep now key = s ∧ ∀ a, s.find? key = some a → waitsToStep a = false)
    ∨ ∃ a s₁, s.find? key = some a ∧ waitsToStep a = true ∧ Keeping (At key Stepped) s s₁
      ∧ s₁.expirations.isActive (timerOf key .t2Shutdown) = true
      ∧ (a.state = .shutdownPending ∧ s.doNextShutdownStep now key
            = s₁.scheduleExpiration (timerOf key .t5ShutdownGuard) (now + usec t5ShutdownGuard)
              (noRetry key)
        ∨ a.state = .shutdownReceived ∧ s.doNextShutdownStep now key = s₁) := by
  unfold Socket.doNextShutdownStep
  cases found : s.find? key with
  | none =>
    refine Or.inl ⟨rfl, fun a here => ?_⟩
    cases here
  | some a =>
    simp only
    rcases nextShutdownStep_cases s key a with ⟨nothing, waits⟩ | ⟨packet, state, next, waits,
      stepped⟩
    · rw [nothing]
      refine Or.inl ⟨rfl, fun b here => ?_⟩
      cases here
      exact waits
    · rw [next]
      simp only
      refine Or.inr ⟨a, s.steppedTo now key a packet state, rfl, waits,
        keeping_steppedTo found now packet stepped, t2_steppedTo s now key a packet state, ?_⟩
      rcases stepped.state with ⟨before, after⟩ | ⟨before, after⟩
      · exact Or.inl ⟨before, if_pos after⟩
      · refine Or.inr ⟨before, if_neg fun same => ?_⟩
        rw [show state = .shutdownAckSent from after] at same
        cases same

theorem lasting_doNextShutdownStep (s : Socket) (now : Time) (key : AssociationKey) :
    Lasting (At key fun a b => if waitsToStep a then Stepped a b else b = a)
      s (s.doNextShutdownStep now key) := by
  rcases doNextShutdownStep_cases s now key with ⟨same, waits⟩ | ⟨a, s₁, found, waits, kept, -,
    next⟩
  · rw [same]
    refine ⟨rfl, rfl, fun _ => id, fun k b here => ⟨b, here, ?_⟩⟩
    by_cases mine : k = key
    · rw [mine] at here
      rw [At, if_pos mine, waits b here]
      rfl
    · exact at_of_ne mine b
  · have stepped : Lasting (At key fun a b => if waitsToStep a then Stepped a b else b = a)
      s s₁ := by
      refine ⟨kept.localAddress, kept.peerAddresses, kept.absent, fun k b here => ?_⟩
      obtain ⟨c, after, related⟩ := kept.present k b here
      refine ⟨c, after, ?_⟩
      unfold At at related ⊢
      split at related
      · next mine =>
        rw [mine, found] at here
        cases here
        rw [if_pos mine]
        exact (if_pos waits).mpr related
      · next apart =>
        rw [if_neg apart]
        exact related
    rcases next with ⟨-, same⟩ | ⟨-, same⟩
    · rw [same]
      exact ⟨stepped.localAddress, stepped.peerAddresses, stepped.absent, stepped.present⟩
    · rw [same]
      exact stepped

end SctpStack
