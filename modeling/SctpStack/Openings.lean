import SctpStack.Terms

/-!
# What a handshake waits for

An association that is being opened waits for the answer to a packet that is queued, or
whose T1 timer runs. T1 starts when the packet goes out, so a packet that the queue
refuses is never sent again: that, and a cookie with no peer tag, is all that leaves a
handshake waiting for nothing (`handshake_never_stalls`).
-/

namespace SctpStack

/-- Every association being opened has its packet queued or its T1 running, or T1 is among
the timers that went off; what T1 sends again is that packet; and the peer's tag is not
known before its INIT ACK. -/
structure Opening (due : List ExpirationFallback) (s : Socket) : Prop where
  waits : ∀ key a isInit, s.find? key = some a → a.state = openingState isInit →
    s.expirations.isActive (timerOf key (openingTimer isInit)) = true
    ∨ QueuedWith s.sends key (openingChunk isInit)
      ∨ ∃ f ∈ due, f.key = timerOf key (openingTimer isInit)
  retries : ∀ f isInit, f ∈ s.expirations.queue ∨ f ∈ due → f.key.type = openingTimer isInit →
    f.retry.location = f.key.location ∧ containsChunk f.retry.packet (openingChunk isInit) = true
  untagged : ∀ key a, s.find? key = some a → a.state = .cookieWait → a.peerVerTag = 0#32

theorem openingTimer_major (isInit : Bool) : isMajor (openingTimer isInit) = true := by
  cases isInit <;> rfl

theorem opens_openingChunk (isInit : Bool) : opens (openingChunk isInit) = true := by
  cases isInit <;> rfl

theorem forming_openingState (isInit : Bool) : forming (openingState isInit) = true := by
  cases isInit <;> rfl

/-- A state that sends, or that is past sending, is not one of a handshake. -/
theorem not_opening {state : AssociationState} (up : forming state = false) (isInit : Bool) :
    state ≠ openingState isInit := by
  rintro rfl
  rw [forming_openingState] at up
  cases up

section Moves

variable {due : List ExpirationFallback} {s s' : Socket} {key : AssociationKey}

/-- A step that keeps the timers and the queue, and opens nothing. -/
theorem Opening.keeping {R : AssociationKey → Association → Association → Prop}
    (opening : Opening due s) (kept : Keeping R s s')
    (states : ∀ k a b isInit, R k a b → b.state = openingState isInit →
      a.state = openingState isInit ∧ b.peerVerTag = a.peerVerTag) : Opening due s' where
  waits := by
    intro k b isInit found state
    obtain ⟨a, before, related⟩ := kept.before found
    rcases opening.waits k a isInit before (states k a b isInit related state).1
      with runs | queued | off
    · refine Or.inl ?_
      rw [ExpirationQueue.isActive, KeyMap.contains,
        kept.timers.active _ (openingTimer_major isInit)]
      exact runs
    · exact Or.inr (Or.inl (kept.openings k _ (opens_openingChunk isInit) queued))
    · exact Or.inr (Or.inr off)
  retries := by
    intro f isInit member type
    refine opening.retries f isInit ?_ type
    obtain ⟨more, queue, minor⟩ := kept.timers.heap
    rw [queue, List.mem_append, or_assoc] at member
    rcases member with old | new | off
    · exact Or.inl old
    · have small := (minor f new).1
      rw [type, openingTimer_major] at small
      cases small
    · exact Or.inr off
  untagged := by
    intro k b found state
    obtain ⟨a, before, related⟩ := kept.before found
    obtain ⟨waits, tag⟩ := states k a b true related state
    rw [tag]
    exact opening.untagged k a before waits

theorem Opening.quiet (opening : Opening due s) (quiet : Quiet s s') : Opening due s' :=
  opening.keeping quiet fun _ _ _ _ same state =>
    ⟨(congrArg Essence.state same.essence).symm.trans state,
      congrArg Essence.peerVerTag same.essence⟩

theorem at_state {R : Association → Association → Prop} {k : AssociationKey} {a b : Association}
    {isInit : Bool} (each : ∀ a b, R a b → forming b.state = false) (related : At key R k a b)
    (state : b.state = openingState isInit) :
    a.state = openingState isInit ∧ b.peerVerTag = a.peerVerTag := by
  unfold At at related
  split at related
  · exact absurd state (not_opening (each a b related) isInit)
  · exact ⟨(congrArg Essence.state related.essence).symm.trans state,
      congrArg Essence.peerVerTag related.essence⟩

theorem Opening.removed (opening : Opening due s) (removed : Removed key s s') :
    Opening due s' where
  waits := by
    intro k a isInit found state
    rw [removed.find?] at found
    split at found
    · cases found
    · next apart =>
      rcases opening.waits k a isInit found state with runs | queued | off
      · refine Or.inl ?_
        have elsewhere : (timerOf k (openingTimer isInit)).location ≠ key := apart
        rw [ExpirationQueue.isActive, KeyMap.contains, removed.timers.active, if_neg elsewhere]
        exact runs
      · exact Or.inr (Or.inl (removed.openings k _ apart (opens_openingChunk isInit) queued))
      · exact Or.inr (Or.inr off)
  retries := by
    intro f isInit member type
    rw [removed.timers.queue] at member
    exact opening.retries f isInit member type
  untagged := by
    intro k a found
    rw [removed.find?] at found
    split at found
    · cases found
    · exact opening.untagged k a found

/-- A major timer other than T1 is started. -/
theorem Opening.schedule (opening : Opening due s) {timer : ExpirationKey}
    (other : ∀ isInit, timer.type ≠ openingTimer isInit) (expiration : Time) (retry : Deliverable) :
    Opening due (s.scheduleExpiration timer expiration retry) where
  waits := by
    intro k a isInit found state
    rcases opening.waits k a isInit found state with runs | later
    · refine Or.inl ?_
      simp only [ExpirationQueue.isActive, Socket.scheduleExpiration, ExpirationQueue.schedule,
        KeyMap.contains_put] at runs ⊢
      simp [runs]
    · exact Or.inr later
  retries := by
    intro f isInit member type
    refine opening.retries f isInit ?_ type
    rcases member with queued | off
    · rcases List.mem_append.mp queued with old | new
      · exact Or.inl old
      · rcases List.mem_singleton.mp new with rfl
        exact absurd type (other isInit)
    · exact Or.inr off
  untagged := opening.untagged

theorem Opening.closed (opening : Opening due s) (now : Time) (key : AssociationKey) :
    Opening due (s.doNextShutdownStep now key) := by
  rcases doNextShutdownStep_cases s now key with ⟨same, -⟩ | ⟨a, s₁, -, -, kept, -,
    ⟨-, same⟩ | ⟨-, same⟩⟩
  · rw [same]
    exact opening
  · rw [same]
    refine (opening.keeping kept fun _ _ _ _ => at_state fun _ _ => Stepped.up).schedule
      (fun isInit => ?_) _ _
    cases isInit <;> exact nofun
  · rw [same]
    exact opening.keeping kept fun _ _ _ _ => at_state fun _ _ => Stepped.up

/-- T1 is stopped where nothing waits for it. -/
theorem Opening.settled (opening : Opening due s) {isInit : Bool}
    (other : ∀ a, s.find? key = some a → a.state ≠ openingState isInit) :
    Opening due (s.cancelExpiration (timerOf key (openingTimer isInit))) where
  waits := by
    intro k a isInit' found state
    rcases opening.waits k a isInit' found state with runs | later
    · refine Or.inl ?_
      have apart : timerOf k (openingTimer isInit') ≠ timerOf key (openingTimer isInit) := by
        intro same
        have location : k = key := congrArg ExpirationKey.location same
        have type : openingTimer isInit' = openingTimer isInit := congrArg ExpirationKey.type same
        have which : isInit' = isInit := by
          cases isInit <;> cases isInit' <;> first | rfl | cases type
        rw [location] at found
        rw [which] at state
        exact other a found state
      simpa [ExpirationQueue.isActive, Socket.cancelExpiration, ExpirationQueue.cancel,
        KeyMap.contains, apart] using runs
    · exact Or.inr later
  retries := opening.retries
  untagged := opening.untagged

/-- The packet is dropped where nothing waits for its answer. -/
theorem Opening.dropped (opening : Opening due s) {isInit : Bool}
    (other : ∀ a, s.find? key = some a → a.state ≠ openingState isInit) :
    Opening due (s.removeRetransmissionsOfType key (openingChunk isInit) none) where
  waits := by
    intro k a isInit' found state
    rcases opening.waits k a isInit' found state with runs | queued | off
    · exact Or.inl runs
    · refine Or.inr (Or.inl ?_)
      by_cases which : isInit' = isInit
      · rw [which] at queued state ⊢
        refine queued.dropFor fun same => ?_
        rw [same] at found
        exact other a found state
      · refine queued.dropOther (opens_openingChunk isInit') fun same => which ?_
        cases isInit <;> cases isInit' <;> first | rfl | cases same
    · exact Or.inr (Or.inr off)
  retries := opening.retries
  untagged := opening.untagged

/-- A packet leaves its queue, and no other does. -/
theorem queuedWith_commit {q : SendQueue} {p : Pending} (leaves : Leaves q p) {k : AssociationKey}
    {type : ChunkType} (queued : QueuedWith q k type) : QueuedWith (q.commit p) k type
      ∨ p.deliverable.location = k ∧ containsChunk p.deliverable.packet type = true := by
  obtain ⟨e, member, location, contains⟩ := queued
  cases leaves with
  | control first rest priority control id deliverable =>
    have left : (q.commit p).control = rest ∧ (q.commit p).retransmission = q.retransmission := by
      simp [SendQueue.commit, priority, control, id]
    rw [control, List.cons_append] at member
    rcases List.mem_cons.mp member with rfl | inside
    · exact Or.inr ⟨by rw [deliverable]; exact location, by rw [deliverable]; exact contains⟩
    · exact Or.inl ⟨e, by rw [left.1, left.2]; exact inside, location, contains⟩
  | retransmission first rest priority retransmission id here carries =>
    have left : (q.commit p).control = q.control ∧ (q.commit p).retransmission = rest := by
      simp [SendQueue.commit, priority, retransmission, id]
    rcases List.mem_append.mp member with inside | inside
    · exact Or.inl ⟨e, by rw [left.1]; exact List.mem_append_left _ inside, location, contains⟩
    · rw [retransmission] at inside
      rcases List.mem_cons.mp inside with rfl | later
      · exact Or.inr ⟨here.trans location, carries type contains⟩
      · exact Or.inl ⟨e, by rw [left.2]; exact List.mem_append_right _ later, location, contains⟩
  | newData priority =>
    have left : (q.commit p).control = q.control ∧ (q.commit p).retransmission
        = q.retransmission := by
      simp [SendQueue.commit, priority]
    exact Or.inl ⟨e, by rw [left.1, left.2]; exact member, location, contains⟩

/-- A packet that goes out has T1 running. -/
theorem Opening.sent (opening : Opening due s) {p : Pending} (now : Time)
    (leaves : Leaves s.sends p) :
    Opening due (s.packetSent now p) := by
  have after := afterSend_packetSent s now p
  constructor
  · intro k b isInit found state
    obtain ⟨a, before, same⟩ := (steady_packetSent s now p).before found
    rw [show b.state = a.state from congrArg Essence.state same.essence] at state
    rcases opening.waits k a isInit before state with runs | queued | off
    · exact Or.inl (after.active _ (openingTimer_major isInit) runs)
    · rcases queuedWith_commit leaves queued with stays | ⟨rfl, carries⟩
      · exact Or.inr (Or.inl (after.openings k _ (opens_openingChunk isInit) stays))
      · exact Or.inl (armed_packetSent now carries before state)
    · exact Or.inr (Or.inr off)
  · intro f isInit member type
    obtain ⟨more, queue, new⟩ := after.heap
    rw [queue, List.mem_append, or_assoc] at member
    rcases member with old | added | off
    · exact opening.retries f isInit (Or.inl old) type
    · rcases (new f added).2 with minor | ⟨isInit', timer, retry, carries⟩
      · rw [type, openingTimer_major] at minor
        cases minor
      · have which : isInit' = isInit := by
          rw [timer] at type
          cases isInit <;> cases isInit' <;> first | rfl | cases type
        rw [retry, timer, ← which]
        exact ⟨rfl, carries⟩
    · exact opening.retries f isInit (Or.inr off) type
  · intro k b found state
    obtain ⟨a, before, same⟩ := (steady_packetSent s now p).before found
    rw [show b.state = a.state from congrArg Essence.state same.essence] at state
    exact (congrArg Essence.peerVerTag same.essence).trans (opening.untagged k a before state)

theorem Opening.move (opening : Opening due s) (move : Move s s') : Opening due s' := by
  cases move with
  | quiet quiet => exact opening.quiet quiet
  | shift key shifted => exact opening.keeping shifted fun _ _ _ _ => at_state fun _ _ => Shift.up
  | removed key removed => exact opening.removed removed
  | completed key a _ _ removed quiet =>
    have gone := (opening.removed removed).quiet quiet
    exact ⟨gone.waits, gone.retries, gone.untagged⟩
  | up key a found echoed =>
    refine opening.keeping (R := At key fun _ b => b.state = .established)
      (.update _ (fun k a apart => at_of_ne apart a)
      fun a _ => at_self rfl) fun _ _ _ _ => at_state fun _ b state => ?_
    rw [state]
    rfl
  | settled key isInit other => exact opening.settled other
  | dropped key isInit other => exact opening.dropped other
  | closed key now closing =>
    exact (opening.keeping closing fun _ _ _ _ => at_state fun _ _ here =>
      forming_of_transmits here.after).closed now key
  | sent p now leaves => exact opening.sent now leaves

end Moves

/-! ## Expiry -/

/-- A timer that went off is done with once what waited for it has its packet queued. -/
theorem Opening.discharge {due : List ExpirationFallback} {s : Socket} {f : ExpirationFallback}
    (opening : Opening (f :: due) s) (done : ∀ k a isInit, s.find? k = some a → a.state
      = openingState isInit → f.key = timerOf k (openingTimer isInit) →
        QueuedWith s.sends k (openingChunk isInit)) : Opening due s where
  waits := by
    intro k a isInit found state
    rcases opening.waits k a isInit found state with runs | queued | ⟨g, member, timer⟩
    · exact Or.inl runs
    · exact Or.inr (Or.inl queued)
    · rcases List.mem_cons.mp member with rfl | later
      · exact Or.inr (Or.inl (done k a isInit found state timer))
      · exact Or.inr (Or.inr ⟨g, later, timer⟩)
  retries := by
    intro g isInit member type
    exact opening.retries g isInit (member.imp id (List.mem_cons_of_mem _)) type
  untagged := opening.untagged

theorem openingTimer_inj {isInit isInit' : Bool}
    (same : openingTimer isInit = openingTimer isInit') : isInit = isInit' := by
  cases isInit <;> cases isInit' <;> first | rfl | cases same

/-- T1 sends the packet again, or the handshake is given up. -/
theorem Opening.t1 {due : List ExpirationFallback} {s : Socket} {f : ExpirationFallback}
    (opening : Opening (f :: due) s) (isInit : Bool) (type : f.key.type = openingTimer isInit) :
    Opening due (s.handleT1Expiration f.key.location isInit f.retry) := by
  -- What waits for this timer is the association it is for, in the state it is for.
  have mine : ∀ k isInit', f.key = timerOf k (openingTimer isInit') → k = f.key.location
      ∧ isInit' = isInit := by
    intro k isInit' timer
    rw [timer] at type
    refine ⟨?_, openingTimer_inj type⟩
    rw [timer]
    rfl
  unfold Socket.handleT1Expiration
  cases found : s.find? f.key.location with
  | none =>
    refine opening.discharge fun k a isInit' here _ timer => ?_
    rw [(mine k isInit' timer).1, found] at here
    cases here
  | some a =>
    simp only
    by_cases other : a.state ≠ if isInit then .cookieWait else .cookieEchoed
    · rw [if_pos other]
      refine opening.discharge fun k b isInit' here state timer => ?_
      obtain ⟨rfl, rfl⟩ := mine k isInit' timer
      rw [found] at here
      cases here
      exact absurd state other
    · rw [if_neg other]
      by_cases spent : (if isInit then a.initRetransmits else a.cookieRetransmits)
        ≥ maxInitRetransmits
      · rw [if_pos spent]
        have removed := Acts.removed_afterT1 s f.key.location
        refine (opening.removed removed).discharge fun k b isInit' here _ timer => ?_
        rw [(mine k isInit' timer).1, removed.find?, if_pos rfl] at here
        cases here
      · rw [if_neg spent]
        have counted : Quiet s (s.setAssociation f.key.location
            (if isInit then { a with initRetransmits := a.initRetransmits + 1 }
            else { a with cookieRetransmits := a.cookieRetransmits + 1 })) := by
          refine .set found ?_
          split <;> exact ⟨rfl, rfl, rfl, Or.inl rfl⟩
        refine (opening.quiet (counted.trans (.enqueue _ f.retry .retransmission))).discharge
          fun k b isInit' _ _ timer => ?_
        obtain ⟨rfl, rfl⟩ := mine k isInit' timer
        obtain ⟨location, carries⟩ := opening.retries f isInit' (Or.inr List.mem_cons_self) type
        refine ⟨_, List.mem_append_right _ (List.mem_append_right _ List.mem_cons_self), location,
          carries⟩

theorem Opening.fire {due : List ExpirationFallback} {s : Socket} {f : ExpirationFallback}
    (now : Time) (draws : Draws) (opening : Opening (f :: due) s) :
    Opening due (s.handleExpiration now draws f) := by
  have others : (∀ isInit, f.key.type ≠ openingTimer isInit) →
      Opening due (s.handleExpiration now draws f) := by
    intro other
    refine Acts.keeps (fun _ _ move opening => Opening.move opening move)
      (.handleExpiration s now draws f) ?_
    refine opening.discharge fun k a isInit _ _ timer => ?_
    exact absurd (congrArg ExpirationKey.type timer) (other isInit)
  cases type : f.key.type with
  | t1Init =>
    simp only [Socket.handleExpiration, type]
    exact opening.t1 true type
  | t1Cookie =>
    simp only [Socket.handleExpiration, type]
    exact opening.t1 false type
  | _ =>
    refine others fun isInit same => ?_
    rw [type] at same
    cases isInit <;> cases same

theorem Opening.expire {s : Socket} (now : Time) (draws : Nat → Draws) (opening : Opening [] s) :
    Opening [] (s.runExpire now draws) := by
  obtain ⟨queued, left, running⟩ :=
    ExpirationQueue.drainExpiredFrom_spec now s.expirations.queue.length s.expirations
  refine runExpire_fires (fun f due s draws => Opening.fire now draws) ⟨?_, ?_, opening.untagged⟩
  · intro k a isInit found state
    rcases opening.waits k a isInit found state with runs | queue | ⟨f, member, -⟩
    · rcases running _ runs with still | off
      · exact Or.inl still
      · exact Or.inr (Or.inr off)
    · exact Or.inr (Or.inl queue)
    · cases member
  · intro f isInit member type
    refine opening.retries f isInit (Or.inl ?_) type
    rcases member with waiting | off
    · exact left waiting
    · exact queued f off

/-! ## The ways in -/

/-- The queue takes another control packet. -/
def SendQueue.hasRoom (q : SendQueue) : Bool := decide (q.control.length < maxQueuedControl)

theorem queuedWith_enqueue {q : SendQueue} {d : Deliverable} {type : ChunkType}
    (room : q.hasRoom = true) (carries : containsChunk d.packet type = true) :
    QueuedWith (q.enqueue d .control) d.location type := by
  have bound : ¬q.control.length ≥ maxQueuedControl := Nat.not_le.mpr (of_decide_eq_true room)
  refine ⟨⟨q.nextId, d⟩, List.mem_append_left _ ?_, rfl, carries⟩
  rw [SendQueue.enqueue, if_neg bound]
  exact List.mem_append_right _ List.mem_cons_self

/-- One association is entered; the others keep their timers and their packets. -/
theorem Opening.entered {due : List ExpirationFallback} {s s' : Socket} (key : AssociationKey)
    (opening : Opening due s) (found : ∀ k, k ≠ key → s'.find? k = s.find? k)
    (active : ∀ timer, timer.location ≠ key → s'.expirations.active.get? timer
      = s.expirations.active.get? timer)
    (heap : s'.expirations.queue = s.expirations.queue)
    (openings : ∀ k type, k ≠ key → opens type = true → QueuedWith s.sends k type →
      QueuedWith s'.sends k type)
    (here : ∀ a isInit, s'.find? key = some a → a.state = openingState isInit →
      QueuedWith s'.sends key (openingChunk isInit))
    (untagged : ∀ a, s'.find? key = some a → a.state = .cookieWait → a.peerVerTag = 0#32) :
      Opening due s' where
  waits := by
    intro k a isInit after state
    by_cases mine : k = key
    · rw [mine] at after ⊢
      exact Or.inr (Or.inl (here a isInit after state))
    · rw [found k mine] at after
      rcases opening.waits k a isInit after state with runs | queued | off
      · refine Or.inl ?_
        rw [ExpirationQueue.isActive, KeyMap.contains, active _ mine]
        exact runs
      · exact Or.inr (Or.inl (openings k _ mine (opens_openingChunk isInit) queued))
      · exact Or.inr (Or.inr off)
  retries := by
    intro f isInit member
    rw [heap] at member
    exact opening.retries f isInit member
  untagged := by
    intro k a after
    by_cases mine : k = key
    · rw [mine] at after
      exact untagged a after
    · rw [found k mine] at after
      exact opening.untagged k a after

theorem Opening.entry {s s₁ : Socket} {key : AssociationKey} {cookie : StateCookie}
    (opening : Opening [] s) (entry : CookieEntry s key cookie s₁) : Opening [] s₁ := by
  obtain ⟨others, up⟩ := entry.up
  have here : ∀ a isInit, s₁.find? key = some a → a.state = openingState isInit →
      QueuedWith s₁.sends key (openingChunk isInit) :=
    fun a isInit found state => absurd state (not_opening (up a found) isInit)
  have untagged : ∀ a, s₁.find? key = some a → a.state = .cookieWait → a.peerVerTag = 0#32 :=
    fun a found state => absurd state (not_opening (up a found) true)
  have undisturbed : Undisturbed s s₁ → Opening [] s₁ := by
    intro same
    refine opening.entered key others (fun timer _ => ?_) ?_ (fun k type _ _ queued => ?_)
      here untagged
    · rw [same.expirations]
    · rw [same.expirations]
    · rw [same.sends]
      exact queued
  cases entry with
  | created absent => exact undisturbed (undisturbed_createdFrom s key cookie)
  | restarted tcb found =>
    have same := undisturbed_restartedFrom s key tcb cookie
    refine opening.entered key others (fun timer apart => ?_) ?_ (fun k type apart _ queued => ?_)
      here untagged
    · rw [same.expirations]
      exact ((TimersStopped.cancelAll key s.expirations).active timer).trans (if_neg apart)
    · rw [same.expirations]
      rfl
    · rw [same.sends]
      exact queuedWith_purge apart queued
  | collided tcb found => exact undisturbed (undisturbed_collidedWith s key tcb cookie)

theorem Opening.initAck {s : Socket} {key : AssociationKey} {a : Association}
    (opening : Opening [] s) (found : s.find? key = some a) (header : CommonHeader)
    (initAck : InitChunkValue) (src : SockAddr) (cookie : Bytes) (room : s.sends.hasRoom = true) :
    Opening [] (s.acceptInitAck header initAck key src cookie) := by
  obtain ⟨s₁, destination, errors, same, after, -, -, expirations, sends, -⟩ :=
    acceptInitAck_eq found header initAck src cookie
  have echoed : ∀ b, s₁.find? key = some b → b.state = .cookieEchoed := by
    intro b here
    rw [after, if_pos rfl] at here
    cases here
    rfl
  rw [same]
  refine opening.entered key (fun k apart => (after k).trans (if_neg apart)) (fun timer apart => ?_)
    ?_ (fun k type apart opening queued => ?_) (fun b isInit here state => ?_) fun b here state =>
      ?_
  · have other : timer ≠ timerOf key .t1Init := by
      rintro rfl
      exact apart rfl
    simp [Socket.reply, Socket.enqueuePacket, Socket.removeRetransmissionsOfType,
      Socket.cancelExpiration, ExpirationQueue.cancel, other, expirations]
  · exact (congrArg ExpirationQueue.queue expirations :)
  · refine OpeningsKept.enqueue _ _ _ k type opening (QueuedWith.dropFor apart ?_)
    rw [← sends] at queued
    exact queued
  · rw [echoed b here] at state
    cases isInit with
    | true => cases state
    | false =>
      refine queuedWith_enqueue (d := ⟨key, _, _⟩) ?_ rfl
      exact (congrArg SendQueue.hasRoom sends).trans room
  · rw [echoed b here] at state
    cases state

theorem Opening.retry {s : Socket} {key : AssociationKey} {a : Association} (opening : Opening [] s)
    (staleness : BitVec 32) (room : s.sends.hasRoom = true) :
    Opening [] (s.retryHandshake key a staleness) := by
  have waits : ∀ b, (s.retryHandshake key a staleness).find? key = some b → b.state = .cookieWait
      ∧ b.peerVerTag = 0#32 := by
    intro b here
    have before := (Socket.find?_setAssociation s key key _).symm.trans here
    rw [if_pos rfl] at before
    cases before
    exact ⟨rfl, rfl⟩
  refine opening.entered key (fun k apart => ?_) (fun timer apart => ?_) rfl
    (fun k type apart opening queued => ?_) (fun b isInit here state => ?_) fun b here _ =>
      (waits b here).2
  · exact (Socket.find?_setAssociation s key k _).trans (if_neg apart)
  · have other : timer ≠ timerOf key .t1Cookie := by
      rintro rfl
      exact apart rfl
    simp [Socket.retryHandshake, Socket.setAssociation, Socket.enqueuePacket,
      Socket.removeRetransmissionsOfType, Socket.cancelExpiration, ExpirationQueue.cancel, other]
  · exact OpeningsKept.enqueue _ _ _ k type opening (QueuedWith.dropFor apart queued)
  · rw [(waits b here).1] at state
    cases isInit with
    | true => exact queuedWith_enqueue (d := ⟨key, _, _⟩) room rfl
    | false => cases state

/-- A call that opens an association does so under a key that has none. -/
theorem unknown_of_new {s : Socket} {key : AssociationKey}
    (new : s.associations.contains (s.associationKeyFor key) = false) :
    s.find? key = none := by
  cases known : s.find? key with
  | none => rfl
  | some c =>
    have contained : s.associations.contains key = true := KeyMap.contains_eq_true.mpr ⟨c, known⟩
    rw [Socket.associationKeyFor, if_pos contained, contained] at new
    cases new

theorem Opening.associate {s : Socket} (opening : Opening [] s) (draws : Draws)
    (toAddress : SockAddr) (port : Port)
    (room : s.associations.contains (s.associationKeyFor (peerKey toAddress port)) = false →
      s.sends.hasRoom = true) :
    Opening [] (s.sctpAssociate draws toAddress port).2 := by
  unfold Socket.sctpAssociate
  split
  · exact opening
  · simp only
    split
    · exact opening
    · next known =>
      have new : s.associations.contains (s.associationKeyFor (peerKey toAddress port)) = false :=
        Bool.eq_false_iff.mpr known
      have found : ∀ k, (s.associations.emplace (peerKey toAddress port)
          (initNewAssociation draws toAddress)).get? k
          = if k = peerKey toAddress port then some (initNewAssociation draws toAddress)
            else s.find? k := by
        intro k
        rw [KeyMap.get?_emplace, show s.associations.get? (peerKey toAddress port)
          = none from unknown_of_new new]
        rfl
      have waits : ∀ b, (s.associations.emplace (peerKey toAddress port)
          (initNewAssociation draws toAddress)).get? (peerKey toAddress port) = some b →
            b.state = .cookieWait ∧ b.peerVerTag = 0#32 := by
        intro b here
        rw [found, if_pos rfl] at here
        cases here
        exact ⟨rfl, rfl⟩
      refine opening.entered (peerKey toAddress port)
        (fun k apart => (found k).trans (if_neg apart))
        (fun timer _ => rfl) rfl (fun k type _ opening queued =>
          OpeningsKept.enqueue _ _ _ k type opening queued) (fun b isInit here state => ?_)
        fun b here _ => (waits b here).2
      rw [(waits b here).1] at state
      cases isInit with
      | true => exact queuedWith_enqueue (d := ⟨peerKey toAddress port, _, _⟩) (room new) rfl
      | false => cases state

/-! ## Runs -/

/-- The queue takes the packet that opens an association wherever one is made: the INIT of
the call, the COOKIE ECHO that answers an INIT ACK, and the INIT after a stale cookie. And
no cookie verifies that carries no peer tag. -/
def System.queueTakesOpenings (σ : System) : Event → Bool
  | .associate _ toAddress port =>
    σ.socket.associations.contains (σ.socket.associationKeyFor (peerKey toAddress port))
      || σ.socket.sends.hasRoom
  | .recv now draws packet src =>
    (match (stripUnrecognized packet.chunks).1 with
      | ⟨_, .cookieEcho cookieData⟩ :: _ =>
        match σ.socket.cookieAuthorizer.verify now cookieData packet.header src with
        | .valid cookie | .stale cookie _ => cookie.peerVerTag != 0#32
        | _ => true
      | _ => true)
    && match σ.socket.dispatch now draws packet src with
      | none => true
      | some (s, key, carried) => (s.handed now draws packet key src carried).all fun (s, chunk) =>
        match s.find? key, chunk.value with
        | some a, .initAck initAck => a.state != .cookieWait || (echoedCookie initAck).isNone
            || s.sends.hasRoom
        | some a, .opError causes =>
          (match Socket.staleCookieOutcome a causes with
            | .retry _ => false
            | _ => true) || s.sends.hasRoom
        | _, _ => true
  | _ => true

theorem Opening.step {σ σ' : System} {event : Event} (stepped : σ.step event = some σ')
    (takes : σ.queueTakesOpenings event = true) (opening : Opening [] σ.socket) :
    Opening [] σ'.socket := by
  refine System.step_moves (fun _ _ move opening => opening.move move) stepped
    (fun now draws packet src here => ?_) (fun now draws _ opening => opening.expire now draws)
    (fun draws toAddress port here opening => ?_) opening
  · rw [here, System.queueTakesOpenings, Bool.and_eq_true] at takes
    obtain ⟨tagged, room⟩ := takes
    refine ⟨fun cookieData cookie s₁ _ _ entry opening => opening.entry entry, ?_, ?_, ?_, ?_⟩
    · intro cookieData cookie tcb destination verified leads found waits peer opening
      exfalso
      obtain ⟨flag, rest, chunks⟩ := leads
      rw [chunks] at tagged
      have zero : cookie.peerVerTag = 0#32 := peer.trans (opening.untagged _ tcb found waits)
      rcases verified with valid | ⟨staleness, stale⟩
      · simp [valid, zero] at tagged
      · simp [stale, zero] at tagged
    · intro s' key carried s₁ flag initAck a cookie dispatched member found waits echoed opening
      rw [dispatched] at room
      have takes := List.all_eq_true.mp room _ member
      simp only [found, waits, echoed, bne_self_eq_false, Option.isNone_some, Bool.or_self,
        Bool.false_or] at takes
      exact opening.initAck found packet.header initAck src cookie takes
    · intro s' key carried s₁ flag causes a staleness dispatched member found outcome opening
      rw [dispatched] at room
      have takes := List.all_eq_true.mp room _ member
      simp only [found, outcome, Bool.false_or] at takes
      exact opening.retry staleness takes
    · intro s' key carried s'' a _ _ _ _ _ taken opening
      refine opening.keeping taken fun k a b isInit related state => ?_
      exact ⟨(congrArg Essence.state related.essence).symm.trans state,
        congrArg Essence.peerVerTag related.essence⟩
  · rw [here, System.queueTakesOpenings, Bool.or_eq_true] at takes
    refine opening.associate draws toAddress port fun new => ?_
    rcases takes with known | room
    · rw [known] at new
      cases new
    · exact room

/-- The retransmissions of the packet a handshake waits on. -/
def Association.t1Retransmits (a : Association) (isInit : Bool) : Nat :=
  if isInit then a.initRetransmits else a.cookieRetransmits

/-- What T1 does when it goes off for an association that waits for it: the attempt is over
and the ULP is told, or it goes on with a retransmission more, of which there are
`maxInitRetransmits`. -/
theorem t1_ends_or_counts {s : Socket} {key : AssociationKey} {a : Association}
    (found : s.find? key = some a) {isInit : Bool} (waits : a.state = openingState isInit)
    (retry : Deliverable) :
    ((s.handleT1Expiration key isInit retry).find? key = none
      ∧ (s.handleT1Expiration key isInit retry).notifications
        = s.notifications.enqueue key (.assocChange .cantStrAssoc))
    ∨ ∃ b, (s.handleT1Expiration key isInit retry).find? key = some b ∧ b.state = a.state
      ∧ b.t1Retransmits isInit = a.t1Retransmits isInit + 1 ∧ b.t1Retransmits isInit
        ≤ maxInitRetransmits := by
  have expected : ¬a.state ≠ if isInit then .cookieWait else .cookieEchoed := fun other =>
    other waits
  unfold Socket.handleT1Expiration
  rw [found]
  simp only
  rw [if_neg expected]
  by_cases spent : (if isInit then a.initRetransmits else a.cookieRetransmits) ≥ maxInitRetransmits
  · rw [if_pos spent]
    refine Or.inl ⟨?_, rfl⟩
    exact (Acts.removed_afterT1 s key).find? key |>.trans (if_pos rfl)
  · rw [if_neg spent]
    rw [Nat.not_le] at spent
    refine Or.inr ⟨_, (Socket.find?_setAssociation s key key _).trans (if_pos rfl), ?_⟩
    cases isInit with
    | true => exact ⟨rfl, rfl, spent⟩
    | false => exact ⟨rfl, rfl, spent⟩

/-- In every run in which the queue takes every packet that opens an association: an
association in COOKIE-WAIT has T1-init running or its INIT queued, and one in
COOKIE-ECHOED has T1-cookie running or its COOKIE ECHO queued. And T1, when it goes off,
ends the attempt or counts it. -/
theorem handshake_never_stalls {σ : System}
    (reached : System.Reached (fun σ event => σ.queueTakesOpenings event = true) σ)
    {key : AssociationKey} {a : Association} (found : σ.socket.find? key = some a) :
    (a.state = .cookieWait → σ.socket.expirations.isActive (timerOf key .t1Init) = true
      ∨ QueuedWith σ.socket.sends key .init)
    ∧ (a.state = .cookieEchoed → σ.socket.expirations.isActive (timerOf key .t1Cookie) = true
      ∨ QueuedWith σ.socket.sends key .cookieEcho)
    ∧ ∀ isInit retry, a.state = openingState isInit →
      ((σ.socket.handleT1Expiration key isInit retry).find? key = none
        ∧ (σ.socket.handleT1Expiration key isInit retry).notifications
          = σ.socket.notifications.enqueue key (.assocChange .cantStrAssoc))
      ∨ ∃ b, (σ.socket.handleT1Expiration key isInit retry).find? key = some b ∧ b.state = a.state
        ∧ b.t1Retransmits isInit = a.t1Retransmits isInit + 1 ∧ b.t1Retransmits isInit
          ≤ maxInitRetransmits := by
  have opening : Opening [] σ.socket := by
    refine reached.invariant (fun σ => Opening [] σ.socket)
      ?_ fun σ event σ' opening takes stepped => opening.step stepped takes
    rintro σ ⟨address, rfl⟩
    refine ⟨fun key a isInit found => ?_, fun f isInit member => ?_, fun key a found => ?_⟩
    · cases found
    · rcases member with queued | off
      · cases queued
      · cases off
    · cases found
  have waits : ∀ isInit, a.state = openingState isInit →
      σ.socket.expirations.isActive (timerOf key (openingTimer isInit)) = true
      ∨ QueuedWith σ.socket.sends key (openingChunk isInit) := by
    intro isInit state
    rcases opening.waits key a isInit found state with runs | queued | ⟨f, member, -⟩
    · exact Or.inl runs
    · exact Or.inr queued
    · cases member
  exact ⟨waits true, waits false, fun isInit retry state => t1_ends_or_counts found state retry⟩

namespace Opened

/-- Another peer. -/
def stranger : AssociationKey := peerKey ⟨0x0A000003#32, 5000#16⟩ 5000#16

end Opened

/-- An association that waits for the answer to its INIT. -/
theorem init_queued_never_stalls :
    ∃ σ a, System.Reached (fun σ event => σ.queueTakesOpenings event = true) σ
    ∧ σ.socket.find? Opened.stranger = some a ∧ a.state = .cookieWait
    ∧ (σ.socket.expirations.isActive (timerOf Opened.stranger .t1Init) = true
      ∨ QueuedWith σ.socket.sends Opened.stranger .init) := by
  obtain ⟨σ, reached, ends⟩ := Opened.exists_reached_while (fun σ event =>
    σ.queueTakesOpenings event = true) [.associate Opened.draws Opened.stranger.address 5000#16]
    (p := fun σ => (σ.socket.find? Opened.stranger).any fun a => a.state == .cookieWait)
      (by decide +kernel)
  obtain ⟨a, found, state⟩ := (Option.any_eq_true _ _).mp ends
  have waits : a.state = .cookieWait := beq_iff_eq.mp state
  exact ⟨σ, a, reached, found, waits, (handshake_never_stalls reached found).1 waits⟩

/-- Probes the UDP socket has not taken fill the queue, and the INIT of a new association
is refused: the association waits in COOKIE-WAIT with no timer and no packet. -/
theorem init_refused_stalls : ∃ σ a, System.Reached (fun _ _ => True) σ
    ∧ σ.socket.find? Opened.stranger = some a ∧ a.state = .cookieWait
    ∧ ¬(σ.socket.expirations.isActive (timerOf Opened.stranger .t1Init) = true
      ∨ QueuedWith σ.socket.sends Opened.stranger .init) := by
  obtain ⟨σ, reached, ends⟩ := Opened.exists_reached
    (List.replicate 256 (.requestHeartbeat 0 Opened.draws Opened.key Opened.peer)
      ++ [.associate Opened.draws Opened.stranger.address 5000#16])
    (p := fun σ => ((σ.socket.find? Opened.stranger).any fun a => a.state == .cookieWait)
      && (!σ.socket.expirations.isActive (timerOf Opened.stranger .t1Init)
      && !(σ.socket.sends.control ++ σ.socket.sends.retransmission).any fun e =>
        e.deliverable.location == Opened.stranger && containsChunk e.deliverable.packet .init))
          (by decide +kernel)
  rw [Bool.and_eq_true, Bool.and_eq_true, Bool.not_eq_true', Bool.not_eq_true'] at ends
  obtain ⟨waits, stopped, nothing⟩ := ends
  obtain ⟨a, found, state⟩ := (Option.any_eq_true _ _).mp waits
  refine ⟨σ, a, reached, found, beq_iff_eq.mp state, ?_⟩
  rintro (runs | ⟨e, member, location, contains⟩)
  · rw [stopped] at runs
    cases runs
  · have some : (e.deliverable.location == Opened.stranger
      && containsChunk e.deliverable.packet .init) = true := by
      rw [location, contains]
      rfl
    exact absurd (List.any_eq_true.mpr ⟨e, member, some⟩) (by rw [nothing]; exact nofun)

end SctpStack
