import SctpStack.GracefulClose
import SctpStack.Deadlines

/-!
# The guard of a shutdown

T2-shutdown starts anew with every SHUTDOWN the peer has to see again, and what it counts
is cleared by whatever the peer sends. The guard is set once, when the association goes to
SHUTDOWN-SENT: no packet, call or other timer moves its deadline, and at its deadline the
association is gone (`guard_ends_close`).
-/

namespace SctpStack

/-! ## The deadline of a timer -/

/-- A timer goes off when it did before, whatever others were set. -/
theorem ExpirationQueue.alarms_of_more {q q' : ExpirationQueue} {timer : ExpirationKey}
    {more : List ExpirationFallback} (queue : q'.queue = q.queue ++ more)
    (others : ∀ f ∈ more, f.key ≠ timer) (active : q'.active.get? timer = q.active.get? timer) :
    q'.alarms timer = q.alarms timer := by
  have none : more.find? (fun entry =>
      decide (entry.key = timer ∧ q.active.get? timer = some entry.generation)) = none := by
    refine List.find?_eq_none.mpr fun f member => ?_
    rw [decide_eq_true_eq]
    exact fun same => others f member same.1
  unfold ExpirationQueue.alarms
  rw [queue, active, List.find?_append, none, Option.or_none]

section Moves

variable {s s' : Socket} {key : AssociationKey} {a : Association}

theorem TimersKept.alarms {q q' : ExpirationQueue} (kept : TimersKept q q') {timer : ExpirationKey}
    (major : isMajor timer.type = true) : q'.alarms timer = q.alarms timer := by
  obtain ⟨more, queue, minor⟩ := kept.heap
  refine ExpirationQueue.alarms_of_more queue (fun f member same => ?_) (kept.active timer major)
  have small := (minor f member).1
  rw [same, major] at small
  cases small

theorem TimersStopped.alarms {q q' : ExpirationQueue} (stopped : TimersStopped key q q')
    {timer : ExpirationKey} (apart : timer.location ≠ key) : q'.alarms timer = q.alarms timer := by
  refine ExpirationQueue.alarms_of_more (stopped.queue.trans (List.append_nil _).symm)
    (fun f none => ?_) ((stopped.active timer).trans (if_neg apart))
  cases none

theorem AfterSend.alarms {d : Deliverable} (after : AfterSend d s s') (key : AssociationKey) :
    s'.expirations.alarms (timerOf key .t5ShutdownGuard)
      = s.expirations.alarms (timerOf key .t5ShutdownGuard) := by
  obtain ⟨more, queue, new⟩ := after.heap
  refine ExpirationQueue.alarms_of_more queue (fun f member same => ?_) (after.t5 key)
  rcases (new f member).2 with minor | ⟨isInit, timer, -⟩
  · rw [same] at minor
    cases minor
  · have type : ExpirationTimerType.t5ShutdownGuard = openingTimer isInit :=
      congrArg ExpirationKey.type (same.symm.trans timer)
    cases isInit <;> cases type

theorem alarms_schedule_ne (q : ExpirationQueue) {timer other : ExpirationKey}
    (apart : other ≠ timer) (expiration : Time) (retry : Deliverable) :
    (q.schedule timer expiration retry).alarms other = q.alarms other := by
  have queue : (q.schedule timer expiration retry).queue = q.queue
      ++ [⟨timer, expiration, q.nextGeneration, retry⟩] := rfl
  refine ExpirationQueue.alarms_of_more queue (fun f member => ?_) ?_
  · rw [List.mem_singleton.mp member]
    exact apart.symm
  · simp [ExpirationQueue.schedule, apart]

theorem alarms_cancel_ne (q : ExpirationQueue) {timer other : ExpirationKey}
    (apart : other ≠ timer) :
    (q.cancel timer).alarms other = q.alarms other := by
  refine ExpirationQueue.alarms_of_more (List.append_nil _).symm (fun f none => ?_) ?_
  · cases none
  · simp [ExpirationQueue.cancel, apart]

/-! ## Moves -/

/-- The association under `key` closes, and its guard goes off when `x` says. -/
structure Guarded (key : AssociationKey) (tag : Tag) (x : Option (Time × Nat × Deliverable))
    (s : Socket) (a : Association) :
    Prop where
  found : s.find? key = some a
  tag : a.thisVerTag = tag
  closing : closes a.state = true
  alarm : s.expirations.alarms (timerOf key .t5ShutdownGuard) = x

theorem Stays.tag {a b : Association} (stays : Stays a b) : b.thisVerTag = a.thisVerTag :=
  congrArg Terms.thisVerTag stays.terms

theorem Shift.closes {a b : Association} (shift : Shift a b) (is : closes a.state = true) :
    closes b.state = true := by
  cases shift with
  | queued essence => rwa [show b.state = a.state from congrArg Essence.state essence]
  | cut n essence => rwa [show b.state = a.state from congrArg Essence.state essence]
  | answered _ _ _ after => exact closes_iff.mpr (Or.inr after)

theorem at_closes {R : Association → Association → Prop} {k : AssociationKey} {a b : Association}
    (each : ∀ a b, R a b → closes a.state = true → closes b.state = true) (related : At key R k a b)
    (is : closes a.state = true) : closes b.state = true := by
  unfold At at related
  split at related
  · exact each a b related is
  · rwa [show b.state = a.state from congrArg Essence.state related.essence]

variable {tag : Tag} {x : Option (Time × Nat × Deliverable)}

theorem Guarded.keeping {R : AssociationKey → Association → Association → Prop}
    (guarded : Guarded key tag x s a) (kept : Keeping R s s')
    (stays : ∀ a b, R key a b → b.thisVerTag = a.thisVerTag)
    (closing : ∀ a b, R key a b → closes a.state = true → closes b.state = true) :
    ∃ b, Guarded key tag x s' b := by
  obtain ⟨b, after, related⟩ := kept.present key a guarded.found
  exact ⟨b, after, (stays a b related).trans guarded.tag, closing a b related guarded.closing,
    (kept.timers.alarms rfl).trans guarded.alarm⟩

theorem Guarded.quiet (guarded : Guarded key tag x s a) (quiet : Quiet s s') :
    ∃ b, Guarded key tag x s' b := by
  refine guarded.keeping quiet (fun _ _ same => same.stays.tag) fun a b same is => ?_
  rwa [show b.state = a.state from congrArg Essence.state same.essence]

/-- The association is gone, or it is as it was. -/
theorem Guarded.removed {k : AssociationKey} (guarded : Guarded key tag x s a)
    (removed : Removed k s s') :
    s'.find? key = none ∨ Guarded key tag x s' a := by
  by_cases here : key = k
  · exact Or.inl ((removed.find? key).trans (if_pos here))
  · exact Or.inr ⟨((removed.find? key).trans (if_neg here)).trans guarded.found, guarded.tag,
      guarded.closing, (removed.timers.alarms here).trans guarded.alarm⟩

theorem Guarded.same (guarded : Guarded key tag x s a) (found : s'.find? key = s.find? key)
    (alarm : s'.expirations.alarms (timerOf key .t5ShutdownGuard)
      = s.expirations.alarms (timerOf key .t5ShutdownGuard)) :
    Guarded key tag x s' a := ⟨found.trans guarded.found, guarded.tag, guarded.closing,
      alarm.trans guarded.alarm⟩

/-- A move that is not for an association that closes leaves it where it is. -/
theorem Guarded.apart {R : Association → Association → Prop} {k : AssociationKey}
    (guarded : Guarded key tag x s a) (kept : Keeping (At k R) s s')
    (open_ : ∀ a b, R a b → closes a.state = false) :
    key ≠ k ∧ ∃ b, Guarded key tag x s' b := by
  obtain ⟨b, -, related⟩ := kept.present key a guarded.found
  have other : key ≠ k := by
    intro here
    rw [At, if_pos here] at related
    have is := open_ a b related
    rw [guarded.closing] at is
    cases is
  refine ⟨other, guarded.keeping kept (fun a b related => ?_) fun a b related is => ?_⟩
  · rw [At, if_neg other] at related
    exact related.stays.tag
  · rw [At, if_neg other] at related
    rwa [show b.state = a.state from congrArg Essence.state related.essence]

theorem closes_of_transmits {state : AssociationState} (transmits : transmitsData state = true) :
    closes state = false := by
  cases state with
  | shutdownSent => cases transmits
  | shutdownAckSent => cases transmits
  | _ => rfl

theorem Stepped.before {a b : Association} (stepped : Stepped a b) : closes a.state = false := by
  rcases stepped.state with ⟨pending, -⟩ | ⟨received, -⟩
  · rw [pending]
    rfl
  · rw [received]
    rfl

theorem Guarded.closed (guarded : Guarded key tag x s a) (now : Time) (k : AssociationKey) :
    ∃ b, Guarded key tag x (s.doNextShutdownStep now k) b := by
  rcases doNextShutdownStep_cases s now k with ⟨same, -⟩ | ⟨_, s₁, -, -, kept, -, next⟩
  · rw [same]
    exact ⟨a, guarded⟩
  · obtain ⟨other, b, after⟩ := guarded.apart kept fun _ _ => Stepped.before
    rcases next with ⟨-, same⟩ | ⟨-, same⟩
    · rw [same]
      refine ⟨b, after.same rfl (alarms_schedule_ne _ (fun same => ?_) _ _)⟩
      exact other (congrArg ExpirationKey.location same)
    · rw [same]
      exact ⟨b, after⟩

/-- What a move does to an association that closes: it ends it, or it goes on with its
guard as it was. -/
theorem Guarded.move (guarded : Guarded key tag x s a) (move : Move s s') :
    s'.find? key = none ∨ ∃ b, Guarded key tag x s' b := by
  cases move with
  | quiet quiet => exact Or.inr (guarded.quiet quiet)
  | shift k shifted =>
    exact Or.inr (guarded.keeping shifted (fun _ _ related =>
      (at_stays (fun _ _ => Shift.stays) related).tag)
      fun _ _ => at_closes fun _ _ => Shift.closes)
  | removed k removed => exact (guarded.removed removed).imp_right fun after => ⟨a, after⟩
  | completed k c _ _ removed quiet =>
    rcases guarded.removed removed with gone | after
    · exact Or.inl (quiet.absent key gone)
    · obtain ⟨b, later⟩ := after.quiet quiet
      exact Or.inr ⟨b, later.same rfl rfl⟩
  | up k c found echoed =>
    refine Or.inr ⟨a, guarded.same ?_ rfl⟩
    rw [Socket.find?_updateAssociation]
    split
    · next here =>
      have same : some a = some c := guarded.found.symm.trans (here ▸ found)
      cases same
      have is := guarded.closing
      rw [echoed] at is
      cases is
    · rfl
  | settled k isInit other =>
    refine Or.inr ⟨a, guarded.same rfl (alarms_cancel_ne _ fun same => ?_)⟩
    have type : ExpirationTimerType.t5ShutdownGuard = openingTimer isInit :=
      congrArg ExpirationKey.type same
    cases isInit <;> cases type
  | dropped k isInit other => exact Or.inr ⟨a, guarded.same rfl rfl⟩
  | closed k now closing =>
    obtain ⟨-, b, after⟩ := guarded.apart closing fun _ _ here => closes_of_transmits here.before
    exact Or.inr (after.closed now k)
  | sent p now leaves =>
    have after := afterSend_packetSent s now p
    obtain ⟨b, found, same⟩ := (steady_packetSent s now p).present key a guarded.found
    have state : b.state = a.state := congrArg Essence.state same.essence
    exact Or.inr ⟨b, found, same.stays.tag.trans guarded.tag, state ▸ guarded.closing,
      (after.alarms key).trans guarded.alarm⟩

theorem Move.absent (move : Move s s') (absent : s.find? key = none) : s'.find? key = none := by
  rcases move.kept with lasting | ⟨k, s₁, gone, lasting⟩
  · exact lasting.absent key absent
  · refine lasting.absent key ((gone.find? key).trans ?_)
    split
    · rfl
    · exact absent

/-- No association under `key` has the tag, or the one that does closes with its guard as
it was. -/
def Bound (key : AssociationKey) (tag : Tag) (x : Option (Time × Nat × Deliverable)) (s : Socket) :
    Prop :=
  (∀ a, s.find? key = some a → a.thisVerTag ≠ tag) ∨ ∃ a, Guarded key tag x s a

theorem Bound.of_none (absent : s.find? key = none) : Bound key tag x s := by
  refine Or.inl fun a found => ?_
  rw [absent] at found
  cases found

theorem Bound.move (bound : Bound key tag x s) (move : Move s s') : Bound key tag x s' := by
  rcases bound with other | ⟨a, guarded⟩
  · refine Or.inl fun b found => ?_
    rcases move.kept with lasting | ⟨k, s₁, gone, lasting⟩
    · obtain ⟨a, before, stays⟩ := lasting.before found
      rw [stays.tag]
      exact other a before
    · obtain ⟨a, before, stays⟩ := lasting.before found
      rw [gone.find?] at before
      split at before
      · cases before
      · rw [stays.tag]
        exact other a before
  · rcases guarded.move move with gone | after
    · exact .of_none gone
    · exact Or.inr after

/-! ## The ways in -/

/-- What is done for another association. -/
theorem Bound.elsewhere {k : AssociationKey} (bound : Bound key tag x s) (apart : key ≠ k)
    (found : ∀ k', k' ≠ k → s'.find? k' = s.find? k')
    (active : ∀ timer, timer.location ≠ k → s'.expirations.active.get? timer
      = s.expirations.active.get? timer)
    (queue : s'.expirations.queue = s.expirations.queue) : Bound key tag x s' := by
  have same := found key apart
  rcases bound with other | ⟨a, guarded⟩
  · refine Or.inl fun a after => other a (same.symm.trans after)
  · refine Or.inr ⟨a, guarded.same same ?_⟩
    refine ExpirationQueue.alarms_of_more (queue.trans (List.append_nil _).symm) (fun f none => ?_)
      (active _ apart)
    cases none

/-- What is done for an association that does not close keeps its tag. -/
theorem Bound.of_open {a b : Association} (bound : Bound key tag x s) (found : s.find? key = some a)
    (open_ : closes a.state = false) (after : s'.find? key = some b)
    (same : b.thisVerTag = a.thisVerTag) :
    Bound key tag x s' := by
  rcases bound with other | ⟨c, guarded⟩
  · refine Or.inl fun c here => ?_
    rw [after] at here
    cases here
    rw [same]
    exact other a found
  · have same : some c = some a := guarded.found.symm.trans found
    cases same
    have is := guarded.closing
    rw [open_] at is
    cases is

theorem Guarded.entry {k : AssociationKey} {cookie : StateCookie} (guarded : Guarded key tag x s a)
    (entry : CookieEntry s k cookie s') : Bound key tag x s' := by
  obtain ⟨others, -⟩ := entry.up
  by_cases here : key = k
  · rw [← here] at entry
    cases entry with
    | created absent =>
      rw [guarded.found] at absent
      cases absent
    | restarted tcb found differs =>
      -- A cookie restarts an association only under another tag.
      have same : some a = some tcb := guarded.found.symm.trans found
      cases same
      refine Or.inl fun b after => ?_
      rw [Socket.restartedFrom, find?_createdFrom, if_pos rfl] at after
      cases after
      rw [withPaths_only, ← guarded.tag]
      exact differs
    | collided tcb found =>
      have same : some a = some tcb := guarded.found.symm.trans found
      cases same
      have after := find?_collidedWith found cookie key
      rw [if_pos rfl, forming_of_closes guarded.closing, if_neg Bool.false_ne_true] at after
      refine Or.inr ⟨_, after, ?_, ?_, ?_⟩
      · rw [Socket.collided, withPaths_only]
        exact guarded.tag
      · rw [Socket.collided, withPaths_only]
        exact guarded.closing
      · rw [(undisturbed_collidedWith s key a cookie).expirations]
        exact guarded.alarm
  · have bound : Bound key tag x s := Or.inr ⟨a, guarded⟩
    cases entry with
    | created absent =>
      have same := (undisturbed_createdFrom s k cookie).expirations
      exact bound.elsewhere here others (fun _ _ => by rw [same]) (by rw [same])
    | restarted tcb found =>
      have same := (undisturbed_restartedFrom s k tcb cookie).expirations
      refine bound.elsewhere here others (fun timer apart => ?_) (by rw [same]; rfl)
      rw [same]
      exact ((TimersStopped.cancelAll k s.expirations).active timer).trans (if_neg apart)
    | collided tcb found =>
      have same := (undisturbed_collidedWith s k tcb cookie).expirations
      exact bound.elsewhere here others (fun _ _ => by rw [same]) (by rw [same])

theorem Bound.initAck {k : AssociationKey} {c : Association} (bound : Bound key tag x s)
    (found : s.find? k = some c) (waits : c.state = .cookieWait) (header : CommonHeader)
    (initAck : InitChunkValue) (src : SockAddr) (cookie : Bytes) :
    Bound key tag x (s.acceptInitAck header initAck k src cookie) := by
  obtain ⟨s₁, destination, errors, same, after, -, -, expirations, -⟩ :=
    acceptInitAck_eq found header initAck src cookie
  rw [same]
  by_cases here : key = k
  · rw [← here] at found after
    refine bound.of_open found (by rw [waits]; rfl) ((after key).trans (if_pos rfl)) ?_
    rw [initAcked, withPaths_only]
  · refine bound.elsewhere here (fun k' apart => (after k').trans (if_neg apart))
      (fun timer apart => ?_) ?_
    · have other : timer ≠ timerOf k .t1Init := by
        rintro rfl
        exact apart rfl
      simp [Socket.reply, Socket.enqueuePacket, Socket.removeRetransmissionsOfType,
        Socket.cancelExpiration, ExpirationQueue.cancel, other, expirations]
    · exact (congrArg ExpirationQueue.queue expirations :)

theorem Bound.retry {k : AssociationKey} {c : Association} (bound : Bound key tag x s)
    (found : s.find? k = some c) (echoed : c.state = .cookieEchoed) (staleness : BitVec 32) :
    Bound key tag x (s.retryHandshake k c staleness) := by
  by_cases here : key = k
  · rw [← here] at found ⊢
    exact bound.of_open found (by rw [echoed]; rfl)
      ((Socket.find?_setAssociation s key key _).trans (if_pos rfl)) rfl
  · refine bound.elsewhere here (fun k' apart =>
      (Socket.find?_setAssociation s k k' _).trans (if_neg apart)) (fun timer apart => ?_) rfl
    have other : timer ≠ timerOf k .t1Cookie := by
      rintro rfl
      exact apart rfl
    simp [Socket.retryHandshake, Socket.setAssociation, Socket.enqueuePacket,
      Socket.removeRetransmissionsOfType, Socket.cancelExpiration, ExpirationQueue.cancel, other]

theorem Bound.stuck {k : AssociationKey} {c : Association} (bound : Bound key tag x s)
    (found : s.find? k = some c) (waits : c.state = .cookieWait) (header : CommonHeader)
    (destination : SockAddr) (cookie : StateCookie) :
    Bound key tag x (s.finishCookieEcho header k destination cookie) := by
  by_cases here : key = k
  · rw [← here] at found ⊢
    exact bound.of_open (b := c) found (by rw [waits]; rfl) found rfl
  · refine bound.elsewhere here (fun k' _ => rfl) (fun timer apart => ?_) rfl
    have init : timer ≠ timerOf k .t1Init := by
      rintro rfl
      exact apart rfl
    have echo : timer ≠ timerOf k .t1Cookie := by
      rintro rfl
      exact apart rfl
    simp [Socket.finishCookieEcho, Socket.sendCookieAck, Socket.reply, Socket.enqueuePacket,
      Socket.removeRetransmissionsOfType, Socket.cancelExpiration, ExpirationQueue.cancel, init,
      echo]

theorem echoed_of_retry {c : Association} {causes : List ErrorCause} {staleness : BitVec 32}
    (outcome : Socket.staleCookieOutcome c causes = .retry staleness) :
    c.state = .cookieEchoed := by
  unfold Socket.staleCookieOutcome at outcome
  split at outcome
  · cases outcome
  · next echoed => exact Decidable.not_not.mp echoed

theorem Guarded.associate (guarded : Guarded key tag x s a) (draws : Draws) (toAddress : SockAddr)
    (port : Port) :
    Bound key tag x (s.sctpAssociate draws toAddress port).2 := by
  have bound : Bound key tag x s := Or.inr ⟨a, guarded⟩
  unfold Socket.sctpAssociate
  split
  · exact bound
  · simp only
    split
    · exact bound
    · next known =>
      have absent : s.find? (peerKey toAddress port) = none :=
        unknown_of_new (Bool.eq_false_iff.mpr known)
      have other : key ≠ peerKey toAddress port := by
        rintro rfl
        rw [guarded.found] at absent
        cases absent
      refine bound.elsewhere other (fun k apart => ?_) (fun timer _ => rfl) rfl
      have entered : (s.associations.emplace (peerKey toAddress port)
          (initNewAssociation draws toAddress)).get? k
          = if k = peerKey toAddress port then some (initNewAssociation draws toAddress)
            else s.find? k := by
        rw [KeyMap.get?_emplace, show s.associations.get? (peerKey toAddress port)
          = none from absent]
        rfl
      exact entered.trans (if_neg apart)

/-! ## Expiry -/

theorem find?_handleT5Expiration (found : s.find? key = some a) (is : closes a.state = true) :
    (s.handleT5Expiration key).find? key = none := by
  unfold Socket.handleT5Expiration
  rw [found]
  simp only
  split
  · next other =>
    rcases closes_iff.mp is with first | second
    · exact absurd first other.1
    · exact absurd second other.2
  · exact (removed_removeAssociation s key).find? key |>.trans (if_pos rfl)

/-- The guard ends the association when it is due, whatever goes off with it. -/
theorem Guarded.due {y : Time × Nat × Deliverable} (guarded : Guarded key tag (some y) s a)
    (sound : s.expirations.Sound) {now : Time} (due : y.1 ≤ now) (draws : Nat → Draws) :
    (s.runExpire now draws).find? key = none := by
  obtain ⟨-, fires, left⟩ := ExpirationQueue.drainExpired_fires sound now
  obtain ⟨f, member, same⟩ := List.mem_map.mp
    ((fires.due (timerOf key .t5ShutdownGuard) y).mpr ⟨guarded.alarm, due⟩)
  have off : ∃ f ∈ (s.expirations.drainExpired now).1, f.key = timerOf key .t5ShutdownGuard :=
    ⟨f, member, congrArg Prod.fst same⟩
  -- Until the guard is handled the association closes, if it is there at all.
  have ends : (s.runExpire now draws).find? key = none
      ∨ (∃ b z, Guarded key tag z (s.runExpire now draws) b)
      ∧ ∃ f ∈ ([] : List ExpirationFallback), f.key = timerOf key .t5ShutdownGuard := by
    refine @runExpire_fires (fun due s => s.find? key = none
      ∨ (∃ b z, Guarded key tag z s b) ∧ ∃ f ∈ due, f.key = timerOf key .t5ShutdownGuard)
        s now draws
      (fun f due s draws holds => ?_)
        (Or.inr ⟨⟨a, _, ⟨guarded.found, guarded.tag, guarded.closing, rfl⟩⟩, off⟩)
    have acts := Acts.handleExpiration s now draws f
    rcases holds with gone | ⟨⟨b, z, here⟩, g, member, timer⟩
    · exact Or.inl (acts.keeps (fun _ _ move absent => Move.absent move absent) gone)
    · rcases List.mem_cons.mp member with rfl | later
      · refine Or.inl ?_
        rw [Socket.handleExpiration, timer]
        exact find?_handleT5Expiration here.found here.closing
      · have after : (s.handleExpiration now draws f).find? key = none
            ∨ ∃ c, Guarded key tag z (s.handleExpiration now draws f) c := by
          refine @Acts.keeps (fun s => s.find? key = none ∨ ∃ c, Guarded key tag z s c)
            (fun s₁ s₂ move holds => ?_) _ _ acts (Or.inr ⟨b, here⟩)
          rcases holds with gone | ⟨c, before⟩
          · exact Or.inl (move.absent gone)
          · exact before.move move
        rcases after with gone | ⟨c, after⟩
        · exact Or.inl gone
        · exact Or.inr ⟨⟨c, z, after⟩, g, later, timer⟩
  rcases ends with gone | ⟨-, f, none, -⟩
  · exact gone
  · cases none

/-- Before its deadline the guard is none of the timers that go off. -/
theorem Guarded.early {y : Time × Nat × Deliverable} (guarded : Guarded key tag (some y) s a)
    (sound : s.expirations.Sound) {now : Time} (early : now < y.1) (draws : Nat → Draws) :
    Bound key tag (some y) (s.runExpire now draws) := by
  obtain ⟨-, -, left⟩ := ExpirationQueue.drainExpired_fires sound now
  refine runExpire_moves (fun _ _ move bound => Bound.move bound move)
    (Or.inr ⟨a, guarded.same rfl ?_⟩)
  show (s.expirations.drainExpired now).2.alarms _ = _
  rw [left, guarded.alarm]
  exact Alarms.after_eq_some.mpr ⟨guarded.alarm, early⟩

/-- What a step keeps. -/
theorem Guarded.step {y : Time × Nat × Deliverable} {σ σ' : System} {event : Event}
    (guarded : Guarded key tag (some y) σ.socket a) (sound : σ.socket.expirations.Sound)
    (stepped : σ.step event = some σ') : Bound key tag (some y) σ'.socket := by
  refine System.step_moves (fun _ _ move bound => Bound.move bound move) stepped
    (fun now draws packet src _ => ?_) (fun now draws _ _ => ?_)
    (fun draws toAddress port _ _ => guarded.associate draws toAddress port) (Or.inr ⟨a, guarded⟩)
  · refine ⟨fun _ _ _ _ _ entry _ => guarded.entry entry, ?_, ?_, ?_, ?_⟩
    · intro _ cookie _ destination _ _ found waits _ bound
      exact bound.stuck found waits packet.header destination cookie
    · intro _ _ _ _ _ initAck _ cookie _ _ found waits _ bound
      exact bound.initAck found waits packet.header initAck src cookie
    · intro _ _ _ _ _ _ _ staleness _ _ found outcome bound
      exact bound.retry found (echoed_of_retry outcome) staleness
    · intro _ k _ _ _ _ _ _ _ _ taken bound
      rcases bound with other | ⟨b, here⟩
      · refine Or.inl fun b after => ?_
        obtain ⟨c, before, related⟩ := taken.before after
        rw [show b.thisVerTag = c.thisVerTag from congrArg Essence.thisVerTag related.essence]
        exact other c before
      · refine Or.inr (here.keeping taken (fun b c related =>
          congrArg Essence.thisVerTag related.essence) fun b c related is => ?_)
        rwa [show c.state = b.state from congrArg Essence.state related.essence]
  · by_cases due : y.1 ≤ now
    · exact .of_none (guarded.due sound due draws)
    · exact guarded.early sound (lt_of_not_ge due) draws

end Moves

/-! ## Runs -/

/-- Steps after each of which the association under `key` has its tag. -/
abbrev Meanwhile (key : AssociationKey) (tag : Tag) : System → System → Prop :=
  Relation.ReflTransGen fun σ σ' => (∃ event, σ.step event = some σ') ∧ ∃ a, σ'.socket.find? key
    = some a ∧ a.thisVerTag = tag

theorem Meanwhile.reached {key : AssociationKey} {tag : Tag} {σ σ' : System}
    (meanwhile : Meanwhile key tag σ σ') (reached : System.Reached (fun _ _ => True) σ) :
    System.Reached (fun _ _ => True) σ' := by
  induction meanwhile with
  | refl => exact reached
  | tail _ step ih =>
    obtain ⟨⟨event, stepped⟩, -⟩ := step
    exact .next ih trivial stepped

/-- A list of events after each of which the association has its tag. -/
theorem Meanwhile.replayWhile {key : AssociationKey} {tag : Tag} {σ σ' : System}
    {events : List Event} (played : Run.replayWhile System.step
      (fun σ event => (σ.step event).any fun σ' => (σ'.socket.find? key).any fun a =>
        a.thisVerTag == tag) σ events = some σ') :
    Meanwhile key tag σ σ' := by
  induction events generalizing σ with
  | nil =>
    cases played
    exact .refl
  | cons event rest ih =>
    rw [Run.replayWhile] at played
    split at played
    · next keeps =>
      obtain ⟨σ₁, stepped, later⟩ := Option.bind_eq_some_iff.mp played
      rw [stepped, Option.any_some] at keeps
      obtain ⟨a, found, tagged⟩ := (Option.any_eq_true _ _).mp keeps
      exact .head ⟨⟨event, stepped⟩, a, found, beq_iff_eq.mp tagged⟩ (ih later)
    · cases played

theorem Guarded.meanwhile {key : AssociationKey} {tag : Tag} {y : Time × Nat × Deliverable}
    {σ σ' : System} {a : Association} (reached : System.Reached (fun _ _ => True) σ)
    (guarded : Guarded key tag (some y) σ.socket a) (meanwhile : Meanwhile key tag σ σ') :
    ∃ b, Guarded key tag (some y) σ'.socket b := by
  induction meanwhile with
  | refl => exact ⟨a, guarded⟩
  | tail before step ih =>
    obtain ⟨b, here⟩ := ih
    obtain ⟨⟨event, stepped⟩, c, found, same⟩ := step
    rcases here.step (Meanwhile.reached before reached).timers stepped with other | after
    · exact absurd same (other c found)
    · exact after

/-- In every run, from a state in which the association under `key` is in SHUTDOWN-SENT and
as long as it keeps its tag, it goes on closing and its guard goes off when it was to go
off then; and once timers go off at or after that deadline it is gone. -/
theorem guard_ends_close {σ : System} (reached : System.Reached (fun _ _ => True) σ)
    {key : AssociationKey} {a : Association} (found : σ.socket.find? key = some a)
    (first : a.state = .shutdownSent) :
    ∃ y, σ.socket.expirations.alarms (timerOf key .t5ShutdownGuard) = some y
      ∧ ∀ σ', Meanwhile key a.thisVerTag σ σ' →
        (∃ b, σ'.socket.find? key = some b ∧ closes b.state = true
        ∧ σ'.socket.expirations.alarms (timerOf key .t5ShutdownGuard) = some y)
      ∧ ∀ now draws σ'', σ'.step (.expire now draws) = some σ'' → y.1 ≤ now → σ''.socket.find? key
        = none := by
  have runs : σ.socket.expirations.isActive (timerOf key .t5ShutdownGuard) = true := by
    rcases reached.closes.guarded key a found first with active | ⟨f, none, -⟩
    · exact active
    · cases none
  obtain ⟨y, alarm⟩ := reached.timers.isActive_iff.mp runs
  have guarded : Guarded key a.thisVerTag (some y) σ.socket a :=
    ⟨found, rfl, closes_iff.mpr (Or.inl first), alarm⟩
  refine ⟨y, alarm, fun σ' meanwhile => ?_⟩
  obtain ⟨b, here⟩ := guarded.meanwhile reached meanwhile
  refine ⟨⟨b, here.found, here.closing, here.alarm⟩, fun now draws σ'' stepped due => ?_⟩
  rcases System.step_cases stepped with ⟨_, _, _, _, is, -⟩ | ⟨now', draws', is, -, rfl⟩ | ⟨is,
    -⟩ | ⟨_, _, _, is, -⟩
    | ⟨s, called, -⟩
  · cases is
  · cases is
    exact here.due (meanwhile.reached reached).timers due draws
  · cases is
  · cases is
  · cases called

namespace Opened

/-- The SHUTDOWN goes out, and its timer goes off. -/
def unanswered : List Event := batch 1 ++ [.expire 1000000000 fun _ => draws]

/-- The state after the events, if the association kept its tag. -/
def meanwhile (σ : System) (events : List Event) : Option System :=
  Run.replayWhile System.step
    (fun σ event => (σ.step event).any fun σ' => (σ'.socket.find? key).any fun a =>
      a.thisVerTag == 1#32) σ events

end Opened

/-- The ULP closes an association with nothing to send, and the first SHUTDOWN is lost. -/
theorem closed_guarded : ∃ σ σ' a b, System.Reached (fun _ _ => True) σ ∧ σ.socket.find? Opened.key
    = some a
    ∧ a.state = .shutdownSent ∧ Opened.meanwhile σ Opened.unanswered = some σ'
    ∧ σ'.socket.find? Opened.key = some b
    ∧ b.errorCount = 1 ∧ closes b.state = true
    ∧ ∃ y, σ'.socket.expirations.alarms (timerOf Opened.key .t5ShutdownGuard) = some y
      ∧ ∀ now draws σ'', σ'.step (.expire now draws) = some σ'' → y.1 ≤ now →
        σ''.socket.find? Opened.key = none := by
  obtain ⟨σ, reached, ends⟩ := Opened.exists_reached [.shutdown 0 Opened.key]
    (p := fun σ => ((σ.socket.find? Opened.key).any fun a => a.state == .shutdownSent
      && a.thisVerTag == 1#32) && (Opened.meanwhile σ Opened.unanswered).any fun σ' =>
        (σ'.socket.find? Opened.key).any fun b => b.errorCount == 1)
    (by decide +kernel)
  rw [Bool.and_eq_true] at ends
  obtain ⟨closes, later⟩ := ends
  obtain ⟨a, found, both⟩ := (Option.any_eq_true _ _).mp closes
  rw [Bool.and_eq_true, beq_iff_eq, beq_iff_eq] at both
  obtain ⟨first, tag⟩ := both
  obtain ⟨σ', played, counted⟩ := (Option.any_eq_true _ _).mp later
  obtain ⟨b, there, one⟩ := (Option.any_eq_true _ _).mp counted
  obtain ⟨y, -, goesOn⟩ := guard_ends_close reached found first
  rw [tag] at goesOn
  obtain ⟨⟨c, here, closing, alarm⟩, gone⟩ := goesOn σ' (.replayWhile played)
  rw [there, Option.some.injEq] at here
  subst here
  exact ⟨σ, σ', a, b, reached, found, first, played, there, beq_iff_eq.mp one, closing, y, alarm,
    gone⟩

end SctpStack
