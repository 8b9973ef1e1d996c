import SctpStack.Openings
import SctpStack.Passages

/-!
# A graceful close

Once everything is acknowledged, an association that closes sends SHUTDOWN or SHUTDOWN
ACK and waits for the answer. From then on nothing is left to send, T2-shutdown runs, and
the side that closed first has its guard set (`Closes`), which it never sets again
(`Guarded`).
-/

namespace SctpStack

/-- The states that wait for the answer to a SHUTDOWN or a SHUTDOWN ACK. -/
def closes : AssociationState → Bool
  | .shutdownSent | .shutdownAckSent => true
  | _ => false

/-- Everything that was queued was sent, and everything that was sent is acknowledged. -/
structure Drained (a : Association) : Prop where
  acked : a.cumulativeTsnAck = a.nextTsn - 1#32
  sent : a.outbound = []

/-- The timer runs, or it is among those that went off. -/
def Awaited (due : List ExpirationFallback) (s : Socket) (timer : ExpirationKey) : Prop :=
  s.expirations.isActive timer = true ∨ ∃ f ∈ due, f.key = timer

/-- What holds of every association that waits for the answer to its SHUTDOWN or SHUTDOWN
ACK, while the timers in `due` went off and were not handled yet. -/
structure Closes (due : List ExpirationFallback) (s : Socket) : Prop where
  drained : ∀ key a, s.find? key = some a → closes a.state = true → Drained a
  repeated : ∀ key a, s.find? key = some a → closes a.state = true →
    Awaited due s (timerOf key .t2Shutdown)
  guarded : ∀ key a, s.find? key = some a → a.state = .shutdownSent →
    Awaited due s (timerOf key .t5ShutdownGuard)

theorem closes_iff {state : AssociationState} :
    closes state = true ↔ state = .shutdownSent ∨ state = .shutdownAckSent := by
  cases state <;> simp [closes]

theorem forming_of_closes {state : AssociationState} (is : closes state = true) :
    forming state = false := by
  cases state with
  | shutdownSent => rfl
  | shutdownAckSent => rfl
  | _ => cases is

/-! ## Changes to one association -/

/-- An association that closes closed before, as it stands. -/
structure Lingers (a b : Association) : Prop where
  closed : closes b.state = true → closes a.state = true
  first : b.state = .shutdownSent → a.state = .shutdownSent
  drained : closes b.state = true → Drained a → Drained b

theorem Lingers.open_ {a b : Association} (other : closes b.state = false) : Lingers a b where
  closed := by
    intro is
    rw [other] at is
    cases is
  first := by
    intro is
    rw [is] at other
    cases other
  drained := by
    intro is
    rw [other] at is
    cases is

/-- What was sent and acknowledged is the same. -/
theorem Lingers.of_essence_but {a b : Association}
    (same : b.state = a.state ∧ b.cumulativeTsnAck = a.cumulativeTsnAck
    ∧ b.nextTsn = a.nextTsn ∧ b.outbound = a.outbound) : Lingers a b := by
  obtain ⟨state, acked, next, outbound⟩ := same
  refine ⟨fun is => state ▸ is, fun is => state ▸ is, fun _ drained =>
    ⟨?_, outbound.trans drained.sent⟩⟩
  rw [acked, next]
  exact drained.acked

theorem Lingers.of_essence {a b : Association} (same : b.essence = a.essence) : Lingers a b :=
  .of_essence_but ⟨congrArg Essence.state same, congrArg Essence.cumulativeTsnAck same,
    congrArg Essence.nextTsn same, congrArg Essence.outbound same⟩

theorem Lingers.of_transmits {a b : Association} (transmits : transmitsData b.state = true) :
    Lingers a b := by
  refine .open_ ?_
  cases state : b.state with
  | shutdownSent =>
    rw [state] at transmits
    cases transmits
  | shutdownAckSent =>
    rw [state] at transmits
    cases transmits
  | _ => rfl

theorem Lingers.of_shift {a b : Association} (shift : Shift a b) : Lingers a b := by
  cases shift with
  | queued essence _ established =>
    refine .of_transmits ?_
    rw [show b.state = a.state from congrArg Essence.state essence, established]
    rfl
  | cut n essence _ transmits _ _ =>
    refine .of_transmits ?_
    rw [show b.state = a.state from congrArg Essence.state essence]
    exact transmits
  | answered essence _ before after =>
    refine ⟨fun _ => closes_iff.mpr before, fun is => ?_, fun _ drained => ⟨?_, ?_⟩⟩
    · rw [after] at is
      cases is
    · rw [show b.cumulativeTsnAck = a.cumulativeTsnAck from congrArg Essence.cumulativeTsnAck
        essence,
        show b.nextTsn = a.nextTsn from congrArg Essence.nextTsn essence]
      exact drained.acked
    · exact (congrArg Essence.outbound essence).trans drained.sent

theorem Stepped.drained {a b : Association} (stepped : Stepped a b) : Drained b where
  acked := by
    rw [show b.cumulativeTsnAck = a.cumulativeTsnAck from congrArg Essence.cumulativeTsnAck
      stepped.essence,
      show b.nextTsn = a.nextTsn from congrArg Essence.nextTsn stepped.essence]
    exact stepped.acked
  sent := (congrArg Essence.outbound stepped.essence).trans stepped.sent

theorem at_lingers {R : Association → Association → Prop} {key k : AssociationKey}
    {a b : Association} (each : ∀ a b, R a b → Lingers a b) (related : At key R k a b) :
    Lingers a b := by
  unfold At at related
  split at related
  · exact each a b related
  · exact .of_essence related.essence

/-! ## Moves -/

section Moves

variable {due : List ExpirationFallback} {s s' : Socket} {key : AssociationKey}

theorem Closes.keeping {R : AssociationKey → Association → Association → Prop}
    (holds : Closes due s) (kept : Keeping R s s') (lingers : ∀ k a b, R k a b → Lingers a b) :
    Closes due s' where
  drained := by
    intro k b found is
    obtain ⟨a, before, related⟩ := kept.before found
    have here := lingers k a b related
    exact here.drained is (holds.drained k a before (here.closed is))
  repeated := by
    intro k b found is
    obtain ⟨a, before, related⟩ := kept.before found
    exact (holds.repeated k a before ((lingers k a b related).closed is)).imp_left
      (kept.timers.t2 k)
  guarded := by
    intro k b found first
    obtain ⟨a, before, related⟩ := kept.before found
    refine (holds.guarded k a before ((lingers k a b related).first first)).imp_left fun runs => ?_
    rw [ExpirationQueue.isActive, KeyMap.contains, kept.timers.active _ rfl]
    exact runs

theorem Closes.quiet (holds : Closes due s) (quiet : Quiet s s') : Closes due s' :=
  holds.keeping quiet fun _ _ _ same => .of_essence same.essence

theorem Closes.removed (holds : Closes due s) (removed : Removed key s s') : Closes due s' := by
  have elsewhere : ∀ k a, s'.find? k = some a → s.find? k = some a
      ∧ ∀ type, Awaited due s (timerOf k type) → Awaited due s' (timerOf k type) := by
    intro k a found
    rw [removed.find?] at found
    split at found
    · cases found
    · next apart =>
      refine ⟨found, fun type awaited => awaited.imp_left fun runs => ?_⟩
      have here : (timerOf k type).location ≠ key := apart
      rw [ExpirationQueue.isActive, KeyMap.contains, removed.timers.active, if_neg here]
      exact runs
  constructor
  · intro k a found is
    exact holds.drained k a (elsewhere k a found).1 is
  · intro k a found is
    obtain ⟨before, kept⟩ := elsewhere k a found
    exact kept _ (holds.repeated k a before is)
  · intro k a found first
    obtain ⟨before, kept⟩ := elsewhere k a found
    exact kept _ (holds.guarded k a before first)

/-- More timers run. -/
theorem Closes.more (holds : Closes due s) (found : ∀ k, s'.find? k = s.find? k)
    (runs : ∀ timer, s.expirations.isActive timer = true → s'.expirations.isActive timer = true) :
    Closes due s' where
  drained := by
    intro k a here
    exact holds.drained k a ((found k).symm.trans here)
  repeated := by
    intro k a here is
    exact (holds.repeated k a ((found k).symm.trans here) is).imp_left (runs _)
  guarded := by
    intro k a here first
    exact (holds.guarded k a ((found k).symm.trans here) first).imp_left (runs _)

theorem isActive_schedule (q : ExpirationQueue) {timer other : ExpirationKey} (expiration : Time)
    (retry : Deliverable) :
    (q.schedule timer expiration retry).isActive other
      = (decide (other = timer) || q.isActive other) := by
  simp only [ExpirationQueue.isActive, ExpirationQueue.schedule, KeyMap.contains_put]

/-- The step of a shutdown starts T2-shutdown, and the guard on the side that closed
first. -/
theorem Closes.closed (holds : Closes due s) (now : Time) (key : AssociationKey) :
    Closes due (s.doNextShutdownStep now key) := by
  rcases doNextShutdownStep_cases s now key with ⟨same, -⟩ | ⟨a, s₁, found, -, kept, t2, next⟩
  · rw [same]
    exact holds
  -- The association that took the step is settled, and its T2 runs; the others are as they were.
  have drained : ∀ k b, s₁.find? k = some b → closes b.state = true → Drained b := by
    intro k b after is
    obtain ⟨a', before, related⟩ := kept.before after
    unfold At at related
    split at related
    · exact related.drained
    · have same : Lingers a' b := .of_essence related.essence
      exact same.drained is (holds.drained k a' before (same.closed is))
  have repeated : ∀ k b, s₁.find? k = some b → closes b.state = true →
      Awaited due s₁ (timerOf k .t2Shutdown) := by
    intro k b after is
    obtain ⟨a', before, related⟩ := kept.before after
    unfold At at related
    split at related
    · next here =>
      rw [here]
      exact Or.inl t2
    · have same : Lingers a' b := .of_essence related.essence
      exact (holds.repeated k a' before (same.closed is)).imp_left (kept.timers.t2 k)
  have guarded : ∀ k b, k ≠ key → s₁.find? k = some b → b.state = .shutdownSent →
      Awaited due s₁ (timerOf k .t5ShutdownGuard) := by
    intro k b apart after first
    obtain ⟨a', before, related⟩ := kept.before after
    rw [At, if_neg apart] at related
    refine (holds.guarded k a' before ((Lingers.of_essence related.essence).first first)).imp_left
      fun runs => ?_
    rw [ExpirationQueue.isActive, KeyMap.contains, kept.timers.active _ rfl]
    exact runs
  rcases next with ⟨-, same⟩ | ⟨state, same⟩
  · rw [same]
    refine ⟨drained, fun k b after is => ?_, fun k b after first => ?_⟩
    · refine (repeated k b after is).imp_left fun runs => ?_
      rw [Socket.scheduleExpiration, isActive_schedule, runs, Bool.or_true]
    · by_cases here : k = key
      · refine Or.inl ?_
        rw [here, Socket.scheduleExpiration, isActive_schedule, decide_eq_true rfl, Bool.true_or]
      · refine (guarded k b here after first).imp_left fun runs => ?_
        rw [Socket.scheduleExpiration, isActive_schedule, runs, Bool.or_true]
  · rw [same]
    refine ⟨drained, repeated, fun k b after first => guarded k b (fun here => ?_) after first⟩
    -- The side that answers goes to SHUTDOWN-ACK-SENT.
    rw [here] at after
    obtain ⟨a', before, related⟩ := kept.before after
    rw [found] at before
    cases before
    rw [At, if_pos rfl] at related
    rcases related.state with ⟨pending, -⟩ | ⟨-, ackSent⟩
    · rw [state] at pending
      cases pending
    · rw [ackSent] at first
      cases first

theorem Closes.sent (holds : Closes due s) (now : Time) (p : Pending) :
    Closes due (s.packetSent now p) := by
  have after := afterSend_packetSent s now p
  have same := steady_packetSent s now p
  constructor
  · intro k b found is
    obtain ⟨a, before, related⟩ := same.before found
    have here : Lingers a b := .of_essence related.essence
    exact here.drained is (holds.drained k a before (here.closed is))
  · intro k b found is
    obtain ⟨a, before, related⟩ := same.before found
    have here : Lingers a b := .of_essence related.essence
    exact (holds.repeated k a before (here.closed is)).imp_left (after.t2 k)
  · intro k b found first
    obtain ⟨a, before, related⟩ := same.before found
    have here : Lingers a b := .of_essence related.essence
    exact (holds.guarded k a before (here.first first)).imp_left (after.active _ rfl)

theorem Closes.move (holds : Closes due s) (move : Move s s') : Closes due s' := by
  cases move with
  | quiet quiet => exact holds.quiet quiet
  | shift key shifted => exact holds.keeping shifted fun _ _ _ => at_lingers fun _ _ => .of_shift
  | removed key removed => exact holds.removed removed
  | completed key a _ _ removed quiet =>
      exact ((holds.removed removed).quiet quiet).more (fun _ => rfl) fun _ => id
  | up key a found echoed =>
    have kept : Keeping (At key fun _ b => b.state = .established) s
        (s.updateAssociation key fun assoc => { assoc with state := .established }) :=
      .update _ (fun k a apart => at_of_ne apart a) fun a _ => at_self rfl
    refine holds.keeping kept fun _ _ _ => at_lingers fun _ b established => .of_transmits ?_
    rw [established]
    rfl
  | settled key isInit other =>
    refine ⟨holds.drained, fun k a found is => ?_, fun k a found first => ?_⟩
    · refine (holds.repeated k a found is).imp_left fun runs => ?_
      have apart : timerOf k .t2Shutdown ≠ timerOf key (openingTimer isInit) := by
        intro same
        have type := congrArg ExpirationKey.type same
        cases isInit <;> cases type
      simpa [ExpirationQueue.isActive, Socket.cancelExpiration, ExpirationQueue.cancel,
        KeyMap.contains, apart] using runs
    · refine (holds.guarded k a found first).imp_left fun runs => ?_
      have apart : timerOf k .t5ShutdownGuard ≠ timerOf key (openingTimer isInit) := by
        intro same
        have type := congrArg ExpirationKey.type same
        cases isInit <;> cases type
      simpa [ExpirationQueue.isActive, Socket.cancelExpiration, ExpirationQueue.cancel,
        KeyMap.contains, apart] using runs
  | dropped key isInit other => exact holds.more (fun _ => rfl) fun _ => id
  | closed key now closing =>
    exact (holds.keeping closing fun _ _ _ => at_lingers fun _ _ here =>
      .of_transmits here.after).closed now key
  | sent p now leaves => exact holds.sent now p

end Moves

/-! ## Expiry -/

/-- A timer that went off is done with once what waited for it is gone, or has it running. -/
theorem Closes.discharge {due : List ExpirationFallback} {s : Socket} {f : ExpirationFallback}
    (holds : Closes (f :: due) s) (repeated : ∀ k a, s.find? k = some a → closes a.state = true →
      f.key = timerOf k .t2Shutdown → s.expirations.isActive (timerOf k .t2Shutdown) = true)
    (guarded : ∀ k a, s.find? k = some a → f.key ≠ timerOf k .t5ShutdownGuard ∨ closes a.state
      = false) :
    Closes due s where
  drained := holds.drained
  repeated := by
    intro k a found is
    rcases holds.repeated k a found is with runs | ⟨g, member, timer⟩
    · exact Or.inl runs
    · rcases List.mem_cons.mp member with rfl | later
      · exact Or.inl (repeated k a found is timer)
      · exact Or.inr ⟨g, later, timer⟩
  guarded := by
    intro k a found first
    rcases holds.guarded k a found first with runs | ⟨g, member, timer⟩
    · exact Or.inl runs
    · rcases List.mem_cons.mp member with rfl | later
      · rcases guarded k a found with other | open_
        · exact absurd timer other
        · rw [first] at open_
          cases open_
      · exact Or.inr ⟨g, later, timer⟩

theorem ne_of_type {timer : ExpirationKey} {key : AssociationKey} {type : ExpirationTimerType}
    (other : timer.type ≠ type) :
    timer ≠ timerOf key type := by
  rintro rfl
  exact other rfl

theorem find?_setAssociation_self (s : Socket) (key : AssociationKey) (a : Association) :
    (s.setAssociation key a).find? key = some a :=
      (Socket.find?_setAssociation s key key a).trans (if_pos rfl)

theorem t2_restartT2 {s : Socket} {key : AssociationKey} {a : Association} (now : Time)
    (found : s.find? key = some a) :
    (s.restartT2 now key).expirations.isActive (timerOf key .t2Shutdown) = true := by
  unfold Socket.restartT2
  rw [found]
  exact (isActive_schedule _ _ _).trans (by rw [decide_eq_true rfl, Bool.true_or])

/-- T2-shutdown sends the packet again and starts anew, or the association is lost. -/
theorem Closes.t2 {due : List ExpirationFallback} {s : Socket} {f : ExpirationFallback} (now : Time)
    (holds : Closes (f :: due) s) (type : f.key.type = .t2Shutdown) :
    Closes due (s.handleT2Expiration now f.key.location) := by
  have other : ∀ k, f.key ≠ timerOf k .t5ShutdownGuard := fun k =>
    ne_of_type (by rw [type]; exact nofun)
  have mine : ∀ k, f.key = timerOf k .t2Shutdown → k = f.key.location := by
    intro k timer
    rw [timer]
    rfl
  unfold Socket.handleT2Expiration
  cases found : s.find? f.key.location with
  | none =>
    refine holds.discharge (fun k a here _ timer => ?_) fun k _ _ => Or.inl (other k)
    rw [mine k timer, found] at here
    cases here
  | some a =>
    simp only
    split
    · next open_ =>
      refine holds.discharge (fun k b here is timer => ?_) fun k _ _ => Or.inl (other k)
      rw [mine k timer, found] at here
      cases here
      rcases closes_iff.mp is with first | second
      · exact absurd first open_.1
      · exact absurd second open_.2
    · have counted : Quiet s (s.setAssociation f.key.location
        { a.modifyPath (dataPath a) doubleRto with
          errorCount := a.errorCount + 1 }) :=
        .set found ((Same.modifyPath a (dataPath a) (f := doubleRto) fun _ => rfl).trans ⟨rfl,
          rfl, rfl, Or.inl rfl⟩)
      split
      · have removed := removed_removeAssociation
          (s.setAssociation f.key.location { a.modifyPath (dataPath a) doubleRto with
          errorCount := a.errorCount + 1 }) f.key.location
        refine (((holds.quiet counted).removed removed).quiet
          (.notifyAssocChange _ f.key.location (show AssocChangeState.commLost ≠ .shutdownComp
            from nofun))).discharge
          (fun k b here _ timer => ?_) fun k _ _ => Or.inl (other k)
        have gone := here.symm.trans ((removed.find? k).trans (if_pos (mine k timer)))
        cases gone
      · refine ((holds.quiet counted).quiet
          (Quiet.trans (.enqueue _ _ _) (.restartT2 _ f.key.location now))).discharge
            (fun k b here _ timer => ?_) fun k _ _ => Or.inl (other k)
        rw [mine k timer]
        exact t2_restartT2 now (find?_setAssociation_self s f.key.location _)

/-- The guard ends the association. -/
theorem Closes.t5 {due : List ExpirationFallback} {s : Socket} {f : ExpirationFallback}
    (holds : Closes (f :: due) s) (type : f.key.type = .t5ShutdownGuard) :
    Closes due (s.handleT5Expiration f.key.location) := by
  have other : ∀ k, f.key ≠ timerOf k .t2Shutdown := fun k => ne_of_type (by rw [type]; exact nofun)
  have mine : ∀ k, f.key = timerOf k .t5ShutdownGuard → k = f.key.location := by
    intro k timer
    rw [timer]
    rfl
  unfold Socket.handleT5Expiration
  cases found : s.find? f.key.location with
  | none =>
    refine holds.discharge (fun k _ _ _ timer => absurd timer (other k)) fun k a here =>
      Or.inl fun timer => ?_
    rw [mine k timer, found] at here
    cases here
  | some a =>
    simp only
    split
    · next open_ =>
      refine holds.discharge (fun k _ _ _ timer => absurd timer (other k)) fun k b here => ?_
      by_cases timer : f.key = timerOf k .t5ShutdownGuard
      · rw [mine k timer, found] at here
        cases here
        refine Or.inr (Bool.eq_false_iff.mpr fun is => ?_)
        rcases closes_iff.mp is with first | second
        · exact open_.1 first
        · exact open_.2 second
      · exact Or.inl timer
    · have removed := removed_removeAssociation s f.key.location
      refine ((holds.removed removed).quiet
        (Quiet.trans (.enqueue _ _ _) (.notifyAssocChange _ f.key.location
          (show AssocChangeState.commLost ≠ .shutdownComp from nofun)))).discharge
        (fun k _ _ _ timer => absurd timer (other k)) fun k b here => Or.inl fun timer => ?_
      have gone := here.symm.trans ((removed.find? k).trans (if_pos (mine k timer)))
      cases gone

theorem Closes.fire {due : List ExpirationFallback} {s : Socket} {f : ExpirationFallback}
    (now : Time) (draws : Draws) (holds : Closes (f :: due) s) :
    Closes due (s.handleExpiration now draws f) := by
  have others : f.key.type ≠ .t2Shutdown → f.key.type ≠ .t5ShutdownGuard →
      Closes due (s.handleExpiration now draws f) := by
    intro t2 t5
    refine Acts.keeps (fun _ _ move holds => Closes.move holds move)
      (.handleExpiration s now draws f) ?_
    exact holds.discharge (fun k _ _ _ timer => absurd timer (ne_of_type t2)) fun k _ _ =>
      Or.inl (ne_of_type t5)
  cases type : f.key.type with
  | t2Shutdown =>
    simp only [Socket.handleExpiration, type]
    exact holds.t2 now type
  | t5ShutdownGuard =>
    simp only [Socket.handleExpiration, type]
    exact holds.t5 type
  | _ =>
    refine others ?_ ?_
    · rw [type]
      decide
    · rw [type]
      decide

/-- What holds once the heap is drained. -/
theorem Closes.off {s : Socket} (now : Time) (holds : Closes [] s) :
    Closes (s.expirations.drainExpired now).1
      { s with expirations := (s.expirations.drainExpired now).2 } := by
  obtain ⟨-, -, running⟩ := ExpirationQueue.drainExpiredFrom_spec now s.expirations.queue.length
    s.expirations
  have off : ∀ timer, Awaited [] s timer → Awaited (s.expirations.drainExpired now).1
      { s with expirations := (s.expirations.drainExpired now).2 } timer := by
    rintro timer (runs | ⟨f, member, -⟩)
    · exact running timer runs
    · cases member
  exact ⟨holds.drained, fun k a found is => off _ (holds.repeated k a found is),
    fun k a found first => off _ (holds.guarded k a found first)⟩

theorem Closes.expire {s : Socket} (now : Time) (draws : Nat → Draws) (holds : Closes [] s) :
    Closes [] (s.runExpire now draws) :=
  runExpire_fires (fun _ _ _ _ => Closes.fire now _) (holds.off now)

/-! ## The ways in -/

/-- One association is entered, and does not close; the others keep their timers. -/
theorem Closes.entered {due : List ExpirationFallback} {s s' : Socket} (key : AssociationKey)
    (holds : Closes due s) (found : ∀ k, k ≠ key → s'.find? k = s.find? k)
    (runs : ∀ timer, timer.location ≠ key → s'.expirations.active.get? timer
      = s.expirations.active.get? timer)
    (here : ∀ a, s'.find? key = some a → closes a.state = false) : Closes due s' := by
  have elsewhere : ∀ k a, s'.find? k = some a → closes a.state = true → s.find? k = some a
      ∧ ∀ type, Awaited due s (timerOf k type) → Awaited due s' (timerOf k type) := by
    intro k a after is
    have apart : k ≠ key := by
      rintro rfl
      rw [here a after] at is
      cases is
    refine ⟨(found k apart).symm.trans after, fun type awaited => awaited.imp_left fun active => ?_⟩
    rw [ExpirationQueue.isActive, KeyMap.contains, runs _ apart]
    exact active
  constructor
  · intro k a after is
    exact holds.drained k a (elsewhere k a after is).1 is
  · intro k a after is
    obtain ⟨before, kept⟩ := elsewhere k a after is
    exact kept _ (holds.repeated k a before is)
  · intro k a after first
    obtain ⟨before, kept⟩ := elsewhere k a after (closes_iff.mpr (Or.inl first))
    exact kept _ (holds.guarded k a before first)

theorem Closes.entry {s s₁ : Socket} {key : AssociationKey} {cookie : StateCookie}
    (holds : Closes [] s) (entry : CookieEntry s key cookie s₁) : Closes [] s₁ := by
  obtain ⟨others, -⟩ := entry.up
  cases entry with
  | created absent =>
    refine holds.entered key others (fun timer _ => ?_) fun a found => ?_
    · rw [(undisturbed_createdFrom s key cookie).expirations]
    · rw [find?_createdFrom, if_pos rfl] at found
      cases found
      rw [withPaths_only]
      rfl
  | restarted tcb found =>
    refine holds.entered key others (fun timer apart => ?_) fun a after => ?_
    · rw [(undisturbed_restartedFrom s key tcb cookie).expirations]
      exact ((TimersStopped.cancelAll key s.expirations).active timer).trans (if_neg apart)
    · rw [Socket.restartedFrom, find?_createdFrom, if_pos rfl] at after
      cases after
      rw [withPaths_only]
      rfl
  | collided tcb found =>
    -- A collision leaves an association that closes where it stands.
    have lasts : ∀ k b, (s.collidedWith key tcb cookie).find? k = some b → ∃ a, s.find? k = some a
        ∧ Lingers a b := by
      intro k b after
      rw [find?_collidedWith found] at after
      split at after
      · next here =>
        cases after
        refine ⟨tcb, here ▸ found, ?_⟩
        split
        · exact .of_transmits rfl
        · refine .of_essence_but ?_
          rw [Socket.collided, withPaths_only]
          exact ⟨rfl, rfl, rfl, rfl⟩
      · exact ⟨b, after, .of_essence rfl⟩
    have timers := (undisturbed_collidedWith s key tcb cookie).expirations
    have runs : ∀ timer, Awaited [] s timer → Awaited [] (s.collidedWith key tcb cookie) timer := by
      intro timer awaited
      unfold Awaited at awaited ⊢
      rw [timers]
      exact awaited
    constructor
    · intro k b after is
      obtain ⟨a, before, lingers⟩ := lasts k b after
      exact lingers.drained is (holds.drained k a before (lingers.closed is))
    · intro k b after is
      obtain ⟨a, before, lingers⟩ := lasts k b after
      exact runs _ (holds.repeated k a before (lingers.closed is))
    · intro k b after first
      obtain ⟨a, before, lingers⟩ := lasts k b after
      exact runs _ (holds.guarded k a before (lingers.first first))

theorem Closes.initAck {s : Socket} {key : AssociationKey} {a : Association} (holds : Closes [] s)
    (found : s.find? key = some a) (header : CommonHeader) (initAck : InitChunkValue)
    (src : SockAddr) (cookie : Bytes) :
    Closes [] (s.acceptInitAck header initAck key src cookie) := by
  obtain ⟨s₁, destination, errors, same, after, -, -, expirations, -⟩ :=
    acceptInitAck_eq found header initAck src cookie
  rw [same]
  refine holds.entered key (fun k apart => (after k).trans (if_neg apart)) (fun timer apart => ?_)
    fun b here => ?_
  · have other : timer ≠ timerOf key .t1Init := by
      rintro rfl
      exact apart rfl
    simp [Socket.reply, Socket.enqueuePacket, Socket.removeRetransmissionsOfType,
      Socket.cancelExpiration, ExpirationQueue.cancel, other, expirations]
  · have echoed := here.symm.trans ((after key).trans (if_pos rfl))
    cases echoed
    rfl

theorem Closes.retry {s : Socket} {key : AssociationKey} {a : Association} (holds : Closes [] s)
    (staleness : BitVec 32) :
    Closes [] (s.retryHandshake key a staleness) := by
  refine holds.entered key (fun k apart => ?_) (fun timer apart => ?_) fun b here => ?_
  · exact (Socket.find?_setAssociation s key k _).trans (if_neg apart)
  · have other : timer ≠ timerOf key .t1Cookie := by
      rintro rfl
      exact apart rfl
    simp [Socket.retryHandshake, Socket.setAssociation, Socket.enqueuePacket,
      Socket.removeRetransmissionsOfType, Socket.cancelExpiration, ExpirationQueue.cancel, other]
  · have before := (Socket.find?_setAssociation s key key _).symm.trans here
    rw [if_pos rfl] at before
    cases before
    rfl

theorem Closes.associate {s : Socket} (holds : Closes [] s) (draws : Draws) (toAddress : SockAddr)
    (port : Port) :
    Closes [] (s.sctpAssociate draws toAddress port).2 := by
  unfold Socket.sctpAssociate
  split
  · exact holds
  · simp only
    split
    · exact holds
    · next known =>
      have new : s.find? (peerKey toAddress port) = none :=
        unknown_of_new (Bool.eq_false_iff.mpr known)
      have found : ∀ k, (s.associations.emplace (peerKey toAddress port)
          (initNewAssociation draws toAddress)).get? k
          = if k = peerKey toAddress port then some (initNewAssociation draws toAddress)
            else s.find? k := by
        intro k
        rw [KeyMap.get?_emplace, show s.associations.get? (peerKey toAddress port) = none from new]
        rfl
      refine holds.entered (peerKey toAddress port) (fun k apart => (found k).trans (if_neg apart))
        (fun timer _ => rfl)
        fun b here => ?_
      have made := here.symm.trans ((found _).trans (if_pos rfl))
      cases made
      rfl

/-- A cookie that ends the handshake of an association in COOKIE-WAIT leaves the others. -/
theorem Closes.stuck {s : Socket} {key : AssociationKey} {a : Association} (holds : Closes [] s)
    (found : s.find? key = some a) (waits : a.state = .cookieWait) (header : CommonHeader)
    (destination : SockAddr) (cookie : StateCookie) :
    Closes [] (s.finishCookieEcho header key destination cookie) := by
  refine holds.entered key (fun k _ => rfl) (fun timer apart => ?_) fun b here => ?_
  · have init : timer ≠ timerOf key .t1Init := by
      rintro rfl
      exact apart rfl
    have echo : timer ≠ timerOf key .t1Cookie := by
      rintro rfl
      exact apart rfl
    simp [Socket.finishCookieEcho, Socket.sendCookieAck, Socket.reply, Socket.enqueuePacket,
      Socket.removeRetransmissionsOfType, Socket.cancelExpiration, ExpirationQueue.cancel, init,
      echo]
  · have same : some a = some b := found.symm.trans here
    cases same
    rw [waits]
    rfl

theorem Closes.step {σ σ' : System} {event : Event} (stepped : σ.step event = some σ')
    (holds : Closes [] σ.socket) :
    Closes [] σ'.socket := by
  refine System.step_moves (fun _ _ move holds => Closes.move holds move) stepped
    (fun now draws packet src _ => ?_) (fun now draws _ holds => holds.expire now draws)
    (fun draws toAddress port _ holds => holds.associate draws toAddress port) holds
  refine ⟨fun _ _ _ _ _ entry holds => holds.entry entry, ?_, ?_, ?_, ?_⟩
  · intro _ cookie _ destination _ _ found waits _ holds
    exact holds.stuck found waits packet.header destination cookie
  · intro _ _ _ _ _ initAck _ cookie _ _ found _ _ holds
    exact holds.initAck found packet.header initAck src cookie
  · intro _ _ _ _ _ _ _ staleness _ _ _ _ holds
    exact holds.retry staleness
  · intro _ _ _ _ _ _ _ _ _ _ taken holds
    exact holds.keeping taken fun _ _ _ related => .of_essence related.essence

/-- Every association that closes is drained and has its timers, in every state reached
under whatever proviso. -/
theorem System.Reached.closes {ok : System → Event → Prop} {σ : System}
    (reached : System.Reached ok σ) :
    Closes [] σ.socket := by
  refine reached.invariant (fun σ => Closes [] σ.socket) ?_ fun σ event σ' holds _ stepped =>
    Closes.step stepped holds
  rintro σ ⟨address, rfl⟩
  refine ⟨fun key a found => ?_, fun key a found => ?_, fun key a found => ?_⟩
  · cases found
  · cases found
  · cases found

/-- In every reachable state, an association in SHUTDOWN-SENT or SHUTDOWN-ACK-SENT has
nothing left to send and nothing unacknowledged, and T2-shutdown runs; in SHUTDOWN-SENT
the guard runs too. -/
theorem shutdown_drained_and_timed {σ : System} (reached : System.Reached (fun _ _ => True) σ)
    {key : AssociationKey} {a : Association} (found : σ.socket.find? key = some a) :
    (a.state = .shutdownSent ∨ a.state = .shutdownAckSent → Drained a
      ∧ σ.socket.expirations.isActive (timerOf key .t2Shutdown) = true)
    ∧ (a.state = .shutdownSent → σ.socket.expirations.isActive (timerOf key .t5ShutdownGuard)
      = true) := by
  have holds := reached.closes
  have runs : ∀ {timer}, Awaited [] σ.socket timer → σ.socket.expirations.isActive timer
      = true := by
    rintro timer (active | ⟨f, member, -⟩)
    · exact active
    · cases member
  refine ⟨fun closing => ?_, fun first => runs (holds.guarded key a found first)⟩
  have is := closes_iff.mpr closing
  exact ⟨holds.drained key a found is, runs (holds.repeated key a found is)⟩

/-- A message goes out, the ULP closes, the message is acknowledged and SHUTDOWN follows. -/
theorem message_then_shutdown_timed :
    ∃ σ a, System.Reached (fun _ _ => True) σ ∧ σ.socket.find? Opened.key = some a
    ∧ a.state = .shutdownSent ∧ Drained a
    ∧ σ.socket.expirations.isActive (timerOf Opened.key .t2Shutdown) = true
    ∧ σ.socket.expirations.isActive (timerOf Opened.key .t5ShutdownGuard) = true := by
  obtain ⟨σ, reached, ends⟩ := Opened.exists_reached
    ([.sendData Opened.key [1#8, 2#8] 0#16 false] ++ Opened.batch 1 ++ [.shutdown 0 Opened.key,
      Opened.arrives [⟨0#8, .sack ⟨10#32, 65535#32, 0#16, 0#16, [], []⟩⟩]])
    (p := fun σ => (σ.socket.find? Opened.key).any fun a => a.state == .shutdownSent)
      (by decide +kernel)
  obtain ⟨a, found, state⟩ := (Option.any_eq_true _ _).mp ends
  have first : a.state = .shutdownSent := beq_iff_eq.mp state
  obtain ⟨closing, guard⟩ := shutdown_drained_and_timed reached found
  obtain ⟨drained, repeated⟩ := closing (Or.inl first)
  exact ⟨σ, a, reached, found, first, drained, repeated, guard first⟩

end SctpStack
