import SctpStack.InitEffects
import SctpStack.Works

/-!
# Isolation between associations

Queues, timers and the address index are shared by all associations. A received datagram
changes them for one association at most (`handleRecvPacket_isolated`): what is there for
the others stays as it was, and whatever is new is for that one.
-/

namespace SctpStack

/-- Only what belongs to the association under `key` changed. -/
structure Isolated (key : AssociationKey) (s s' : Socket) : Prop where
  tcbs : ∀ k, k ≠ key → s'.find? k = s.find? k
  index : ∀ peer owner, owner ≠ key →
    (s'.peerAddresses.get? peer = some owner ↔ s.peerAddresses.get? peer = some owner)
  received : ∀ k, k ≠ key → s'.receives.pending.get? k = s.receives.pending.get? k
  readable : s'.receives.ready.filter (fun k => decide (k ≠ key)) = s.receives.ready.filter fun k =>
    decide (k ≠ key)
  timers : ∀ timer, timer.location ≠ key → s'.expirations.active.get? timer
    = s.expirations.active.get? timer
  heap : s'.expirations.queue.filter (fun f => decide (f.key.location ≠ key))
    = s.expirations.queue.filter fun f => decide (f.key.location ≠ key)
  control : s'.sends.control.filter (fun e => decide (e.deliverable.location ≠ key))
    = s.sends.control.filter fun e => decide (e.deliverable.location ≠ key)
  retransmission : s'.sends.retransmission.filter (fun e => decide (e.deliverable.location ≠ key))
    = s.sends.retransmission.filter fun e => decide (e.deliverable.location ≠ key)
  newData : s'.sends.newData.filter (fun e => decide (e.deliverable.location ≠ key))
    = s.sends.newData.filter fun e => decide (e.deliverable.location ≠ key)
  notified : ∃ more, s'.notifications.queue = s.notifications.queue ++ more ∧ ∀ n ∈ more, n.src
    = key

namespace Isolated

variable {key : AssociationKey} {s s' s'' : Socket}

/-- Nothing was told. -/
theorem untold (key : AssociationKey) (queue : List Notification) :
    ∃ more, queue = queue ++ more ∧ ∀ n ∈ more, n.src = key :=
  ⟨[], (List.append_nil _).symm, nofun⟩

theorem refl (key : AssociationKey) (s : Socket) : Isolated key s s :=
  ⟨fun _ _ => rfl, fun _ _ _ => Iff.rfl, fun _ _ => rfl, rfl, fun _ _ => rfl, rfl, rfl, rfl, rfl,
    untold key _⟩

theorem trans (first : Isolated key s s') (second : Isolated key s' s'') : Isolated key s s'' where
  tcbs := fun k apart => (second.tcbs k apart).trans (first.tcbs k apart)
  index := fun peer owner apart =>
    (second.index peer owner apart).trans (first.index peer owner apart)
  received := fun k apart => (second.received k apart).trans (first.received k apart)
  readable := second.readable.trans first.readable
  timers := fun timer apart => (second.timers timer apart).trans (first.timers timer apart)
  heap := second.heap.trans first.heap
  control := second.control.trans first.control
  retransmission := second.retransmission.trans first.retransmission
  newData := second.newData.trans first.newData
  notified := by
    obtain ⟨more, queue, here⟩ := first.notified
    obtain ⟨more', queue', here'⟩ := second.notified
    refine ⟨more ++ more', by rw [queue', queue, List.append_assoc], fun n member => ?_⟩
    rcases List.mem_append.mp member with early | late
    · exact here n early
    · exact here' n late

/-- What was not queued before is for the key. -/
theorem of_new {α : Type} {l l' : List α} {location : α → AssociationKey}
    (same : l'.filter (fun x => decide (location x ≠ key)) = l.filter fun x =>
      decide (location x ≠ key)) {x : α}
    (member : x ∈ l') (new : x ∉ l) : location x = key := by
  by_contra apart
  have kept : x ∈ l'.filter fun x => decide (location x ≠ key) :=
    List.mem_filter.mpr ⟨member, decide_eq_true apart⟩
  rw [same] at kept
  exact new (List.mem_of_mem_filter kept)

/-- Nothing but the associations, and only the one under `key`. -/
theorem of_tcb (tcbs : ∀ k, k ≠ key → s'.find? k = s.find? k)
    (peerAddresses : s'.peerAddresses = s.peerAddresses) (receives : s'.receives = s.receives)
    (expirations : s'.expirations = s.expirations) (sends : s'.sends = s.sends)
    (notified : ∃ more, s'.notifications.queue = s.notifications.queue ++ more ∧ ∀ n ∈ more, n.src
      = key) :
    Isolated key s s' where
  tcbs := tcbs
  index := by
    rw [peerAddresses]
    exact fun _ _ _ => Iff.rfl
  received := by
    rw [receives]
    exact fun _ _ => rfl
  readable := by rw [receives]
  timers := by
    rw [expirations]
    exact fun _ _ => rfl
  heap := by rw [expirations]
  control := by rw [sends]
  retransmission := by rw [sends]
  newData := by rw [sends]
  notified := notified

theorem notified_enqueue (q : NotificationQueue) (key : AssociationKey)
    (payload : NotificationPayload) :
    ∃ more, (q.enqueue key payload).queue = q.queue ++ more ∧ ∀ n ∈ more, n.src = key := by
  unfold NotificationQueue.enqueue
  split
  · exact untold key _
  · split
    · exact untold key _
    · exact ⟨_, rfl, fun n member => by rw [List.mem_singleton.mp member]⟩

theorem notify (key : AssociationKey) (s : Socket) (payload : NotificationPayload) :
    Isolated key s (s.notify key payload) :=
  of_tcb (fun _ _ => rfl) rfl rfl rfl rfl (notified_enqueue _ key payload)

theorem notes (key : AssociationKey) (notes : List NotificationPayload) (s : Socket) :
    Isolated key s (notes.foldl (fun s note => s.notify key note) s) := by
  induction notes generalizing s with
  | nil => exact refl key s
  | cons note rest ih => exact (notify key s note).trans (ih _)

theorem set (key : AssociationKey) (s : Socket) (a : Association) :
    Isolated key s (s.setAssociation key a) :=
  of_tcb (fun k apart => by simp [apart]) rfl rfl rfl rfl (untold key _)

theorem erase (key : AssociationKey) (s : Socket) : Isolated key s (s.eraseAssociation key) :=
  of_tcb (fun k apart => by simp [apart]) rfl rfl rfl rfl (untold key _)

/-! ## The receive queue -/

/-- Only what the key has received changed. -/
structure Receives (key : AssociationKey) (q q' : ReceiveQueue) : Prop where
  received : ∀ k, k ≠ key → q'.pending.get? k = q.pending.get? k
  readable : q'.ready.filter (fun k => decide (k ≠ key)) = q.ready.filter fun k => decide (k ≠ key)

theorem of_receives {q : ReceiveQueue} (receives : Receives key s.receives q) :
    Isolated key s { s with receives := q } :=
  ⟨fun _ _ => rfl, fun _ _ _ => Iff.rfl, receives.received, receives.readable, fun _ _ => rfl,
    rfl, rfl, rfl, rfl, untold key _⟩

theorem Receives.trans {q q' q'' : ReceiveQueue} (first : Receives key q q')
    (second : Receives key q' q'') :
    Receives key q q'' :=
  ⟨fun k apart => (second.received k apart).trans (first.received k apart),
    second.readable.trans first.readable⟩

theorem Receives.push (q : ReceiveQueue) (key : AssociationKey) (bytes : Bytes) (complete : Bool)
    (stream : StreamId) :
    Receives key q (q.push key bytes complete stream) := by
  refine ⟨fun k apart => by simp [ReceiveQueue.push, apart], ?_⟩
  unfold ReceiveQueue.push
  simp only
  split
  · rw [List.filter_append, List.filter_cons_of_neg (by simp), List.filter_nil, List.append_nil]
  · rfl

theorem Receives.pushes (key : AssociationKey) (delivered : List Delivery) (q : ReceiveQueue) :
    Receives key q (delivered.foldl (fun q d => q.push key d.bytes d.complete d.stream) q) := by
  induction delivered generalizing q with
  | nil => exact ⟨fun _ _ => rfl, rfl⟩
  | cons d rest ih => exact (Receives.push q key d.bytes d.complete d.stream).trans (ih _)

theorem filter_erase (key : AssociationKey) (l : List AssociationKey) :
    (l.erase key).filter (fun k => decide (k ≠ key)) = l.filter fun k => decide (k ≠ key) := by
  induction l with
  | nil => rfl
  | cons k rest ih =>
    rw [List.erase_cons]
    split
    · next here => rw [List.filter_cons_of_neg (by simp [beq_iff_eq.mp here])]
    · rw [List.filter_cons, List.filter_cons, ih]

theorem Receives.abandonOpen (q : ReceiveQueue) (key : AssociationKey) :
    Receives key q (q.abandonOpen key) := by
  unfold ReceiveQueue.abandonOpen
  split
  · exact ⟨fun _ _ => rfl, rfl⟩
  · split
    · exact ⟨fun _ _ => rfl, rfl⟩
    · split
      · exact ⟨fun _ _ => rfl, rfl⟩
      · simp only
        split
        · exact ⟨fun k apart => by simp [apart], filter_erase key q.ready⟩
        · exact ⟨fun k apart => by simp [apart], rfl⟩

theorem Receives.detach (q : ReceiveQueue) (key : AssociationKey) : Receives key q (q.detach key) :=
  ⟨fun k apart => by simp [ReceiveQueue.detach, apart], rfl⟩

/-! ## Ends -/

theorem forget (key : AssociationKey) (s : Socket) :
    Isolated key s (s.forgetPeerAddresses key) := by
  refine ⟨fun _ _ => rfl, fun peer owner apart => ?_, fun _ _ => rfl, rfl, fun _ _ => rfl, rfl,
    rfl, rfl, rfl, untold key _⟩
  rw [show (s.forgetPeerAddresses key).peerAddresses.get? peer = _ from KeyMap.get?_filterMap _ _ _]
  cases s.peerAddresses.get? peer with
  | none => exact Iff.rfl
  | some owner' =>
    simp only [Option.bind_some]
    split
    · next here =>
      constructor
      · intro none
        cases none
      · intro same
        exact absurd ((Option.some.inj same).symm.trans here) apart
    · exact Iff.rfl

theorem cancelAll (key : AssociationKey) (s : Socket) :
    Isolated key s (s.cancelExpirations key) := by
  refine ⟨fun _ _ => rfl, fun _ _ _ => Iff.rfl, fun _ _ => rfl, rfl, fun timer apart => ?_, rfl,
    rfl, rfl, rfl, untold key _⟩
  show (s.expirations.cancelAll key).active.get? timer = s.expirations.active.get? timer
  rw [ExpirationQueue.cancelAll, KeyMap.get?_filterMap]
  cases s.expirations.active.get? timer with
  | none => rfl
  | some generation => simp [apart]

theorem purge (key : AssociationKey) (s : Socket) : Isolated key s (s.purgeSends key) :=
  ⟨fun _ _ => rfl, fun _ _ _ => Iff.rfl, fun _ _ => rfl, rfl, fun _ _ => rfl, rfl,
    by simp [Socket.purgeSends, SendQueue.purge], by simp [Socket.purgeSends, SendQueue.purge],
    by simp [Socket.purgeSends, SendQueue.purge], untold key _⟩

theorem abandon (key : AssociationKey) (s : Socket) (a : Association) :
    Isolated key s (s.abandonPartialDelivery key a) := by
  unfold Socket.abandonPartialDelivery
  split
  · exact refl key s
  · exact (of_receives (Receives.abandonOpen s.receives key)).trans (notify key _ _)

theorem detach (key : AssociationKey) (s : Socket) : Isolated key s (s.detachReceives key) :=
  of_receives (Receives.detach s.receives key)

theorem remove (key : AssociationKey) (s : Socket) : Isolated key s (s.removeAssociation key) := by
  have rest : ∀ s : Socket, Isolated key s
      ((((s.detachReceives key).forgetPeerAddresses key).cancelExpirations key).purgeSends key) :=
        fun s =>
    (((detach key s).trans (forget key _)).trans (cancelAll key _)).trans (purge key _)
  unfold Socket.removeAssociation
  cases s.find? key with
  | none => exact rest s
  | some a => exact ((abandon key s a).trans (erase key _)).trans (rest _)

theorem tearDown (key : AssociationKey) (s : Socket) : Isolated key s (s.tearDown key) :=
  (((erase key s).trans (forget key _)).trans (cancelAll key _)).trans (purge key _)

theorem cleared (key : AssociationKey) (s : Socket) (a : Association) :
    Isolated key s (s.clearedFor key a) :=
  ((((cancelAll key s).trans (purge key _)).trans (forget key _)).trans (abandon key _ a)).trans
    (detach key _)

/-! ## Queues and timers -/

theorem enqueue {d : Deliverable} (location : d.location = key) (priority : SendPriority) :
    Isolated key s (s.enqueuePacket d priority) := by
  have new : ∀ queue : List Queued, (queue ++ [(⟨s.sends.nextId, d⟩ : Queued)]).filter (fun e =>
      decide (e.deliverable.location ≠ key))
      = queue.filter fun e => decide (e.deliverable.location ≠ key) := by
    intro queue
    rw [List.filter_append, List.filter_cons_of_neg (by simp [location]), List.filter_nil,
      List.append_nil]
  refine ⟨fun _ _ => rfl, fun _ _ _ => Iff.rfl, fun _ _ => rfl, rfl, fun _ _ => rfl, rfl, ?_, ?_,
    ?_, untold key _⟩
  all_goals
    unfold Socket.enqueuePacket SendQueue.enqueue
    cases priority <;> simp only
  · split
    · rfl
    · exact new _
  · split <;> rfl
  · exact new _
  · split <;> rfl
  · exact new _

theorem schedule {timer : ExpirationKey} (location : timer.location = key) (expiration : Time)
    (retry : Deliverable) :
    Isolated key s (s.scheduleExpiration timer expiration retry) := by
  refine ⟨fun _ _ => rfl, fun _ _ _ => Iff.rfl, fun _ _ => rfl, rfl, fun other apart => ?_, ?_,
    rfl, rfl, rfl, untold key _⟩
  · have differs : other ≠ timer := by
      rintro rfl
      exact apart location
    simp [Socket.scheduleExpiration, ExpirationQueue.schedule, differs]
  · simp [Socket.scheduleExpiration, ExpirationQueue.schedule, location]

/-- Chunks are only dropped from the packets of the key; a packet of another has chunks, so
it stays. -/
theorem drop {sel : Queued → Bool} {what : Queued → Chunk → Bool}
    (chosen : ∀ e, sel e = true → e.deliverable.location = key)
    (nonempty : ∀ e ∈ s.sends.retransmission, e.deliverable.packet.chunks ≠ []) :
    Isolated key s { s with sends := { s.sends
      with retransmission := dropChunks sel what s.sends.retransmission } } := by
  refine ⟨fun _ _ => rfl, fun _ _ _ => Iff.rfl, fun _ _ => rfl, rfl, fun _ _ => rfl, rfl, rfl,
    ?_, rfl, untold key _⟩
  simp only
  unfold dropChunks
  generalize s.sends.retransmission = queue at nonempty
  induction queue with
  | nil => rfl
  | cons e rest ih =>
    obtain ⟨head, tail⟩ := List.forall_mem_cons.mp nonempty
    by_cases here : e.deliverable.location = key
    · have gone : (e :: rest).filter (fun e => decide (e.deliverable.location ≠ key))
          = rest.filter fun e => decide (e.deliverable.location ≠ key) :=
            List.filter_cons_of_neg (by simp [here])
      rw [gone, ← ih tail, List.filterMap_cons]
      split
      · rfl
      · next e' made =>
        have location : e'.deliverable.location = e.deliverable.location := by
          simp only at made
          generalize (if sel e = true then _ else _ : List Chunk) = chunks at made
          split at made
          · cases made
          · cases made
            rfl
        rw [List.filter_cons_of_neg (by simp [location, here])]
    · have other : sel e = false := by
        cases is : sel e with
        | false => rfl
        | true => exact absurd (chosen e is) here
      have stays : (e :: rest).filter (fun e => decide (e.deliverable.location ≠ key))
          = e :: rest.filter fun e => decide (e.deliverable.location ≠ key) :=
            List.filter_cons_of_pos (by simp [here])
      rw [stays, ← ih tail, List.filterMap_cons]
      simp only [other, Bool.false_eq_true, if_false, List.isEmpty_iff, head]
      rw [List.filter_cons_of_pos (by simp [here])]

end Isolated

variable {heard : Evidence → Prop} {key : AssociationKey} {s s' : Socket}

/-- A deed for one association leaves the others alone. -/
theorem Deed.isolated (deed : Deed heard key s s') (standing : Standing s) : Isolated key s s' := by
  cases deed with
  | update => exact .set key s _
  | tie => exact .set key s _
  | credit notes => exact (Isolated.set key s _).trans (.notes key notes _)
  | up => exact (Isolated.set key s _).trans (.notify key _ _)
  | created => exact (Isolated.set key s _).trans (.notify key _ _)
  | restarted => exact ((Isolated.cleared key s _).trans (.set key _ _)).trans (.notify key _ _)
  | collided => exact (Isolated.abandon key s _).trans (.set key _ _)
  | ended => exact (Isolated.remove key s).trans (.notify key _ _)
  | violated => exact ((Isolated.set key s _).trans (.remove key _)).trans (.notify key _ _)
  | gaveUp => exact (Isolated.tearDown key s).trans (.notify key _ _)
  | deliver delivered => exact (Isolated.set key s _).trans (.of_receives (.pushes key delivered _))
  | enqueue d priority fit => exact .enqueue fit.location priority
  | schedule timer expiration retry location => exact .schedule location expiration retry
  | stop q queue next active =>
    refine ⟨fun _ _ => rfl, fun _ _ _ => Iff.rfl, fun _ _ => rfl, rfl, fun timer apart => ?_, ?_,
      rfl, rfl, rfl, Isolated.untold key _⟩
    · exact (active timer).resolve_right fun here => apart here.1
    · simp only [queue]
  | drop sel what chosen =>
    refine .drop chosen fun e member => standing.nonempty e ?_
    simp only [SendQueue.queued, List.mem_append]
    exact Or.inr (Or.inl member)
  | note payload => exact .notify key s payload
  | list peer =>
    refine ⟨fun _ _ => rfl, fun peer' owner apart => ?_, fun _ _ => rfl, rfl, fun _ _ => rfl, rfl,
      rfl, rfl, rfl, Isolated.untold key _⟩
    simp only [KeyMap.get?_emplace]
    split
    · next here =>
      rw [here]
      cases s.peerAddresses.get? peer with
      | none => exact ⟨fun same => absurd (Option.some.inj same).symm apart, fun none =>
          absurd none.symm (Option.some_ne_none _)⟩
      | some owner' => exact Iff.rfl
    · exact Iff.rfl
  | mint => exact .of_tcb (fun _ _ => rfl) rfl rfl rfl rfl (Isolated.untold key _)

theorem Deeds.isolated (deeds : Deeds heard key s s') (standing : Standing s) :
    Isolated key s s' := by
  induction deeds with
  | refl => exact .refl key s
  | tail before deed ih => exact ih.trans (deed.isolated (Deeds.standing before standing))

/-- A datagram changes one association at most, the one its packet is handled for; one
that does not decode changes nothing. -/
theorem handleRecvPacket_isolated {σ : System} (reached : System.Reached (fun _ _ => True) σ)
    (now : Time) (draws : Nat → Draws) (data : Bytes) (src : SockAddr) :
    match decodePacket data with
    | none => σ.socket.handleRecvPacket now draws data src = σ.socket
    | some packet =>
      Isolated (σ.socket.resolvedKey now packet src) σ.socket
        (σ.socket.handleRecvPacket now draws data src) := by
  cases decoded : decodePacket data with
  | none => simp only [Socket.handleRecvPacket, decoded]
  | some packet =>
    simp only [Socket.handleRecvPacket, decoded]
    have deeds : Deeds (fun _ => True) _ σ.socket _ :=
      (Deeds.handlePacket σ.socket now draws packet src (.all ..)).deeds of_unechoed
    exact deeds.isolated reached.standing

/-- An INIT from the one peer, with an association to another being opened. -/
theorem peerInit_isolated : ∃ σ data, System.Reached (fun _ _ => True) σ
    ∧ (σ.socket.find? Opened.key).isSome = true
    ∧ (σ.socket.find? (peerKey ⟨0x0A000003#32, 5000#16⟩ 5000#16)).isSome = true
    ∧ decodePacket data = some peerInit
    ∧ Isolated (σ.socket.resolvedKey 0 peerInit Opened.peer) σ.socket
        (σ.socket.handleRecvPacket 0 (fun _ => Opened.draws) data Opened.peer) := by
  obtain ⟨σ, reached, ends⟩ := Opened.exists_reached
    [.associate Opened.draws ⟨0x0A000003#32, 5000#16⟩ 5000#16]
    (p := fun σ => (σ.socket.find? Opened.key).isSome
      && (σ.socket.find? (peerKey ⟨0x0A000003#32, 5000#16⟩ 5000#16)).isSome) (by decide +kernel)
  obtain ⟨open', opening⟩ := Bool.and_eq_true_iff.mp ends
  obtain ⟨data, decoded⟩ := peerInit_decodes
  have isolated := handleRecvPacket_isolated reached 0 (fun _ => Opened.draws) data Opened.peer
  rw [decoded] at isolated
  exact ⟨σ, data, reached, open', opening, decoded, isolated⟩

end SctpStack
