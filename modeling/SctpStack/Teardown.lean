import SctpStack.Inbox
import SctpStack.Isolation

/-!
# The end of an association

However an association ends, nothing is kept for it but the messages it delivered whole,
and those count for nobody (`teardown_leaves_nothing`). DATA that violates the protocol
is the exception: what it did to a partial delivery before the violation is done, while
what it delivered is dropped.
-/

namespace SctpStack

variable {heard : Evidence → Prop} {key : AssociationKey} {s s' : Socket}

/-! ## What a removal does -/

def isPartialDelivery : NotificationPayload → Bool
  | .partialDeliveryEvent _ _ => true
  | _ => false

/-- Nothing is kept for the association that was under a key: only its whole messages
wait, for nobody, and of the one that was part way through the ULP is told once. -/
structure Vacated (key : AssociationKey) (a : Association) (s s' : Socket) : Prop where
  index : ∀ peer, s'.peerAddresses.get? peer ≠ some key
  timers : ∀ timer, timer.location = key → s'.expirations.isActive timer = false
  sends : ∀ e ∈ s'.sends.queued, e.deliverable.location ≠ key
  messages : s'.receives.waiting key = (s.receives.waiting key).filter ReceivedMessage.complete
  counted : s'.receives.bufferedBytes key = 0
  told : ∃ notes : List NotificationPayload,
    s'.notifications = notes.foldl (fun q note => q.enqueue key note) s.notifications
      ∧ notes.countP isPartialDelivery = if partialDeliveryOpen a then 1 else 0

section Removal

theorem receives_abandonPartialDelivery (s : Socket) (key : AssociationKey) (a : Association) :
    (s.abandonPartialDelivery key a).receives = if partialDeliveryOpen a then s.receives.abandonOpen
      key else s.receives := by
  unfold Socket.abandonPartialDelivery partialDeliveryOpen
  cases a.reassembly.isOpen <;> cases a.reassembly.partiallyDelivered <;> rfl

/-- The notes of a partial delivery that is abandoned. -/
def abandonNotes (a : Association) : List NotificationPayload :=
  if partialDeliveryOpen a then [.partialDeliveryEvent a.reassembly.stream a.reassembly.ssn] else []

theorem notifications_abandonPartialDelivery (s : Socket) (key : AssociationKey) (a : Association) :
    (s.abandonPartialDelivery key a).notifications
      = (abandonNotes a).foldl (fun q note => q.enqueue key note) s.notifications := by
  unfold Socket.abandonPartialDelivery abandonNotes partialDeliveryOpen
  cases a.reassembly.isOpen <;> cases a.reassembly.partiallyDelivered <;> rfl

theorem countP_abandonNotes (a : Association) :
    (abandonNotes a).countP isPartialDelivery = if partialDeliveryOpen a then 1 else 0 := by
  unfold abandonNotes
  split <;> rfl

/-- The queue after the unfinished message of an association is dropped, if there is one. -/
structure Dropped (key : AssociationKey) (q q' : ReceiveQueue) : Prop where
  shrinks : ReceiveQueue.Shrinks q q'
  fewer : ∀ k, q'.bufferedBytes k ≤ q.bufferedBytes k
  messages : q'.waiting key = (q.waiting key).filter ReceivedMessage.complete

theorem Dropped.detach {q q' : ReceiveQueue} (dropped : Dropped key q q') :
    Dropped key q (q'.detach key) where
  shrinks := by
    have later := ReceiveQueue.shrinks_detach dropped.shrinks.sane key
    exact ⟨later.sane, fun k is => dropped.shrinks.unfinished k (later.unfinished k is)⟩
  fewer k := Nat.le_trans (q'.bufferedBytes_detach_le key k) (dropped.fewer k)
  messages := by
    rw [ReceiveQueue.waiting_detach]
    exact dropped.messages

/-- What is abandoned is what the last message waits for. -/
theorem Inbox.abandoned {a b : Association} (inbox : Inbox s) (found : s.find? key = some a)
    (same : partialDeliveryOpen b = partialDeliveryOpen a) :
    Dropped key s.receives (if partialDeliveryOpen b then s.receives.abandonOpen key
      else s.receives) := by
  split
  · obtain ⟨sane, messages⟩ := inbox.queue.abandonOpen key
    refine ⟨.of_entry key sane (fun k => s.receives.get?_abandonOpen_other) fun p here is => ?_,
      fun k =>
      s.receives.bufferedBytes_abandonOpen_le key k, messages⟩
    rw [← ReceiveQueue.waiting_of_get? here, messages, ReceiveQueue.unfinished_filter] at is
    cases is
  · next closed =>
    rw [Bool.not_eq_true, same] at closed
    have finished : unfinished (s.receives.waiting key) = false := by
      refine inbox.finished fun a' found' => ?_
      rw [found] at found'
      cases found'
      exact closed
    exact ⟨.refl inbox.queue, fun _ => Nat.le_refl _, (inbox.queue.filter_complete finished).symm⟩

theorem index_of_cleared (cleared : Cleared s s' key) (peer : AssociationKey) :
    s'.peerAddresses.get? peer ≠ some key := by
  intro here
  rw [cleared.peerAddresses] at here
  exact (find?_forgetPeerAddresses here).1 rfl

theorem timers_of_cleared (cleared : Cleared s s' key) {timer : ExpirationKey}
    (location : timer.location = key) :
    s'.expirations.isActive timer = false := by
  rw [cleared.expirations, ExpirationQueue.isActive, KeyMap.contains_eq_false]
  cases here : (s.expirations.cancelAll key).active.get? timer with
  | none => rfl
  | some generation => exact absurd location (active_cancelAll here).1

theorem sends_of_cleared (cleared : Cleared s s' key) {e : Queued} (member : e ∈ s'.sends.queued) :
    e.deliverable.location ≠ key := by
  rw [cleared.sends] at member
  exact (mem_purge member).2

theorem receives_removeAssociation {a : Association} (found : s.find? key = some a) :
    (s.removeAssociation key).receives
      = (if partialDeliveryOpen a then s.receives.abandonOpen key else s.receives).detach key := by
  unfold Socket.removeAssociation
  rw [found, ← receives_abandonPartialDelivery]
  rfl

theorem notifications_removeAssociation {a : Association} (found : s.find? key = some a) :
    (s.removeAssociation key).notifications
      = (abandonNotes a).foldl (fun q note => q.enqueue key note) s.notifications := by
  unfold Socket.removeAssociation
  rw [found, ← notifications_abandonPartialDelivery]
  rfl

theorem receives_clearedFor (s : Socket) (key : AssociationKey) (a : Association) :
    (s.clearedFor key a).receives
    = (if partialDeliveryOpen a then s.receives.abandonOpen key else s.receives).detach key := by
  unfold Socket.clearedFor
  exact congrArg (fun q : ReceiveQueue => q.detach key) (receives_abandonPartialDelivery _ key a)

/-- A restart leaves nothing of the association before it. -/
theorem vacated_clearedFor {a : Association} (inbox : Inbox s) (found : s.find? key = some a) :
    Vacated key a s (s.clearedFor key a) where
  index := index_of_cleared (cleared_clearedFor s key a)
  timers _ := timers_of_cleared (cleared_clearedFor s key a)
  sends _ := sends_of_cleared (cleared_clearedFor s key a)
  messages := by
    rw [receives_clearedFor]
    exact (inbox.abandoned found rfl).detach.messages
  counted := by
    rw [receives_clearedFor]
    exact ReceiveQueue.bufferedBytes_detach _ _
  told := ⟨abandonNotes a, notifications_abandonPartialDelivery _ key a, countP_abandonNotes a⟩

/-- `remove_association` leaves nothing of an association, as long as its TCB still says
whether a message was part way through. -/
theorem vacated_removeAssociation {a b : Association} (inbox : Inbox s)
    (found : s.find? key = some a) (s₀ : Socket) (receives : s₀.receives = s.receives)
    (notifications : s₀.notifications = s.notifications) (after : s₀.find? key = some b)
    (same : partialDeliveryOpen b = partialDeliveryOpen a) :
    Vacated key a s (s₀.removeAssociation key) := by
  have cleared := cleared_removeAssociation s₀ key
  refine ⟨index_of_cleared cleared, fun _ => timers_of_cleared cleared, fun _ =>
    sends_of_cleared cleared, ?_, ?_, abandonNotes b, ?_, by rw [countP_abandonNotes, same]⟩
  · rw [receives_removeAssociation after, receives]
    exact (inbox.abandoned found same).detach.messages
  · rw [receives_removeAssociation after]
    exact ReceiveQueue.bufferedBytes_detach _ _
  · rw [notifications_removeAssociation after, notifications]

/-- Before an association is up there is nothing to abandon. -/
theorem vacated_tearDown {a : Association} (inbox : Inbox s) (found : s.find? key = some a)
    (forms : forming a.state = true) :
    Vacated key a s (s.tearDown key) := by
  have closed : partialDeliveryOpen a = false := by
    rw [partialDeliveryOpen, ((inbox.tidy key a found).unborn forms).2.1]
    rfl
  have cleared := cleared_tearDown s key
  have finished : unfinished (s.receives.waiting key) = false := by
    refine inbox.finished fun a' found' => ?_
    rw [found] at found'
    cases found'
    exact closed
  refine ⟨index_of_cleared cleared, fun _ => timers_of_cleared cleared, fun _ =>
    sends_of_cleared cleared, ?_, ?_, [], rfl, by rw [closed]; rfl⟩
  · exact (inbox.queue.filter_complete finished).symm
  · refine inbox.counted key fun a' found' => ?_
    rw [found] at found'
    cases found'
    exact forms

/-- The ULP may be told more. -/
theorem Vacated.notify {a : Association} (vacated : Vacated key a s s')
    (payload : NotificationPayload) (other : isPartialDelivery payload = false) :
    Vacated key a s (s'.notify key payload) := by
  obtain ⟨notes, same, once⟩ := vacated.told
  refine ⟨vacated.index, vacated.timers, vacated.sends, vacated.messages, vacated.counted,
    notes ++ [payload], ?_, ?_⟩
  · rw [List.foldl_append, ← same]
    rfl
  · rw [List.countP_append, once]
    simp [other]

end Removal

/-! ## The inbox along a run -/

/-- A violation leaves a partial delivery the way it was. -/
def Unspoilt (heard : Evidence → Prop) :
    Prop := ∀ a partly, heard (.spoiled a partly) → partly = partialDeliveryOpen a

/-- The association under a key goes, and what was part way through is dropped. -/
theorem Inbox.dropped (inbox : Inbox s) (key : AssociationKey)
    (dropped : Dropped key s.receives s'.receives) (others : ∀ k, k ≠ key → s'.find? k = s.find? k)
    (tidy : ∀ a, s'.find? key = some a → Tidy a)
    (counted : (∀ a, s'.find? key = some a → forming a.state = true) → s'.receives.bufferedBytes key
      = 0) : Inbox s' := by
  refine inbox.shrunk key dropped.shrinks dropped.fewer others tidy (fun is => ?_) counted
  rw [dropped.messages, ReceiveQueue.unfinished_filter] at is
  cases is

theorem Inbox.pushDeliveries {a b : Association} (inbox : Inbox s) (found : s.find? key = some a)
    (up : forming b.state = false) (tidy : Tidy b) (delivered : List Delivery)
    (left : partialDeliveryOpen b = leftOpen (partialDeliveryOpen a) delivered) :
    Inbox ((s.setAssociation key b).pushDeliveries key delivered) := by
  have pushed : ∀ (delivered : List Delivery) (q : ReceiveQueue), q.Sane →
      (delivered.foldl (fun q d => q.push key d.bytes d.complete d.stream) q).Sane
        ∧ unfinished ((delivered.foldl (fun q d => q.push key d.bytes d.complete d.stream)
          q).waiting key)
          = leftOpen (unfinished (q.waiting key)) delivered
        ∧ ∀ k, k ≠ key →
          (delivered.foldl (fun q d => q.push key d.bytes d.complete d.stream) q).waiting k
            = q.waiting k
          ∧ (delivered.foldl (fun q d => q.push key d.bytes d.complete d.stream) q).bufferedBytes k
            = q.bufferedBytes k := by
    intro delivered
    induction delivered with
    | nil => exact fun q sane => ⟨sane, rfl, fun _ _ => ⟨rfl, rfl⟩⟩
    | cons d rest ih =>
      intro q sane
      obtain ⟨sane', last, others⟩ := ih _ (sane.push d.bytes d.complete d.stream)
      refine ⟨sane', last.trans ?_, fun k apart =>
        ⟨(others k apart).1.trans ?_, (others k apart).2.trans ?_⟩⟩
      · rw [ReceiveQueue.waiting_push, if_pos rfl, unfinished_appendPiece]
        cases rest with
        | nil => rfl
        | cons d' rest => rfl
      · rw [ReceiveQueue.waiting_push, if_neg apart]
      · exact q.bufferedBytes_push_other apart _ _ _
  obtain ⟨sane, last, others⟩ := pushed delivered s.receives inbox.queue
  refine ⟨sane, fun k is => ?_, fun k unborn => ?_, fun k c here => ?_⟩
  · by_cases same : k = key
    · subst same
      refine ⟨b, by simp, ?_⟩
      rw [left]
      change unfinished ((delivered.foldl (fun q d => q.push k d.bytes d.complete d.stream)
        s.receives).waiting k) = true at is
      rw [last] at is
      -- The last piece says whether the message is left open; without one nothing changed.
      unfold leftOpen at is ⊢
      revert is
      cases delivered.getLast? with
      | none =>
        intro is
        obtain ⟨a', found', opened⟩ := inbox.opened k is
        rw [found] at found'
        cases found'
        exact opened
      | some piece => exact id
    · change unfinished ((delivered.foldl (fun q d => q.push key d.bytes d.complete d.stream)
        s.receives).waiting k) = true at is
      rw [(others k same).1] at is
      obtain ⟨c, here, opened⟩ := inbox.opened k is
      exact ⟨c, by simpa [same] using here, opened⟩
  · by_cases same : k = key
    · subst same
      have forms := unborn b (by simp)
      rw [up] at forms
      cases forms
    · refine (others k same).2.trans (inbox.counted k fun c here => unborn c ?_)
      simpa [same] using here
  · by_cases same : k = key
    · subst same
      have is : b = c := by simpa using here
      exact is ▸ tidy
    · exact inbox.tidy k c (by simpa [same] using here)

/-- A deed keeps the inbox in order. -/
theorem Deed.inbox (deed : Deed heard key s s') (unspoilt : Unspoilt heard) (inbox : Inbox s) :
    Inbox s' := by
  have others : ∀ k, k ≠ key → s'.find? k = s.find? k := fun k apart => deed.find?_other apart
  have tidy : ∀ a, s'.find? key = some a → Tidy a := by
    intro a found
    have step := deed.tcb
    rw [found] at step
    exact step.tidy fun a => inbox.tidy key a
  cases deed with
  | @update a b found succeeds =>
    exact inbox.kept rfl others tidy found (by simp) succeeds.partially fun forms =>
      succeeds.forming.symm.trans forms
  | @tie a draws found =>
    have after : (s.setAssociation key (withTieTags draws a)).find? key
        = some (withTieTags draws a) := by simp
    refine inbox.kept rfl others tidy found after (by rw [withTieTags_only]; rfl) fun forms => ?_
    rw [Deeds.state_withTieTags] at forms
    exact forms
  | @credit a b info i notes found told heard credited =>
    obtain ⟨q, same⟩ := notes_only (s.setAssociation key b) key notes
    refine inbox.kept (by rw [same]; rfl) others tidy found (by simp [find?_notes])
      credited.partially fun forms => ?_
    rw [credited.state] at forms
    exact forms
  | @up a found forms =>
    have after : ((s.setAssociation key { a with state := .established }).notifyAssocChange key
      .commUp).find? key
        = some { a with state := .established } := by simp
    exact inbox.kept rfl others tidy found after rfl fun _ => forms
  | @created a cookie absent shown is begins up =>
    refine inbox.shrunk key (.refl inbox.queue) (fun _ => Nat.le_refl _) others tidy (fun is => ?_)
      fun _ => ?_
    · obtain ⟨a', found, -⟩ := inbox.opened key is
      rw [absent] at found
      cases found
    · refine inbox.counted key fun a' found => ?_
      rw [absent] at found
      cases found
  | @restarted a cookie found restarts =>
    have receives := receives_clearedFor s key a
    refine inbox.dropped key ?_ others tidy fun _ => ?_
    · exact receives.symm ▸ (inbox.abandoned found rfl).detach
    · exact (congrArg (fun q : ReceiveQueue => q.bufferedBytes key) receives).trans
        (ReceiveQueue.bufferedBytes_detach _ _)
  | @collided a b found follows closed =>
    have receives := receives_abandonPartialDelivery s key a
    refine inbox.dropped key (receives.symm ▸ inbox.abandoned found rfl) others tidy fun unborn =>
      ?_
    have forms := unborn b (by simp)
    have none := inbox.counted key fun a' found' => by
      rw [found] at found'
      cases found'
      exact follows.forming.symm.trans forms
    refine Nat.le_zero.mp (Nat.le_trans ?_ (Nat.le_of_eq none))
    exact receives.symm ▸ (inbox.abandoned found rfl).fewer key
  | @ended a told found ends =>
    have receives := receives_removeAssociation found
    refine inbox.dropped key (receives.symm ▸ (inbox.abandoned found rfl).detach) others
      tidy fun _ => ?_
    exact (congrArg (fun q : ReceiveQueue => q.bufferedBytes key) receives).trans
      (ReceiveQueue.bufferedBytes_detach _ _)
  | @violated a b found receiving spoilt =>
    have after : (s.setAssociation key b).find? key = some b := by simp
    have receives := receives_removeAssociation after
    refine inbox.dropped key (receives.symm ▸ (inbox.abandoned found (unspoilt a _ spoilt)).detach)
      others tidy fun _ => ?_
    exact (congrArg (fun q : ReceiveQueue => q.bufferedBytes key) receives).trans
      (ReceiveQueue.bufferedBytes_detach _ _)
  | @gaveUp a found forms =>
    have vacated := vacated_tearDown inbox found forms
    exact inbox.dropped key ⟨.refl inbox.queue, fun _ => Nat.le_refl _, vacated.messages⟩
      others tidy fun _ => vacated.counted
  | @deliver a b delivered found receiving follows _ _ _ left =>
    have up : forming b.state = false := follows.forming.trans (up_of_receivesData receiving)
    exact inbox.pushDeliveries found up (follows.tidy (inbox.tidy key a found)) delivered
      (left (inbox.tidy key a found))
  | _ => exact inbox.of_same rfl fun _ => rfl

/-- A work keeps the inbox in order. -/
theorem Work.inbox {event : Event} (work : Work heard event s s') (unspoilt : Unspoilt heard)
    (inbox : Inbox s) : Inbox s' := by
  cases work with
  | deed key deed => exact deed.inbox unspoilt inbox
  | all f outline =>
    refine ⟨inbox.queue, fun k is => ?_, fun k unborn => ?_, fun k b found => ?_⟩
    · obtain ⟨a, found, opened⟩ := inbox.opened k is
      refine ⟨f k a, by rw [find?_mapVals, found]; rfl, ?_⟩
      exact (Succeeds.of_outline (outline k a)).partially.trans opened
    · refine inbox.counted k fun a found => ?_
      have forms := unborn (f k a) (by rw [find?_mapVals, found]; rfl)
      exact (Succeeds.of_outline (outline k a)).forming.symm.trans forms
    · rw [find?_mapVals, Option.map_eq_some_iff] at found
      obtain ⟨a, before, rfl⟩ := found
      exact (Succeeds.of_outline (outline k a)).tidy (inbox.tidy k a before)
  | @opened draws toAddress port is absent =>
    refine inbox.shrunk (peerKey toAddress port) (.refl inbox.queue) (fun _ => Nat.le_refl _)
      (fun k apart => ?_) (fun a found => ?_) (fun is => ?_) fun _ => ?_
    · rw [find?_emplace absent, if_neg apart]
    · rw [find?_emplace absent, if_pos rfl] at found
      cases found
      exact (begins_initNewAssociation draws toAddress).tidy
    · obtain ⟨a', found, -⟩ := inbox.opened _ is
      rw [absent] at found
      cases found
    · refine inbox.counted _ fun a' found => ?_
      rw [absent] at found
      cases found
  | @aborted key reason a is found =>
    have receives := receives_removeAssociation found
    refine inbox.dropped key (receives.symm ▸ (inbox.abandoned found rfl).detach) (fun k apart => by
      simp [apart]) (fun a here => ?_) fun _ => ?_
    · simp at here
    · exact (congrArg (fun q : ReceiveQueue => q.bufferedBytes key) receives).trans
        (ReceiveQueue.bufferedBytes_detach _ _)
  | @withdrawn now key a is found forms =>
    have vacated := vacated_tearDown inbox found forms
    refine inbox.dropped key ⟨.refl inbox.queue, fun _ => Nat.le_refl _, vacated.messages⟩
      (fun k apart => by simp [apart]) (fun a here => ?_) fun _ => vacated.counted
    simp at here
  | read q is =>
    have shrinks : ReceiveQueue.Shrinks s.receives q ∧ ∀ k, q.bufferedBytes k
        ≤ s.receives.bufferedBytes k := by
      obtain ⟨capacity, ⟨-, rfl⟩ | ⟨key, -, rfl⟩⟩ := is
      · exact ⟨ReceiveQueue.shrinks_readAny inbox.queue capacity,
          s.receives.bufferedBytes_readAny_le capacity⟩
      · exact ⟨ReceiveQueue.shrinks_readFrom inbox.queue key capacity,
          s.receives.bufferedBytes_readFrom_le key capacity⟩
    refine ⟨shrinks.1.sane, fun k is => inbox.opened k (shrinks.1.unfinished k is), fun k unborn =>
      ?_, inbox.tidy⟩
    exact Nat.le_zero.mp (Nat.le_trans (shrinks.2 k) (Nat.le_of_eq (inbox.counted k unborn)))
  | _ => exact inbox.of_same rfl fun _ => rfl

theorem Works.inbox {event : Event} (works : Works heard event s s') (unspoilt : Unspoilt heard)
    (inbox : Inbox s) :
    Inbox s' := by
  induction works with
  | refl => exact inbox
  | tail _ work ih => exact work.inbox unspoilt ih

/-! ## The end of a step -/

/-- A work that ends an association leaves nothing of it. -/
theorem Work.vacated {event : Event} {k : AssociationKey} {a : Association}
    (work : Work heard event s s') (unspoilt : Unspoilt heard) (inbox : Inbox s)
    (found : s.find? k = some a) (gone : s'.find? k = none) :
    Vacated k a s s' := by
  have stays : s'.find? k = some a → Vacated k a s s' := by
    intro stays
    rw [stays] at gone
    cases gone
  cases work with
  | deed key deed =>
    by_cases same : k = key
    · subst same
      cases deed with
      | @ended a' told found' ends =>
        rw [found] at found'
        cases found'
        exact (vacated_removeAssociation inbox found s rfl rfl found rfl).notify _ rfl
      | @violated a' b found' receiving spoilt =>
        rw [found] at found'
        cases found'
        have after : (s.setAssociation k b).find? k = some b := by simp
        exact (vacated_removeAssociation inbox found (s.setAssociation k b) rfl rfl after
          (unspoilt a _ spoilt)).notify _ rfl
      | @gaveUp a' found' forms =>
        rw [found] at found'
        cases found'
        exact (vacated_tearDown inbox found forms).notify _ rfl
      | update | tie | up | created | restarted | collided | deliver => simp at gone
      | credit => simp [find?_notes] at gone
      | _ => exact stays found
    · exact stays ((deed.find?_other same).trans found)
  | all f =>
    rw [find?_mapVals, found] at gone
    cases gone
  | opened is absent =>
    refine stays ?_
    rw [find?_emplace absent, if_neg]
    · exact found
    · rintro rfl
      rw [absent] at found
      cases found
  | @aborted key reason a' is found' =>
    by_cases same : k = key
    · subst same
      exact vacated_removeAssociation inbox found s rfl rfl found rfl
    · exact stays (by simpa [same] using found)
  | @withdrawn now key a' is found' forms =>
    by_cases same : k = key
    · subst same
      rw [found] at found'
      cases found'
      exact vacated_tearDown inbox found forms
    · exact stays (by simpa [same] using found)
  | _ => exact stays found

/-- What is left under a key for which there is no association: nothing queued before
`n`, and the messages `left`. -/
structure Left (n : Nat) (left : List ReceivedMessage) (k : AssociationKey) (s : Socket) :
    Prop where
  absent : s.find? k = none
  later : n ≤ s.sends.nextId
  sends : ∀ e ∈ s.sends.queued, e.deliverable.location = k → n ≤ e.id
  messages : s.receives.waiting k = left

section Rest

variable {n : Nat} {left : List ReceivedMessage} {k : AssociationKey}

theorem Left.of_same (rest : Left n left k s) (same : s'.find? k = s.find? k)
    (sends : s'.sends = s.sends) (receives : s'.receives = s.receives) : Left n left k s' where
  absent := same.trans rest.absent
  later := by
    rw [sends]
    exact rest.later
  sends := by
    rw [sends]
    exact rest.sends
  messages := by
    rw [receives]
    exact rest.messages

theorem Left.enqueue (rest : Left n left k s) (d : Deliverable) (priority : SendPriority) :
    Left n left k (s.enqueuePacket d priority) where
  absent := rest.absent
  later := Nat.le_trans rest.later (nextId_le_enqueue _ _ _)
  sends e member here := by
    rcases mem_queued_enqueue member with before | ⟨rfl, -⟩
    · exact rest.sends e before here
    · exact rest.later
  messages := rest.messages

theorem Left.drop (rest : Left n left k s) (sel : Queued → Bool) (what : Queued → Chunk → Bool) :
    Left n left k { s with sends := { s.sends
      with retransmission := dropChunks sel what s.sends.retransmission } } where
  absent := rest.absent
  later := rest.later
  sends e member here := by
    simp only [SendQueue.queued, List.mem_append] at member
    rcases member with inside | dropped | inside
    · exact rest.sends e (List.mem_append_left _ inside) here
    · obtain ⟨e', before, id, location, -⟩ := mem_dropChunks dropped
      rw [id]
      exact rest.sends e' (List.mem_append_right _ (List.mem_append_left _ before))
        (location.symm.trans here)
    · exact rest.sends e (List.mem_append_right _ (List.mem_append_right _ inside)) here
  messages := rest.messages

theorem Deed.nextId_le (deed : Deed heard key s s') : s.sends.nextId ≤ s'.sends.nextId := by
  cases deed with
  | enqueue d priority => exact nextId_le_enqueue _ _ _
  | @credit a b info i notes =>
    obtain ⟨q, same⟩ := notes_only (s.setAssociation key b) key notes
    rw [same]
    exact Nat.le_refl _
  | @restarted a => exact Nat.le_of_eq (congrArg SendQueue.nextId
      (cleared_clearedFor s key a).sends).symm
  | @collided a => exact Nat.le_of_eq (congrArg SendQueue.nextId
      (undisturbed_abandonPartialDelivery s key a).sends).symm
  | ended => exact Nat.le_of_eq (congrArg SendQueue.nextId
      (cleared_removeAssociation s key).sends).symm
  | @violated a b =>
    exact Nat.le_of_eq (congrArg SendQueue.nextId
      (cleared_removeAssociation (s.setAssociation key b) key).sends).symm
  | _ => exact Nat.le_refl _

/-- What is done for another key touches nothing of this one. -/
theorem Left.isolated (rest : Left n left k s) (isolated : Isolated key s s') (apart : k ≠ key)
    (later : s.sends.nextId ≤ s'.sends.nextId) : Left n left k s' where
  absent := (isolated.tcbs k apart).trans rest.absent
  later := Nat.le_trans rest.later later
  sends e member here := by
    refine rest.sends e ?_ here
    have old : ∀ {l l' : List Queued}, l'.filter (fun e => decide (e.deliverable.location ≠ key))
        = l.filter (fun e => decide (e.deliverable.location ≠ key)) → e ∈ l' → e ∈ l := by
      intro l l' same inside
      by_contra new
      exact apart (here.symm.trans (Isolated.of_new same inside new))
    simp only [SendQueue.queued, List.mem_append] at member ⊢
    exact member.imp (old isolated.control)
      (Or.imp (old isolated.retransmission) (old isolated.newData))
  messages := by
    rw [ReceiveQueue.waiting, isolated.received k apart]
    exact rest.messages

/-- No deed brings an association back. -/
theorem Deed.rests (deed : Deed heard key s s') (standing : Standing s)
    (unshown : ∀ now cookieData header src, ¬heard (.echoed now cookieData header src))
    (rest : Left n left k s) :
    Left n left k s' := by
  by_cases same : k = key
  · subst same
    have never : ∀ {a}, s.find? k = some a → Left n left k s' := by
      intro a found
      rw [rest.absent] at found
      cases found
    cases deed with
    | update found | tie _ found | credit _ found | up found | restarted found | collided found
        | ended _ found
    | violated found | gaveUp found | deliver _ found => exact never found
    | created absent shown =>
      obtain ⟨now, cookieData, header, src, told, -⟩ := shown
      exact absurd told (unshown now cookieData header src)
    | enqueue d priority => exact rest.enqueue d priority
    | drop sel what => exact rest.drop sel what
    | _ => exact rest.of_same rfl rfl rfl
  · exact rest.isolated (deed.isolated standing) same deed.nextId_le

theorem Work.rests {event : Event} (work : Work heard event s s') (standing : Standing s)
    (unshown : ∀ now cookieData header src, ¬heard (.echoed now cookieData header src))
    (unopened : ∀ draws toAddress port, event ≠ .associate draws toAddress port)
    (unread : ∀ capacity, event ≠ .recvData capacity ∧ ∀ key, event ≠ .recvDataFrom key capacity)
    (rest : Left n left k s) : Left n left k s' := by
  cases work with
  | deed key deed => exact deed.rests standing unshown rest
  | all f =>
    refine ⟨?_, rest.later, rest.sends, rest.messages⟩
    rw [find?_mapVals, rest.absent]
    rfl
  | opened is => exact absurd is (unopened _ _ _)
  | @aborted key reason a is found =>
    refine rest.isolated (Isolated.remove key s)
      ?_ (Nat.le_of_eq (congrArg SendQueue.nextId (cleared_removeAssociation s key).sends).symm)
    rintro rfl
    rw [rest.absent] at found
    cases found
  | @withdrawn now key a is found =>
    refine rest.isolated (Isolated.tearDown key s) ?_ (Nat.le_refl _)
    rintro rfl
    rw [rest.absent] at found
    cases found
  | read q is =>
    obtain ⟨capacity, ⟨is, -⟩ | ⟨key, is, -⟩⟩ := is
    · exact absurd is (unread capacity).1
    · exact absurd is ((unread capacity).2 key)
  | sent q control retransmission newData next =>
    refine ⟨rest.absent, Nat.le_trans rest.later (Nat.le_of_eq next.symm), fun e member here =>
      rest.sends e ?_ here, rest.messages⟩
    simp only [SendQueue.queued, List.mem_append] at member ⊢
    exact member.imp control.mem (Or.imp retransmission.mem newData.mem)
  | _ => exact rest.of_same rfl rfl rfl

end Rest

/-! ## Along a run -/

theorem Work.mono {heard' : Evidence → Prop} {event : Event} (more : ∀ e, heard e → heard' e)
    (work : Work heard event s s') :
    Work heard' event s s' := by
  cases work with
  | deed key deed => exact .deed key (deed.mono more)
  | all f outline spares => exact .all f outline spares
  | opened is absent => exact .opened is absent
  | aborted is found => exact .aborted is found
  | withdrawn is found forms => exact .withdrawn is found forms
  | read q is => exact .read q is
  | sent q control retransmission newData next => exact .sent q control retransmission newData next
  | expired q is queue next active => exact .expired q is queue next active
  | attended q is => exact .attended q is

theorem Works.mono {heard' : Evidence → Prop} {event : Event} (more : ∀ e, heard e → heard' e)
    (works : Works heard event s s') : Works heard' event s s' :=
  Relation.ReflTransGen.mono (fun _ _ work => work.mono more) _ _ works

/-- A cookie is only taken by the first work of a step. -/
theorem System.step_led {σ σ' : System} {event : Event} (standing : Standing σ.socket)
    (stepped : σ.step event = some σ') :
    ∃ s, (s = σ.socket ∨ Work (σ.hears event) event σ.socket s)
      ∧ Works (unechoed (σ.hears event)) event s σ'.socket := by
  rcases System.step_cases stepped with ⟨now, draws, packet, src, rfl, -, rfl⟩ | ⟨now, draws, rfl,
    -, rfl⟩ | ⟨rfl, -, rfl⟩
    | ⟨now, accepted, left, rfl, -, rfl⟩ | ⟨s, called, rfl⟩
  · obtain ⟨s, first, rest⟩ := Deeds.handlePacket σ.socket now draws packet src
      (σ.shows_hears now draws packet src)
    exact ⟨s, first.imp_right (Work.deed _), .of_deeds rest⟩
  · exact ⟨_, Or.inl rfl, .runExpire standing trivial rfl⟩
  · exact ⟨_, Or.inl rfl, .single (.all _ (fun _ _ => rfl) fun _ _ => .of_eq rfl rfl)⟩
  · exact ⟨_, Or.inl rfl, .sendOne standing now accepted left⟩
  · exact ⟨_, Or.inl rfl, .call called fun _ => trivial⟩

/-- The association `a` under a key ends in a step, by the work from `s₁` to `s₂`. -/
structure Ending (σ : System) (event : Event) (σ' : System) (k : AssociationKey) (a : Association)
    (s₁ s₂ : Socket) :
    Prop where
  unopened : ∀ draws toAddress port, event ≠ .associate draws toAddress port
  unread : ∀ capacity, event ≠ .recvData capacity ∧ ∀ key, event ≠ .recvDataFrom key capacity
  before : Works (σ.hears event) event σ.socket s₁
  found : s₁.find? k = some a
  work : Work (σ.hears event) event s₁ s₂
  gone : s₂.find? k = none
  after : Works (unechoed (σ.hears event)) event s₂ σ'.socket

/-- Somewhere on the way an association that is gone at the end is removed. -/
theorem Works.ending {event : Event} {k : AssociationKey} {a : Association}
    (works : Works heard event s s') (found : s.find? k = some a) (gone : s'.find? k = none) :
    ∃ b s₁ s₂, Works heard event s s₁ ∧ s₁.find? k = some b ∧ Work heard event s₁ s₂
      ∧ s₂.find? k = none
      ∧ Works heard event s₂ s' := by
  induction works with
  | refl =>
    rw [found] at gone
    cases gone
  | @tail s₁ s₂ path work ih =>
    cases before : s₁.find? k with
    | none =>
      obtain ⟨b, t₁, t₂, early, there, ends, none, late⟩ := ih before
      exact ⟨b, t₁, t₂, early, there, ends, none, late.tail work⟩
    | some b => exact ⟨b, s₁, s₂, path, before, work, gone, .refl⟩

/-- Opening an association and reading end none. -/
theorem find?_of_call {event : Event} {k : AssociationKey} {a : Association}
    (called : System.call s event = some s')
    (is : (∃ draws toAddress port, event = .associate draws toAddress port)
      ∨ ∃ capacity, event = .recvData capacity ∨ ∃ key, event = .recvDataFrom key capacity)
    (found : s.find? k = some a) : ∃ b, s'.find? k = some b := by
  rcases is with ⟨draws, toAddress, port, rfl⟩ | ⟨capacity, rfl | ⟨key, rfl⟩⟩
  · cases called
    unfold Socket.sctpAssociate
    split
    · exact ⟨a, found⟩
    · simp only
      split
      · exact ⟨a, found⟩
      · refine ⟨a, (KeyMap.get?_emplace _ _ _ _).trans ?_⟩
        split
        · next same =>
          subst same
          rw [show s.associations.get? _ = some a from found]
          rfl
        · exact found
  · cases called
    unfold Socket.sctpRecvData
    split
    · exact ⟨a, found⟩
    · next read receives _ =>
      obtain ⟨b, after, -⟩ := (Quiet.maybeSendWindowUpdate { s with receives := receives }
        read.key).present k a found
      exact ⟨b, after⟩
  · cases called
    unfold Socket.sctpRecvDataFrom
    split
    · exact ⟨a, found⟩
    · next read receives _ =>
      obtain ⟨b, after, -⟩ := (Quiet.maybeSendWindowUpdate { s with receives := receives }
        key).present k a found
      exact ⟨b, after⟩

theorem System.exists_ending {σ σ' : System} {event : Event} (standing : Standing σ.socket)
    (stepped : σ.step event = some σ') {k : AssociationKey} {a : Association}
    (found : σ.socket.find? k = some a) (gone : σ'.socket.find? k = none) :
    ∃ b s₁ s₂, Ending σ event σ' k b s₁ s₂ := by
  have called : ¬((∃ draws toAddress port, event = .associate draws toAddress port)
      ∨ ∃ capacity, event = .recvData capacity ∨ ∃ key, event = .recvDataFrom key capacity) := by
    intro is
    rcases System.step_cases stepped with ⟨_, _, _, _, rfl, -, rfl⟩ | ⟨_, _, rfl, -, rfl⟩ | ⟨rfl,
      -, rfl⟩
      | ⟨_, _, _, rfl, -, rfl⟩ | ⟨s, called, rfl⟩
    case inr.inr.inr.inr =>
      obtain ⟨b, after⟩ := find?_of_call called is found
      rw [after] at gone
      cases gone
    all_goals simp at is
  have unopened : ∀ draws toAddress port, event ≠ .associate draws toAddress port :=
    fun draws toAddress port is => called (Or.inl ⟨draws, toAddress, port, is⟩)
  have unread : ∀ capacity, event ≠ .recvData capacity
      ∧ ∀ key, event ≠ .recvDataFrom key capacity :=
    fun capacity => ⟨fun is => called (Or.inr ⟨capacity, Or.inl is⟩), fun key is =>
      called (Or.inr ⟨capacity, Or.inr ⟨key, is⟩⟩)⟩
  obtain ⟨s, first, rest⟩ := System.step_led standing stepped
  have start : Works (σ.hears event) event σ.socket s := by
    rcases first with rfl | work
    · exact .refl
    · exact .single work
  cases middle : s.find? k with
  | none =>
    -- The first work of the step is the one.
    rcases first with rfl | work
    · rw [found] at middle
      cases middle
    · exact ⟨a, σ.socket, s, unopened, unread, .refl, found, work, middle, rest⟩
  | some c =>
    obtain ⟨b, s₁, s₂, early, there, ends, none, late⟩ := rest.ending middle gone
    exact ⟨b, s₁, s₂, unopened, unread, start.trans (early.mono of_unechoed), there,
      ends.mono of_unechoed, none, late⟩

theorem Works.rests {event : Event} {n : Nat} {left : List ReceivedMessage} {k : AssociationKey}
    (works : Works (unechoed heard) event s s') (standing : Standing s)
    (unopened : ∀ draws toAddress port, event ≠ .associate draws toAddress port)
    (unread : ∀ capacity, event ≠ .recvData capacity ∧ ∀ key, event ≠ .recvDataFrom key capacity)
    (rest : Left n left k s) :
    Left n left k s' := by
  have both : Standing s' ∧ Left n left k s' := by
    induction works with
    | refl => exact ⟨standing, rest⟩
    | tail _ work ih => exact ⟨work.standing ih.1,
        work.rests ih.1 (fun _ _ _ _ => id) unopened unread ih.2⟩
  exact both.2

/-- What the work that ends an association leaves is all that is left at the end of the step. -/
theorem Ending.left {σ σ' : System} {event : Event} {k : AssociationKey} {a : Association}
    {s₁ s₂ : Socket} (ending : Ending σ event σ' k a s₁ s₂) (standing : Standing σ.socket)
    (vacated : Vacated k a s₁ s₂) :
    Left s₁.sends.nextId ((s₁.receives.waiting k).filter ReceivedMessage.complete) k σ'.socket := by
  have standing₁ := ending.before.standing standing
  have standing₂ := ending.work.standing standing₁
  have later : s₁.sends.nextId ≤ s₂.sends.nextId := by
    cases ending.work with
    | deed key deed => exact deed.nextId_le
    | @aborted key => exact Nat.le_of_eq (congrArg SendQueue.nextId
        (cleared_removeAssociation s₁ key).sends).symm
    | sent q _ _ _ next => exact Nat.le_of_eq next.symm
    | _ => exact Nat.le_refl _
  refine ending.after.rests standing₂ ending.unopened ending.unread ⟨ending.gone, later,
    fun e member here => ?_, vacated.messages⟩
  exact absurd here (vacated.sends e member)

/-- The DATA of a received packet violates the protocol, after it began or ended the
partial delivery of a message. -/
def System.spoils (σ : System) : Event → Bool
  | .recv now draws packet src =>
    match σ.socket.dispatch now draws packet src with
    | none => false
    | some (s, key, carried) =>
      match s.afterChunks now draws packet key src carried with
      | (true, _) => false
      | (false, s) =>
        (s.find? key).any fun a => receivesData a.state
          && (takeData (stripUnrecognized packet.chunks).1
            (Socket.DataLoop.start s key a carried)).violation
          && partialDeliveryOpen (takeData (stripUnrecognized packet.chunks).1
            (Socket.DataLoop.start s key a carried)).st.assoc != partialDeliveryOpen a
  | _ => false

theorem System.unspoilt_hears {σ : System} {event : Event} (kept : σ.spoils event = false) :
    Unspoilt (σ.hears event) := by
  rintro a partly ⟨now, draws, packet, src, s', key, carried, s'', rfl, dispatched, after, found,
    receives, violation, rfl⟩
  simp only [System.spoils, dispatched, after, found, Option.any_some, receives, violation,
    Bool.true_and] at kept
  exact bne_eq_false_iff_eq.mp kept

theorem System.Reached.inbox {σ : System}
    (reached : System.Reached (fun σ event => σ.spoils event = false) σ) :
    Inbox σ.socket := by
  have both : Standing σ.socket ∧ Inbox σ.socket := by
    refine Run.Reach.invariant (fun σ => Standing σ.socket ∧ Inbox σ.socket) reached ?_
      fun σ event σ' held ok stepped => ?_
    · rintro _ ⟨address, rfl⟩
      exact ⟨standing_fresh address, inbox_fresh address⟩
    · have works := System.step_works held.1 stepped
      exact ⟨works.standing held.1, works.inbox (System.unspoilt_hears ok) held.2⟩
  exact both.2

/-- As long as no packet's DATA violates the protocol after it began or ended a partial
delivery: an association that ends within a step leaves its whole messages, uncounted, and
the packets queued after its end; the one message that was part way through is dropped,
with one note of it. Nothing is found under a key without an association later on, and a
restart clears what the old association had before the new one is there. -/
theorem teardown_leaves_nothing {σ σ' : System} {event : Event}
    (reached : System.Reached (fun σ event => σ.spoils event = false) σ)
    (kept : σ.spoils event = false) (stepped : σ.step event = some σ') :
    (∀ k a s₁ s₂, Ending σ event σ' k a s₁ s₂ → Vacated k a s₁ s₂
      ∧ Left s₁.sends.nextId ((s₁.receives.waiting k).filter ReceivedMessage.complete) k σ'.socket)
    ∧ (∀ k a, σ.socket.find? k = some a → σ'.socket.find? k = none →
      ∃ b s₁ s₂, Ending σ event σ' k b s₁ s₂)
    ∧ (∀ k, σ'.socket.find? k = none → (∀ peer, σ'.socket.peerAddresses.get? peer ≠ some k)
      ∧ (∀ timer, timer.location = k → σ'.socket.expirations.isActive timer = false)
      ∧ (∀ m ∈ σ'.socket.receives.waiting k, m.complete = true) ∧ σ'.socket.receives.bufferedBytes k
        = 0)
    ∧ ∀ k a cookie s₁, Works (σ.hears event) event σ.socket s₁ → s₁.find? k = some a →
      Restarts (σ.hears event) s₁ a cookie → Vacated k a s₁ (s₁.clearedFor k a) := by
  have unspoilt := System.unspoilt_hears kept
  have standing := System.Reached.standing reached
  have inbox := System.Reached.inbox reached
  have works := System.step_works standing stepped
  have standing' := works.standing standing
  have inbox' := works.inbox unspoilt inbox
  refine ⟨fun k a s₁ s₂ ending => ?_, fun k a found gone =>
    System.exists_ending standing stepped found gone,
    fun k gone => ⟨fun peer here => ?_, fun timer here => ?_, ?_, ?_⟩,
      fun k a cookie s₁ path found _ => ?_⟩
  · have vacated := ending.work.vacated unspoilt (ending.before.inbox unspoilt inbox) ending.found
      ending.gone
    exact ⟨vacated, ending.left standing vacated⟩
  · have there := standing'.listed peer k here
    rw [gone] at there
    cases there
  · cases active : σ'.socket.expirations.active.get? timer with
    | none => exact KeyMap.contains_eq_false.mpr active
    | some generation =>
      have there := standing'.running timer generation active
      rw [here, gone] at there
      cases there
  · refine List.filter_eq_self.mp (inbox'.queue.filter_complete (inbox'.finished fun a found => ?_))
    rw [gone] at found
    cases found
  · refine inbox'.counted k fun a found => ?_
    rw [gone] at found
    cases found
  · exact vacated_clearedFor (path.inbox unspoilt inbox) found

/-- The window is nearly full, and a message goes up as far as it has arrived. -/
def halfway : List Event :=
  (List.range 8).map (fun i => Opened.arrives
    [⟨3#8, .data ⟨BitVec.ofNat 32 (100 + i), 0#16, BitVec.ofNat 16 i, 0#32, List.replicate 8000 0#8,
    3#8⟩⟩])
  ++ [Opened.arrives [⟨2#8, .data ⟨108#32, 0#16, 8#16, 0#32, List.replicate 500 0#8, 2#8⟩⟩]]

/-- The peer aborts: the message that was part way through is dropped. -/
theorem vacated_abort : ∃ σ σ', System.Reached (fun σ event => σ.spoils event = false) σ
    ∧ σ.step (Opened.arrives [⟨0#8, .abort []⟩]) = some σ'
    ∧ unfinished (σ.socket.receives.waiting Opened.key) = true
    ∧ ∃ a s₁ s₂, Ending σ (Opened.arrives [⟨0#8, .abort []⟩]) σ' Opened.key a s₁ s₂
    ∧ Vacated Opened.key a s₁ s₂ := by
  obtain ⟨σ, reached, ends⟩ := Opened.exists_reached_while (fun σ event => σ.spoils event = false)
    halfway
    (p := fun σ => (σ.step (Opened.arrives [⟨0#8, .abort []⟩])).any fun σ' =>
      (σ.socket.find? Opened.key).isSome && !(σ'.socket.find? Opened.key).isSome
        && unfinished (σ.socket.receives.waiting Opened.key)
      && !σ.spoils (Opened.arrives [⟨0#8, .abort []⟩])) (by decide +kernel)
  obtain ⟨σ', stepped, terms⟩ := (Option.any_eq_true _ _).mp ends
  simp only [Bool.and_eq_true, Bool.not_eq_true', Option.isSome_iff_exists,
    Option.isSome_eq_false_iff, Option.isNone_iff_eq_none] at terms
  obtain ⟨⟨⟨⟨a, found⟩, gone⟩, waits⟩, kept⟩ := terms
  have result := teardown_leaves_nothing reached kept stepped
  obtain ⟨b, s₁, s₂, ending⟩ := result.2.1 Opened.key a found gone
  exact ⟨σ, σ', reached, stepped, waits, b, s₁, s₂, ending, (result.1 _ _ _ _ ending).1⟩

/-- The end of that message, and behind it a fragment of none. -/
def fatal : Event := Opened.arrives [⟨1#8, .data ⟨109#32, 0#16, 8#16, 0#32, [0#8], 1#8⟩⟩,
    ⟨0#8, .data ⟨110#32, 0#16, 8#16, 0#32, [0#8], 0#8⟩⟩]

/-- The association ends, and the unfinished message stays. -/
theorem fatal_leaves_unfinished :
    ∃ σ σ', System.Reached (fun _ _ => True) σ ∧ σ.step fatal = some σ'
    ∧ (∃ a, σ.socket.find? Opened.key = some a ∧ partialDeliveryOpen a = true)
    ∧ σ'.socket.find? Opened.key = none
    ∧ unfinished (σ'.socket.receives.waiting Opened.key) = true := by
  obtain ⟨σ, reached, ends⟩ := Opened.exists_reached halfway
    (p := fun σ => (σ.step fatal).any fun σ' =>
      ((σ.socket.find? Opened.key).any fun a => partialDeliveryOpen a)
        && !(σ'.socket.find? Opened.key).isSome
          && unfinished (σ'.socket.receives.waiting Opened.key)) (by decide +kernel)
  obtain ⟨σ', stepped, terms⟩ := (Option.any_eq_true _ _).mp ends
  simp only [Bool.and_eq_true, Bool.not_eq_true', Option.any_eq_true, Option.isSome_eq_false_iff,
    Option.isNone_iff_eq_none] at terms
  obtain ⟨⟨opened, gone⟩, waits⟩ := terms
  exact ⟨σ, σ', reached, stepped, opened, gone, waits⟩

end SctpStack
