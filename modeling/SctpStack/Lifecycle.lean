import SctpStack.Deadlines
import SctpStack.Openings

/-!
# What the application is told of an association

The application learns of an association by ASSOC_CHANGE notifications, and what it ends
itself it is not told about. Whatever packets, timers and calls come, what it was told and
what it did make a word of one small automaton (`Phase.next`), and the word leads to the
phase the association is in (`lifecycle_grammar`). No word is lost on the way: what was
read and what is still queued are all there was.
-/

namespace SctpStack

/-! ## The automaton -/

/-- What there is of an association. -/
inductive Phase where
  | absent
  | forming
  | up
deriving DecidableEq, Repr

/-- What the application is told of an association, and what it does about it. -/
inductive Mark where
  | told (state : AssocChangeState)
  | opened
  | dropped
deriving DecidableEq, Repr

/-- An association that comes up from a cookie was never opened from this side. -/
def Phase.next : Phase → Mark → Option Phase
  | .absent, .opened => some .forming
  | .absent, .told .commUp => some .up
  | .forming, .told .commUp => some .up
  | .forming, .told .cantStrAssoc => some .absent
  | .forming, .told .restart => some .up
  | .forming, .dropped => some .absent
  | .up, .told .restart => some .up
  | .up, .told .commLost => some .absent
  | .up, .told .shutdownComp => some .absent
  | .up, .dropped => some .absent
  | _, _ => none

/-- The phase a word leads to, if the automaton accepts it. -/
def Phase.after (phase : Phase) (word : List Mark) : Option Phase := word.foldlM Phase.next phase

theorem Phase.after_append {p q r : Phase} {word more : List Mark} (first : p.after word = some q)
    (second : q.after more = some r) : p.after (word ++ more) = some r := by
  show List.foldlM Phase.next p (word ++ more) = some r
  rw [List.foldlM_append, show List.foldlM Phase.next p word = some q from first]
  exact second

/-- What is told in a word. -/
def Mark.state? : Mark → Option AssocChangeState
  | .told state => some state
  | _ => none

def told (word : List Mark) : List AssocChangeState := word.filterMap Mark.state?

theorem told_append (word more : List Mark) : told (word ++ more) = told word ++ told more :=
  List.filterMap_append

theorem told_map (states : List AssocChangeState) : told (states.map .told) = states := by
  rw [told, List.filterMap_map]
  exact List.filterMap_some

/-! ## What is queued for the application -/

/-- What a notification tells about the association under a key. -/
def Notification.tells (key : AssociationKey) (n : Notification) : Option AssocChangeState :=
  match n.payload with
  | .assocChange state => if n.src = key then some state else none
  | _ => none

/-- What is queued about it. -/
def NotificationQueue.announced (q : NotificationQueue) (key : AssociationKey) :
    List AssocChangeState :=
  q.queue.filterMap (Notification.tells key)

/-- ASSOC_CHANGE is subscribed, as it is from the start. -/
def Socket.Subscribed (s : Socket) : Prop := .assocChange ∈ s.notifications.subscribed

def phaseOf : Option Association → Phase
  | none => .absent
  | some a => if forming a.state then .forming else .up

def Socket.phase (s : Socket) (key : AssociationKey) : Phase := phaseOf (s.find? key)

theorem phaseOf_some {a : Association} {f : Bool} (forms : forming a.state = f) :
    phaseOf (some a) = if f then .forming else .up := by
  show (if forming a.state = true then Phase.forming else Phase.up) = _
  rw [forms]

namespace NotificationQueue

variable {q : NotificationQueue} {key src : AssociationKey}

@[simp] theorem subscribed_enqueue (payload : NotificationPayload) :
    (q.enqueue src payload).subscribed = q.subscribed := by
  unfold enqueue
  split
  · rfl
  · split <;> rfl

/-- Nothing is told by any other notification. -/
theorem announced_enqueue_other {payload : NotificationPayload}
    (other : payload.type ≠ .assocChange) :
    (q.enqueue src payload).announced key = q.announced key := by
  have silent : ∀ n, Notification.tells key ⟨src, n, payload⟩ = none := by
    intro n
    cases payload with
    | assocChange => exact absurd rfl other
    | _ => rfl
  unfold enqueue
  split
  · rfl
  · split
    · rfl
    · rw [announced, List.filterMap_append, List.filterMap_cons, silent]
      exact List.append_nil _

/-- What ends or begins is told even where the queue is full. -/
theorem announced_enqueue (subscribed : .assocChange ∈ q.subscribed) (state : AssocChangeState) :
    (q.enqueue src (.assocChange state)).announced key = q.announced key ++ if src = key
      then [state] else [] := by
  have listed : ¬NotificationPayload.type (.assocChange state) ∉ q.subscribed :=
    not_not_intro subscribed
  unfold enqueue
  rw [if_neg listed, if_neg (by simp [NotificationPayload.type, isLifecycle]), announced,
    List.filterMap_append]
  congr 1
  by_cases here : src = key <;> simp [Notification.tells, here]

/-- Whatever is handed out is the first thing queued. -/
theorem announced_dequeue (q : NotificationQueue) (key : AssociationKey) :
    q.announced key = (q.dequeue.1.bind (Notification.tells key)).toList
      ++ q.dequeue.2.announced key := by
  obtain ⟨queue, subscribed, next, dropped⟩ := q
  cases queue with
  | nil => rfl
  | cons n rest =>
    show (n :: rest).filterMap _ = (Notification.tells key n).toList ++ rest.filterMap _
    rw [List.filterMap_cons]
    cases Notification.tells key n <;> rfl

end NotificationQueue

/-! ## One deed -/

/-- From one socket to the other, `states` are told of the association under the key, and
they lead from the phase it was in to the one it is in. -/
structure Tells (key : AssociationKey) (s s' : Socket) (states : List AssocChangeState) : Prop where
  subscribed : s'.notifications.subscribed = s.notifications.subscribed
  announced : s'.notifications.announced key = s.notifications.announced key ++ states
  leads : (s.phase key).after (states.map .told) = some (s'.phase key)

variable {heard : Evidence → Prop} {key k : AssociationKey} {s s' s'' : Socket}

theorem Tells.trans {states more : List AssocChangeState} (first : Tells key s s' states)
    (second : Tells key s' s'' more) :
    Tells key s s'' (states ++ more) where
  subscribed := second.subscribed.trans first.subscribed
  announced := by rw [second.announced, first.announced, List.append_assoc]
  leads := by
    rw [List.map_append]
    exact Phase.after_append first.leads second.leads

/-- Nothing about any association is told. -/
structure Hushed (s s' : Socket) : Prop where
  subscribed : s'.notifications.subscribed = s.notifications.subscribed
  announced : ∀ key, s'.notifications.announced key = s.notifications.announced key

theorem Hushed.trans (first : Hushed s s') (second : Hushed s' s'') : Hushed s s'' :=
  ⟨second.subscribed.trans first.subscribed, fun key =>
    (second.announced key).trans (first.announced key)⟩

theorem Hushed.of_eq (same : s'.notifications = s.notifications) : Hushed s s' :=
  ⟨by rw [same], fun key => by rw [same]⟩

theorem Hushed.notify {payload : NotificationPayload} (other : payload.type ≠ .assocChange) :
    Hushed s (s.notify k payload) :=
  ⟨NotificationQueue.subscribed_enqueue _, fun _ => NotificationQueue.announced_enqueue_other other⟩

theorem Hushed.notes (s : Socket) {notes : List NotificationPayload}
    (are : ∀ note ∈ notes, isNote note = true) :
    Hushed s (notes.foldl (fun s note => s.notify k note) s) := by
  induction notes generalizing s with
  | nil => exact .of_eq rfl
  | cons note rest ih =>
    refine (Hushed.notify (k := k) fun type => ?_).trans (ih _ fun n member =>
      are n (List.mem_cons_of_mem _ member))
    have is := are note List.mem_cons_self
    cases note with
    | assocChange => cases is
    | _ => cases type

theorem Hushed.abandonPartialDelivery (a : Association) :
    Hushed s (s.abandonPartialDelivery k a) := by
  unfold Socket.abandonPartialDelivery
  split
  · exact .of_eq rfl
  · have closed : Hushed s { s with receives := s.receives.abandonOpen k } := .of_eq rfl
    exact closed.trans (.notify (show NotificationType.partialDeliveryEvent
      ≠ .assocChange from nofun))

theorem Hushed.removeAssociation (s : Socket) (k : AssociationKey) :
    Hushed s (s.removeAssociation k) := by
  unfold Socket.removeAssociation
  cases s.find? k with
  | none => exact .of_eq rfl
  | some a => exact (Hushed.abandonPartialDelivery a).trans (.of_eq rfl)

/-- Nothing is told, and the association is in the phase it was in. -/
theorem Tells.nothing (hushed : Hushed s s') (same : s'.phase key = s.phase key) :
    Tells key s s' [] :=
  ⟨hushed.subscribed, (hushed.announced key).trans (List.append_nil _).symm,
    congrArg some same.symm⟩

/-- A change of the TCB that leaves the phase as it is. -/
theorem phase_setAssociation {a b : Association} (found : s.find? k = some a)
    (forms : forming b.state = forming a.state) (key : AssociationKey) :
    (s.setAssociation k b).phase key = s.phase key := by
  unfold Socket.phase
  rw [Socket.find?_setAssociation]
  split
  · next here => rw [here, found, phaseOf_some forms, phaseOf_some rfl]
  · rfl

/-- The application is told of the association under `k`, and what it is told leads from the
phase it was in to the one it is in. -/
theorem Tells.assocChange {state : AssocChangeState} {before after : Option Association}
    (subscribed : s.Subscribed) (found : s.find? k = before) (hushed : Hushed s s')
    (tcbs : ∀ key, s'.find? key = if key = k then after else s.find? key)
    (leads : (phaseOf before).next (.told state) = some (phaseOf after)) (key : AssociationKey) :
    ∃ states, Tells key s (s'.notifyAssocChange k state) states := by
  have still : NotificationType.assocChange ∈ s'.notifications.subscribed := by
    rw [hushed.subscribed]
    exact subscribed
  have queued : (s'.notifications.enqueue k (.assocChange state)).announced key
      = s'.notifications.announced key ++ if k = key then [state] else [] :=
        NotificationQueue.announced_enqueue still state
  refine ⟨if k = key then [state] else [],
    (NotificationQueue.subscribed_enqueue _).trans hushed.subscribed,
    queued.trans (congrArg (· ++ _) (hushed.announced key)), ?_⟩
  by_cases here : key = k
  · rw [if_pos here.symm]
    show (Phase.next (phaseOf (s.find? key)) (.told state)).bind some
        = some (phaseOf (s'.find? key))
    rw [tcbs, if_pos here, here, found, leads]
    rfl
  · rw [if_neg (Ne.symm here)]
    show some (phaseOf (s.find? key)) = some (phaseOf (s'.find? key))
    rw [tcbs, if_neg here]

theorem phase_of_find? (same : s'.find? key = s.find? key) : s'.phase key = s.phase key :=
  congrArg phaseOf same

/-- A deed that tells nothing and only touches the TCB within its phase. -/
theorem Tells.same (hushed : Hushed s s') (same : ∀ key, s'.find? key = s.find? key) :
    ∃ states, Tells key s s' states :=
  ⟨[], .nothing hushed (phase_of_find? (same key))⟩

theorem Tells.set {a b : Association} (found : s.find? k = some a)
    (forms : forming b.state = forming a.state) :
    Tells key s (s.setAssociation k b) [] :=
      .nothing (.of_eq rfl) (phase_setAssociation found forms key)

theorem phaseOf_forming {a : Association} (forms : forming a.state = true) :
    phaseOf (some a) = .forming := phaseOf_some forms

theorem phaseOf_up {a : Association} (up : forming a.state = false) : phaseOf (some a) = .up :=
  phaseOf_some up

/-- Either way, the end of an association leads to nothing. -/
theorem Ends.leads {a : Association} {state : AssocChangeState} (ends : Ends a.state state) :
    (phaseOf (some a)).next (.told state) = some .absent := by
  unfold Ends at ends
  cases forms : forming a.state with
  | true =>
    rw [forms, if_pos rfl] at ends
    rw [phaseOf_forming forms, ends]
    rfl
  | false =>
    rw [forms, if_neg Bool.false_ne_true] at ends
    rw [phaseOf_up forms]
    rcases ends with rfl | rfl <;> rfl

/-- A peer that restarts finds the association up, whatever it was. -/
theorem restart_leads (a : Association) : (phaseOf (some a)).next (.told .restart) = some .up := by
  cases forms : forming a.state with
  | true => rw [phaseOf_forming forms]; rfl
  | false => rw [phaseOf_up forms]; rfl

theorem forming_of_receives {state : AssociationState} (receives : receivesData state = true) :
    forming state = false := by
  cases state <;> first | rfl | cases receives

/-- What a deed tells of an association leads from the phase before it to the one after. -/
theorem Deed.tells (deed : Deed heard k s s') (subscribed : s.Subscribed) (key : AssociationKey) :
    ∃ states, Tells key s s' states := by
  cases deed with
  | update found succeeds minds => exact ⟨[], .set found succeeds.forming⟩
  | tie draws found state => exact ⟨[], .set found (by unfold withTieTags; split <;> rfl)⟩
  | @credit a b info i notes found _ _ credited are =>
    have set := phase_setAssociation found (congrArg forming credited.state) key
    have hushed : Hushed s (s.setAssociation k b) := .of_eq rfl
    exact ⟨[], .nothing (hushed.trans (.notes _ are))
      ((phase_of_find? (find?_notes _ k key notes)).trans set)⟩
  | @up a found forms probed =>
    have set : Hushed s (s.setAssociation k { a with state := .established }) := .of_eq rfl
    refine Tells.assocChange subscribed found set (fun key => Socket.find?_setAssociation s k key _)
      ?_ key
    rw [phaseOf_forming forms]
    rfl
  | @created a cookie absent shown is begins up =>
    have set : Hushed s (s.setAssociation k a) := .of_eq rfl
    refine Tells.assocChange subscribed absent set (fun key =>
      Socket.find?_setAssociation s k key a) ?_ key
    rw [phaseOf_up up]
    rfl
  | @restarted a cookie found restarts =>
    have stopped : Hushed s (((s.cancelExpirations k).purgeSends k).forgetPeerAddresses k) :=
      .of_eq rfl
    have cleared : Hushed s (s.clearedFor k a) :=
      (stopped.trans (.abandonPartialDelivery a)).trans (.of_eq rfl)
    have set : Hushed s ((s.clearedFor k a).setAssociation k
        (initNewAssociationFromCookie cookie)) := cleared.trans (.of_eq rfl)
    have tcbs : ∀ key, ((s.clearedFor k a).setAssociation k
        (initNewAssociationFromCookie cookie)).find? key
        = if key = k then some (initNewAssociationFromCookie cookie) else s.find? key := by
      intro key
      rw [Socket.find?_setAssociation, find?_clearedFor]
    exact Tells.assocChange subscribed found set tcbs (restart_leads a) key
  | @collided a b found follows =>
    have abandoned : Hushed s (s.abandonPartialDelivery k a) := .abandonPartialDelivery a
    have still := (find?_abandonPartialDelivery s k k a).trans found
    exact ⟨[], .nothing (abandoned.trans (.of_eq rfl))
      ((phase_setAssociation still follows.forming key).trans
        (phase_of_find? (find?_abandonPartialDelivery s k key a)))⟩
  | ended state found ends =>
    exact Tells.assocChange subscribed found (.removeAssociation s k) (find?_removeAssociation s k)
      ends.leads key
  | @violated a b found receives =>
    have set : Hushed s (s.setAssociation k b) := .of_eq rfl
    have tcbs : ∀ key, ((s.setAssociation k b).removeAssociation k).find? key
        = if key = k then none else s.find? key := by
      intro key
      rw [find?_removeAssociation, Socket.find?_setAssociation]
      split <;> rfl
    refine Tells.assocChange subscribed found (set.trans (.removeAssociation _ k)) tcbs ?_ key
    rw [phaseOf_up (forming_of_receives receives)]
    rfl
  | gaveUp found forms =>
    have torn : Hushed s (s.tearDown k) := .of_eq rfl
    refine Tells.assocChange subscribed found torn (find?_tearDown s k) ?_ key
    rw [phaseOf_forming forms]
    rfl
  | deliver delivered found receives follows =>
    exact ⟨[], .nothing (.of_eq rfl) (phase_setAssociation found follows.forming key)⟩
  | note payload is present =>
    have are : ∀ note ∈ [payload], isNote note = true := by
      intro note member
      rw [List.mem_singleton.mp member]
      exact is
    exact ⟨[], .nothing (.notes s are) rfl⟩
  | _ => exact Tells.same (.of_eq rfl) fun key => rfl

/-! ## Sending tells nothing -/

/-- No notification is queued, and no association changes its state. -/
structure Silently (s s' : Socket) : Prop where
  notifications : s'.notifications = s.notifications
  states : ∀ key, (s'.find? key).map Association.state = (s.find? key).map Association.state

theorem phase_eq (s : Socket) (key : AssociationKey) :
    s.phase key = ((s.find? key).map Association.state).elim .absent
    fun state => if forming state then .forming else .up := by
  unfold Socket.phase
  cases s.find? key <;> rfl

theorem Silently.tells (silently : Silently s s') (key : AssociationKey) :
    ∃ states, Tells key s s' states :=
  ⟨[], .nothing (.of_eq silently.notifications) (by rw [phase_eq, phase_eq, silently.states])⟩

namespace Silently

theorem refl (s : Socket) : Silently s s := ⟨rfl, fun _ => rfl⟩

theorem trans (first : Silently s s') (second : Silently s' s'') : Silently s s'' :=
  ⟨second.notifications.trans first.notifications, fun key =>
    (second.states key).trans (first.states key)⟩

theorem of_find? (notifications : s'.notifications = s.notifications)
    (same : ∀ key, s'.find? key = s.find? key) :
    Silently s s' := ⟨notifications, fun key => by rw [same]⟩

theorem foldl {α : Type} {f : Socket → α → Socket} (each : ∀ s x, Silently s (f s x)) (l : List α)
    (s : Socket) :
    Silently s (l.foldl f s) := by
  induction l generalizing s with
  | nil => exact .refl s
  | cons x rest ih => exact (each s x).trans (ih (f s x))

theorem set {a b : Association} (found : s.find? k = some a) (state : b.state = a.state) :
    Silently s (s.setAssociation k b) := by
  refine ⟨rfl, fun key => ?_⟩
  rw [Socket.find?_setAssociation]
  split
  · next here => rw [here, found, Option.map_some, Option.map_some, state]
  · rfl

theorem update (s : Socket) (k : AssociationKey) {f : Association → Association}
    (state : ∀ a, (f a).state = a.state) :
    Silently s (s.updateAssociation k f) := by
  refine ⟨rfl, fun key => ?_⟩
  rw [Socket.find?_updateAssociation]
  split
  · next here => cases found : s.find? key <;> simp [← here, found, state]
  · rfl

theorem sendAllowances (s : Socket) (now : Time) : Silently s (s.sendAllowances now).1 := by
  refine ⟨rfl, fun key => ?_⟩
  show (Socket.find? { s with associations := s.associations.mapVals _ } key).map _ = _
  rw [find?_mapVals, Option.map_map]
  congr 1
  funext a
  show Association.state (if transmitsData a.state then decayPaths now a else a) = a.state
  rw [apply_ite Association.state]
  exact ite_self _

theorem schedulePendingRetransmission (s : Socket) (k : AssociationKey) (gated : Bool) :
    Silently s (s.schedulePendingRetransmission k gated) := by
  refine ⟨?_, find?_schedulePending s k gated⟩
  cases found : s.find? k with
  | none =>
    unfold Socket.schedulePendingRetransmission
    simp only [found]
  | some a =>
    rcases schedulePendingRetransmission_cases found gated with ⟨same, -⟩ | ⟨target, bundle, -,
      made⟩
    · rw [same]
    · rw [made]
      rfl

theorem refillNewDataFor (r : Socket.Refill) (k : AssociationKey) :
    Silently r.socket (Socket.refillNewDataFor r k).socket := by
  rcases refillNewDataFor_cases r k with same | ⟨allowance, a, -, found, -, -, -, -, done⟩
  · rw [same]
    exact .refl _
  · have only := cutNewData_only a allowance
    have cut : Silently r.socket (r.socket.setAssociation k (cutNewData a allowance).assoc) :=
      .set found (by rw [only])
    rcases done with ⟨-, socket, -⟩ | ⟨-, socket, -⟩
    · rw [socket]
      exact cut
    · rw [socket]
      exact cut.trans (.of_find? rfl fun _ => rfl)

theorem armed (s : Socket) (now : Time) : Silently s (s.armed now) := by
  have queued : Silently s ((s.sendAllowances now).1.refillRetransmissions
      (s.sendAllowances now).2) := by
    refine (sendAllowances s now).trans (.foldl (fun s k => ?_) _ _)
    split
    · exact .refl s
    · exact schedulePendingRetransmission s k true
  have refilled : Silently s (s.refilled now).socket :=
    List.foldlRecOn (motive := fun r : Socket.Refill => Silently s r.socket)
      (s.sendAllowances now).2.keys Socket.refillNewDataFor queued fun r holds k _ =>
        holds.trans (refillNewDataFor r k)
  have peeked : Silently s { (s.refilled now).socket with sends := (s.peeked now).2.1 } :=
    refilled.trans (.of_find? rfl fun _ => rfl)
  refine peeked.trans (.foldl (fun s entry => ?_) _ _)
  unfold Socket.armZeroWindowProbe
  simp only
  split
  · exact .refl s
  · cases s.find? entry.1 with
    | none => exact .refl s
    | some a =>
      simp only
      split <;> exact .of_find? rfl fun _ => rfl

theorem either {α : Type} {c : Prop} [Decidable c] {x y : Socket × α} (yes : Silently s x.1)
    (no : Silently s y.1) :
    Silently s (if c then x else y).1 := by
  split
  · exact yes
  · exact no

theorem prepareDataPacket (s : Socket) (d : Deliverable) (newData : Bool) :
    Silently s (s.prepareDataPacket d newData).1 := by
  unfold Socket.prepareDataPacket
  simp only
  split
  · exact .refl s
  · cases found : s.find? d.location with
    | none => exact .refl s
    | some a =>
      simp only
      split
      · exact .refl s
      · have built : Silently s (s.setAssociation d.location (s.makeSack d.location a).2) :=
          .set found rfl
        exact either (built.trans (.of_find? rfl fun _ => rfl))
          (built.trans (.of_find? rfl fun _ => rfl))

theorem nextPacket (s : Socket) (now : Time) : Silently s (s.nextPacket now).socket := by
  rw [nextPacket_eq]
  split
  · exact armed s now
  · split
    · exact armed s now
    · exact (armed s now).trans (prepareDataPacket _ _ _)

theorem chunkSent (s : Socket) (d : Deliverable) (sentAt : Time) (chunk : Chunk) :
    Silently s (s.chunkSent d sentAt chunk) := by
  unfold Socket.chunkSent
  simp only
  have armed : ∀ (type : ExpirationTimerType) (expected : AssociationState)
      (retransmits : Association → Nat), Silently s (match s.find? d.location with
        | none => s
        | some a =>
          if a.state ≠ expected then s
          else s.scheduleExpiration (timerOf d.location type)
            (sentAt + usec (Socket.backedOffT1 (retransmits a))) d) := by
    intro type expected retransmits
    split
    · exact .refl s
    · split <;> exact .of_find? rfl fun _ => rfl
  cases chunk.value with
  | heartbeat info =>
    refine update s d.location fun a => ?_
    split <;> rfl
  | data data =>
    refine update s d.location fun a => ?_
    split
    · exact congrArg Essence.state (same_recordDataSentIn a d.destination data sentAt).essence
    · rfl
  | init init => exact armed _ _ _
  | cookieEcho cookie => exact armed _ _ _
  | _ => exact .refl s

theorem startT3IfStopped (s : Socket) (now : Time) (k : AssociationKey) (destination : SockAddr) :
    Silently s (s.startT3IfStopped now k destination) := by
  unfold Socket.startT3IfStopped
  split
  · exact .refl s
  · unfold Socket.restartT3
    simp only
    split <;> exact .of_find? rfl fun _ => rfl

theorem packetSent (s : Socket) (sentAt : Time) (p : Pending) :
    Silently s (s.packetSent sentAt p) := by
  have committed : Silently s { s with sends := s.sends.commit p } := .of_find? rfl fun _ => rfl
  have recorded := committed.trans (.foldl (fun s chunk => chunkSent s p.deliverable sentAt chunk)
    p.deliverable.packet.chunks _)
  have timed : Silently s (({ s with sends := s.sends.commit p } :
      Socket).scheduleExpirationsAfterSend p.deliverable sentAt) := by
    unfold Socket.scheduleExpirationsAfterSend
    simp only
    split
    · exact recorded.trans (startT3IfStopped _ sentAt _ _)
    · exact recorded
  unfold Socket.packetSent
  simp only
  split
  · exact timed
  · exact timed.trans (update _ _ fun _ => rfl)

theorem packetRefused (s : Socket) (now : Time) (p : Pending) :
    Silently s (s.packetRefused now p) := by
  unfold Socket.packetRefused Socket.requeueBundledSack
  split
  · split <;> exact .of_find? rfl fun _ => rfl
  · exact .of_find? rfl fun _ => rfl

theorem sendOne (σ : System) (now : Time) (accepted : Bool) (left : Nat) :
    Silently σ.socket (σ.sendOne now accepted left).socket := by
  have next := nextPacket σ.socket now
  unfold System.sendOne
  simp only
  cases (σ.socket.nextPacket now).pending with
  | none => exact next
  | some p =>
    simp only
    split
    · exact next.trans (packetSent _ now p)
    · exact next.trans (packetRefused _ now p)

end Silently

/-! ## A step -/

/-- What the application's own call does about the association under a key. -/
def Event.marks (key : AssociationKey) (s : Socket) : Event → List Mark
  | .associate draws toAddress port =>
    if peerKey toAddress port = key ∧ (s.sctpAssociate draws toAddress port).1 = .ok then [.opened]
      else []
  | .abort k reason => if k = key ∧ (s.sctpAbort k reason).1 = .ok then [.dropped] else []
  | .shutdown _ k => if k = key ∧ s.phase k = .forming then [.dropped] else []
  | _ => []

/-- What is handed out about it. -/
def Event.read (key : AssociationKey) (s : Socket) : Event → List AssocChangeState
  | .recvNotification => (s.sctpRecvNotification.1.bind (Notification.tells key)).toList
  | _ => []

/-- What a step does: `states` are queued behind those it hands out, and after the
application's own mark they lead from one phase to the next. -/
structure Recounts (key : AssociationKey) (event : Event) (s s' : Socket)
    (states : List AssocChangeState) : Prop where
  subscribed : s'.Subscribed
  queued : (event.read key s).length ≤ (s.notifications.announced key).length
  announced : s.notifications.announced key ++ states = event.read key s
    ++ s'.notifications.announced key
  leads : (s.phase key).after (event.marks key s ++ states.map .told) = some (s'.phase key)

/-- The application goes on hearing of ASSOC_CHANGE. -/
def keepsListening (_ : System) : Event → Prop
  | .subscribe type on => type = .assocChange → on = true
  | _ => True

instance (σ : System) (event : Event) : Decidable (keepsListening σ event) :=
  match event with
  | .subscribe type on => inferInstanceAs (Decidable (type = .assocChange → on = true))
  | .recv .. | .expire .. | .startSending | .send .. | .associate .. | .sendData .. | .abort
      .. | .recvData ..
  | .recvDataFrom .. | .shutdown .. | .changeHeartbeat .. | .requestHeartbeat .. | .setPrimary
      .. | .recvNotification =>
    .isTrue trivial

theorem Tells.recounts {event : Event} (subscribed : s.Subscribed) (plain : event.marks key s = [])
    (unread : event.read key s = []) (tells : ∃ states, Tells key s s' states) :
    ∃ states, Recounts key event s s' states := by
  obtain ⟨states, tells⟩ := tells
  refine ⟨states, ?_, ?_, ?_, ?_⟩
  · show NotificationType.assocChange ∈ s'.notifications.subscribed
    rw [tells.subscribed]
    exact subscribed
  · rw [unread]
    exact Nat.zero_le _
  · rw [unread]
    exact tells.announced.symm
  · rw [plain]
    exact tells.leads

theorem Deeds.tells (deeds : Deeds heard k s s') (subscribed : s.Subscribed)
    (key : AssociationKey) :
    ∃ states, Tells key s s' states := by
  induction deeds with
  | refl => exact ⟨[], .nothing (.of_eq rfl) rfl⟩
  | tail _ deed ih =>
    obtain ⟨states, first⟩ := ih
    obtain ⟨more, second⟩ := deed.tells
      (by rw [Socket.Subscribed, first.subscribed]; exact subscribed) key
    exact ⟨_, first.trans second⟩

/-- What the application does itself is not told it. -/
theorem Recounts.own {event : Event} {mark : Mark} (subscribed : s.Subscribed)
    (hushed : Hushed s s') (marks : event.marks key s = [mark]) (unread : event.read key s = [])
    (leads : (s.phase key).next mark = some (s'.phase key)) :
    ∃ states, Recounts key event s s' states := by
  refine ⟨[], ?_, ?_, ?_, ?_⟩
  · show NotificationType.assocChange ∈ s'.notifications.subscribed
    rw [hushed.subscribed]
    exact subscribed
  · rw [unread]
    exact Nat.zero_le _
  · rw [unread, hushed.announced, List.append_nil]
    rfl
  · rw [marks]
    show ((s.phase key).next mark).bind some = _
    rw [leads]
    rfl

section Calls

variable (subscribed : s.Subscribed)
include subscribed

theorem recounts_sctpAssociate (draws : Draws) (toAddress : SockAddr) (port : Port)
    (key : AssociationKey) :
    ∃ states, Recounts key (.associate draws toAddress port)
      s (s.sctpAssociate draws toAddress port).2 states := by
  by_cases opens : peerKey toAddress port = key ∧ (s.sctpAssociate draws toAddress port).1 = .ok
  · obtain ⟨here, taken⟩ := opens
    have marks : Event.marks key s (.associate draws toAddress port) = [.opened] :=
      if_pos ⟨here, taken⟩
    unfold Socket.sctpAssociate at taken ⊢
    split at taken
    · cases taken
    · next runs =>
      rw [if_neg runs]
      simp only at taken ⊢
      split at taken
      · cases taken
      · next unknown =>
        rw [if_neg unknown]
        have absent := absent_of_unknown unknown
        refine Recounts.own subscribed (.of_eq rfl) marks rfl ?_
        have before : s.phase key = .absent := by rw [Socket.phase, ← here, absent]; rfl
        have after : Socket.phase { s with
            associations := s.associations.emplace (peerKey toAddress port)
              (initNewAssociation draws toAddress) } key = .forming := by
          rw [Socket.phase, find?_emplace absent, if_pos here.symm]
          rfl
        rw [before]
        exact congrArg some after.symm
  · have marks : Event.marks key s (.associate draws toAddress port) = [] := if_neg opens
    refine Tells.recounts subscribed marks rfl ⟨[], ?_⟩
    revert opens
    unfold Socket.sctpAssociate
    split
    · exact fun _ => .nothing (.of_eq rfl) rfl
    · simp only
      split
      · exact fun _ => .nothing (.of_eq rfl) rfl
      · next unknown =>
        intro opens
        have apart : key ≠ peerKey toAddress port := fun same => opens ⟨same.symm, rfl⟩
        refine .nothing (.of_eq rfl) (phase_of_find? ?_)
        exact (find?_emplace (absent_of_unknown unknown) _ _).trans (if_neg apart)

theorem recounts_sctpAbort (k : AssociationKey) (reason : Bytes) (key : AssociationKey) :
    ∃ states, Recounts key (.abort k reason) s (s.sctpAbort k reason).2 states := by
  have status : (s.sctpAbort k reason).1 = .ok ↔ (s.find? k).isSome = true := by
    unfold Socket.sctpAbort
    cases s.find? k with
    | none => simp
    | some a =>
      simp only
      split <;> simp
  cases found : s.find? k with
  | none =>
    have same : (s.sctpAbort k reason).2 = s := by unfold Socket.sctpAbort; rw [found]
    have refused : ¬(s.sctpAbort k reason).1 = .ok := by
      rw [status, found]; exact Bool.false_ne_true
    rw [same]
    exact Tells.recounts subscribed (if_neg fun both => refused both.2) rfl ⟨[],
      .nothing (.of_eq rfl) rfl⟩
  | some a =>
    have gone : Hushed s (s.sctpAbort k reason).2 ∧ ∀ key, (s.sctpAbort k reason).2.find? key
        = if key = k then none else s.find? key := by
      unfold Socket.sctpAbort
      rw [found]
      simp only
      split
      · exact ⟨.removeAssociation s k, find?_removeAssociation s k⟩
      · exact ⟨(Hushed.removeAssociation s k).trans (.of_eq rfl), find?_removeAssociation s k⟩
    obtain ⟨hushed, tcbs⟩ := gone
    by_cases here : k = key
    · have marks : Event.marks key s (.abort k reason) = [.dropped] :=
        if_pos ⟨here, by rw [status, found]; rfl⟩
      refine Recounts.own subscribed hushed marks rfl ?_
      rw [Socket.phase, Socket.phase, tcbs, if_pos here.symm, ← here, found]
      cases forms : forming a.state with
      | true => rw [phaseOf_forming forms]; rfl
      | false => rw [phaseOf_up forms]; rfl
    · refine Tells.recounts subscribed (if_neg fun both => here both.1) rfl ⟨[],
        .nothing hushed (phase_of_find? ?_)⟩
      exact (tcbs key).trans (if_neg (Ne.symm here))

/-- Before the association is up, a shutdown drops it. -/
theorem recounts_sctpShutdown (now : Time) (k key : AssociationKey) :
    ∃ states, Recounts key (.shutdown now k) s (s.sctpShutdown now k).2 states := by
  cases found : s.find? k with
  | none =>
    have same : (s.sctpShutdown now k).2 = s := by unfold Socket.sctpShutdown; rw [found]
    have absent : ¬(k = key ∧ s.phase k = .forming) := by
      rw [Socket.phase, found]
      exact fun both => absurd both.2 nofun
    rw [same]
    exact Tells.recounts subscribed (if_neg absent) rfl ⟨[], .nothing (.of_eq rfl) rfl⟩
  | some a =>
    have phase : s.phase k = phaseOf (some a) := congrArg phaseOf found
    cases forms : forming a.state with
    | true =>
      have torn : (s.sctpShutdown now k).2 = s.tearDown k := by
        unfold Socket.sctpShutdown
        rw [found]
        simp only
        rw [if_pos forms]
        rfl
      rw [torn]
      by_cases here : k = key
      · have marks : Event.marks key s (.shutdown now k) = [.dropped] :=
          if_pos ⟨here, phase.trans (phaseOf_forming forms)⟩
        refine Recounts.own subscribed (.of_eq rfl) marks rfl ?_
        rw [← here, phase, phaseOf_forming forms, Socket.phase, find?_tearDown, if_pos rfl]
        rfl
      · refine Tells.recounts subscribed (if_neg fun both => here both.1) rfl ⟨[],
          .nothing (.of_eq rfl) (phase_of_find? ?_)⟩
        exact (find?_tearDown s k key).trans (if_neg (Ne.symm here))
    | false =>
      have up : ¬(k = key ∧ s.phase k = .forming) := by
        rw [phase, phaseOf_up forms]
        exact fun both => absurd both.2 nofun
      refine Tells.recounts subscribed (if_neg up) rfl ?_
      unfold Socket.sctpShutdown
      rw [found]
      simp only
      rw [if_neg (by rw [forms]; exact Bool.false_ne_true)]
      split
      · next established =>
        have pending : Tells key s (s.setAssociation k { a with state := .shutdownPending }) [] :=
          .set found (by rw [established]; rfl)
        have closes : Deeds (fun _ => True)
            k (s.setAssociation k { a with state := .shutdownPending }) _ :=
          .doNextShutdownStep _ k now
        obtain ⟨states, rest⟩ := closes.tells subscribed key
        exact ⟨_, pending.trans rest⟩
      · exact ⟨[], .nothing (.of_eq rfl) rfl⟩

theorem recounts_call {σ : System} {event : Event} (called : System.call s event = some s')
    (listening : keepsListening σ event) (key : AssociationKey) :
    ∃ states, Recounts key event s s' states := by
  have deeds : ∀ {k s'}, event.marks key s = [] → event.read key s = [] →
      Deeds (fun _ => True) k s s' → ∃ states, Recounts key event s s' states :=
    fun plain unread deeds => Tells.recounts subscribed plain unread (deeds.tells subscribed key)
  cases event with
  | associate draws toAddress port =>
    cases called
    exact recounts_sctpAssociate subscribed draws toAddress port key
  | sendData k data stream unordered =>
    cases called
    refine Tells.recounts subscribed rfl rfl ⟨[], ?_⟩
    unfold Socket.sctpSendData
    cases found : s.find? k with
    | none => exact .nothing (.of_eq rfl) rfl
    | some a =>
      simp only
      split
      · exact .set found rfl
      · exact .nothing (.of_eq rfl) rfl
  | abort k reason =>
    cases called
    exact recounts_sctpAbort subscribed k reason key
  | recvData capacity =>
    cases called
    refine Tells.recounts subscribed rfl rfl ?_
    unfold Socket.sctpRecvData
    split
    · exact ⟨[], .nothing (.of_eq rfl) rfl⟩
    · next read receives _ =>
      have kept : Tells key s { s with receives := receives } [] := .nothing (.of_eq rfl) rfl
      have updated : Deeds (fun _ => True) read.key { s with receives := receives } _ :=
        .maybeSendWindowUpdate _ read.key
      obtain ⟨states, rest⟩ := updated.tells subscribed key
      exact ⟨_, kept.trans rest⟩
  | recvDataFrom k capacity =>
    cases called
    refine Tells.recounts subscribed rfl rfl ?_
    unfold Socket.sctpRecvDataFrom
    split
    · exact ⟨[], .nothing (.of_eq rfl) rfl⟩
    · next read receives _ =>
      have kept : Tells key s { s with receives := receives } [] := .nothing (.of_eq rfl) rfl
      have updated : Deeds (fun _ => True) k { s with receives := receives } _ :=
        .maybeSendWindowUpdate _ k
      obtain ⟨states, rest⟩ := updated.tells subscribed key
      exact ⟨_, kept.trans rest⟩
  | shutdown now k =>
    cases called
    exact recounts_sctpShutdown subscribed now k key
  | changeHeartbeat now draws k destination enabled interval =>
    cases called
    exact deeds rfl rfl (Deeds.sctpChangeHeartbeat s trivial now draws k destination enabled
      interval)
  | requestHeartbeat now draws k destination =>
    cases called
    exact deeds rfl rfl (Deeds.sctpRequestHeartbeat s trivial now draws k destination)
  | setPrimary k destination =>
    cases called
    refine Tells.recounts subscribed rfl rfl ⟨[], ?_⟩
    unfold Socket.sctpSetPrimary
    cases found : s.find? k with
    | none => exact .nothing (.of_eq rfl) rfl
    | some a =>
      simp only
      split
      · exact .nothing (.of_eq rfl) rfl
      · split
        · exact .nothing (.of_eq rfl) rfl
        · exact .set found rfl
  | subscribe type on =>
    cases called
    refine ⟨[], ?_, Nat.zero_le _, List.append_nil _, rfl⟩
    show NotificationType.assocChange ∈ (if on then type :: s.notifications.subscribed
      else s.notifications.subscribed.filter fun t => decide (t ≠ type))
    cases on with
    | true => exact List.mem_cons_of_mem _ subscribed
    | false =>
      exact List.mem_filter.mpr ⟨subscribed, decide_eq_true fun same =>
        Bool.false_ne_true (listening same.symm)⟩
  | recvNotification =>
    cases called
    have front : s.notifications.announced key
        = Event.read key s .recvNotification ++ s.sctpRecvNotification.2.notifications.announced
          key :=
      s.notifications.announced_dequeue key
    refine ⟨[], ?_, ?_, (List.append_nil _).trans front, rfl⟩
    · show NotificationType.assocChange ∈ s.notifications.dequeue.2.subscribed
      unfold NotificationQueue.dequeue
      split <;> exact subscribed
    · rw [front, List.length_append]
      exact Nat.le_add_right _ _
  | _ => cases called

end Calls

theorem System.recounts {σ σ' : System} {event : Event} (standing : Standing σ.socket)
    (subscribed : σ.socket.Subscribed) (listening : keepsListening σ event)
    (stepped : σ.step event = some σ') (key : AssociationKey) :
    ∃ states, Recounts key event σ.socket σ'.socket states := by
  rcases System.step_cases stepped with ⟨now, draws, packet, src, rfl, -, rfl⟩ | ⟨now, draws, rfl,
    -, rfl⟩ | ⟨rfl, -, rfl⟩
    | ⟨now, accepted, left, rfl, -, rfl⟩ | ⟨s, called, rfl⟩
  · have handled := (Deeds.handlePacket σ.socket now draws packet src
      (σ.shows_hears now draws packet src)).deeds of_unechoed
    exact Tells.recounts subscribed rfl rfl (handled.tells subscribed key)
  · refine Tells.recounts subscribed rfl rfl ?_
    have expires := @runExpire_deeds (fun _ => True)
      (fun s => ∃ states, Tells key σ.socket s states) _ standing trivial now draws
    refine expires (fun deeds sofar => ?_) ⟨[], .nothing (.of_eq rfl) rfl⟩
    obtain ⟨states, first⟩ := sofar
    obtain ⟨more, second⟩ := deeds.tells
      (by rw [Socket.Subscribed, first.subscribed]; exact subscribed) key
    exact ⟨_, first.trans second⟩
  · have silently : Silently σ.socket σ.socket.startTransmissionOpportunity := by
      refine ⟨rfl, fun k => ?_⟩
      show (Socket.find? { σ.socket with associations := σ.socket.associations.mapVals _ } k).map _
        = _
      rw [find?_mapVals, Option.map_map]
      rfl
    exact Tells.recounts subscribed rfl rfl (silently.tells key)
  · exact Tells.recounts subscribed rfl rfl ((Silently.sendOne σ now accepted left).tells key)
  · exact recounts_call subscribed called listening key

/-! ## A life -/

/-- What a step queues, behind what it hands out. -/
def newlyTold (key : AssociationKey) (event : Event) (s s' : Socket) : List AssocChangeState :=
  (s'.notifications.announced key).drop
    ((s.notifications.announced key).length - (event.read key s).length)

theorem Recounts.newlyTold {event : Event} {states : List AssocChangeState}
    (recounts : Recounts key event s s' states) :
    newlyTold key event s s' = states := by
  have later : s'.notifications.announced key = (s.notifications.announced key ++ states).drop
      (event.read key s).length := by
    rw [recounts.announced, List.drop_left]
  rw [SctpStack.newlyTold, later, List.drop_drop, Nat.add_sub_cancel' recounts.queued,
    List.drop_left]

/-- A run of the socket, with all that was told and done about the association under a key,
in order, and what the application has read of it. -/
inductive Lived (key : AssociationKey) : System → List Mark → List AssocChangeState → Prop where
  | start {σ : System} : System.Initial σ → Lived key σ [] []
  | next {σ σ' : System} {event : Event} {word : List Mark} {read : List AssocChangeState} :
      Lived key σ word read → keepsListening σ event → σ.step event = some σ' →
      Lived key σ' (word ++ (event.marks key σ.socket
        ++ (newlyTold key event σ.socket σ'.socket).map .told)) (read ++ event.read key σ.socket)

theorem Lived.reached {σ : System} {word : List Mark} {read : List AssocChangeState}
    (lived : Lived key σ word read) :
    System.Reached keepsListening σ := by
  induction lived with
  | start initial => exact .start initial
  | next _ listening stepped ih => exact .next ih listening stepped

theorem System.Reached.lived {σ : System} (reached : System.Reached keepsListening σ)
    (key : AssociationKey) :
    ∃ word read, Lived key σ word read := by
  induction reached with
  | start initial => exact ⟨_, _, .start initial⟩
  | next _ listening stepped ih =>
    obtain ⟨word, read, lived⟩ := ih
    exact ⟨_, _, lived.next listening stepped⟩

theorem Lived.told {σ : System} {word : List Mark} {read : List AssocChangeState}
    (lived : Lived key σ word read) :
    σ.socket.Subscribed ∧ Phase.absent.after word = some (σ.socket.phase key)
      ∧ SctpStack.told word = read ++ σ.socket.notifications.announced key := by
  induction lived with
  | start initial =>
    obtain ⟨address, rfl⟩ := initial
    exact ⟨List.mem_singleton.mpr rfl, rfl, rfl⟩
  | @next σ σ' event word read before listening stepped ih =>
    obtain ⟨subscribed, leads, told⟩ := ih
    obtain ⟨states, recounts⟩ := System.recounts before.reached.standing subscribed listening
      stepped key
    rw [recounts.newlyTold]
    refine ⟨recounts.subscribed, Phase.after_append leads recounts.leads, ?_⟩
    have silent : SctpStack.told (event.marks key σ.socket) = [] := by
      cases event <;> simp [Event.marks, SctpStack.told, Mark.state?, apply_ite]
    rw [told_append, told_append, silent, told_map, told, List.nil_append, List.append_assoc,
      recounts.announced, List.append_assoc]

/-- The notifications of an association follow one automaton: what the application was told
of it and what it did itself make a word that leads from nothing to the phase the
association is in. COMM_UP comes before it is up, CANT_STR_ASSOC only where it never was,
COMM_LOST and SHUTDOWN_COMP only where it is, and one word ends it. All that was told was
read or is still queued, in that order. -/
theorem lifecycle_grammar {σ : System} {key : AssociationKey} {word : List Mark}
    {read : List AssocChangeState} (lived : Lived key σ word read) :
    Phase.absent.after word = some (σ.socket.phase key) ∧ told word = read
      ++ σ.socket.notifications.announced key :=
  lived.told.2

/-- An association that came up, and was heard of. -/
theorem heard_of_life : ∃ σ word read, Lived Opened.key σ word read
    ∧ σ.socket.phase Opened.key = .up
    ∧ Phase.absent.after word = some .up ∧ told word = read := by
  obtain ⟨σ, reached, ends⟩ := Opened.exists_reached_while keepsListening [.recvNotification]
      (p := fun σ =>
    decide (σ.socket.phase Opened.key = .up ∧ σ.socket.notifications.announced Opened.key = []))
      (by decide +kernel)
  obtain ⟨up, quiet⟩ := of_decide_eq_true ends
  obtain ⟨word, read, lived⟩ := reached.lived Opened.key
  obtain ⟨leads, told⟩ := lifecycle_grammar lived
  rw [up] at leads
  rw [quiet, List.append_nil] at told
  exact ⟨σ, word, read, lived, up, leads, told⟩

end SctpStack
