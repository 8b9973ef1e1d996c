import SctpStack.DeedSteps

/-!
# What holds of every socket

Besides the deeds of its handlers, a socket does the works of its event loop and of the
calls of the application (`Work`). Every work keeps the socket in good standing
(`Work.standing`): addresses are confirmed where they have to be, and nothing is kept for
an association there is not.
-/

namespace SctpStack

/-- Everything queued for sending. -/
def SendQueue.queued (q : SendQueue) : List Queued := q.control ++ (q.retransmission ++ q.newData)

theorem mem_purge {q : SendQueue} {key : AssociationKey} {e : Queued}
    (member : e ∈ (q.purge key).queued) :
    e ∈ q.queued ∧ e.deliverable.location ≠ key := by
  simp only [SendQueue.queued, SendQueue.purge, List.mem_append, List.mem_filter, decide_eq_true_eq]
    at member ⊢
  rcases member with ⟨inside, apart⟩ | ⟨inside, apart⟩ | ⟨inside, apart⟩
  · exact ⟨Or.inl inside, apart⟩
  · exact ⟨Or.inr (Or.inl inside), apart⟩
  · exact ⟨Or.inr (Or.inr inside), apart⟩

theorem mem_waiting_purge {q : SendQueue} {key : AssociationKey} {e : Queued}
    (member : e ∈ (q.purge key).retransmission ++ (q.purge key).newData) :
    e ∈ q.retransmission ++ q.newData ∧ e.deliverable.location ≠ key := by
  simp only [SendQueue.purge, List.mem_append, List.mem_filter, decide_eq_true_eq] at member ⊢
  rcases member with ⟨inside, apart⟩ | ⟨inside, apart⟩
  · exact ⟨Or.inl inside, apart⟩
  · exact ⟨Or.inr inside, apart⟩

/-- A packet is for an association there is, to a confirmed address where that matters. -/
def Ready (s : Socket) (d : Deliverable) : Prop :=
  ∃ a, s.find? d.location = some a ∧ (guarded d.packet = true → Confirmed a d.destination)

/-- What T1 sends again. -/
structure Retries (s : Socket) (f : ExpirationFallback) : Prop where
  location : f.retry.location = f.key.location
  nonempty : f.retry.packet.chunks ≠ []
  follows : followedUp f.retry.packet = true
  silent : f.retry.packet.Silent
  ready : Ready s f.retry

/-- A socket in good standing. -/
structure Standing (s : Socket) : Prop where
  sound : ∀ k a, s.find? k = some a → Sound a
  listed : ∀ peer owner, s.peerAddresses.get? peer = some owner → (s.find? owner).isSome = true
  running : ∀ timer generation, s.expirations.active.get? timer = some generation →
    (s.find? timer.location).isSome = true
  stamped : ∀ f ∈ s.expirations.queue, f.generation < s.expirations.nextGeneration
  retries : ∀ f ∈ s.expirations.queue, s.expirations.active.get? f.key = some f.generation →
    isT1 f.key.type = true → Retries s f
  nonempty : ∀ e ∈ s.sends.queued, e.deliverable.packet.chunks ≠ []
  numbered : ∀ e ∈ s.sends.queued, e.id < s.sends.nextId
  ready : ∀ e ∈ s.sends.queued, followedUp e.deliverable.packet = true → Ready s e.deliverable
  quiet : ∀ e ∈ s.sends.queued, followedUp e.deliverable.packet = true → e.deliverable.packet.Silent
  waiting : ∀ e ∈ s.sends.retransmission ++ s.sends.newData, Ready s e.deliverable
  silent : ∀ e ∈ s.sends.retransmission ++ s.sends.newData, e.deliverable.packet.Silent

/-- Every association is there still, with no fewer addresses confirmed. -/
def Upholds (s s' : Socket) : Prop :=
  ∀ k a, s.find? k = some a → ∃ b, s'.find? k = some b ∧ ∀ address, Confirmed a address →
    Confirmed b address

theorem Upholds.refl (s : Socket) : Upholds s s := fun _ a found => ⟨a, found, fun _ => id⟩

theorem Upholds.of_find? {s s' : Socket} (same : ∀ k, s'.find? k = s.find? k) : Upholds s s' :=
  fun k a found => ⟨a, (same k).trans found, fun _ => id⟩

theorem Upholds.ready {s s' : Socket} {d : Deliverable} (upholds : Upholds s s')
    (ready : Ready s d) : Ready s' d := by
  obtain ⟨a, found, confirmed⟩ := ready
  obtain ⟨b, found', kept⟩ := upholds _ a found
  exact ⟨b, found', fun guards => kept _ (confirmed guards)⟩

theorem Upholds.present {s s' : Socket} {k : AssociationKey} (upholds : Upholds s s')
    (present : (s.find? k).isSome = true) : (s'.find? k).isSome = true := by
  obtain ⟨a, found⟩ := Option.isSome_iff_exists.mp present
  obtain ⟨b, found', -⟩ := upholds k a found
  rw [found']
  rfl

theorem Upholds.retries {s s' : Socket} {f : ExpirationFallback} (upholds : Upholds s s')
    (retries : Retries s f) :
    Retries s' f := 
  { retries with ready := upholds.ready retries.ready }

theorem Retries.of_find? {s s' : Socket} {f : ExpirationFallback} (retries : Retries s f)
    (same : ∀ k, s'.find? k = s.find? k) : Retries s' f := (Upholds.of_find? same).retries retries

namespace Standing

variable {s s' : Socket}

/-- Only associations change. -/
theorem upheld (standing : Standing s) (upholds : Upholds s s')
    (sound : ∀ k a, s'.find? k = some a → Sound a)
    (peerAddresses : s'.peerAddresses = s.peerAddresses)
    (expirations : s'.expirations = s.expirations) (sends : s'.sends = s.sends) : Standing s' where
  sound := sound
  listed := by
    rw [peerAddresses]
    exact fun peer owner here => upholds.present (standing.listed peer owner here)
  running := by
    rw [expirations]
    exact fun timer generation here => upholds.present (standing.running timer generation here)
  stamped := by
    rw [expirations]
    exact standing.stamped
  retries := by
    rw [expirations]
    exact fun f member live is => upholds.retries (standing.retries f member live is)
  nonempty := by
    rw [sends]
    exact standing.nonempty
  numbered := by
    rw [sends]
    exact standing.numbered
  ready := by
    rw [sends]
    exact fun e member is => upholds.ready (standing.ready e member is)
  quiet := by
    rw [sends]
    exact standing.quiet
  waiting := by
    rw [sends]
    exact fun e member => upholds.ready (standing.waiting e member)
  silent := by
    rw [sends]
    exact standing.silent

/-- The association under a key is replaced or goes, and everything kept for it goes. -/
theorem replaced (standing : Standing s) {key : AssociationKey}
    (others : ∀ k, k ≠ key → s'.find? k = s.find? k) (sound : ∀ a, s'.find? key = some a → Sound a)
    (listed : ∀ peer owner, s'.peerAddresses.get? peer = some owner → owner ≠ key
      ∧ s.peerAddresses.get? peer = some owner)
    (active : ∀ timer generation, s'.expirations.active.get? timer = some generation →
      timer.location ≠ key ∧ s.expirations.active.get? timer = some generation)
    (heap : s'.expirations.queue = s.expirations.queue)
      (next : s'.expirations.nextGeneration = s.expirations.nextGeneration)
    (sends : s'.sends = s.sends.purge key) : Standing s' where
  sound := by
    intro k a found
    by_cases here : k = key
    · rw [here] at found
      exact sound a found
    · rw [others k here] at found
      exact standing.sound k a found
  listed := by
    intro peer owner here
    obtain ⟨apart, before⟩ := listed peer owner here
    rw [others owner apart]
    exact standing.listed peer owner before
  running := by
    intro timer generation here
    obtain ⟨apart, before⟩ := active timer generation here
    rw [others _ apart]
    exact standing.running timer generation before
  stamped := by
    rw [heap, next]
    exact standing.stamped
  retries := by
    rw [heap]
    intro f member live is
    obtain ⟨apart, before⟩ := active _ _ live
    obtain ⟨location, nonempty, follows, silent, a, found, confirmed⟩ :=
      standing.retries f member before is
    refine ⟨location, nonempty, follows, silent, a, ?_, confirmed⟩
    rw [others _ (by rw [location]; exact apart)]
    exact found
  nonempty := by
    rw [sends]
    exact fun e member => standing.nonempty e (mem_purge member).1
  numbered := by
    rw [sends]
    exact fun e member => standing.numbered e (mem_purge member).1
  ready := by
    rw [sends]
    intro e member is
    obtain ⟨before, apart⟩ := mem_purge member
    obtain ⟨a, found, confirmed⟩ := standing.ready e before is
    exact ⟨a, (others _ apart).trans found, confirmed⟩
  quiet := by
    rw [sends]
    exact fun e member => standing.quiet e (mem_purge member).1
  waiting := by
    rw [sends]
    intro e member
    obtain ⟨before, apart⟩ := mem_waiting_purge member
    obtain ⟨a, found, confirmed⟩ := standing.waiting e before
    exact ⟨a, (others _ apart).trans found, confirmed⟩
  silent := by
    rw [sends]
    exact fun e member => standing.silent e (mem_waiting_purge member).1

end Standing

/-! ## What becomes of a TCB -/

section Tcb

variable {before : Option Association} {b : Association}

theorem Credited.confirmed {i : Nat} {a b : Association} (credited : Credited i a b)
    {address : SockAddr} (confirmed : Confirmed a address) : Confirmed b address := by
  unfold Confirmed at confirmed ⊢
  rw [credited.marks]
  clear credited
  generalize a.marks = marks at confirmed
  induction marks generalizing i with
  | nil => cases confirmed
  | cons mark rest ih =>
    rw [List.lookup_cons] at confirmed
    cases i with
    | zero =>
      rw [List.modify_zero_cons, List.lookup_cons]
      split at confirmed
      · rfl
      · exact confirmed
    | succ i =>
      rw [List.modify_succ_cons, List.lookup_cons]
      split at confirmed
      · exact confirmed
      · exact ih confirmed

theorem Credited.sound {i : Nat} {a b : Association} (credited : Credited i a b) (sound : Sound a) :
    Sound b where
  distinct := by
    have same : b.marks.map Prod.fst = a.marks.map Prod.fst := by
      rw [credited.marks]
      apply List.ext_getElem?
      intro j
      rw [List.getElem?_map, List.getElem?_modify, List.getElem?_map]
      cases a.marks[j]? with
      | none => rfl
      | some mark =>
        by_cases here : i = j
        · simp [here]
        · simp [here]
    rw [same]
    exact sound.distinct
  primary := by
    rw [credited.primaryPath]
    exact credited.confirmed sound.primary
  outstanding := by
    intro tsn o found
    rw [credited.outstanding] at found
    exact credited.confirmed (sound.outstanding tsn o found)

theorem withTieTags_only (draws : Draws) (a : Association) : withTieTags draws a = { a with
    localTieTag := (withTieTags draws a).localTieTag, peerTieTag :=
      (withTieTags draws a).peerTieTag } := by
  unfold withTieTags
  split <;> rfl

theorem TcbStep.sound (step : TcbStep before (some b)) (sound : ∀ a, before = some a → Sound a) :
    Sound b := by
  generalize after : some b = tcb at step
  cases step with
  | same => exact sound b after.symm
  | follows found follows =>
    cases after
    exact follows.sound (sound _ found)
  | @tie a draws found =>
    cases after
    rw [withTieTags_only]
    obtain ⟨distinct, primary, outstanding⟩ := sound a found
    exact ⟨distinct, primary, outstanding⟩
  | credit found _ credited =>
    cases after
    exact credited.sound (sound _ found)
  | @up a found =>
    cases after
    obtain ⟨distinct, primary, outstanding⟩ := sound a found
    exact ⟨distinct, primary, outstanding⟩
  | created _ begins =>
    cases after
    exact begins.sound
  | restarted cookie =>
    cases after
    exact (Deeds.begins_initNewAssociationFromCookie cookie).sound
  | ended => cases after

theorem TcbStep.tidy (step : TcbStep before (some b)) (tidy : ∀ a, before = some a → Tidy a) :
    Tidy b := by
  generalize after : some b = tcb at step
  cases step with
  | same => exact tidy b after.symm
  | follows found follows =>
    cases after
    exact follows.tidy (tidy _ found)
  | @tie a draws found =>
    cases after
    refine (tidy a found).congr ?_ ?_ ?_ ?_ ?_ ?_
    · rw [Deeds.state_withTieTags]
      exact id
    all_goals rw [withTieTags_only]
  | credit found _ credited =>
    cases after
    exact credited.tidy (tidy _ found)
  | @up a found =>
    cases after
    exact (tidy a found).congr nofun rfl rfl rfl rfl rfl
  | created _ begins =>
    cases after
    exact begins.tidy
  | restarted cookie =>
    cases after
    exact (Deeds.begins_initNewAssociationFromCookie cookie).tidy
  | ended => cases after

end Tcb

/-! ## Deeds -/

variable {heard : Evidence → Prop}

/-- The TCB under the key stays, with no fewer addresses confirmed. -/
inductive Remains (before : Option Association) : Option Association → Prop where
  | absent {after : Option Association} : before = none → Remains before after
  | present {a b : Association} :
      before = some a → (∀ address, Confirmed a address → Confirmed b address) →
        Remains before (some b)

theorem Upholds.of_remains {key : AssociationKey} {s s' : Socket}
    (others : ∀ k, k ≠ key → s'.find? k = s.find? k)
    (remains : Remains (s.find? key) (s'.find? key)) : Upholds s s' := by
  intro k a found
  by_cases here : k = key
  · subst here
    generalize after : s'.find? k = tcb at remains
    cases remains with
    | absent none =>
      rw [found] at none
      cases none
    | @present a' b before kept =>
      rw [found] at before
      cases before
      exact ⟨b, rfl, kept⟩
  · exact ⟨a, (others k here).trans found, fun _ => id⟩

theorem Follows.remains {a b : Association} (follows : Follows a b) : Remains (some a) (some b) :=
  .present rfl fun _ confirmed => follows.listed.confirmed confirmed

theorem Standing.of_tcb {key : AssociationKey} {s s' : Socket} (standing : Standing s)
    (deed : Deed heard key s s') :
    ∀ k a, s'.find? k = some a → Sound a := by
  intro k a found
  by_cases here : k = key
  · subst here
    have step := deed.tcb
    rw [found] at step
    exact step.sound (standing.sound k)
  · rw [deed.find?_other here] at found
    exact standing.sound k a found

section Parts

variable {s : Socket} {key : AssociationKey}

theorem mem_queued_enqueue {q : SendQueue} {d : Deliverable} {priority : SendPriority} {e : Queued}
    (member : e ∈ (q.enqueue d priority).queued) :
    e ∈ q.queued ∨ e = ⟨q.nextId, d⟩ ∧ (q.enqueue d priority).nextId = q.nextId + 1 := by
  cases priority with
  | control =>
    unfold SendQueue.enqueue at member ⊢
    simp only at member ⊢
    split at member
    · exact Or.inl member
    · next room =>
      rw [if_neg room]
      simp only [SendQueue.queued, List.mem_append, List.mem_singleton] at member ⊢
      grind
  | retransmission =>
    simp only [SendQueue.enqueue, SendQueue.queued, List.mem_append, List.mem_singleton] at member ⊢
    grind
  | newData =>
    simp only [SendQueue.enqueue, SendQueue.queued, List.mem_append, List.mem_singleton] at member ⊢
    grind

theorem nextId_le_enqueue (q : SendQueue) (d : Deliverable) (priority : SendPriority) :
    q.nextId ≤ (q.enqueue d priority).nextId := by
  cases priority with
  | control =>
    unfold SendQueue.enqueue
    simp only
    split
    · exact Nat.le_refl _
    · exact Nat.le_succ _
  | _ => exact Nat.le_succ _

theorem mem_waiting_enqueue {q : SendQueue} {d : Deliverable} {priority : SendPriority} {e : Queued}
    (member : e ∈ (q.enqueue d priority).retransmission ++ (q.enqueue d priority).newData) :
    e ∈ q.retransmission ++ q.newData ∨ e.deliverable = d ∧ priority ≠ .control := by
  cases priority with
  | control =>
    unfold SendQueue.enqueue at member
    simp only at member
    split at member
    · exact Or.inl member
    · exact Or.inl member
  | retransmission =>
    simp only [SendQueue.enqueue, List.mem_append, List.mem_singleton] at member ⊢
    grind
  | newData =>
    simp only [SendQueue.enqueue, List.mem_append, List.mem_singleton] at member ⊢
    grind

/-- What is fit to be queued is ready once it is. -/
theorem Fit.ready {d : Deliverable} (fit : Fit s key d)
    (sound : ∀ k a, s.find? k = some a → Sound a) (is : followedUp d.packet = true) :
    Ready s d := by
  obtain ⟨a, found⟩ := Option.isSome_iff_exists.mp (fit.present is)
  exact ⟨a, by rw [fit.location]; exact found, fun guards =>
    fit.confirmed guards a found (sound key a found)⟩

theorem Standing.enqueue (standing : Standing s) {d : Deliverable} {priority : SendPriority}
    (fit : Fit s key d) (follows : priority ≠ .control → followedUp d.packet = true) :
    Standing (s.enqueuePacket d priority) where
  sound := standing.sound
  listed := standing.listed
  running := standing.running
  stamped := standing.stamped
  retries := fun f member live is => (standing.retries f member live is).of_find? fun _ => rfl
  nonempty := by
    intro e member
    rcases mem_queued_enqueue member with before | ⟨rfl, -⟩
    · exact standing.nonempty e before
    · exact fit.nonempty
  numbered := by
    intro e member
    rcases mem_queued_enqueue member with before | ⟨rfl, next⟩
    · exact Nat.lt_of_lt_of_le (standing.numbered e before) (nextId_le_enqueue _ _ _)
    · exact Nat.lt_of_lt_of_eq (Nat.lt_succ_self _) next.symm
  ready := by
    intro e member is
    rcases mem_queued_enqueue member with before | ⟨rfl, -⟩
    · exact standing.ready e before is
    · exact fit.ready standing.sound is
  quiet := by
    intro e member is
    rcases mem_queued_enqueue member with before | ⟨rfl, -⟩
    · exact standing.quiet e before is
    · exact fit.silent is
  waiting := by
    intro e member
    rcases mem_waiting_enqueue member with before | ⟨rfl, other⟩
    · exact standing.waiting e before
    · exact fit.ready standing.sound (follows other)
  silent := by
    intro e member
    rcases mem_waiting_enqueue member with before | ⟨rfl, other⟩
    · exact standing.silent e before
    · exact fit.silent (follows other)

/-- A packet some chunks were dropped from. -/
theorem mem_dropChunks {sel : Queued → Bool} {what : Queued → Chunk → Bool} {queue : List Queued}
    {e : Queued} (member : e ∈ dropChunks sel what queue) :
    ∃ e' ∈ queue, e.id = e'.id ∧ e.deliverable.location = e'.deliverable.location
      ∧ e.deliverable.destination = e'.deliverable.destination ∧ e.deliverable.packet.chunks ≠ []
      ∧ e.deliverable.packet.chunks ⊆ e'.deliverable.packet.chunks := by
  unfold dropChunks at member
  obtain ⟨e', inside, made⟩ := List.mem_filterMap.mp member
  refine ⟨e', inside, ?_⟩
  simp only at made
  generalize kept : (if sel e' = true then e'.deliverable.packet.chunks.filter (fun c => !what e' c)
    else e'.deliverable.packet.chunks) = chunks at made
  have sub : chunks ⊆ e'.deliverable.packet.chunks := by
    rw [← kept]
    split
    · exact List.filter_subset_self _
    · exact fun _ => id
  split at made
  · cases made
  · next some =>
    cases made
    exact ⟨rfl, rfl, rfl, fun none => some (List.isEmpty_iff.mpr none), sub⟩

/-- Fewer chunks are guarded, followed up, or of a type, only if more are. -/
theorem any_of_subset {l m : List Chunk} {p : Chunk → Bool} (sub : l ⊆ m) (some : l.any p = true) :
    m.any p = true := by
  obtain ⟨chunk, member, is⟩ := List.any_eq_true.mp some
  exact List.any_eq_true.mpr ⟨chunk, sub member, is⟩

theorem Ready.of_subset {d d' : Deliverable} (location : d.location = d'.location)
    (destination : d.destination = d'.destination) (sub : d.packet.chunks ⊆ d'.packet.chunks)
    (ready : Ready s d') :
    Ready s d := by
  obtain ⟨a, found, confirmed⟩ := ready
  refine ⟨a, by rw [location]; exact found, fun guards => ?_⟩
  rw [destination]
  exact confirmed (any_of_subset sub guards)

theorem Packet.Silent.of_subset {packet packet' : Packet} (silent : packet'.Silent)
    (sub : packet.chunks ⊆ packet'.chunks) :
    packet.Silent where
  acks := by
    have before := List.filterMap_eq_nil_iff.mp silent.acks
    exact List.filterMap_eq_nil_iff.mpr fun chunk member => before chunk (sub member)
  apart := by
    have apart := silent.apart
    unfold Packet.mixed at apart ⊢
    rw [Bool.and_eq_false_iff] at apart ⊢
    refine apart.imp (fun none => ?_) fun none => ?_
    · rw [List.any_eq_false] at none ⊢
      exact fun chunk member => none chunk (sub member)
    · rw [List.any_eq_false] at none ⊢
      exact fun chunk member => none chunk (sub member)

theorem Standing.drop (standing : Standing s) (sel : Queued → Bool) (what : Queued → Chunk → Bool) :
    Standing { s with sends := { s.sends
      with retransmission := dropChunks sel what s.sends.retransmission } } := by
  have parts : ∀ e ∈ SendQueue.queued
      { s.sends with retransmission := dropChunks sel what s.sends.retransmission },
      e ∈ s.sends.queued ∨ e ∈ dropChunks sel what s.sends.retransmission := by
    intro e member
    simp only [SendQueue.queued, List.mem_append] at member ⊢
    grind
  have inQueue : ∀ e ∈ s.sends.retransmission, e ∈ s.sends.queued := by
    intro e member
    simp only [SendQueue.queued, List.mem_append]
    exact Or.inr (Or.inl member)
  refine ⟨standing.sound, standing.listed, standing.running, standing.stamped,
    fun f member live is =>
    (standing.retries f member live is).of_find? fun _ => rfl, ?_, ?_, ?_, ?_, ?_, ?_⟩
  · intro e member
    rcases parts e member with before | dropped
    · exact standing.nonempty e before
    · obtain ⟨-, -, -, -, -, some, -⟩ := mem_dropChunks dropped
      exact some
  · intro e member
    rcases parts e member with before | dropped
    · exact standing.numbered e before
    · obtain ⟨e', inside, id, -⟩ := mem_dropChunks dropped
      rw [id]
      exact standing.numbered e' (inQueue e' inside)
  · intro e member is
    rcases parts e member with before | dropped
    · exact standing.ready e before is
    · obtain ⟨e', inside, -, location, destination, -, sub⟩ := mem_dropChunks dropped
      exact (standing.ready e' (inQueue e' inside) (any_of_subset sub is)).of_subset location
        destination sub
  · intro e member is
    rcases parts e member with before | dropped
    · exact standing.quiet e before is
    · obtain ⟨e', inside, -, -, -, -, sub⟩ := mem_dropChunks dropped
      exact (standing.quiet e' (inQueue e' inside) (any_of_subset sub is)).of_subset sub
  · intro e member
    rcases List.mem_append.mp member with dropped | inside
    · obtain ⟨e', inside, -, location, destination, -, sub⟩ := mem_dropChunks dropped
      exact (standing.waiting e' (List.mem_append_left _ inside)).of_subset location destination sub
    · exact standing.waiting e (List.mem_append_right _ inside)
  · intro e member
    rcases List.mem_append.mp member with dropped | inside
    · obtain ⟨e', inside, -, -, -, -, sub⟩ := mem_dropChunks dropped
      exact (standing.silent e' (List.mem_append_left _ inside)).of_subset sub
    · exact standing.silent e (List.mem_append_right _ inside)

theorem Standing.schedule (standing : Standing s) {timer : ExpirationKey} {retry : Deliverable}
    (expiration : Time) (present : (s.find? timer.location).isSome = true)
    (fit : isT1 timer.type = true → Fit s timer.location retry ∧ followedUp retry.packet = true) :
    Standing (s.scheduleExpiration timer expiration retry) := by
  have active : ∀ t, (s.scheduleExpiration timer expiration retry).expirations.active.get? t
      = if t = timer then some s.expirations.nextGeneration else s.expirations.active.get? t :=
    fun t => KeyMap.get?_put _ _ _ _
  refine ⟨standing.sound, standing.listed, ?_, ?_, ?_, standing.nonempty, standing.numbered,
    standing.ready, standing.quiet, standing.waiting, standing.silent⟩
  · intro t generation here
    rw [active] at here
    split at here
    · next same =>
      rw [same]
      exact present
    · exact standing.running t generation here
  · intro f member
    rcases List.mem_append.mp member with before | last
    · exact Nat.lt_succ_of_lt (standing.stamped f before)
    · rw [List.mem_singleton.mp last]
      exact Nat.lt_succ_self _
  · intro f member live is
    rw [active] at live
    rcases List.mem_append.mp member with before | last
    · split at live
      · -- The timer was set anew: an entry of the heap before that is not the live one.
        have older := standing.stamped f before
        rw [Option.some.inj live] at older
        exact absurd older (Nat.lt_irrefl _)
      · exact (standing.retries f before live is).of_find? fun _ => rfl
    · rw [List.mem_singleton.mp last] at is ⊢
      obtain ⟨ready, follows⟩ := fit is
      obtain ⟨a, found⟩ := Option.isSome_iff_exists.mp present
      exact ⟨ready.location, ready.nonempty, follows, ready.silent follows, a, by
        rw [ready.location]; exact found, fun guards =>
        ready.confirmed guards a found (standing.sound _ a found)⟩

/-- Timers stop, or their heap loses entries. -/
theorem Standing.stop (standing : Standing s) {q : ExpirationQueue}
    (queue : q.queue ⊆ s.expirations.queue) (next : q.nextGeneration = s.expirations.nextGeneration)
    (active : ∀ timer generation, q.active.get? timer = some generation →
      s.expirations.active.get? timer = some generation) :
    Standing { s with expirations := q } := by
  refine ⟨standing.sound, standing.listed, fun timer generation here => ?_, fun f member => ?_,
    fun f member live is => ?_, standing.nonempty, standing.numbered, standing.ready,
      standing.quiet, standing.waiting, standing.silent⟩
  · exact standing.running timer generation (active timer generation here)
  · rw [next]
    exact standing.stamped f (queue member)
  · exact (standing.retries f (queue member) (active _ _ live) is).of_find? fun _ => rfl

theorem Standing.list (standing : Standing s) {peer : AssociationKey}
    (present : (s.find? key).isSome = true) :
    Standing { s with peerAddresses := s.peerAddresses.emplace peer key } := by
  refine ⟨standing.sound, fun peer' owner here => ?_, standing.running, standing.stamped, ?_,
    standing.nonempty, standing.numbered, standing.ready, standing.quiet, standing.waiting,
    standing.silent⟩
  · change (s.peerAddresses.emplace peer key).get? peer' = some owner at here
    rw [KeyMap.get?_emplace] at here
    split at here
    · cases before : s.peerAddresses.get? peer with
      | none =>
        rw [before] at here
        rw [← Option.some.inj here]
        exact present
      | some owner' =>
        rw [before] at here
        rw [← Option.some.inj here]
        exact standing.listed peer owner' before
    · exact standing.listed peer' owner here
  · exact fun f member live is => (standing.retries f member live is).of_find? fun _ => rfl

end Parts

/-! ## Ends -/

section Ends

variable (s : Socket) (key : AssociationKey)

theorem find?_forgetPeerAddresses {s : Socket} {key peer owner : AssociationKey}
    (here : (s.forgetPeerAddresses key).peerAddresses.get? peer = some owner) :
    owner ≠ key ∧ s.peerAddresses.get? peer = some owner := by
  rw [show (s.forgetPeerAddresses key).peerAddresses.get? peer = _ from KeyMap.get?_filterMap _ _ _,
    Option.bind_eq_some_iff] at here
  obtain ⟨owner', before, kept⟩ := here
  split at kept
  · cases kept
  · next apart =>
    cases kept
    exact ⟨apart, before⟩

theorem active_cancelAll {q : ExpirationQueue} {key : AssociationKey} {timer : ExpirationKey}
    {generation : Nat} (here : (q.cancelAll key).active.get? timer = some generation) :
    timer.location ≠ key ∧ q.active.get? timer = some generation := by
  rw [ExpirationQueue.cancelAll, KeyMap.get?_filterMap, Option.bind_eq_some_iff] at here
  obtain ⟨generation', before, kept⟩ := here
  split at kept
  · cases kept
  · next apart =>
    cases kept
    exact ⟨apart, before⟩

/-- What is cleared of a socket when an association goes. -/
structure Cleared (s s' : Socket) (key : AssociationKey) : Prop where
  peerAddresses : s'.peerAddresses = (s.forgetPeerAddresses key).peerAddresses
  expirations : s'.expirations = s.expirations.cancelAll key
  sends : s'.sends = s.sends.purge key

theorem cleared_removeAssociation : Cleared s (s.removeAssociation key) key := by
  unfold Socket.removeAssociation
  simp only
  split
  · exact ⟨rfl, rfl, rfl⟩
  · unfold Socket.abandonPartialDelivery
    split <;> exact ⟨rfl, rfl, rfl⟩

theorem cleared_tearDown : Cleared s (s.tearDown key) key := ⟨rfl, rfl, rfl⟩

theorem cleared_clearedFor (a : Association) : Cleared s (s.clearedFor key a) key := by
  unfold Socket.clearedFor Socket.abandonPartialDelivery
  split <;> exact ⟨rfl, rfl, rfl⟩

/-- An association goes, or another takes its place, and what was kept for it is cleared. -/
theorem Standing.cleared {s s' : Socket} {key : AssociationKey} (standing : Standing s)
    (cleared : Cleared s s' key) (others : ∀ k, k ≠ key → s'.find? k = s.find? k)
    (sound : ∀ a, s'.find? key = some a → Sound a) : Standing s' := by
  refine standing.replaced others sound (fun peer owner here => ?_) (fun timer generation here =>
    ?_) ?_ ?_ cleared.sends
  · rw [cleared.peerAddresses] at here
    exact find?_forgetPeerAddresses here
  · rw [cleared.expirations] at here
    exact active_cancelAll here
  · rw [cleared.expirations]
    rfl
  · rw [cleared.expirations]
    rfl

end Ends

theorem notes_only (s : Socket) (key : AssociationKey) (notes : List NotificationPayload) :
    ∃ q, notes.foldl (fun s note => s.notify key note) s = { s with notifications := q } := by
  induction notes generalizing s with
  | nil => exact ⟨_, rfl⟩
  | cons note rest ih =>
    obtain ⟨q, same⟩ := ih (s.notify key note)
    exact ⟨q, same⟩

/-- A deed keeps a socket in good standing. -/
theorem Deed.standing {key : AssociationKey} {s s' : Socket} (deed : Deed heard key s s')
    (standing : Standing s) :
    Standing s' := by
  have sound := standing.of_tcb deed
  have others : ∀ k, k ≠ key → s'.find? k = s.find? k := fun k apart => deed.find?_other apart
  cases deed with
  | update found succeeds =>
    refine standing.upheld (.of_remains others ?_) sound rfl rfl rfl
    simpa [found] using succeeds.toFollows.remains
  | @tie a draws found state =>
    refine standing.upheld (.of_remains others ?_) sound rfl rfl rfl
    simp only [Socket.find?_setAssociation, if_true]
    refine .present found fun address confirmed => ?_
    rw [withTieTags_only]
    exact confirmed
  | credit notes found _ heard credited =>
    obtain ⟨q, same⟩ := notes_only (s.setAssociation key _) key notes
    refine standing.upheld (.of_remains others ?_) sound (by rw [same]; rfl) (by rw [same]; rfl)
      (by rw [same]; rfl)
    rw [find?_notes, Socket.find?_setAssociation, if_pos rfl]
    exact .present found fun address confirmed => credited.confirmed confirmed
  | up found forms =>
    refine standing.upheld (.of_remains others ?_) sound rfl rfl rfl
    simp only [find?_notifyAssocChange, Socket.find?_setAssociation, if_true]
    exact .present found fun address confirmed => confirmed
  | created absent begins isUp =>
      exact standing.upheld (.of_remains others (.absent absent)) sound rfl rfl rfl
  | @restarted a cookie found restarts =>
    have cleared := cleared_clearedFor s key a
    exact standing.cleared ⟨cleared.peerAddresses, cleared.expirations, cleared.sends⟩ others
      fun a here => sound key a here
  | @collided a b found follows closed =>
    have rest := undisturbed_abandonPartialDelivery s key a
    refine standing.upheld (.of_remains others ?_) sound ?_ rest.expirations rest.sends
    · simpa [found] using follows.remains
    · unfold Socket.abandonPartialDelivery
      split <;> rfl
  | ended told found ends =>
    have cleared := cleared_removeAssociation s key
    exact standing.cleared ⟨cleared.peerAddresses, cleared.expirations, cleared.sends⟩ others
      fun a here => sound key a here
  | @violated a b found receives =>
    have cleared := cleared_removeAssociation (s.setAssociation key b) key
    exact standing.cleared ⟨cleared.peerAddresses, cleared.expirations, cleared.sends⟩ others
      fun a here => sound key a here
  | gaveUp found forms =>
      exact standing.cleared ⟨rfl, rfl, rfl⟩ others fun a here => sound key a here
  | deliver delivered found receives follows =>
    refine standing.upheld (.of_remains others ?_) sound rfl rfl rfl
    simpa [found] using follows.remains
  | enqueue d priority fit follows => exact standing.enqueue fit follows
  | schedule timer expiration retry here present fit =>
    subst here
    exact standing.schedule expiration present fit
  | stop q queue next active =>
    refine standing.stop (fun f member => by rw [queue] at member; exact member)
      next fun timer generation here => ?_
    rcases active timer with same | ⟨-, none, -⟩
    · rw [← same]
      exact here
    · rw [none] at here
      cases here
  | drop sel what chosen => exact standing.drop sel what
  | note payload is present => exact standing.upheld (.of_find? fun _ => rfl) sound rfl rfl rfl
  | list peer present => exact standing.list present
  | mint => exact standing.upheld (.of_find? fun _ => rfl) sound rfl rfl rfl

theorem Deeds.standing {key : AssociationKey} {s s' : Socket} (deeds : Deeds heard key s s')
    (standing : Standing s) :
    Standing s' := by
  induction deeds with
  | refl => exact standing
  | tail _ deed ih => exact deed.standing ih

end SctpStack
