import SctpStack.Standing

/-!
# The works of a socket

Everything a step does is a sequence of works: the deeds of a handler, and what the event
loop and the calls of the application do besides (`System.step_works`). So what every
work keeps holds of every reachable socket; in particular it is in good standing
(`System.Reached.standing`).
-/

namespace SctpStack

/-- One work: a deed, for which `heard` says what the event shows, or what is no handler's. -/
inductive Work (heard : Evidence → Prop) (event : Event) (s : Socket) : Socket → Prop where
  | deed (key : AssociationKey) {s' : Socket} : Deed heard key s s' → Work heard event s s'
  /-- The windows of every association are looked at. -/
  | all (f : AssociationKey → Association → Association) : (∀ k a, (f k a).outline = a.outline) →
      (∀ k a, Spares a (f k a)) → Work heard event s
        { s with associations := s.associations.mapVals f }
  | opened {draws : Draws} {toAddress : SockAddr} {port : Port} :
      event = .associate draws toAddress port → s.find? (peerKey toAddress port) = none →
      Work heard event s { s with
        associations := s.associations.emplace (peerKey toAddress port)
          (initNewAssociation draws toAddress) }
  | aborted {key : AssociationKey} {reason : Bytes} {a : Association} : event = .abort key reason →
      s.find? key = some a → Work heard event s (s.removeAssociation key)
  /-- A shutdown before the association is up. -/
  | withdrawn {now : Time} {key : AssociationKey} {a : Association} : event = .shutdown now key →
      s.find? key = some a → forming a.state = true → Work heard event s (s.tearDown key)
  | read (q : ReceiveQueue) : (∃ capacity, event = .recvData capacity
      ∧ q = (s.receives.readAny capacity).2
        ∨ ∃ key, event = .recvDataFrom key capacity ∧ q = (s.receives.readFrom key capacity).2) →
      Work heard event s { s with receives := q }
  | sent (q : SendQueue) : q.control.Sublist s.sends.control →
      q.retransmission.Sublist s.sends.retransmission → q.newData.Sublist s.sends.newData →
        q.nextId = s.sends.nextId → Work heard event s { s with sends := q }
  | expired {now : Time} {draws : Nat → Draws} (q : ExpirationQueue) : event = .expire now draws →
      q.queue ⊆ s.expirations.queue → q.nextGeneration = s.expirations.nextGeneration →
        (∀ timer generation, q.active.get? timer = some generation → s.expirations.active.get? timer
          = some generation) →
      Work heard event s { s with expirations := q }
  | attended (q : NotificationQueue) :
      (q = s.notifications.dequeue.2 ∨ ∃ type on, event = .subscribe type on
      ∧ q = s.notifications.setSubscribed type on) →
        Work heard event s { s with notifications := q }

variable {heard : Evidence → Prop}

abbrev Works (heard : Evidence → Prop) (event : Event) : Socket → Socket → Prop :=
  Relation.ReflTransGen (Work heard event)

theorem Works.of_deeds {event : Event} {key : AssociationKey} {s s' : Socket}
    (deeds : Deeds heard key s s') :
    Works heard event s s' := Relation.ReflTransGen.mono (fun _ _ deed => .deed key deed) _ _ deeds

theorem Works.enqueue {event : Event} {s : Socket} (key : AssociationKey) {d : Deliverable}
    (fit : Fit s key d) :
    Works heard event s (s.enqueuePacket d .control) := .of_deeds (Deeds.enqueue s fit)

/-! ## Good standing -/

theorem begins_initNewAssociation (draws : Draws) (destination : SockAddr) :
    Begins (initNewAssociation draws destination) := by
  have marks : (initNewAssociation draws destination).marks = [(destination.addr, true)] := rfl
  refine ⟨rfl, rfl, marks, ⟨?_, ?_, fun tsn o none => ?_⟩, Deeds.tidy_empty rfl rfl rfl⟩
  · rw [marks]
    exact List.nodup_singleton _
  · show (initNewAssociation draws destination).marks.lookup destination.addr = some true
    rw [marks]
    simp
  · exact absurd none (by rw [show
      (initNewAssociation draws destination).outstandingData = ∅ from rfl]; exact nofun)

theorem find?_emplace {s : Socket} {key : AssociationKey} (absent : s.find? key = none)
    (a : Association) (k : AssociationKey) :
    ({ s with associations := s.associations.emplace key a } : Socket).find? k
      = if k = key then some a else s.find? k := by
  refine (KeyMap.get?_emplace _ _ _ _).trans ?_
  rw [show s.associations.get? key = none from absent]
  rfl

theorem find?_mapVals (s : Socket) (f : AssociationKey → Association → Association)
    (k : AssociationKey) :
    ({ s with associations := s.associations.mapVals f } : Socket).find? k
      = (s.find? k).map (f k) :=
  KeyMap.get?_mapVals _ _ _

/-- A work keeps a socket in good standing. -/
theorem Work.standing {event : Event} {s s' : Socket} (work : Work heard event s s')
    (standing : Standing s) : Standing s' := by
  cases work with
  | deed key deed => exact deed.standing standing
  | all f outline =>
    refine standing.upheld (fun k a found => ⟨f k a, ?_, fun address confirmed => ?_⟩)
      (fun k b found => ?_) rfl rfl rfl
    · rw [find?_mapVals, found]
      rfl
    · exact (Listed.of_marks (congrArg Outline.marks (outline k a))).confirmed confirmed
    · rw [find?_mapVals, Option.map_eq_some_iff] at found
      obtain ⟨a, before, rfl⟩ := found
      exact (Succeeds.of_outline (outline k a)).sound (standing.sound k a before)
  | @opened draws toAddress port _ absent =>
    refine standing.upheld (fun k a found => ⟨a, ?_, fun _ => id⟩) (fun k a found => ?_) rfl rfl rfl
    · rw [find?_emplace absent, if_neg]
      · exact found
      · rintro rfl
        rw [absent] at found
        cases found
    · rw [find?_emplace absent] at found
      split at found
      · cases found
        exact (begins_initNewAssociation draws toAddress).sound
      · exact standing.sound k a found
  | @aborted key reason a _ found =>
    refine standing.cleared (cleared_removeAssociation s key) (fun k apart => by simp [apart])
      fun a here => ?_
    simp at here
  | @withdrawn now key a _ found forms =>
    refine standing.cleared (cleared_tearDown s key) (fun k apart => by simp [apart]) fun a here =>
      ?_
    simp at here
  | read q => exact standing.upheld (.of_find? fun _ => rfl) standing.sound rfl rfl rfl
  | sent q control retransmission newData next =>
    have sub : ∀ e ∈ q.queued, e ∈ s.sends.queued := by
      intro e member
      simp only [SendQueue.queued, List.mem_append] at member ⊢
      exact member.imp control.mem (Or.imp retransmission.mem newData.mem)
    refine ⟨standing.sound, standing.listed, standing.running, standing.stamped,
      fun f member live is =>
      (standing.retries f member live is).of_find? fun _ => rfl, fun e member =>
        standing.nonempty e (sub e member),
      fun e member => ?_, fun e member => standing.ready e (sub e member),
      fun e member => standing.quiet e (sub e member),
      fun e member => standing.waiting e ((retransmission.append newData).subset member),
      fun e member => standing.silent e ((retransmission.append newData).subset member)⟩
    rw [next]
    exact standing.numbered e (sub e member)
  | expired q _ queue next active => exact standing.stop queue next active
  | attended q => exact standing.upheld (.of_find? fun _ => rfl) standing.sound rfl rfl rfl

theorem Works.standing {event : Event} {s s' : Socket} (works : Works heard event s s')
    (standing : Standing s) :
    Standing s' := by
  induction works with
  | refl => exact standing
  | tail _ work ih => exact work.standing ih

theorem standing_fresh (address : SockAddr) : Standing (.fresh address) where
  sound := by simp [Socket.fresh, Socket.find?]
  listed := by simp [Socket.fresh]
  running := by simp [Socket.fresh, ExpirationQueue.fresh]
  stamped := by simp [Socket.fresh, ExpirationQueue.fresh]
  retries := by simp [Socket.fresh, ExpirationQueue.fresh]
  nonempty := by simp [Socket.fresh, SendQueue.fresh, SendQueue.queued]
  numbered := by simp [Socket.fresh, SendQueue.fresh, SendQueue.queued]
  ready := by simp [Socket.fresh, SendQueue.fresh, SendQueue.queued]
  quiet := by simp [Socket.fresh, SendQueue.fresh, SendQueue.queued]
  waiting := by simp [Socket.fresh, SendQueue.fresh]
  silent := by simp [Socket.fresh, SendQueue.fresh]

/-! ## Expiry -/

/-- An association still forming was there before, with no more addresses confirmed. -/
def Formed (s s' : Socket) : Prop :=
  ∀ k b, s'.find? k = some b → forming b.state = true →
    ∃ a, s.find? k = some a ∧ forming a.state = true ∧ ∀ address, Confirmed a address →
      Confirmed b address

theorem Formed.refl (s : Socket) : Formed s s :=
  fun _ b found forms => ⟨b, found, forms, fun _ => id⟩

theorem Formed.trans {s s' s'' : Socket} (first : Formed s s') (second : Formed s' s'') :
    Formed s s'' := by
  intro k c found forms
  obtain ⟨b, found', forms', kept⟩ := second k c found forms
  obtain ⟨a, found'', forms'', kept'⟩ := first k b found' forms'
  exact ⟨a, found'', forms'', fun address confirmed => kept address (kept' address confirmed)⟩

/-- What a handler creates is up at once. -/
theorem Deed.formed {key : AssociationKey} {s s' : Socket} (deed : Deed heard key s s') :
    Formed s s' := by
  intro k b found forms
  by_cases here : k = key
  · subst here
    have step := deed.tcb
    rw [found] at step
    generalize after : some b = tcb at step
    cases step with
    | same => exact ⟨b, after.symm, forms, fun _ => id⟩
    | follows before follows =>
      cases after
      rw [follows.forming] at forms
      exact ⟨_, before, forms, fun _ confirmed => follows.listed.confirmed confirmed⟩
    | @tie a draws before =>
      cases after
      rw [Deeds.state_withTieTags] at forms
      refine ⟨a, before, forms, fun address confirmed => ?_⟩
      rw [withTieTags_only]
      exact confirmed
    | credit before _ credited =>
      cases after
      rw [credited.state] at forms
      exact ⟨_, before, forms, fun _ confirmed => credited.confirmed confirmed⟩
    | up =>
      cases after
      cases forms
    | created _ _ isUp =>
      cases after
      rw [isUp] at forms
      cases forms
    | restarted =>
      cases after
      cases forms
    | ended => cases after
  · rw [deed.find?_other here] at found
    exact ⟨b, found, forms, fun _ => id⟩

theorem Deeds.formed {key : AssociationKey} {s s' : Socket} (deeds : Deeds heard key s s') :
    Formed s s' := by
  induction deeds with
  | refl => exact .refl _
  | tail _ deed ih => exact ih.trans deed.formed

namespace ExpirationQueue

/-- A timer that goes off was running. -/
theorem drainExpiredFrom_live (now : Time) (fuel : Nat) (q : ExpirationQueue) :
    (∀ f ∈ (drainExpiredFrom now fuel q).1, q.active.get? f.key = some f.generation)
      ∧ (drainExpiredFrom now fuel q).2.nextGeneration = q.nextGeneration
      ∧ ∀ timer generation, (drainExpiredFrom now fuel q).2.active.get? timer = some generation →
        q.active.get? timer = some generation := by
  induction fuel generalizing q with
  | zero => exact ⟨fun _ member => absurd member List.not_mem_nil, rfl, fun _ _ => id⟩
  | succ fuel ih =>
    unfold drainExpiredFrom
    cases popped : popTop q.queue with
    | none => exact ⟨fun _ member => absurd member List.not_mem_nil, rfl, fun _ _ => id⟩
    | some pair =>
      obtain ⟨top, rest⟩ := pair
      simp only
      split
      · split
        · next live =>
          obtain ⟨off, next, running⟩ := ih (cancel { q with queue := rest } top.key)
          have before : ∀ timer generation, (cancel { q with queue := rest } top.key).active.get?
            timer = some generation →
              q.active.get? timer = some generation := by
            intro timer generation here
            rw [cancel, KeyMap.get?_erase] at here
            split at here
            · cases here
            · exact here
          refine ⟨fun f member => ?_, next, fun timer generation here =>
            before _ _ (running _ _ here)⟩
          rcases List.mem_cons.mp member with rfl | later
          · exact live
          · exact before _ _ (off f later)
        · exact ih { q with queue := rest }
      · exact ⟨fun _ member => absurd member List.not_mem_nil, rfl, fun _ _ => id⟩

end ExpirationQueue

/-- A timer that goes off acts for its association: a handshake that still goes on did so
when the timers were taken off the heap. -/
theorem Deeds.expires {s₀ s₁ : Socket} {f : ExpirationFallback} (formed : Formed s₀ s₁)
    (retries : isT1 f.key.type = true → Retries s₀ f)
    (probed : f.key.type = .heartbeat → heard .probed) (now : Time) (draws : Draws) :
    Deeds heard f.key.location s₁ (s₁.handleExpiration now draws f) := by
  refine Deeds.handleExpiration s₁ now draws f (fun is b found forms => ?_) probed
  obtain ⟨location, nonempty, follows, silent, a, before, confirmed⟩ := retries is
  refine ⟨⟨location, nonempty, Or.inl silent, fun _ => by rw [found]; rfl,
    fun guards b' here sound => ?_⟩, follows⟩
  rw [found] at here
  cases here
  obtain ⟨a', before', -, kept⟩ := formed _ b found forms
  rw [location, before'] at before
  cases before
  exact kept _ (confirmed guards)

theorem Works.runExpire {event : Event} {s : Socket} (standing : Standing s)
    (probed : heard .probed) {now : Time} {draws : Nat → Draws} (is : event = .expire now draws) :
    Works heard event s (s.runExpire now draws) := by
  obtain ⟨queued, left, -⟩ := ExpirationQueue.drainExpiredFrom_spec now s.expirations.queue.length
    s.expirations
  obtain ⟨off, next, running⟩ :=
    ExpirationQueue.drainExpiredFrom_live now s.expirations.queue.length s.expirations
  have drained : Works heard event s { s with expirations := (s.expirations.drainExpired now).2 } :=
    .single (.expired _ is left next running)
  have retries : ∀ f ∈ (s.expirations.drainExpired now).1, isT1 f.key.type = true →
      Retries { s with expirations := (s.expirations.drainExpired now).2 } f :=
    fun f member is => (standing.retries f (queued f member) (off f member) is).of_find? fun _ =>
      rfl
  unfold Socket.runExpire
  simp only
  refine drained.trans ?_
  revert retries
  generalize ({ s with expirations := (s.expirations.drainExpired now).2 } : Socket) = s₀
  generalize indices : (s.expirations.drainExpired now).1.zipIdx = expired
  intro retries
  have each : ∀ pair ∈ expired, isT1 pair.1.key.type = true → Retries s₀ pair.1 := by
    intro pair member
    rw [← indices] at member
    exact retries _ (List.fst_mem_of_mem_zipIdx member)
  clear indices retries
  have along : ∀ (expired : List (ExpirationFallback × Nat)) (s₁ : Socket), Formed s₀ s₁ →
      (∀ pair ∈ expired, isT1 pair.1.key.type = true → Retries s₀ pair.1) →
      Works heard event s₁ (expired.foldl (fun s pair =>
        s.handleExpiration now (draws pair.2) pair.1) s₁) := by
    intro expired
    induction expired with
    | nil => exact fun s₁ _ _ => .refl
    | cons pair rest ih =>
      intro s₁ formed each
      obtain ⟨head, tail⟩ := List.forall_mem_cons.mp each
      have handled : Deeds heard pair.1.key.location s₁
          (s₁.handleExpiration now (draws pair.2) pair.1) :=
        .expires formed head (fun _ => probed) now (draws pair.2)
      exact (Works.of_deeds handled).trans (ih _ (formed.trans handled.formed) tail)
  exact along expired s₀ (.refl s₀) each

/-! ## Sending -/

section Sending

variable {event : Event} {s : Socket}

theorem marks_map (l : List PeerPath) {f : PeerPath → PeerPath} (keeps : KeepsMark f) :
    (l.map f).map (fun path => (path.address.addr, path.confirmed)) = l.map fun path =>
      (path.address.addr, path.confirmed) := by
  rw [List.map_map]
  refine List.map_congr_left fun path _ => ?_
  rw [Function.comp_apply, (keeps path).1, (keeps path).2]

theorem outline_decayPaths (now : Time) (a : Association) :
    (decayPaths now a).outline = a.outline := by
  have keeps : KeepsMark (decayIdleCwnd a.pmdcs now) := by
    intro path
    unfold decayIdleCwnd
    simp only
    (repeat' split) <;> exact ⟨rfl, rfl⟩
  unfold Association.outline
  rw [show (decayPaths now a).marks = a.marks from marks_map _ keeps]
  rfl

theorem probes_decayPaths (now : Time) (a : Association) :
    (decayPaths now a).probes = a.probes := by
  have keeps : KeepsProbe (decayIdleCwnd a.pmdcs now) := by
    intro path
    unfold decayIdleCwnd
    simp only
    (repeat' split) <;> rfl
  exact List.map_map.trans (List.map_congr_left fun path _ => keeps path)

theorem Works.sendAllowances (s : Socket) (now : Time) :
    Works heard event s (s.sendAllowances now).1 := by
  refine .single (.all _ (fun k a => ?_) fun k a => ?_)
  · split
    · exact outline_decayPaths now a
    · rfl
  · split
    · exact .of_eq rfl (probes_decayPaths now a)
    · exact .refl a

theorem Works.foldl {α : Type} {f : Socket → α → Socket} (each : ∀ s x, Works heard event s (f s x))
    (l : List α) (s : Socket) :
    Works heard event s (l.foldl f s) := by
  induction l generalizing s with
  | nil => exact .refl
  | cons x rest ih => exact (each s x).trans (ih (f s x))

theorem Works.refillNewDataFor (r : Socket.Refill) (key : AssociationKey) :
    Works heard event r.socket (Socket.refillNewDataFor r key).socket := by
  rcases refillNewDataFor_cases r key with same | ⟨allowance, a, -, found, -, -, -, -, done⟩
  · rw [same]
  · have only : CutOnly a (cutNewData a allowance).assoc :=
      (cutNewDataFrom_spec allowance (a.pmdcs + 1) a 0 true).1
    have cut : Deeds heard key r.socket
        (r.socket.setAssociation key (cutNewData a allowance).assoc) := by
      refine Deeds.set found (.of_outline ?_) (Spares.minds ?_)
      · rw [only]
        rfl
      · rw [only]
        exact .of_eq rfl rfl
    rcases done with ⟨-, socket, -⟩ | ⟨some, socket, -⟩
    · rw [socket]
      exact .of_deeds cut
    · rw [socket]
      refine .of_deeds (cut.tail (.enqueue _ _
        (.found (a := (cutNewData a allowance).assoc)
        (by simp) rfl ?_ (Or.inl (Deeds.silent_buildData _ _ _ _)) fun sound => sound.dataPath)
          fun _ => Deeds.followedUp_buildData some))
      intro none
      rw [buildData, packetWithHeader, List.map_eq_nil_iff] at none
      exact some none

theorem Works.refilled (s : Socket) (now : Time) : Works heard event s (s.refilled now).socket := by
  have queued : Works heard event
      s ((s.sendAllowances now).1.refillRetransmissions (s.sendAllowances now).2) := by
    refine (Works.sendAllowances s now).trans (Works.foldl (fun s key => ?_) _ _)
    split
    · exact .refl
    · exact .of_deeds (Deeds.schedulePendingRetransmission s key true)
  exact List.foldlRecOn (motive := fun r : Socket.Refill => Works heard event s r.socket)
    (s.sendAllowances now).2.keys Socket.refillNewDataFor queued fun r holds key _ =>
      holds.trans (Works.refillNewDataFor r key)

theorem Works.armed (s : Socket) (now : Time) : Works heard event s (s.armed now) := by
  have peeked : Works heard event
      s { (s.refilled now).socket with sends := (s.peeked now).2.1 } := by
    obtain ⟨blocked, same⟩ := peek_queues (s.refilled now).socket.sends now
      (s.refilled now).allowances
    refine (Works.refilled s now).tail (.sent _ ?_ ?_ ?_ ?_)
    all_goals rw [Socket.peeked, same]
  refine peeked.trans (Works.foldl (fun s entry => ?_) _ _)
  unfold Socket.armZeroWindowProbe
  simp only
  split
  · exact .refl
  · cases found : s.find? entry.1 with
    | none => exact .refl
    | some a =>
      simp only
      split
      · exact .refl
      · exact .of_deeds (Deeds.schedule s entry.1 rfl rfl (by rw [found]; rfl) _ _)

/-- What is found to send is queued. -/
theorem peek_mem {q : SendQueue} {now : Time} {allowances : SendAllowances} {p : Pending}
    (picked : (q.peek now allowances).1 = some p) :
    ∃ e ∈ q.queued, e.deliverable = p.deliverable
      ∧ (p.priority ≠ .control → e ∈ q.retransmission ++ q.newData) := by
  unfold SendQueue.peek at picked
  split at picked
  · cases picked
  · cases control : q.control with
    | cons e rest =>
      simp only [control] at picked
      cases picked
      exact ⟨e, by simp [SendQueue.queued, control], rfl, fun other => absurd rfl other⟩
    | nil =>
      cases retransmission : q.retransmission with
      | cons e rest =>
        simp only [control, retransmission] at picked
        cases picked
        exact ⟨e, by simp [SendQueue.queued, retransmission], rfl, fun _ => by simp⟩
      | nil =>
        simp only [control, retransmission] at picked
        split at picked
        · next p' allowances' found =>
          have first : (SendQueue.peekNewData allowances [] q.newData).1 = some p' := by rw [found]
          obtain ⟨e, member, rfl⟩ := mem_peekNewData first
          cases picked
          exact ⟨e, by simp [SendQueue.queued, member], rfl, fun _ => by simp [member]⟩
        · cases picked

/-- An INIT or a COOKIE ECHO goes without a SACK. -/
def Packet.Opening (packet : Packet) : Prop :=
  ∀ chunk ∈ packet.chunks, chunk.type = .init ∨ chunk.type = .cookieEcho → packet.Silent

/-- A packet on its way out. -/
structure Outgoing (s : Socket) (p : Pending) : Prop where
  nonempty : p.deliverable.packet.chunks ≠ []
  ready : followedUp p.deliverable.packet = true ∨ p.priority ≠ .control → Ready s p.deliverable
  /-- A SACK that goes with it says what was received so far. -/
  current : p.priority ≠ .control → ∀ a, s.find? p.deliverable.location = some a →
    ∀ tsn ∈ p.deliverable.packet.acks, forming a.state = false ∧ tsn = a.lastPeerTsn
  opening : p.deliverable.packet.Opening

theorem acks_of_values {header header' : CommonHeader} {chunks chunks' : List Chunk}
    (values : chunks'.map Chunk.value = chunks.map Chunk.value) :
    Packet.acks ⟨header', chunks'⟩ = Packet.acks ⟨header, chunks⟩ := by
  have each : ∀ l : List Chunk, l.filterMap Chunk.acked
      = (l.map Chunk.value).filterMap fun value => Chunk.acked ⟨0#8, value⟩ := by
    intro l
    rw [List.filterMap_map]
    rfl
  exact (each chunks').trans ((congrArg _ values).trans (each chunks).symm)

theorem nonempty_of_values {chunks chunks' : List Chunk}
    (values : chunks'.map Chunk.value = chunks.map Chunk.value) (some : chunks ≠ []) :
    chunks' ≠ [] := by
  rintro rfl
  exact some (List.map_eq_nil_iff.mp values.symm)

/-- What goes with DATA in a packet that acknowledges nothing is DATA. -/
theorem Packet.Silent.data {packet : Packet} (silent : packet.Silent)
    (data : packet.chunks.any (fun chunk => decide (chunk.type = .data)) = true) :
    ∀ chunk ∈ packet.chunks, chunk.type = .data := by
  intro chunk member
  have apart := silent.apart
  rw [Packet.mixed, data, Bool.true_and, List.any_eq_false] at apart
  have is := apart chunk member
  rw [decide_eq_true_eq, not_not] at is
  exact is

theorem opening_of_values {header : CommonHeader} {chunks chunks' : List Chunk} (more : List Chunk)
    (values : chunks'.map Chunk.value = chunks.map Chunk.value)
    (data : ∀ chunk ∈ chunks, chunk.type = .data) (alone : ∀ chunk ∈ more, chunk.type = .sack) :
    Packet.Opening ⟨header, more ++ chunks'⟩ := by
  intro chunk member either
  rcases List.mem_append.mp member with added | kept
  · rw [alone chunk added] at either
    exact absurd either (by decide)
  · have value : chunk.value ∈ chunks.map Chunk.value := by
      rw [← values]
      exact List.mem_map_of_mem kept
    obtain ⟨chunk', inside, same⟩ := List.mem_map.mp value
    have is : chunk.type = .data := by
      rw [← data chunk' inside, Chunk.type, Chunk.type, same]
    rw [is] at either
    exact absurd either (by decide)

/-- What is bundled with DATA goes where the DATA goes. -/
theorem Works.prepareDataPacket {d : Deliverable} (ready : Ready s d)
    (nonempty : d.packet.chunks ≠ []) (silent : d.packet.Silent) (newData : Bool) :
    Works heard event s (s.prepareDataPacket d newData).1
      ∧ Ready (s.prepareDataPacket d newData).1 (s.prepareDataPacket d newData).2
      ∧ (s.prepareDataPacket d newData).2.packet.chunks ≠ []
      ∧ (s.prepareDataPacket d newData).2.packet.Opening
      ∧ ∀ b, (s.prepareDataPacket d newData).1.find? d.location = some b →
        ∀ tsn ∈ (s.prepareDataPacket d newData).2.packet.acks, forming b.state = false
        ∧ tsn = b.lastPeerTsn := by
  unfold Socket.prepareDataPacket
  simp only
  split
  · refine ⟨.refl, ready, nonempty, fun _ _ _ => silent, fun b _ tsn member => ?_⟩
    rw [silent.acks] at member
    cases member
  · next data =>
    rw [Bool.not_eq_true', Bool.not_eq_false] at data
    obtain ⟨a, found, confirmed⟩ := ready
    have guards : guarded d.packet = true := by
      obtain ⟨chunk, member, is⟩ := List.any_eq_true.mp data
      exact List.any_eq_true.mpr ⟨chunk, member, by rw [of_decide_eq_true is]; rfl⟩
    have here := confirmed guards
    rw [found]
    simp only
    generalize (_ || _ || decide (a.state = .shutdownPending)) = on
    have values : (if on then setImmediate d.packet.chunks else d.packet.chunks).map Chunk.value
        = d.packet.chunks.map Chunk.value := by
      rw [apply_ite (List.map Chunk.value), values_setImmediate, ite_self]
    have immediate := nonempty_of_values values nonempty
    have none : Packet.acks ⟨d.packet.header,
        if on then setImmediate d.packet.chunks else d.packet.chunks⟩ = [] :=
      (acks_of_values values).trans silent.acks
    revert values immediate none
    generalize (if on = true then setImmediate d.packet.chunks else d.packet.chunks) = chunks
    intro values immediate none
    have alone : Packet.Opening ⟨d.packet.header, chunks⟩ :=
      opening_of_values [] values (silent.data data) fun _ none => absurd none List.not_mem_nil
    have nothing : ∀ b : Association, ∀ tsn ∈ Packet.acks ⟨d.packet.header, chunks⟩,
        forming b.state = false ∧ tsn = b.lastPeerTsn := by
      intro b tsn member
      rw [none] at member
      cases member
    split
    · exact ⟨.refl, ⟨a, found, fun _ => here⟩, immediate, alone, fun b _ => nothing b⟩
    · next delays =>
      simp only [Bool.or_eq_true, Bool.not_eq_true', not_or, Bool.not_eq_false] at delays
      have up := up_of_receivesData delays.2
      have built : Deeds heard d.location s
          (s.setAssociation d.location (s.makeSack d.location a).2) :=
        Deeds.set found (.of_outline rfl) (Spares.of_eq rfl rfl).minds
      have sacked := built.trans (Deeds.cancel _ d.location
        (rfl : (timerOf d.location .delayedSack).location = d.location) nofun)
      have found' : ((s.setAssociation d.location (s.makeSack d.location a).2).cancelExpiration
          (timerOf d.location .delayedSack)).find? d.location
            = some (s.makeSack d.location a).2 := by simp
      split
      · refine ⟨.of_deeds sacked, ⟨_, found', fun _ => here⟩, by simp [immediate],
          opening_of_values [_] values (silent.data data) fun _ is => by
            rw [List.mem_singleton.mp is]; rfl,
          fun b after tsn member => ?_⟩
        cases found'.symm.trans after
        change tsn ∈ a.lastPeerTsn :: Packet.acks ⟨d.packet.header, chunks⟩ at member
        rw [none] at member
        exact ⟨up, List.mem_singleton.mp member⟩
      · have fit : Fit _ d.location ⟨d.location, d.destination, (s.makeSack d.location a).1⟩ :=
          .found found' rfl (List.cons_ne_nil _ _)
            (Or.inr ⟨up, rfl, fun _ => List.mem_singleton.mp⟩)
            fun _ => here
        exact ⟨.of_deeds (sacked.trans (Deeds.enqueue _ fit)), ⟨_, found', fun _ => here⟩,
          immediate, alone, fun b _ => nothing b⟩

theorem Works.nextPacket (standing : Standing s) (now : Time) :
    Works heard event s (s.nextPacket now).socket
    ∧ ∀ p, (s.nextPacket now).pending = some p → Outgoing (s.nextPacket now).socket p := by
  have armed : Works heard event s (s.armed now) := .armed s now
  have standing' := armed.standing standing
  have sends : (s.armed now).sends = (s.peeked now).2.1 := armZeroWindowProbes_sends _ now _
  obtain ⟨blocked, same⟩ := peek_queues (s.refilled now).socket.sends now
    (s.refilled now).allowances
  rw [Socket.peeked, same] at sends
  have picks : ∀ p, (s.peeked now).1 = some p →
      Outgoing (s.armed now) p ∧ (p.priority ≠ .control → p.deliverable.packet.Silent) := by
    intro p picked
    obtain ⟨e, member, is, other⟩ := peek_mem picked
    have inside : e ∈ (s.armed now).sends.queued := by
      rw [sends]
      exact member
    have waiting : p.priority ≠ .control → e ∈ (s.armed now).sends.retransmission
        ++ (s.armed now).sends.newData := by
      intro waits
      rw [sends]
      exact other waits
    rw [← is]
    refine ⟨⟨by rw [← is]; exact standing'.nonempty e inside, fun either => ?_,
      fun waits a _ tsn member => ?_,
      fun chunk member either => ?_⟩, fun waits => standing'.silent e (waiting waits)⟩
    · rw [← is] at either ⊢
      rcases either with follows | waits
      · exact standing'.ready e inside follows
      · exact standing'.waiting e (waiting waits)
    · rw [← is, (standing'.silent e (waiting waits)).acks] at member
      cases member
    · rw [← is] at member ⊢
      exact standing'.quiet e inside
        (List.any_eq_true.mpr ⟨chunk, member, decide_eq_true (Or.inr either.symm)⟩)
  rw [nextPacket_eq]
  cases picked : (s.peeked now).1 with
  | none => exact ⟨armed, fun p is => absurd is (Option.some_ne_none p).symm⟩
  | some p =>
    obtain ⟨out, silent⟩ := picks p picked
    simp only
    split
    · refine ⟨armed, fun p' is => ?_⟩
      cases is
      exact out
    · next other =>
      obtain ⟨prepared, ready, some, opening, current⟩ : Works heard event (s.armed now) _ ∧ _ :=
        Works.prepareDataPacket (out.ready (Or.inr other)) out.nonempty (silent other)
          (decide (p.priority = .newData))
      refine ⟨armed.trans prepared, fun p' is => ?_⟩
      cases is
      have location := (prepareDataPacket_spec (s.armed now) p.deliverable
        (decide (p.priority = .newData))).location
      refine ⟨some, fun _ => ready, fun _ b found => current b ?_, opening⟩
      rw [← location]
      exact found

/-! ## After a packet went out -/

theorem outline_of_rest {a b : Association} (marks : b.marks = a.marks)
    (rest : { b.outline with marks := [], outstandingData := ∅ }
      = { a.outline with marks := [], outstandingData := ∅ }) :
    { b.outline with outstandingData := a.outstandingData } = a.outline := by
  have both := congrArg (fun o => { o with marks := a.marks, outstandingData := a.outstandingData })
    rest
  have same : { b.outline with outstandingData := a.outstandingData }
      = { b.outline with marks := a.marks, outstandingData := a.outstandingData } := by
    rw [← marks]
    rfl
  exact same.trans both

/-- DATA sent to a confirmed address is outstanding on a confirmed path. -/
theorem succeeds_recordDataSentIn {a : Association} {destination : SockAddr}
    (confirmed : Confirmed a destination) (data : DataChunkValue) (sentAt : Time) :
    Succeeds a (recordDataSentIn a destination data sentAt) := by
  have sent : KeepsMark fun path => { path with dataSentAt := sentAt, idleDecaying := false } :=
    fun _ => ⟨rfl, rfl⟩
  have new : KeepsMark fun path => { path with newDataSentAt := sentAt } := fun _ => ⟨rfl, rfl⟩
  have marked := marks_modifyPath a (sentOn a destination) sent
  have marks : (recordDataSentIn a destination data sentAt).marks = a.marks := by
    unfold recordDataSentIn
    simp only
    split
    · exact marked
    · exact (marks_modifyPath _ (sentOn a destination) new).trans marked
  refine .of_outstanding (outline_of_rest marks ?_) fun sound tsn o found => ?_
  · unfold recordDataSentIn
    simp only
    split <;> rfl
  · have here := confirmed_path sound.distinct (confirmed_sentOn confirmed)
    rw [get?_recordDataSentIn] at found
    split at found
    · cases before : a.outstandingData.get? tsn with
      | none =>
        rw [before] at found
        cases found
        exact here
      | some o' =>
        rw [before] at found
        cases found
        exact here
    · exact sound.outstanding tsn o found

theorem spares_recordDataSentIn (a : Association) (destination : SockAddr) (data : DataChunkValue)
    (sentAt : Time) :
    Spares a (recordDataSentIn a destination data sentAt) := by
  have sent : KeepsProbe fun path => { path with dataSentAt := sentAt, idleDecaying := false } :=
    fun _ => rfl
  have new : KeepsProbe fun path => { path with newDataSentAt := sentAt } := fun _ => rfl
  have probes := probes_modifyPath a (sentOn a destination) sent
  unfold recordDataSentIn
  simp only
  split
  · exact .of_eq rfl probes
  · exact .of_eq rfl ((probes_modifyPath _ (sentOn a destination) new).trans probes)

theorem Upholds.update {s : Socket} {key : AssociationKey} {f : Association → Association}
    (kept : ∀ a, s.find? key = some a → ∀ address, Confirmed a address → Confirmed (f a) address) :
    Upholds s (s.updateAssociation key f) := by
  intro k a found
  by_cases here : k = key
  · subst here
    exact ⟨f a, by rw [Socket.find?_updateAssociation, if_pos rfl, found]; rfl, kept a found⟩
  · exact ⟨a, by rw [Socket.find?_updateAssociation, if_neg here]; exact found, fun _ => id⟩

/-- T1 is armed for a packet that is ready. -/
theorem armT1 {d : Deliverable} {type : ExpirationTimerType} {expected : AssociationState}
    {retransmits : Association → Nat} (nonempty : d.packet.chunks ≠ []) (silent : d.packet.Silent)
    (follows : followedUp d.packet = true) (ready : Ready s d) (sentAt : Time) :
    Deeds heard d.location s (match s.find? d.location with
      | none => s
      | some a =>
        if a.state ≠ expected then s
        else s.scheduleExpiration (timerOf d.location type)
          (sentAt + usec (Socket.backedOffT1 (retransmits a))) d)
    ∧ Upholds s (match s.find? d.location with
      | none => s
      | some a =>
        if a.state ≠ expected then s
        else s.scheduleExpiration (timerOf d.location type)
          (sentAt + usec (Socket.backedOffT1 (retransmits a))) d) := by
  obtain ⟨a, found, confirmed⟩ := ready
  rw [found]
  simp only
  split
  · exact ⟨.refl, .refl s⟩
  · refine ⟨.single (.schedule _ _ _ rfl (by rw [found]; rfl) fun _ =>
      ⟨⟨rfl, nonempty, Or.inl silent, fun _ => by rw [found]; rfl,
      fun guards b here _ => ?_⟩, follows⟩), .of_find? fun _ => rfl⟩
    rw [found] at here
    cases here
    exact confirmed guards

theorem outline_heartbeatSent (a : Association) (destination : SockAddr) (sentAt : Time) :
    (match findPath a destination with
      | none => a
      | some i => a.modifyPath i fun path => if path.hbOutstanding
          then { path with hbSentAt := sentAt } else path).outline
        = a.outline := by
  split
  · rfl
  · refine outline_modifyPath a _ fun path => ?_
    split <;> exact ⟨rfl, rfl⟩

theorem spares_heartbeatSent (a : Association) (destination : SockAddr) (sentAt : Time) :
    Spares a (match findPath a destination with
      | none => a
      | some i => a.modifyPath i fun path => if path.hbOutstanding
          then { path with hbSentAt := sentAt } else path) := by
  split
  · exact .refl a
  · refine spares_modifyPath a _ fun path => ?_
    split <;> rfl

theorem chunkSent {d : Deliverable} {chunk : Chunk} (member : chunk ∈ d.packet.chunks)
    (opening : d.packet.Opening) (ready : followedUp d.packet = true → Ready s d) (sentAt : Time) :
    Deeds heard d.location s (s.chunkSent d sentAt chunk)
      ∧ Upholds s (s.chunkSent d sentAt chunk) := by
  have nonempty : d.packet.chunks ≠ [] := List.ne_nil_of_mem member
  unfold Socket.chunkSent
  simp only
  cases value : chunk.value with
  | heartbeat info =>
    have outline := fun a : Association => outline_heartbeatSent a d.destination sentAt
    refine ⟨Deeds.adjust s d.location outline fun a =>
      (spares_heartbeatSent a d.destination sentAt).minds, .update fun a _ address confirmed => ?_⟩
    exact (Listed.of_marks (congrArg Outline.marks (outline a))).confirmed confirmed
  | data data =>
    have is : chunk.type = .data := by rw [Chunk.type, value]
    obtain ⟨b, found, confirmed⟩ :=
      ready (List.any_eq_true.mpr ⟨chunk, member, decide_eq_true (Or.inl is)⟩)
    have here := confirmed (List.any_eq_true.mpr ⟨chunk, member, by rw [is]; rfl⟩)
    have succeeds : ∀ a, s.find? d.location = some a → Succeeds a (if transmitsData a.state then
        recordDataSentIn a d.destination data sentAt else a) := by
      intro a found'
      rw [found] at found'
      cases found'
      split
      · exact succeeds_recordDataSentIn here data sentAt
      · exact .refl b
    refine ⟨Deeds.update succeeds fun a _ => Spares.minds ?_,
      .update fun a found' address confirmed => (succeeds a found').listed.confirmed confirmed⟩
    split
    · exact spares_recordDataSentIn a d.destination data sentAt
    · exact .refl a
  | init init =>
    have is : chunk.type = .init := by rw [Chunk.type, value]
    have follows : followedUp d.packet = true :=
      List.any_eq_true.mpr ⟨chunk, member, decide_eq_true (Or.inr (Or.inr is))⟩
    exact armT1 nonempty (opening chunk member (Or.inl is)) follows (ready follows) sentAt
  | cookieEcho cookie =>
    have is : chunk.type = .cookieEcho := by rw [Chunk.type, value]
    have follows : followedUp d.packet = true :=
      List.any_eq_true.mpr ⟨chunk, member, decide_eq_true (Or.inr (Or.inl is))⟩
    exact armT1 nonempty (opening chunk member (Or.inr is)) follows (ready follows) sentAt
  | _ => exact ⟨.refl, .refl s⟩

theorem chunksSent {d : Deliverable} (opening : d.packet.Opening) (chunks : List Chunk)
    (sub : ∀ chunk ∈ chunks, chunk ∈ d.packet.chunks) (s : Socket)
    (ready : followedUp d.packet = true → Ready s d) (sentAt : Time) :
    Deeds heard d.location s (chunks.foldl (fun s chunk => s.chunkSent d sentAt chunk) s) := by
  induction chunks generalizing s with
  | nil => exact .refl
  | cons chunk rest ih =>
    obtain ⟨head, tail⟩ := List.forall_mem_cons.mp sub
    obtain ⟨sent, upholds⟩ : Deeds heard d.location s _ ∧ _ := chunkSent head opening ready sentAt
    exact sent.trans (ih tail _ fun follows => upholds.ready (ready follows))

theorem Works.packetSent {p : Pending} (out : Outgoing s p) (sentAt : Time) :
    Works heard event s (s.packetSent sentAt p) := by
  have committed : Works heard event s { s with sends := s.sends.commit p } := by
    refine .single (.sent _ ?_ ?_ ?_ (by unfold SendQueue.commit; split <;> rfl))
    all_goals
      unfold SendQueue.commit
      simp only
      split <;> first | exact List.eraseP_sublist | exact .refl _
  have ready : followedUp p.deliverable.packet = true →
      Ready { s with sends := s.sends.commit p } p.deliverable :=
    fun follows => (Upholds.of_find? fun _ => rfl).ready (out.ready (Or.inl follows))
  have recorded := committed.trans
    (Works.of_deeds (chunksSent out.opening p.deliverable.packet.chunks (fun _ => id) _
      ready sentAt))
  have timed : Works heard event
      s (({ s with sends := s.sends.commit p } : Socket).scheduleExpirationsAfterSend p.deliverable
      sentAt) := by
    unfold Socket.scheduleExpirationsAfterSend
    simp only
    split
    · exact recorded.trans (Works.of_deeds
        (Deeds.startT3IfStopped _ p.deliverable.location sentAt _))
    · exact recorded
  unfold Socket.packetSent
  simp only
  split
  · exact timed
  · exact timed.trans (Works.of_deeds (Deeds.adjust _ _ (fun _ => rfl) fun _ =>
      (Spares.of_eq rfl rfl).minds))

theorem Works.packetRefused {p : Pending} (out : Outgoing s p) (now : Time) :
    Works heard event s (s.packetRefused now p) := by
  have deferred : Works heard event
      s { s with sends := s.sends.defer (now + msec sendRetryDelay) } :=
    .single (.sent _ (.refl _) (.refl _) (.refl _) rfl)
  unfold Socket.packetRefused Socket.requeueBundledSack
  split
  · next chunk rest chunks =>
    split
    · exact deferred
    · next bundled =>
      rw [not_or, not_not] at bundled
      obtain ⟨a, found, confirmed⟩ := out.ready (Or.inr bundled.1)
      have guards : guarded p.deliverable.packet = true :=
        List.any_eq_true.mpr ⟨chunk, by rw [chunks]; exact List.mem_cons_self, by
          rw [bundled.2]; rfl⟩
      have found' : ({ s with sends := s.sends.defer (now + msec sendRetryDelay) } : Socket).find?
        p.deliverable.location
          = some a := found
      have requeued : Packet.Current { p.deliverable.packet with chunks := [chunk] } a := by
        have alone : followedUp { p.deliverable.packet with chunks := [chunk] } = false := by
          simp [followedUp, bundled.2]
        have acked : ∀ tsn ∈ Packet.acks { p.deliverable.packet with chunks := [chunk] },
            forming a.state = false ∧ tsn = a.lastPeerTsn := by
          intro tsn member
          refine out.current bundled.1 a found tsn ?_
          rw [Packet.acks, chunks]
          exact ((List.singleton_sublist.mpr List.mem_cons_self).filterMap _).subset member
        cases value : chunk.value with
        | sack sack =>
          refine Or.inr ⟨(acked sack.cumulativeTsnAck ?_).1, alone, fun tsn member =>
            (acked tsn member).2⟩
          rw [Packet.acks, List.filterMap_cons_some (b := sack.cumulativeTsnAck)]
          · exact List.mem_cons_self
          · rw [Chunk.acked, value]
        | _ =>
          rw [Chunk.type, value] at bundled
          cases bundled.2
      exact deferred.trans (Works.of_deeds
        (Deeds.enqueue _ (.found found' rfl (List.cons_ne_nil _ _) requeued fun _ =>
        confirmed guards)))
  · exact deferred

theorem Works.sendOne {σ : System} (standing : Standing σ.socket) (now : Time) (accepted : Bool)
    (left : Nat) :
    Works heard event σ.socket (σ.sendOne now accepted left).socket := by
  obtain ⟨next, out⟩ : Works heard event σ.socket _ ∧ _ := Works.nextPacket standing now
  unfold System.sendOne
  simp only
  cases pending : (σ.socket.nextPacket now).pending with
  | none => exact next
  | some p =>
    simp only
    split
    · exact next.trans (Works.packetSent (out p pending) now)
    · exact next.trans (Works.packetRefused (out p pending) now)

end Sending

/-! ## Calls -/

/-- A peer under whose key nothing is found has no association there. -/
theorem absent_of_unknown {s : Socket} {key : AssociationKey}
    (unknown : ¬s.associations.contains (s.associationKeyFor key) = true) : s.find? key = none := by
  cases found : s.find? key with
  | none => rfl
  | some a =>
    have there : s.associations.contains key = true := KeyMap.contains_eq_true.mpr ⟨a, found⟩
    rw [Socket.associationKeyFor, if_pos there] at unknown
    exact absurd there unknown

section Calls

variable (event : Event) (s : Socket)

/-- The INIT of an association just entered. -/
theorem fit_buildInit {s : Socket} {key : AssociationKey} {a : Association}
    (found : s.find? key = some a) (port : Port) (tag : Tag) (tsn : Tsn)
    (preservative : BitVec 32) : Fit s key ⟨key, a.primaryPath,
    buildInit s.localAddress.port port tag tsn preservative⟩ :=
  ⟨rfl, List.cons_ne_nil _ _, Or.inl ⟨rfl, rfl⟩, fun _ => by rw [found]; rfl, fun guards =>
    absurd guards Bool.false_ne_true⟩

theorem Works.sctpAssociate {event : Event} {draws : Draws} {toAddress : SockAddr} {port : Port}
    (is : event = .associate draws toAddress port) :
    Works heard event s (s.sctpAssociate draws toAddress port).2 := by
  unfold Socket.sctpAssociate
  split
  · exact .refl
  · simp only
    split
    · exact .refl
    · next unknown =>
      have none := absent_of_unknown unknown
      have opened : Works heard event s _ := .single (.opened is none)
      exact opened.trans (Works.enqueue (peerKey toAddress port)
        (fit_buildInit ((find?_emplace none _ _).trans (if_pos rfl)) _ _ _ _))

theorem Works.sctpSendData (key : AssociationKey) (data : Bytes) (stream : StreamId)
    (unordered : Bool) :
    Works heard event s (s.sctpSendData key data stream unordered).2 := by
  unfold Socket.sctpSendData
  cases found : s.find? key with
  | none => exact .refl
  | some a =>
    simp only
    split
    · exact .of_deeds (Deeds.set found (.of_outline rfl) (Spares.of_eq rfl rfl).minds)
    · exact .refl

theorem Works.sctpAbort {event : Event} {key : AssociationKey} {reason : Bytes}
    (is : event = .abort key reason) :
    Works heard event s (s.sctpAbort key reason).2 := by
  unfold Socket.sctpAbort
  cases found : s.find? key with
  | none => exact .refl
  | some a =>
    have gone : Works heard event s (s.removeAssociation key) := .single (.aborted is found)
    simp only
    split
    · exact gone
    · exact gone.trans (Works.enqueue key (.plain rfl (List.cons_ne_nil _ _) rfl rfl))

theorem Works.sctpRecvData {event : Event} {capacity : Nat} (is : event = .recvData capacity) :
    Works heard event s (s.sctpRecvData capacity).2 := by
  have reads : Works heard event s { s with receives := (s.receives.readAny capacity).2 } :=
    .single (.read _ ⟨capacity, Or.inl ⟨is, rfl⟩⟩)
  unfold Socket.sctpRecvData
  revert reads
  generalize s.receives.readAny capacity = outcome
  obtain ⟨read, receives⟩ := outcome
  intro reads
  cases read with
  | none => exact reads
  | some read => exact reads.trans (Works.of_deeds (Deeds.maybeSendWindowUpdate _ read.key))

theorem Works.sctpRecvDataFrom {event : Event} {key : AssociationKey} {capacity : Nat}
    (is : event = .recvDataFrom key capacity) :
    Works heard event s (s.sctpRecvDataFrom key capacity).2 := by
  have reads : Works heard event s { s with receives := (s.receives.readFrom key capacity).2 } :=
    .single (.read _ ⟨capacity, Or.inr ⟨key, is, rfl⟩⟩)
  unfold Socket.sctpRecvDataFrom
  revert reads
  generalize s.receives.readFrom key capacity = outcome
  obtain ⟨read, receives⟩ := outcome
  intro reads
  cases read with
  | none => exact reads
  | some read => exact reads.trans (Works.of_deeds (Deeds.maybeSendWindowUpdate _ key))

theorem Works.sctpShutdown {event : Event} {now : Time} {key : AssociationKey}
    (is : event = .shutdown now key) :
    Works heard event s (s.sctpShutdown now key).2 := by
  unfold Socket.sctpShutdown
  cases found : s.find? key with
  | none => exact .refl
  | some a =>
    simp only
    split
    · next forms => exact .single (.withdrawn is found forms)
    · split
      · next up =>
        have pending : Deeds heard key
            s (s.setAssociation key { a with state := .shutdownPending }) :=
          Deeds.set found (.of_state (by rw [up]; rfl) rfl)
            (Or.inr fun _ _ => ⟨by rw [up]; rfl, rfl⟩)
        exact .of_deeds (pending.trans (Deeds.doNextShutdownStep _ key now))
      · exact .refl

theorem Deeds.sctpChangeHeartbeat (probed : heard .probed) (now : Time) (draws : Draws)
    (key : AssociationKey) (destination : SockAddr) (enabled : Bool) (interval : Option Int) :
    Deeds heard key s (s.sctpChangeHeartbeat now draws key destination enabled interval).2 := by
  unfold Socket.sctpChangeHeartbeat
  cases found : s.find? key with
  | none => exact .refl
  | some a =>
    simp only
    cases path : findPath a destination with
    | none => exact .refl
    | some changed =>
      simp only
      have set : Deeds heard key s (s.updateAssociation key fun assoc =>
          { assoc.modifyPath changed fun path => { path with hbEnabled := enabled } with
            hbInterval := interval.getD assoc.hbInterval }) := by
        refine Deeds.adjust s key (fun b => ?_) fun _ => Or.inl probed
        exact outline_modifyPath b changed (f := fun path => { path with hbEnabled := enabled })
          fun _ => ⟨rfl, rfl⟩
      split
      · exact set
      · refine (set.trans (Deeds.foldl key (fun s i => ?_) _ _)).trans
          (Deeds.armConfirmationProbes _ key probed now)
        unfold Socket.replanHeartbeat
        split
        · exact .refl
        · refine Relation.ReflTransGen.trans ?_ (Deeds.armHeartbeat _ key probed i)
          split
          · exact .refl
          · exact Deeds.planProbe s key now draws i

theorem Deeds.sctpRequestHeartbeat (probed : heard .probed) (now : Time) (draws : Draws)
    (key : AssociationKey) (destination : SockAddr) :
    Deeds heard key s (s.sctpRequestHeartbeat now draws key destination).2 := by
  unfold Socket.sctpRequestHeartbeat
  cases found : s.find? key with
  | none => exact .refl
  | some a =>
    simp only
    cases path : findPath a destination with
    | none => exact .refl
    | some i =>
      simp only
      split
      · exact .refl
      · have built : Deeds heard key s _ :=
          (Deeds.buildProbe s key probed now draws a i).trans (Deeds.armHeartbeat _ key probed i)
        exact built.trans (Deeds.enqueue _ (Deeds.fit_probe s _ now draws key a i))

/-- The primary path is a confirmed one. -/
theorem Works.sctpSetPrimary (key : AssociationKey) (destination : SockAddr) :
    Works heard event s (s.sctpSetPrimary key destination).2 := by
  unfold Socket.sctpSetPrimary
  cases found : s.find? key with
  | none => exact .refl
  | some a =>
    simp only
    cases path : findPath a destination with
    | none => exact .refl
    | some i =>
      simp only
      split
      · exact .refl
      · next confirmed =>
        rw [Bool.not_eq_true', Bool.not_eq_false] at confirmed
        refine .of_deeds (Deeds.set found
          ⟨⟨rfl, rfl, rfl, .of_eq rfl, .refl a, fun sound =>
            ⟨sound.distinct, ?_, sound.outstanding⟩,
          fun tidy => tidy.congr id rfl rfl rfl rfl rfl⟩, rfl, fun _ => ⟨rfl, rfl⟩⟩
            (Spares.of_eq rfl rfl).minds)
        exact confirmed_path sound.distinct confirmed

/-- The calls that may change what is probed. -/
def callsProbe : Event → Bool
  | .changeHeartbeat .. | .requestHeartbeat .. => true
  | _ => false

theorem Works.call {event : Event} {s s' : Socket} (called : System.call s event = some s')
    (probed : callsProbe event = true → heard .probed) : Works heard event s s' := by
  cases event with
  | associate draws toAddress port =>
    cases called
    exact .sctpAssociate s rfl
  | sendData key data stream unordered =>
    cases called
    exact .sctpSendData _ s key data stream unordered
  | abort key reason =>
    cases called
    exact .sctpAbort s rfl
  | recvData capacity =>
    cases called
    exact .sctpRecvData s rfl
  | recvDataFrom key capacity =>
    cases called
    exact .sctpRecvDataFrom s rfl
  | shutdown now key =>
    cases called
    exact .sctpShutdown s rfl
  | changeHeartbeat now draws key destination enabled interval =>
    cases called
    exact .of_deeds (Deeds.sctpChangeHeartbeat s (probed rfl) now draws key destination enabled
      interval)
  | requestHeartbeat now draws key destination =>
    cases called
    exact .of_deeds (Deeds.sctpRequestHeartbeat s (probed rfl) now draws key destination)
  | setPrimary key destination =>
    cases called
    exact .sctpSetPrimary _ s key destination
  | subscribe type on =>
    cases called
    exact .single (.attended _ (Or.inr ⟨type, on, rfl, rfl⟩))
  | recvNotification =>
    cases called
    exact .single (.attended _ (Or.inl rfl))
  | _ => cases called

end Calls

/-- What an event shows. -/
def System.hears (σ : System) (event : Event) : Evidence → Prop
  | .acked info => ∃ now draws packet src, event = .recv now draws packet src
      ∧ ∃ chunk ∈ packet.chunks, chunk.value = .heartbeatAck info
  | .echoed now cookieData header src => ∃ draws packet flag rest, event
      = .recv now draws packet src
      ∧ header = packet.header ∧ (stripUnrecognized packet.chunks).1
        = ⟨flag, .cookieEcho cookieData⟩ :: rest
  | .spoiled a partly => ∃ now draws packet src s' key carried s'', event
      = .recv now draws packet src
      ∧ σ.socket.dispatch now draws packet src = some (s', key, carried)
      ∧ s'.afterChunks now draws packet key src carried = (false, s'') ∧ s''.find? key = some a
      ∧ receivesData a.state = true
      ∧ (takeData (stripUnrecognized packet.chunks).1
        (Socket.DataLoop.start s'' key a carried)).violation = true
      ∧ partly = partialDeliveryOpen
          (takeData (stripUnrecognized packet.chunks).1
            (Socket.DataLoop.start s'' key a carried)).st.assoc
  | .took before after => ∃ now draws packet src s' key carried s'' a, event
      = .recv now draws packet src
      ∧ σ.socket.dispatch now draws packet src = some (s', key, carried)
      ∧ s'.afterChunks now draws packet key src carried = (false, s'') ∧ s''.find? key = some a
      ∧ receivesData a.state = true
      ∧ (takeData (stripUnrecognized packet.chunks).1
        (Socket.DataLoop.start s'' key a carried)).violation = false
      ∧ before = a.lastPeerTsn
      ∧ after = (takeData (stripUnrecognized packet.chunks).1
        (Socket.DataLoop.start s'' key a carried)).st.assoc.lastPeerTsn
  | .met key forms before after => (∃ now draws packet src, event = .recv now draws packet src)
      ∧ ∃ a, σ.socket.find? key = some a ∧ forms = forming a.state ∧ before = a.peerVerTag
      ∧ after ≠ before
  | .probed => True

theorem System.shows_hears (σ : System) (now : Time) (draws : Nat → Draws) (packet : Packet)
    (src : SockAddr) :
    Shows (σ.hears (.recv now draws packet src)) σ.socket now draws packet src where
  acked chunk member _ value := ⟨now, draws, packet, src, rfl, chunk, member, value⟩
  echoed flag _ rest chunks := ⟨draws, packet, flag, rest, rfl, rfl, chunks⟩
  revealed s' key carried s'' dispatched after :=
    ⟨fun _ found receives violation =>
      ⟨now, draws, packet, src, s', key, carried, s'', rfl, dispatched, after, found, receives,
        violation, rfl⟩,
    fun a found receives fine =>
      ⟨now, draws, packet, src, s', key, carried, s'', a, rfl, dispatched, after, found, receives,
        fine, rfl, rfl⟩⟩
  met _ a _ found other := ⟨⟨now, draws, packet, src, rfl⟩, a, found, rfl, rfl, other⟩
  probed := trivial

/-- A step of the socket is a sequence of works. -/
theorem System.step_works {σ σ' : System} {event : Event} (standing : Standing σ.socket)
    (stepped : σ.step event = some σ') : Works (σ.hears event) event σ.socket σ'.socket := by
  rcases System.step_cases stepped with ⟨now, draws, packet, src, rfl, -, rfl⟩ | ⟨now, draws, rfl,
    -, rfl⟩ | ⟨rfl, -, rfl⟩
    | ⟨now, accepted, left, rfl, -, rfl⟩ | ⟨s, called, rfl⟩
  · exact .of_deeds ((Deeds.handlePacket σ.socket now draws packet src
      (σ.shows_hears now draws packet src)).deeds of_unechoed)
  · exact .runExpire standing trivial rfl
  · exact .single (.all _ (fun _ _ => rfl) fun _ _ => .of_eq rfl rfl)
  · exact .sendOne standing now accepted left
  · exact .call called fun _ => trivial

theorem System.Reached.standing {ok : System → Event → Prop} {σ : System}
    (reached : System.Reached ok σ) :
    Standing σ.socket := by
  refine Run.Reach.invariant (fun σ => Standing σ.socket) reached ?_
    fun σ event σ' standing _ stepped =>
    (System.step_works standing stepped).standing standing
  rintro _ ⟨address, rfl⟩
  exact standing_fresh address

end SctpStack
