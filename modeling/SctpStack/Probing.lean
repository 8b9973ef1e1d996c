import SctpStack.Tags

/-!
# Unconfirmed addresses

An address the peer only named may belong to somebody else. Until a HEARTBEAT ACK with the
nonce of the heartbeat that is out answers from it, nothing but probes goes there
(`only_probes_before_confirmation`).
-/

namespace SctpStack

variable {heard : Evidence → Prop} {key : AssociationKey} {s s' : Socket}

/-! ## What confirms an address -/

section Confirming

theorem lookup_modify_true {l : List (BitVec 32 × Bool)} {i : Nat} {ip : BitVec 32}
    (found : (l.modify i fun mark => (mark.1, true)).lookup ip = some true) :
    l.lookup ip = some true ∨ ∃ mark, l[i]? = some mark ∧ mark.1 = ip := by
  induction l generalizing i with
  | nil =>
    rw [List.modify_nil] at found
    cases found
  | cons head rest ih =>
    cases i with
    | zero =>
      rw [List.modify_zero_cons, List.lookup_cons] at found
      split at found
      · next same => exact Or.inr ⟨head, rfl, (beq_iff_eq.mp same).symm⟩
      · next other =>
        rw [List.lookup_cons, other]
        exact Or.inl found
    | succ i =>
      rw [List.modify_succ_cons, List.lookup_cons] at found
      rw [List.lookup_cons]
      split at found
      · exact Or.inl found
      · exact ih found

/-- An address is confirmed anew for what was shown: the cookie a new association is made
from, or the answer to the heartbeat that is out. -/
inductive Confirms (heard : Evidence → Prop) (s : Socket) (key : AssociationKey)
    (address : SockAddr) : Prop where
  | founded (cookie : StateCookie) :
      Shown heard s cookie → (∀ a, s.find? key = some a → Restarts heard s a cookie) →
        address.addr = cookie.peerIpv4 → Confirms heard s key address
  | answered (a : Association) (info : Bytes) (i : Nat) :
      s.find? key = some a → heard (.acked info) → Heard info a i → (a.path i).address.addr
        = address.addr → Confirms heard s key address

theorem confirmed_begun {cookie : StateCookie} {address : SockAddr}
    (confirmed : Confirmed (initNewAssociationFromCookie cookie) address) :
    address.addr = cookie.peerIpv4 := by
  have marks : (initNewAssociationFromCookie cookie).marks = [(cookie.peerIpv4, true)] := rfl
  unfold Confirmed at confirmed
  rw [marks, List.lookup_cons] at confirmed
  split at confirmed
  · next same => exact beq_iff_eq.mp same
  · cases confirmed

theorem Credited.confirmed_cases {a b : Association} {i : Nat} (credited : Credited i a b)
    {address : SockAddr} (confirmed : Confirmed b address) :
    Confirmed a address ∨ (a.path i).address.addr = address.addr := by
  unfold Confirmed at confirmed
  rw [credited.marks] at confirmed
  rcases lookup_modify_true confirmed with early | ⟨mark, here, same⟩
  · exact Or.inl early
  · rw [Association.marks, List.getElem?_map, Option.map_eq_some_iff] at here
    obtain ⟨path, inside, is⟩ := here
    rw [Association.path, List.getD_eq_getElem?_getD, inside, ← same, ← is]
    exact Or.inr rfl

/-- A deed confirms an address for what was shown, or not at all. -/
theorem Deed.confirmed_cases (deed : Deed heard key s s') {k : AssociationKey} {b : Association}
    {address : SockAddr} (found : s'.find? k = some b) (confirmed : Confirmed b address) :
    (∃ a, s.find? k = some a ∧ b.thisVerTag = a.thisVerTag ∧ Confirmed a address) ∨ k = key
      ∧ Confirms heard s key address := by
  by_cases here : k = key
  · subst here
    cases deed with
    | @update a c before succeeds =>
      simp only [Socket.find?_setAssociation, if_true, Option.some.injEq] at found
      subst found
      exact Or.inl ⟨a, before, succeeds.thisVerTag, succeeds.listed.confirmed_iff.mp confirmed⟩
    | @tie a draws before =>
      simp only [Socket.find?_setAssociation, if_true, Option.some.injEq] at found
      subst found
      rw [withTieTags_only] at confirmed ⊢
      exact Or.inl ⟨a, before, rfl, confirmed⟩
    | @credit a c info i notes before told out credited =>
      rw [find?_notes, Socket.find?_setAssociation, if_pos rfl, Option.some.injEq] at found
      subst found
      rcases credited.confirmed_cases confirmed with early | same
      · exact Or.inl ⟨a, before, credited.thisVerTag, early⟩
      · exact Or.inr ⟨rfl, .answered a info i before told out same⟩
    | @up a before =>
      simp only [find?_notifyAssocChange, Socket.find?_setAssociation, if_true, Option.some.injEq]
        at found
      subst found
      exact Or.inl ⟨a, before, rfl, confirmed⟩
    | @created a cookie absent shown is =>
      simp only [find?_notifyAssocChange, Socket.find?_setAssociation, if_true, Option.some.injEq]
        at found
      subst found is
      refine Or.inr ⟨rfl, .founded cookie shown (fun a here => ?_) (confirmed_begun confirmed)⟩
      rw [absent] at here
      cases here
    | @restarted a cookie before restarts =>
      simp only [find?_notifyAssocChange, Socket.find?_setAssociation, if_true, Option.some.injEq]
        at found
      subst found
      refine Or.inr ⟨rfl, .founded cookie restarts.shown (fun c here => ?_)
        (confirmed_begun confirmed)⟩
      rw [before] at here
      cases here
      exact restarts
    | @collided a c before follows =>
      simp only [Socket.find?_setAssociation, if_true, Option.some.injEq] at found
      subst found
      exact Or.inl ⟨a, before, follows.thisVerTag, follows.listed.confirmed_iff.mp confirmed⟩
    | ended | violated | gaveUp => simp at found
    | @deliver a c delivered before receives follows =>
      simp only [find?_pushDeliveries, Socket.find?_setAssociation, if_true, Option.some.injEq]
        at found
      subst found
      exact Or.inl ⟨a, before, follows.thisVerTag, follows.listed.confirmed_iff.mp confirmed⟩
    | _ => exact Or.inl ⟨b, found, rfl, confirmed⟩
  · rw [deed.find?_other here] at found
    exact Or.inl ⟨b, found, rfl, confirmed⟩

/-- Nothing is confirmed where nothing is shown. -/
theorem Confirms.absurd {address : SockAddr} (confirms : Confirms heard s key address)
    (acked : ∀ info, ¬heard (.acked info))
    (echoed : ∀ now cookieData header src, ¬heard (.echoed now cookieData header src)) :
    False := by
  cases confirms with
  | founded cookie shown =>
    obtain ⟨now, cookieData, header, src, told, -⟩ := shown
    exact echoed now cookieData header src told
  | answered a info i found told => exact acked info told

theorem Deeds.confirmed_before (deeds : Deeds inAnyTurn key s s') {k : AssociationKey}
    {b : Association} {address : SockAddr} (found : s'.find? k = some b)
    (confirmed : Confirmed b address) :
    ∃ a, s.find? k = some a ∧ b.thisVerTag = a.thisVerTag ∧ Confirmed a address := by
  induction deeds generalizing b with
  | refl => exact ⟨b, found, rfl, confirmed⟩
  | tail _ deed ih =>
    rcases deed.confirmed_cases found confirmed with ⟨a, before, tag, early⟩ | ⟨-, confirms⟩
    · obtain ⟨c, first, same, earlier⟩ := ih before early
      exact ⟨c, first, tag.trans same, earlier⟩
    · exact (confirms.absurd (fun _ => id) fun _ _ _ _ => id).elim

/-- What is shown confirms an address before anything else is done. -/
theorem Led.confirmed_cases (led : Led heard inAnyTurn key s s') {k : AssociationKey}
    {b : Association} {address : SockAddr} (found : s'.find? k = some b)
    (confirmed : Confirmed b address) :
    (∃ a, s.find? k = some a ∧ b.thisVerTag = a.thisVerTag ∧ Confirmed a address) ∨ k = key
      ∧ Confirms heard s key address := by
  obtain ⟨s₁, first, rest⟩ := led
  obtain ⟨c, middle, tag, early⟩ := Deeds.confirmed_before rest found confirmed
  rw [tag]
  rcases first with rfl | deed
  · exact Or.inl ⟨c, middle, rfl, early⟩
  · exact deed.confirmed_cases middle early

/-- Along the handlers of a packet, one of them confirms an address, or it was confirmed before. -/
theorem Chained.confirmed_cases {turns : List Turn} {now : Time} {packet : Packet} {src : SockAddr}
    (chained : Chained s turns s') (sane : ∀ turn ∈ turns, turn.Sane now packet src)
    {k : AssociationKey} {b : Association} {address : SockAddr} (found : s'.find? k = some b)
    (confirmed : Confirmed b address) :
    (∃ a, s.find? k = some a ∧ b.thisVerTag = a.thisVerTag ∧ Confirmed a address)
    ∨ ∃ turn ∈ turns, k = turn.key
    ∧ Confirms (turn.shows now packet src) turn.before turn.key address := by
  induction chained with
  | nil => exact Or.inl ⟨b, found, rfl, confirmed⟩
  | cons turn rest ih =>
    obtain ⟨here, others⟩ := List.forall_mem_cons.mp sane
    rcases ih others found with ⟨c, middle, tag, early⟩ | ⟨turn', later, confirms⟩
    · rw [tag]
      refine (here.led.confirmed_cases middle early).imp_right fun confirms => ?_
      exact ⟨turn, List.mem_cons_self, confirms⟩
    · exact Or.inr ⟨turn', List.mem_cons_of_mem _ later, confirms⟩

end Confirming

/-! ## Where packets go -/

section Addressed

variable {n : Nat}

/-- Of what was queued from an id on, only probes go to an address of an association that
is not confirmed. -/
def Addressed (n : Nat) (s : Socket) : Prop :=
  ∀ e ∈ s.sends.queued, n ≤ e.id → guarded e.deliverable.packet = true →
    ∀ a, s.find? e.deliverable.location = some a → Confirmed a e.deliverable.destination

theorem Addressed.of_nextId_le (standing : Standing s) (early : s.sends.nextId ≤ n) :
    Addressed n s := by
  intro e member late
  exact absurd (Nat.le_trans early late) (Nat.not_le_of_lt (standing.numbered e member))

/-- The association under a key is there before and after, with no fewer addresses confirmed. -/
theorem Addressed.kept {a b : Association} (ok : Addressed n s)
    (others : ∀ k, k ≠ key → s'.find? k = s.find? k) (sends : s'.sends = s.sends)
    (before : s.find? key = some a) (after : s'.find? key = some b)
    (confirmed : ∀ address, Confirmed a address → Confirmed b address) : Addressed n s' := by
  intro e member late guards c found
  rw [sends] at member
  by_cases here : e.deliverable.location = key
  · rw [here, after] at found
    cases found
    exact confirmed _ (ok e member late guards a (by rw [here]; exact before))
  · rw [others _ here] at found
    exact ok e member late guards c found

theorem Addressed.cleared (ok : Addressed n s) (others : ∀ k, k ≠ key → s'.find? k = s.find? k)
    (sends : s'.sends = s.sends.purge key) : Addressed n s' := by
  intro e member late guards c found
  rw [sends] at member
  obtain ⟨inside, apart⟩ := mem_purge member
  rw [others _ apart] at found
  exact ok e inside late guards c found

theorem Addressed.less (ok : Addressed n s) (same : ∀ k, s'.find? k = s.find? k)
    (sub : ∀ e ∈ s'.sends.queued, e ∈ s.sends.queued) : Addressed n s' := by
  intro e member late guards c found
  rw [same] at found
  exact ok e (sub e member) late guards c found

theorem Addressed.enqueue (ok : Addressed n s) (standing : Standing s) {d : Deliverable}
    (priority : SendPriority) (fit : Fit s key d) : Addressed n (s.enqueuePacket d priority) := by
  intro e member late guards a found
  rcases mem_queued_enqueue member with before | ⟨rfl, -⟩
  · exact ok e before late guards a found
  · have here : s.find? key = some a := by
      rw [← fit.location]
      exact found
    exact fit.confirmed guards a here (standing.sound key a here)

theorem Addressed.drop (ok : Addressed n s) (sel : Queued → Bool) (what : Queued → Chunk → Bool) :
    Addressed n { s with sends := { s.sends
      with retransmission := dropChunks sel what s.sends.retransmission } } := by
  intro e member late guards a found
  simp only [SendQueue.queued, List.mem_append] at member
  rcases member with inside | dropped | inside
  · exact ok e (List.mem_append_left _ inside) late guards a found
  · obtain ⟨e', before, id, location, destination, -, sub⟩ := mem_dropChunks dropped
    rw [destination]
    rw [location] at found
    rw [id] at late
    exact ok e' (List.mem_append_right _ (List.mem_append_left _ before))
      late (any_of_subset sub guards) a found
  · exact ok e (List.mem_append_right _ (List.mem_append_right _ inside)) late guards a found

/-- A deed keeps packets from unconfirmed addresses; one that makes a new association may
find older packets queued for its key. -/
theorem Deed.addressed (deed : Deed heard key s s') (standing : Standing s)
    (early : (∃ cookie, Shown heard s cookie) → s.sends.nextId ≤ n) (ok : Addressed n s) :
    Addressed n s' := by
  have others : ∀ k, k ≠ key → s'.find? k = s.find? k := fun k apart => deed.find?_other apart
  have standing' := deed.standing standing
  cases deed with
  | @update a b found succeeds =>
    exact ok.kept others rfl found (by simp) fun address => succeeds.listed.confirmed
  | @tie a draws found =>
    have after : (s.setAssociation key (withTieTags draws a)).find? key
        = some (withTieTags draws a) := by simp
    refine ok.kept others rfl found after fun address confirmed => ?_
    rw [withTieTags_only]
    exact confirmed
  | @credit a b info i notes found told heard credited =>
    obtain ⟨q, same⟩ := notes_only (s.setAssociation key b) key notes
    refine ok.kept others (by rw [same]; rfl) found ?_ fun address => credited.confirmed
    rw [find?_notes, Socket.find?_setAssociation, if_pos rfl]
  | @up a found =>
    have after : ((s.setAssociation key { a with state := .established }).notifyAssocChange key
      .commUp).find? key
        = some { a with state := .established } := by simp
    exact ok.kept others rfl found after fun address => id
  | created absent shown => exact .of_nextId_le standing' (early ⟨_, shown⟩)
  | @restarted a cookie found restarts => exact ok.cleared others (cleared_clearedFor s key a).sends
  | @collided a b found follows =>
    exact ok.kept others (undisturbed_abandonPartialDelivery s key a).sends found (by simp)
      fun address =>
      follows.listed.confirmed
  | ended told found => exact ok.cleared others (cleared_removeAssociation s key).sends
  | @violated a b found => exact ok.cleared others (cleared_removeAssociation
      (s.setAssociation key b) key).sends
  | gaveUp found => exact ok.cleared others rfl
  | @deliver a b delivered found receives follows =>
    exact ok.kept others rfl found (by simp) fun address => follows.listed.confirmed
  | enqueue d priority fit => exact ok.enqueue standing priority fit
  | drop sel what => exact ok.drop sel what
  | _ => exact ok.less (fun _ => rfl) fun _ => id

theorem Deeds.addressed (deeds : Deeds heard key s s') (standing : Standing s)
    (unshown : ∀ now cookieData header src, ¬heard (.echoed now cookieData header src))
    (ok : Addressed n s) :
    Addressed n s' := by
  have both : Standing s' ∧ Addressed n s' := by
    induction deeds with
    | refl => exact ⟨standing, ok⟩
    | tail _ deed ih =>
      refine ⟨deed.standing ih.1, deed.addressed ih.1 (fun shown => ?_) ih.2⟩
      obtain ⟨cookie, now, cookieData, header, src, told, -⟩ := shown
      exact absurd told (unshown now cookieData header src)
  exact both.2

theorem Led.addressed (led : Led heard (unechoed heard) key s s') (standing : Standing s) :
    Addressed s.sends.nextId s' := by
  obtain ⟨s₁, first, rest⟩ := led
  have start : Addressed s.sends.nextId s := .of_nextId_le standing (Nat.le_refl _)
  rcases first with rfl | deed
  · exact Deeds.addressed rest standing (fun _ _ _ _ => id) start
  · exact Deeds.addressed rest (deed.standing standing) (fun _ _ _ _ => id)
      (deed.addressed standing (fun _ => Nat.le_refl _) start)

theorem Work.addressed {event : Event} (work : Work heard event s s') (standing : Standing s)
    (unshown : ∀ now cookieData header src, ¬heard (.echoed now cookieData header src))
    (unopened : ∀ draws toAddress port, event ≠ .associate draws toAddress port)
    (ok : Addressed n s) : Addressed n s' := by
  cases work with
  | deed key deed => exact Deeds.addressed (.single deed) standing unshown ok
  | all f outline =>
    intro e member late guards b found
    rw [find?_mapVals, Option.map_eq_some_iff] at found
    obtain ⟨a, before, rfl⟩ := found
    exact (Listed.of_marks (congrArg Outline.marks (outline _ a))).confirmed
      (ok e member late guards a before)
  | opened is => exact absurd is (unopened _ _ _)
  | @aborted key reason a is found =>
      exact ok.cleared (fun k apart => by simp [apart]) (cleared_removeAssociation s key).sends
  | @withdrawn now key a is found =>
      exact ok.cleared (fun k apart => by simp [apart]) (cleared_tearDown s key).sends
  | sent q control retransmission newData =>
    refine ok.less (fun _ => rfl) fun e member => ?_
    simp only [SendQueue.queued, List.mem_append] at member ⊢
    exact member.imp control.mem (Or.imp retransmission.mem newData.mem)
  | _ => exact ok.less (fun _ => rfl) fun _ => id

theorem Works.addressed {event : Event} (works : Works heard event s s') (standing : Standing s)
    (unshown : ∀ now cookieData header src, ¬heard (.echoed now cookieData header src))
    (unopened : ∀ draws toAddress port, event ≠ .associate draws toAddress port)
    (ok : Addressed n s) : Addressed n s' := by
  have both : Standing s' ∧ Addressed n s' := by
    induction works with
    | refl => exact ⟨standing, ok⟩
    | tail _ work ih => exact ⟨work.standing ih.1, work.addressed ih.1 unshown unopened ih.2⟩
  exact both.2

end Addressed

/-! ## Along a run -/

/-- Outside of receiving, an address is only confirmed with the association a call opens. -/
theorem Work.confirmed_cases {event : Event} (work : Work heard event s s')
    (acked : ∀ info, ¬heard (.acked info))
    (echoed : ∀ now cookieData header src, ¬heard (.echoed now cookieData header src))
    {k : AssociationKey} {b : Association} {address : SockAddr} (found : s'.find? k = some b)
    (confirmed : Confirmed b address) :
    (∃ a, s.find? k = some a ∧ b.thisVerTag = a.thisVerTag ∧ Confirmed a address)
    ∨ ∃ draws toAddress port, event = .associate draws toAddress port ∧ k = peerKey toAddress port
      ∧ address.addr = toAddress.addr := by
  cases work with
  | deed key deed =>
    rcases deed.confirmed_cases found confirmed with early | ⟨-, confirms⟩
    · exact Or.inl early
    · exact (confirms.absurd acked echoed).elim
  | all f outline =>
    rw [find?_mapVals, Option.map_eq_some_iff] at found
    obtain ⟨a, before, rfl⟩ := found
    exact Or.inl ⟨a, before, congrArg Outline.thisVerTag (outline k a),
      (Listed.of_marks (congrArg Outline.marks (outline k a))).confirmed_iff.mp confirmed⟩
  | @opened draws toAddress port is absent =>
    rw [find?_emplace absent] at found
    split at found
    · next here =>
      cases found
      have marks : (initNewAssociation draws toAddress).marks = [(toAddress.addr, true)] := rfl
      unfold Confirmed at confirmed
      rw [marks, List.lookup_cons] at confirmed
      split at confirmed
      · next same => exact Or.inr ⟨draws, toAddress, port, is, here, beq_iff_eq.mp same⟩
      · cases confirmed
    · exact Or.inl ⟨b, found, rfl, confirmed⟩
  | @aborted key | @withdrawn now key =>
    by_cases here : k = key
    · simp [here] at found
    · simp only [find?_removeAssociation, find?_tearDown, if_neg here] at found
      exact Or.inl ⟨b, found, rfl, confirmed⟩
  | _ => exact Or.inl ⟨b, found, rfl, confirmed⟩

theorem Works.confirmed_cases {event : Event} (works : Works heard event s s')
    (acked : ∀ info, ¬heard (.acked info))
    (echoed : ∀ now cookieData header src, ¬heard (.echoed now cookieData header src))
    {k : AssociationKey} {b : Association} {address : SockAddr} (found : s'.find? k = some b)
    (confirmed : Confirmed b address) :
    (∃ a, s.find? k = some a ∧ b.thisVerTag = a.thisVerTag ∧ Confirmed a address)
    ∨ ∃ draws toAddress port, event = .associate draws toAddress port ∧ k = peerKey toAddress port
      ∧ address.addr = toAddress.addr := by
  induction works generalizing b with
  | refl => exact Or.inl ⟨b, found, rfl, confirmed⟩
  | tail _ work ih =>
    rcases work.confirmed_cases acked echoed found confirmed with ⟨a, before, tag, early⟩ | opens
    · rw [tag]
      exact ih before early
    · exact Or.inr opens

/-- The sockets of a step: a pass of `run_sending` queues new DATA before it sends a packet. -/
def System.passes (σ : System) (event : Event) (σ' : System) : List Socket :=
  match event with
  | .send now _ => [(σ.socket.nextPacket now).socket, σ'.socket]
  | _ => [σ'.socket]

theorem Addressed.sctpAssociate (standing : Standing s) (draws : Draws) (toAddress : SockAddr)
    (port : Port) :
    Addressed s.sends.nextId (s.sctpAssociate draws toAddress port).2 := by
  unfold Socket.sctpAssociate
  split
  · exact .of_nextId_le standing (Nat.le_refl _)
  · simp only
    split
    · exact .of_nextId_le standing (Nat.le_refl _)
    · intro e member late guards
      rcases mem_queued_enqueue member with before | ⟨rfl, -⟩
      · exact absurd (standing.numbered e before) (Nat.not_lt_of_le late)
      · exact absurd guards Bool.false_ne_true

theorem System.passes_addressed {σ σ' : System} {event : Event} (standing : Standing σ.socket)
    (stepped : σ.step event = some σ') :
    ∀ s ∈ σ.passes event σ', Addressed σ.socket.sends.nextId s := by
  have start : Addressed σ.socket.sends.nextId σ.socket := .of_nextId_le standing (Nat.le_refl _)
  have along : ∀ {s'}, (∀ draws toAddress port, event ≠ .associate draws toAddress port) →
      Works inAnyTurn event σ.socket s' → Addressed σ.socket.sends.nextId s' :=
    fun unopened works => works.addressed standing (fun _ _ _ _ => id) unopened start
  rcases System.step_cases stepped with ⟨now, draws, packet, src, rfl, -, rfl⟩ | ⟨now, draws, rfl,
    -, rfl⟩ | ⟨rfl, -, rfl⟩
    | ⟨now, accepted, left, rfl, -, rfl⟩ | ⟨s, called, rfl⟩
  · refine List.forall_mem_singleton.mpr ?_
    exact (Deeds.handlePacket σ.socket now draws packet src
      (σ.shows_hears now draws packet src)).addressed standing
  · exact List.forall_mem_singleton.mpr
      (along (fun _ _ _ => Event.noConfusion) (.runExpire standing trivial rfl))
  · exact List.forall_mem_singleton.mpr
      (along (fun _ _ _ => Event.noConfusion) (.single (.all _ (fun _ _ => rfl)
      fun _ _ => .of_eq rfl rfl)))
  · refine List.forall_mem_cons.mpr ⟨?_, List.forall_mem_singleton.mpr ?_⟩
    · exact along (fun _ _ _ => Event.noConfusion) (Works.nextPacket standing now).1
    · exact along (fun _ _ _ => Event.noConfusion) (.sendOne standing now accepted left)
  · cases event with
    | associate draws toAddress port =>
      cases called
      exact List.forall_mem_singleton.mpr (Addressed.sctpAssociate standing draws toAddress port)
    | recv | expire | startSending | send => cases called
    | _ => exact List.forall_mem_singleton.mpr (along (fun _ _ _ => Event.noConfusion)
        (.call called fun _ => trivial))

/-- An unconfirmed address is sent nothing but probes: what a step queues for an association
that must not go there goes to a confirmed address, the primary path always is one, and a
path is confirmed with the association it comes with, or by the answer to its heartbeat. -/
theorem only_probes_before_confirmation {σ σ' : System} {event : Event}
    (reached : System.Reached (fun _ _ => True) σ) (stepped : σ.step event = some σ') :
    (∀ s ∈ σ.passes event σ', ∀ e ∈ s.sends.queued, σ.socket.sends.nextId ≤ e.id →
      guarded e.deliverable.packet = true → ∀ a, s.find? e.deliverable.location = some a →
        ∃ i, findPath a e.deliverable.destination = some i ∧ (a.path i).confirmed = true)
    ∧ (∀ k a, σ'.socket.find? k = some a → (a.path (primary a)).confirmed = true)
    ∧ ∀ k b address, σ'.socket.find? k = some b → Confirmed b address →
      (∃ a, σ.socket.find? k = some a ∧ b.thisVerTag = a.thisVerTag ∧ Confirmed a address)
      ∨ (∃ draws toAddress port, event = .associate draws toAddress port
      ∧ k = peerKey toAddress port
        ∧ address.addr = toAddress.addr)
      ∨ ∃ now draws packet src, event = .recv now draws packet src
      ∧ ∃ turn ∈ σ.socket.turns now draws packet src,
        k = turn.key ∧ Confirms (turn.shows now packet src) turn.before turn.key address := by
  have standing := reached.standing
  refine ⟨fun s passed e member late guards a found => ?_, fun k a found => ?_,
    fun k b address found confirmed => ?_⟩
  · exact confirmed_iff.mp (System.passes_addressed standing stepped s passed e member late guards
      a found)
  · exact (((System.step_works standing stepped).standing standing).sound k
      a found).confirmed_primary
  · by_cases received : ∃ now draws packet src, event = .recv now draws packet src
    · obtain ⟨now, draws, packet, src, rfl⟩ := received
      rcases System.step_cases stepped with ⟨_, _, _, _, is, -, rfl⟩ | ⟨_, _, is, -, rfl⟩ | ⟨is,
        -, rfl⟩
        | ⟨_, _, _, is, -, rfl⟩ | ⟨s, called, rfl⟩
      · cases is
        rcases (chained_turns σ.socket).confirmed_cases (fun turn => sane_turns standing)
          found confirmed with early | ⟨turn, member, here, confirms⟩
        · exact Or.inl early
        · exact Or.inr (Or.inr ⟨now, draws, packet, src, rfl, turn, member, here, confirms⟩)
      · cases is
      · cases is
      · cases is
      · cases called
    · refine ((System.step_works standing stepped).confirmed_cases ?_ ?_ found confirmed).imp_right
        Or.inl
      · rintro info ⟨now, draws, packet, src, is, -⟩
        exact received ⟨now, draws, packet, src, is⟩
      · rintro now cookieData header src ⟨draws, packet, flag, rest, is, -⟩
        exact received ⟨now, draws, packet, src, is⟩

/-- DATA that asks for a SACK at once: the SACK goes to a confirmed address. -/
theorem sack_to_confirmed : ∃ σ σ', System.Reached (fun _ _ => True) σ
    ∧ σ.step (Opened.arrives [⟨0x0B#8, .data ⟨100#32, 0#16, 0#16, 0#32, [42#8], 0x0B#8⟩⟩]) = some σ'
    ∧ ∃ e ∈ σ'.socket.sends.queued, guarded e.deliverable.packet = true
    ∧ ∃ a, σ'.socket.find? e.deliverable.location = some a
      ∧ ∃ i, findPath a e.deliverable.destination = some i ∧ (a.path i).confirmed = true := by
  obtain ⟨σ, reached, ends⟩ := Opened.exists_reached []
    (p := fun σ => (σ.step (Opened.arrives
      [⟨0x0B#8, .data ⟨100#32, 0#16, 0#16, 0#32, [42#8], 0x0B#8⟩⟩])).any fun σ' =>
      σ'.socket.sends.queued.any fun e => decide (σ.socket.sends.nextId ≤ e.id)
        && guarded e.deliverable.packet && (σ'.socket.find? e.deliverable.location).isSome)
        (by decide +kernel)
  obtain ⟨σ', stepped, queued⟩ := (Option.any_eq_true _ _).mp ends
  obtain ⟨e, member, terms⟩ := List.any_eq_true.mp queued
  rw [Bool.and_eq_true, Bool.and_eq_true, decide_eq_true_eq, Option.isSome_iff_exists] at terms
  obtain ⟨⟨late, guards⟩, a, found⟩ := terms
  refine ⟨σ, σ', reached, stepped, e, member, guards, a, found, ?_⟩
  exact (only_probes_before_confirmation reached stepped).1 σ'.socket (List.mem_singleton.mpr rfl)
    e member late guards a found

end SctpStack
