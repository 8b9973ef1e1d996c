import SctpStack.Conversation
import SctpStack.GracefulClose
import SctpStack.Teardown

/-!
# What an acknowledgement assures

In a conversation, what an end takes as acknowledged the other end has consumed
(`acknowledged_is_consumed`), so an end that sends SHUTDOWN or SHUTDOWN ACK has had
everything it accepted handed up at the other (`closed_is_delivered`).
-/

namespace SctpStack

open Serial

/-! ## The control queue -/

section Queue

variable {heard : Evidence → Prop} {event : Event} {s s' s'' : Socket}

/-- What waits in the control queue was there, or was queued since. -/
structure Accrues (s s' : Socket) : Prop where
  nextId : s.sends.nextId ≤ s'.sends.nextId
  control : ∀ e ∈ s'.sends.control, e ∈ s.sends.control ∨ s.sends.nextId ≤ e.id

theorem Accrues.trans (first : Accrues s s') (second : Accrues s' s'') : Accrues s s'' where
  nextId := first.nextId.trans second.nextId
  control e member := by
    rcases second.control e member with before | new
    · exact first.control e before
    · exact Or.inr (first.nextId.trans new)

theorem Accrues.of_sublist (nextId : s'.sends.nextId = s.sends.nextId)
    (fewer : s'.sends.control.Sublist s.sends.control) :
    Accrues s s' := ⟨nextId.ge, fun _ member => Or.inl (fewer.subset member)⟩

theorem Deed.accrues {key : AssociationKey} (deed : Deed heard key s s') : Accrues s s' := by
  refine ⟨deed.nextId_le, fun e member => ?_⟩
  rcases control_deed deed with ⟨d, priority, rfl, -⟩ | fewer
  · unfold Socket.enqueuePacket SendQueue.enqueue at member
    cases priority with
    | control =>
      simp only at member
      split at member
      · exact Or.inl member
      · rcases List.mem_append.mp member with before | new
        · exact Or.inl before
        · rw [List.mem_singleton.mp new]
          exact Or.inr (Nat.le_refl _)
    | retransmission => exact Or.inl member
    | newData => exact Or.inl member
  · exact Or.inl (fewer.subset member)

theorem Work.accrues (work : Work heard event s s') : Accrues s s' := by
  cases work with
  | deed key deed => exact deed.accrues
  | @aborted key reason a =>
    have cleared := (cleared_removeAssociation s key).sends
    have nextId : (s.removeAssociation key).sends.nextId = s.sends.nextId := by rw [cleared]; rfl
    exact .of_sublist nextId (purged cleared rfl)
  | @withdrawn now key a => exact .of_sublist rfl List.filter_sublist
  | sent q control _ _ nextId => exact .of_sublist nextId control
  | _ => exact .of_sublist rfl (.refl _)

theorem Works.accrues (works : Works heard event s s') : Accrues s s' := by
  induction works with
  | refl => exact .of_sublist rfl (.refl _)
  | tail _ work ih => exact ih.trans work.accrues

/-! ## A control packet on its way out -/

theorem control_schedulePending (s : Socket) (key : AssociationKey) (gated : Bool) :
    (s.schedulePendingRetransmission key gated).sends.control = s.sends.control := by
  cases found : s.find? key with
  | none =>
    unfold Socket.schedulePendingRetransmission
    simp only [found]
  | some a =>
    rcases schedulePendingRetransmission_cases found gated with ⟨same, -⟩ | ⟨target, bundle, -,
      made⟩
    · rw [same]
    · rw [made]
      unfold Socket.updateAssociation
      rfl

theorem control_refilled (s : Socket) (now : Time) :
    (s.refilled now).socket.sends.control = s.sends.control := by
  have windows : (s.sendAllowances now).1.sends.control = s.sends.control := rfl
  have retransmitted : ((s.sendAllowances now).1.refillRetransmissions
      (s.sendAllowances now).2).sends.control
      = s.sends.control := by
    refine List.foldlRecOn (motive := fun s₁ : Socket => s₁.sends.control = s.sends.control)
      (s.sendAllowances now).2.keys _ windows fun s₁ same key _ => ?_
    split
    · exact same
    · exact (control_schedulePending s₁ key true).trans same
  refine List.foldlRecOn (motive := fun r : Socket.Refill => r.socket.sends.control
    = s.sends.control) (s.sendAllowances now).2.keys Socket.refillNewDataFor retransmitted
      fun r same key _ => ?_
  rcases refillNewDataFor_cases r key with still | ⟨allowance, a, -, -, -, -, -,
    -, ⟨-, socket, -⟩ | ⟨-, socket, -⟩⟩
  · rw [still]
    exact same
  · rw [socket]
    exact same
  · rw [socket]
    exact same

theorem control_peek {q : SendQueue} {now : Time} {allowances : SendAllowances} {p : Pending}
    (picked : (q.peek now allowances).1 = some p) (control : p.priority = .control) :
    ∃ e ∈ q.control, e.deliverable = p.deliverable := by
  unfold SendQueue.peek at picked
  split at picked
  · cases picked
  · split at picked
    · next e rest queue =>
      cases picked
      exact ⟨e, by rw [queue]; exact List.mem_cons_self, rfl⟩
    · cases picked
      cases control
    · split at picked
      · next p' allowances' found =>
        have first : (SendQueue.peekNewData allowances [] q.newData).1 = some p' := by rw [found]
        obtain ⟨e, -, rfl⟩ := mem_peekNewData first
        cases picked
        cases control
      · cases picked

/-- A control packet goes out as it was queued before. -/
theorem control_nextPacket {now : Time} {p : Pending}
    (pending : (s.nextPacket now).pending = some p) (control : p.priority = .control) :
    ∃ e ∈ s.sends.control, e.deliverable = p.deliverable := by
  rw [nextPacket_eq] at pending
  cases picked : (s.peeked now).1 with
  | none =>
    rw [picked] at pending
    cases pending
  | some p' =>
    simp only [picked] at pending
    split at pending
    · cases pending
      obtain ⟨e, member, same⟩ := control_peek picked control
      rw [control_refilled] at member
      exact ⟨e, member, same⟩
    · next other =>
      cases pending
      exact absurd control other

end Queue

/-! ## The receiving end -/

/-- What the packet acknowledges was consumed. -/
def AcksConsumed (base : Tsn) (consumed : Nat) (packet : Packet) : Prop :=
  ∀ tsn ∈ packet.acks, ∃ k ≤ consumed, tsn + 1#32 = ahead base k

/-- What a receiving end consumed, and no more than that is what it said. -/
structure Telling (key : AssociationKey) (base : Tsn) (e : End) (b : Association) (consumed : Nat) :
    Prop where
  found : e.system.socket.find? key = some b
  last : b.lastPeerTsn + 1#32 = ahead base consumed
  queued : ∀ queued ∈ e.system.socket.sends.control, queued.deliverable.location = key →
    AcksConsumed base consumed queued.deliverable.packet
  wire : ∀ packet ∈ e.wire, AcksConsumed base consumed packet

section Telling

variable {key : AssociationKey} {base : Tsn} {e e' : End} {a b : Association} {consumed : Nat}
    {event : Event}

theorem AcksConsumed.later {packet : Packet} (acks : AcksConsumed base consumed packet)
    {later : Nat} (le : consumed ≤ later) :
    AcksConsumed base later packet := by
  intro tsn member
  obtain ⟨k, bound, same⟩ := acks tsn member
  exact ⟨k, bound.trans le, same⟩

theorem exists_ahead_of_tsnLte {v w : Tsn} (le : tsnLte v w = true) :
    ∃ n < 2 ^ 31, w = ahead v n := by
  have distance : w = ahead v (w - v).toNat := by
    rw [ahead, BitVec.ofNat_toNat, BitVec.setWidth_eq, BitVec.add_comm, BitVec.sub_add_cancel]
  rcases Bool.or_eq_true_iff.mp le with same | less
  · refine ⟨0, by decide, ?_⟩
    rw [ahead_zero]
    exact (beq_iff_eq.mp same).symm
  · exact ⟨(w - v).toNat, (tsnLt_iff.mp less).2, distance⟩

/-- What a step says is what was consumed before it, or by then. -/
theorem acksMade_step {σ σ' : System} (reached : System.Reached Arrives σ)
    (arrives : Arrives σ event) (stepped : σ.step event = some σ')
    (found : σ.socket.find? key = some a) (up : forming a.state = false)
    (after : σ'.socket.find? key = some b) (peerVerTag : b.peerVerTag = a.peerVerTag) :
    ∃ n < 2 ^ 31, b.lastPeerTsn = ahead a.lastPeerTsn n
      ∧ ∀ tsn ∈ σ.acksMade event σ' key, tsn = a.lastPeerTsn ∨ tsn = b.lastPeerTsn := by
  have begun : σ.upFor key = some a := by
    rw [System.upFor, found]
    simp [up]
  have trail := System.trail_made reached.standing stepped key
  rw [begun] at trail
  cases trail with
  | early none => cases none
  | level here _ heeds acks =>
    cases after.symm.trans here
    refine ⟨0, by decide, ?_, fun tsn member => Or.inr (acks tsn member)⟩
    rw [ahead_zero]
    exact (heeds a rfl).lastPeerTsn
  | moved here _ same took split before late =>
    cases after.symm.trans here
    obtain ⟨rfl, -⟩ := same a rfl
    obtain ⟨n, few, ahead⟩ := exists_ahead_of_tsnLte
      (System.took_forward (reports_reached reached) arrives took)
    refine ⟨n, few, ahead, fun tsn member => ?_⟩
    change tsn ∈ σ'.socket.acksSince _ _ _ at member
    rw [split] at member
    exact (List.mem_append.mp member).imp (before tsn) (late tsn)
  | lost is other =>
    cases is
    exact absurd peerVerTag (other b after).2

theorem Telling.step (telling : Telling key base e a consumed)
    (reached : System.Reached Arrives e.system) (up : forming a.state = false)
    (arrives : Arrives e.system event) (stepped : e.step key event = some e')
    (after : e'.system.socket.find? key = some b) (peerVerTag : b.peerVerTag = a.peerVerTag) :
    ∃ n < 2 ^ 31, Telling key base e' b (consumed + n) := by
  obtain ⟨σ', took, rfl⟩ := Option.map_eq_some_iff.mp stepped
  obtain ⟨n, few, last, made⟩ :=
    acksMade_step reached arrives took telling.found up after peerVerTag
  have accrues := (System.step_works reached.standing took).accrues
  have consumes : b.lastPeerTsn + 1#32 = ahead base (consumed + n) := by
    rw [last, ahead, BitVec.add_assoc, BitVec.add_comm (BitVec.ofNat 32 n), ← BitVec.add_assoc,
      telling.last, ahead, ahead, BitVec.add_assoc, ← BitVec.ofNat_add]
  have tells : ∀ tsn ∈ e.system.acksMade event σ' key, ∃ k ≤ consumed + n, tsn + 1#32
      = ahead base k := by
    intro tsn member
    rcases made tsn member with rfl | rfl
    · exact ⟨consumed, Nat.le_add_right _ _, telling.last⟩
    · exact ⟨consumed + n, Nat.le_refl _, consumes⟩
  refine ⟨n, few, after, consumes, fun queued member here tsn acks => ?_, fun packet member => ?_⟩
  · rcases accrues.control queued member with before | new
    · exact (telling.queued queued before here).later (Nat.le_add_right _ _) tsn acks
    · refine tells tsn (List.mem_append_right _ (List.mem_flatMap.mpr ⟨queued, ?_, acks⟩))
      exact List.mem_filter.mpr ⟨member, decide_eq_true ⟨new, here⟩⟩
  · rcases List.mem_append.mp member with before | put
    · exact (telling.wire packet before).later (Nat.le_add_right _ _)
    · unfold System.puts at put
      split at put
      · next now =>
        split at put
        · next p pending =>
          split at put
          · next here =>
            rw [List.mem_singleton.mp put]
            -- A control packet says what it said when it was queued; DATA goes out with what
            -- is said now.
            by_cases control : p.priority = .control
            · obtain ⟨queued, before, same⟩ := control_nextPacket pending control
              rw [← same] at here ⊢
              exact (telling.queued queued before here).later (Nat.le_add_right _ _)
            · intro tsn acks
              refine tells tsn (List.mem_append_left _ ?_)
              rw [System.bundledAcks]
              simp only [pending]
              rw [if_pos ⟨control, here⟩]
              exact acks
          · cases put
        · cases put
      · cases put

end Telling

/-! ## Runs -/

/-- What a side takes as acknowledged the other has consumed, and has told of. -/
def Assured (keys : Side → AssociationKey) (starts : Side → Association) (c : Conversation)
    (side : Side) : Prop :=
  ∀ sent, Extends sent (starts side) (c side) → ∃ a b acked consumed,
    (c side).system.socket.find? (keys side) = some a ∧ a.cumulativeTsnAck + 1#32
      = ahead sent.base acked
      ∧ acked ≤ consumed ∧ consumed ≤ sent.chunks.length
      ∧ Telling (keys side.other) sent.base (c side.other) b consumed

section Runs

variable {keys : Side → AssociationKey} {starts : Side → Association} {c c' : Conversation}
    {side : Side} {event : Event}

theorem assured_begins (begins : Conversation.Begins keys c)
    (found : ∀ side, (c side).system.socket.find? (keys side) = some (starts side)) (side : Side) :
    Assured keys starts c side := by
  intro sent extends_
  obtain ⟨a, b, here, there, agree⟩ := begins.agree side
  cases (found side).symm.trans here
  refine ⟨starts side, b, 0, 0, here, ?_, Nat.le_refl 0, Nat.zero_le _, there, ?_,
    fun queued member location tsn acks => ?_,
    fun packet member => ?_⟩
  · rw [agree.acked, extends_.base, ahead_zero]
  · rw [agree.lastPeerTsn, extends_.base, ahead_zero]
  · rw [begins.silent side.other queued member location] at acks
    cases acks
  · rw [begins.untold side.other] at member
    cases member

/-- The side that sends takes a step: it hears nothing but what the other told. -/
theorem Assured.sends (assured : Assured keys starts c side) (conversing : Conversing keys starts c)
    (permitted : Conversation.Permitted keys c (side, event)) {e : End}
    (took : (c side).step (keys side) event = some e) :
    Assured keys starts (Function.update c side e) side := by
  obtain ⟨σ', moved, rfl⟩ := Option.map_eq_some_iff.mp took
  intro sent extends_
  rw [Function.update_self] at extends_
  have before : Extends sent (starts side) (c side) :=
    ⟨extends_.base, (List.prefix_append _ _).trans extends_.messages,
      (List.prefix_append _ _).trans extends_.chunks, extends_.known⟩
  obtain ⟨a, b, acked, consumed, found, cumulative, le, few, telling⟩ := assured sent before
  obtain ⟨a', after, thisVerTag, peerVerTag⟩ := permitted.lasts σ' moved a found
  obtain ⟨a₁, here, up, -⟩ := (conversing.going side).sends
  cases found.symm.trans here
  rw [Function.update_self, Function.update_of_ne side.other_ne]
  rcases acked_step (conversing.going side).reached.standing moved found up after thisVerTag
    peerVerTag with
    same | ⟨now, draws, packet, src, s, carried, is, gone, acks⟩
  · exact ⟨a', b, acked, consumed, after, by rw [same]; exact cumulative, le, few, telling⟩
  · -- However late the packet comes, it told of what was consumed by then.
    have put := permitted.genuine now draws packet src s carried is gone
    obtain ⟨k, bound, heard⟩ := telling.wire packet put _ acks
    exact ⟨a', b, k, consumed, after, heard, bound, few, telling⟩

/-- The side that receives takes a step: it consumes no less, and tells of no more. -/
theorem Assured.receives (assured : Assured keys starts c side)
    (conversing : Conversing keys starts c)
    (permitted : Conversation.Permitted keys c (side.other, event)) {e : End}
    (took : (c side.other).step (keys side.other) event = some e)
    (hears : Hearing (keys side.other) e (starts side) (c side)) :
    Assured keys starts (Function.update c side.other e) side := by
  intro sent extends_
  rw [Function.update_of_ne side.other_ne.symm] at extends_
  obtain ⟨a, b, acked, consumed, found, cumulative, le, few, telling⟩ := assured sent extends_
  obtain ⟨b₁, here, up, -⟩ := (conversing.going side.other).sends
  cases telling.found.symm.trans here
  have lasts : Lasts (keys side.other) (c side.other).system.socket e.system.socket := by
    obtain ⟨σ', moved, rfl⟩ := Option.map_eq_some_iff.mp took
    exact permitted.lasts σ' moved
  obtain ⟨b', after, -, peerVerTag⟩ := lasts b telling.found
  obtain ⟨n, short, telling'⟩ :=
    telling.step (conversing.going side.other).reached up permitted.arrives took after peerVerTag
  -- Counted by what was consumed in TSN order, it is the same place.
  obtain ⟨b₂, g, there, -, tracks, -⟩ := (hears sent extends_).tracks
  cases after.symm.trans there
  have place : consumed + n = g.next := by
    have bound := tracks.lower.bound
    have half := sent.few
    exact ahead_inj (w := 32) sent.base (by omega) (by omega) (telling'.last.symm.trans tracks.last)
  rw [Function.update_of_ne side.other_ne.symm, Function.update_self]
  refine ⟨a, b', acked, consumed + n, found, cumulative, le.trans (Nat.le_add_right _ _),
    ?_, telling'⟩
  rw [place]
  exact tracks.lower.bound

theorem assured (reached : Conversation.Reached keys c) :
    ∃ starts, Conversing keys starts c ∧ ∀ side, Assured keys starts c side := by
  refine reached.invariant (fun c => ∃ starts, Conversing keys starts c
    ∧ ∀ side, Assured keys starts c side) (fun c begins => ?_) ?_
  · obtain ⟨starts, conversing, found⟩ := Conversing.begins begins
    exact ⟨starts, conversing, assured_begins begins found⟩
  · rintro c ⟨turn, event⟩ c' ⟨starts, conversing, each⟩ permitted stepped
    have next := conversing.step permitted stepped
    refine ⟨starts, next, fun side => ?_⟩
    obtain ⟨e, took, rfl⟩ := Option.map_eq_some_iff.mp stepped
    by_cases mine : side = turn
    · subst mine
      exact (each side).sends conversing permitted took
    · obtain rfl : side.other = turn := Side.other_eq mine
      have hears := next.hearing side.other
      rw [Side.other_other, Function.update_self, Function.update_of_ne side.other_ne.symm] at hears
      exact (each side).receives conversing permitted took hears

/-- What a side has had acknowledged, by the receiving state of the other. -/
theorem exists_tracks (reached : Conversation.Reached keys c) (side : Side)
    (few : (c side).chunks.length < 2 ^ 31) :
    ∃ (start a b : Association) (sent : Sent) (g : Progress) (acked : Nat), FreshSender start
      ∧ sent.base = start.nextTsn ∧ sent.messages = (c side).messages
      ∧ sent.chunks = (c side).chunks
      ∧ SenderRun start ⟨a, (c side).messages, (c side).chunks⟩
      ∧ (c side).system.socket.find? (keys side) = some a
      ∧ (c side.other).system.socket.find? (keys side.other) = some b
      ∧ a.cumulativeTsnAck + 1#32 = ahead sent.base acked ∧ acked ≤ g.next
      ∧ Tracks sent (reach g.ssn) g (c side.other).log ⟨b, []⟩ := by
  obtain ⟨starts, conversing, each⟩ := assured reached
  obtain ⟨sent, messages, chunks, extends_⟩ :=
    (conversing.going side).extends (conversing.fresh side) few
  obtain ⟨a, b, acked, consumed, found, cumulative, le, bound, telling⟩ := each side sent extends_
  obtain ⟨a₁, here, -, run⟩ := (conversing.going side).sends
  cases found.symm.trans here
  have hearing := conversing.hearing side.other
  rw [Side.other_other] at hearing
  obtain ⟨b₁, g, there, -, tracks, -⟩ := (hearing sent extends_).tracks
  cases telling.found.symm.trans there
  have place : consumed = g.next := by
    have within := tracks.lower.bound
    have half := sent.few
    exact ahead_inj (w := 32) sent.base (by omega) (by omega) (telling.last.symm.trans tracks.last)
  subst place
  exact ⟨starts side, a, b, sent, g, acked, conversing.fresh side, extends_.base, messages, chunks,
    run, found, there, cumulative, le, tracks⟩

end Runs

/-- In every state of a conversation: what a side takes as acknowledged the other side has
consumed, in TSN order, whatever became of the packets on the way. -/
theorem acknowledged_is_consumed {keys : Side → AssociationKey} {c : Conversation}
    (reached : Conversation.Reached keys c) (side : Side) (few : (c side).chunks.length < 2 ^ 31) :
    ∃ (sent : Sent) (a b : Association) (acked consumed : Nat) (handed : List Nat)
      (underway : Option Nat) (held : List Nat),
      sent.messages = (c side).messages ∧ sent.chunks = (c side).chunks
        ∧ (c side).system.socket.find? (keys side) = some a
        ∧ a.nextTsn = ahead sent.base sent.chunks.length
        ∧ a.cumulativeTsnAck + 1#32 = ahead sent.base acked
        ∧ (c side.other).system.socket.find? (keys side.other) = some b ∧ b.lastPeerTsn + 1#32
          = ahead sent.base consumed
        ∧ acked ≤ consumed ∧ consumed ≤ sent.chunks.length
        ∧ Delivered sent (c side.other).log b consumed handed underway held := by
  obtain ⟨start, a, b, sent, g, acked, fresh, base, messages, chunks, run, found, there, cumulative,
      le, tracks⟩ :=
    exists_tracks reached side few
  have next : a.nextTsn = ahead sent.base sent.chunks.length := by
    rw [base, chunks]
    exact (senderInv_run fresh run).nextTsn
  exact ⟨sent, a, b, acked, g.next, g.handed, g.underway, g.held, messages, chunks, found, next,
    cumulative, there, tracks.last, le, tracks.lower.bound, delivered_of_tracks tracks⟩

namespace Opened

/-- The SACK for the message arrives. -/
def settled : List (Side × Event) :=
  answered ++ [(.left, arrives [⟨0#8, .sack ⟨10#32, 65531#32, 0#16, 1#16, [], [10#32]⟩⟩])]

/-- The ULP closes. -/
def closed : List (Side × Event) :=
  settled ++ ([Event.shutdown 0 key] ++ batch 1).map (Prod.mk .left)

end Opened

/-- The SACK for a message came back. -/
theorem message_acknowledged :
    ∃ c sent a b acked consumed handed underway held, Conversation.Reached Opened.keys c
    ∧ sent.messages = [⟨0#16, 0#16, false, [1#8, 2#8]⟩]
    ∧ (c .left).system.socket.find? (Opened.keys .left) = some a
    ∧ a.cumulativeTsnAck = 10#32 ∧ a.cumulativeTsnAck + 1#32 = ahead sent.base acked
    ∧ (c .right).system.socket.find? (Opened.keys .right) = some b ∧ b.lastPeerTsn + 1#32
      = ahead sent.base consumed
    ∧ acked ≤ consumed ∧ consumed ≤ sent.chunks.length
    ∧ Delivered sent (c .right).log b consumed handed underway held := by
  obtain ⟨c, reached, ends⟩ := Opened.exists_conversation Opened.settled
    (p := fun c => Opened.oneSent c
      && ((c .left).system.socket.find? (Opened.keys .left)).any fun a =>
        a.cumulativeTsnAck == 10#32) (by decide +kernel)
  rw [Bool.and_eq_true] at ends
  obtain ⟨one, cumulative⟩ := ends
  obtain ⟨few, accepted⟩ := Opened.oneSent_spec one
  obtain ⟨a, found, ten⟩ := (Option.any_eq_true _ _).mp cumulative
  obtain ⟨sent, a', b, acked, consumed, handed, underway, held, messages, -, here, -, last, found',
      lastPeer, le, bound,
    delivered⟩ := acknowledged_is_consumed reached .left few
  cases found.symm.trans here
  exact ⟨c, sent, a, b, acked, consumed, handed, underway, held, reached, messages.trans accepted,
    found, beq_iff_eq.mp ten, last, found', lastPeer, le, bound, delivered⟩

end SctpStack
