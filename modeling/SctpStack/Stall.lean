import SctpStack.Partition
import SctpStack.Health
import SctpStack.Flooding
import Mathlib.Algebra.BigOperators.Group.List.Basic

/-!
# The sender never stalls silently

When `next_packet` finds nothing to send, something withholds what there is: a window, a
burst, or a path that is busy. Whatever it is, a timer runs that takes it up again
(`no_silent_stall`). Either DATA is unacknowledged, and then it is timed or lies behind
DATA that is; or nothing is in flight, and then only the peer's window can be in the
way, and its probe is armed.
-/

namespace SctpStack

/-! ## A burst leaves something unacknowledged -/

/-- Something is outstanding that no gap ack block covers. -/
def Unacked (a : Association) :
    Prop := ∃ tsn o, a.outstandingData.get? tsn = some o ∧ o.gapAcked = false

/-- No packet of new DATA is empty, and while the event loop sends, what it counted of a
burst is unacknowledged. -/
structure Bursting (sending : Prop) (s : Socket) (key : AssociationKey) (a : Association) :
    Prop where
  carried : ∀ q ∈ newDataFor s key, q.deliverable.packet.dataChunks ≠ []
  burst : sending → 0 < a.burstCount → Unacked a

theorem bursting_senderProp (sending : Prop) : SenderProp (Bursting sending) where
  fresh := by
    intro s key a new empty
    refine ⟨by simp [empty.1], fun _ some => ?_⟩
    rw [new.burstCount] at some
    cases some
  same := by
    intro s s' key a b core queued _ holds
    refine ⟨?_, fun sends some => ?_⟩
    · rw [queued.1]
      exact holds.carried
    · rw [core.burstCount] at some
      obtain ⟨tsn, o, entry, unacked⟩ := holds.burst sends some
      exact ⟨tsn, o, core.outstandingData ▸ entry, unacked⟩

theorem Unacked.gaps {a b : Association} (unacked : Unacked a) (gaps : SameGaps a b) :
    Unacked b := by
  obtain ⟨tsn, o, entry, open_⟩ := unacked
  have same := gaps tsn
  rw [entry, Option.map_some, Option.map_eq_some_iff] at same
  obtain ⟨o', entry', same⟩ := same
  exact ⟨tsn, o', entry', same.trans open_⟩

/-- What went out is unacknowledged. -/
theorem Recorded.unacked {ip : BitVec 32} {chunks : List DataChunkValue} {a b : Association}
    (recorded : Recorded ip chunks a b) {data : DataChunkValue} (member : data ∈ chunks) :
    Unacked b := by
  have here : sentData b data.tsn ≠ none := by
    rw [recorded.sent]
    intro none
    rw [Option.or_eq_none_iff, List.find?_eq_none] at none
    exact none.2 data member (by simp)
  obtain ⟨o, entry⟩ := sentData_ne_none.mp here
  rcases recorded.entries data.tsn o entry with ⟨-, others⟩ | ⟨-, open_, -⟩
  · exact absurd rfl (others data member)
  · exact ⟨data.tsn, o, entry, open_⟩

/-- What was unacknowledged is so after more went out. -/
theorem Recorded.still {ip : BitVec 32} {chunks : List DataChunkValue} {a b : Association}
    (recorded : Recorded ip chunks a b) (unacked : Unacked a) : Unacked b := by
  obtain ⟨tsn, o, entry, open_⟩ := unacked
  have here : sentData b tsn ≠ none := by
    rw [recorded.sent, sentData, entry]
    simp
  obtain ⟨o', entry'⟩ := sentData_ne_none.mp here
  refine ⟨tsn, o', entry', ?_⟩
  rcases recorded.entries tsn o' entry' with ⟨old, -⟩ | ⟨-, new, -⟩
  · rw [entry] at old
    cases old
    exact open_
  · exact new

theorem Bursting.sent {sending : Prop} {s s' : Socket} {p : Pending} {sentAt : Time}
    {a : Association} (holds : Bursting sending s p.deliverable.location a)
    (picked : DataPicked s p) (step : SentStep p sentAt s s' a)
    (recorded : Recorded p.deliverable.destination.addr p.deliverable.packet.dataChunks
      a (afterSent a p sentAt)) :
    Bursting sending s' p.deliverable.location (afterSent a p sentAt) := by
  refine ⟨fun q member => holds.carried q ?_, fun sends some => ?_⟩
  · rw [step.newData] at member
    split at member
    · exact List.mem_of_mem_filter member
    · exact member
  · rcases picked.queued with ⟨priority, -⟩ | ⟨q, -, member, as⟩
    · have before : 0 < a.burstCount := by simpa [afterSent, priority] using some
      exact recorded.still (holds.burst sends before)
    · have carried := holds.carried q member
      rw [← as.dataChunks] at carried
      obtain ⟨data, inside⟩ := List.exists_mem_of_ne_nil _ carried
      exact recorded.unacked inside

/-- A new transmission opportunity counts from zero. -/
theorem Bursting.opportunity {sending sending' : Prop} {s : Socket}
    (holds : Sends (Bursting sending) s) :
    Sends (Bursting sending') s.startTransmissionOpportunity := by
  intro key b found transmits
  rw [Socket.startTransmissionOpportunity, Socket.find?, KeyMap.get?_mapVals,
    Option.map_eq_some_iff] at found
  obtain ⟨a, before, rfl⟩ := found
  exact ⟨(holds key a before transmits).carried, fun _ some => by cases some⟩

theorem bursting_keeps (sending : Prop) :
    Keeps (fun s _ => Sends (Bursting sending) s) fun s _ => Sends (Bursting sending) s where
  calm := fun ok calm holds => (bursting_senderProp sending).calm ok calm holds
  drain := fun _ holds k a found transmits =>
    ⟨(holds k a found transmits).carried, (holds k a found transmits).burst⟩
  opportunity := .opportunity
  resend := by
    intro s s' key a b ok step holds
    refine (bursting_senderProp sending).aside ok step.step.aside step.step.found (fun transmits =>
      ?_) holds
    have old := holds key a step.found (step.state ▸ transmits)
    refine ⟨?_, fun sends some => ?_⟩
    · rw [step.step.newData]
      exact old.carried
    · rw [step.step.burstCount] at some
      exact (old.burst sends some).gaps step.gaps
  cuts := by
    intro s s' key a b cut chunks ok found transmits step holds
    refine (bursting_senderProp sending).aside ok step.aside step.found (fun _ => ?_) holds
    have old := holds key a found transmits
    refine ⟨?_, ?_⟩
    · rcases step.newData with ⟨-, same⟩ | ⟨some, -, q, queue, carried, -⟩
      · rw [same]
        exact old.carried
      · rw [queue]
        intro q' member
        rw [List.mem_singleton.mp member, carried]
        exact some
    · rw [step.only]
      exact old.burst
  sent := by
    intro s s' p sentAt a cut ok out holds
    refine (bursting_senderProp sending).aside ok out.step.aside out.step.found (fun transmits =>
      ?_) holds
    rw [afterSent_state] at transmits
    have placed := out.picked.placed (((ok.keys _).assoc a out.found).covered transmits)
    exact (holds _ a out.found transmits).sent out.picked out.step
      (afterSent_recorded sentAt transmits placed)
  done := id

theorem bursting_reached {allowed : System → Event → Prop} {σ : System}
    (reached : System.Reached allowed σ) :
    Sends (Bursting (σ.batch ≠ none)) σ.socket := by
  induction reached with
  | start initial =>
    obtain ⟨address, rfl⟩ := initial
    intro key a found
    cases found
  | @next σ σ' event reached _ stepped ih =>
    -- Acknowledgements are handled while the event loop does not send.
    have acks : ∀ now draws packet src, event = .recv now draws packet src → ∀ key chunk s₁ s₂ a b,
        Orderly s₁ everyDue → AckStep key chunk s₁ s₂ a b → Sends (Bursting (σ.batch ≠ none)) s₁ →
        Sends (Bursting (σ.batch ≠ none)) s₂ := by
      intro now draws packet src recv key chunk s₁ s₂ a b ok step holds
      obtain ⟨gone, sender⟩ := step.sender
      refine (bursting_senderProp _).aside ok sender.aside sender.found (fun _ =>
        ⟨?_, fun sends => ?_⟩) holds
      · rw [sender.newData]
        exact (holds key a step.found step.transmits).carried
      · rw [recv] at stepped
        cases idle : σ.batch with
        | none => exact absurd idle sends
        | some n => simp [System.step, idle, System.call] at stepped
    obtain ⟨-, holds, -⟩ := System.step_keeps (bursting_keeps (σ.batch ≠ none))
      (orderly_reached reached) (fun now draws packet src recv _ key _ _ chunk _ =>
        acks now draws packet src recv key chunk) ih stepped
    rcases System.step_cases stepped with ⟨now, draws, packet, src, -, -, rfl⟩ | ⟨now, draws, -,
      -, rfl⟩ | ⟨-, -, rfl⟩
      | ⟨now, accepted, left, -, sends, rfl⟩ | ⟨s, -, rfl⟩
    · exact holds
    · exact holds
    · exact .opportunity ih
    · exact fun k a found transmits => ⟨(holds k a found transmits).carried,
        fun _ => (holds k a found transmits).burst (by simp [sends])⟩
    · exact holds

/-! ## What `next_packet` finds -/

/-- Nothing is found although the queue does not back off: no control packet and no
retransmission is queued, and no packet of new DATA is admitted. -/
theorem peek_none {q : SendQueue} {now : Time} {allowances : SendAllowances}
    (ready : q.nextSendAttempt ≤ now) (nothing : (q.peek now allowances).1 = none) :
    q.retransmission = [] ∧ (SendQueue.peekNewData allowances [] q.newData).1 = none
      ∧ (q.peek now allowances).2.2 = (SendQueue.peekNewData allowances [] q.newData).2 := by
  unfold SendQueue.peek at *
  rw [if_neg (Int.not_lt.mpr ready)] at nothing ⊢
  cases control : q.control with
  | cons first rest =>
    rw [control] at nothing
    cases nothing
  | nil =>
    cases retransmission : q.retransmission with
    | cons first rest =>
      rw [control, retransmission] at nothing
      cases nothing
    | nil =>
      rw [control, retransmission] at nothing
      simp only at nothing ⊢
      cases peeked : SendQueue.peekNewData allowances [] q.newData with
      | mk pending after =>
        rw [peeked] at nothing
        cases pending with
        | some p => cases nothing
        | none => exact ⟨trivial, rfl, rfl⟩

/-- The allowance of a key that was refused is not looked at again. -/
theorem peekNewData_refused {key : AssociationKey} (queue : List Queued)
    (allowances : SendAllowances) (refused : List AssociationKey) (closed : key ∈ refused) :
    (SendQueue.peekNewData allowances refused queue).2.get? key = allowances.get? key := by
  induction queue generalizing allowances refused with
  | nil => rfl
  | cons queued rest ih =>
    unfold SendQueue.peekNewData
    simp only
    split
    · exact ih allowances refused closed
    · next other =>
      have apart : key ≠ queued.deliverable.location := fun same => other (same ▸ closed)
      split
      · exact ih allowances _ (List.mem_append_left _ closed)
      · split
        · rw [KeyMap.get?_put, if_neg apart]
        · rw [ih _ _ (List.mem_append_left _ closed), KeyMap.get?_put, if_neg apart]

/-- How a scan that finds nothing leaves the allowance of a key: it came to no packet of
the key, or it came to one and the allowance refused it. -/
inductive ScanLeaves (key : AssociationKey) (allowance : SendAllowance) (queue : List Queued)
    (after : SendAllowances) :
    Prop where
  | unseen : (∀ q ∈ queue, q.deliverable.location ≠ key) → after.get? key = some allowance →
      ScanLeaves key allowance queue after
  | refused (q : Queued) : (admits allowance q.deliverable.packet).1 = false →
      after.get? key = some (admits allowance q.deliverable.packet).2 →
        ScanLeaves key allowance queue after

theorem ScanLeaves.cons {key : AssociationKey} {allowance : SendAllowance} {queue : List Queued}
    {after : SendAllowances} {queued : Queued} (apart : queued.deliverable.location ≠ key)
    (leaves : ScanLeaves key allowance queue after) :
    ScanLeaves key allowance (queued :: queue) after := by
  cases leaves with
  | unseen none left =>
    refine .unseen (fun q member => ?_) left
    rcases List.mem_cons.mp member with rfl | later
    · exact apart
    · exact none q later
  | refused q refuses noted => exact .refused q refuses noted

theorem peekNewData_none {allowances : SendAllowances} {refused : List AssociationKey}
    {queue : List Queued} (nothing : (SendQueue.peekNewData allowances refused queue).1 = none)
    {key : AssociationKey} (open_ : key ∉ refused) {allowance : SendAllowance}
    (allowed : allowances.get? key = some allowance) :
    ScanLeaves key allowance queue (SendQueue.peekNewData allowances refused queue).2 := by
  induction queue generalizing allowances refused with
  | nil => exact .unseen (by simp) allowed
  | cons queued rest ih =>
    unfold SendQueue.peekNewData at nothing ⊢
    simp only at nothing ⊢
    by_cases closed : queued.deliverable.location ∈ refused
    · rw [if_pos closed] at nothing ⊢
      exact .cons (fun same => open_ (same ▸ closed)) (ih nothing open_ allowed)
    · rw [if_neg closed] at nothing ⊢
      cases here : allowances.get? queued.deliverable.location with
      | none =>
        rw [here] at nothing
        have apart : queued.deliverable.location ≠ key := by
          intro same
          rw [same, allowed] at here
          cases here
        refine .cons apart (ih nothing (fun member => ?_) allowed)
        rcases List.mem_append.mp member with old | new
        · exact open_ old
        · exact apart (List.mem_singleton.mp new).symm
      | some allowance' =>
        rw [here] at nothing
        simp only at nothing ⊢
        cases admitted : (admits allowance' queued.deliverable.packet).1 with
        | true =>
          rw [admitted, if_pos rfl] at nothing
          cases nothing
        | false =>
          rw [admitted, if_neg Bool.false_ne_true] at nothing
          rw [if_neg Bool.false_ne_true]
          by_cases same : queued.deliverable.location = key
          · rw [same, allowed] at here
            cases here
            refine .refused queued admitted ?_
            rw [peekNewData_refused _ _ _ (by simp [same]), KeyMap.get?_put, if_pos same.symm]
          · refine .cons same (ih nothing (fun member => ?_) ?_)
            · rcases List.mem_append.mp member with old | new
              · exact open_ old
              · exact same (List.mem_singleton.mp new).symm
            · rw [KeyMap.get?_put, if_neg (Ne.symm same)]
              exact allowed

/-! ## Retransmissions -/

theorem schedulePending_queue (s : Socket) (key : AssociationKey) (gated : Bool) :
    s.schedulePendingRetransmission key gated = s
      ∨ ∃ q, (s.schedulePendingRetransmission key gated).sends.retransmission
        = s.sends.retransmission ++ [q] := by
  cases found : s.find? key with
  | none =>
    unfold Socket.schedulePendingRetransmission
    simp only [found, true_or]
  | some a =>
    rcases schedulePendingRetransmission_cases found gated with ⟨same, -⟩ | ⟨target, bundle, -,
      made⟩
    · exact Or.inl same
    · rw [made]
      exact Or.inr ⟨_, rfl⟩

/-- If no retransmission is queued in the end, none was scheduled. -/
theorem refillRetransmissions_idle (keys : List AssociationKey) (s : Socket)
    (empty : (keys.foldl (fun s key => if s.sends.hasRetransmissionFor key then s
      else s.schedulePendingRetransmission key true) s).sends.retransmission = []) :
    keys.foldl (fun s key => if s.sends.hasRetransmissionFor key then s
        else s.schedulePendingRetransmission key true) s = s
      ∧ ∀ key ∈ keys, s.schedulePendingRetransmission key true = s := by
  induction keys generalizing s with
  | nil => exact ⟨rfl, by simp⟩
  | cons key rest ih =>
    rw [List.foldl_cons] at empty ⊢
    obtain ⟨same, idle⟩ := ih _ empty
    rw [same] at empty ⊢
    by_cases busy : s.sends.hasRetransmissionFor key = true
    · rw [if_pos busy] at empty
      obtain ⟨q, member, -⟩ := List.any_eq_true.mp busy
      rw [empty] at member
      cases member
    · rw [if_neg busy] at empty idle ⊢
      rcases schedulePending_queue s key true with unchanged | ⟨q, more⟩
      · rw [unchanged] at idle ⊢
        refine ⟨rfl, fun k member => ?_⟩
        rcases List.mem_cons.mp member with rfl | later
        · exact unchanged
        · exact idle k later
      · rw [more] at empty
        simp at empty

/-! ## New DATA -/

/-- Refilling for one association does not concern another. -/
theorem refillNewDataFor_other (r : Socket.Refill) {key k : AssociationKey} (other : k ≠ key) :
    (Socket.refillNewDataFor r key).socket.find? k = r.socket.find? k
      ∧ (Socket.refillNewDataFor r key).allowances.get? k = r.allowances.get? k
      ∧ newDataFor (Socket.refillNewDataFor r key).socket k = newDataFor r.socket k := by
  rcases refillNewDataFor_cases r key with same | ⟨allowance, a, -, -, -, -, -, allowances, done⟩
  · rw [same]
    exact ⟨rfl, rfl, rfl⟩
  · rw [allowances, KeyMap.get?_put, if_neg other]
    rcases done with ⟨-, socket, -⟩ | ⟨-, socket, -⟩
    · rw [socket]
      exact ⟨by simp [other], rfl, rfl⟩
    · rw [socket, newDataFor_sendNew]
      refine ⟨by simp [other], rfl, ?_⟩
      rw [if_neg (Ne.symm other), newDataFor_set, List.append_nil]

theorem refillNewDataFor_retransmission (r : Socket.Refill) (key : AssociationKey) :
    (Socket.refillNewDataFor r key).socket.sends.retransmission = r.socket.sends.retransmission
      ∧ (Socket.refillNewDataFor r key).socket.sends.nextSendAttempt
        = r.socket.sends.nextSendAttempt
      ∧ (Socket.refillNewDataFor r key).socket.expirations = r.socket.expirations := by
  rcases refillNewDataFor_cases r key with same | ⟨allowance, a, -, -, -, -, -, -, done⟩
  · rw [same]
    exact ⟨rfl, rfl, rfl⟩
  · rcases done with ⟨-, socket, -⟩ | ⟨-, socket, -⟩ <;> rw [socket] <;> exact ⟨rfl, rfl, rfl⟩

/-- Nothing changes for a key while others have their turn. -/
theorem refillNewData_others {keys : List AssociationKey} (r : Socket.Refill) {key : AssociationKey}
    (absent : key ∉ keys) :
    (keys.foldl Socket.refillNewDataFor r).socket.find? key = r.socket.find? key
      ∧ (keys.foldl Socket.refillNewDataFor r).allowances.get? key = r.allowances.get? key
      ∧ newDataFor (keys.foldl Socket.refillNewDataFor r).socket key = newDataFor r.socket key := by
  refine List.foldlRecOn (motive := fun r' : Socket.Refill => r'.socket.find? key
    = r.socket.find? key
    ∧ r'.allowances.get? key = r.allowances.get? key
    ∧ newDataFor r'.socket key = newDataFor r.socket key) keys _ ⟨rfl, rfl, rfl⟩
      fun r' same k inside => ?_
  obtain ⟨found, allowed, queued⟩ :=
    refillNewDataFor_other r' (fun equal => absent (equal ▸ inside) : key ≠ k)
  exact ⟨found.trans same.1, allowed.trans same.2.1, queued.trans same.2.2⟩

/-- Each association is refilled for once, as it was. -/
theorem refillNewData_at (keys : List AssociationKey) (distinct : keys.Nodup) {key : AssociationKey}
    (member : key ∈ keys) (r : Socket.Refill) :
    ∃ r', r'.socket.find? key = r.socket.find? key ∧ r'.allowances.get? key = r.allowances.get? key
      ∧ newDataFor r'.socket key = newDataFor r.socket key
      ∧ (keys.foldl Socket.refillNewDataFor r).socket.find? key
        = (Socket.refillNewDataFor r' key).socket.find? key
      ∧ (keys.foldl Socket.refillNewDataFor r).allowances.get? key
        = (Socket.refillNewDataFor r' key).allowances.get? key
      ∧ newDataFor (keys.foldl Socket.refillNewDataFor r).socket key
        = newDataFor (Socket.refillNewDataFor r' key).socket key := by
  obtain ⟨before, after, rfl⟩ := List.append_of_mem member
  rw [List.nodup_append, List.nodup_cons] at distinct
  obtain ⟨-, ⟨notAfter, -⟩, apart⟩ := distinct
  have notBefore : key ∉ before := fun inside => apart key inside key List.mem_cons_self rfl
  obtain ⟨found, allowed, queued⟩ := refillNewData_others r notBefore
  refine ⟨before.foldl Socket.refillNewDataFor r, found, allowed, queued, ?_⟩
  rw [List.foldl_append, List.foldl_cons]
  exact refillNewData_others _ notAfter

/-- An association with messages left for which nothing is cut is held back by the
peer's window, and is not allowed to probe it. -/
theorem cutNewData_blocked {a : Association} {allowance : SendAllowance} (ok : PathsOk a)
    (left : (cutNewData a allowance).assoc.outbound ≠ [])
    (none : (cutNewData a allowance).chunks = []) :
    (cutNewData a allowance).rwndBlocked = true ∧ allowance.zeroWindowProbe = false := by
  unfold cutNewData cutNewDataFrom at *
  cases queue : a.outbound with
  | nil =>
    simp only [queue] at left
    exact absurd rfl left
  | cons message rest =>
    simp only [queue, Bool.and_true] at none ⊢
    cases size : cutSize a allowance 0 allowance.zeroWindowProbe message with
    | none =>
      refine ⟨rfl, ?_⟩
      by_contra probes
      rw [Bool.not_eq_false] at probes
      -- A probe is held back by nothing but the packet, and a fragment always fits one.
      have fits : ¬fragmentWireSize (min (message.bytes.length - message.offset) (fullFragment a))
          > a.pmdcs - 0 := by
        have small := Nat.min_le_right (message.bytes.length - message.offset) (fullFragment a)
        simp only [fragmentWireSize, fullFragment, pad4, dataChunkHeaderSize, ok.pmdcs,
          defaultPmdcs] at small ⊢
        omega
      rw [cutSize, probes] at size
      simp only [if_true] at size
      rw [if_neg fits] at size
      cases size
    | some take =>
      simp only [size] at none
      split at none
      · cases none
      · cases none

/-- An association that may send and has no packet queued is cut for. -/
theorem refillNewDataFor_open {r : Socket.Refill} {key : AssociationKey} {allowance : SendAllowance}
    {a : Association} (allowed : r.allowances.get? key = some allowance)
    (found : r.socket.find? key = some a) (cwnd : allowance.cwndOpen = true)
    (burst : allowance.burstSpent = false) (empty : newDataFor r.socket key = []) :
    (Socket.refillNewDataFor r key).socket.find? key = some (cutNewData a allowance).assoc
      ∧ (Socket.refillNewDataFor r key).allowances.get? key
        = some { allowance with rwndBlocked := allowance.rwndBlocked
          || (cutNewData a allowance).rwndBlocked }
      ∧ (newDataFor (Socket.refillNewDataFor r key).socket key = [] →
        (cutNewData a allowance).chunks = []) := by
  have none : r.socket.sends.hasNewDataFor key = false := by
    rw [SendQueue.hasNewDataFor, List.any_eq_false]
    exact fun q member => List.filter_eq_nil_iff.mp empty q member
  unfold Socket.refillNewDataFor
  simp only [allowed, found, cwnd, burst, none, Bool.not_true, Bool.or_self, Bool.false_eq_true,
    if_false]
  split
  · next nothing => exact ⟨by simp, by simp, fun _ => List.isEmpty_iff.mp nothing⟩
  · refine ⟨by simp, by simp, fun gone => ?_⟩
    rw [newDataFor_sendNew, if_pos rfl] at gone
    simp at gone

/-- A packet that is queued stays as it is. -/
theorem refillNewDataFor_queued {r : Socket.Refill} {key : AssociationKey}
    (queued : newDataFor r.socket key ≠ []) :
    Socket.refillNewDataFor r key = r := by
  rcases refillNewDataFor_cases r key with same | ⟨-, -, -, -, -, -, empty, -⟩
  · exact same
  · exact absurd empty queued

/-! ## What holds a packet back -/

theorem flightOf_eq_zero {a : Association} (acked : ¬Unacked a) (onPath : OutstandingData → Bool) :
    flightOf a onPath = 0 := by
  unfold flightOf
  refine List.sum_eq_zero fun n member => ?_
  obtain ⟨entry, inside, rfl⟩ := List.mem_map.mp member
  have gap : entry.2.gapAcked = true := by
    by_contra open_
    exact acked ⟨entry.1, entry.2, KeyMap.mem_entries.mp inside, by simpa using open_⟩
  simp [gap]

/-- A closed cwnd means DATA in flight on the path. -/
theorem flying_of_closed {a : Association} (wide : ∀ path ∈ a.peerAddressList, 0 < path.cwnd)
    {i : Nat} (bound : i < a.peerAddressList.length) (closed : cwndOpen a i = false) :
    ∃ tsn o, a.outstandingData.get? tsn = some o ∧ o.gapAcked = false ∧ o.pendingRetransmission
      = false := by
  have positive : 0 < (a.path i).cwnd := by
    rw [Association.path, List.getD_eq_getElem _ _ bound]
    exact wide _ (List.getElem_mem bound)
  have flying : bytesInFlightOn a i ≠ 0 := by
    intro zero
    unfold cwndOpen at closed
    rw [zero] at closed
    split at closed
    · cases closed
    · rw [decide_eq_false_iff_not] at closed
      exact closed positive
  by_contra none
  refine flying (List.sum_eq_zero fun n member => ?_)
  obtain ⟨entry, inside, rfl⟩ := List.mem_map.mp member
  by_cases open_ : entry.2.gapAcked = false ∧ entry.2.pendingRetransmission = false
  · exact absurd ⟨entry.1, entry.2, KeyMap.mem_entries.mp inside, open_⟩ none
  · rw [if_neg]
    intro flies
    simp only [Bool.and_eq_true, Bool.not_eq_true'] at flies
    exact open_ flies.1

/-- With nothing unacknowledged, the congestion window is open. -/
theorem cwndOpen_of_idle {a : Association} (ok : PathsOk a)
    (wide : ∀ path ∈ a.peerAddressList, 0 < path.cwnd) (acked : ¬Unacked a) :
    cwndOpen a (dataPath a) = true := by
  by_contra closed
  rw [Bool.not_eq_true] at closed
  obtain ⟨tsn, o, entry, open_, -⟩ := flying_of_closed wide (dataPath_lt ok) closed
  exact acked ⟨tsn, o, entry, open_⟩

/-! ## Probes -/

theorem armZeroWindowProbe_find? (s : Socket) (now : Time) (key k : AssociationKey)
    (allowance : SendAllowance) :
    (s.armZeroWindowProbe now key allowance).find? k = s.find? k := by
  unfold Socket.armZeroWindowProbe
  simp only
  (repeat' split) <;> rfl

/-- Arming a probe stops no timer. -/
theorem armZeroWindowProbe_active (s : Socket) (now : Time) (key : AssociationKey)
    (allowance : SendAllowance) {timer : ExpirationKey}
    (active : s.expirations.isActive timer = true) :
    (s.armZeroWindowProbe now key allowance).expirations.isActive timer = true := by
  unfold Socket.armZeroWindowProbe
  simp only
  split
  · exact active
  · split
    · exact active
    · split
      · exact active
      · simp only [Socket.scheduleExpiration, ExpirationQueue.schedule, ExpirationQueue.isActive,
          KeyMap.contains_put]
        rw [Bool.or_eq_true]
        exact Or.inr active

/-- The probe of a window found closed with nothing in flight runs. -/
theorem armZeroWindowProbes_active {s : Socket} (now : Time) {allowances : SendAllowances}
    {key : AssociationKey} {allowance : SendAllowance}
    (allowed : allowances.get? key = some allowance) (blocked : allowance.rwndBlocked = true)
    (idle : allowance.flightSize = 0) {a : Association} (found : s.find? key = some a)
    (waits : a.zeroWindowProbeAllowed = false) :
    (s.armZeroWindowProbes now allowances).expirations.isActive (timerOf key .zeroWindowProbe)
      = true := by
  have member := KeyMap.mem_entries.mpr allowed
  unfold Socket.armZeroWindowProbes
  generalize allowances.entries = entries at member
  -- Once armed it stays so.
  have stays : ∀ (entries : List (AssociationKey × SendAllowance)) (s : Socket),
      s.expirations.isActive (timerOf key .zeroWindowProbe) = true →
      (entries.foldl (fun s entry => s.armZeroWindowProbe now entry.1 entry.2)
        s).expirations.isActive (timerOf key .zeroWindowProbe) = true := fun entries s active =>
    List.foldlRecOn (motive := fun s : Socket =>
      s.expirations.isActive (timerOf key .zeroWindowProbe) = true) entries _ active
        fun s active entry _ => armZeroWindowProbe_active s now _ _ active
  induction entries generalizing s with
  | nil => cases member
  | cons entry rest ih =>
    rw [List.foldl_cons]
    rcases List.mem_cons.mp member with rfl | later
    · refine stays rest _ ?_
      unfold Socket.armZeroWindowProbe
      simp only [blocked, idle, found, waits]
      cases active : s.expirations.isActive (timerOf key .zeroWindowProbe) with
      | true => simpa using active
      | false =>
        simp only [Bool.not_true, Bool.false_or, bne_self_eq_false, Bool.false_eq_true, if_false]
        rw [Socket.scheduleExpiration, ExpirationQueue.schedule, ExpirationQueue.isActive,
          KeyMap.contains_put]
        simp
    · exact ih (by rw [armZeroWindowProbe_find?]; exact found) later

/-! ## Nothing to send -/

section Idle

variable {s : Socket} {now : Time}

/-- The association an allowance was made for. -/
theorem sendAllowance_of {key : AssociationKey} {a : Association}
    (found : (s.sendAllowances now).1.find? key = some a)
    (transmits : transmitsData a.state = true) :
    (s.sendAllowances now).2.get? key = some (sendAllowance a) := by
  rw [get?_sendAllowances, found, Option.bind_some, if_pos transmits]

/-- What is left of an association once the queues are refilled. -/
theorem refilled_from (idle : (s.sendAllowances now).1.refillRetransmissions
    (s.sendAllowances now).2
      = (s.sendAllowances now).1) {key : AssociationKey} {b : Association}
    (found : (s.refilled now).socket.find? key = some b)
      (transmits : transmitsData b.state = true) :
    ∃ a, (s.sendAllowances now).1.find? key = some a ∧ transmitsData a.state = true
      ∧ CutOnly a b := by
  unfold Socket.refilled Socket.refillNewData at found
  rw [idle] at found
  by_cases member : key ∈ (s.sendAllowances now).2.keys
  · obtain ⟨r', before, -, -, after, -⟩ := refillNewData_at (s.sendAllowances now).2.keys
      (s.sendAllowances now).2.nodup member ⟨(s.sendAllowances now).1, (s.sendAllowances now).2, []⟩
    rw [after] at found
    rcases refillNewDataFor_step r' key with same | ⟨allowance, a, b', chunks, -, here, step, -⟩
    · rw [same, before] at found
      exact ⟨b, found, transmits, .refl b⟩
    · rw [step.found] at found
      cases found
      refine ⟨a, before.symm.trans here, ?_, step.only⟩
      rw [step.only] at transmits
      exact transmits
  · rw [(refillNewData_others _ member).1] at found
    exact ⟨b, found, transmits, .refl b⟩

/-- An association with nothing in flight, once the queues are refilled: its allowance
is open, and notes if its window held a packet back. -/
theorem refilled_open (idle : (s.sendAllowances now).1.refillRetransmissions
    (s.sendAllowances now).2
      = (s.sendAllowances now).1) {key : AssociationKey} {a b : Association}
    (before : (s.sendAllowances now).1.find? key = some a)
      (transmits : transmitsData a.state = true)
    (ok : PathsOk a) (wide : ∀ path ∈ a.peerAddressList, 0 < path.cwnd) (acked : ¬Unacked a)
      (burst : a.burstCount = 0)
    (after : (s.refilled now).socket.find? key = some b) :
    ∃ allowance, (s.refilled now).allowances.get? key = some allowance ∧ allowance.flightSize = 0
      ∧ allowance.cwndOpen = true ∧ allowance.burstSpent = false
      ∧ allowance.zeroWindowProbe = a.zeroWindowProbeAllowed
      ∧ (newDataFor (s.refilled now).socket key = [] → b.outbound ≠ [] →
          allowance.rwndBlocked = true ∧ a.zeroWindowProbeAllowed = false) := by
  have allowed := sendAllowance_of before transmits
  have flight : bytesInFlight a = 0 := flightOf_eq_zero acked _
  have probe : (sendAllowance a).zeroWindowProbe = a.zeroWindowProbeAllowed := by
    simp [sendAllowance, flight]
  have cwnd : (sendAllowance a).cwndOpen = true := cwndOpen_of_idle ok wide acked
  have spent : (sendAllowance a).burstSpent = false := by simp [sendAllowance, burst, maxBurst]
  have member : key ∈ (s.sendAllowances now).2.keys := KeyMap.mem_keys.mpr (by rw [allowed]; rfl)
  obtain ⟨r', found', allowed', queued', foundAfter, allowedAfter, queuedAfter⟩ :=
    refillNewData_at (s.sendAllowances now).2.keys (s.sendAllowances now).2.nodup member
      ⟨(s.sendAllowances now).1, (s.sendAllowances now).2, []⟩
  unfold Socket.refilled Socket.refillNewData at *
  rw [idle] at *
  rw [foundAfter] at after
  rw [allowedAfter, queuedAfter]
  have foundHere : r'.socket.find? key = some a := found'.trans before
  have allowedHere : r'.allowances.get? key = some (sendAllowance a) := allowed'.trans allowed
  by_cases empty : newDataFor r'.socket key = []
  · obtain ⟨found, noted, none⟩ := refillNewDataFor_open allowedHere foundHere cwnd spent empty
    rw [found] at after
    cases after
    refine ⟨_, noted, flight, cwnd, spent, probe, fun gone left => ?_⟩
    obtain ⟨blocked, noProbe⟩ := cutNewData_blocked ok left (none gone)
    exact ⟨by simp [blocked], probe ▸ noProbe⟩
  · rw [refillNewDataFor_queued empty]
    exact ⟨_, allowedHere, flight, cwnd, spent, probe, fun gone => absurd gone empty⟩

/-- Scheduling retransmissions and cutting new DATA leaves the back-off alone. -/
theorem refilled_nextSendAttempt :
    (s.refilled now).socket.sends.nextSendAttempt = s.sends.nextSendAttempt := by
  have scheduled : ((s.sendAllowances now).1.refillRetransmissions
      (s.sendAllowances now).2).sends.nextSendAttempt
      = s.sends.nextSendAttempt := by
    refine List.foldlRecOn (motive := fun s' : Socket => s'.sends.nextSendAttempt
      = s.sends.nextSendAttempt) (s.sendAllowances now).2.keys _ rfl fun s' same key _ => ?_
    split
    · exact same
    · cases found : s'.find? key with
      | none =>
        unfold Socket.schedulePendingRetransmission
        simpa only [found] using same
      | some a =>
        rcases schedulePendingRetransmission_cases found true with ⟨unchanged, -⟩ | ⟨target, bundle,
          -, made⟩
        · rw [unchanged]
          exact same
        · rw [made]
          exact same
  exact List.foldlRecOn (motive := fun r : Socket.Refill => r.socket.sends.nextSendAttempt
    = s.sends.nextSendAttempt) (s.sendAllowances now).2.keys _ scheduled
    fun r same key _ => (refillNewDataFor_retransmission r key).2.1.trans same

theorem refilled_retransmission : (s.refilled now).socket.sends.retransmission
    = ((s.sendAllowances now).1.refillRetransmissions
      (s.sendAllowances now).2).sends.retransmission :=
  List.foldlRecOn (motive := fun r : Socket.Refill => r.socket.sends.retransmission
      = ((s.sendAllowances now).1.refillRetransmissions
        (s.sendAllowances now).2).sends.retransmission)
    (s.sendAllowances now).2.keys _ rfl fun r same key _ =>
      (refillNewDataFor_retransmission r key).1.trans same

theorem armed_find? (key : AssociationKey) :
    (s.armed now).find? key = (s.refilled now).socket.find? key :=
  List.foldlRecOn (motive := fun s' : Socket => s'.find? key = (s.refilled now).socket.find? key)
    (s.peeked now).2.2.entries _ rfl fun s' same _ _ =>
      (armZeroWindowProbe_find? s' now _ key _).trans same

/-- The probe of a closed window runs, for an association with nothing in flight and
something to send. -/
theorem probe_armed (idle : (s.sendAllowances now).1.refillRetransmissions (s.sendAllowances now).2
      = (s.sendAllowances now).1) (ready : s.sends.nextSendAttempt ≤ now)
        (nothing : (s.peeked now).1 = none)
    {key : AssociationKey} {a b : Association}
      (before : (s.sendAllowances now).1.find? key = some a)
    (transmits : transmitsData a.state = true) (ok : PathsOk a)
      (wide : ∀ path ∈ a.peerAddressList, 0 < path.cwnd)
    (acked : ¬Unacked a) (burst : a.burstCount = 0)
    (after : (s.refilled now).socket.find? key = some b) (only : CutOnly a b)
    (work : b.outbound ≠ [] ∨ newDataFor (s.refilled now).socket key ≠ []) :
    (s.armed now).expirations.isActive (timerOf key .zeroWindowProbe) = true := by
  obtain ⟨allowance, allowed, flight, cwnd, spent, probe, held⟩ :=
    refilled_open idle before transmits ok wide acked burst after
  have ready' : (s.refilled now).socket.sends.nextSendAttempt ≤ now := by
    rw [refilled_nextSendAttempt]
    exact ready
  unfold Socket.peeked at nothing
  obtain ⟨-, none, left⟩ := peek_none ready' nothing
  have scanned := peekNewData_none none (by simp) allowed
  have waits : b.zeroWindowProbeAllowed = a.zeroWindowProbeAllowed := by rw [only]
  -- Either way the allowance says that the window is in the way, and may not be probed.
  have noted : ∃ allowance', (s.peeked now).2.2.get? key = some allowance'
      ∧ allowance'.rwndBlocked = true
      ∧ allowance'.flightSize = 0 ∧ a.zeroWindowProbeAllowed = false := by
    rw [Socket.peeked, left]
    cases scanned with
    | unseen absent same =>
      have gone : newDataFor (s.refilled now).socket key = [] := by
        rw [newDataFor, List.filter_eq_nil_iff]
        intro q member here
        exact absent q member (by simpa using here)
      obtain ⟨blocked, noProbe⟩ := held gone (work.resolve_right fun some => some gone)
      exact ⟨allowance, same, blocked, flight, noProbe⟩
    | refused q refuses noted =>
      unfold admits at refuses noted
      simp only [cwnd, spent, Bool.not_true, Bool.or_self, Bool.false_eq_true, if_false]
        at refuses noted
      split at refuses
      · cases refuses
      · next closed =>
        rw [if_neg closed] at noted
        refine ⟨_, noted, rfl, flight, ?_⟩
        rw [← probe]
        by_contra probes
        rw [Bool.not_eq_false] at probes
        simp [probes] at closed
  obtain ⟨allowance', here, blocked, flight', noProbe⟩ := noted
  unfold Socket.armed
  exact armZeroWindowProbes_active now here blocked flight' after (waits.trans noProbe)

end Idle

/-- The windows stay wide while they decay. -/
theorem roomy_sendAllowances {σ : System} (reached : System.Reached FlightBounded σ) (now : Time)
    {key : AssociationKey} {b : Association}
    (found : (σ.socket.sendAllowances now).1.find? key = some b) :
    ∀ path ∈ b.peerAddressList, 0 < path.cwnd := by
  have upkeep : Upkeep none (fun _ => False) fun _ a => Roomy (fun _ => False) a :=
    upkeep_roomy none False.elim
  have held : Held (fun _ a => Roomy (fun _ => False) a) [] key σ.socket := fun a found =>
    windows_open reached found
  have wide := (upkeep.sendAllowances now held b found).windows
  exact fun path member => Nat.lt_of_lt_of_le (by decide) (wide path member)

/-- In a run in which no cwnd wraps: whenever `next_packet` finds nothing although the queue
does not back off, every association that sends and has something left to get through
(messages to cut, a packet of new DATA, or a chunk no gap ack block covers) has a timer
running that takes it up again: T3-rtx for one of its paths, or the probe of a closed
window. -/
theorem no_silent_stall {σ : System} (reached : System.Reached FlightBounded σ)
    (sending : σ.batch ≠ none) {now : Time} (nothing : (σ.socket.nextPacket now).pending = none)
    (ready : σ.socket.sends.nextSendAttempt ≤ now) {key : AssociationKey} {a : Association}
    (found : (σ.socket.nextPacket now).socket.find? key = some a)
    (transmits : transmitsData a.state = true)
    (work : a.outbound ≠ [] ∨ newDataFor (σ.socket.nextPacket now).socket key ≠ []
      ∨ ∃ tsn o, a.outstandingData.get? tsn = some o ∧ o.gapAcked = false) :
    (∃ path ∈ a.peerAddressList,
        (σ.socket.nextPacket now).socket.expirations.isActive (pathTimerOf key .t3Rtx path.address)
          = true)
      ∨ (σ.socket.nextPacket now).socket.expirations.isActive (timerOf key .zeroWindowProbe)
        = true := by
  have ok := orderly_reached reached
  have final := (ok.nextPacket now).2
  have unfound : (σ.socket.peeked now).1 = none := by
    rw [nextPacket_eq] at nothing
    cases peeked : (σ.socket.peeked now).1 with
    | none => rfl
    | some p =>
      rw [peeked] at nothing
      simp only at nothing
      split at nothing <;> cases nothing
  have same : (σ.socket.nextPacket now).socket = σ.socket.armed now := by
    rw [nextPacket_eq, unfound]
  rw [same] at found work final ⊢
  have ready' : (σ.socket.refilled now).socket.sends.nextSendAttempt ≤ now := by
    rw [refilled_nextSendAttempt]
    exact ready
  have empty : (σ.socket.refilled now).socket.sends.retransmission = [] :=
    (peek_none ready' unfound).1
  rw [refilled_retransmission] at empty
  obtain ⟨same, scheduled⟩ := refillRetransmissions_idle (σ.socket.sendAllowances now).2.keys
    (σ.socket.sendAllowances now).1 empty
  have idle : (σ.socket.sendAllowances now).1.refillRetransmissions (σ.socket.sendAllowances now).2
      = (σ.socket.sendAllowances now).1 := same
  have covered := ((final.keys key).assoc a found).covered transmits
  have queue : rtxData (σ.socket.armed now) key = [] := by
    rw [rtxData, (armed_queues σ.socket now).1, refilled_retransmission, empty]
    rfl
  -- With no retransmission queued, what is not marked is timed.
  have timed : ∀ tsn o, a.outstandingData.get? tsn = some o → o.gapAcked = false →
      o.pendingRetransmission = false → ∃ path ∈ a.peerAddressList,
        (σ.socket.armed now).expirations.isActive (pathTimerOf key .t3Rtx path.address) = true := by
    intro tsn o entry unacked unmarked
    obtain ⟨path, member, address⟩ := List.mem_map.mp (covered.placed tsn o entry)
    refine ⟨path, member, ?_⟩
    rw [pathTimerOf, pathKey, address]
    rcases covered.cover tsn o entry unacked with marked | ⟨data, queued, -⟩ | active | impossible
    · rw [unmarked] at marked
      cases marked
    · rw [queue] at queued
      cases queued
    · exact active
    · exact impossible.elim
  have foundRefilled : (σ.socket.refilled now).socket.find? key = some a :=
    (armed_find? key).symm.trans found
  obtain ⟨b, before, sends, only⟩ := refilled_from idle foundRefilled transmits
  have calm : Calm False σ.socket (σ.socket.sendAllowances now).1 := .sendAllowances σ.socket now
  have old := ((ok.calm calm).keys key).assoc b before
  have wide := roomy_sendAllowances reached now before
  have outstanding : a.outstandingData = b.outstandingData := by rw [only]
  by_cases unacked : Unacked a
  · left
    obtain ⟨tsn, o, entry, open_⟩ := unacked
    cases marked : o.pendingRetransmission with
    | false => exact timed tsn o entry open_ marked
    | true =>
      -- The first chunk marked waits for its path, which carries something else.
      have allowed := sendAllowance_of before sends
      have unchanged := scheduled key (KeyMap.mem_keys.mpr (by rw [allowed]; rfl))
      have inside : (tsn, o) ∈ markedChunks b := by
        refine List.mem_filter.mpr ⟨KeyMap.mem_entries.mpr (outstanding ▸ entry), ?_⟩
        simp [marked, open_]
      rcases schedulePendingRetransmission_cases before true with ⟨-, waits⟩ | ⟨target, bundle,
        -, made⟩
      · cases marks : markedChunks b with
        | nil =>
          rw [marks] at inside
          cases inside
        | cons first rest =>
          obtain ⟨here, -, -⟩ := mem_markedChunks (marks ▸ List.mem_cons_self : first
            ∈ markedChunks b)
          have bound := (destinationOf_spec ((old.covered sends).placed first.1 first.2 here)).1
          obtain ⟨tsn', o', entry', open', unmarked⟩ :=
            flying_of_closed wide bound (waits first rest marks).2
          exact timed tsn' o' (outstanding.symm ▸ entry') open' unmarked
      · rw [unchanged] at made
        have queues : (σ.socket.sendAllowances now).1.sends.retransmission ≠ [] := by
          rw [made]
          simp [Socket.enqueuePacket, SendQueue.enqueue]
        rw [idle] at empty
        exact absurd empty queues
  · right
    have acked : ¬Unacked b := by
      rintro ⟨tsn, o, entry, open_⟩
      exact unacked ⟨tsn, o, outstanding.symm ▸ entry, open_⟩
    have bursting := (bursting_senderProp _).calm ok calm (bursting_reached reached) key b before
      sends
    have burst : b.burstCount = 0 := by
      by_contra some
      exact acked (bursting.burst sending (Nat.pos_of_ne_zero some))
    refine probe_armed idle ready unfound before sends old.paths wide acked burst foundRefilled
      only ?_
    rcases work with messages | queued | outstanding
    · exact Or.inl messages
    · rw [newDataFor, (armed_queues σ.socket now).2] at queued
      exact Or.inr queued
    · exact absurd outstanding unacked

/-- One message was acknowledged, the next is on its way and nothing is left to send: T3-rtx
runs for its path. -/
theorem second_chunk_timed : ∃ σ a, System.Reached FlightBounded σ ∧ σ.batch ≠ none
    ∧ (σ.socket.nextPacket 0).pending = none ∧ (σ.socket.nextPacket 0).socket.find? Opened.key
      = some a
    ∧ ((∃ path ∈ a.peerAddressList,
        (σ.socket.nextPacket 0).socket.expirations.isActive
          (pathTimerOf Opened.key .t3Rtx path.address) = true)
      ∨ (σ.socket.nextPacket 0).socket.expirations.isActive (timerOf Opened.key .zeroWindowProbe)
        = true) := by
  obtain ⟨σ, reached, ends⟩ := Opened.exists_reached_bounded
    ([.sendData Opened.key [1#8, 2#8] 0#16 false] ++ Opened.batch 1
      ++ [Opened.arrives [⟨0#8, .sack ⟨10#32, 65535#32, 0#16, 0#16, [], []⟩⟩]]
      ++ [.sendData Opened.key [3#8] 0#16 false, .startSending, .send 0 true])
    (p := fun σ => (σ.batch.isSome && (σ.socket.nextPacket 0).pending.isNone
        && decide (σ.socket.sends.nextSendAttempt ≤ 0))
      && ((σ.socket.nextPacket 0).socket.find? Opened.key).any fun a => transmitsData a.state
        && a.outstandingData.entries.any fun entry => !entry.2.gapAcked) (by decide +kernel)
  rw [Bool.and_eq_true] at ends
  obtain ⟨⟨⟨sending, nothing⟩, ready⟩, some⟩ := (⟨by simpa using ends.1, ends.2⟩ :
    ((σ.batch.isSome = true ∧ (σ.socket.nextPacket 0).pending = none)
      ∧ σ.socket.sends.nextSendAttempt ≤ 0) ∧ _)
  have batch : σ.batch ≠ none := Option.isSome_iff_ne_none.mp sending
  obtain ⟨a, found, holds⟩ := (Option.any_eq_true _ _).mp some
  rw [Bool.and_eq_true, List.any_eq_true] at holds
  obtain ⟨transmits, ⟨tsn, o⟩, member, unacked⟩ := holds
  exact ⟨σ, a, reached, batch, nothing, found,
    no_silent_stall reached batch nothing ready found transmits
      (Or.inr (Or.inr ⟨tsn, o, KeyMap.mem_entries.mp member, by simpa using unacked⟩))⟩

/-- A window filled and acknowledged so often that it wraps to nothing: the message queued
behind it waits for good, with nothing in flight and no timer running. -/
theorem wrapped_window_stalls : ∃ σ a, System.Reached (fun _ _ => True) σ ∧ σ.batch ≠ none
    ∧ (σ.socket.nextPacket 0).pending = none ∧ σ.socket.sends.nextSendAttempt ≤ 0
    ∧ (σ.socket.nextPacket 0).socket.find? Opened.key = some a
    ∧ transmitsData a.state = true ∧ a.outbound ≠ []
    ∧ ¬((∃ path ∈ a.peerAddressList, (σ.socket.nextPacket 0).socket.expirations.isActive
          (pathTimerOf Opened.key .t3Rtx path.address) = true)
      ∨ (σ.socket.nextPacket 0).socket.expirations.isActive
          (timerOf Opened.key .zeroWindowProbe) = true) := by
  obtain ⟨⟨s, batch, cutAs⟩, a, path, reached, idle, flooding, stopped⟩ := Flooded.wraps
  subst idle
  change Flooding 0 0 s a path at flooding
  have filling := flooding.filling
  obtain ⟨b, message, reached, queued⟩ := flooding.queue reached
  have lone := queued.lone flooding
  have closed : cwndOpen b (dataPath b) = false :=
    (queued.cwndOpen_eq filling).trans (decide_eq_false (Nat.lt_irrefl 0))
  obtain ⟨pending, blocked, socket⟩ := lone.nextPacket_nothing (Or.inl closed)
  refine ⟨_, b, reached, nofun, pending, flooding.ready, ?_, lone.transmits, ?_, ?_⟩
  · rw [socket]
    exact find?_alone rfl
  · rw [queued.only]
    exact List.cons_ne_nil _ _
  · have paths : b.peerAddressList = [path] := by
      rw [queued.only]
      exact filling.paths
    rw [socket, paths]
    rintro (⟨_, member, active⟩ | active)
    · rw [List.mem_singleton.mp member] at active
      exact absurd (active.symm.trans stopped) (by decide)
    · exact absurd (active.symm.trans flooding.unprobed) (by decide)

end SctpStack
