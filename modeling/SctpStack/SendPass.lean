import SctpStack.Orderly
import SctpStack.Decay
import SctpStack.Sent

/-!
# Sending

One pass of `run_sending`, piece by piece: the windows decay, marked chunks are queued,
new ones are cut, and what goes out is recorded. Each piece keeps the socket `Orderly`.
-/

namespace SctpStack

/-! ## Windows -/

theorem decayIdleCwnd_address (pmdcs : Nat) (now : Time) (path : PeerPath) :
    (decayIdleCwnd pmdcs now path).address = path.address := by
  unfold decayIdleCwnd
  simp only
  (repeat' split) <;> rfl

theorem decayPaths_core {strict : Prop} (now : Time) (a : Association) :
    SameCore strict a (decayPaths now a) := by
  have ips : (decayPaths now a).ips = a.ips := by
    simp only [Association.ips, decayPaths, List.map_map]
    apply List.map_congr_left
    intro path _
    simp [decayIdleCwnd_address]
  refine ⟨rfl, rfl, rfl, rfl, rfl, rfl, fun ok => ⟨?_, ?_, ok.pmdcs⟩, fun ip member => by rwa [ips],
    id, Or.inl,
    fun _ => Nat.le_refl _⟩
  · simpa [decayPaths] using ok.some
  · rw [ips]
    exact ok.distinct

/-- Every association changed, in nothing that matters to its sender. -/
theorem Calm.mapVals {strict : Prop} (s : Socket) (f : AssociationKey → Association → Association)
    (keeps : ∀ k a, SameCore strict a (f k a)) :
    Calm strict s { s with associations := s.associations.mapVals f } := by
  have same : SameQueues strict s { s with associations := s.associations.mapVals f } :=
    ⟨rfl, rfl, fun _ _ => Nat.le_refl _⟩
  refine ⟨same.background, fun k => ?_⟩
  have lookup : Socket.find? { s with associations := s.associations.mapVals f } k
      = (s.find? k).map (f k) :=
    KeyMap.get?_mapVals f s.associations k
  cases found : s.find? k with
  | none => exact .absent found (by rw [lookup, found]; rfl) (same.queued k)
  | some a => exact .same a (f k a) found (by
      rw [lookup, found]; rfl) (keeps k a) (same.queued k) fun _ _ _ => rfl

theorem Calm.sendAllowances {strict : Prop} (s : Socket) (now : Time) :
    Calm strict s (s.sendAllowances now).1 := by
  refine Calm.mapVals s _ fun k a => ?_
  split
  · exact decayPaths_core now a
  · exact .refl a

/-- The associations that send are the ones with an allowance. -/
theorem get?_sendAllowances (s : Socket) (now : Time) (key : AssociationKey) :
    (s.sendAllowances now).2.get? key = ((s.sendAllowances now).1.find? key).bind fun a =>
      if transmitsData a.state then some (sendAllowance a) else none := by
  simp only [Socket.sendAllowances, KeyMap.get?_filterMap, Socket.find?]

theorem Orderly.startTransmissionOpportunity {s : Socket} {due : AssociationKey → BitVec 32 → Prop}
    (ok : Orderly s due) : Orderly s.startTransmissionOpportunity due := by
  have lookup : ∀ k, s.startTransmissionOpportunity.find? k
      = (s.find? k).map fun a => { a with burstCount := 0 } := fun k => KeyMap.get?_mapVals _ _ _
  refine ⟨ok.queues.of_eq rfl rfl, fun key => ⟨fun absent => ?_, fun b found => ?_⟩⟩
  · rw [lookup, Option.map_eq_none_iff] at absent
    exact (ok.keys key).absent absent
  · rw [lookup, Option.map_eq_some_iff] at found
    obtain ⟨a, before, rfl⟩ := found
    have old := (ok.keys key).assoc a before
    refine ⟨⟨old.paths.some, old.paths.distinct, old.paths.pmdcs⟩, fun forms => ?_,
      fun transmits => ?_⟩
    · obtain ⟨new, empty⟩ := old.forming forms
      exact ⟨⟨new.cumulativeTsnAck, new.outstandingData, rfl,
        ⟨old.paths.some, old.paths.distinct, old.paths.pmdcs⟩, fun impossible => impossible.elim⟩,
        empty⟩
    · have covered := old.covered transmits
      exact ⟨covered.named, covered.placed, covered.newTo, covered.rtxTo, covered.cover⟩

/-! ## Marked chunks -/

theorem Orderly.schedulePending {s : Socket} {due : AssociationKey → BitVec 32 → Prop}
    (ok : Orderly s due) (key : AssociationKey) (gated : Bool) :
    Orderly (s.schedulePendingRetransmission key gated) due := by
  cases found : s.find? key with
  | none =>
    unfold Socket.schedulePendingRetransmission
    simpa only [found] using ok
  | some a =>
    have old := (ok.keys key).assoc a found
    cases forms : forming a.state with
    | true =>
      have none : markedChunks a = [] := by
        rw [markedChunks, (old.forming forms).1.outstandingData]
        rfl
      unfold Socket.schedulePendingRetransmission
      simpa only [found, none] using ok
    | false =>
      obtain ⟨b, step, state, -⟩ := schedulePendingRetransmission_step found gated
      refine ok.aside step.aside (step.queues ok.queues) ⟨fun absent => ?_, fun c here => ?_⟩
      · rw [step.found] at absent
        cases absent
      · rw [step.found] at here
        cases here
        refine ⟨step.paths old.paths, fun forms' => ?_, fun transmits => ?_⟩
        · rw [state, forms] at forms'
          cases forms'
        · rw [state] at transmits
          exact (old.covered transmits).schedulePending found gated step.found

/-! ## New chunks -/

/-- Only the queue of messages and the next TSN changed. -/
def CutOnly (a b : Association) : Prop :=
  b = { a with nextTsn := b.nextTsn, outbound := b.outbound, outboundBytes := b.outboundBytes }

theorem CutOnly.refl (a : Association) : CutOnly a a := rfl

theorem CutOnly.trans {a b c : Association} (first : CutOnly a b) (second : CutOnly b c) :
    CutOnly a c := by
  unfold CutOnly at *
  rw [first] at second
  exact second

/-- The TSNs of the chunks cut follow one another from the next TSN on. -/
theorem cutNewDataFrom_spec (allowance : SendAllowance) (fuel : Nat) (a : Association)
    (packetBytes : Nat) (first : Bool) :
    CutOnly a (cutNewDataFrom allowance fuel a packetBytes first).assoc
      ∧ (cutNewDataFrom allowance fuel a packetBytes first).assoc.nextTsn
        = Serial.ahead a.nextTsn (cutNewDataFrom allowance fuel a packetBytes first).chunks.length
      ∧ (cutNewDataFrom allowance fuel a packetBytes first).chunks.map DataChunkValue.tsn
        = (List.range (cutNewDataFrom allowance fuel a packetBytes first).chunks.length).map
            (Serial.ahead a.nextTsn)
      ∧ (cutNewDataFrom allowance fuel a packetBytes first).chunks.length ≤ fuel := by
  induction fuel generalizing a packetBytes first with
  | zero => exact ⟨rfl, (Serial.ahead_zero _).symm, rfl, Nat.le_refl _⟩
  | succ fuel ih =>
    unfold cutNewDataFrom
    cases queue : a.outbound with
    | nil => exact ⟨rfl, (Serial.ahead_zero _).symm, rfl, Nat.zero_le _⟩
    | cons message rest =>
      simp only
      cases size : cutSize a allowance packetBytes (allowance.zeroWindowProbe && first) message with
      | none => exact ⟨rfl, (Serial.ahead_zero _).symm, rfl, Nat.zero_le _⟩
      | some take =>
        simp only
        have cut : CutOnly a (afterCut a message rest take) := rfl
        split
        · refine ⟨cut, ?_, ?_, Nat.succ_le_succ (Nat.zero_le _)⟩
          · exact (Serial.ahead_succ a.nextTsn 0).symm ▸ by rw [Serial.ahead_zero]; rfl
          · simp [cutChunk]
        · obtain ⟨only, nextTsn, tsns, few⟩ :=
            ih (afterCut a message rest take) (packetBytes + fragmentWireSize take) false
          refine ⟨cut.trans only, ?_, ?_, Nat.succ_le_succ few⟩
          · rw [nextTsn, List.length_cons]
            simp only [afterCut, Serial.ahead]
            rw [BitVec.add_assoc, ← BitVec.ofNat_add, Nat.add_comm]
          · rw [List.map_cons, tsns, List.length_cons, List.range_succ_eq_map, List.map_cons,
              List.map_map, Serial.ahead_zero]
            congr 1
            apply List.map_congr_left
            intro i _
            simp only [Function.comp_apply, afterCut, Serial.ahead]
            rw [BitVec.add_assoc, ← BitVec.ofNat_add, Nat.add_comm]

theorem cutNewData_only (a : Association) (allowance : SendAllowance) :
    CutOnly a (cutNewData a allowance).assoc :=
  (cutNewDataFrom_spec allowance (a.pmdcs + 1) a 0 true).1

/-- What refilling for one association does, if anything: a packet is cut for an
association that has none. -/
theorem refillNewDataFor_cases (r : Socket.Refill) (key : AssociationKey) :
    Socket.refillNewDataFor r key = r
    ∨ ∃ allowance a, r.allowances.get? key = some allowance ∧ r.socket.find? key = some a
      ∧ allowance.cwndOpen = true ∧ allowance.burstSpent = false ∧ newDataFor r.socket key = []
      ∧ (Socket.refillNewDataFor r key).allowances = r.allowances.put key
          { allowance with rwndBlocked := allowance.rwndBlocked
            || (cutNewData a allowance).rwndBlocked }
      ∧ (((cutNewData a allowance).chunks = []
            ∧ (Socket.refillNewDataFor r key).socket
              = r.socket.setAssociation key (cutNewData a allowance).assoc
            ∧ (Socket.refillNewDataFor r key).cut = r.cut)
        ∨ ((cutNewData a allowance).chunks ≠ []
            ∧ (Socket.refillNewDataFor r key).socket
              = (r.socket.setAssociation key (cutNewData a allowance).assoc).enqueuePacket
                ⟨key, ((cutNewData a allowance).assoc.path
                  (dataPath (cutNewData a allowance).assoc)).address,
                  buildData r.socket.localAddress.port key.address.port
                    (cutNewData a allowance).assoc.peerVerTag (cutNewData a allowance).chunks⟩
                      .newData
            ∧ (Socket.refillNewDataFor r key).cut
              = r.cut ++ (cutNewData a allowance).chunks.map (Prod.mk key))) := by
  unfold Socket.refillNewDataFor
  split
  · next allowance a allowed found =>
    split
    · exact Or.inl rfl
    · next room =>
      simp only [Bool.or_eq_true, Bool.not_eq_true', not_or, Bool.not_eq_false, Bool.not_eq_true]
        at room
      obtain ⟨⟨cwnd, burst⟩, none⟩ := room
      have empty : newDataFor r.socket key = [] := by
        rw [newDataFor, List.filter_eq_nil_iff]
        intro q member here
        have has : r.socket.sends.hasNewDataFor key = true := List.any_eq_true.mpr ⟨q, member, here⟩
        rw [none] at has
        cases has
      refine Or.inr ⟨allowance, a, allowed, found, cwnd, burst, empty, ?_⟩
      simp only
      split
      · next nothing => exact ⟨rfl, Or.inl ⟨List.isEmpty_iff.mp nothing, rfl, rfl⟩⟩
      · next something => exact ⟨rfl, Or.inr ⟨fun nil => something (by rw [nil]; rfl), rfl, rfl⟩⟩
  · exact Or.inl rfl

/-- The associations with an allowance send. -/
def Allowed (r : Socket.Refill) : Prop :=
  ∀ key allowance, r.allowances.get? key = some allowance →
    ∃ a, r.socket.find? key = some a ∧ transmitsData a.state = true

/-- A packet of new chunks is cut for an association. -/
structure CutStep (key : AssociationKey) (chunks : List DataChunkValue) (s s' : Socket)
    (a b : Association) :
    Prop where
  found : s'.find? key = some b
  others : ∀ k, k ≠ key → s'.find? k = s.find? k
  aside : Aside True key s s'
  queues : QueuesOk s → QueuesOk s'
  fit : PathsOk a → QueuesFit s → QueuesFit s'
  receives : s'.receives = s.receives
  only : CutOnly a b
  nextTsn : b.nextTsn = Serial.ahead a.nextTsn chunks.length
  tsns : chunks.map DataChunkValue.tsn = (List.range chunks.length).map (Serial.ahead a.nextTsn)
  few : chunks.length ≤ a.pmdcs + 1
  newData : (chunks = [] ∧ newDataFor s' key = newDataFor s key)
    ∨ chunks ≠ [] ∧ newDataFor s key = [] ∧ ∃ q, newDataFor s' key = [q]
        ∧ q.deliverable.packet.dataChunks = chunks
        ∧ (PathsOk a → q.deliverable.destination.addr ∈ a.ips)
  rtx : rtxData s' key = rtxData s key
  t3 : ∀ ip, t3Active s' key ip = t3Active s key ip

theorem CutOnly.ips {a b : Association} (only : CutOnly a b) : b.ips = a.ips := by rw [only]; rfl

theorem CutOnly.paths {a b : Association} (only : CutOnly a b) (ok : PathsOk a) : PathsOk b := by
  rw [only]
  exact ⟨ok.some, ok.distinct, ok.pmdcs⟩

/-- Refilling for one association cuts a packet for it, or does nothing. -/
theorem refillNewDataFor_step (r : Socket.Refill) (key : AssociationKey) :
    Socket.refillNewDataFor r key = r
    ∨ ∃ allowance a b chunks, r.allowances.get? key = some allowance ∧ r.socket.find? key = some a
      ∧ CutStep key chunks r.socket (Socket.refillNewDataFor r key).socket a b
      ∧ (Socket.refillNewDataFor r key).cut = r.cut ++ chunks.map (Prod.mk key)
      ∧ ∀ k, ((Socket.refillNewDataFor r key).allowances.get? k).isSome
        = (r.allowances.get? k).isSome := by
  rcases refillNewDataFor_cases r key with same | ⟨allowance, a, allowed, found, -, -, empty,
    allowances, done⟩
  · exact Or.inl same
  · obtain ⟨only, nextTsn, tsns, few⟩ := cutNewDataFrom_spec allowance (a.pmdcs + 1) a 0 true
    change CutOnly a (cutNewData a allowance).assoc at only
    refine Or.inr ⟨allowance, a, (cutNewData a allowance).assoc, (cutNewData a allowance).chunks,
      allowed, found, ?_, ?_, fun k => ?_⟩
    · rcases done with ⟨nothing, socket, -⟩ | ⟨something, socket, -⟩
      · rw [socket]
        exact ⟨by simp, fun k apart => by simp [apart], .set _ key _, fun ok => ok.of_eq rfl rfl,
          fun _ fit => fit.of_sends rfl, rfl, only, nextTsn, tsns, few, Or.inl ⟨nothing, rfl⟩,
            rfl, fun _ => rfl⟩
      · rw [socket]
        refine ⟨by simp, fun k apart => by simp [apart], (Aside.set _ key _).trans (.sendNew _ rfl),
          fun ok => ?_,
          fun ok fit => ?_, rfl, only, nextTsn, tsns, few, ?_, rfl, fun _ => rfl⟩
        · have set : QueuesOk (r.socket.setAssociation key (cutNewData a allowance).assoc) :=
            ok.of_eq rfl rfl
          exact set.sendNew (onlyData_buildData _ _ _ _)
        · have set : QueuesFit (r.socket.setAssociation key (cutNewData a allowance).assoc) :=
            fit.of_sends rfl
          refine set.sendNew ?_
          have room := (size_cutFrom allowance (a.pmdcs + 1) a 0 true).1
          rw [ok.pmdcs, Nat.sub_zero] at room
          rw [FitsPath, dataBytes, dataChunks_buildData, cutNewData, ok.pmdcs]
          exact room
        · have queued := newDataFor_sendNew
            (r.socket.setAssociation key (cutNewData a allowance).assoc) key ⟨key,
            ((cutNewData a allowance).assoc.path (dataPath (cutNewData a allowance).assoc)).address,
              buildData r.socket.localAddress.port key.address.port
                (cutNewData a allowance).assoc.peerVerTag (cutNewData a allowance).chunks⟩
          rw [if_pos rfl, newDataFor_set, empty, List.nil_append] at queued
          refine Or.inr ⟨something, empty, _, queued, dataChunks_buildData _ _ _ _, fun ok => ?_⟩
          rw [← only.ips]
          exact addr_mem_ips (dataPath_lt (only.paths ok))
    · rcases done with ⟨nothing, -, cut⟩ | ⟨-, -, cut⟩
      · rw [cut, nothing]
        simp
      · exact cut
    · rw [allowances, KeyMap.get?_put]
      split
      · next same => rw [same, allowed]; rfl
      · rfl

theorem Covered.cut {s s' : Socket} {due : BitVec 32 → Prop} {key : AssociationKey}
    {chunks : List DataChunkValue} {a b : Association} (covered : Covered s due key a)
    (ok : PathsOk a) (step : CutStep key chunks s s' a b) :
    Covered s' due key b := by
  have outstanding : b.outstandingData = a.outstandingData := by rw [step.only]
  refine ⟨?_, ?_, fun q member => ?_, ?_, fun tsn o entry unacked => ?_⟩
  · rw [outstanding]
    exact covered.named
  · rw [outstanding, step.only.ips]
    exact covered.placed
  · rw [step.only.ips]
    rcases step.newData with ⟨-, same⟩ | ⟨-, -, q', here, -, placed⟩
    · rw [same] at member
      exact covered.newTo q member
    · rw [here, List.mem_singleton] at member
      rw [member]
      exact placed ok
  · rw [step.rtx, step.only.ips]
    exact covered.rtxTo
  · rw [outstanding] at entry
    unfold CoveredBy
    rw [step.rtx, step.t3]
    exact covered.cover tsn o entry unacked

theorem Orderly.cut {s s' : Socket} {due : AssociationKey → BitVec 32 → Prop} {key : AssociationKey}
    {chunks : List DataChunkValue} {a b : Association} (ok : Orderly s due)
    (found : s.find? key = some a) (transmits : transmitsData a.state = true)
    (step : CutStep key chunks s s' a b) : Orderly s' due := by
  have old := (ok.keys key).assoc a found
  have state : b.state = a.state := by rw [step.only]
  exact ok.aside step.aside (step.queues ok.queues) (.sending step.found (step.only.paths old.paths)
    (by rw [state]; exact transmits) ((old.covered transmits).cut old.paths step))

/-- Other associations keep their state while one is cut for. -/
theorem Allowed.refill {r : Socket.Refill} {key : AssociationKey} (allowed : Allowed r) :
    Allowed (Socket.refillNewDataFor r key) := by
  rcases refillNewDataFor_step r key with same | ⟨allowance, a, b, chunks, -, found, step,
    -, allowances⟩
  · rw [same]
    exact allowed
  · intro k allowance' here
    have before : ∃ allowance'', r.allowances.get? k = some allowance'' := by
      rw [← Option.isSome_iff_exists, ← allowances k, here]
      rfl
    obtain ⟨allowance'', was⟩ := before
    obtain ⟨c, found', transmits⟩ := allowed k allowance'' was
    by_cases same : k = key
    · subst same
      rw [found] at found'
      cases found'
      exact ⟨b, step.found, by rw [step.only]; exact transmits⟩
    · exact ⟨c, by rw [step.others k same]; exact found', transmits⟩

/-- What every cut keeps, refilling keeps. -/
theorem refillNewData_keeps (inv : Socket → List (AssociationKey × DataChunkValue) → Prop)
    {s : Socket} {allowances : SendAllowances} (allowed : Allowed ⟨s, allowances, []⟩)
    (start : inv s []) (cuts : ∀ s cut s' key a b chunks, inv s cut → s.find? key = some a →
      transmitsData a.state = true → CutStep key chunks s s' a b →
        inv s' (cut ++ chunks.map (Prod.mk key))) :
    inv (s.refillNewData allowances).socket (s.refillNewData allowances).cut := by
  refine (List.foldlRecOn (motive := fun r => inv r.socket r.cut ∧ Allowed r) allowances.keys
    Socket.refillNewDataFor ⟨start, allowed⟩ fun r holds key _ => ⟨?_, holds.2.refill⟩).1
  rcases refillNewDataFor_step r key with same | ⟨allowance, a, b, chunks, here, found, step, cut,
    -⟩
  · rw [same]
    exact holds.1
  · obtain ⟨a', found', transmits⟩ := holds.2 key allowance here
    rw [found] at found'
    cases found'
    rw [cut]
    exact cuts _ _ _ key a b chunks holds.1 found transmits step

/-! ## The next packet -/

theorem find?_schedulePending (s : Socket) (key : AssociationKey) (gated : Bool)
    (k : AssociationKey) :
    ((s.schedulePendingRetransmission key gated).find? k).map Association.state
      = (s.find? k).map Association.state := by
  cases found : s.find? key with
  | none =>
    unfold Socket.schedulePendingRetransmission
    simp only [found]
  | some a =>
    rcases schedulePendingRetransmission_cases found gated with ⟨same, -⟩ | ⟨target, bundle, -,
      made⟩
    · rw [same]
    · rw [made]
      by_cases same : k = key
      · subst same
        simp [found, unmark]
      · simp [same]

theorem find?_refillRetransmissions (s : Socket) (allowances : SendAllowances)
    (k : AssociationKey) :
    ((s.refillRetransmissions allowances).find? k).map Association.state
      = (s.find? k).map Association.state := by
  refine List.foldlRecOn (motive := fun s' : Socket => (s'.find? k).map Association.state
    = (s.find? k).map Association.state) allowances.keys _ rfl fun s' same key _ => ?_
  split
  · exact same
  · rw [find?_schedulePending]
    exact same

theorem allowed_sendAllowances (s : Socket) (now : Time) :
    Allowed ⟨(s.sendAllowances now).1.refillRetransmissions (s.sendAllowances now).2,
      (s.sendAllowances now).2, []⟩ := by
  intro key allowance here
  simp only at here
  rw [get?_sendAllowances] at here
  cases found : (s.sendAllowances now).1.find? key with
  | none =>
    rw [found] at here
    cases here
  | some a =>
    rw [found, Option.bind_some] at here
    have state := find?_refillRetransmissions (s.sendAllowances now).1 (s.sendAllowances now).2 key
    rw [found, Option.map_some, Option.map_eq_some_iff] at state
    obtain ⟨b, after, same⟩ := state
    refine ⟨b, after, ?_⟩
    rw [same]
    by_contra silent
    rw [if_neg silent] at here
    cases here

/-- A packet picked from a queue: nothing of its DATA changed. -/
structure PickedAs (p : Pending) (q : Queued) : Prop where
  id : p.id = q.id
  location : p.deliverable.location = q.deliverable.location
  destination : p.deliverable.destination = q.deliverable.destination
  dataChunks : p.deliverable.packet.dataChunks = q.deliverable.packet.dataChunks

/-- A packet of DATA, perhaps with a SACK. -/
def Carries (packet : Packet) :
    Prop := ∀ chunk ∈ packet.chunks, chunk.type = .data ∨ chunk.type = .sack

/-- What is picked, and from where. -/
inductive Picked (sends : SendQueue) (p : Pending) : Prop where
  | control : p.priority = .control → NoData p.deliverable.packet → Picked sends p
  | retransmission (q : Queued) (rest : List Queued) : p.priority = .retransmission →
      sends.retransmission = q :: rest → PickedAs p q →
      NoData p.deliverable.packet ∨ Carries p.deliverable.packet → Picked sends p
  | newData (q : Queued) : p.priority = .newData → q ∈ sends.newData → PickedAs p q →
      Carries p.deliverable.packet → Picked sends p

theorem mem_peekNewData {allowances : SendAllowances} {refused : List AssociationKey}
    {queue : List Queued} {p : Pending}
    (picked : (SendQueue.peekNewData allowances refused queue).1 = some p) :
    ∃ q ∈ queue, p = ⟨.newData, q.deliverable, q.id⟩ := by
  induction queue generalizing allowances refused with
  | nil => cases picked
  | cons q rest ih =>
    have later : (∃ q' ∈ rest, p = ⟨.newData, q'.deliverable, q'.id⟩)
        → ∃ q' ∈ q :: rest, p = ⟨.newData, q'.deliverable, q'.id⟩ :=
      fun ⟨q', member, same⟩ => ⟨q', List.mem_cons_of_mem _ member, same⟩
    unfold SendQueue.peekNewData at picked
    simp only at picked
    split at picked
    · exact later (ih picked)
    · split at picked
      · exact later (ih picked)
      · split at picked
        · exact ⟨q, List.mem_cons_self, (Option.some.inj picked).symm⟩
        · exact later (ih picked)

/-- Looking for the next packet changes no queue. -/
theorem peek_queues (q : SendQueue) (now : Time) (allowances : SendAllowances) :
    ∃ blocked, (q.peek now allowances).2.1 = { q with newDataBlocked := blocked } := by
  unfold SendQueue.peek
  split
  · exact ⟨q.newDataBlocked, rfl⟩
  · split
    · exact ⟨q.newDataBlocked, rfl⟩
    · exact ⟨q.newDataBlocked, rfl⟩
    · split
      · exact ⟨q.newDataBlocked, rfl⟩
      · exact ⟨_, rfl⟩

theorem OnlyData.carries {packet : Packet} (only : OnlyData packet) : Carries packet :=
  fun chunk member => Or.inl (only chunk member)

theorem picked_peek {s : Socket} (ok : QueuesOk s) {now : Time} {allowances : SendAllowances}
    {p : Pending} (picked : (s.sends.peek now allowances).1 = some p) : Picked s.sends p := by
  unfold SendQueue.peek at picked
  split at picked
  · cases picked
  · cases control : s.sends.control with
    | cons q rest =>
      simp only [control] at picked
      cases picked
      exact .control rfl (ok.control q (by simp [control]))
    | nil =>
      cases retransmission : s.sends.retransmission with
      | cons q rest =>
        simp only [control, retransmission] at picked
        cases picked
        exact .retransmission q rest rfl retransmission ⟨rfl, rfl, rfl, rfl⟩
          ((ok.retransmission q (by simp [retransmission])).imp id OnlyData.carries)
      | nil =>
        simp only [control, retransmission] at picked
        split at picked
        · next p' allowances' found =>
          have first : (SendQueue.peekNewData allowances [] s.sends.newData).1 = some p' := by
            rw [found]
          obtain ⟨q, member, rfl⟩ := mem_peekNewData first
          cases picked
          exact .newData q rfl member ⟨rfl, rfl, rfl, rfl⟩ (ok.newData q member).carries
        · cases picked

theorem Calm.peeked {strict : Prop} (s : Socket) (now : Time) (allowances : SendAllowances) :
    Calm strict s { s with sends := (s.sends.peek now allowances).2.1 } := by
  obtain ⟨blocked, same⟩ := peek_queues s.sends now allowances
  rw [same]
  exact ⟨⟨List.Sublist.refl _, Nat.le_refl _, fun _ => Or.inl, fun q member =>
    Or.inr ⟨q, member, .refl _⟩,
    fun _ => Or.inl, fun _ _ => Nat.le_refl _⟩, fun k => .kept rfl ⟨rfl, rfl⟩ fun _ => rfl⟩

theorem armZeroWindowProbe_sends (s : Socket) (now : Time) (key : AssociationKey)
    (allowance : SendAllowance) :
    (s.armZeroWindowProbe now key allowance).sends = s.sends := by
  unfold Socket.armZeroWindowProbe
  simp only
  (repeat' split) <;> rfl

theorem armZeroWindowProbes_sends (s : Socket) (now : Time) (allowances : SendAllowances) :
    (s.armZeroWindowProbes now allowances).sends = s.sends :=
  List.foldlRecOn (motive := fun s' : Socket => s'.sends = s.sends) allowances.entries _ rfl
    fun _ same _ _ => (armZeroWindowProbe_sends _ now _ _).trans same

theorem Calm.armZeroWindowProbes {strict : Prop} (s : Socket) (now : Time)
    (allowances : SendAllowances) :
    Calm strict s (s.armZeroWindowProbes now allowances) := by
  refine Calm.foldl s (fun s entry => ?_) allowances.entries
  unfold Socket.armZeroWindowProbe
  simp only
  split
  · exact .refl s
  · split
    · exact .refl s
    · split
      · exact .refl s
      · exact .schedule s _ (by simp [timerOf]) (noData_noRetry _)

/-- Setting the I bit changes no value. -/
theorem values_setImmediate (chunks : List Chunk) :
    (setImmediate chunks).map Chunk.value = chunks.map Chunk.value := by
  induction chunks with
  | nil => rfl
  | cons chunk rest ih =>
    unfold setImmediate
    split
    · rfl
    · rw [List.map_cons, ih, List.map_cons]

theorem dataChunks_of_values {header header' : CommonHeader} {chunks chunks' : List Chunk}
    (same : chunks'.map Chunk.value = chunks.map Chunk.value) :
    Packet.dataChunks ⟨header', chunks'⟩ = Packet.dataChunks ⟨header, chunks⟩ := by
  induction chunks generalizing chunks' with
  | nil =>
    rw [List.map_nil, List.map_eq_nil_iff] at same
    rw [same]
    rfl
  | cons chunk rest ih =>
    cases chunks' with
    | nil => cases same
    | cons chunk' rest' =>
      rw [List.map_cons, List.map_cons, List.cons.injEq] at same
      rw [dataChunks_cons, dataChunks_cons, same.1, ih same.2]

theorem containsData_of_noData {packet : Packet} (none : NoData packet) :
    containsChunk packet .data = false := by
  by_contra carries
  rw [Bool.not_eq_false, containsChunk, List.any_eq_true] at carries
  obtain ⟨chunk, inside, type⟩ := carries
  cases value : chunk.value with
  | data data =>
    have here : data ∈ packet.dataChunks := List.mem_filterMap.mpr ⟨chunk, inside, by simp [value]⟩
    rw [none] at here
    cases here
  | _ => simp [Chunk.type, value] at type

/-- What is bundled or set on a packet on its way out leaves its DATA as it is. -/
structure Prepared (s : Socket) (d : Deliverable) (prepared : Socket × Deliverable) : Prop where
  calm : ∀ strict, Calm strict s prepared.1
  retransmission : prepared.1.sends.retransmission = s.sends.retransmission
  newData : prepared.1.sends.newData = s.sends.newData
  location : prepared.2.location = d.location
  destination : prepared.2.destination = d.destination
  dataChunks : prepared.2.packet.dataChunks = d.packet.dataChunks
  carries : Carries d.packet → Carries prepared.2.packet

theorem type_of_values {chunks chunks' : List Chunk}
    (same : chunks'.map Chunk.value = chunks.map Chunk.value) {chunk : Chunk}
    (member : chunk ∈ chunks') : ∃ c ∈ chunks, c.type = chunk.type := by
  have inside : chunk.value ∈ chunks.map Chunk.value := same ▸ List.mem_map_of_mem member
  obtain ⟨c, here, value⟩ := List.mem_map.mp inside
  exact ⟨c, here, by simp only [Chunk.type, value]⟩

/-- A packet whose chunks have the values they had, a SACK bundled or sent apart. -/
theorem prepared_bundled {s : Socket} {d : Deliverable} {a : Association}
    (found : s.find? d.location = some a) {chunks : List Chunk}
    (values : chunks.map Chunk.value = d.packet.chunks.map Chunk.value) (quiet : Bool) (fits : Prop)
    [Decidable fits] :
    let sacked := (s.setAssociation d.location (s.makeSack d.location a).2).cancelExpiration
      (timerOf d.location .delayedSack)
    let packet : Packet := ⟨d.packet.header, chunks⟩
    Prepared s d (if quiet then (s, { d with packet := packet })
      else if fits then (sacked, { d with packet :=
          { packet with chunks := (s.makeSack d.location a).1.chunks.take 1 ++ packet.chunks } })
      else (sacked.enqueuePacket ⟨d.location, d.destination, (s.makeSack d.location a).1⟩ .control,
        { d with packet := packet })) := by
  intro sacked packet
  have dataChunks : packet.dataChunks = d.packet.dataChunks := dataChunks_of_values values
  have carries : Carries d.packet → Carries packet := by
    intro before chunk member
    obtain ⟨c, inside, type⟩ := type_of_values values member
    rw [← type]
    exact before c inside
  have core : ∀ strict, SameCore strict a (s.makeSack d.location a).2 :=
    fun _ => .of_eq rfl rfl rfl rfl rfl rfl rfl rfl id Or.inl fun _ => Nat.le_refl _
  have calm : ∀ strict, Calm strict s sacked :=
    fun strict => (Calm.set s d.location found (core strict)).trans (.cancel _ (by simp [timerOf]))
  cases quiet with
  | true => exact ⟨fun _ => .refl s, rfl, rfl, rfl, rfl, dataChunks, carries⟩
  | false =>
    by_cases room : fits
    · simp only [room, if_true, Bool.false_eq_true, if_false]
      refine ⟨calm, rfl, rfl, rfl, rfl, dataChunks, fun before chunk member => ?_⟩
      rcases List.mem_append.mp member with sack | rest
      · rw [List.mem_singleton.mp sack]
        exact Or.inr rfl
      · exact carries before chunk rest
    · simp only [room, Bool.false_eq_true, if_false]
      have queued : ∀ d', (sacked.enqueuePacket d' .control).sends.retransmission
          = s.sends.retransmission
          ∧ (sacked.enqueuePacket d' .control).sends.newData = s.sends.newData := by
        intro d'
        simp only [Socket.enqueuePacket, SendQueue.enqueue]
        split <;> exact ⟨rfl, rfl⟩
      refine ⟨fun strict => (calm strict).trans ?_, (queued _).1, (queued _).2, rfl, rfl,
        dataChunks, carries⟩
      exact .control _ rfl

theorem prepareDataPacket_spec (s : Socket) (d : Deliverable) (newData : Bool) :
    Prepared s d (s.prepareDataPacket d newData) := by
  have same : Prepared s d (s, d) := ⟨fun _ => .refl s, rfl, rfl, rfl, rfl, rfl, id⟩
  have values : ∀ immediate : Bool,
      (if immediate then setImmediate d.packet.chunks else d.packet.chunks).map Chunk.value
        = d.packet.chunks.map Chunk.value := by
    intro immediate
    rw [apply_ite (List.map Chunk.value), values_setImmediate, ite_self]
  unfold Socket.prepareDataPacket
  simp only
  split
  · exact same
  · cases found : s.find? d.location with
    | none => exact same
    | some a =>
      exact prepared_bundled found (values _) _ _

/-- The queues refilled for one packet. -/
def Socket.refilled (s : Socket) (now : Time) : Socket.Refill :=
  ((s.sendAllowances now).1.refillRetransmissions (s.sendAllowances now).2).refillNewData
    (s.sendAllowances now).2

/-- What is found to send once they are. -/
def Socket.peeked (s : Socket) (now : Time) : Option Pending × SendQueue × SendAllowances :=
  (s.refilled now).socket.sends.peek now (s.refilled now).allowances

/-- The socket then, the probes of closed windows armed. -/
def Socket.armed (s : Socket) (now : Time) : Socket :=
  ({ (s.refilled now).socket with sends := (s.peeked now).2.1 }).armZeroWindowProbes now
    (s.peeked now).2.2

theorem nextPacket_eq (s : Socket) (now : Time) : s.nextPacket now =
    match (s.peeked now).1 with
    | none => ⟨none, s.armed now, (s.refilled now).cut⟩
    | some p =>
      if p.priority = .control then ⟨some p, s.armed now, (s.refilled now).cut⟩
      else ⟨some { p with deliverable :=
          ((s.armed now).prepareDataPacket p.deliverable (decide (p.priority = .newData))).2 },
        ((s.armed now).prepareDataPacket p.deliverable (decide (p.priority = .newData))).1,
          (s.refilled now).cut⟩ := rfl

theorem Calm.armed {strict : Prop} (s : Socket) (now : Time) :
    Calm strict (s.refilled now).socket (s.armed now) :=
  (Calm.peeked _ now _).trans (.armZeroWindowProbes _ now _)

theorem armed_queues (s : Socket) (now : Time) :
    (s.armed now).sends.retransmission = (s.refilled now).socket.sends.retransmission
      ∧ (s.armed now).sends.newData = (s.refilled now).socket.sends.newData := by
  obtain ⟨blocked, same⟩ := peek_queues (s.refilled now).socket.sends now
    (s.refilled now).allowances
  have sends : (s.armed now).sends = (s.peeked now).2.1 := armZeroWindowProbes_sends _ now _
  rw [sends, Socket.peeked, same]
  exact ⟨rfl, rfl⟩

/-- What calm steps, retransmission and cutting keep, refilling keeps. -/
theorem refilled_keeps (inv : Socket → List (AssociationKey × DataChunkValue) → Prop) {s : Socket}
    (now : Time) (start : inv s []) (calm : ∀ s s' cut, inv s cut → Calm True s s' → inv s' cut)
    (marked : ∀ s key, inv s [] → inv (s.schedulePendingRetransmission key true) [])
    (cuts : ∀ s cut s' key a b chunks, inv s cut → s.find? key = some a → transmitsData a.state
      = true → CutStep key chunks s s' a b → inv s' (cut ++ chunks.map (Prod.mk key))) :
    inv (s.refilled now).socket (s.refilled now).cut := by
  have windows := calm _ _ _ start (Calm.sendAllowances s now)
  have retransmitted : inv ((s.sendAllowances now).1.refillRetransmissions (s.sendAllowances now).2)
      [] := by
    refine List.foldlRecOn (motive := fun s => inv s []) (s.sendAllowances now).2.keys _ windows
      fun s holds key _ => ?_
    split
    · exact holds
    · exact marked s key holds
  exact refillNewData_keeps inv (allowed_sendAllowances s now) retransmitted cuts

/-- From there on `next_packet` is calm. -/
theorem Calm.nextPacket {strict : Prop} (s : Socket) (now : Time) :
    Calm strict (s.refilled now).socket (s.nextPacket now).socket := by
  rw [nextPacket_eq]
  split
  · exact .armed s now
  · split
    · exact .armed s now
    · exact (Calm.armed s now).trans ((prepareDataPacket_spec _ _ _).calm strict)

theorem cut_nextPacket (s : Socket) (now : Time) :
    (s.nextPacket now).cut = (s.refilled now).cut := by
  rw [nextPacket_eq]
  split
  · rfl
  · split <;> rfl

theorem nextPacket_keeps (inv : Socket → List (AssociationKey × DataChunkValue) → Prop) {s : Socket}
    (now : Time) (start : inv s []) (calm : ∀ s s' cut, inv s cut → Calm True s s' → inv s' cut)
    (marked : ∀ s key, inv s [] → inv (s.schedulePendingRetransmission key true) [])
    (cuts : ∀ s cut s' key a b chunks, inv s cut → s.find? key = some a → transmitsData a.state
      = true → CutStep key chunks s s' a b → inv s' (cut ++ chunks.map (Prod.mk key))) :
    inv (s.nextPacket now).socket (s.nextPacket now).cut := by
  rw [cut_nextPacket]
  exact calm _ _ _ (refilled_keeps inv now start calm marked cuts) (.nextPacket s now)

theorem PickedAs.prepared {s : Socket} {p : Pending} {q : Queued} {prepared : Socket × Deliverable}
    (picked : PickedAs p q) (made : Prepared s p.deliverable prepared) :
    PickedAs { p with deliverable := prepared.2 } q where
  id := picked.id
  location := made.location.trans picked.location
  destination := made.destination.trans picked.destination
  dataChunks := made.dataChunks.trans picked.dataChunks

/-- What `next_packet` returns is at the head of its queue, if it is no new DATA, and
among the new DATA otherwise. -/
theorem picked_nextPacket {s : Socket} {now : Time} {p : Pending}
    (ok : QueuesOk (s.refilled now).socket) (found : (s.nextPacket now).pending = some p) :
    Picked (s.nextPacket now).socket.sends p := by
  obtain ⟨retransmission, newData⟩ := armed_queues s now
  rw [nextPacket_eq] at found ⊢
  cases peeked : (s.peeked now).1 with
  | none =>
    rw [peeked] at found
    cases found
  | some p' =>
    simp only [peeked] at found ⊢
    have picked := picked_peek ok peeked
    split at found
    · next control =>
      rw [if_pos control]
      cases found
      cases picked with
      | control _ none => exact .control control none
      | retransmission q rest other => rw [control] at other; cases other
      | newData q other => rw [control] at other; cases other
    · next other =>
      rw [if_neg other]
      have made := prepareDataPacket_spec (s.armed now) p'.deliverable
        (decide (p'.priority = .newData))
      cases found
      cases picked with
      | control control => exact absurd control other
      | retransmission q rest priority head picked kinds =>
        refine .retransmission q rest priority
          (by rw [made.retransmission, retransmission]; exact head) (picked.prepared made) ?_
        rcases kinds with none | carries
        · exact Or.inl (made.dataChunks.trans none)
        · exact Or.inr (made.carries carries)
      | newData q priority member picked carries =>
        exact .newData q priority (by rw [made.newData, newData]; exact member)
          (picked.prepared made) (made.carries carries)

end SctpStack
