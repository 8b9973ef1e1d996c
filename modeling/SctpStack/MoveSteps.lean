import SctpStack.MoveHandlers

/-!
# Steps of the socket as sequences of moves

Sending is a sequence of moves, and so is all else a step does but for the ways into an
association. What moves keep, and those ways in, a step keeps (`System.step_moves`).
-/

namespace SctpStack

/-! ## Sending -/

/-- Every association changed, in nothing that matters. -/
theorem Quiet.mapVals (s : Socket) (f : AssociationKey → Association → Association)
    (same : ∀ k a, Same a (f k a)) :
    Quiet s { s with associations := s.associations.mapVals f } := by
  have lookup : ∀ k, Socket.find? { s with associations := s.associations.mapVals f } k
      = (s.find? k).map (f k) :=
    fun k => KeyMap.get?_mapVals f s.associations k
  refine Keeping.of_associations rfl rfl rfl rfl rfl (fun k gone => ?_) fun k a found => ?_
  · rw [lookup, gone]
    rfl
  · exact ⟨f k a, by rw [lookup, found]; rfl, same k a⟩

theorem Quiet.sendAllowances (s : Socket) (now : Time) : Quiet s (s.sendAllowances now).1 := by
  refine Quiet.mapVals s _ fun k a => ?_
  split
  · refine .of_essence (essence_paths a ?_) rfl rfl rfl
    simp only [Association.ips, List.map_map]
    apply List.map_congr_left
    intro path _
    simp [decayIdleCwnd_address]
  · exact .refl a

theorem Quiet.startTransmissionOpportunity (s : Socket) : Quiet s s.startTransmissionOpportunity :=
  Quiet.mapVals s _ fun _ _ => ⟨rfl, rfl, rfl, Or.inl rfl⟩

/-- Where nothing is cut, nothing changed. -/
theorem cutNewData_nothing {a : Association} {allowance : SendAllowance}
    (none : (cutNewData a allowance).chunks = []) :
    (cutNewData a allowance).assoc = a := by
  unfold cutNewData cutNewDataFrom at none ⊢
  cases queue : a.outbound with
  | nil => rfl
  | cons message rest =>
    simp only [queue] at none ⊢
    cases size : cutSize a allowance 0 (allowance.zeroWindowProbe && true) message with
    | none => rfl
    | some take =>
      simp only [size] at none
      split at none <;> cases none

theorem shift_cutNewData {a : Association} (allowance : SendAllowance)
    (transmits : transmitsData a.state = true) :
    Shift a (cutNewData a allowance).assoc := by
  obtain ⟨only, nextTsn, -, -⟩ := cutNewDataFrom_spec allowance (a.pmdcs + 1) a 0 true
  change CutOnly a (cutNewData a allowance).assoc at only
  refine .cut (cutNewData a allowance).chunks.length ?_ ?_ transmits nextTsn fun nothing => ?_
  · rw [only]
    rfl
  · rw [only]
    exact ⟨rfl, rfl, Or.inl rfl⟩
  · rw [cutNewData_nothing (List.length_eq_zero_iff.mp nothing)]

theorem Acts.refilled (s : Socket) (now : Time) : Acts s (s.refilled now).socket := by
  have queued : Acts s ((s.sendAllowances now).1.refillRetransmissions
      (s.sendAllowances now).2) := by
    refine (Acts.quiet (.sendAllowances s now)).thenQuiet (.foldl _ (fun s key => ?_) _)
    split
    · exact .refl s
    · exact .schedulePendingRetransmission s key true
  refine (List.foldlRecOn (motive := fun r => Acts s r.socket ∧ Allowed r)
    (s.sendAllowances now).2.keys Socket.refillNewDataFor ⟨queued, allowed_sendAllowances s now⟩
      fun r holds key _ => ⟨?_, holds.2.refill⟩).1
  rcases refillNewDataFor_cases r key with same | ⟨allowance, a, allowed, found, -, -, -, -, done⟩
  · rw [same]
    exact holds.1
  · obtain ⟨a', found', transmits⟩ := holds.2 key allowance allowed
    rw [found] at found'
    cases found'
    have cut : Acts s (r.socket.setAssociation key (cutNewData a allowance).assoc) :=
      holds.1.tail (.shift key (.setAt found (shift_cutNewData allowance transmits)))
    rcases done with ⟨-, socket, -⟩ | ⟨-, socket, -⟩
    · rw [socket]
      exact cut
    · rw [socket]
      exact cut.thenQuiet (.enqueue _ _ _)

theorem Quiet.armed (s : Socket) (now : Time) : Quiet (s.refilled now).socket (s.armed now) := by
  unfold Socket.armed
  refine Quiet.trans ?_ (.foldl _ (fun s entry => ?_) _)
  · obtain ⟨blocked, same⟩ := peek_queues (s.refilled now).socket.sends now
      (s.refilled now).allowances
    rw [Socket.peeked, same]
    exact .of_same (fun _ => rfl) rfl rfl (.refl _) (.of_subset (fun _ => id) fun _ => id) (.refl _)
  · unfold Socket.armZeroWindowProbe
    simp only
    split
    · exact .refl s
    · split
      · exact .refl s
      · split
        · exact .refl s
        · exact .schedule s rfl _ _

theorem Quiet.prepareDataPacket (s : Socket) (d : Deliverable) (newData : Bool) :
    Quiet s (s.prepareDataPacket d newData).1 := by
  unfold Socket.prepareDataPacket
  simp only
  split
  · exact .refl s
  · cases found : s.find? d.location with
    | none => exact .refl s
    | some a =>
      simp only
      generalize (_ || _ || decide (a.state = .shutdownPending)) = on
      generalize (if on = true then setImmediate d.packet.chunks else d.packet.chunks) = chunks
      split
      · exact .refl s
      · have reported : Same a (s.makeSack d.location a).2 := ⟨rfl, rfl, rfl, Or.inr rfl⟩
        have sacked : Quiet s ((s.setAssociation d.location
            (s.makeSack d.location a).2).cancelExpiration (timerOf d.location .delayedSack)) :=
          Quiet.trans (.set found reported) (.cancel _ rfl (by exact nofun))
        split
        · exact sacked
        · exact sacked.trans (.enqueue _ _ _)

theorem Acts.nextPacket (s : Socket) (now : Time) : Acts s (s.nextPacket now).socket := by
  have armed := (Acts.refilled s now).thenQuiet (.armed s now)
  rw [nextPacket_eq]
  split
  · exact armed
  · split
    · exact armed
    · exact armed.thenQuiet (.prepareDataPacket _ _ _)

/-- What is set or bundled on a packet on its way out leaves its chunks in it. -/
theorem containsChunk_prepared (s : Socket) (d : Deliverable) (newData : Bool) {type : ChunkType}
    (contains : containsChunk d.packet type = true) :
    containsChunk (s.prepareDataPacket d newData).2.packet type = true := by
  have immediate : ∀ on : Bool, ((if on then setImmediate d.packet.chunks else d.packet.chunks).any
      fun chunk => decide (chunk.type = type)) = true := by
    intro on
    have values : (if on then setImmediate d.packet.chunks else d.packet.chunks).map Chunk.value
        = d.packet.chunks.map Chunk.value := by
      rw [apply_ite (List.map Chunk.value), values_setImmediate, ite_self]
    obtain ⟨chunk, member, is⟩ := List.any_eq_true.mp contains
    obtain ⟨c, inside, same⟩ := type_of_values values.symm member
    exact List.any_eq_true.mpr ⟨c, inside, by rw [same]; exact is⟩
  unfold Socket.prepareDataPacket
  simp only
  split
  · exact contains
  · cases found : s.find? d.location with
    | none => exact contains
    | some a =>
      simp only
      generalize (_ || _ || decide (a.state = .shutdownPending)) = on
      have still := immediate on
      revert still
      generalize (if on = true then setImmediate d.packet.chunks else d.packet.chunks) = chunks
      intro still
      split
      · exact still
      · split
        · simp only [containsChunk, List.any_append, still, Bool.or_true]
        · exact still

theorem leaves_nextPacket {s : Socket} {now : Time} {p : Pending}
    (found : (s.nextPacket now).pending = some p) :
    Leaves (s.nextPacket now).socket.sends p := by
  have sends : (s.armed now).sends = (s.peeked now).2.1 := armZeroWindowProbes_sends _ now _
  obtain ⟨blocked, same⟩ := peek_queues (s.refilled now).socket.sends now
    (s.refilled now).allowances
  rw [Socket.peeked, same] at sends
  rw [nextPacket_eq] at found ⊢
  cases peeked : (s.peeked now).1 with
  | none =>
    rw [peeked] at found
    cases found
  | some p' =>
    simp only [peeked] at found ⊢
    unfold Socket.peeked SendQueue.peek at peeked
    split at peeked
    · cases peeked
    · cases control : (s.refilled now).socket.sends.control with
      | cons e rest =>
        simp only [control] at peeked
        cases peeked
        simp only [if_true] at found ⊢
        cases found
        exact .control e rest rfl (by rw [sends]; exact control) rfl rfl
      | nil =>
        cases retransmission : (s.refilled now).socket.sends.retransmission with
        | cons e rest =>
          simp only [control, retransmission] at peeked
          cases peeked
          simp only [reduceCtorEq, if_false] at found ⊢
          cases found
          have made := prepareDataPacket_spec (s.armed now) e.deliverable
          refine .retransmission e rest rfl ?_ rfl (made _).location fun type =>
            containsChunk_prepared _ _ _
          rw [(made _).retransmission, sends]
          exact retransmission
        | nil =>
          simp only [control, retransmission] at peeked
          split at peeked
          · next p'' allowances' picked =>
            have first : (SendQueue.peekNewData (s.refilled now).allowances []
                (s.refilled now).socket.sends.newData).1 = some p'' := by rw [picked]
            obtain ⟨q, member, rfl⟩ := mem_peekNewData first
            cases peeked
            simp only [reduceCtorEq, if_false] at found
            cases found
            exact .newData rfl
          · cases peeked

theorem Quiet.packetRefused (s : Socket) (now : Time) (p : Pending) :
    Quiet s (s.packetRefused now p) := by
  have deferred : Quiet s { s with sends := s.sends.defer (now + msec sendRetryDelay) } :=
    .of_same (fun _ => rfl) rfl rfl (.refl _) (.of_subset (fun _ => id) fun _ => id) (.refl _)
  unfold Socket.packetRefused Socket.requeueBundledSack
  split
  · split
    · exact deferred
    · exact deferred.trans (.enqueue _ _ _)
  · exact deferred

theorem Acts.sendOne (σ : System) (now : Time) (accepted : Bool) (left : Nat) :
    Acts σ.socket (σ.sendOne now accepted left).socket := by
  have next := Acts.nextPacket σ.socket now
  unfold System.sendOne
  simp only
  cases pending : (σ.socket.nextPacket now).pending with
  | none => exact next
  | some p =>
    simp only
    split
    · exact next.tail (.sent p now (leaves_nextPacket pending))
    · exact next.thenQuiet (.packetRefused _ now p)

end SctpStack
