import SctpStack.GapBlocks
import SctpStack.Works
import Mathlib.Data.List.Chain
import Mathlib.Data.List.Flatten

/-!
# What is acknowledged over a run

A SACK or a SHUTDOWN that is queued or bundled acknowledges what its association received
by then (`Fit.current`), and a step takes in the DATA of one packet at most. So all that a
step acknowledges is what was received before that DATA, and then what was received with
it (`Trail`); and as long as the peer's tag is the same, no SACK or SHUTDOWN acknowledges
less than the one before it (`sacks_exact`).
-/

namespace SctpStack

/-! ## The DATA of a packet -/

/-- The packets that are handled were decoded from datagrams. -/
def Arrives (_ : System) (event : Event) : Prop :=
  ∀ now draws packet src, event = .recv now draws packet src →
    ∃ data : Bytes, data.length ≤ maxUdpDatagram ∧ decodePacket data = some packet

theorem length_deserializeChunksFrom {data : Bytes} {fuel offset : Nat} {chunks : List Chunk}
    (read : deserializeChunksFrom data fuel offset = some chunks) : chunks.length ≤ fuel := by
  induction fuel generalizing offset chunks with
  | zero =>
    cases read
    exact Nat.le_refl 0
  | succ fuel ih =>
    unfold deserializeChunksFrom at read
    simp only at read
    split at read
    · split at read
      · cases read
      · split at read
        · cases read
        · split at read
          · cases read
          · split at read
            · cases read
            · obtain ⟨rest, later, rfl⟩ := Option.map_eq_some_iff.mp read
              exact Nat.succ_le_succ (ih later)
    · cases read
      exact Nat.zero_le _

/-- A datagram has no more chunks than bytes. -/
theorem Arrives.few {σ : System} {event : Event} (arrives : Arrives σ event) {now : Time}
    {draws : Nat → Draws} {packet : Packet} {src : SockAddr}
    (is : event = .recv now draws packet src) :
    (stripUnrecognized packet.chunks).1.length ≤ 65535 := by
  obtain ⟨data, short, decoded⟩ := arrives now draws packet src is
  refine Nat.le_trans (stripUnrecognized_sublist packet.chunks).length_le (Nat.le_trans ?_ short)
  unfold decodePacket at decoded
  split at decoded
  · cases decoded
  · split at decoded
    · cases decoded
    · unfold deserializeSctpPacket at decoded
      split at decoded
      · cases decoded
      · obtain ⟨chunks, read, rfl⟩ := Option.map_eq_some_iff.mp decoded
        exact length_deserializeChunksFrom read

/-- No more TSNs are held than a SACK can report. -/
theorem PastGap.length_le {a : Association} (past : PastGap a) :
    a.tsnOooBuffer.entries.length ≤ 65536 := by
  have rising := rising_heldOffsets past
  have inside : a.heldOffsets.map BitVec.toNat ⊆ List.range 65536 := by
    intro n member
    rw [toNat_heldOffsets past] at member
    obtain ⟨tsn, held, rfl⟩ := List.mem_map.mp member
    exact List.mem_range.mpr (Nat.lt_succ_of_le (past.offset held).2)
  have nodup : (a.heldOffsets.map BitVec.toNat).Nodup := rising.imp Nat.ne_of_lt
  have few := (nodup.subperm inside).length_le
  rw [List.length_map, Association.heldOffsets, List.length_map, length_keys, List.length_range]
    at few
  exact few

theorem tsnLte_refl (tsn : Tsn) : tsnLte tsn tsn = true := by simp [tsnLte]

theorem Advanced.tsnLte {a b : Association} {came : Nat} (advanced : Advanced came a b)
    (few : a.tsnOooBuffer.entries.length + came < 2 ^ 31) :
    tsnLte a.lastPeerTsn b.lastPeerTsn = true := by
  obtain ⟨n, last, fewer⟩ := advanced
  rw [last, SctpStack.tsnLte, Bool.or_eq_true, beq_iff_eq, tsnLt_iff]
  have ahead := Serial.sub_ahead_of_lt a.lastPeerTsn (Nat.zero_le n) (by omega)
  rw [Serial.ahead_zero, Nat.sub_zero] at ahead
  rcases Nat.eq_zero_or_pos n with rfl | some
  · exact Or.inl (Serial.ahead_zero _).symm
  · exact Or.inr (by omega)

namespace System

variable {σ : System} {event : Event}

/-- The DATA of a packet only moves the cumulative TSN forward. -/
theorem took_forward (reports : Reports σ.socket) (arrives : Arrives σ event) {v w : Tsn}
    (took : σ.hears event (.took v w)) : tsnLte v w = true := by
  obtain ⟨now, draws, packet, src, s', key, carried, s'', a, is, dispatched, after, found, receives,
      fine, rfl, rfl⟩ := took
  have past := ((reports.afterChunks dispatched after).reportable key a found).toPastGap
  refine (takeData_takesIn s'' key carried past fine).advanced.tsnLte ?_
  have := past.length_le
  have := arrives.few is
  omega

/-- A packet's DATA is taken in once. -/
theorem took_once {v w v' w' : Tsn} (took : σ.hears event (.took v w))
    (again : σ.hears event (.took v' w')) :
    v = v' ∧ w = w' := by
  obtain ⟨now, draws, packet, src, s', key, carried, s'', a, is, dispatched, after, found, -, -,
      rfl, rfl⟩ := took
  obtain ⟨now', draws', packet', src', t', key', carried', t'', a', is', dispatched', after',
      found', -, -, rfl, rfl⟩ := again
  cases is.symm.trans is'
  cases dispatched.symm.trans dispatched'
  cases after.symm.trans after'
  cases found.symm.trans found'
  exact ⟨rfl, rfl⟩

end System

/-! ## What acknowledges it -/

/-- What was `sent` to acknowledge, and then what the packets for a key acknowledge that were
queued since an id was handed out. -/
def Socket.acksSince (s : Socket) (sent : List Tsn) (since : Nat) (key : AssociationKey) :
    List Tsn :=
  sent ++ (s.sends.control.filter fun e =>
    decide (since ≤ e.id ∧ e.deliverable.location = key)).flatMap
    fun e => e.deliverable.packet.acks

section Queue

variable {s s' : Socket} {sent : List Tsn} {since : Nat} {key : AssociationKey}

theorem acksSince_sublist (fewer : s'.sends.control.Sublist s.sends.control) :
    (s'.acksSince sent since key).Sublist (s.acksSince sent since key) :=
  (List.append_sublist_append_left sent).mpr ((fewer.filter _).flatMap _)

theorem acksSince_enqueue (s : Socket) (d : Deliverable) (priority : SendPriority) :
    (s.enqueuePacket d priority).acksSince sent since key = s.acksSince sent since key
      ∨ d.location = key ∧ (s.enqueuePacket d priority).acksSince sent since key
        = s.acksSince sent since key ++ d.packet.acks := by
  cases priority with
  | control =>
    unfold Socket.acksSince Socket.enqueuePacket SendQueue.enqueue
    simp only
    split
    · exact Or.inl rfl
    · rw [List.filter_append, List.flatMap_append, ← List.append_assoc]
      by_cases counts : since ≤ s.sends.nextId ∧ d.location = key
      · refine Or.inr ⟨counts.2, ?_⟩
        simp [counts]
      · refine Or.inl ?_
        simp [counts]
  | retransmission => exact Or.inl rfl
  | newData => exact Or.inl rfl

/-- Nothing was queued yet. -/
theorem acksSince_nextId (standing : Standing s) : s.acksSince sent s.sends.nextId key = sent := by
  rw [Socket.acksSince, List.filter_eq_nil_iff.mpr, List.flatMap_nil, List.append_nil]
  intro e member
  have queued : e ∈ s.sends.queued := List.mem_append_left _ member
  have := standing.numbered e queued
  simp only [decide_eq_true_eq, not_and]
  omega

end Queue

/-! ## A step -/

section Trail

variable {heard : Evidence → Prop} {sent : List Tsn} {since : Nat} {key : AssociationKey}
    {start : Option Association} {s s' : Socket}

/-- What is acknowledged for a key in a step, `start` being the association that was up
before it. -/
inductive Trail (heard : Evidence → Prop) (sent : List Tsn) (since : Nat) (key : AssociationKey)
    (start : Option Association) (s : Socket) : Prop where
  /-- The association is not up yet. -/
  | early : start = none → (∀ a, s.find? key = some a → forming a.state = true) →
      s.find? key = none ∨ s.acksSince sent since key = [] → Trail heard sent since key start s
  /-- No DATA was taken in. -/
  | level {a : Association} : s.find? key = some a → forming a.state = false →
      (∀ b ∈ start, Heeds b a) → (∀ tsn ∈ s.acksSince sent since key, tsn = a.lastPeerTsn) →
        Trail heard sent since key start s
  /-- The DATA of a packet was taken in. -/
  | moved {a : Association} {v : Tsn} {before after : List Tsn} :
      s.find? key = some a → forming a.state = false →
        (∀ b ∈ start, v = b.lastPeerTsn ∧ a.peerVerTag = b.peerVerTag) →
          heard (.took v a.lastPeerTsn) →
      s.acksSince sent since key = before ++ after → (∀ tsn ∈ before, tsn = v) →
        (∀ tsn ∈ after, tsn = a.lastPeerTsn) →
      Trail heard sent since key start s
  /-- The peer has another tag now, or the association is gone. -/
  | lost {b : Association} : start = some b → (∀ a, s.find? key = some a → forming a.state = false
      ∧ a.peerVerTag ≠ b.peerVerTag) → Trail heard sent since key start s

/-- What evidence there is of one step. -/
structure OneStep (heard : Evidence → Prop) (key : AssociationKey) (start : Option Association) :
    Prop where
  took : ∀ v w v' w', heard (.took v w) → heard (.took v' w') → v = v' ∧ w = w'
  met : ∀ forms before after, heard (.met key forms before after) →
    forms = start.isNone ∧ after ≠ before ∧ ∀ b ∈ start, before = b.peerVerTag

/-- Before the first deed of a step. -/
def Begun (start : Option Association) (tcb : Option Association) : Prop :=
  start = none ∧ (∀ a, tcb = some a → forming a.state = true) ∨ ∃ b, start = some b ∧ tcb = some b

theorem purged {q : SendQueue} (sends : s'.sends = q.purge key) (same : q = s.sends) :
    s'.sends.control.Sublist s.sends.control := by
  rw [sends, same]
  exact List.filter_sublist

/-- Control packets are queued one at a time. -/
theorem control_deed {k : AssociationKey} (deed : Deed heard k s s') :
    (∃ d priority, s' = s.enqueuePacket d priority ∧ Fit s k d)
      ∨ s'.sends.control.Sublist s.sends.control := by
  cases deed with
  | enqueue d priority fit => exact Or.inl ⟨d, priority, rfl, fit⟩
  | @credit a b info i notes =>
    obtain ⟨q, same⟩ := notes_only (s.setAssociation k b) k notes
    rw [same]
    exact Or.inr (.refl _)
  | @restarted a => exact Or.inr (purged (cleared_clearedFor s k a).sends rfl)
  | @collided a =>
    exact Or.inr ((congrArg SendQueue.control (undisturbed_abandonPartialDelivery s k a).sends)
      ▸ .refl _)
  | ended => exact Or.inr (purged (cleared_removeAssociation s k).sends rfl)
  | @violated a b => exact Or.inr (purged (cleared_removeAssociation (s.setAssociation k b) k).sends
      rfl)
  | gaveUp => exact Or.inr List.filter_sublist
  | _ => exact Or.inr (.refl _)

namespace Trail

/-- The association goes on as it was. -/
theorem keeps (trail : Trail heard sent since key start s)
    (kept : ∀ b, s'.find? key = some b → ∃ a, s.find? key = some a
      ∧ forming b.state = forming a.state
      ∧ (forming a.state = false → Heeds a b))
    (there : ∀ a, s.find? key = some a → (s'.find? key).isSome = true)
    (fewer : (s'.acksSince sent since key).Sublist (s.acksSince sent since key)) :
    Trail heard sent since key start s' := by
  have goesOn : ∀ a, s.find? key = some a → forming a.state = false →
      ∃ b, s'.find? key = some b ∧ forming b.state = false ∧ Heeds a b := by
    intro a found up
    obtain ⟨b, after⟩ := Option.isSome_iff_exists.mp (there a found)
    obtain ⟨a', found', same, heeds⟩ := kept b after
    cases found.symm.trans found'
    exact ⟨b, after, same.trans up, heeds up⟩
  cases trail with
  | early none forms empty =>
    refine .early none (fun b after => ?_) ?_
    · obtain ⟨a, found, same, -⟩ := kept b after
      exact same.trans (forms a found)
    · cases after : s'.find? key with
      | none => exact Or.inl rfl
      | some b =>
        obtain ⟨a, found, -⟩ := kept b after
        rw [found] at empty
        exact Or.inr (List.sublist_nil.mp (empty.resolve_left nofun ▸ fewer))
  | level found up heeds acks =>
    obtain ⟨b, after, up', still⟩ := goesOn _ found up
    refine .level after up' (fun c is => (heeds c is).trans still) fun tsn member => ?_
    rw [still.lastPeerTsn]
    exact acks tsn (fewer.subset member)
  | moved found up same took split before after =>
    obtain ⟨b, here, up', still⟩ := goesOn _ found up
    rw [split] at fewer
    obtain ⟨l, m, split', left, right⟩ := List.sublist_append_iff.mp fewer
    refine .moved here up' (fun c is => ⟨(same c is).1, still.peerVerTag.trans (same c is).2⟩)
      (by rw [still.lastPeerTsn]; exact took) split' (fun tsn member =>
        before tsn (left.subset member)) fun tsn member => ?_
    rw [still.lastPeerTsn]
    exact after tsn (right.subset member)
  | lost is other =>
    refine .lost is fun b after => ?_
    obtain ⟨a, found, same, heeds⟩ := kept b after
    obtain ⟨up, apart⟩ := other a found
    rw [(heeds up).peerVerTag]
    exact ⟨same.trans up, apart⟩

/-- Nothing is done for the association. -/
theorem untouched (trail : Trail heard sent since key start s) (same : s'.find? key = s.find? key)
    (fewer : (s'.acksSince sent since key).Sublist (s.acksSince sent since key)) :
    Trail heard sent since key start s' := by
  refine trail.keeps (fun b after => ⟨b, same.symm.trans after, rfl, fun _ => ⟨rfl, rfl⟩⟩)
    (fun a found => ?_) fewer
  rw [same, found]
  rfl

theorem ends (gone : s'.find? key = none) : Trail heard sent since key start s' := by
  cases begun : start with
  | none =>
    refine .early rfl (fun a found => ?_) (Or.inl gone)
    cases gone.symm.trans found
  | some b =>
    refine .lost rfl fun a found => ?_
    cases gone.symm.trans found

/-- A packet is queued. -/
theorem enqueue {k : AssociationKey} (trail : Trail heard sent since key start s) {d : Deliverable}
    (fit : Fit s k d) (priority : SendPriority) :
    Trail heard sent since key start (s.enqueuePacket d priority) := by
  rcases acksSince_enqueue s d priority with same | ⟨location, more⟩
  · exact trail.untouched rfl (same ▸ .refl _)
  · cases fit.location.symm.trans location
    have current : d.packet.acks = [] ∨ ∃ a, s.find? key = some a ∧ forming a.state = false
        ∧ ∀ tsn ∈ d.packet.acks, tsn = a.lastPeerTsn := by
      rcases fit.current with silent | ⟨a, found, silent | ⟨up, -, acks⟩⟩
      · exact Or.inl silent.acks
      · exact Or.inl silent.acks
      · exact Or.inr ⟨a, found, up, acks⟩
    rcases current with none | ⟨b, here, up, acks⟩
    · rw [none, List.append_nil] at more
      exact trail.untouched rfl (more ▸ .refl _)
    · cases trail with
      | early _ forms =>
        rw [forms b here] at up
        cases up
      | level found isUp heeds so =>
        cases here.symm.trans found
        refine .level found isUp heeds fun tsn member => ?_
        rw [more] at member
        exact (List.mem_append.mp member).elim (so tsn) (acks tsn)
      | moved found isUp same took split before after =>
        cases here.symm.trans found
        refine .moved found isUp same took (by rw [more, split, List.append_assoc]) before
          fun tsn member => ?_
        exact (List.mem_append.mp member).elim (after tsn) (acks tsn)
      | lost is other => exact .lost is other

/-- The DATA of a packet is taken in. -/
theorem takes (trail : Trail heard sent since key start s) (one : OneStep heard key start)
    {a b : Association} (found : s.find? key = some a) (up : forming a.state = false)
    (after : s'.find? key = some b) (state : forming b.state = forming a.state)
    (took : heard (.took a.lastPeerTsn b.lastPeerTsn)) (tag : b.peerVerTag = a.peerVerTag)
    (same : s'.acksSince sent since key = s.acksSince sent since key) :
    Trail heard sent since key start s' := by
  cases trail with
  | early _ forms =>
    rw [forms a found] at up
    cases up
  | level here _ heeds acks =>
    cases found.symm.trans here
    refine .moved after (state.trans up)
      (fun c is => ⟨(heeds c is).lastPeerTsn, tag.trans (heeds c is).peerVerTag⟩)
        took (same.trans (List.append_nil _).symm) acks fun tsn none => absurd none List.not_mem_nil
  | moved here _ before took' split left right =>
    cases found.symm.trans here
    -- The cumulative TSN is where the DATA leaves it already.
    obtain ⟨-, second⟩ := one.took _ _ _ _ took took'
    refine .moved after (state.trans up) (fun c is => ⟨(before c is).1, tag.trans (before c is).2⟩)
      (by rw [second]; exact took') (same.trans split) left fun tsn member => ?_
    rw [second]
    exact right tsn member
  | lost is other =>
    refine .lost is fun c here => ?_
    cases after.symm.trans here
    rw [tag]
    exact ⟨state.trans up, (other a found).2⟩

/-- A cookie gives the association another tag of the peer. -/
theorem collides (trail : Trail heard sent since key start s) (one : OneStep heard key start)
    {a b : Association} (found : s.find? key = some a) (after : s'.find? key = some b)
    (state : forming b.state = forming a.state)
    (met : heard (.met key (forming a.state) a.peerVerTag b.peerVerTag))
    (same : s'.acksSince sent since key = s.acksSince sent since key) :
    Trail heard sent since key start s' := by
  obtain ⟨begun, apart, tags⟩ := one.met _ _ _ met
  cases start with
  | none =>
    cases trail with
    | early none _ empty =>
      refine .early none (fun c here => ?_) (Or.inr ?_)
      · cases after.symm.trans here
        exact state.trans begun
      · rw [found] at empty
        exact same.trans (empty.resolve_left nofun)
    | level here up | moved here up =>
      cases found.symm.trans here
      rw [begun] at up
      cases up
    | lost is => cases is
  | some c =>
    refine .lost rfl fun b' here => ?_
    cases after.symm.trans here
    refine ⟨state.trans begun, fun back => apart ?_⟩
    rw [back, tags c rfl]

/-- An association comes up, by a COOKIE ECHO or a COOKIE ACK. -/
theorem rises (trail : Trail heard sent since key start s)
    (unborn : ∀ a, s.find? key = some a → forming a.state = true)
    (known : start = none ∧ s.acksSince sent since key = [] ∨ (s.find? key).isSome = true)
    {b : Association} (after : s'.find? key = some b) (up : forming b.state = false)
    (fewer : (s'.acksSince sent since key).Sublist (s.acksSince sent since key)) :
    Trail heard sent since key start s' := by
  cases trail with
  | early none _ absent =>
    have empty : s.acksSince sent since key = [] := by
      rcases known with ⟨-, empty⟩ | there
      · exact empty
      · refine absent.resolve_left fun gone => ?_
        rw [gone] at there
        cases there
    rw [empty] at fewer
    refine .level after up (fun c is => ?_) fun tsn member => ?_
    · rw [none] at is
      cases is
    · rw [List.sublist_nil.mp fewer] at member
      cases member
  | level found isUp | moved found isUp =>
    rw [unborn _ found] at isUp
    cases isUp
  | lost is other =>
    obtain ⟨a, found⟩ := Option.isSome_iff_exists.mp (known.resolve_left fun none => by
      rw [is] at none; cases none.1)
    have isUp := (other a found).1
    rw [unborn a found] at isUp
    cases isUp

theorem deed {k : AssociationKey} (trail : Trail heard sent since key start s)
    (deed : Deed heard k s s') (one : OneStep heard key start)
    (first : ∀ now cookieData header src, heard (.echoed now cookieData header src) →
      Begun start (s.find? key)
      ∧ s.acksSince sent since key = []) :
    Trail heard sent since key start s' := by
  rcases control_deed deed with ⟨d, priority, rfl, fit⟩ | control
  · exact trail.enqueue fit priority
  have fewer : (s'.acksSince sent since key).Sublist (s.acksSince sent since key) :=
    acksSince_sublist control
  by_cases mine : key = k
  · subst mine
    have changed : ∀ {a b : Association}, s.find? key = some a → s'.find? key = some b →
        forming b.state = forming a.state → (forming a.state = false → Heeds a b) →
          Trail heard sent since key start s' := by
      intro a b found after state heeds
      refine trail.keeps (fun c here => ⟨a, found, ?_⟩) (fun _ _ => by rw [after]; rfl) fewer
      cases after.symm.trans here
      exact ⟨state, heeds⟩
    cases deed with
    | update found succeeds =>
        exact changed found (by simp) succeeds.toFollows.forming succeeds.heeds
    | @tie a draws found =>
      refine changed found (Socket.find?_setAssociation s key key _ |>.trans (if_pos rfl))
        ?_ fun _ => ⟨?_, ?_⟩
      all_goals
        rw [withTieTags_only]
    | credit notes found _ _ credited =>
      exact changed found (by simp [find?_notes]) (congrArg forming credited.state) fun _ =>
        credited.heeds
    | @up a found forms =>
      have unborn : ∀ b, s.find? key = some b → forming b.state = true := by
        intro b here
        cases found.symm.trans here
        exact forms
      exact trail.rises unborn (Or.inr (by rw [found]; rfl)) (b := { a with state := .established })
        (by simp) rfl fewer
    | created absent shown is begins up =>
      obtain ⟨now, cookieData, header, src, told, -⟩ := shown
      have unborn : ∀ b, s.find? key = some b → forming b.state = true := by
        intro b here
        cases absent.symm.trans here
      refine trail.rises unborn (Or.inl ?_) (by simp) up fewer
      obtain ⟨⟨none, -⟩ | ⟨b, -, here⟩, empty⟩ := first now cookieData header src told
      · exact ⟨none, empty⟩
      · cases absent.symm.trans here
    | @restarted a cookie found restarts =>
      obtain ⟨now, cookieData, header, src, told, -⟩ := restarts.shown
      have after : (((s.clearedFor key a).setAssociation key
          (initNewAssociationFromCookie cookie)).notifyAssocChange key .restart).find? key
            = some (initNewAssociationFromCookie cookie) := by simp
      obtain ⟨⟨none, unborn⟩ | ⟨b, begun, here⟩, empty⟩ := first now cookieData header src told
      · exact trail.rises unborn (Or.inl ⟨none, empty⟩) after rfl fewer
      · refine .lost begun fun c there => ?_
        cases found.symm.trans here
        cases after.symm.trans there
        exact ⟨rfl, restarts.peerVerTag⟩
    | @collided a b found follows _ _ met =>
      refine trail.collides one found (by simp) follows.forming met ?_
      exact congrArg (fun q : SendQueue => sent ++ (q.control.filter _).flatMap _)
        (undisturbed_abandonPartialDelivery s key a).sends
    | ended | violated | gaveUp => exact ends (by simp)
    | deliver delivered found receives follows _ took tag =>
      exact trail.takes one found (up_of_receivesData receives) (by simp) follows.forming took
        tag rfl
    | _ => exact trail.untouched rfl fewer
  · exact trail.untouched (deed.find?_other mine) fewer

theorem without_cookie (trail : Trail heard sent since key start s) :
    Trail (unechoed heard) sent since key start s := by
  cases trail with
  | early none forms empty => exact .early none forms empty
  | level found up heeds acks => exact .level found up heeds acks
  | moved found up same took split before after =>
      exact .moved found up same took split before after
  | lost is other => exact .lost is other

theorem deeds {k : AssociationKey} (trail : Trail heard sent since key start s)
    (deeds : Deeds heard k s s') (one : OneStep heard key start)
    (never : ∀ now cookieData header src, ¬heard (.echoed now cookieData header src)) :
    Trail heard sent since key start s' := by
  induction deeds with
  | refl => exact trail
  | tail _ deed ih => exact ih.deed deed one fun now cookieData header
      src told => absurd told (never now cookieData header src)

/-- Only the first deed is owed to a cookie. -/
theorem led {k : AssociationKey} (trail : Trail heard sent since key start s)
    (led : Led heard (unechoed heard) k s s') (one : OneStep heard key start)
    (begun : Begun start (s.find? key) ∧ s.acksSince sent since key = []) :
    Trail (unechoed heard) sent since key start s' := by
  obtain ⟨s₁, first, rest⟩ := led
  refine Trail.deeds (Trail.without_cookie ?_) rest ⟨one.took, one.met⟩ fun _ _ _ _ told => told
  rcases first with rfl | deed
  · exact trail
  · exact trail.deed deed one fun _ _ _ _ _ => begun

theorem work {event : Event} (trail : Trail heard sent since key start s)
    (work : Work heard event s s') (one : OneStep heard key start)
    (never : ∀ now cookieData header src, ¬heard (.echoed now cookieData header src))
    (open_ : ∀ draws toAddress port, event ≠ .associate draws toAddress port) :
    Trail heard sent since key start s' := by
  cases work with
  | deed k deed => exact trail.deed deed one fun now cookieData header src
      told => absurd told (never now cookieData header src)
  | all f outline =>
    refine trail.keeps (fun b after => ?_) (fun a found => ?_) (.refl _)
    · rw [find?_mapVals, Option.map_eq_some_iff] at after
      obtain ⟨a, found, rfl⟩ := after
      have succeeds : Succeeds a (f key a) := .of_outline (outline key a)
      exact ⟨a, found, succeeds.toFollows.forming, succeeds.heeds⟩
    · rw [find?_mapVals, found]
      rfl
  | opened is => exact absurd is (open_ _ _ _)
  | @aborted k reason a is found =>
    by_cases mine : key = k
    · subst mine
      exact ends (by simp)
    · exact trail.untouched (by simp [mine])
        (acksSince_sublist (purged (cleared_removeAssociation s k).sends rfl))
  | @withdrawn now k a is found forms =>
    by_cases mine : key = k
    · subst mine
      exact ends (by simp)
    · exact trail.untouched (by simp [mine]) (acksSince_sublist List.filter_sublist)
  | sent q control => exact trail.untouched rfl (acksSince_sublist control)
  | _ => exact trail.untouched rfl (.refl _)

theorem works {event : Event} (trail : Trail heard sent since key start s)
    (works : Works heard event s s') (one : OneStep heard key start)
    (never : ∀ now cookieData header src, ¬heard (.echoed now cookieData header src))
    (open_ : ∀ draws toAddress port, event ≠ .associate draws toAddress port) :
    Trail heard sent since key start s' := by
  induction works with
  | refl => exact trail
  | tail _ work ih => exact ih.work work one never open_

end Trail

end Trail

namespace System

variable {σ σ' : System} {event : Event} {key : AssociationKey}

/-- The association under a key, if it is up. -/
def upFor (σ : System) (key : AssociationKey) : Option Association :=
  (σ.socket.find? key).filter fun a => !forming a.state

theorem begun_upFor (σ : System) (key : AssociationKey) :
    Begun (σ.upFor key) (σ.socket.find? key) := by
  unfold upFor
  cases found : σ.socket.find? key with
  | none =>
    refine Or.inl ⟨rfl, fun a here => ?_⟩
    cases here
  | some a =>
    cases forms : forming a.state with
    | true =>
      refine Or.inl ⟨by simp [forms], fun b here => ?_⟩
      cases here
      exact forms
    | false => exact Or.inr ⟨a, by simp [forms], rfl⟩

theorem met_upFor {forms : Bool} {before after : Tag}
    (met : σ.hears event (.met key forms before after)) :
    forms = (σ.upFor key).isNone ∧ after ≠ before ∧ ∀ b ∈ σ.upFor key, before = b.peerVerTag := by
  unfold hears at met
  obtain ⟨-, a, found, is, same, apart⟩ := met
  rw [upFor, found, is, same]
  refine ⟨?_, same ▸ apart, fun b here => ?_⟩
  · cases forms : forming a.state with
    | true => simp [forms]
    | false => simp [forms]
  · obtain ⟨here, -⟩ := Option.filter_eq_some_iff.mp here
    cases here
    rfl

theorem oneStep (σ : System) (event : Event) (key : AssociationKey) :
    OneStep (σ.hears event) key (σ.upFor key) :=
  ⟨fun _ _ _ _ => took_once, fun _ _ _ => met_upFor⟩

/-- Before a step. -/
theorem trail_start (standing : Standing σ.socket) (heard : Evidence → Prop)
    (key : AssociationKey) :
    Trail heard [] σ.socket.sends.nextId key (σ.upFor key) σ.socket := by
  have empty : σ.socket.acksSince [] σ.socket.sends.nextId key = [] := acksSince_nextId standing
  rcases σ.begun_upFor key with ⟨none, forms⟩ | ⟨a, begun, found⟩
  · exact .early none forms (Or.inr empty)
  · obtain ⟨-, up⟩ := Option.filter_eq_some_iff.mp begun
    rw [begun]
    refine .level found (by simpa using up) (fun b is => ?_) fun tsn member => ?_
    · cases is
      exact ⟨rfl, rfl⟩
    · rw [empty] at member
      cases member

/-- A cookie is shown by a packet only. -/
theorem not_echoed (other : ∀ now draws packet src, event ≠ .recv now draws packet src) (now : Time)
    (cookieData : Bytes) (header : CommonHeader) (src : SockAddr) :
    ¬σ.hears event (.echoed now cookieData header src) := by
  rintro ⟨draws, packet, -, -, is, -⟩
  exact other now draws packet src is

theorem trail_associate (standing : Standing σ.socket) (heard : Evidence → Prop) (draws : Draws)
    (toAddress : SockAddr) (port : Port) (key : AssociationKey) :
    Trail heard [] σ.socket.sends.nextId key (σ.upFor key)
      (σ.socket.sctpAssociate draws toAddress port).2 := by
  have before := trail_start standing heard key
  unfold Socket.sctpAssociate
  split
  · exact before
  · simp only
    split
    · exact before
    · next unknown =>
      have none := absent_of_unknown unknown
      refine Trail.enqueue ?_ (fit_buildInit ((find?_emplace none _ _).trans (if_pos rfl)) _ _ _ _)
        .control
      by_cases mine : key = peerKey toAddress port
      · subst mine
        rcases σ.begun_upFor (peerKey toAddress port) with ⟨begun, -⟩ | ⟨a, -, found⟩
        · have empty : σ.socket.acksSince [] σ.socket.sends.nextId (peerKey toAddress port) = [] :=
            acksSince_nextId standing
          refine .early begun (fun a after => ?_) (Or.inr empty)
          rw [find?_emplace none, if_pos rfl] at after
          cases after
          rfl
        · cases none.symm.trans found
      · refine before.untouched ?_ (.refl _)
        rw [find?_emplace none, if_neg mine]

/-- What a step acknowledges. -/
theorem trail_step (standing : Standing σ.socket) (stepped : σ.step event = some σ')
    (key : AssociationKey) :
    Trail (unechoed (σ.hears event)) [] σ.socket.sends.nextId key (σ.upFor key) σ'.socket := by
  have before := trail_start standing (σ.hears event) key
  have one := σ.oneStep event key
  by_cases recv : ∃ now draws packet src, event = .recv now draws packet src
  · obtain ⟨now, draws, packet, src, rfl⟩ := recv
    have handled : σ'.socket = σ.socket.handlePacket now draws packet src := by
      rcases System.step_cases stepped with ⟨_, _, _, _, is, -, rfl⟩ | ⟨_, _, is, -⟩ | ⟨is, -⟩ | ⟨_,
        _, _, is, -⟩ | ⟨s, called, -⟩
      · cases is
        rfl
      · cases is
      · cases is
      · cases is
      · cases called
    rw [handled]
    exact before.led (Deeds.handlePacket σ.socket now draws packet src
      (σ.shows_hears now draws packet src)) one ⟨σ.begun_upFor key, acksSince_nextId standing⟩
  · have other : ∀ now draws packet src, event ≠ .recv now draws packet src :=
      fun now draws packet src is => recv ⟨now, draws, packet, src, is⟩
    by_cases opening : ∃ draws toAddress port, event = .associate draws toAddress port
    · obtain ⟨draws, toAddress, port, rfl⟩ := opening
      rcases System.step_cases stepped with ⟨_, _, _, _, is, -⟩ | ⟨_, _, is, -⟩ | ⟨is, -⟩ | ⟨_,
        _, _, is, -⟩ | ⟨s, called, rfl⟩
      · cases is
      · cases is
      · cases is
      · cases is
      · cases called
        exact trail_associate standing _ draws toAddress port key
    · have open_ : ∀ draws toAddress port, event ≠ .associate draws toAddress port :=
        fun draws toAddress port is => opening ⟨draws, toAddress, port, is⟩
      exact (before.works (System.step_works standing stepped) one (not_echoed other)
        open_).without_cookie

/-! ## Bundled with DATA -/

/-- What the packet that is sent acknowledges, if it was not queued as control. -/
def bundledAcks (σ : System) (event : Event) (key : AssociationKey) : List Tsn :=
  match event with
  | .send now true =>
    match (σ.socket.nextPacket now).pending with
    | some p => if p.priority ≠ .control ∧ p.deliverable.location = key
        then p.deliverable.packet.acks else []
    | none => []
  | _ => []

/-- How far the SACKs and SHUTDOWNs acknowledge that a step makes for a key, in order. -/
def acksMade (σ : System) (event : Event) (σ' : System) (key : AssociationKey) : List Tsn :=
  σ'.socket.acksSince (σ.bundledAcks event key) σ.socket.sends.nextId key

/-- A packet that is sent acknowledges what was received so far. -/
theorem trail_outgoing {heard : Evidence → Prop} {since : Nat} {start : Option Association}
    {s : Socket} {p : Pending} (trail : Trail heard [] since key start s) (out : Outgoing s p)
    (other : p.priority ≠ .control) (here : p.deliverable.location = key)
    (still : ∀ v w, ¬heard (.took v w)) :
    Trail heard p.deliverable.packet.acks since key start s := by
  subst here
  obtain ⟨b, found, -⟩ := out.ready (Or.inr other)
  have current := out.current other b found
  cases trail with
  | early none forms empty =>
    have quiet : p.deliverable.packet.acks = [] := by
      refine List.eq_nil_iff_forall_not_mem.mpr fun tsn member => ?_
      have up := (current tsn member).1
      rw [forms b found] at up
      cases up
    rw [quiet]
    exact .early none forms empty
  | level there up heeds acks =>
    cases found.symm.trans there
    refine .level found up heeds fun tsn member => ?_
    rcases List.mem_append.mp member with first | later
    · exact (current tsn first).2
    · exact acks tsn later
  | moved _ _ _ took => exact absurd took (still _ _)
  | lost is other => exact .lost is other

theorem trail_made (standing : Standing σ.socket) (stepped : σ.step event = some σ')
    (key : AssociationKey) :
    Trail (unechoed (σ.hears event)) (σ.bundledAcks event key) σ.socket.sends.nextId key
      (σ.upFor key) σ'.socket := by
  by_cases bundles : σ.bundledAcks event key = []
  · rw [bundles]
    exact trail_step standing stepped key
  · unfold bundledAcks at bundles ⊢
    split at bundles
    · next now =>
      have other : ∀ now' draws packet src, Event.send now true ≠ .recv now' draws packet src :=
        fun _ _ _ _ => nofun
      have open_ : ∀ draws toAddress port, Event.send now true ≠ .associate draws toAddress port :=
        fun _ _ _ => nofun
      have still : ∀ v w, ¬σ.hears (.send now true) (.took v w) := by
        rintro v w ⟨_, _, _, _, _, _, _, _, _, is, -⟩
        cases is
      obtain ⟨next, out⟩ : Works (σ.hears (.send now true)) (.send now true) σ.socket _
          ∧ _ := Works.nextPacket standing now
      have one := σ.oneStep (.send now true) key
      have mid := (trail_start standing (σ.hears (.send now true)) key).works next one
        (not_echoed other) open_
      cases pending : (σ.socket.nextPacket now).pending with
      | none =>
        rw [pending] at bundles
        exact absurd rfl bundles
      | some p =>
        simp only [pending] at bundles ⊢
        split at bundles
        · next fits =>
          rw [if_pos fits]
          have sent := trail_outgoing mid (out p pending) fits.1 fits.2 still
          have after : σ'.socket = (σ.socket.nextPacket now).socket.packetSent now p := by
            rcases System.step_cases stepped with ⟨_, _, _, _, is, -⟩ | ⟨_, _, is, -⟩ | ⟨is,
              -⟩ | ⟨_, _, _, is, -, rfl⟩
              | ⟨s, called, -⟩
            · cases is
            · cases is
            · cases is
            · cases is
              unfold System.sendOne
              simp only [pending, if_true]
            · cases called
          rw [after]
          exact (sent.works (Works.packetSent (out p pending) now) one (not_echoed other)
            open_).without_cookie
        · exact absurd rfl bundles
    · exact absurd rfl bundles

end System

/-! ## Never backward -/

theorem pairwise_of_levels {v w : Tsn} (le : tsnLte v w = true) {l m : List Tsn}
    (low : ∀ tsn ∈ l, tsn = v) (high : ∀ tsn ∈ m, tsn = w) : (l ++ m).Pairwise fun x y =>
      tsnLte x y = true := by
  refine List.pairwise_append.mpr ⟨?_, ?_, fun x first y second => ?_⟩
  · refine List.pairwise_of_forall_mem_list fun x first y second => ?_
    rw [low x first, low y second]
    exact tsnLte_refl v
  · refine List.pairwise_of_forall_mem_list fun x first y second => ?_
    rw [high x first, high y second]
    exact tsnLte_refl w
  · rw [low x first, high y second]
    exact le

theorem Trail.pairwise {heard : Evidence → Prop} {sent : List Tsn} {since : Nat}
    {key : AssociationKey} {start : Option Association} {s : Socket} {b : Association}
    (trail : Trail heard sent since key start s)
    (forward : ∀ v w, heard (.took v w) → tsnLte v w = true) (found : s.find? key = some b)
    (up : forming b.state = false) (same : ∀ a ∈ start, b.peerVerTag = a.peerVerTag) :
    (start.toList.map Association.lastPeerTsn
      ++ (s.acksSince sent since key ++ [b.lastPeerTsn])).Pairwise
      fun x y => tsnLte x y = true := by
  cases trail with
  | early _ forms =>
    rw [forms b found] at up
    cases up
  | level here _ heeds acks =>
    cases found.symm.trans here
    refine pairwise_of_levels (tsnLte_refl b.lastPeerTsn) (fun tsn member => ?_) fun tsn member =>
      ?_
    · obtain ⟨a, is, rfl⟩ := List.mem_map.mp member
      exact (heeds a (Option.mem_toList.mp is)).lastPeerTsn.symm
    · exact (List.mem_append.mp member).elim (acks tsn) List.mem_singleton.mp
  | @moved _ v _ _ here _ before took split low high =>
    cases found.symm.trans here
    rw [split, List.append_assoc, ← List.append_assoc]
    refine pairwise_of_levels (forward _ _ took) (fun tsn member => ?_) fun tsn member => ?_
    · rcases List.mem_append.mp member with first | later
      · obtain ⟨a, is, rfl⟩ := List.mem_map.mp first
        exact (before a (Option.mem_toList.mp is)).1.symm
      · exact low tsn later
    · exact (List.mem_append.mp member).elim (high tsn) List.mem_singleton.mp
  | lost is other =>
    exact absurd (same _ is) (other b found).2

namespace System

/-- What the SACKs and SHUTDOWNs for a key acknowledge over a run, as long as the
association is up and the peer's tag is the same, and between them, after every step, the
cumulative TSN itself. -/
inductive Acknowledges (key : AssociationKey) (tag : Tag) : System → List Tsn → System → Prop where
  | up {σ : System} {a : Association} :
      σ.socket.find? key = some a → forming a.state = false → a.peerVerTag = tag →
        Acknowledges key tag σ [a.lastPeerTsn] σ
  /-- The step that brings the association up. -/
  | opens {σ σ' : System} {event : Event} {b : Association} : σ.upFor key = none → Arrives σ event →
      σ.step event = some σ' → σ'.socket.find? key = some b → forming b.state = false →
        b.peerVerTag = tag →
      Acknowledges key tag σ (σ.acksMade event σ' key ++ [b.lastPeerTsn]) σ'
  | step {σ σ₁ σ₂ : System} {trail : List Tsn} {event : Event} {b : Association} :
      Acknowledges key tag σ trail σ₁ → Arrives σ₁ event → σ₁.step event = some σ₂ →
        σ₂.socket.find? key = some b → forming b.state = false →
      b.peerVerTag = tag → Acknowledges key tag
        σ (trail ++ (σ₁.acksMade event σ₂ key ++ [b.lastPeerTsn])) σ₂

theorem step_pairwise {σ σ' : System} {event : Event} {key : AssociationKey} {b : Association}
    (reached : System.Reached Arrives σ) (arrives : Arrives σ event)
    (stepped : σ.step event = some σ') (found : σ'.socket.find? key = some b)
    (up : forming b.state = false) (same : ∀ a ∈ σ.upFor key, b.peerVerTag = a.peerVerTag) :
    ((σ.upFor key).toList.map Association.lastPeerTsn
      ++ (σ.acksMade event σ' key ++ [b.lastPeerTsn])).Pairwise
      fun x y => tsnLte x y = true :=
  (trail_made reached.standing stepped key).pairwise
    (fun _ _ took => took_forward (reports_reached reached) arrives took) found up same

theorem Acknowledges.forward {key : AssociationKey} {tag : Tag} {σ σ' : System} {trail : List Tsn}
    (run : Acknowledges key tag σ trail σ') (reached : System.Reached Arrives σ) :
    System.Reached Arrives σ' ∧ trail.IsChain (fun x y => tsnLte x y = true)
      ∧ ∃ a, σ'.socket.find? key = some a ∧ forming a.state = false ∧ a.peerVerTag = tag
        ∧ trail.getLast? = some a.lastPeerTsn := by
  induction run with
  | up found isUp is => exact ⟨reached, .singleton _, _, found, isUp, is, rfl⟩
  | opens none arrives stepped found isUp is =>
    have pairs := step_pairwise reached arrives stepped found isUp fun a here => by
      rw [none] at here; cases here
    rw [none] at pairs
    exact ⟨reached.next arrives stepped, pairs.isChain, _, found, isUp, is, by simp⟩
  | @step σ₁ σ₂ _ _ b run arrives stepped found isUp is ih =>
    obtain ⟨reached', chain, a, before, wasUp, was, last⟩ := ih
    have begun : σ₁.upFor key = some a := by
      rw [System.upFor, before]
      simp [wasUp]
    have pairs := step_pairwise reached' arrives stepped found isUp fun a' here => by
      rw [begun] at here
      cases here
      rw [is, was]
    rw [begun] at pairs
    refine ⟨reached'.next arrives stepped, ?_, _, found, isUp, is, by simp⟩
    refine chain.append (List.pairwise_cons.mp pairs).2.isChain fun x here y there => ?_
    rw [last] at here
    cases here
    exact (List.pairwise_cons.mp pairs).1 y (List.mem_of_mem_head? there)

/-- The states of an association that receives data: between two steps, while the chunks
of a packet are taken one by one, and when its DATA was taken. -/
inductive Receives (σ : System) (key : AssociationKey) : Association → Prop where
  | between {a : Association} : σ.socket.find? key = some a → receivesData a.state = true →
      Receives σ key a
  | within {now : Time} {draws : Nat → Draws} {packet : Packet} {src : SockAddr} {s' s'' : Socket}
      {carried : Bool} {a : Association} (n : Nat) : Arrives σ (.recv now draws packet src) →
      σ.socket.dispatch now draws packet src = some (s', key, carried) →
      s'.afterChunks now draws packet key src carried = (false, s'') → s''.find? key = some a →
        receivesData a.state = true →
      (receiveChunks ((stripUnrecognized packet.chunks).1.take n)
        (Socket.DataLoop.start s'' key a carried)).violation = false →
      Receives σ key (receiveChunks ((stripUnrecognized packet.chunks).1.take n)
        (Socket.DataLoop.start s'' key a carried)).st.assoc
  | taken {now : Time} {draws : Nat → Draws} {packet : Packet} {src : SockAddr} {s' s'' : Socket}
      {carried : Bool} {a : Association} : Arrives σ (.recv now draws packet src) →
      σ.socket.dispatch now draws packet src = some (s', key, carried) →
      s'.afterChunks now draws packet key src carried = (false, s'') → s''.find? key = some a →
        receivesData a.state = true →
      (takeData (stripUnrecognized packet.chunks).1
        (Socket.DataLoop.start s'' key a carried)).violation = false →
      Receives σ key (takeData (stripUnrecognized packet.chunks).1
        (Socket.DataLoop.start s'' key a carried)).st.assoc

theorem Receives.pastGap {σ : System} {key : AssociationKey} {a : Association}
    (receives : σ.Receives key a) (reports : Reports σ.socket) :
    PastGap a ∧ a.duplicateTsns.length ≤ 65535 := by
  cases receives with
  | between found =>
    have reportable := reports.reportable key a found
    rw [reportable.duplicates]
    exact ⟨reportable.toPastGap, Nat.zero_le _⟩
  | @within now draws packet src s' s'' carried a n arrives dispatched after found _ fine =>
    have reportable := (reports.afterChunks dispatched after).reportable key a found
    obtain ⟨past, -, few, -⟩ := receiveChunks_takesIn (.start s'' key carried reportable.toPastGap)
      fine
    have := arrives.few rfl
    have := List.length_take_le' n (stripUnrecognized packet.chunks).1
    rw [reportable.duplicates, List.length_nil] at few
    exact ⟨past, by omega⟩
  | @taken now draws packet src s' s'' carried a arrives dispatched after found _ fine =>
    have reportable := (reports.afterChunks dispatched after).reportable key a found
    obtain ⟨past, -, few, -⟩ := takeData_takesIn s'' key carried reportable.toPastGap fine
    have := arrives.few rfl
    rw [reportable.duplicates, List.length_nil] at few
    exact ⟨past, by omega⟩

end System

/-- In every state an association that receives data is in, what is held lies at offsets
that fit a Gap Ack Block, and the SACK made of it says exactly what was received; and what
SACKs and SHUTDOWNs acknowledge never goes backward while the peer's tag is the same. -/
theorem sacks_exact {σ : System} (reached : System.Reached Arrives σ) (key : AssociationKey) :
    (∀ a, σ.Receives key a →
      (∀ tsn ∈ a.tsnOooBuffer.keys, 2 ≤ (tsn - a.lastPeerTsn).toNat ∧ (tsn - a.lastPeerTsn).toNat
        ≤ 65535)
        ∧ ∀ s : Socket, ∃ sack, (s.makeSack key a).1.chunks = [⟨0#8, .sack sack⟩]
        ∧ ExactSack a sack)
      ∧ ∀ tag trail σ', System.Acknowledges key tag σ trail σ' → trail.IsChain fun x y =>
        tsnLte x y = true := by
  refine ⟨fun a receives => ?_, fun tag trail σ' run => (run.forward reached).2.1⟩
  obtain ⟨past, few⟩ := receives.pastGap (reports_reached reached)
  exact ⟨fun tsn => past.offset, fun s => makeSack_exact s key past few⟩

namespace Opened

/-- The packet is what its own encoding decodes to. -/
def encodes : Event → Bool
  | .recv _ _ packet _ => (serializeSctpPacket packet).any fun data =>
    decide (data.length ≤ maxUdpDatagram) && decodePacket data == some packet
  | _ => true

theorem arrives_of_encodes {σ : System} {event : Event} (encoded : encodes event = true) :
    Arrives σ event := by
  rintro now draws packet src rfl
  obtain ⟨data, -, holds⟩ := (Option.any_eq_true _ _).mp encoded
  rw [Bool.and_eq_true, decide_eq_true_eq, beq_iff_eq] at holds
  exact ⟨data, holds⟩

def chunk (tsn : Tsn) (ssn : Ssn) :
    Event := arrives [⟨3#8, .data ⟨tsn, 0#16, ssn, 0#32, [9#8], 3#8⟩⟩]

end Opened

/-- A chunk is held, and the one the association waits for arrives. -/
theorem held_chunk_reported : ∃ σ σ' a trail, System.Reached Arrives σ ∧ σ.Receives Opened.key a
    ∧ a.tsnOooBuffer.keys = [102#32]
    ∧ (∃ sack, (σ.socket.makeSack Opened.key a).1.chunks = [⟨0#8, .sack sack⟩] ∧ ExactSack a sack)
    ∧ System.Acknowledges Opened.key 7#32 σ trail σ' ∧ trail = [99#32, 100#32, 100#32]
    ∧ trail.IsChain fun x y => tsnLte x y = true := by
  obtain ⟨σ, encoded, ends⟩ := Opened.exists_reached_while (fun _ event => Opened.encodes event
    = true) [Opened.chunk 102#32 2#16]
    (p := fun σ => ((σ.socket.find? Opened.key).any fun a => receivesData a.state
        && (a.tsnOooBuffer.keys == [102#32] && a.lastPeerTsn == 99#32 && a.peerVerTag == 7#32))
      && (σ.step (Opened.chunk 100#32 0#16)).any fun σ' => σ.acksMade (Opened.chunk 100#32 0#16)
        σ' Opened.key == [100#32] && (σ'.socket.find? Opened.key).any fun b => !forming b.state
          && (b.lastPeerTsn == 100#32 && b.peerVerTag == 7#32))
    (by decide +kernel)
  have reached : System.Reached Arrives σ := encoded.mono fun _ _ => Opened.arrives_of_encodes
  rw [Bool.and_eq_true] at ends
  obtain ⟨a, found, holds⟩ := (Option.any_eq_true _ _).mp ends.1
  obtain ⟨σ', stepped, later⟩ := (Option.any_eq_true _ _).mp ends.2
  simp only [Bool.and_eq_true, beq_iff_eq] at holds later
  obtain ⟨b, found', holds'⟩ := (Option.any_eq_true _ _).mp later.2
  simp only [Bool.and_eq_true, beq_iff_eq, Bool.not_eq_true'] at holds'
  obtain ⟨receives, ⟨held, last⟩, tag⟩ := holds
  obtain ⟨up, last', tag'⟩ := holds'
  have run : System.Acknowledges Opened.key 7#32 σ _ σ' :=
    .step (.up found (up_of_receivesData receives) tag)
      (Opened.arrives_of_encodes (by decide +kernel)) stepped found' up tag'
  obtain ⟨exact_, forward⟩ := sacks_exact reached Opened.key
  refine ⟨σ, σ', a, _, reached, .between found receives, held,
    (exact_ a (.between found receives)).2 σ.socket, run, ?_, forward _ _ _ run⟩
  rw [last, last', later.1]
  rfl

end SctpStack
