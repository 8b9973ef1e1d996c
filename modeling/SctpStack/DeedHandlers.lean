import SctpStack.Deeds

/-!
# What a handler does, it does for its key

Every handler of a packet and of a timer is a sequence of deeds for the key it is given.
-/

namespace SctpStack

/-! ## What is queued -/

section Fit

variable {s : Socket} {key : AssociationKey} {d : Deliverable}

/-- A packet that may go anywhere. -/
theorem acks_of_unguarded {packet : Packet} (unguarded : guarded packet = false) :
    packet.acks = [] := by
  refine List.filterMap_eq_nil_iff.mpr fun chunk member => ?_
  have plain := List.any_eq_false.mp unguarded chunk member
  unfold Chunk.acked
  cases value : chunk.value with
  | sack sack => simp [Chunk.type, value, needsConfirmed] at plain
  | shutdown cumulativeTsnAck => simp [Chunk.type, value, needsConfirmed] at plain
  | _ => rfl

theorem silent_of_unguarded {packet : Packet} (unguarded : guarded packet = false) :
    packet.Silent := by
  refine ⟨acks_of_unguarded unguarded,
    Bool.and_eq_false_iff.mpr (Or.inl (List.any_eq_false.mpr fun chunk member is => ?_))⟩
  have plain := List.any_eq_false.mp unguarded chunk member
  rw [of_decide_eq_true is] at plain
  exact plain rfl

theorem Fit.plain (location : d.location = key) (nonempty : d.packet.chunks ≠ [])
    (unguarded : guarded d.packet = false) (alone : followedUp d.packet = false) : Fit s key d where
  location := location
  nonempty := nonempty
  current := Or.inl (silent_of_unguarded unguarded)
  present := by
    intro is
    rw [alone] at is
    cases is
  confirmed := by
    intro is
    rw [unguarded] at is
    cases is

theorem Fit.found {a : Association} (found : s.find? key = some a) (location : d.location = key)
    (nonempty : d.packet.chunks ≠ []) (current : d.packet.Current a)
    (confirmed : Sound a → Confirmed a d.destination) :
    Fit s key d where
  location := location
  nonempty := nonempty
  current := Or.inr ⟨a, found, current⟩
  present := fun _ => by rw [found]; rfl
  confirmed := by
    intro _ b here sound
    rw [found] at here
    cases here
    exact confirmed sound

/-- What a timer follows up acknowledges nothing. -/
theorem Fit.silent (fit : Fit s key d) (follows : followedUp d.packet = true) :
    d.packet.Silent := by
  rcases fit.current with silent | ⟨a, -, silent | acking⟩
  · exact silent
  · exact silent
  · rw [follows] at acking
    cases acking.2.1

end Fit

namespace Deeds

variable {heard heard' : Evidence → Prop} (s : Socket) {s' : Socket} (key : AssociationKey)

/-! ## The operations -/

theorem set {s : Socket} {key : AssociationKey} {a b : Association} (found : s.find? key = some a)
    (succeeds : Succeeds a b) (minds : Minds heard a b) :
    Deeds heard key s (s.setAssociation key b) :=
  .single (.update found succeeds minds)

theorem updateAssociation_of_some {s : Socket} {key : AssociationKey} {a : Association}
    (found : s.find? key = some a) (f : Association → Association) :
    s.updateAssociation key f = s.setAssociation key (f a) := by
  rw [Socket.setAssociation, KeyMap.put_of_some found]
  rfl

theorem updateAssociation_of_none {s : Socket} {key : AssociationKey} (found : s.find? key = none)
    (f : Association → Association) : s.updateAssociation key f = s := by
  rw [Socket.updateAssociation, KeyMap.modify_of_none found]

theorem update {s : Socket} {key : AssociationKey} {f : Association → Association}
    (succeeds : ∀ a, s.find? key = some a → Succeeds a (f a))
    (minds : ∀ a, s.find? key = some a → Minds heard a (f a)) :
    Deeds heard key s (s.updateAssociation key f) := by
  cases found : s.find? key with
  | none =>
    rw [updateAssociation_of_none found]
  | some a =>
    rw [updateAssociation_of_some found]
    exact set found (succeeds a found) (minds a found)

/-- A change that leaves the outline of every TCB alone. -/
theorem adjust {f : Association → Association} (outline : ∀ a, (f a).outline = a.outline)
    (minds : ∀ a, Minds heard a (f a)) :
    Deeds heard key s (s.updateAssociation key f) :=
  update (fun a _ => .of_outline (outline a)) fun a _ => minds a

theorem adjustPath {f : PeerPath → PeerPath} (keeps : KeepsMark f) (same : KeepsProbe f) (i : Nat) :
    Deeds heard key s (s.updateAssociation key fun assoc => assoc.modifyPath i f) :=
  adjust s key (fun a => outline_modifyPath a i keeps) fun a => (spares_modifyPath a i same).minds

variable {key} in
theorem enqueue {d : Deliverable} (fit : Fit s key d) :
    Deeds heard key s (s.enqueuePacket d .control) :=
  .single (.enqueue d .control fit fun other => absurd rfl other)

theorem reply {destination : SockAddr} {packet : Packet}
    (fit : Fit s key ⟨key, destination, packet⟩) :
    Deeds heard key s (s.reply key destination packet) := enqueue s fit

theorem replyFound {s : Socket} {key : AssociationKey} {a : Association}
    (found : s.find? key = some a) {destination : SockAddr} {packet : Packet}
    (nonempty : packet.chunks ≠ []) (silent : packet.Silent)
    (confirmed : Sound a → Confirmed a destination) :
    Deeds heard key s (s.reply key destination packet) :=
  reply s key (.found found rfl nonempty (Or.inl silent) confirmed)

/-- A reply that may go anywhere. -/
theorem replyPlain {destination : SockAddr} {packet : Packet} (nonempty : packet.chunks ≠ [])
    (unguarded : guarded packet = false) (alone : followedUp packet = false) :
    Deeds heard key s (s.reply key destination packet) :=
  reply s key (.plain rfl nonempty unguarded alone)

theorem sendAbort (header : CommonHeader) (destination : SockAddr) (tag : Tag) (reflected : Bool)
    (causes : List ErrorCause) : Deeds heard key s
      (s.sendAbort header key destination tag reflected causes) :=
  replyPlain s key (List.cons_ne_nil _ _) rfl rfl

theorem schedule {timer : ExpirationKey} (here : timer.location = key)
    (other : isT1 timer.type = false) (present : (s.find? key).isSome = true) (expiration : Time)
    (retry : Deliverable) :
    Deeds heard key s (s.scheduleExpiration timer expiration retry) := by
  refine .single (.schedule timer expiration retry here present fun is => ?_)
  rw [other] at is
  cases is

theorem stop {timer : ExpirationKey} (here : timer.location = key)
    (unneeded : Unneeded heard s timer) :
    Deeds heard key s (s.cancelExpiration timer) := by
  refine .single (.stop (s.expirations.cancel timer) rfl rfl fun other => ?_)
  by_cases same : other = timer
  · rw [same]
    exact Or.inr ⟨here, by simp [ExpirationQueue.cancel], unneeded⟩
  · exact Or.inl (by simp [ExpirationQueue.cancel, same])

/-- Any timer may stop that is no heartbeat. -/
theorem cancel {timer : ExpirationKey} (here : timer.location = key)
    (other : timer.type ≠ .heartbeat) :
    Deeds heard key s (s.cancelExpiration timer) :=
      stop s key here (Or.inr fun is => absurd is other)

theorem cancelOfType (type : ExpirationTimerType)
    (stopped : type = .heartbeat → ∀ a, s.find? key = some a → transmitsData a.state = false) :
    Deeds heard key s (s.cancelExpirationsOfType key type) := by
  refine .single (.stop (s.expirations.cancelAllOfType key type) rfl rfl fun timer => ?_)
  rw [ExpirationQueue.cancelAllOfType, KeyMap.get?_filterMap]
  cases s.expirations.active.get? timer with
  | none => exact Or.inl rfl
  | some generation =>
    by_cases here : timer.location = key ∧ timer.type = type
    · refine Or.inr ⟨here.1, by simp [here], Or.inr fun is => ?_⟩
      rw [here.1]
      exact stopped (here.2.symm.trans is)
    · exact Or.inl (by simp [here])

theorem dropOfType (type : ChunkType) (destination : Option SockAddr) :
    Deeds heard key s (s.removeRetransmissionsOfType key type destination) := by
  refine .single (.drop _ _ fun e chosen => ?_)
  rw [Bool.and_eq_true] at chosen
  exact of_decide_eq_true chosen.1

theorem dropAcked (sack : SackChunkValue) :
    Deeds heard key s (s.removeAckedRetransmissions key sack) :=
  .single (.drop _ _ fun _ chosen => of_decide_eq_true chosen)

theorem note {payload : NotificationPayload} (is : isNote payload = true)
    (present : (s.find? key).isSome = true) :
    Deeds heard key s (s.notify key payload) := .single (.note payload is present)

theorem foldl {α : Type} {f : Socket → α → Socket} (each : ∀ s x, Deeds heard key s (f s x))
    (l : List α) (s : Socket) :
    Deeds heard key s (l.foldl f s) := by
  induction l generalizing s with
  | nil => exact .refl
  | cons x rest ih => exact (each s x).trans (ih (f s x))

/-! ## Paths -/

theorem notifyIf (changed : Bool) (address : SockAddr) (state : PeerAddrState)
    (present : (s.find? key).isSome = true) :
    Deeds heard key s (s.notifyIf changed key address state) := by
  unfold Socket.notifyIf
  split
  · exact note s key rfl present
  · exact .refl

theorem keepsMark_countPathError : KeepsMark fun path => (countPathError path).1 := by
  intro path
  unfold countPathError
  simp only
  split
  · split <;> exact ⟨rfl, rfl⟩
  · exact ⟨rfl, rfl⟩

theorem present_update {s : Socket} {key : AssociationKey} (present : (s.find? key).isSome = true)
    (f : Association → Association) : ((s.updateAssociation key f).find? key).isSome = true := by
  rw [Socket.find?_updateAssociation, if_pos rfl, Option.isSome_map]
  exact present

theorem out_countPathError (path : PeerPath) :
    (countPathError path).1.hbOutstanding = path.hbOutstanding := by
  unfold countPathError
  simp only
  (repeat' split) <;> rfl

/-- Errors are counted on a path that is confirmed, or where what is probed may change. -/
theorem countPathErrorAt (a : Association) (i : Nat) (present : (s.find? key).isSome = true)
    (sure : heard .probed ∨ ∀ b, s.find? key = some b → Sound b → (b.path i).confirmed = true) :
    Deeds heard key s (s.countPathErrorAt key a i) := by
  refine Relation.ReflTransGen.trans
    (update (fun b _ => .of_outline (outline_modifyPath b i keepsMark_countPathError))
    fun b found => sure.imp_right fun confirmed sound => ?_)
      (notifyIf _ key _ _ _ (present_update present _))
  refine .of_eq rfl (probes_modifyConfirmed (confirmed b found sound) fun path => ?_)
  exact ⟨(keepsMark_countPathError path).1, (keepsMark_countPathError path).2,
    out_countPathError path⟩

theorem clearPathErrorsAt (a : Association) (i : Nat) (present : (s.find? key).isSome = true)
    (sure : ∀ b, s.find? key = some b → Sound b → (b.path i).confirmed = true) :
    Deeds heard key s (s.clearPathErrorsAt key a i) := by
  have keeps : KeepsMark fun path => (clearPathErrors path).1 := fun _ => ⟨rfl, rfl⟩
  refine Relation.ReflTransGen.trans (update (fun b _ => .of_outline (outline_modifyPath b i keeps))
    fun b found => Or.inr fun sound => ?_) (notifyIf _ key _ _ _ (present_update present _))
  exact .of_eq rfl (probes_modifyConfirmed (sure b found sound) fun _ => ⟨rfl, rfl, rfl⟩)

/-! ## Timers -/

theorem armHeartbeat (probed : heard .probed) (i : Nat) :
    Deeds heard key s (s.armHeartbeat key i) := by
  unfold Socket.armHeartbeat
  cases found : s.find? key with
  | none => exact .refl
  | some a =>
    have present : (s.find? key).isSome = true := by rw [found]; rfl
    simp only
    split
    · exact schedule s key rfl rfl present _ _
    · split
      · exact stop s key rfl (Or.inl probed)
      · exact schedule s key rfl rfl present _ _

theorem armConfirmationProbe (probed : heard .probed) (now : Time) (i : Nat) :
    Deeds heard key s (s.armConfirmationProbe now key i) := by
  unfold Socket.armConfirmationProbe
  split
  · exact .refl
  · simp only
    split
    · refine (adjustPath s key ?_ ?_ i).trans (armHeartbeat _ key probed i)
      · exact fun _ => ⟨rfl, rfl⟩
      · exact fun _ => rfl
    · exact .refl

theorem armConfirmationProbes (probed : heard .probed) (now : Time) :
    Deeds heard key s (s.armConfirmationProbes now key) :=
  foldl key (fun s i => armConfirmationProbe s key probed now i) _ s

theorem outline_planNextProbe (a : Association) (draws : Draws) (i : Nat) (now : Time) :
    (planNextProbe a draws i now).outline = a.outline :=
  outline_modifyPath a i fun _ => ⟨rfl, rfl⟩

theorem spares_planNextProbe (a : Association) (draws : Draws) (i : Nat) (now : Time) :
    Spares a (planNextProbe a draws i now) :=
  spares_modifyPath a i fun _ => rfl

theorem planProbe (now : Time) (draws : Draws) (i : Nat) :
    Deeds heard key s (s.planProbe now draws key i) := by
  refine adjust s key (fun a => ?_) fun a => ?_
  · simp only
    split
    · refine (outline_modifyPath _ i ?_).trans (outline_planNextProbe a draws i now)
      exact fun _ => ⟨rfl, rfl⟩
    · exact outline_planNextProbe a draws i now
  · have planned := spares_planNextProbe a draws i now
    refine Spares.minds ?_
    simp only
    split
    · exact planned.trans (spares_modifyPath _ i fun _ => rfl)
    · exact planned

theorem startHeartbeats (probed : heard .probed) (now : Time) (draws : Draws) :
    Deeds heard key s (s.startHeartbeats now draws key) :=
  foldl key (fun s i => (planProbe s key now draws i).trans (armHeartbeat _ key probed i)) _ s

theorem restartT3 (now : Time) (destination : SockAddr) :
    Deeds heard key s (s.restartT3 now key destination) := by
  unfold Socket.restartT3
  simp only
  cases found : s.find? key with
  | none => exact cancel s key rfl nofun
  | some a =>
    have present : (s.find? key).isSome = true := by rw [found]; rfl
    split
    · exact cancel s key rfl nofun
    · exact schedule s key rfl rfl present _ _

theorem startT3IfStopped (now : Time) (destination : SockAddr) :
    Deeds heard key s (s.startT3IfStopped now key destination) := by
  unfold Socket.startT3IfStopped
  split
  · exact .refl
  · exact restartT3 s key now destination

theorem find?_restartT2 (now : Time) (k : AssociationKey) :
    (s.restartT2 now key).find? k = s.find? k := by
  unfold Socket.restartT2
  split <;> rfl

theorem restartT2 (now : Time) : Deeds heard key s (s.restartT2 now key) := by
  unfold Socket.restartT2
  cases found : s.find? key with
  | none => exact .refl
  | some a => exact schedule s key rfl rfl (by rw [found]; rfl) _ _

/-! ## Retransmission -/

theorem bundleMarked_ne_nil {a : Association} {target size : Nat} {first : Tsn × OutstandingData}
    {rest : List (Tsn × OutstandingData)} (here : destinationOf a first.2 = target) :
    bundleMarked a target size false (first :: rest) ≠ [] := by
  unfold bundleMarked
  simp [here]

/-- The flags of what is outstanding say nothing about where it goes. -/
theorem succeeds_mapVals {a : Association} {f : Tsn → OutstandingData → OutstandingData}
    (destination : ∀ tsn o, (f tsn o).destination = o.destination) :
    Succeeds a { a with outstandingData := a.outstandingData.mapVals f } := by
  refine .of_outstanding rfl fun sound tsn o found => ?_
  rw [KeyMap.get?_mapVals, Option.map_eq_some_iff] at found
  obtain ⟨o', before, rfl⟩ := found
  rw [destination]
  exact sound.outstanding tsn o' before

theorem silent_buildData (srcPort desPort : Port) (peerTag : Tag) (chunks : List DataChunkValue) :
    (buildData srcPort desPort peerTag chunks).Silent := by
  refine ⟨List.filterMap_eq_nil_iff.mpr fun chunk member => ?_,
    Bool.and_eq_false_iff.mpr (Or.inr (List.any_eq_false.mpr fun chunk member is => ?_))⟩
  · obtain ⟨data, -, rfl⟩ := List.mem_map.mp member
    rfl
  · obtain ⟨data, -, rfl⟩ := List.mem_map.mp member
    exact of_decide_eq_true is rfl

theorem followedUp_buildData {srcPort desPort : Port} {peerTag : Tag} {chunks : List DataChunkValue}
    (some : chunks ≠ []) :
    followedUp (buildData srcPort desPort peerTag chunks) = true := by
  cases chunks with
  | nil => exact absurd rfl some
  | cons data rest => rfl

theorem schedulePendingRetransmission (gated : Bool) :
    Deeds heard key s (s.schedulePendingRetransmission key gated) := by
  unfold Socket.schedulePendingRetransmission
  cases found : s.find? key with
  | none => exact .refl
  | some a =>
    simp only
    cases marked : markedChunks a with
    | nil => exact .refl
    | cons first rest =>
      simp only
      split
      · exact .refl
      · -- The packet is queued before its chunks are unmarked: the order does not show.
        have queued : Deeds heard key s
            (s.enqueuePacket ⟨key, (a.path (destinationOf a first.2)).address,
            buildData s.localAddress.port key.address.port a.peerVerTag
              ((bundleMarked a (destinationOf a first.2) sctpCommonHeaderSize false
                (first :: rest)).map
                fun entry => entry.2.data)⟩ .retransmission) := by
          refine .single (.enqueue _ _ (.found found rfl ?_ (Or.inl (silent_buildData _ _ _ _))
            fun sound => ?_) fun _ => ?_)
          · intro none
            rw [buildData, packetWithHeader, List.map_eq_nil_iff, List.map_eq_nil_iff] at none
            exact bundleMarked_ne_nil rfl none
          · have member : first ∈ markedChunks a := by rw [marked]; exact List.mem_cons_self
            have entry := KeyMap.mem_entries.mp (show (first.1, first.2) ∈ a.outstandingData.entries
              from List.mem_of_mem_filter member)
            exact confirmed_path sound.distinct (confirmed_sentOn (sound.outstanding _ _ entry))
          · refine followedUp_buildData fun none => ?_
            exact bundleMarked_ne_nil rfl (List.map_eq_nil_iff.mp none)
        refine queued.trans (update (fun b _ => succeeds_mapVals fun tsn o => ?_) fun b _ =>
          (Spares.of_eq rfl rfl).minds)
        split <;> rfl

/-! ## Addresses -/

/-- An address the association lacks is listed as unconfirmed. -/
theorem succeeds_withPath (a : Association) (address : SockAddr) :
    Succeeds a (withPath a address) := by
  unfold withPath
  split
  · next new =>
    have marks : ({ a with peerAddressList := a.peerAddressList
      ++ [makePath address false a.pmdcs] } : Association).marks
        = a.marks ++ [(address.addr, false)] := List.map_append
    have listed : Listed a { a with peerAddressList := a.peerAddressList
        ++ [makePath address false a.pmdcs] } :=
      ⟨_, marks, fun m member => by rw [List.mem_singleton.mp member]⟩
    refine ⟨⟨rfl, rfl, rfl, .of_eq rfl, listed, fun sound =>
      ⟨?_, listed.confirmed sound.primary, fun tsn o found =>
      listed.confirmed (sound.outstanding tsn o found)⟩, fun tidy =>
        tidy.congr id rfl rfl rfl rfl rfl⟩, rfl,
      fun _ => ⟨rfl, rfl⟩⟩
    rw [marks, List.map_append]
    refine List.nodup_append.mpr ⟨sound.distinct, by simp, fun ip member ip' here same => ?_⟩
    have absent := findPath_eq_none.mp new
    rw [List.map_cons, List.map_nil, List.mem_singleton] at here
    refine absent ?_
    rw [show address.addr = ip from (same.trans here).symm]
    simpa [Association.marks, Association.ips] using member
  · exact .refl a

theorem addPeerAddress (address : SockAddr) (present : (s.find? key).isSome = true)
    (minds : ∀ a, s.find? key = some a → Minds heard a (withPath a address)) :
    Deeds heard key s (s.addPeerAddress key address) := by
  unfold Socket.addPeerAddress
  have added : Deeds heard key s (s.updateAssociation key fun assoc => withPath assoc address) :=
    update (fun a _ => succeeds_withPath a address) minds
  simp only
  split
  · exact added
  · exact added.tail (.list _ (present_update present _))

theorem present_addPeerAddress {s : Socket} {key : AssociationKey}
    (present : (s.find? key).isSome = true) (address : SockAddr) :
    ((s.addPeerAddress key address).find? key).isSome = true := by
  unfold Socket.addPeerAddress
  simp only
  split
  · exact present_update present _
  · exact present_update present _

/-- The state of a TCB says whether it may get more addresses. -/
theorem state_addPeerAddress {s : Socket} {key : AssociationKey} {address : SockAddr}
    {b : Association} (found : (s.addPeerAddress key address).find? key = some b) :
    ∃ a, s.find? key = some a ∧ b.state = a.state := by
  have here : (s.addPeerAddress key address).find? key = (s.find? key).map fun a =>
      withPath a address := by
    unfold Socket.addPeerAddress
    simp only
    split <;> exact (Socket.find?_updateAssociation s key key _).trans (if_pos rfl)
  rw [here, Option.map_eq_some_iff] at found
  obtain ⟨a, before, rfl⟩ := found
  exact ⟨a, before, by rw [withPath_only]⟩

theorem addPeerAddresses (addresses : List SockAddr) (present : (s.find? key).isSome = true)
    (stopped : heard .probed ∨ ∀ a, s.find? key = some a → transmitsData a.state = false) :
    Deeds heard key s (s.addPeerAddresses key addresses) := by
  unfold Socket.addPeerAddresses
  induction addresses generalizing s with
  | nil => exact .refl
  | cons address rest ih =>
    refine (addPeerAddress s key address present fun a found => stopped.imp_right fun stopped _ =>
      .of_stopped ?_).trans (ih _ (present_addPeerAddress present address)
        (stopped.imp_right fun stopped b found => ?_))
    · rw [withPath_only]
      exact stopped a found
    · obtain ⟨a, before, state⟩ := state_addPeerAddress found
      rw [state]
      exact stopped a before

theorem recordEncapsulationPort (src : SockAddr) :
    Deeds heard key s (s.recordEncapsulationPort key src) := by
  refine adjust s key (fun a => ?_) fun a => ?_
  · split
    · rfl
    · exact outline_modifyPath a _ fun _ => ⟨rfl, rfl⟩
  · refine Spares.minds ?_
    split
    · exact .refl a
    · exact spares_modifyPath a _ fun _ => rfl

/-! ## Ends -/

theorem ended {s : Socket} {key : AssociationKey} {a : Association} {told : AssocChangeState}
    (found : s.find? key = some a) (ends : Ends a.state told) :
    Deeds heard key s ((s.removeAssociation key).notifyAssocChange key told) :=
      .single (.ended told found ends)

theorem ends_either (state : AssociationState) :
    Ends state (if forming state then .cantStrAssoc else .commLost) := by
  unfold Ends
  split
  · rfl
  · exact Or.inl rfl

theorem ends_up {state : AssociationState} {told : AssocChangeState} (up : forming state = false)
    (last : told = .commLost ∨ told = .shutdownComp) : Ends state told := by
  rw [Ends, up]
  exact last

theorem abortAssociation (header : CommonHeader) (src : SockAddr) (causes : List ErrorCause) :
    Deeds heard key s (s.abortAssociation key header src causes) := by
  unfold Socket.abortAssociation
  cases found : s.find? key with
  | none => exact .refl
  | some a =>
    have finished : Deeds heard key s _ := ended found (ends_either a.state)
    simp only
    split
    · -- The ULP is told before the ABORT is queued: the order does not show.
      exact finished.trans (sendAbort _ key header _ _ false causes)
    · exact finished

theorem handleAbort (causes : List ErrorCause) : Deeds heard key s (s.handleAbort causes key) := by
  unfold Socket.handleAbort
  cases found : s.find? key with
  | none => exact .refl
  | some a =>
    simp only
    split
    · exact ended found (ends_either a.state)
    · exact (note s key rfl (by rw [found]; rfl)).trans (ended found (ends_either a.state))

theorem up_of_shuttingDown {state : AssociationState}
    (closing : state = .shutdownSent ∨ state = .shutdownAckSent) :
    forming state = false := by
  rcases closing with rfl | rfl <;> rfl

theorem handleShutdownAck (header : CommonHeader) (src : SockAddr) :
    Deeds heard key s (s.handleShutdownAck header key src) := by
  unfold Socket.handleShutdownAck
  cases found : s.find? key with
  | none => exact .refl
  | some a =>
    simp only
    split
    · exact .refl
    · next closing =>
      rw [not_and_or, not_not, not_not] at closing
      exact (ended found (ends_up (up_of_shuttingDown closing) (Or.inr rfl))).trans
        (replyPlain _ key (List.cons_ne_nil _ _) rfl rfl)

theorem handleShutdownComplete : Deeds heard key s (s.handleShutdownComplete key) := by
  unfold Socket.handleShutdownComplete
  cases found : s.find? key with
  | none => exact .refl
  | some a =>
    simp only
    split
    · exact .refl
    · next closing =>
      exact ended found (ends_up (up_of_shuttingDown (Or.inr (Decidable.not_not.mp closing)))
        (Or.inr rfl))

theorem loseAssociation {s : Socket} {key : AssociationKey} {a : Association}
    (found : s.find? key = some a) (up : forming a.state = false) :
    Deeds heard key s (s.loseAssociation key) := ended found (ends_up up (Or.inl rfl))

/-! ## Shutdown -/

theorem nextShutdownStep_up {s : Socket} {key : AssociationKey} {a : Association} {packet : Packet}
    {state : AssociationState} (next : s.nextShutdownStep key a = some (packet, state)) :
    forming a.state = false ∧ forming state = false ∧ transmitsData state = false
      ∧ packet.chunks ≠ []
      ∧ packet.Current a := by
  unfold Socket.nextShutdownStep at next
  split at next
  · cases next
  · split at next
    · next pending =>
      cases next
      exact ⟨by rw [pending]; rfl, rfl, rfl, List.cons_ne_nil _ _,
        Or.inr ⟨by rw [pending]; rfl, rfl, fun _ => List.mem_singleton.mp⟩⟩
    · next received =>
      cases next
      exact ⟨by rw [received]; rfl, rfl, rfl, List.cons_ne_nil _ _, Or.inl ⟨rfl, rfl⟩⟩
    · cases next

theorem doNextShutdownStep (now : Time) : Deeds heard key s (s.doNextShutdownStep now key) := by
  unfold Socket.doNextShutdownStep
  cases found : s.find? key with
  | none => exact .refl
  | some a =>
    simp only
    cases next : s.nextShutdownStep key a with
    | none => exact .refl
    | some step =>
      obtain ⟨packet, state⟩ := step
      obtain ⟨before, after, silent, nonempty, current⟩ := nextShutdownStep_up next
      have changed : Deeds heard key s (s.setAssociation key { a with state := state }) :=
        set found (.of_state before after) (Spares.of_stopped silent).minds
      have found' : (s.setAssociation key { a with state := state }).find? key
          = some { a with state := state } := by simp
      have quiet : ∀ b, (s.setAssociation key { a with state := state }).find? key = some b →
          transmitsData b.state = false := by
        intro b here
        rw [found'] at here
        cases here
        exact silent
      have stopped := ((changed.trans (cancelOfType _ key .heartbeat fun _ => quiet)).trans
        (cancel _ key (rfl : (timerOf key .delayedSack).location = key) nofun)).trans
          (cancelOfType _ key .t3Rtx nofun)
      have queued := (stopped.trans (enqueue _ (d := ⟨key, (a.path (dataPath a)).address, packet⟩)
        (.found found' rfl nonempty (current.imp_right fun acking => ⟨after, acking.2⟩) fun sound =>
          sound.dataPath))).trans (restartT2 _ key now)
      simp only
      split
      · refine queued.trans (schedule _ key rfl rfl ?_ _ _)
        simp [find?_restartT2]
      · exact queued

theorem runT3Actions (now : Time) (actions : List (SockAddr × T3Action)) :
    Deeds heard key s (actions.foldl (fun s action => s.runT3Action now key action) s) := by
  refine foldl key (fun s action => ?_) actions s
  unfold Socket.runT3Action
  split
  · exact cancel s key rfl nofun
  · exact restartT3 s key now action.1
  · exact startT3IfStopped s key now action.1

theorem marks_mapIdx {l : List PeerPath} {f : Nat → PeerPath → PeerPath}
    (keeps : ∀ i, KeepsMark (f i)) :
    (l.mapIdx f).map (fun path => (path.address.addr, path.confirmed))
      = l.map fun path => (path.address.addr, path.confirmed) := by
  apply List.ext_getElem?
  intro j
  rw [List.getElem?_map, List.getElem?_mapIdx, List.getElem?_map]
  cases l[j]? with
  | none => rfl
  | some path => simp [keeps j path]

theorem keepsMark_growCwnd (inFastRecovery : Bool)
    (pmdcs bytesAcked duplicateBytes flightBefore : Nat) :
    KeepsMark fun path => growCwnd inFastRecovery pmdcs path bytesAcked duplicateBytes
      flightBefore := by
  intro path
  simp only [growCwnd]
  (repeat' split) <;> exact ⟨rfl, rfl⟩

theorem keepsMark_ackPath (before : Association) (sack : SackChunkValue) (remaining : Association)
    (duplicates : List (Nat × Nat)) (i : Nat) :
    KeepsMark (ackPath before sack remaining duplicates i) := by
  intro path
  unfold ackPath
  simp only
  have cleared : ∀ acked : List (Tsn × OutstandingData), KeepsMark fun path =>
      (if acked.isEmpty = true then path
      else { (clearPathErrors path).1 with singlePacketInFlight := false }) := by
    intro acked path
    simp only
    split <;> exact ⟨rfl, rfl⟩
  obtain ⟨address, confirmed⟩ := cleared ((sentTo before i).filter (newlyAcks sack)) path
  revert address confirmed
  simp only
  generalize (if ((sentTo before i).filter (newlyAcks sack)).isEmpty = true then path else _)
    = path'
  intro address confirmed
  have grown : ∀ bytes duplicate, KeepsMark fun path =>
      growCwnd before.inFastRecovery before.pmdcs path bytes duplicate (bytesInFlightOn before i) :=
        fun bytes duplicate => keepsMark_growCwnd _ _ bytes duplicate _
  split <;> split <;> first | exact ⟨address, confirmed⟩ | skip
  all_goals exact ⟨(grown _ _ path').1.trans address, (grown _ _ path').2.trans confirmed⟩

theorem keepsMark_updateRto (measurement : PeerPath → Micros) :
    KeepsMark fun path => updateRto path (measurement path) := by
  intro path
  simp only [updateRto]
  (repeat' split) <;> exact ⟨rfl, rfl⟩

theorem probe_updateRto (path : PeerPath) (measurement : Micros) :
    (updateRto path measurement).probe = path.probe := by
  simp only [updateRto]
  (repeat' split) <;> rfl

theorem acknowledgeEntries_paths (a : Association) (sack : SackChunkValue) (now : Time) :
    (acknowledgeEntries a sack now).marks = a.marks ∧ (acknowledgeEntries a sack now).probes
      = a.probes := by
  unfold acknowledgeEntries
  cases rttSample a sack with
  | none => exact ⟨rfl, rfl⟩
  | some sample =>
    exact ⟨marks_modifyPath a sample.1 (keepsMark_updateRto fun _ => microsBetween sample.2 now),
      probes_modifyPath a sample.1 fun path => probe_updateRto path _⟩

theorem marks_applySack (a : Association) (sack : SackChunkValue) (now : Time) :
    (applySack a sack now).assoc.marks = a.marks := by
  have acknowledged := (acknowledgeEntries_paths a sack now).1
  have counted : (countMissing a sack (updateWindows a sack (acknowledgeEntries a sack now))).marks
      = a.marks :=
    (marks_mapIdx fun i => keepsMark_ackPath a sack _ _ i).trans acknowledged
  have finished : ∀ b, (finishSack sack b).marks = b.marks := by
    intro b
    unfold finishSack
    simp only
    (repeat' split) <;> rfl
  unfold applySack
  simp only
  rw [finished]
  split
  · refine (marks_mapIdx fun i path => ?_).trans counted
    split <;> exact ⟨rfl, rfl⟩
  · exact counted

theorem succeeds_applySack (a : Association) (sack : SackChunkValue) (now : Time) :
    Succeeds a (applySack a sack now).assoc := by
  refine .of_outstanding ?_ fun sound tsn o found => ?_
  · unfold Association.outline
    rw [marks_applySack, applySack_only a sack now]
    rfl
  · rw [get?_applySack, Option.bind_eq_some_iff] at found
    obtain ⟨o', before, left⟩ := found
    rcases sackEntry_spec a sack tsn o' with ⟨-, gone⟩ | ⟨o'', -, left', -, destination, -⟩
    · rw [gone] at left
      cases left
    · rw [left'] at left
      cases left
      rw [destination]
      exact sound.outstanding tsn o' before

/-- The errors of a path are cleared where DATA sent to it is acknowledged, and then it is
confirmed. -/
theorem probe_ackPath (before : Association) (sack : SackChunkValue) (remaining : Association)
    (duplicates : List (Nat × Nat)) (i : Nat) (path : PeerPath)
    (confirmed : (sentTo before i).filter (newlyAcks sack) ≠ [] → path.confirmed = true) :
    (ackPath before sack remaining duplicates i path).probe = path.probe := by
  have grown : ∀ (path : PeerPath) (bytesAcked duplicateBytes flightBefore : Nat),
      (growCwnd before.inFastRecovery before.pmdcs path bytesAcked duplicateBytes
        flightBefore).probe = path.probe := by
    intro path bytesAcked duplicateBytes flightBefore
    simp only [growCwnd]
    (repeat' split) <;> rfl
  have cleared : (if ((sentTo before i).filter (newlyAcks sack)).isEmpty = true then path
      else { (clearPathErrors path).1 with singlePacketInFlight := false }).probe = path.probe := by
    split
    · rfl
    · next some =>
      have here := confirmed fun none => some (List.isEmpty_iff.mpr none)
      simp [PeerPath.probe, PeerPath.probing, clearPathErrors, here]
  unfold ackPath
  simp only
  refine Eq.trans ?_ cleared
  generalize (if ((sentTo before i).filter (newlyAcks sack)).isEmpty = true then path else _)
    = path'
  split <;> split <;> first | exact grown path' _ _ _ | rfl

theorem probes_mapIdx {l : List PeerPath} {f : Nat → PeerPath → PeerPath}
    (keeps : ∀ i path, l[i]? = some path → (f i path).probe = path.probe) :
    (l.mapIdx f).map PeerPath.probe = l.map PeerPath.probe := by
  apply List.ext_getElem?
  intro j
  rw [List.getElem?_map, List.getElem?_mapIdx, List.getElem?_map]
  cases found : l[j]? with
  | none => rfl
  | some path => simp [keeps j path found]

/-- A SACK leaves alone what is probed. -/
theorem spares_applySack {a : Association} (sound : Sound a) (sack : SackChunkValue) (now : Time) :
    Spares a (applySack a sack now).assoc := by
  obtain ⟨marks, acknowledged⟩ := acknowledgeEntries_paths a sack now
  have counted : (countMissing a sack (updateWindows a sack (acknowledgeEntries a sack now))).probes
      = a.probes := by
    refine Eq.trans (probes_mapIdx fun i path here => probe_ackPath a sack _ _ i path fun acked =>
      ?_) acknowledged
    obtain ⟨entry, rest, split⟩ := List.exists_cons_of_ne_nil acked
    have member : entry ∈ (sentTo a i).filter (newlyAcks sack) := by
      rw [split]; exact List.mem_cons_self
    obtain ⟨outstanding, on⟩ := List.mem_filter.mp (List.mem_of_mem_filter member)
    have confirmed := sound.confirmed_destinationOf (KeyMap.mem_entries.mp outstanding)
    rw [beq_iff_eq.mp on, ← confirmed_of_marks marks, Association.path, List.getD_eq_getElem?_getD,
      here] at confirmed
    exact confirmed
  have finished : ∀ b, (finishSack sack b).probes = b.probes := by
    intro b
    unfold finishSack
    simp only
    (repeat' split) <;> rfl
  refine .of_eq (by rw [applySack_only]) ?_
  unfold applySack
  simp only
  rw [finished]
  split
  · refine (probes_mapIdx fun i path _ => ?_).trans counted
    split <;> rfl
  · exact counted

theorem notifyAcked (a : Association) (sack : SackChunkValue)
    (present : (s.find? key).isSome = true) :
    Deeds heard key s (s.notifyAcked key a sack) := by
  unfold Socket.notifyAcked
  generalize List.range a.peerAddressList.length = paths
  induction paths generalizing s with
  | nil => exact .refl
  | cons i rest ih =>
    refine (notifyIf s key _ _ _ present).trans (ih _ ?_)
    unfold Socket.notifyIf
    split <;> exact present

theorem acceptSack {s : Socket} {key : AssociationKey} {a : Association}
    (found : s.find? key = some a) (now : Time) (sack : SackChunkValue) :
    Deeds heard key s (s.acceptSack now sack key a) := by
  have applied : Deeds heard key s _ :=
    (set found (succeeds_applySack a sack now) (Or.inr fun sound =>
    spares_applySack sound sack now)).trans
    (notifyAcked _ key a sack (by rw [Socket.find?_setAssociation, if_pos rfl]; rfl))
  have dropped := applied.trans (dropAcked _ key sack)
  have scheduled : Deeds heard key s (if (applySack a sack now).enteredFastRecovery = true then
      ((((s.setAssociation key (applySack a sack now).assoc).notifyAcked key
        a sack).removeAckedRetransmissions key sack).schedulePendingRetransmission key false)
      else (((s.setAssociation key (applySack a sack now).assoc).notifyAcked key
        a sack).removeAckedRetransmissions key
        sack)) := by
    split
    · exact dropped.trans (schedulePendingRetransmission _ key false)
    · exact dropped
  exact (scheduled.trans (runT3Actions _ key now _)).trans (doNextShutdownStep _ key now)

theorem handleSack (now : Time) (header : CommonHeader) (sack : SackChunkValue) (src : SockAddr) :
    Deeds heard key s (s.handleSack now header sack key src) := by
  unfold Socket.handleSack
  cases found : s.find? key with
  | none => exact .refl
  | some a =>
    simp only
    split
    · exact .refl
    · split
      · exact abortAssociation s key header src _
      · split
        · exact .refl
        · exact acceptSack found now sack

theorem succeeds_acknowledgeShutdown (a : Association) (cumulativeTsnAck : Tsn) :
    Succeeds a (acknowledgeShutdown a cumulativeTsnAck) := by
  refine .of_outstanding rfl fun sound tsn o found => ?_
  rw [show (acknowledgeShutdown a cumulativeTsnAck).outstandingData.get? tsn
    = _ from KeyMap.get?_filterMap _ _ _, Option.bind_eq_some_iff] at found
  obtain ⟨o', before, left⟩ := found
  split at left
  · cases left
  · cases left
    exact sound.outstanding tsn o before

/-- The errors of confirmed paths are cleared, one path after the other. -/
theorem clearPaths {a : Association} {paths : List Nat}
    (confirmed : ∀ i ∈ paths, Sound a → (a.path i).confirmed = true) {s : Socket}
    {key : AssociationKey} {b : Association} (found : s.find? key = some b)
    (outline : b.outline = a.outline) (state : b.state = a.state) :
    Deeds heard key s (paths.foldl (fun s i => (s.find? key).elim s fun current =>
      s.clearPathErrorsAt key current i) s)
      ∧ ∃ c, (paths.foldl (fun s i => (s.find? key).elim s fun current =>
        s.clearPathErrorsAt key current i) s).find? key
        = some c ∧ c.state = a.state := by
  induction paths generalizing s b with
  | nil => exact ⟨.refl, b, found, state⟩
  | cons i rest ih =>
    obtain ⟨head, tail⟩ := List.forall_mem_cons.mp confirmed
    have keeps : KeepsMark fun path => (clearPathErrors path).1 := fun _ => ⟨rfl, rfl⟩
    have cleared : Deeds heard key s (s.clearPathErrorsAt key b i) := by
      refine clearPathErrorsAt s key b i (by rw [found]; rfl) fun b' here sound => ?_
      rw [found] at here
      cases here
      rw [confirmed_of_marks (congrArg Outline.marks outline) i]
      exact head ((Succeeds.of_outline outline.symm).sound sound)
    have after : (s.clearPathErrorsAt key b i).find? key
        = some (b.modifyPath i fun path => (clearPathErrors path).1) := by
      have updated : (s.updateAssociation key fun assoc => assoc.modifyPath i fun path =>
          (clearPathErrors path).1).find? key
          = some (b.modifyPath i fun path => (clearPathErrors path).1) := by
        rw [Socket.find?_updateAssociation, if_pos rfl, found]
        rfl
      unfold Socket.clearPathErrorsAt Socket.notifyIf
      simp only
      split <;> exact updated
    rw [List.foldl_cons, found, Option.elim_some]
    obtain ⟨others, last⟩ := ih tail after ((outline_modifyPath b i keeps).trans outline) state
    exact ⟨cleared.trans others, last⟩

theorem advanceByShutdown {s : Socket} {key : AssociationKey} {a : Association}
    (found : s.find? key = some a) (cumulativeTsnAck : Tsn) :
    Deeds heard key s (s.advanceByShutdown key a cumulativeTsnAck)
      ∧ ∃ b, (s.advanceByShutdown key a cumulativeTsnAck).find? key = some b
      ∧ b.state = a.state := by
  have confirmed : ∀ i ∈ pathsAcked a cumulativeTsnAck, Sound a → (a.path i).confirmed = true := by
    intro i member sound
    obtain ⟨entry, inside, rfl⟩ := List.mem_map.mp member
    exact sound.confirmed_destinationOf (KeyMap.mem_entries.mp (List.mem_of_mem_filter inside))
  obtain ⟨cleared, b, after, state⟩ : Deeds heard key s _ ∧ _ := clearPaths confirmed found rfl rfl
  refine ⟨cleared.trans (update (fun b _ => succeeds_acknowledgeShutdown b cumulativeTsnAck)
    fun b _ => (Spares.of_eq rfl rfl).minds), acknowledgeShutdown b cumulativeTsnAck, ?_, state⟩
  unfold Socket.advanceByShutdown
  simp only
  rw [Socket.find?_updateAssociation, if_pos rfl, after]
  rfl

theorem up_of_transmitsData {state : AssociationState} (transmits : transmitsData state = true) :
    forming state = false := by
  cases state <;> first | rfl | cases transmits

/-- An association that transmits goes on to another state. -/
theorem changeState {s : Socket} {key : AssociationKey} {a : Association} {state : AssociationState}
    (found : s.find? key = some a) (after : forming state = false)
    (before : transmitsData a.state = true) :
    Deeds heard key s (s.updateAssociation key fun assoc => { assoc with state := state }) := by
  rw [updateAssociation_of_some found]
  exact set found (.of_state (up_of_transmitsData before) after) (Spares.minds fun _ =>
    ⟨before, rfl⟩)

theorem acceptShutdown {s : Socket} {key : AssociationKey} {a : Association}
    (found : s.find? key = some a) (transmits : transmitsData a.state = true) (now : Time)
    (cumulativeTsnAck : Tsn) :
    Deeds heard key s (s.acceptShutdown now cumulativeTsnAck key a) := by
  unfold Socket.acceptShutdown
  simp only
  have advanced : Deeds heard key s (if tsnGt cumulativeTsnAck a.cumulativeTsnAck = true then
        s.advanceByShutdown key a cumulativeTsnAck else s)
      ∧ ∃ b, (if tsnGt cumulativeTsnAck a.cumulativeTsnAck = true then
        s.advanceByShutdown key a cumulativeTsnAck else s).find? key = some b
        ∧ b.state = a.state := by
    split
    · exact advanceByShutdown found cumulativeTsnAck
    · exact ⟨.refl, a, found, rfl⟩
  revert advanced
  generalize (if tsnGt cumulativeTsnAck a.cumulativeTsnAck = true then
    s.advanceByShutdown key a cumulativeTsnAck else s) = s₁
  rintro ⟨advanced, b, here, state⟩
  have received : Deeds heard key s (s₁.updateAssociation key fun assoc =>
      { assoc with state := .shutdownReceived }) :=
    advanced.trans (changeState here rfl (by rw [state]; exact transmits))
  have told : Deeds heard key s (if a.state ≠ .shutdownReceived then
      (s₁.updateAssociation key fun assoc => { assoc with state := .shutdownReceived }).notify
        key .shutdownEvent
      else s₁.updateAssociation key fun assoc => { assoc with state := .shutdownReceived }) := by
    split
    · exact received.trans (note _ key rfl (present_update (by rw [here]; rfl) _))
    · exact received
  refine Relation.ReflTransGen.trans ?_ (doNextShutdownStep _ key now)
  split
  · exact (told.trans (dropAcked _ key _)).trans (foldl key (fun s i => restartT3 s key now _) _ _)
  · exact told

theorem handleShutdown (now : Time) (header : CommonHeader) (cumulativeTsnAck : Tsn)
    (src : SockAddr) :
    Deeds heard key s (s.handleShutdown now header cumulativeTsnAck key src) := by
  unfold Socket.handleShutdown
  cases found : s.find? key with
  | none => exact .refl
  | some a =>
    simp only
    split
    · exact .refl
    · next up =>
      rw [Bool.not_eq_true] at up
      split
      · have closing : Deeds heard key
          s (s.setAssociation key { a with state := .shutdownAckSent }) :=
          set found (.of_state up rfl) (Spares.of_stopped rfl).minds
        refine (closing.trans (reply _ key (.found (a := { a with state := .shutdownAckSent })
          ?_ rfl (List.cons_ne_nil _ _) (Or.inl ⟨rfl, rfl⟩) fun sound =>
            sound.replyDestination src))).trans (restartT2 _ key now)
        simp
      · next open_ =>
        split
        · exact abortAssociation s key header src _
        · refine acceptShutdown found ?_ now cumulativeTsnAck
          cases state : a.state with
          | cookieWait | cookieEchoed =>
            rw [state] at up
            cases up
          | shutdownSent => exact absurd (Or.inl state) open_
          | shutdownAckSent => exact absurd (Or.inr state) open_
          | _ => rfl

/-! ## DATA -/

theorem sendSack : Deeds heard key s (s.sendSack key) := by
  unfold Socket.sendSack
  cases found : s.find? key with
  | none => exact .refl
  | some a =>
    simp only
    split
    · exact .refl
    · next receives =>
      rw [Bool.not_eq_true', Bool.not_eq_false] at receives
      have updated : Deeds heard key s (s.setAssociation key (s.makeSack key a).2) :=
        set found (.of_outline rfl) (Spares.of_eq rfl rfl).minds
      have fit : Fit ((s.setAssociation key (s.makeSack key a).2).cancelExpiration
          (timerOf key .delayedSack)) key ⟨key,
          ((s.makeSack key a).2.path (dataPath (s.makeSack key a).2)).address,
          (s.makeSack key a).1⟩ :=
        .found (a := (s.makeSack key a).2) (by simp) rfl (List.cons_ne_nil _ _)
          (Or.inr ⟨up_of_receivesData receives, rfl, fun _ => List.mem_singleton.mp⟩) fun sound =>
            sound.dataPath
      exact (updated.trans (cancel _ key (rfl : (timerOf key .delayedSack).location = key)
        nofun)).trans (enqueue _ fit)

theorem maybeSendWindowUpdate : Deeds heard key s (s.maybeSendWindowUpdate key) := by
  unfold Socket.maybeSendWindowUpdate
  split
  · exact .refl
  · split
    · exact .refl
    · split
      · exact .refl
      · exact sendSack s key

theorem acknowledgeData_only (s : Socket) (key : AssociationKey) (a : Association)
    (holeExisted : Bool) (loop : DataLoop) :
    (s.acknowledgeData key a holeExisted loop).1 = { a with
      ourRwnd := (s.acknowledgeData key a holeExisted loop).1.ourRwnd
      receivedSinceSack := (s.acknowledgeData key a holeExisted loop).1.receivedSinceSack
      duplicateTsns := (s.acknowledgeData key a holeExisted loop).1.duplicateTsns
      delayedSackPacketCount := (s.acknowledgeData key a holeExisted
        loop).1.delayedSackPacketCount } := by
  unfold Socket.acknowledgeData
  simp only
  (repeat' split) <;> rfl

/-- Where DATA goes is up to the paths alone. -/
theorem dataPath_congr {a b : Association} (paths : b.peerAddressList = a.peerAddressList)
    (primaryPath : b.primaryPath = a.primaryPath) :
    (b.path (dataPath b)).address = (a.path (dataPath a)).address := by
  unfold dataPath primary findPath Association.path
  rw [paths, primaryPath]

theorem replyDestination_congr {a b : Association} (paths : b.peerAddressList = a.peerAddressList)
    (primaryPath : b.primaryPath = a.primaryPath) (src : SockAddr) :
    replyDestination b src = replyDestination a src := by
  unfold replyDestination
  rw [dataPath_congr paths primaryPath]
  unfold findPath Association.path
  rw [paths]

theorem sendDataReply {s : Socket} {key : AssociationKey} {a : Association}
    (found : s.find? key = some a) (now : Time) {destination : SockAddr} {reply : Socket.DataReply}
    (confirmed : Sound a → Confirmed a destination) (answers : ∀ packet, reply = .shutdown packet →
      packet.chunks ≠ [] ∧ packet.Current a) :
    Deeds heard key s (s.sendDataReply now key destination reply) := by
  cases reply with
  | shutdown packet =>
    have fit : Fit (s.cancelExpiration (timerOf key .delayedSack)) key ⟨key, destination, packet⟩ :=
      .found found rfl (answers packet rfl).1 (answers packet rfl).2 confirmed
    exact ((cancel s key (rfl : (timerOf key .delayedSack).location = key) nofun).trans
      (enqueue _ fit)).trans (restartT2 _ key now)
  | sack => exact sendSack s key
  | delayedSack => exact schedule s key rfl rfl (by rw [found]; rfl) _ _

/-- Whatever answers DATA acknowledges it. -/
theorem acknowledgeData_answers {s : Socket} {key : AssociationKey} {a : Association}
    {holeExisted : Bool} {loop : DataLoop} {packet : Packet} (up : forming a.state = false)
    (reply : (s.acknowledgeData key a holeExisted loop).2 = .shutdown packet) :
    packet.chunks ≠ [] ∧ packet.Current (s.acknowledgeData key a holeExisted loop).1 := by
  unfold Packet.Current
  rw [acknowledgeData_only]
  unfold Socket.acknowledgeData at reply
  simp only at reply
  split at reply
  · split at reply
    · cases reply
      refine ⟨List.cons_ne_nil _ _, Or.inr ⟨up, rfl, fun tsn member => ?_⟩⟩
      exact (List.mem_cons.mp member).elim id List.mem_singleton.mp
    · cases reply
      exact ⟨List.cons_ne_nil _ _, Or.inr ⟨up, rfl, fun _ => List.mem_singleton.mp⟩⟩
  · (repeat' split at reply) <;> cases reply

/-- What was received changes, and nothing else a deed may depend on. -/
theorem follows_received {a b : Association} (only : ReceiveOnly a b) (tidy : Tidy a → Tidy b) :
    Follows a b := by
  have marks : b.marks = a.marks := by
    rw [only]
    rfl
  have listed : Listed a b := .of_marks marks
  refine ⟨?_, ?_, ?_, .of_eq ?_, listed, fun sound => ⟨?_, ?_, fun tsn o found => ?_⟩, tidy⟩
  · rw [only]
  · rw [only]
  · rw [only]
  · rw [only]
    rfl
  · rw [marks]
    exact sound.distinct
  · rw [only]
    exact sound.primary
  · rw [only] at found
    exact listed.confirmed (sound.outstanding tsn o found)

/-- The DATA of a packet is shown to violate the protocol, if it does, and how far it moves
the cumulative TSN. -/
structure Reveals (heard : Evidence → Prop) (s : Socket) (packet : Packet) (key : AssociationKey)
    (immediately : Bool) :
    Prop where
  spoiled : ∀ a, s.find? key = some a → receivesData a.state = true →
    (takeData packet.chunks (Socket.DataLoop.start s key a immediately)).violation = true →
    heard (.spoiled a (partialDeliveryOpen
      (takeData packet.chunks (Socket.DataLoop.start s key a immediately)).st.assoc))
  took : ∀ a, s.find? key = some a → receivesData a.state = true →
    (takeData packet.chunks (Socket.DataLoop.start s key a immediately)).violation = false →
    heard (.took a.lastPeerTsn (takeData packet.chunks
      (Socket.DataLoop.start s key a immediately)).st.assoc.lastPeerTsn)

theorem receiveData {s : Socket} {key : AssociationKey} {a : Association}
    (found : s.find? key = some a) (receives : receivesData a.state = true) (now : Time)
    (packet : Packet) (src : SockAddr) (immediately : Bool)
    (filled : ∀ chunk ∈ packet.chunks, ∀ data, chunk.value = .data data → data.userData ≠ [])
    (reveals : Reveals heard s packet key immediately) :
    Deeds heard key s (s.receiveData now packet key src immediately a) := by
  have spoils := reveals.spoiled a found receives
  have took := reveals.took a found receives
  have up := up_of_receivesData receives
  have left := fun tidy => takeData_left s key immediately tidy up filled
  have only := takeData_only packet.chunks (Socket.DataLoop.start s key a immediately)
  unfold Socket.receiveData
  simp only
  revert left only spoils took
  generalize takeData packet.chunks (Socket.DataLoop.start s key a immediately) = loop
  intro spoils took left only
  change ReceiveOnly a loop.st.assoc at only
  have replied := acknowledgeData_only s key loop.st.assoc (!a.tsnOooBuffer.isEmpty) loop
  have same : Succeeds loop.st.assoc (s.acknowledgeData key loop.st.assoc (!a.tsnOooBuffer.isEmpty)
      loop).1 := by
    refine .of_outline ?_
    rw [replied]
    rfl
  have answers : ∀ packet, (s.acknowledgeData key loop.st.assoc (!a.tsnOooBuffer.isEmpty) loop).2
      = .shutdown packet →
    packet.chunks ≠ [] ∧ packet.Current
      (s.acknowledgeData key loop.st.assoc (!a.tsnOooBuffer.isEmpty) loop).1 :=
    fun _ => acknowledgeData_answers (by rw [only]; exact up)
  have last : (s.acknowledgeData key loop.st.assoc (!a.tsnOooBuffer.isEmpty) loop).1.lastPeerTsn
      = loop.st.assoc.lastPeerTsn := by rw [replied]
  have tag : (s.acknowledgeData key loop.st.assoc (!a.tsnOooBuffer.isEmpty) loop).1.peerVerTag
      = a.peerVerTag := by
    rw [replied, only]
  have state : (s.acknowledgeData key loop.st.assoc (!a.tsnOooBuffer.isEmpty) loop).1.state
      = a.state := by
    rw [replied, only]
  have paths : (s.acknowledgeData key loop.st.assoc (!a.tsnOooBuffer.isEmpty)
      loop).1.peerAddressList
      = a.peerAddressList := by rw [replied, only]
  have primaryPath : (s.acknowledgeData key loop.st.assoc (!a.tsnOooBuffer.isEmpty)
      loop).1.primaryPath
      = a.primaryPath := by rw [replied, only]
  clear replied
  revert same answers last tag state paths primaryPath
  generalize (s.acknowledgeData key loop.st.assoc (!a.tsnOooBuffer.isEmpty) loop).1 = b
  generalize (s.acknowledgeData key loop.st.assoc (!a.tsnOooBuffer.isEmpty) loop).2 = reply
  intro same answers last tag state paths primaryPath
  split
  · exact .refl
  · split
    · next spoilt =>
      unfold Socket.abortAssociation
      have found' : (s.setAssociation key b).find? key = some b := by simp
      have violated : Deeds heard key s
          (((s.setAssociation key b).removeAssociation key).notifyAssocChange key .commLost) :=
        .single (.violated found receives (by rw [same.partially]; exact spoils spoilt))
      rw [found']
      simp only
      rw [state, up]
      split
      · exact violated.trans (sendAbort _ key packet.header _ _ false _)
      · exact violated
    · next ok =>
      rw [Bool.not_eq_true] at ok
      have follows : Follows a b :=
        (follows_received only fun tidy => (left tidy ok).1).trans same.toFollows
      have delivered : Deeds heard key s
          ((s.setAssociation key b).pushDeliveries key loop.st.delivered) := by
        refine .single (.deliver loop.st.delivered found receives follows
          (.of_eq state (congrArg (List.map PeerPath.probe) paths))
          (by rw [last]; exact took ok) tag fun tidy => ?_)
        rw [same.partially]
        exact (left tidy ok).2
      have found' : ((s.setAssociation key b).pushDeliveries key loop.st.delivered).find? key
          = some b := by simp
      have destination : Sound b → Confirmed b (a.path (dataPath a)).address := by
        intro sound
        rw [← dataPath_congr paths primaryPath]
        exact sound.dataPath
      split
      · exact delivered.trans (sendDataReply found' now destination answers)
      · have source : Sound b → Confirmed b (replyDestination a src) := by
          intro sound
          rw [← replyDestination_congr paths primaryPath]
          exact sound.replyDestination src
        have reported : Deeds heard key s
            (((s.setAssociation key b).pushDeliveries key loop.st.delivered).sendError packet.header
              key (replyDestination a src) a.peerVerTag loop.invalidStreams) :=
          delivered.trans (replyFound found' (List.cons_ne_nil _ _) ⟨rfl, rfl⟩ source)
        have found'' : (((s.setAssociation key b).pushDeliveries key loop.st.delivered).sendError
            packet.header key (replyDestination a src) a.peerVerTag loop.invalidStreams).find? key
              = some b := found'
        exact reported.trans (sendDataReply found'' now destination answers)

theorem filled_of_emptyDataChunk {packet : Packet} (none : Socket.emptyDataChunk packet = none) :
    ∀ chunk ∈ packet.chunks, ∀ data, chunk.value = .data data → data.userData ≠ [] := by
  intro chunk member data value empty
  have absent := List.find?_eq_none.mp none data
    (List.mem_filterMap.mpr ⟨chunk, member, by rw [value]⟩)
  rw [empty] at absent
  exact absent rfl

theorem handleDataPacket (now : Time) (packet : Packet) (src : SockAddr) (immediately : Bool)
    (reveals : Reveals heard s packet key immediately) :
    Deeds heard key s (s.handleDataPacket now packet key src immediately) := by
  unfold Socket.handleDataPacket
  cases empty : Socket.emptyDataChunk packet with
  | some data => exact abortAssociation s key _ src _
  | none =>
    cases found : s.find? key with
    | none => exact .refl
    | some a =>
      simp only
      split
      · exact .refl
      · next receives =>
        rw [Bool.not_eq_true', Bool.not_eq_false] at receives
        exact receiveData found receives now packet src immediately (filled_of_emptyDataChunk empty)
          reveals

/-! ## Heartbeats -/

theorem handleHeartbeat (header : CommonHeader) (info : Bytes) (src : SockAddr) :
    Deeds heard key s (s.handleHeartbeat header info key src) := by
  unfold Socket.handleHeartbeat
  split
  · exact .refl
  · split
    · exact .refl
    · exact replyPlain s key (List.cons_ne_nil _ _) rfl rfl

theorem marks_confirm (a : Association) (i : Nat) :
    (a.modifyPath i fun path => { path with confirmed := true }).marks
      = a.marks.modify i fun mark => (mark.1, true) := by
  unfold Association.modifyPath Association.marks
  apply List.ext_getElem?
  intro j
  rw [List.getElem?_map, List.getElem?_modify, List.getElem?_modify, List.getElem?_map]
  cases a.peerAddressList[j]? with
  | none => rfl
  | some path =>
    by_cases here : i = j
    · simp [here]
    · simp [here]

/-- The TCB once a heartbeat is answered, before the path is confirmed. -/
def answered (now : Time) (i : Nat) (a : Association) : Association :=
  let timed := a.modifyPath i fun path => updateRto { path with hbOutstanding := false }
    (microsBetween path.hbSentAt now)
  let cleared := timed.modifyPath i fun path => (clearPathErrors path).1
  if dataPath cleared = i then { cleared with errorCount := 0 } else cleared

theorem outline_answered (now : Time) (i : Nat) (a : Association) :
    (answered now i a).outline = a.outline := by
  have both : ((a.modifyPath i fun path => updateRto { path with hbOutstanding := false }
      (microsBetween path.hbSentAt now)).modifyPath i fun path => (clearPathErrors path).1).outline
        = a.outline := by
    refine (outline_modifyPath _ i ?_).trans (outline_modifyPath a i ?_)
    · exact fun _ => ⟨rfl, rfl⟩
    · exact fun path => keepsMark_updateRto (fun _ => microsBetween path.hbSentAt now)
        { path with hbOutstanding := false }
  unfold answered
  simp only
  split <;> exact both

theorem credited_answered (now : Time) (draws : Draws) (i : Nat) (a : Association) :
    Credited i a (planNextProbe ((answered now i a).modifyPath i fun path =>
      { path with confirmed := true }) draws i now) := by
  have outline := outline_answered now i a
  refine ⟨(congrArg Outline.thisVerTag outline :), (congrArg Outline.localTieTag outline :),
    (congrArg Outline.peerTieTag outline :), ?_, (congrArg Outline.exchange outline :), ?_,
    (congrArg Outline.primaryPath outline :),
    (congrArg Outline.outstandingData outline :), fun tidy => tidy.congr (fun forms => ?_)
      (congrArg Outline.inStreams outline :) (congrArg Outline.lastPeerTsn outline :)
      (congrArg Outline.tsnOooBuffer outline :) (congrArg Outline.reassembly outline :)
      (congrArg Outline.heldDeliveries outline :),
    ⟨(congrArg Outline.lastPeerTsn outline :), (congrArg Outline.peerVerTag outline :)⟩, ?_⟩
  · show (answered now i a).state = a.state
    unfold answered
    simp only
    split <;> rfl
  · have reassembly : (answered now i a).reassembly = a.reassembly :=
      congrArg Outline.reassembly outline
    show ((answered now i a).reassembly.isOpen && (answered now i a).reassembly.partiallyDelivered)
        = _
    rw [reassembly]
    rfl
  · exact (forming_of_exchange (congrArg Outline.exchange outline)).symm.trans forms
  · have planned : ∀ b, (planNextProbe b draws i now).marks = b.marks :=
      fun b => marks_modifyPath b i fun _ => ⟨rfl, rfl⟩
    rw [planned, marks_confirm, show (answered now i a).marks
      = a.marks from congrArg Outline.marks outline]

theorem updateAssociation_updateAssociation (s : Socket) (key : AssociationKey)
    (f g : Association → Association) :
    (s.updateAssociation key f).updateAssociation key g = s.updateAssociation key fun a =>
      g (f a) := by
  unfold Socket.updateAssociation
  rw [KeyMap.modify_modify]

theorem updateAssociation_notifyIf (s : Socket) (key : AssociationKey) (changed : Bool)
    (address : SockAddr) (state : PeerAddrState) (f : Association → Association) :
    (s.notifyIf changed key address state).updateAssociation key f
      = (s.updateAssociation key f).notifyIf changed key address state := by
  cases changed <;> rfl

theorem updateAssociation_notifyPeerAddrChange (s : Socket) (key : AssociationKey)
    (address : SockAddr) (state : PeerAddrState) (f : Association → Association) :
    (s.notifyPeerAddrChange key address state).updateAssociation key f
      = (s.updateAssociation key f).notifyPeerAddrChange key address state := rfl

theorem creditHeartbeat {s : Socket} {key : AssociationKey} {a : Association} {info : Bytes}
    {i : Nat} (found : s.find? key = some a) (out : Heard info a i) (told : heard (.acked info))
    (probed : heard' .probed) (now : Time) (draws : Draws) :
    Led heard heard' key s (s.creditHeartbeat now draws key a i) := by
  have armed : ∀ s', Led heard heard' key s s' →
      Led heard heard' key s (if transmitsData a.state = true then
      (s'.armHeartbeat key i).armConfirmationProbes now key else s') := by
    intro s' before
    split
    · exact (before.trans (armHeartbeat s' key probed i)).trans
        (armConfirmationProbes _ key probed now)
    · exact before
  unfold Socket.creditHeartbeat Socket.clearPathErrorsAt
  simp only
  refine armed _ ?_
  rw [updateAssociation_updateAssociation, updateAssociation_notifyIf,
    updateAssociation_updateAssociation]
  split
  · have answered : Deeds heard' key s _ := set found (.of_outline (outline_answered now i a))
      (Or.inl probed)
    rw [updateAssociation_of_some found]
    exact .of_deeds (answered.trans (notifyIf _ key _ _ _ (by simp)))
  · -- The path is confirmed in the same step: the nonce is the one outstanding before.
    rw [updateAssociation_notifyIf, updateAssociation_updateAssociation,
      updateAssociation_notifyPeerAddrChange, updateAssociation_notifyIf,
      updateAssociation_updateAssociation, updateAssociation_of_some found]
    have credited := fun notes => Deed.credit notes found told out (credited_answered now draws i a)
    cases (clearPathErrors (a.path i)).2 with
    | true => exact .of_deed (credited
        [.peerAddrChange { (a.path i).address with port := key.address.port } .addrAvailable,
        .peerAddrChange { (a.path i).address with port := key.address.port } .addrConfirmed]
        (by simp [isNote]))
    | false => exact .of_deed (credited
        [.peerAddrChange { (a.path i).address with port := key.address.port } .addrConfirmed]
        (by simp [isNote]))

theorem handleHeartbeatAck (now : Time) (draws : Draws) {info : Bytes} (told : heard (.acked info))
    (probed : heard' .probed) :
    Led heard heard' key s (s.handleHeartbeatAck now draws info key) := by
  unfold Socket.handleHeartbeatAck
  split
  · exact .of_deeds .refl
  · next size =>
    cases found : s.find? key with
    | none => exact .of_deeds .refl
    | some a =>
      simp only
      cases path : findPath a (heartbeatInfoDestination info) with
      | none => exact .of_deeds .refl
      | some i =>
        simp only
        split
        · exact .of_deeds .refl
        · next out =>
          rw [Bool.or_eq_true, not_or, Bool.not_eq_true', Bool.not_eq_false, bne_iff_ne, not_not]
            at out
          exact creditHeartbeat found ⟨Decidable.not_not.mp size, path, out.1, out.2⟩ told probed
            now draws

end Deeds

end SctpStack
