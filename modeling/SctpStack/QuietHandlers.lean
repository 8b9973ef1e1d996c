import SctpStack.Keeping
import SctpStack.Dispatch

/-!
# The quiet part of every handler

Probes, SACKs, retransmissions and answers: one lemma for each operation that leaves
where an association stands alone.
-/

namespace SctpStack

/-! ## Paths -/

theorem Same.of_essence {a b : Association} (essence : b.essence = a.essence)
    (last : b.lastPeerTsn = a.lastPeerTsn) (buffer : b.tsnOooBuffer = a.tsnOooBuffer)
    (duplicates : b.duplicateTsns = a.duplicateTsns) : Same a b :=
  ⟨essence, last, buffer, Or.inl duplicates⟩

/-- The paths changed, their addresses not. -/
theorem essence_paths (a : Association) {paths : List PeerPath}
    (ips : ({ a with peerAddressList := paths } : Association).ips = a.ips) :
    ({ a with peerAddressList := paths } : Association).essence = a.essence := by
  unfold Association.essence
  rw [ips]

theorem Same.modifyPath (a : Association) (i : Nat) {f : PeerPath → PeerPath}
    (addr : ∀ path, (f path).address.addr = path.address.addr) : Same a (a.modifyPath i f) :=
  .of_essence (essence_paths a (ips_modifyPath a i addr)) rfl rfl rfl

theorem same_planNextProbe (a : Association) (draws : Draws) (i : Nat) (now : Time) :
    Same a (planNextProbe a draws i now) :=
  .modifyPath a i fun _ => rfl

namespace Quiet

variable (s : Socket) (key : AssociationKey)

theorem updatePath (i : Nat) {f : PeerPath → PeerPath}
    (addr : ∀ path, (f path).address.addr = path.address.addr) :
    Quiet s (s.updateAssociation key fun assoc => assoc.modifyPath i f) :=
  update fun a _ => .modifyPath a i addr

theorem notifyIf (changed : Bool) (address : SockAddr) (state : PeerAddrState) :
    Quiet s (s.notifyIf changed key address state) := by
  unfold Socket.notifyIf
  split
  · exact notify s key nofun
  · exact refl s

theorem countPathErrorAt (assoc : Association) (i : Nat) :
    Quiet s (s.countPathErrorAt key assoc i) :=
  (updatePath s key i samePath_countPathError).trans (notifyIf _ key _ _ _)

theorem clearPathErrorsAt (assoc : Association) (i : Nat) :
    Quiet s (s.clearPathErrorsAt key assoc i) := by
  refine trans ?_ (notifyIf _ key _ _ _)
  exact updatePath s key i fun _ => rfl

/-! ## Probes -/

theorem armHeartbeat (i : Nat) : Quiet s (s.armHeartbeat key i) := by
  unfold Socket.armHeartbeat
  split
  · exact refl s
  · simp only
    split
    · exact schedule s rfl _ _
    · split
      · exact cancel s rfl nofun
      · exact schedule s rfl _ _

theorem armConfirmationProbe (now : Time) (i : Nat) :
    Quiet s (s.armConfirmationProbe now key i) := by
  unfold Socket.armConfirmationProbe
  split
  · exact refl s
  · simp only
    split
    · refine trans ?_ (armHeartbeat _ key i)
      exact updatePath s key i fun _ => rfl
    · exact refl s

theorem armConfirmationProbes (now : Time) : Quiet s (s.armConfirmationProbes now key) :=
  foldl s (fun s i => armConfirmationProbe s key now i) _

theorem replan (draws : Draws) (i : Nat) (now : Time) :
    Quiet s (s.updateAssociation key fun assoc => planNextProbe assoc draws i now) :=
  update fun a _ => same_planNextProbe a draws i now

theorem planProbe (now : Time) (draws : Draws) (i : Nat) :
    Quiet s (s.planProbe now draws key i) := by
  refine update fun a _ => ?_
  simp only
  split
  · exact (same_planNextProbe a draws i now).trans (.modifyPath _ i fun _ => rfl)
  · exact same_planNextProbe a draws i now

theorem startHeartbeats (now : Time) (draws : Draws) : Quiet s (s.startHeartbeats now draws key) :=
  foldl s (fun s i => (planProbe s key now draws i).trans (armHeartbeat _ key i)) _

theorem buildProbe (now : Time) (draws : Draws) (assoc : Association) (i : Nat) :
    Quiet s (s.buildProbe now draws key assoc i).1 :=
  updatePath s key i fun _ => rfl

theorem recordHeartbeatSent (destination : SockAddr) (sentAt : Time) :
    Quiet s (s.recordHeartbeatSent key destination sentAt) := by
  refine update fun a _ => ?_
  split
  · exact .refl a
  · refine .modifyPath a _ fun path => ?_
    split <;> rfl

theorem recordEncapsulationPort (src : SockAddr) : Quiet s (s.recordEncapsulationPort key src) := by
  refine update fun a _ => ?_
  split
  · exact .refl a
  · exact .modifyPath a _ fun _ => rfl

/-! ## Retransmission -/

theorem restartT3 (now : Time) (destination : SockAddr) :
    Quiet s (s.restartT3 now key destination) := by
  unfold Socket.restartT3
  simp only
  split
  · exact cancel s rfl nofun
  · exact schedule s rfl _ _

theorem startT3IfStopped (now : Time) (destination : SockAddr) :
    Quiet s (s.startT3IfStopped now key destination) := by
  unfold Socket.startT3IfStopped
  split
  · exact refl s
  · exact restartT3 s key now destination

theorem restartT2 (now : Time) : Quiet s (s.restartT2 now key) := by
  unfold Socket.restartT2
  split
  · exact refl s
  · exact schedule s rfl _ _

theorem schedulePendingRetransmission (gated : Bool) :
    Quiet s (s.schedulePendingRetransmission key gated) := by
  unfold Socket.schedulePendingRetransmission
  split
  · exact refl s
  · split
    · exact refl s
    · simp only
      split
      · exact refl s
      · refine trans ?_ (enqueue _ _ _)
        exact update fun a _ => ⟨rfl, rfl, rfl, Or.inl rfl⟩


end Quiet

/-- Chunks are dropped from the retransmissions, of a key none of a type. -/
theorem QueuedWith.drop {q : SendQueue} {sel : Queued → Bool} {drop : Queued → Chunk → Bool}
    {key : AssociationKey} {type : ChunkType}
    (spares : ∀ e chunk, e.deliverable.location = key → chunk.type = type → sel e = true →
      drop e chunk = false)
    (queued : QueuedWith q key type) :
    QueuedWith { q with retransmission := dropChunks sel drop q.retransmission } key type := by
  obtain ⟨e, member, location, contains⟩ := queued
  rcases List.mem_append.mp member with inside | inside
  · exact ⟨e, List.mem_append_left _ inside, location, contains⟩
  · obtain ⟨chunk, carried, is⟩ := List.any_eq_true.mp contains
    have left : chunk ∈ chunksLeft sel drop e := by
      unfold chunksLeft
      split
      · next selected =>
        refine List.mem_filter.mpr ⟨carried, ?_⟩
        rw [spares e chunk location (of_decide_eq_true is) selected]
        rfl
      · exact carried
    refine ⟨{ e with deliverable := { e.deliverable with
      packet := { e.deliverable.packet with chunks := chunksLeft sel drop e } } },
      List.mem_append_right _ ?_, location, List.any_eq_true.mpr ⟨chunk, left, is⟩⟩
    refine List.mem_filterMap.mpr ⟨e, inside, ?_⟩
    have some : (chunksLeft sel drop e).isEmpty = false := by
      cases chunks : chunksLeft sel drop e with
      | nil =>
        rw [chunks] at left
        cases left
      | cons first rest => rfl
    unfold chunksLeft at some ⊢
    simp [some]

/-- Chunks are dropped from the retransmissions that open nothing. -/
theorem OpeningsKept.drop {q : SendQueue} {sel : Queued → Bool} {drop : Queued → Chunk → Bool}
    (spares : ∀ e chunk, opens chunk.type = true → drop e chunk = false) :
    OpeningsKept q { q with retransmission := dropChunks sel drop q.retransmission } := by
  intro key type opening queued
  refine queued.drop fun e chunk _ is _ => spares e chunk ?_
  rw [is]
  exact opening

namespace Quiet

variable (s : Socket) (key : AssociationKey)

theorem removeAckedRetransmissions (sack : SackChunkValue) :
    Quiet s (s.removeAckedRetransmissions key sack) := by
  refine of_same (fun _ => rfl) rfl rfl (.refl _) (.drop fun e chunk opening => ?_) (.refl _)
  obtain ⟨flag, value⟩ := chunk
  cases value with
  | data v => cases opening
  | _ => rfl

theorem removeDataRetransmissions (destination : Option SockAddr) :
    Quiet s (s.removeRetransmissionsOfType key .data destination) := by
  refine of_same (fun _ => rfl) rfl rfl (.refl _) (.drop fun e chunk opening => ?_) (.refl _)
  obtain ⟨flag, value⟩ := chunk
  cases value with
  | data v => cases opening
  | opError causes => cases opening
  | _ => simp [Chunk.type]

/-! ## SACKs -/

theorem sendSack : Quiet s (s.sendSack key) := by
  unfold Socket.sendSack
  cases found : s.find? key with
  | none => exact refl s
  | some assoc =>
    simp only
    split
    · exact refl s
    · have same : Same assoc (s.makeSack key assoc).2 := ⟨rfl, rfl, rfl, Or.inr rfl⟩
      exact ((set found same).trans (cancel _ rfl (by exact nofun))).trans (enqueue _ _ _)

theorem maybeSendWindowUpdate : Quiet s (s.maybeSendWindowUpdate key) := by
  unfold Socket.maybeSendWindowUpdate
  split
  · exact refl s
  · split
    · exact refl s
    · split
      · exact refl s
      · exact sendSack s key

/-! ## INIT -/

theorem sendInitAck (now : Time) (draws : Draws) (header : CommonHeader) (init : InitChunkValue)
    (src : SockAddr) (answer : InitAnswer) :
    Quiet s (s.sendInitAck now draws header init key src answer) := by
  unfold Socket.sendInitAck
  simp only
  split
  · exact authorizer s _
  · exact (authorizer s _).trans (reply _ key _ _)

theorem answerInit (now : Time) (draws : Draws) (header : CommonHeader) (init : InitChunkValue)
    (src : SockAddr) :
    Quiet s (s.answerInit now draws header init key src) := by
  unfold Socket.answerInit
  cases found : s.find? key with
  | none => exact sendInitAck s key now draws header init src _
  | some assoc =>
    simp only
    split
    · exact reply s key _ _
    · split
      · exact sendInitAck s key now draws header init src _
      · split
        · exact reply s key _ _
        · have same : Same assoc (withTieTags draws assoc) := by
            unfold withTieTags
            split
            · exact ⟨rfl, rfl, rfl, Or.inl rfl⟩
            · exact .refl assoc
          exact (set found same).trans (sendInitAck _ key now draws header init src _)

theorem handleInit (now : Time) (draws : Draws) (header : CommonHeader) (init : InitChunkValue)
    (src : SockAddr) :
    Quiet s (s.handleInit now draws header init key src) := by
  unfold Socket.handleInit
  split
  · exact reply s key _ _
  · split
    · exact reply s key _ _
    · split
      · exact reply s key _ _
      · exact answerInit s key now draws header init src

/-! ## Heartbeats -/

theorem handleHeartbeat (header : CommonHeader) (info : Bytes) (src : SockAddr) :
    Quiet s (s.handleHeartbeat header info key src) := by
  unfold Socket.handleHeartbeat
  split
  · exact refl s
  · split
    · exact refl s
    · exact reply s key _ _

theorem updateErrorCount (f : Association → Nat) (when : Association → Prop) [DecidablePred when] :
    Quiet s (s.updateAssociation key fun assoc =>
      if when assoc then { assoc with errorCount := f assoc } else assoc) := by
  refine update fun a _ => ?_
  split
  · exact ⟨rfl, rfl, rfl, Or.inl rfl⟩
  · exact .refl a

theorem creditHeartbeat (now : Time) (draws : Draws) (assoc : Association) (i : Nat) :
    Quiet s (s.creditHeartbeat now draws key assoc i) := by
  have measured : Quiet s (s.updateAssociation key fun assoc => assoc.modifyPath i fun path =>
      updateRto { path with hbOutstanding := false } (microsBetween path.hbSentAt now)) :=
    updatePath s key i fun path => by rw [updateRto_address]
  have cleared := (measured.trans (clearPathErrorsAt _ key assoc i)).trans
    (updateErrorCount _ key (fun _ => 0) fun assoc => dataPath assoc = i)
  have confirmed := ((cleared.trans
      (updatePath _ key i (f := fun path => { path with confirmed := true })
    fun _ => rfl)).trans (notify _ key (show NotificationPayload.peerAddrChange
      { (assoc.path i).address with port := key.address.port } .addrConfirmed
        ≠ _ from nofun))).trans
    (replan _ key draws i now)
  unfold Socket.creditHeartbeat
  simp only
  split
  · refine trans ?_ (trans (armHeartbeat _ key i) (armConfirmationProbes _ key now))
    split
    · exact cleared
    · exact confirmed
  · split
    · exact cleared
    · exact confirmed

theorem handleHeartbeatAck (now : Time) (draws : Draws) (info : Bytes) :
    Quiet s (s.handleHeartbeatAck now draws info key) := by
  unfold Socket.handleHeartbeatAck
  (repeat' split) <;> first | exact refl s | exact creditHeartbeat s key now draws _ _

theorem missHeartbeat (now : Time) (assoc : Association) (i : Nat) :
    Quiet s (s.missHeartbeat now key assoc i).1 := by
  have doubled : Quiet s _ := updatePath s key i
    (f := fun path => doubleRto { path with hbOutstanding := false }) fun _ => rfl
  have missed := (doubled.trans (countPathErrorAt _ key assoc i)).trans
    (updateErrorCount _ key (fun assoc => assoc.errorCount + 1)
      fun _ => ((assoc.path i).confirmed && dataPath assoc == i) = true)
  unfold Socket.missHeartbeat
  simp only
  split
  · exact missed.trans (armConfirmationProbes _ key now)
  · exact missed

theorem sendDueProbe (now : Time) (draws : Draws) (i : Nat) (probeNow : Bool) :
    Quiet s (s.sendDueProbe now draws key i probeNow).1 := by
  unfold Socket.sendDueProbe
  split
  · exact refl s
  · next assoc _ =>
    split
    · simp only
      refine trans (trans ?_ (replan _ key draws i now)) (armHeartbeat _ key i)
      split
      · exact buildProbe s key now draws assoc i
      · exact refl s
    · exact armHeartbeat s key i

theorem handleZeroWindowProbeExpiration : Quiet s (s.handleZeroWindowProbeExpiration key) := by
  refine update fun a _ => ?_
  split
  · exact ⟨rfl, rfl, rfl, Or.inl rfl⟩
  · exact .refl a

theorem replanHeartbeat (now : Time) (draws : Draws) (i : Nat) :
    Quiet s (s.replanHeartbeat now draws key i) := by
  unfold Socket.replanHeartbeat
  split
  · exact refl s
  · refine trans ?_ (armHeartbeat _ key i)
    split
    · exact refl s
    · exact planProbe s key now draws i

/-! ## Packets -/

theorem extendShutdown (now : Time) : Quiet s (s.extendShutdown now key) := by
  unfold Socket.extendShutdown
  cases found : s.find? key with
  | none => exact refl s
  | some assoc =>
    simp only
    split
    · refine trans (set found ?_) (restartT2 _ key now)
      exact ⟨rfl, rfl, rfl, Or.inl rfl⟩
    · exact refl s

theorem beforeChunks (now : Time) (packet : Packet) (src : SockAddr) :
    Quiet s (s.beforeChunks now packet key src) := by
  unfold Socket.beforeChunks
  refine trans ?_ (extendShutdown _ key now)
  split
  · exact refl s
  · exact recordEncapsulationPort s key src

theorem reportUnrecognizedChunks (header : CommonHeader) (src : SockAddr)
    (causes : List ErrorCause) :
    Quiet s (s.reportUnrecognizedChunks header key src causes) := by
  unfold Socket.reportUnrecognizedChunks
  split
  · exact refl s
  · split
    · exact refl s
    · simp only
      split
      · exact refl s
      · exact reply s key _ _

/-! ## T3-rtx -/

theorem expireT3 (assoc : Association) (i : Nat) : Quiet s (s.expireT3 key assoc i) := by
  have collapsed : Quiet s (s.updateAssociation key fun assoc => assoc.modifyPath i fun path =>
      doubleRto (if assoc.zeroWindowProbing then path else collapseCwnd assoc.pmdcs path)) := by
    refine update fun a _ => .modifyPath a i fun path => ?_
    split <;> rfl
  unfold Socket.expireT3
  simp only
  refine (collapsed.trans ?_).trans (update fun a _ => ⟨rfl, rfl, rfl, Or.inl rfl⟩)
  split
  · refine (countPathErrorAt _ key assoc i).trans ?_
    exact update fun a _ => ⟨rfl, rfl, rfl, Or.inl rfl⟩
  · exact refl _

end Quiet

end SctpStack
