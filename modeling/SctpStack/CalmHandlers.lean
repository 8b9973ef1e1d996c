import SctpStack.Calm
import SctpStack.Buffered

/-!
# The handlers that are calm

Everything but what acknowledges, times out or sends DATA.
-/

namespace SctpStack

/-! ## Changes that do not matter to the sender -/

namespace SameCore

variable {strict : Prop} {a b : Association}

/-- Fields the sender does not read changed. -/
theorem of_eq (nextTsn : b.nextTsn = a.nextTsn)
    (cumulativeTsnAck : b.cumulativeTsnAck = a.cumulativeTsnAck)
    (outstandingData : b.outstandingData = a.outstandingData)
    (inFastRecovery : b.inFastRecovery = a.inFastRecovery)
    (fastRecoveryExitTsn : b.fastRecoveryExitTsn = a.fastRecoveryExitTsn)
    (burstCount : b.burstCount = a.burstCount) (paths : b.peerAddressList = a.peerAddressList)
    (pmdcs : b.pmdcs = a.pmdcs) (forms : SctpStack.forming b.state = true →
      SctpStack.forming a.state = true) (transmits : transmitsData b.state = true →
        transmitsData a.state = true ∨ SctpStack.forming a.state = true) (held : strict →
          heldBytes b ≤ heldBytes a) : SameCore strict a b where
  nextTsn := nextTsn
  cumulativeTsnAck := cumulativeTsnAck
  outstandingData := outstandingData
  inFastRecovery := inFastRecovery
  fastRecoveryExitTsn := fastRecoveryExitTsn
  burstCount := burstCount
  paths := fun ok => ⟨by rw [paths]; exact ok.some, by
    rw [Association.ips, paths]; exact ok.distinct, pmdcs.trans ok.pmdcs⟩
  ips := by
    intro ip member
    rwa [Association.ips, paths]
  forming := forms
  transmits := transmits
  held := held

end SameCore

/-- A change to a path that keeps its address. -/
def SamePath (f : PeerPath → PeerPath) : Prop := ∀ path, (f path).address.addr = path.address.addr

theorem ips_modifyPath (a : Association) (i : Nat) {f : PeerPath → PeerPath}
    (addr : ∀ path, (f path).address.addr = path.address.addr) :
    (a.modifyPath i f).ips = a.ips := by
  unfold Association.modifyPath Association.ips
  simp only
  apply List.ext_getElem?
  intro n
  rw [List.getElem?_map, List.getElem?_map, List.getElem?_modify]
  cases a.peerAddressList[n]? with
  | none => rfl
  | some path =>
    by_cases eq : i = n
    · simp [eq, addr]
    · simp [eq]

theorem PathsOk.modifyPath {a : Association} (ok : PathsOk a) (i : Nat) {f : PeerPath → PeerPath}
    (same : SamePath f) : PathsOk (a.modifyPath i f) where
  some := by
    intro none
    have length := congrArg List.length none
    simp only [Association.modifyPath, List.length_modify, List.length_nil, List.length_eq_zero_iff]
      at length
    exact ok.some length
  distinct := by
    rw [ips_modifyPath a i same]
    exact ok.distinct
  pmdcs := ok.pmdcs

theorem SameCore.modifyPath {strict : Prop} (a : Association) (i : Nat) {f : PeerPath → PeerPath}
    (same : SamePath f) : SameCore strict a (a.modifyPath i f) where
  nextTsn := rfl
  cumulativeTsnAck := rfl
  outstandingData := rfl
  inFastRecovery := rfl
  fastRecoveryExitTsn := rfl
  burstCount := rfl
  paths := fun ok => ok.modifyPath i same
  ips := fun ip member => by rwa [ips_modifyPath a i same]
  forming := id
  transmits := Or.inl
  held := fun _ => Nat.le_refl _

theorem samePath_countPathError : SamePath fun path => (countPathError path).1 := by
  intro path
  simp only [countPathError]
  (repeat' split) <;> rfl

theorem updateRto_address (path : PeerPath) (measurement : Micros) :
    (updateRto path measurement).address = path.address := by
  unfold updateRto
  simp only
  (repeat' split) <;> rfl

theorem updateRto_cwnd (path : PeerPath) (measurement : Micros) :
    (updateRto path measurement).cwnd = path.cwnd := by
  unfold updateRto
  simp only
  (repeat' split) <;> rfl

theorem sameCore_planNextProbe {strict : Prop} (a : Association) (draws : Draws) (i : Nat)
    (now : Time) :
    SameCore strict a (planNextProbe a draws i now) :=
  .modifyPath a i fun _ => rfl

/-! ## Timers and probes -/

namespace Calm

variable {strict : Prop} (s : Socket) (key : AssociationKey)

theorem notifyIf (changed : Bool) (address : SockAddr) (state : PeerAddrState) :
    Calm strict s (s.notifyIf changed key address state) := by
  unfold Socket.notifyIf
  split
  · exact notify s key _
  · exact refl s

/-- A path changed that keeps its address. -/
theorem updatePath (i : Nat) {f : PeerPath → PeerPath} (same : SamePath f) :
    Calm strict s (s.updateAssociation key fun assoc => assoc.modifyPath i f) :=
  update s key _ fun a _ => .modifyPath a i same

theorem countPathErrorAt (assoc : Association) (i : Nat) :
    Calm strict s (s.countPathErrorAt key assoc i) :=
  (updatePath s key i samePath_countPathError).trans (notifyIf _ key _ _ _)

theorem clearPathErrorsAt (assoc : Association) (i : Nat) :
    Calm strict s (s.clearPathErrorsAt key assoc i) := by
  refine trans ?_ (notifyIf _ key _ _ _)
  exact updatePath s key i fun _ => rfl

theorem noData_noRetry : NoData (noRetry key).packet := rfl

theorem armHeartbeat (i : Nat) : Calm strict s (s.armHeartbeat key i) := by
  unfold Socket.armHeartbeat
  split
  · exact refl s
  · simp only
    split
    · exact schedule s _ (by simp [pathTimerOf]) (noData_noRetry key)
    · split
      · exact cancel s (by simp [pathTimerOf])
      · exact schedule s _ (by simp [pathTimerOf]) (noData_noRetry key)

theorem armConfirmationProbe (now : Time) (i : Nat) :
    Calm strict s (s.armConfirmationProbe now key i) := by
  unfold Socket.armConfirmationProbe
  split
  · exact refl s
  · simp only
    split
    · refine trans ?_ (armHeartbeat _ key i)
      exact updatePath s key i fun _ => rfl
    · exact refl s

/-- Calm steps, one for each of a list. -/
theorem foldl {α : Type} {f : Socket → α → Socket} (each : ∀ s a, Calm strict s (f s a))
    (l : List α) :
    Calm strict s (l.foldl f s) := by
  induction l generalizing s with
  | nil => exact refl s
  | cons a rest ih => exact (each s a).trans (ih _)

theorem armConfirmationProbes (now : Time) : Calm strict s (s.armConfirmationProbes now key) :=
  foldl s (fun s i => armConfirmationProbe s key now i) _

theorem planProbe (now : Time) (draws : Draws) (i : Nat) :
    Calm strict s (s.planProbe now draws key i) := by
  refine update s key _ fun a _ => ?_
  simp only
  split
  · exact (sameCore_planNextProbe a draws i now).trans (.modifyPath _ i fun _ => rfl)
  · exact sameCore_planNextProbe a draws i now

theorem startHeartbeats (now : Time) (draws : Draws) :
    Calm strict s (s.startHeartbeats now draws key) :=
  foldl s (fun s i => (planProbe s key now draws i).trans (armHeartbeat _ key i)) _

theorem buildProbe (now : Time) (draws : Draws) (assoc : Association) (i : Nat) :
    Calm strict s (s.buildProbe now draws key assoc i).1 :=
  updatePath s key i fun _ => rfl

theorem recordHeartbeatSent (destination : SockAddr) (sentAt : Time) :
    Calm strict s (s.recordHeartbeatSent key destination sentAt) := by
  refine update s key _ fun a _ => ?_
  split
  · exact .refl a
  · refine .modifyPath a _ fun path => ?_
    split <;> rfl

theorem restartT2 (now : Time) : Calm strict s (s.restartT2 now key) := by
  unfold Socket.restartT2
  split
  · exact refl s
  · exact schedule s _ (by simp [timerOf]) (noData_noRetry key)

/-! ## SACKs and shutdown -/

theorem sendSack : Calm strict s (s.sendSack key) := by
  unfold Socket.sendSack
  cases found : s.find? key with
  | none => exact refl s
  | some assoc =>
    simp only
    split
    · exact refl s
    · have same : SameCore strict assoc (s.makeSack key assoc).2 :=
        .of_eq rfl rfl rfl rfl rfl rfl rfl rfl id Or.inl fun _ => Nat.le_refl _
      exact ((set s key found same).trans (cancel _ (by simp [timerOf]))).trans (control _ rfl)

theorem maybeSendWindowUpdate : Calm strict s (s.maybeSendWindowUpdate key) := by
  unfold Socket.maybeSendWindowUpdate
  split
  · exact refl s
  · split
    · exact refl s
    · split
      · exact refl s
      · exact sendSack s key

theorem doNextShutdownStep (now : Time) : Calm strict s (s.doNextShutdownStep now key) := by
  unfold Socket.doNextShutdownStep
  cases found : s.find? key with
  | none => exact refl s
  | some assoc =>
    simp only
    cases next : s.nextShutdownStep key assoc with
    | none => exact refl s
    | some step =>
      obtain ⟨packet, state⟩ := step
      simp only
      have states : transmitsData state = false ∧ forming state = false ∧ NoData packet := by
        unfold Socket.nextShutdownStep at next
        split at next
        · cases next
        · split at next
          · cases next
            exact ⟨rfl, rfl, rfl⟩
          · cases next
            exact ⟨rfl, rfl, rfl⟩
          · cases next
      obtain ⟨silent, up, none⟩ := states
      have same : SameCore strict assoc { assoc with state := state } := by
        refine .of_eq rfl rfl rfl rfl rfl rfl rfl rfl ?_ ?_ fun _ => Nat.le_refl _
        · simp [up]
        · simp [silent]
      have stopped :
          Calm strict
            s (((((s.setAssociation key { assoc with state := state }).cancelExpirationsOfType
              key .heartbeat).cancelExpiration (timerOf key .delayedSack)).cancelExpirationsOfType
                key .t3Rtx)) := by
        refine (((set s key found same).trans (cancelOfType _ key (by simp))).trans
          (cancel _ (by simp [timerOf]))).trans (cancelT3 _ key fun a here => ?_)
        simp at here
        rw [← here]
        exact silent
      have sent := stopped.trans ((control
          _ (d := ⟨key, (assoc.path (dataPath assoc)).address, packet⟩) none).trans
        (restartT2 _ key now))
      split
      · exact sent.trans (schedule _ _ (by simp [timerOf]) (noData_noRetry key))
      · exact sent

theorem abortAssociation (header : CommonHeader) (src : SockAddr) (causes : List ErrorCause) :
    Calm strict s (s.abortAssociation key header src causes) := by
  unfold Socket.abortAssociation
  split
  · exact refl s
  · refine ((removeAssociation s key).trans ?_).trans (notify _ key _)
    split
    · exact reply _ key rfl
    · exact refl _

theorem loseAssociation : Calm strict s (s.loseAssociation key) :=
  (removeAssociation s key).trans (notify _ key _)

end Calm

/-! ## Addresses -/

theorem findPath_eq_none {a : Association} {address : SockAddr} :
    findPath a address = none ↔ address.addr ∉ a.ips := by
  unfold findPath Association.ips
  simp [List.findIdx?_eq_none_iff, sameDestination]

theorem findPath_isSome {a : Association} {address : SockAddr} (member : address.addr ∈ a.ips) :
    ∃ i, findPath a address = some i := by
  rw [← Option.isSome_iff_exists, ← Option.not_isNone, Bool.not_eq_true',
    Option.isNone_eq_false_iff, Option.isSome_iff_ne_none]
  exact fun none => findPath_eq_none.mp none member

/-- An address the association lacks becomes a path of its own. -/
theorem sameCore_addPath {strict : Prop} {a : Association} {address : SockAddr}
    (new : findPath a address = none) :
    SameCore strict a { a with peerAddressList := a.peerAddressList
      ++ [makePath address false a.pmdcs] } where
  nextTsn := rfl
  cumulativeTsnAck := rfl
  outstandingData := rfl
  inFastRecovery := rfl
  fastRecoveryExitTsn := rfl
  burstCount := rfl
  paths := by
    intro ok
    refine ⟨by simp, ?_, ok.pmdcs⟩
    simp only [Association.ips, List.map_append, List.map_cons, List.map_nil]
    refine List.nodup_append.mpr ⟨ok.distinct, by simp, ?_⟩
    intro ip member ip' here
    rw [List.mem_singleton.mp here]
    exact fun same => findPath_eq_none.mp new (same ▸ member)
  ips := by
    intro ip member
    simp only [Association.ips, List.map_append, List.mem_append]
    exact Or.inl member
  forming := id
  transmits := Or.inl
  held := fun _ => Nat.le_refl _

namespace Calm

variable {strict : Prop} (s : Socket) (key : AssociationKey)

theorem addPeerAddress (address : SockAddr) : Calm strict s (s.addPeerAddress key address) := by
  have added : Calm strict s (s.updateAssociation key fun assoc =>
      if findPath assoc address = none then
        { assoc with peerAddressList := assoc.peerAddressList
          ++ [makePath address false assoc.pmdcs] }
      else assoc) := by
    refine update s key _ fun a _ => ?_
    split
    · next new => exact sameCore_addPath new
    · exact .refl a
  unfold Socket.addPeerAddress
  simp only
  split
  · exact added
  · exact added.trans (of_same ⟨rfl, rfl, fun _ _ => Nat.le_refl _⟩ fun _ => rfl)

theorem addPeerAddresses (addresses : List SockAddr) :
    Calm strict s (s.addPeerAddresses key addresses) :=
  foldl s (fun s address => addPeerAddress s key address) addresses

theorem recordEncapsulationPort (src : SockAddr) :
    Calm strict s (s.recordEncapsulationPort key src) := by
  refine update s key _ fun a _ => ?_
  split
  · exact .refl a
  · exact .modifyPath a _ fun _ => rfl

/-! ## The handshake -/

theorem noData_buildInitAck {srcPort desPort : Port} {peerTag initiateTag : Tag} {initialTsn : Tsn}
    {cookie : Bytes} {unrecognized : List Bytes} {packet : Packet}
    (built : buildInitAck srcPort desPort peerTag initiateTag initialTsn cookie unrecognized
      = some packet) :
    NoData packet := by
  unfold buildInitAck at built
  obtain ⟨parameters, -, rfl⟩ := Option.map_eq_some_iff.mp built
  rfl

theorem sendInitAck (now : Time) (draws : Draws) (header : CommonHeader) (init : InitChunkValue)
    (src : SockAddr) (answer : InitAnswer) :
    Calm strict s (s.sendInitAck now draws header init key src answer) := by
  unfold Socket.sendInitAck
  simp only
  split
  · exact of_same ⟨rfl, rfl, fun _ _ => Nat.le_refl _⟩ fun _ => rfl
  · next packet built =>
    refine trans ?_ (reply _ key (noData_buildInitAck built))
    exact of_same ⟨rfl, rfl, fun _ _ => Nat.le_refl _⟩ fun _ => rfl

theorem sameCore_withTieTags (draws : Draws) (a : Association) :
    SameCore strict a (withTieTags draws a) := by
  unfold withTieTags
  split
  · exact .of_eq rfl rfl rfl rfl rfl rfl rfl rfl id Or.inl fun _ => Nat.le_refl _
  · exact .refl a

theorem answerInit (now : Time) (draws : Draws) (header : CommonHeader) (init : InitChunkValue)
    (src : SockAddr) :
    Calm strict s (s.answerInit now draws header init key src) := by
  unfold Socket.answerInit
  cases found : s.find? key with
  | none => exact sendInitAck s key now draws header init src _
  | some assoc =>
    simp only
    split
    · exact reply s key rfl
    · split
      · exact sendInitAck s key now draws header init src _
      · split
        · exact reply s key rfl
        · refine trans ?_ (sendInitAck _ key now draws header init src _)
          exact set s key found (sameCore_withTieTags draws assoc)

theorem handleInit (now : Time) (draws : Draws) (header : CommonHeader) (init : InitChunkValue)
    (src : SockAddr) :
    Calm strict s (s.handleInit now draws header init key src) := by
  unfold Socket.handleInit
  split
  · exact reply s key rfl
  · split
    · exact reply s key rfl
    · split
      · exact reply s key rfl
      · exact answerInit s key now draws header init src

theorem refuseInitAck (header : CommonHeader) (src : SockAddr) (tag : Tag) (reflected : Bool)
    (cause : ErrorCause) :
    Calm strict s (s.refuseInitAck header key src tag reflected cause) := by
  refine trans (trans (removeAssociation s key) ?_) (notify _ key _)
  exact reply _ key rfl

theorem noData_buildCookieEcho (srcPort desPort : Port) (peerTag : Tag) (cookie : Bytes)
    (errors : List ErrorCause) :
    NoData (buildCookieEcho srcPort desPort peerTag cookie errors) := by
  unfold buildCookieEcho NoData
  split <;> rfl

end Calm

/-- Adding addresses changes an association's paths only. -/
theorem find?_addPeerAddresses {s : Socket} {key : AssociationKey} {b : Association}
    (addresses : List SockAddr) (found : (s.addPeerAddresses key addresses).find? key = some b) :
    ∃ a, s.find? key = some a ∧ b = { a with peerAddressList := b.peerAddressList } := by
  unfold Socket.addPeerAddresses at found
  induction addresses generalizing s with
  | nil => exact ⟨b, found, rfl⟩
  | cons address rest ih =>
    obtain ⟨c, found', rest'⟩ := ih found
    have added : (s.addPeerAddress key address).find? key = (s.find? key).map fun assoc =>
        if findPath assoc address = none then
          { assoc with peerAddressList := assoc.peerAddressList
            ++ [makePath address false assoc.pmdcs] }
        else assoc := by
      unfold Socket.addPeerAddress
      simp only
      split
      · simp
      · simp only [Socket.find?, Socket.updateAssociation, KeyMap.get?_modify, if_true]
    rw [added, Option.map_eq_some_iff] at found'
    obtain ⟨a, here, rfl⟩ := found'
    refine ⟨a, here, ?_⟩
    rw [rest']
    split <;> rfl

namespace Calm

variable {strict : Prop} (s : Socket) (key : AssociationKey)

/-- The INIT ACK an association being set up waits for. -/
theorem acceptInitAck (header : CommonHeader) (initAck : InitChunkValue) (src : SockAddr)
    (cookie : Bytes) (forms : ∀ a, s.find? key = some a → forming a.state = true) :
    Calm strict s (s.acceptInitAck header initAck key src cookie) := by
  unfold Socket.acceptInitAck
  simp only
  refine (addPeerAddresses s key (transportAddresses src (scanInitAck initAck).recognized)).trans ?_
  cases found : (s.addPeerAddresses key
    (transportAddresses src (scanInitAck initAck).recognized)).find? key with
  | none => exact refl _
  | some assoc =>
    obtain ⟨a, here, same⟩ := find?_addPeerAddresses _ found
    have state : forming assoc.state = true := by
      rw [same]
      exact forms a here
    simp only
    refine trans (trans (trans (set _ key found ?_) (cancel _ ?_))
      (removeRetransmissionsOfType _ key none (show ChunkType.init ≠ .data by simp)))
      (reply _ key (noData_buildCookieEcho _ _ _ _ _))
    · exact .of_eq rfl rfl rfl rfl rfl rfl rfl rfl (fun _ => state) (fun _ => Or.inr state) fun _ =>
        Nat.le_refl _
    · simp [timerOf]

theorem handleInitAck (header : CommonHeader) (initAck : InitChunkValue) (src : SockAddr) :
    Calm strict s (s.handleInitAck header initAck key src) := by
  unfold Socket.handleInitAck
  cases found : s.find? key with
  | none => exact refl s
  | some assoc =>
    simp only
    split
    · exact refl s
    · next waits =>
      rw [not_not] at waits
      split
      · exact refuseInitAck s key header src _ _ _
      · split
        · exact refuseInitAck s key header src _ _ _
        · split
          · exact refuseInitAck s key header src _ _ _
          · split
            · exact refuseInitAck s key header src _ _ _
            · refine acceptInitAck s key header initAck src _ fun a here => ?_
              rw [found] at here
              cases here
              rw [waits]
              rfl

/-- An association being set up comes up. -/
theorem bringUp (now : Time) (draws : Draws) (forms : ∀ a, s.find? key = some a → forming a.state
    = true) :
    Calm strict s (s.bringUp now draws key) := by
  unfold Socket.bringUp
  refine trans (trans ?_ (notify _ key _)) (startHeartbeats _ key now draws)
  exact update s key _ fun a here =>
    .of_eq rfl rfl rfl rfl rfl rfl rfl rfl (fun forms' => by cases forms')
      (fun _ => Or.inr (forms a here))
      fun _ => Nat.le_refl _

theorem finishCookieEcho (header : CommonHeader) (destination : SockAddr) (cookie : StateCookie) :
    Calm strict s (s.finishCookieEcho header key destination cookie) := by
  unfold Socket.finishCookieEcho
  simp only
  refine trans ?_ (reply _ key rfl)
  refine trans (trans ?_ (removeRetransmissionsOfType _ key none (by simp)))
    (removeRetransmissionsOfType _ key none (by simp))
  refine trans (cancel s ?_) (cancel _ ?_)
  · simp [timerOf]
  · simp [timerOf]

end Calm

/-! ### New associations -/

theorem heldBytes_of_empty {a : Association} (reassembly : a.reassembly = .closed)
    (buffer : a.tsnOooBuffer = ∅) (streams : a.inboundStreams = ∅) (held : a.heldDeliveries = []) :
    heldBytes a = 0 := by
  unfold heldBytes
  rw [reassembly, buffer, streams, held]
  rfl

theorem pathsOk_single {a : Association} {address : SockAddr} {confirmed : Bool}
    (pmdcs : a.pmdcs = defaultPmdcs)
    (paths : a.peerAddressList = [makePath address confirmed defaultPmdcs]) : PathsOk a where
  some := by simp [paths]
  distinct := by simp [Association.ips, paths]
  pmdcs := pmdcs

theorem freshAssoc_initNewAssociation {strict : Prop} (draws : Draws) (destination : SockAddr) :
    FreshAssoc strict (initNewAssociation draws destination) where
  cumulativeTsnAck := rfl
  outstandingData := rfl
  burstCount := rfl
  paths := pathsOk_single rfl rfl
  held := fun _ => heldBytes_of_empty rfl rfl rfl rfl

theorem freshAssoc_initNewAssociationFromCookie {strict : Prop} (cookie : StateCookie) :
    FreshAssoc strict (initNewAssociationFromCookie cookie) where
  cumulativeTsnAck := rfl
  outstandingData := rfl
  burstCount := rfl
  paths := pathsOk_single rfl rfl
  held := fun _ => heldBytes_of_empty rfl rfl rfl rfl

namespace Calm

variable {strict : Prop} (s : Socket) (key : AssociationKey)

theorem createFromCookie (now : Time) (draws : Draws) (header : CommonHeader) (src : SockAddr)
    (cookie : StateCookie) (empty : NothingQueued s key) :
    Calm strict s (s.createFromCookie now draws header key src cookie) := by
  unfold Socket.createFromCookie
  have made : Calm strict s (s.setAssociation key (initNewAssociationFromCookie cookie)) :=
    create ⟨rfl, rfl, fun _ _ => Nat.le_refl _⟩ (by simp) (fun k apart => by simp [apart])
      (freshAssoc_initNewAssociationFromCookie cookie) empty
  have up := ((made.trans (addPeerAddresses _ key (cookieAddresses cookie))).trans
    (notify _ key (.assocChange .commUp))).trans (startHeartbeats _ key now draws)
  simp only
  split
  · exact up
  · refine up.trans ?_
    exact reply _ key rfl

theorem restartFromCookie (now : Time) (draws : Draws) (tcb : Association) (cookie : StateCookie) :
    Calm strict s (s.restartFromCookie now draws key tcb cookie) := by
  unfold Socket.restartFromCookie
  refine trans (trans (trans ?_ (addPeerAddresses _ key (cookieAddresses cookie))) (notify _ key _))
    (startHeartbeats _ key now draws)
  have stopped : CalmAside strict key s (s.cancelExpirations key) := .cancelAll s key
  have cleared := (stopped.trans (.purge _ key)).trans
    ((((forgetPeerAddresses _ key).trans (abandonPartialDelivery _ key tcb)).trans
      (detachReceives _ key)).aside key)
  have empty : NothingQueued (((((s.cancelExpirations key).purgeSends key).forgetPeerAddresses
      key).abandonPartialDelivery key tcb).detachReceives key) key := by
    have purged := nothingQueued_purge (s.cancelExpirations key) key
    unfold Socket.abandonPartialDelivery
    split <;> exact purged
  refine (cleared.trans (.set _ key (initNewAssociationFromCookie cookie))).close ?_
  exact .fresh _ (by simp) (freshAssoc_initNewAssociationFromCookie cookie) empty

theorem collideWithCookie (now : Time) (draws : Draws) {tcb : Association} (cookie : StateCookie)
    (found : s.find? key = some tcb) :
    Calm strict s (s.collideWithCookie now draws key tcb cookie) := by
  have reset : Calm strict s (((s.addPeerAddresses key
      (cookieAddresses cookie)).abandonPartialDelivery key tcb).updateAssociation key fun assoc =>
        { assoc with
        peerVerTag := cookie.peerVerTag
        lastPeerTsn := cookie.peerInitialTsn - 1#32
        peerRwnd := cookie.peerARwnd.toNat
        peerMaxRwnd := cookie.peerARwnd.toNat
        tsnOooBuffer := ∅
        reassembly := .closed
        inboundStreams := ∅
        heldDeliveries := []
        duplicateTsns := [] }) := by
    refine trans (trans (addPeerAddresses s key _) (abandonPartialDelivery _ key tcb))
      (update _ key _ fun a _ => ?_)
    refine .of_eq rfl rfl rfl rfl rfl rfl rfl rfl id Or.inl fun _ => ?_
    rw [heldBytes_of_empty rfl rfl rfl rfl]
    exact Nat.zero_le _
  unfold Socket.collideWithCookie
  simp only
  split
  · next forms =>
    refine reset.trans (bringUp _ key now draws fun b here => ?_)
    simp only [Socket.find?_updateAssociation, if_true, Option.map_eq_some_iff] at here
    obtain ⟨c, found', rfl⟩ := here
    have abandoned : ((s.addPeerAddresses key (cookieAddresses cookie)).abandonPartialDelivery
        key tcb).find? key
        = (s.addPeerAddresses key (cookieAddresses cookie)).find? key := by
      unfold Socket.abandonPartialDelivery
      split <;> rfl
    rw [abandoned] at found'
    obtain ⟨a, here', same⟩ := find?_addPeerAddresses _ found'
    rw [found] at here'
    cases here'
    rw [same]
    exact forms
  · split
    · exact reset.trans (armConfirmationProbes _ key now)
    · exact reset

theorem acceptCookie (now : Time) (draws : Draws) (header : CommonHeader) (src : SockAddr)
    {tcb : Association} (cookie : StateCookie) (found : s.find? key = some tcb) :
    Calm strict s (s.acceptCookie now draws header key src tcb cookie).2 := by
  unfold Socket.acceptCookie
  simp only
  split
  · refine trans ?_ (finishCookieEcho _ key header _ cookie)
    split
    · next echoed =>
      refine bringUp s key now draws fun a here => ?_
      rw [found] at here
      cases here
      rw [echoed]
      rfl
    · exact refl s
  · split
    · split
      · refine trans (reply s key ?_) (reply _ key ?_)
        · rfl
        · rfl
      · exact trans (restartFromCookie s key now draws tcb cookie)
          (finishCookieEcho _ key header _ cookie)
    · split
      · exact trans (collideWithCookie s key now draws cookie found)
          (finishCookieEcho _ key header _ cookie)
      · exact refl s

/-- A key without an association has nothing queued. -/
theorem handleCookieEcho (now : Time) (draws : Draws) (header : CommonHeader) (cookieData : Bytes)
    (src : SockAddr) (empty : ∀ k, s.find? k = none → NothingQueued s k) :
    Calm strict s (s.handleCookieEcho now draws header cookieData key src).2.2 := by
  unfold Socket.handleCookieEcho
  split
  · next cookie _ =>
    simp only
    split
    · next absent => exact createFromCookie s _ now draws header src cookie (empty _ absent)
    · next tcb found => exact acceptCookie s _ now draws header src cookie found
  · next cookie _ _ =>
    simp only
    split
    · exact reply s _ rfl
    · next tcb found =>
      split
      · exact acceptCookie s _ now draws header src cookie found
      · exact reply s _ rfl
  · exact refl s

theorem handleCookieAck (now : Time) (draws : Draws) :
    Calm strict s (s.handleCookieAck now draws key) := by
  unfold Socket.handleCookieAck
  cases found : s.find? key with
  | none => exact refl s
  | some assoc =>
    simp only
    split
    · exact refl s
    · next echoed =>
      rw [not_not] at echoed
      refine trans (trans (bringUp s key now draws fun a here => ?_) (cancel _ (by simp [timerOf])))
        (removeRetransmissionsOfType _ key none (by simp))
      rw [found] at here
      cases here
      rw [echoed]
      rfl

theorem handleError (causes : List ErrorCause) : Calm strict s (s.handleError causes key) := by
  unfold Socket.handleError
  split
  · exact refl s
  · cases found : s.find? key with
    | none => exact refl s
    | some assoc =>
      simp only
      split
      · exact notify s key _
      · next retry =>
        have echoed : assoc.state = .cookieEchoed := by
          by_contra other
          simp [Socket.staleCookieOutcome, other] at retry
        refine trans (trans ?_ (removeRetransmissionsOfType _ key none (by simp))) (control _ rfl)
        refine trans (set s key found ?_) (cancel _ ?_)
        · refine .of_eq rfl rfl rfl rfl rfl rfl rfl rfl (fun _ => ?_) (fun up => by cases up)
            fun _ => Nat.le_refl _
          rw [echoed]
          rfl
        · simp [timerOf]
      · refine trans (trans (trans ?_ (removeRetransmissionsOfType _ key none (by simp)))
          (removeAssociation _ key)) (notify _ key _)
        exact cancel s (by simp [timerOf])

/-! ## Control chunks -/

theorem handleAbort (causes : List ErrorCause) : Calm strict s (s.handleAbort causes key) := by
  unfold Socket.handleAbort
  split
  · exact refl s
  · refine trans (trans ?_ (removeAssociation _ key)) (notify _ key _)
    split
    · exact refl s
    · exact notify s key _

theorem handleHeartbeat (header : CommonHeader) (info : Bytes) (src : SockAddr) :
    Calm strict s (s.handleHeartbeat header info key src) := by
  unfold Socket.handleHeartbeat
  split
  · exact refl s
  · split
    · exact refl s
    · exact reply s key rfl

/-- A field of the association the sender does not read. -/
theorem updateErrorCount (f : Association → Nat) (when : Association → Prop) [DecidablePred when] :
    Calm strict s (s.updateAssociation key fun assoc =>
      if when assoc then { assoc with errorCount := f assoc } else assoc) := by
  refine update s key _ fun a _ => ?_
  split
  · exact .of_eq rfl rfl rfl rfl rfl rfl rfl rfl id Or.inl fun _ => Nat.le_refl _
  · exact .refl a

theorem creditHeartbeat (now : Time) (draws : Draws) (assoc : Association) (i : Nat) :
    Calm strict s (s.creditHeartbeat now draws key assoc i) := by
  have measured : SamePath fun path : PeerPath =>
      updateRto { path with hbOutstanding := false } (microsBetween path.hbSentAt now) :=
    fun path => by rw [updateRto_address]
  have updated : Calm strict s _ := updatePath s key i measured
  have cleared := (updated.trans (clearPathErrorsAt _ key assoc i)).trans
    (updateErrorCount _ key (fun _ => 0) fun assoc => dataPath assoc = i)
  have confirmed := ((cleared.trans
      (updatePath _ key i (f := fun path => { path with confirmed := true })
    fun _ => rfl)).trans
    (notify _ key (.peerAddrChange { (assoc.path i).address with port := key.address.port }
      .addrConfirmed))).trans
    (update _ key (fun assoc => planNextProbe assoc draws i now) fun a _ =>
      sameCore_planNextProbe a draws i now)
  unfold Socket.creditHeartbeat
  simp only
  split
  · refine trans ?_ (trans (armHeartbeat _ key i) (armConfirmationProbes _ key now))
    split
    · exact cleared
    · exact confirmed
  · split
    · exact cleared
    · exact confirmed

theorem handleHeartbeatAck (now : Time) (draws : Draws) (info : Bytes) :
    Calm strict s (s.handleHeartbeatAck now draws info key) := by
  unfold Socket.handleHeartbeatAck
  (repeat' split) <;> first | exact refl s | exact creditHeartbeat s key now draws _ _

theorem handleShutdownAck (header : CommonHeader) (src : SockAddr) :
    Calm strict s (s.handleShutdownAck header key src) := by
  unfold Socket.handleShutdownAck
  split
  · exact refl s
  · split
    · exact refl s
    · refine trans (trans (removeAssociation s key) ?_) (notify _ key _)
      exact reply _ key rfl

theorem handleShutdownComplete : Calm strict s (s.handleShutdownComplete key) := by
  unfold Socket.handleShutdownComplete
  split
  · exact refl s
  · split
    · exact refl s
    · exact trans (removeAssociation s key) (notify _ key _)

/-! ## Expiry -/

theorem handleT2Expiration (now : Time) : Calm strict s (s.handleT2Expiration now key) := by
  unfold Socket.handleT2Expiration
  cases found : s.find? key with
  | none => exact refl s
  | some assoc =>
    simp only
    split
    · exact refl s
    · have doubled : SameCore strict assoc { assoc.modifyPath (dataPath assoc) doubleRto with
          errorCount := assoc.errorCount + 1 } :=
        (SameCore.modifyPath assoc (dataPath assoc) (f := doubleRto) fun _ => rfl).trans
          (.of_eq rfl rfl rfl rfl rfl rfl rfl rfl id Or.inl fun _ => Nat.le_refl _)
      split
      · exact (set s key found doubled).trans (loseAssociation _ key)
      · refine ((set s key found doubled).trans (control _ ?_)).trans (restartT2 _ key now)
        split <;> rfl

theorem handleT5Expiration : Calm strict s (s.handleT5Expiration key) := by
  unfold Socket.handleT5Expiration
  split
  · exact refl s
  · split
    · exact refl s
    · refine trans (trans (removeAssociation s key) (control _ ?_)) (notify _ key _)
      rfl

theorem missHeartbeat (now : Time) (assoc : Association) (i : Nat) :
    Calm strict s (s.missHeartbeat now key assoc i).1 := by
  have doubled : Calm strict s _ := updatePath s key i
    (f := fun path => doubleRto { path with hbOutstanding := false }) fun _ => rfl
  have missed := (doubled.trans
    (countPathErrorAt _ key assoc i)).trans
    (updateErrorCount _ key (fun assoc => assoc.errorCount + 1)
      fun _ => ((assoc.path i).confirmed && dataPath assoc == i) = true)
  unfold Socket.missHeartbeat
  simp only
  split
  · exact missed.trans (armConfirmationProbes _ key now)
  · exact missed

theorem sendDueProbe (now : Time) (draws : Draws) (i : Nat) (probeNow : Bool) :
    Calm strict s (s.sendDueProbe now draws key i probeNow).1 := by
  unfold Socket.sendDueProbe
  split
  · exact refl s
  · next assoc _ =>
    split
    · simp only
      refine trans (trans ?_ (update _ key _ fun a _ => sameCore_planNextProbe a draws i now))
        (armHeartbeat _ key i)
      split
      · exact buildProbe s key now draws assoc i
      · exact refl s
    · exact armHeartbeat s key i

/-- A probe that is due carries no DATA. -/
theorem noData_sendDueProbe {now : Time} {draws : Draws} {i : Nat} {probeNow : Bool}
    {probe : Deliverable} (due : (s.sendDueProbe now draws key i probeNow).2 = some probe) :
    NoData probe.packet := by
  unfold Socket.sendDueProbe at due
  split at due
  · cases due
  · split at due
    · simp only at due
      split at due
      · cases due
        rfl
      · cases due
    · cases due

theorem handleHeartbeatExpiration (now : Time) (draws : Draws) (destination : SockAddr) :
    Calm strict s (s.handleHeartbeatExpiration now draws key destination) := by
  unfold Socket.handleHeartbeatExpiration
  split
  · exact refl s
  · next assoc _ =>
    split
    · exact refl s
    · split
      · exact refl s
      · next i _ =>
        simp only
        have missed : Calm strict s
            (if (assoc.path i).hbOutstanding = true then s.missHeartbeat now key assoc i
              else (s, false)).1 := by
          split
          · exact missHeartbeat s key now assoc i
          · exact refl s
        generalize (if (assoc.path i).hbOutstanding = true then s.missHeartbeat now key assoc i
          else (s, false)) = outcome at missed ⊢
        split
        · exact missed.trans (loseAssociation _ key)
        · refine missed.trans ?_
          generalize (Option.any _ (outcome.1.find? key)) = probeNow
          have probed : Calm strict outcome.1 _ := sendDueProbe outcome.1 key now draws i probeNow
          have none := @noData_sendDueProbe outcome.1 key now draws i probeNow
          cases due : outcome.1.sendDueProbe now draws key i probeNow with
          | mk s' probe =>
            rw [due] at probed none
            cases probe with
            | none => exact probed
            | some probe => exact probed.trans (control _ (none rfl))

theorem handleZeroWindowProbeExpiration :
    Calm strict s (s.handleZeroWindowProbeExpiration key) := by
  refine update s key _ fun a _ => ?_
  split
  · exact .of_eq rfl rfl rfl rfl rfl rfl rfl rfl id Or.inl fun _ => Nat.le_refl _
  · exact .refl a

theorem handleT1Expiration (isInit : Bool) {retry : Deliverable} (none : NoData retry.packet) :
    Calm strict s (s.handleT1Expiration key isInit retry) := by
  unfold Socket.handleT1Expiration
  cases found : s.find? key with
  | none => exact refl s
  | some assoc =>
    simp only
    by_cases other : assoc.state ≠ if isInit then .cookieWait else .cookieEchoed
    · rw [if_pos other]
      exact refl s
    · rw [if_neg other]
      by_cases spent : (if isInit then assoc.initRetransmits else assoc.cookieRetransmits)
        ≥ maxInitRetransmits
      · rw [if_pos spent]
        refine gone ?_ (by simp [Socket.notifyAssocChange])
        exact ((((CalmAside.erase s key).trans ((forgetPeerAddresses _ key).aside key)).trans
          ((notify _ key _).aside key)).trans (.cancelAll _ key))
      · rw [if_neg spent]
        refine trans (set s key found ?_) (Calm.retry _ none)
        split <;> exact .of_eq rfl rfl rfl rfl rfl rfl rfl rfl id Or.inl fun _ => Nat.le_refl _

end Calm

/-! ## DATA and the application -/

theorem SameCore.of_receiveOnly {a b : Association} (only : ReceiveOnly a b) :
    SameCore False a b := by
  unfold ReceiveOnly at only
  rw [only]
  exact .of_eq rfl rfl rfl rfl rfl rfl rfl rfl id Or.inl fun impossible => impossible.elim

theorem sameCore_acknowledgeData {strict : Prop} (s : Socket) (key : AssociationKey)
    (assoc : Association) (holeExisted : Bool) (loop : DataLoop) :
    SameCore strict assoc (s.acknowledgeData key assoc holeExisted loop).1 := by
  have acked : SameCore strict assoc (s.makeSack key assoc).2 :=
    .of_eq rfl rfl rfl rfl rfl rfl rfl rfl id Or.inl fun _ => Nat.le_refl _
  unfold Socket.acknowledgeData
  split
  · simp only
    split
    · exact acked
    · exact .refl assoc
  · split
    · exact .refl assoc
    · simp only
      split <;> exact .of_eq rfl rfl rfl rfl rfl rfl rfl rfl id Or.inl fun _ => Nat.le_refl _

namespace ReceiveQueue

/-- An entry of a key with fewer bytes that count, or none. -/
theorem bufferedBytes_replace_le {q : ReceiveQueue} {key : AssociationKey}
    {entry after : PendingMessages} (found : q.pending.get? key = some entry)
    (fewer : after.bytes - after.detached ≤ entry.bytes - entry.detached) (gone : Bool)
    (ready : List AssociationKey) (k : AssociationKey) :
    bufferedBytes ⟨if gone then q.pending.erase key else q.pending.put key after, ready⟩ k
      ≤ q.bufferedBytes k := by
  by_cases same : k = key
  · subst same
    rw [bufferedBytes_of_get? found]
    cases gone
    · simpa [bufferedBytes] using fewer
    · simp [bufferedBytes]
  · cases gone <;> simp [bufferedBytes, same]

theorem bufferedBytes_readLocked_le {q : ReceiveQueue} {key : AssociationKey}
    {entry : PendingMessages} {capacity : Nat} {read : Read} {q' : ReceiveQueue}
    (found : q.pending.get? key = some entry)
    (reads : q.readLocked key entry capacity = some (read, q')) (k : AssociationKey) :
    q'.bufferedBytes k ≤ q.bufferedBytes k := by
  unfold readLocked at reads
  split at reads
  · cases reads
  · next front rest _ =>
    cases reads
    refine bufferedBytes_replace_le found ?_ _ _ k
    simp only
    omega

theorem bufferedBytes_readAny_le (q : ReceiveQueue) (capacity : Nat) (k : AssociationKey) :
    (q.readAny capacity).2.bufferedBytes k ≤ q.bufferedBytes k := by
  unfold readAny
  split
  · exact Nat.le_refl _
  · next key ready _ =>
    split
    · exact Nat.le_refl _
    · next read q' reads =>
      obtain ⟨entry, found, reads'⟩ := Option.bind_eq_some_iff.mp reads
      have less := bufferedBytes_readLocked_le (q := { q with ready := ready }) found reads' k
      split <;> exact less

theorem bufferedBytes_readFrom_le (q : ReceiveQueue) (key : AssociationKey) (capacity : Nat)
    (k : AssociationKey) :
    (q.readFrom key capacity).2.bufferedBytes k ≤ q.bufferedBytes k := by
  unfold readFrom
  split
  · exact Nat.le_refl _
  · next read q' reads =>
    obtain ⟨entry, found, reads'⟩ := Option.bind_eq_some_iff.mp reads
    have less := bufferedBytes_readLocked_le found reads' k
    split <;> exact less

end ReceiveQueue

namespace Calm

variable {strict : Prop} (s : Socket) (key : AssociationKey)

theorem sendDataReply (now : Time) (destination : SockAddr) {reply : Socket.DataReply}
    (none : ∀ packet, reply = .shutdown packet → NoData packet) :
    Calm strict s (s.sendDataReply now key destination reply) := by
  cases reply with
  | shutdown packet =>
    exact ((cancel s (by simp [timerOf])).trans (control _ (none packet rfl))).trans
      (restartT2 _ key now)
  | sack => exact sendSack s key
  | delayedSack => exact schedule s _ (by simp [timerOf]) (noData_noRetry key)

/-- The SHUTDOWN in answer to DATA, with or without a SACK, carries none itself. -/
theorem noData_acknowledgeData {assoc : Association} {holeExisted : Bool} {loop : DataLoop}
    {packet : Packet} (reply : (s.acknowledgeData key assoc holeExisted loop).2
      = .shutdown packet) : NoData packet := by
  unfold Socket.acknowledgeData at reply
  split at reply
  · simp only at reply
    split at reply
    · cases reply
      rfl
    · cases reply
      rfl
  · split at reply
    · cases reply
    · simp only at reply
      split at reply <;> cases reply

theorem pushDeliveries (delivered : List Delivery) :
    Calm False s (s.pushDeliveries key delivered) :=
  of_same ⟨rfl, rfl, fun impossible => impossible.elim⟩ fun _ => rfl

theorem handleDataPacket (now : Time) (packet : Packet) (src : SockAddr)
    (acknowledgeImmediately : Bool) :
    Calm False s (s.handleDataPacket now packet key src acknowledgeImmediately) := by
  unfold Socket.handleDataPacket
  split
  · exact abortAssociation s key _ _ _
  · cases found : s.find? key with
    | none => exact refl s
    | some assoc =>
      simp only
      split
      · exact refl s
      · unfold Socket.receiveData
        simp only
        generalize taken : takeData packet.chunks
          (Socket.DataLoop.start s key assoc acknowledgeImmediately) = loop
        have only : ReceiveOnly assoc loop.st.assoc := by
          rw [← taken]
          exact takeData_only _ _
        have same : SameCore False assoc
            (s.acknowledgeData key loop.st.assoc (!assoc.tsnOooBuffer.isEmpty) loop).1 :=
          (SameCore.of_receiveOnly only).trans (sameCore_acknowledgeData s key _ _ loop)
        split
        · exact refl s
        · split
          · exact (set s key found same).trans (abortAssociation _ key _ _ _)
          · have pushed := (set s key found same).trans (pushDeliveries _ key loop.st.delivered)
            refine trans (pushed.trans ?_) (sendDataReply _ key now _ fun _ =>
              noData_acknowledgeData s key)
            split
            · exact refl _
            · exact reply _ key rfl

theorem reportUnrecognizedChunks (header : CommonHeader) (src : SockAddr)
    (causes : List ErrorCause) :
    Calm strict s (s.reportUnrecognizedChunks header key src causes) := by
  unfold Socket.reportUnrecognizedChunks
  split
  · exact refl s
  · split
    · exact refl s
    · simp only
      split
      · exact refl s
      · exact reply s key rfl

theorem extendShutdown (now : Time) : Calm strict s (s.extendShutdown now key) := by
  unfold Socket.extendShutdown
  cases found : s.find? key with
  | none => exact refl s
  | some assoc =>
    simp only
    split
    · refine trans (set s key found ?_) (restartT2 _ key now)
      exact .of_eq rfl rfl rfl rfl rfl rfl rfl rfl id Or.inl fun _ => Nat.le_refl _
    · exact refl s

/-- Every chunk but a SACK and a SHUTDOWN. -/
theorem handleChunk (now : Time) (draws : Draws) (header : CommonHeader) (src : SockAddr)
    {chunk : Chunk} (noSack : chunk.type ≠ .sack) (noShutdown : chunk.type ≠ .shutdown) :
    Calm strict s (s.handleChunk now draws header key src chunk) := by
  unfold Socket.handleChunk
  cases value : chunk.value with
  | init init => exact handleInit s key now draws header init src
  | initAck initAck => exact handleInitAck s key header initAck src
  | cookieAck => exact handleCookieAck s key now draws
  | sack sack => simp [Chunk.type, value] at noSack
  | opError causes => exact handleError s key causes
  | abort causes => exact handleAbort s key causes
  | heartbeat info => exact handleHeartbeat s key header info src
  | heartbeatAck info => exact handleHeartbeatAck s key now draws info
  | shutdown cumulativeTsnAck => simp [Chunk.type, value] at noShutdown
  | shutdownAck => exact handleShutdownAck s key header src
  | shutdownComplete => exact handleShutdownComplete s key
  | data | cookieEcho | unknown => exact refl s

/-- Every timer but T3-rtx. -/
theorem handleExpiration (now : Time) (draws : Draws) {fallback : ExpirationFallback}
    (other : fallback.key.type ≠ .t3Rtx) (none : NoData fallback.retry.packet) :
    Calm strict s (s.handleExpiration now draws fallback) := by
  unfold Socket.handleExpiration
  simp only
  split
  · next t3 => exact absurd t3 other
  · exact sendSack s _
  · exact handleHeartbeatExpiration s _ now draws _
  · exact handleT2Expiration s _ now
  · exact handleT5Expiration s _
  · exact handleZeroWindowProbeExpiration s _
  · exact handleT1Expiration s _ true none
  · exact handleT1Expiration s _ false none

/-! ### The calls of the application -/

theorem sctpAssociate (draws : Draws) (toAddress : SockAddr) (port : Port)
    (empty : ∀ k, s.find? k = none → NothingQueued s k) :
    Calm strict s (s.sctpAssociate draws toAddress port).2 := by
  unfold Socket.sctpAssociate
  split
  · exact refl s
  · simp only
    split
    · exact refl s
    · next unknown =>
      have absent : s.find? (peerKey toAddress port) = none := by
        by_contra here
        apply unknown
        have known : s.associations.contains (peerKey toAddress port) = true := by
          rw [KeyMap.contains, Option.isSome_iff_ne_none]
          exact here
        simp only [Socket.associationKeyFor, known, if_true]
      refine trans ?_ (control _ rfl)
      refine create (b := initNewAssociation draws toAddress) ⟨rfl, rfl, fun _ _ => Nat.le_refl _⟩
        ?_ ?_ (freshAssoc_initNewAssociation draws toAddress) (empty _ absent)
      · have lookup := KeyMap.get?_emplace s.associations (peerKey toAddress port)
          (peerKey toAddress port) (initNewAssociation draws toAddress)
        rw [if_pos rfl, show s.associations.get? (peerKey toAddress port) = none from absent]
          at lookup
        exact lookup
      · intro k apart
        have lookup := KeyMap.get?_emplace s.associations (peerKey toAddress port) k
          (initNewAssociation draws toAddress)
        rw [if_neg apart] at lookup
        exact lookup

theorem sctpSendData (data : Bytes) (stream : StreamId) (unordered : Bool) :
    Calm strict s (s.sctpSendData key data stream unordered).2 := by
  unfold Socket.sctpSendData
  cases found : s.find? key with
  | none => exact refl s
  | some assoc =>
    simp only
    split
    · exact set s key found (.of_eq rfl rfl rfl rfl rfl rfl rfl rfl id Or.inl fun _ =>
        Nat.le_refl _)
    · exact refl s

theorem sctpAbort (reason : Bytes) : Calm strict s (s.sctpAbort key reason).2 := by
  unfold Socket.sctpAbort
  split
  · exact refl s
  · simp only
    split
    · exact removeAssociation s key
    · refine (removeAssociation s key).trans (control _ ?_)
      rfl

/-- A read takes from what was received. -/
theorem reads {receives : ReceiveQueue}
    (fewer : ∀ k, receives.bufferedBytes k ≤ s.receives.bufferedBytes k) :
    Calm strict s { s with receives := receives } :=
  of_same ⟨rfl, rfl, fun _ => fewer⟩ fun _ => rfl

theorem sctpRecvData (capacity : Nat) : Calm strict s (s.sctpRecvData capacity).2 := by
  have fewer := s.receives.bufferedBytes_readAny_le capacity
  unfold Socket.sctpRecvData
  split
  · next receives outcome =>
    rw [outcome] at fewer
    exact reads s fewer
  · next read receives outcome =>
    rw [outcome] at fewer
    exact (reads s fewer).trans (maybeSendWindowUpdate _ _)

theorem sctpRecvDataFrom (capacity : Nat) : Calm strict s (s.sctpRecvDataFrom key capacity).2 := by
  have fewer := s.receives.bufferedBytes_readFrom_le key capacity
  unfold Socket.sctpRecvDataFrom
  split
  · next receives outcome =>
    rw [outcome] at fewer
    exact reads s fewer
  · next read receives outcome =>
    rw [outcome] at fewer
    exact (reads s fewer).trans (maybeSendWindowUpdate _ _)

theorem sctpShutdown (now : Time) : Calm strict s (s.sctpShutdown now key).2 := by
  unfold Socket.sctpShutdown
  cases found : s.find? key with
  | none => exact refl s
  | some assoc =>
    simp only
    split
    · refine gone ?_ (by simp)
      exact ((CalmAside.erase s key).trans ((forgetPeerAddresses _ key).aside key)).trans
        (.cancelAll _ key)
    · split
      · next up =>
        refine trans (set s key found ?_) (doNextShutdownStep _ key now)
        refine .of_eq rfl rfl rfl rfl rfl rfl rfl rfl (fun forms => by cases forms)
          (fun _ => Or.inl ?_)
          fun _ => Nat.le_refl _
        rw [up]
        rfl
      · exact refl s

theorem replanHeartbeat (now : Time) (draws : Draws) (i : Nat) :
    Calm strict s (s.replanHeartbeat now draws key i) := by
  unfold Socket.replanHeartbeat
  split
  · exact refl s
  · refine trans ?_ (armHeartbeat _ key i)
    split
    · exact refl s
    · exact planProbe s key now draws i

theorem sctpChangeHeartbeat (now : Time) (draws : Draws) (destination : SockAddr) (enabled : Bool)
    (interval : Option Int) : Calm strict s
      (s.sctpChangeHeartbeat now draws key destination enabled interval).2 := by
  unfold Socket.sctpChangeHeartbeat
  split
  · exact refl s
  · split
    · exact refl s
    · next changed _ =>
      have set' : Calm strict s (s.updateAssociation key fun assoc =>
          { assoc.modifyPath changed fun path => { path with hbEnabled := enabled } with
            hbInterval := interval.getD assoc.hbInterval }) := by
        refine update s key _ fun a _ => ?_
        exact (SameCore.modifyPath a changed (f := fun path => { path with hbEnabled := enabled })
          fun _ => rfl).trans (.of_eq rfl rfl rfl rfl rfl rfl rfl rfl id Or.inl fun _ =>
            Nat.le_refl _)
      simp only
      split
      · exact set'
      · exact (set'.trans (foldl _ (fun s i => replanHeartbeat s key now draws i) _)).trans
          (armConfirmationProbes _ key now)

theorem sctpRequestHeartbeat (now : Time) (draws : Draws) (destination : SockAddr) :
    Calm strict s (s.sctpRequestHeartbeat now draws key destination).2 := by
  unfold Socket.sctpRequestHeartbeat
  split
  · exact refl s
  · next assoc _ =>
    split
    · exact refl s
    · next i _ =>
      split
      · exact refl s
      · exact ((buildProbe s key now draws assoc i).trans (armHeartbeat _ key i)).trans
          (control _ rfl)

theorem sctpSetPrimary (destination : SockAddr) :
    Calm strict s (s.sctpSetPrimary key destination).2 := by
  unfold Socket.sctpSetPrimary
  cases found : s.find? key with
  | none => exact refl s
  | some assoc =>
    simp only
    split
    · exact refl s
    · split
      · exact refl s
      · exact set s key found (.of_eq rfl rfl rfl rfl rfl rfl rfl rfl id Or.inl fun _ =>
          Nat.le_refl _)

/-- Whatever the application calls. -/
theorem call {event : Event} {s s' : Socket} (called : System.call s event = some s')
    (empty : ∀ k, s.find? k = none → NothingQueued s k) : Calm strict s s' := by
  cases event with
  | associate draws toAddress port =>
    cases called
    exact sctpAssociate s draws toAddress port empty
  | sendData key data stream unordered =>
    cases called
    exact sctpSendData s key data stream unordered
  | abort key reason =>
    cases called
    exact sctpAbort s key reason
  | recvData capacity =>
    cases called
    exact sctpRecvData s capacity
  | recvDataFrom key capacity =>
    cases called
    exact sctpRecvDataFrom s key capacity
  | shutdown now key =>
    cases called
    exact sctpShutdown s key now
  | changeHeartbeat now draws key destination enabled interval =>
    cases called
    exact sctpChangeHeartbeat s key now draws destination enabled interval
  | requestHeartbeat now draws key destination =>
    cases called
    exact sctpRequestHeartbeat s key now draws destination
  | setPrimary key destination =>
    cases called
    exact sctpSetPrimary s key destination
  | subscribe type on =>
    cases called
    exact of_same ⟨rfl, rfl, fun _ _ => Nat.le_refl _⟩ fun _ => rfl
  | recvNotification =>
    cases called
    exact of_same ⟨rfl, rfl, fun _ _ => Nat.le_refl _⟩ fun _ => rfl
  | recv | expire | startSending | send => cases called

end Calm

end SctpStack
