import SctpStack.Sending

/-!
# What a step does to the sender it works on

`SenderStep` says it once for acknowledging, timing out and retransmitting: which
chunks are dropped from those outstanding, that the rest keep their data, and that
only outstanding chunks are queued to be sent again. The claims about the sender are
derived from it.
-/

namespace SctpStack

/-! ## Paths by address -/

theorem findPath_spec {a : Association} {address : SockAddr} {i : Nat}
    (found : findPath a address = some i) :
    i < a.peerAddressList.length ∧ (a.path i).address.addr = address.addr := by
  obtain ⟨bound, same, -⟩ := List.findIdx?_eq_some_iff_getElem.mp found
  refine ⟨bound, ?_⟩
  rw [Association.path, List.getD_eq_getElem _ _ bound]
  simpa [sameDestination] using same

theorem addr_mem_ips {a : Association} {i : Nat} (bound : i < a.peerAddressList.length) :
    (a.path i).address.addr ∈ a.ips := by
  rw [Association.path, List.getD_eq_getElem _ _ bound]
  exact List.mem_map_of_mem (List.getElem_mem bound)

/-- Two paths of one address are one path. -/
theorem PathsOk.index_eq {a : Association} (ok : PathsOk a) {i j : Nat}
    (boundI : i < a.peerAddressList.length) (boundJ : j < a.peerAddressList.length)
    (same : (a.path i).address.addr = (a.path j).address.addr) : i = j := by
  have lengthI : i < a.ips.length := by simpa [Association.ips] using boundI
  have lengthJ : j < a.ips.length := by simpa [Association.ips] using boundJ
  have equal : a.ips[i] = a.ips[j] := by
    simpa [Association.ips, Association.path, List.getD_eq_getElem, boundI, boundJ] using same
  exact (List.Nodup.getElem_inj_iff ok.distinct).mp equal

theorem primary_lt {a : Association} (ok : PathsOk a) : primary a < a.peerAddressList.length := by
  unfold primary
  cases found : findPath a a.primaryPath with
  | none => exact List.length_pos_iff.mpr ok.some
  | some i => exact (findPath_spec found).1

theorem dataPath_lt {a : Association} (ok : PathsOk a) : dataPath a < a.peerAddressList.length := by
  unfold dataPath
  simp only
  split
  · exact primary_lt ok
  · cases found : a.peerAddressList.findIdx? fun path => path.confirmed && path.active with
    | none => exact primary_lt ok
    | some i => exact (List.findIdx?_eq_some_iff_getElem.mp found).1

theorem retransmissionPath_lt {a : Association} (ok : PathsOk a) (last : SockAddr) :
    retransmissionPath a last < a.peerAddressList.length := by
  unfold retransmissionPath
  simp only
  split
  · exact dataPath_lt ok
  · cases found : ((List.range (a.peerAddressList.length - 1)).map fun step =>
        (dataPath a + (step + 1)) % a.peerAddressList.length).find?
        fun i => (a.path i).confirmed && (a.path i).active with
    | none => exact dataPath_lt ok
    | some i =>
      obtain ⟨step, -, rfl⟩ := List.mem_map.mp (List.mem_of_find?_eq_some found)
      exact Nat.mod_lt _ (List.length_pos_iff.mpr ok.some)

/-- The path of a chunk sent to one of the association's addresses. -/
theorem destinationOf_spec {a : Association} {o : OutstandingData}
    (placed : o.destination.addr ∈ a.ips) :
    destinationOf a o < a.peerAddressList.length
      ∧ (a.path (destinationOf a o)).address.addr = o.destination.addr := by
  obtain ⟨i, found⟩ := findPath_isSome placed
  rw [destinationOf, found]
  exact findPath_spec found

theorem findPath_eq_iff {a : Association} (ok : PathsOk a) {address : SockAddr} {i : Nat}
    (bound : i < a.peerAddressList.length) :
    findPath a address = some i ↔ (a.path i).address.addr = address.addr := by
  refine ⟨fun found => (findPath_spec found).2, fun same => ?_⟩
  have member : address.addr ∈ a.ips := same ▸ addr_mem_ips bound
  obtain ⟨j, found⟩ := findPath_isSome member
  obtain ⟨boundJ, sameJ⟩ := findPath_spec found
  rw [found, ok.index_eq bound boundJ (same.trans sameJ.symm)]

/-! ## Data on its way -/

/-- The data of an outstanding TSN. -/
def sentData (a : Association) (tsn : Tsn) : Option DataChunkValue :=
  (a.outstandingData.get? tsn).map OutstandingData.data

/-- Every chunk on its way fits a packet of its own. -/
def LightData (a : Association) :
    Prop := ∀ tsn data, sentData a tsn = some data → dataChunkWireSize data ≤ defaultPmdcs

theorem LightData.of_sentData {a b : Association} (light : LightData a)
    (fewer : ∀ tsn data, sentData b tsn = some data → sentData a tsn = some data) : LightData b :=
  fun tsn data sent => light tsn data (fewer tsn data sent)

/-- A step on the sender of an association `a`, which becomes `b`: `gone` are the TSNs
dropped from those outstanding. -/
structure SenderStep (key : AssociationKey) (gone : Tsn → Bool) (s s' : Socket)
    (a b : Association) : Prop where
  found : s'.find? key = some b
  aside : Aside True key s s'
  queues : QueuesOk s → QueuesOk s'
  fit : PathsOk a → LightData a → QueuesFit s → QueuesFit s'
  receives : s'.receives = s.receives
  held : heldBytes b = heldBytes a
  ips : b.ips = a.ips
  paths : PathsOk a → PathsOk b
  nextTsn : b.nextTsn = a.nextTsn
  burstCount : b.burstCount = a.burstCount
  transmits : transmitsData a.state = true → transmitsData b.state = true
  newData : newDataFor s' key = newDataFor s key
  sent : ∀ tsn, sentData b tsn = if gone tsn then none else sentData a tsn
  keys : b.outstandingData.keys.Sublist a.outstandingData.keys
  rtx : ∀ p ∈ rtxData s' key, (p ∈ rtxData s key ∧ gone p.2.tsn = false) ∨ ∃ tsn, sentData b tsn
    = some p.2

/-- Nothing is dropped. -/
abbrev keepAll : Tsn → Bool := fun _ => false

namespace SenderStep

variable {key : AssociationKey} {gone : Tsn → Bool} {s s' s'' : Socket} {a b c : Association}

theorem light (step : SenderStep key gone s s' a b) (light : LightData a) : LightData b := by
  refine light.of_sentData fun tsn data sent => ?_
  rw [step.sent] at sent
  split at sent
  · cases sent
  · exact sent

theorem trans (first : SenderStep key gone s s' a b) (second : SenderStep key keepAll s' s'' b c) :
    SenderStep key gone s s'' a c where
  found := second.found
  aside := first.aside.trans second.aside
  queues := second.queues ∘ first.queues
  fit := fun ok light fit => second.fit (first.paths ok) (first.light light)
    (first.fit ok light fit)
  receives := second.receives.trans first.receives
  held := second.held.trans first.held
  ips := second.ips.trans first.ips
  paths := second.paths ∘ first.paths
  nextTsn := second.nextTsn.trans first.nextTsn
  burstCount := second.burstCount.trans first.burstCount
  transmits := second.transmits ∘ first.transmits
  newData := second.newData.trans first.newData
  sent := by
    intro tsn
    rw [second.sent, if_neg (by simp), first.sent]
  keys := second.keys.trans first.keys
  rtx := by
    intro p member
    rcases second.rtx p member with ⟨before, -⟩ | ⟨tsn, here⟩
    · rcases first.rtx p before with old | ⟨tsn, here⟩
      · exact Or.inl old
      · refine Or.inr ⟨tsn, ?_⟩
        rw [second.sent, if_neg (by simp)]
        exact here
    · exact Or.inr ⟨tsn, here⟩

theorem refl (found : s.find? key = some a) : SenderStep key keepAll s s a a where
  found := found
  aside := .of_calm (.refl s)
  queues := id
  fit := fun _ _ => id
  receives := rfl
  held := rfl
  ips := rfl
  paths := id
  nextTsn := rfl
  burstCount := rfl
  transmits := id
  newData := rfl
  sent := fun tsn => by simp
  keys := List.Sublist.refl _
  rtx := fun p member => Or.inl ⟨member, rfl⟩

/-- A step that leaves the association as it is. -/
theorem of_queues (found : s'.find? key = some a) (aside : Aside True key s s')
    (queues : QueuesOk s → QueuesOk s') (fit : QueuesFit s → QueuesFit s')
    (receives : s'.receives = s.receives) (newData : newDataFor s' key = newDataFor s key)
    (rtx : ∀ p ∈ rtxData s' key, p ∈ rtxData s key) : SenderStep key keepAll s s' a a where
  found := found
  aside := aside
  queues := queues
  fit := fun _ _ => fit
  receives := receives
  held := rfl
  ips := rfl
  paths := id
  nextTsn := rfl
  burstCount := rfl
  transmits := id
  newData := newData
  sent := fun tsn => by simp
  keys := List.Sublist.refl _
  rtx := fun p member => Or.inl ⟨rtx p member, rfl⟩

end SenderStep

/-! ## T3-rtx -/

section T3

variable {s : Socket} {key : AssociationKey} {a : Association}

/-- Restarting the timer of an address: it runs iff something sent there is
unacknowledged. -/
theorem t3Active_restartT3 (now : Time) (destination : SockAddr) (found : s.find? key = some a)
    (ip : BitVec 32) :
    t3Active (s.restartT3 now key destination) key ip
      = if destination.addr = ip then (findPath a destination).any (hasUnacknowledgedData a)
        else t3Active s key ip := by
  have timer : (pathTimerOf key .t3Rtx destination = ⟨key, .t3Rtx, ⟨⟨ip, 0#16⟩⟩⟩) ↔
      destination.addr = ip := by
    simp [pathTimerOf, pathKey]
  unfold Socket.restartT3
  simp only [found, Option.bind_eq_bind, Option.bind_some]
  cases path : findPath a destination with
  | none =>
    rw [Option.bind_none]
    simp only [t3Active_cancel, ne_eq, timer, Option.any_none]
    split
    · next same => simp [same]
    · next other => simp [other]
  | some i =>
    rw [Option.bind_some]
    cases unacked : hasUnacknowledgedData a i with
    | true =>
      simp only [if_true, t3Active_schedule, timer, Option.any_some, unacked]
      split
      · next same => simp [same]
      · next other => simp [other]
    | false =>
      simp only [Bool.false_eq_true, if_false, t3Active_cancel, ne_eq, timer, Option.any_some,
        unacked]
      split
      · next same => simp [same]
      · next other => simp [other]

theorem restartT3_step (now : Time) (destination : SockAddr) (found : s.find? key = some a) :
    SenderStep key keepAll s (s.restartT3 now key destination) a a := by
  unfold Socket.restartT3
  simp only
  split
  · exact .of_queues found (Aside.cancel s rfl) (fun ok => ok.cancel _) (fun fit =>
      fit.of_sends rfl) rfl rfl fun _ => id
  · exact .of_queues found (Aside.schedule s _ _ rfl) (fun ok => ok.schedule _ _ rfl)
      (fun fit => fit.of_sends rfl) rfl rfl fun _ => id

theorem startT3IfStopped_step (now : Time) (destination : SockAddr) (found : s.find? key = some a) :
    SenderStep key keepAll s (s.startT3IfStopped now key destination) a a := by
  unfold Socket.startT3IfStopped
  split
  · exact .refl found
  · exact restartT3_step now destination found

theorem t3Active_startT3IfStopped (now : Time) (destination : SockAddr)
    (found : s.find? key = some a) (ip : BitVec 32) :
    t3Active (s.startT3IfStopped now key destination) key ip
      = (t3Active s key ip || decide (destination.addr = ip)
        && (findPath a destination).any (hasUnacknowledgedData a)) := by
  have timer : s.expirations.isActive (pathTimerOf key .t3Rtx destination)
      = t3Active s key destination.addr := rfl
  unfold Socket.startT3IfStopped
  rw [timer]
  split
  · next active =>
    by_cases same : destination.addr = ip
    · rw [← same, active]
      simp
    · simp [same]
  · next stopped =>
    rw [t3Active_restartT3 now destination found]
    by_cases same : destination.addr = ip
    · subst same
      simp [stopped]
    · simp [same]

theorem cancelT3_step (destination : SockAddr) (found : s.find? key = some a) :
    SenderStep key keepAll s (s.cancelExpiration (pathTimerOf key .t3Rtx destination)) a a :=
  .of_queues found (Aside.cancel s rfl) (fun ok => ok.cancel _) (fun fit => fit.of_sends rfl)
    rfl rfl fun _ => id

theorem t3Active_cancelT3 (destination : SockAddr) (ip : BitVec 32) :
    t3Active (s.cancelExpiration (pathTimerOf key .t3Rtx destination)) key ip
      = (decide (destination.addr ≠ ip) && t3Active s key ip) := by
  rw [t3Active_cancel]
  simp [pathTimerOf, pathKey]

end T3

/-! ## Retransmission -/

theorem dataChunks_buildData (srcPort desPort : Port) (tag : Tag) (chunks : List DataChunkValue) :
    (buildData srcPort desPort tag chunks).dataChunks = chunks := by
  unfold buildData packetWithHeader Packet.dataChunks
  simp [List.filterMap_map]

theorem onlyData_buildData (srcPort desPort : Port) (tag : Tag) (chunks : List DataChunkValue) :
    OnlyData (buildData srcPort desPort tag chunks) := by
  intro chunk member
  obtain ⟨data, -, rfl⟩ := List.mem_map.mp member
  rfl

/-- The chunks bundled are marked ones, bound where the packet goes. -/
theorem mem_bundleMarked {assoc : Association} {target size : Nat} {taken : Bool}
    {marked : List (Tsn × OutstandingData)} {entry : Tsn × OutstandingData}
    (member : entry ∈ bundleMarked assoc target size taken marked) :
    entry ∈ marked ∧ destinationOf assoc entry.2 = target := by
  induction marked generalizing size taken with
  | nil => cases member
  | cons first rest ih =>
    obtain ⟨tsn, outstanding⟩ := first
    unfold bundleMarked at member
    split at member
    · obtain ⟨inside, bound⟩ := ih member
      exact ⟨List.mem_cons_of_mem _ inside, bound⟩
    · next here =>
      simp only at member
      split at member
      · cases member
      · rcases List.mem_cons.mp member with rfl | later
        · exact ⟨List.mem_cons_self, not_not.mp here⟩
        · obtain ⟨inside, bound⟩ := ih later
          exact ⟨List.mem_cons_of_mem _ inside, bound⟩

theorem bundleMarked_sublist (assoc : Association) (target size : Nat) (taken : Bool)
    (marked : List (Tsn × OutstandingData)) :
    (bundleMarked assoc target size taken marked).Sublist marked := by
  induction marked generalizing size taken with
  | nil => exact .slnil
  | cons first rest ih =>
    unfold bundleMarked
    split
    · exact (ih _ _).cons first
    · simp only
      split
      · exact List.nil_sublist _
      · exact (ih _ _).cons_cons first

/-- The first chunk goes alone if need be, and the others as long as there is room. -/
theorem size_bundleMarked {assoc : Association} (pmdcs : assoc.pmdcs = defaultPmdcs)
    (target size : Nat) (taken : Bool) {marked : List (Tsn × OutstandingData)}
    (light : ∀ entry ∈ marked, dataChunkWireSize entry.2.data ≤ defaultPmdcs)
    (room : size ≤ sctpCommonHeaderSize + defaultPmdcs)
    (first : taken = false → size = sctpCommonHeaderSize) :
    size + ((bundleMarked assoc target size taken marked).map fun entry =>
      dataChunkWireSize entry.2.data).sum
      ≤ sctpCommonHeaderSize + defaultPmdcs := by
  induction marked generalizing size taken with
  | nil => exact room
  | cons entry rest ih =>
    obtain ⟨tsn, outstanding⟩ := entry
    have here : dataChunkWireSize outstanding.data ≤ defaultPmdcs := light _ List.mem_cons_self
    have later := fun entry member => light entry (List.mem_cons_of_mem _ member)
    unfold bundleMarked
    split
    · exact ih size taken later room first
    · simp only
      split
      · exact room
      · next fits =>
        have fit : size + dataChunkWireSize outstanding.data
            ≤ sctpCommonHeaderSize + defaultPmdcs := by
          cases taken with
          | false =>
            have := first rfl
            omega
          | true => simpa [pmdcs] using fits
        have more := ih _ true later fit (fun none => absurd none.symm Bool.false_ne_true)
        rw [List.map_cons, List.sum_cons, ← Nat.add_assoc]
        exact more

theorem mem_markedChunks {assoc : Association} {entry : Tsn × OutstandingData}
    (member : entry ∈ markedChunks assoc) :
    assoc.outstandingData.get? entry.1 = some entry.2 ∧ entry.2.pendingRetransmission = true
      ∧ entry.2.gapAcked = false := by
  obtain ⟨inside, marked⟩ := List.mem_filter.mp member
  rw [Bool.and_eq_true, Bool.not_eq_true'] at marked
  exact ⟨KeyMap.mem_entries.mp inside, marked⟩

/-- The association once a packet of marked chunks is queued. -/
def unmark (a : Association) (tsns : List Tsn) : Association :=
  { a with outstandingData := a.outstandingData.mapVals fun tsn outstanding =>
      if tsn ∈ tsns then { outstanding with pendingRetransmission := false } else outstanding }

/-- What scheduling marked chunks does, if it does anything: some of them, all bound to
one path, leave their mark for the queue. -/
theorem schedulePendingRetransmission_cases {s : Socket} {key : AssociationKey} {a : Association}
    (found : s.find? key = some a) (gated : Bool) :
    (s.schedulePendingRetransmission key gated = s
      ∧ ∀ first rest, markedChunks a = first :: rest → gated = true
      ∧ cwndOpen a (destinationOf a first.2) = false)
    ∨ ∃ (target : Nat) (bundle : List (Tsn × OutstandingData)),
        ((∀ entry ∈ bundle, entry ∈ markedChunks a ∧ destinationOf a entry.2 = target)
          ∧ (PathsOk a → LightData a → (bundle.map fun entry => dataChunkWireSize entry.2.data).sum
            ≤ defaultPmdcs)
          ∧ bundle.Sublist (markedChunks a))
        ∧ s.schedulePendingRetransmission key gated
          = (s.updateAssociation key fun a => unmark a (bundle.map Prod.fst)).enqueuePacket
              ⟨key, (a.path target).address,
              buildData s.localAddress.port key.address.port a.peerVerTag
                (bundle.map fun entry => entry.2.data)⟩ .retransmission := by
  unfold Socket.schedulePendingRetransmission
  simp only [found]
  cases marks : markedChunks a with
  | nil => exact Or.inl ⟨rfl, fun first rest impossible => by cases impossible⟩
  | cons first rest =>
    simp only
    split
    · next closed =>
      rw [Bool.and_eq_true, Bool.not_eq_true'] at closed
      refine Or.inl ⟨rfl, fun first' rest' same => ?_⟩
      cases same
      exact closed
    · refine Or.inr ⟨destinationOf a first.2,
        bundleMarked a (destinationOf a first.2) sctpCommonHeaderSize false (first :: rest),
        ⟨fun entry member => mem_bundleMarked member, fun ok light => ?_,
        bundleMarked_sublist _ _ _ _ _⟩, rfl⟩
      have marked : ∀ entry ∈ first :: rest, dataChunkWireSize entry.2.data ≤ defaultPmdcs := by
        intro entry member
        obtain ⟨here, -⟩ := mem_markedChunks (marks ▸ member)
        exact light entry.1 entry.2.data (congrArg (Option.map OutstandingData.data) here)
      have size := size_bundleMarked ok.pmdcs (destinationOf a first.2) sctpCommonHeaderSize false
        marked (Nat.le_add_right _ _) fun _ => rfl
      exact Nat.le_of_add_le_add_left size

theorem get?_unmark (a : Association) (tsns : List Tsn) (tsn : Tsn) :
    (unmark a tsns).outstandingData.get? tsn = (a.outstandingData.get? tsn).map fun outstanding =>
      if tsn ∈ tsns then { outstanding with pendingRetransmission := false } else outstanding := by
  simp [unmark]

theorem sentData_unmark (a : Association) (tsns : List Tsn) (tsn : Tsn) :
    sentData (unmark a tsns) tsn = sentData a tsn := by
  unfold sentData
  rw [get?_unmark, Option.map_map]
  congr 1
  funext outstanding
  simp only [Function.comp_apply]
  split <;> rfl

/-- The same TSNs are outstanding, and the same of them covered by a gap ack block. -/
def SameGaps (a b : Association) : Prop :=
  ∀ tsn, (b.outstandingData.get? tsn).map OutstandingData.gapAcked
    = (a.outstandingData.get? tsn).map OutstandingData.gapAcked

theorem schedulePendingRetransmission_step {s : Socket} {key : AssociationKey} {a : Association}
    (found : s.find? key = some a) (gated : Bool) :
    ∃ b, SenderStep key keepAll s (s.schedulePendingRetransmission key gated) a b
      ∧ b.state = a.state ∧ b.cumulativeTsnAck = a.cumulativeTsnAck
      ∧ (∀ i, hasUnacknowledgedData b i = hasUnacknowledgedData a i) ∧ SameGaps a b := by
  rcases schedulePendingRetransmission_cases found gated with ⟨same, -⟩ | ⟨target, bundle,
    ⟨from_, size, -⟩, made⟩
  · rw [same]
    exact ⟨a, .refl found, rfl, rfl, fun _ => rfl, fun _ => rfl⟩
  · rw [made]
    refine ⟨unmark a (bundle.map Prod.fst), ?_, rfl, rfl, fun i => ?_, fun tsn => ?_⟩
    · refine ⟨by simp [found], (Aside.update s key _).trans (.retransmit _ rfl), fun ok => ?_,
        fun ok light fit => ?_, rfl, rfl, rfl, fun ok => ⟨ok.some, ok.distinct, ok.pmdcs⟩, rfl,
          rfl, id, rfl, fun tsn => ?_,
        KeyMap.keys_filterMap _ _, fun p member => ?_⟩
      · have updated : QueuesOk (s.updateAssociation key fun a => unmark a (bundle.map Prod.fst)) :=
          ok.of_eq rfl rfl
        exact updated.retransmit (onlyData_buildData _ _ _ _)
      · have updated : QueuesFit (s.updateAssociation key fun a =>
          unmark a (bundle.map Prod.fst)) := fit.of_sends rfl
        refine updated.retransmit ?_
        rw [FitsPath, dataBytes, dataChunks_buildData, List.map_map]
        exact size ok light
      · simp [sentData_unmark]
      · rw [rtxData_retransmit, List.mem_append, if_pos rfl, dataChunks_buildData] at member
        rcases member with old | new
        · exact Or.inl ⟨old, rfl⟩
        · simp only [List.map_map, List.mem_map, Function.comp_apply] at new
          obtain ⟨entry, inside, rfl⟩ := new
          obtain ⟨here, -⟩ := mem_markedChunks (from_ entry inside).1
          refine Or.inr ⟨entry.1, ?_⟩
          rw [sentData_unmark, sentData, here]
          rfl
    · unfold hasUnacknowledgedData unmark
      simp only [KeyMap.entries_mapVals, List.any_map]
      congr 1
      funext entry
      simp only [Function.comp_apply]
      split <;> rfl
    · rw [get?_unmark, Option.map_map]
      congr 1
      funext outstanding
      simp only [Function.comp_apply]
      split <;> rfl

/-! ## Acknowledgements -/

/-- Of an association, only what is outstanding, what is acknowledged and the windows
of its paths changed. -/
structure SameFrame (a b : Association) : Prop where
  nextTsn : b.nextTsn = a.nextTsn
  burstCount : b.burstCount = a.burstCount
  state : b.state = a.state
  held : heldBytes b = heldBytes a
  ips : b.ips = a.ips
  paths : PathsOk a → PathsOk b

namespace SameFrame

variable {a b c : Association}

theorem trans (first : SameFrame a b) (second : SameFrame b c) : SameFrame a c :=
  ⟨second.nextTsn.trans first.nextTsn, second.burstCount.trans first.burstCount,
    second.state.trans first.state, second.held.trans first.held, second.ips.trans first.ips,
    second.paths ∘ first.paths⟩

theorem of_paths (nextTsn : b.nextTsn = a.nextTsn) (burstCount : b.burstCount = a.burstCount)
    (state : b.state = a.state) (held : heldBytes b = heldBytes a) (pmdcs : b.pmdcs = a.pmdcs)
    (paths : b.peerAddressList = a.peerAddressList) : SameFrame a b where
  nextTsn := nextTsn
  burstCount := burstCount
  state := state
  held := held
  ips := by rw [Association.ips, paths, Association.ips]
  paths := fun ok => ⟨by rw [paths]; exact ok.some, by
    rw [Association.ips, paths]; exact ok.distinct, pmdcs.trans ok.pmdcs⟩

theorem modifyPath (a : Association) (i : Nat) {f : PeerPath → PeerPath} (same : SamePath f) :
    SameFrame a (a.modifyPath i f) :=
  ⟨rfl, rfl, rfl, rfl, ips_modifyPath a i same, fun ok => ok.modifyPath i same⟩

/-- Every path changed, keeping its address. -/
theorem mapIdx (a : Association) {f : Nat → PeerPath → PeerPath}
    (addr : ∀ i path, (f i path).address.addr = path.address.addr) :
    SameFrame a { a with peerAddressList := a.peerAddressList.mapIdx f } := by
  have ips : Association.ips { a with peerAddressList := a.peerAddressList.mapIdx f } = a.ips := by
    simp only [Association.ips]
    apply List.ext_getElem?
    intro n
    simp only [List.getElem?_map, List.getElem?_mapIdx, Option.map_map]
    congr 1
    funext path
    exact addr n path
  refine ⟨rfl, rfl, rfl, rfl, ips, fun ok => ⟨?_, ?_, ok.pmdcs⟩⟩
  · intro none
    exact ok.some (List.mapIdx_eq_nil_iff.mp none)
  · rw [ips]
    exact ok.distinct

end SameFrame

/-- What a SACK leaves of an entry once missing reports are counted. -/
def sackEntry (before : Association) (sack : SackChunkValue) (tsn : Tsn)
    (outstanding : OutstandingData) :
    Option OutstandingData :=
  (ackEntry sack tsn outstanding).map (missEntry (missingBelow before sack)
    ((before.outstandingData.entries.filter (reneges sack)).map Prod.fst) tsn)

theorem growCwnd_address (recovering : Bool) (pmdcs bytesAcked duplicate flight : Nat)
    (path : PeerPath) :
    (growCwnd recovering pmdcs path bytesAcked duplicate flight).address = path.address := by
  unfold growCwnd
  simp only
  (repeat' split) <;> rfl

theorem ackPath_address (before : Association) (sack : SackChunkValue) (remaining : Association)
    (duplicates : List (Nat × Nat)) (i : Nat) (path : PeerPath) :
    (ackPath before sack remaining duplicates i path).address = path.address := by
  unfold ackPath
  simp only
  (repeat' split) <;> simp [growCwnd_address, clearPathErrors]

theorem acknowledgeEntries_frame (a : Association) (sack : SackChunkValue) (now : Time) :
    SameFrame a (acknowledgeEntries a sack now) := by
  unfold acknowledgeEntries
  simp only
  cases rttSample a sack with
  | none => exact .of_paths rfl rfl rfl rfl rfl rfl
  | some sample =>
    refine (SameFrame.modifyPath a sample.1 (f := fun path =>
      updateRto path (microsBetween sample.2 now))
      fun path => by rw [updateRto_address]).trans ?_
    exact .of_paths rfl rfl rfl rfl rfl rfl

theorem updateWindows_frame (before : Association) (sack : SackChunkValue) (a : Association) :
    SameFrame a (updateWindows before sack a) := by
  unfold updateWindows
  simp only
  refine SameFrame.trans (b := { a with
    ackedRetransmissions := (duplicateBytes a sack.duplicateTsns a.ackedRetransmissions).2 }) ?_ ?_
  · exact .of_paths rfl rfl rfl rfl rfl rfl
  · refine SameFrame.mapIdx _ fun i path => ?_
    rw [ackPath_address]

theorem enterFastRecovery_frame (marked : List (Tsn × OutstandingData)) (a : Association) :
    SameFrame a (enterFastRecovery marked a) := by
  unfold enterFastRecovery
  simp only
  refine SameFrame.trans (SameFrame.mapIdx a (f := fun i path =>
    if i ∈ marked.map fun entry => destinationOf a entry.2 then halveCwnd a.pmdcs path else path)
    fun i path => ?_) ?_
  · split <;> rfl
  · exact .of_paths rfl rfl rfl rfl rfl rfl

theorem finishSack_frame (sack : SackChunkValue) (a : Association) :
    SameFrame a (finishSack sack a) := by
  unfold finishSack
  simp only
  (repeat' split) <;> exact .of_paths rfl rfl rfl rfl rfl rfl

theorem finishSack_outstandingData (sack : SackChunkValue) (a : Association) :
    (finishSack sack a).outstandingData = a.outstandingData := by
  unfold finishSack
  simp only
  (repeat' split) <;> rfl

theorem finishSack_cumulativeTsnAck (sack : SackChunkValue) (a : Association) :
    (finishSack sack a).cumulativeTsnAck = a.cumulativeTsnAck := by
  unfold finishSack
  simp only
  (repeat' split) <;> rfl

theorem applySack_frame (a : Association) (sack : SackChunkValue) (now : Time) :
    SameFrame a (applySack a sack now).assoc := by
  unfold applySack
  simp only
  refine SameFrame.trans ?_ (finishSack_frame sack _)
  have counted : SameFrame a
      (countMissing a sack (updateWindows a sack (acknowledgeEntries a sack now))) :=
    ((acknowledgeEntries_frame a sack now).trans (updateWindows_frame a sack _)).trans
      (.of_paths rfl rfl rfl rfl rfl rfl)
  split
  · exact counted.trans (enterFastRecovery_frame _ _)
  · exact counted

theorem applySack_cumulativeTsnAck (a : Association) (sack : SackChunkValue) (now : Time) :
    (applySack a sack now).assoc.cumulativeTsnAck = sack.cumulativeTsnAck := by
  unfold applySack
  simp only [finishSack_cumulativeTsnAck]
  split <;> rfl

theorem get?_applySack (a : Association) (sack : SackChunkValue) (now : Time) (tsn : Tsn) :
    (applySack a sack now).assoc.outstandingData.get? tsn
      = (a.outstandingData.get? tsn).bind (sackEntry a sack tsn) := by
  have counted : (countMissing a
      sack (updateWindows a sack (acknowledgeEntries a sack now))).outstandingData.get? tsn
      = (a.outstandingData.get? tsn).bind (sackEntry a sack tsn) := by
    have acked : (updateWindows a sack (acknowledgeEntries a sack now)).outstandingData
        = a.outstandingData.filterMap (ackEntry sack) := rfl
    unfold countMissing
    simp only [KeyMap.get?_mapVals, acked, KeyMap.get?_filterMap]
    cases a.outstandingData.get? tsn <;> rfl
  unfold applySack
  simp only [finishSack_outstandingData]
  split
  · exact counted
  · exact counted

/-- Counting a missing report changes neither the data nor where it went, and takes no
mark away. -/
theorem missEntry_spec (reported : Option Tsn) (reneged : List Tsn) (tsn : Tsn)
    (o : OutstandingData) :
    (missEntry reported reneged tsn o).data = o.data
      ∧ (missEntry reported reneged tsn o).destination = o.destination
      ∧ (missEntry reported reneged tsn o).gapAcked = o.gapAcked
      ∧ (o.pendingRetransmission = true → (missEntry reported reneged tsn o).pendingRetransmission
        = true) := by
  unfold missEntry
  split
  · exact ⟨rfl, rfl, rfl, id⟩
  · simp only
    generalize (if (reportedMissing reported tsn && !decide (tsn ∈ reneged)) = true
      then o.missingReports + 1
      else o.missingReports) = reports
    split
    · exact ⟨rfl, rfl, rfl, fun _ => rfl⟩
    · exact ⟨rfl, rfl, rfl, id⟩

/-- What is dropped lies at or below the Cumulative TSN Ack; the rest keeps its data and
its destination. -/
theorem sackEntry_spec (a : Association) (sack : SackChunkValue) (tsn : Tsn) (o : OutstandingData) :
    (tsnLte tsn sack.cumulativeTsnAck = true ∧ sackEntry a sack tsn o = none)
    ∨ ∃ o', tsnLte tsn sack.cumulativeTsnAck = false ∧ sackEntry a sack tsn o = some o'
    ∧ o'.data = o.data
        ∧ o'.destination = o.destination ∧ o'.gapAcked = sackAcknowledges sack tsn
        ∧ (sackAcknowledges sack tsn = false → o.pendingRetransmission = true →
          o'.pendingRetransmission = true) := by
  unfold sackEntry ackEntry
  generalize missingBelow a sack = reported
  generalize (a.outstandingData.entries.filter (reneges sack)).map Prod.fst = reneged
  cases below : tsnLte tsn sack.cumulativeTsnAck with
  | true => exact Or.inl ⟨rfl, by simp⟩
  | false =>
    refine Or.inr ?_
    simp only [Bool.false_eq_true, if_false]
    split
    · next acked =>
      obtain ⟨data, destination, gapAcked, -⟩ := missEntry_spec reported reneged tsn
        { o with gapAcked := true, pendingRetransmission := false }
      exact ⟨_, trivial, rfl, data, destination, by rw [gapAcked, acked], fun none => by
        rw [acked] at none; cases none⟩
    · next unacked =>
      rw [Bool.not_eq_true] at unacked
      split
      · obtain ⟨data, destination, gapAcked, marked⟩ := missEntry_spec reported reneged tsn
          { o with gapAcked := false, missingReports :=
            if o.fastRetransmitted = true then o.missingReports else o.missingReports + 1 }
        exact ⟨_, trivial, rfl, data, destination, by rw [gapAcked, unacked], fun _ => marked⟩
      · next open_ =>
        rw [Bool.not_eq_true] at open_
        obtain ⟨data, destination, gapAcked, marked⟩ := missEntry_spec reported reneged tsn o
        exact ⟨_, trivial, rfl, data, destination, by rw [gapAcked, unacked, open_],
          fun _ => marked⟩

theorem sentData_applySack (a : Association) (sack : SackChunkValue) (now : Time) (tsn : Tsn) :
    sentData (applySack a sack now).assoc tsn
      = if tsnLte tsn sack.cumulativeTsnAck then none else sentData a tsn := by
  unfold sentData
  rw [get?_applySack]
  cases a.outstandingData.get? tsn with
  | none => simp
  | some o =>
    rcases sackEntry_spec a sack tsn o with ⟨below, gone⟩ | ⟨o', above, left, data, -⟩
    · simp [below, gone]
    · simp [above, left, data]

theorem keys_applySack (a : Association) (sack : SackChunkValue) (now : Time) :
    (applySack a sack now).assoc.outstandingData.keys.Sublist a.outstandingData.keys := by
  have counted : (countMissing a sack (updateWindows a sack
      (acknowledgeEntries a sack now))).outstandingData.keys.Sublist a.outstandingData.keys :=
    (KeyMap.keys_filterMap _ _).trans (KeyMap.keys_filterMap _ _)
  unfold applySack
  simp only [finishSack_outstandingData]
  split
  · exact counted
  · exact counted

/-- Notifications are all that reporting paths available changes. -/
theorem notifyAcked_eq (s : Socket) (key : AssociationKey) (before : Association)
    (sack : SackChunkValue) :
    ∃ notifications, s.notifyAcked key before sack = { s with notifications := notifications } := by
  unfold Socket.notifyAcked
  induction List.range before.peerAddressList.length generalizing s with
  | nil => exact ⟨_, rfl⟩
  | cons i rest ih =>
    rw [List.foldl_cons]
    obtain ⟨notifications, same⟩ :=
      ih (s.notifyIf ((sentTo before i).any (newlyAcks sack) && !(before.path i).active)
        key (before.path i).address .addrAvailable)
    rw [same]
    unfold Socket.notifyIf
    split <;> exact ⟨_, rfl⟩

/-- A SACK's acknowledgements, before it moves timers or retransmits. -/
def Socket.acknowledgeSack (s : Socket) (now : Time) (sack : SackChunkValue) (key : AssociationKey)
    (assoc : Association) : Socket :=
  ((s.setAssociation key (applySack assoc sack now).assoc).notifyAcked key assoc
    sack).removeAckedRetransmissions key sack

/-- A SACK never acknowledges less than its Cumulative TSN Ack. -/
theorem sackAcknowledges_of_below {sack : SackChunkValue} {tsn : Tsn}
    (below : tsnLte tsn sack.cumulativeTsnAck = true) : sackAcknowledges sack tsn = true := by
  simp [sackAcknowledges, below]

section Acknowledge

variable (s : Socket) (key : AssociationKey) (a : Association)

theorem acknowledgeSack_rtx (now : Time) (sack : SackChunkValue) :
    rtxData (s.acknowledgeSack now sack key a) key
      = (rtxData s key).filter fun p => !sackAcknowledges sack p.2.tsn := by
  unfold Socket.acknowledgeSack
  obtain ⟨notifications, same⟩ := notifyAcked_eq (s.setAssociation key (applySack a sack now).assoc)
    key a sack
  rw [rtxData_removeAcked, same]
  rfl

theorem acknowledgeSack_step (now : Time) (sack : SackChunkValue) :
    SenderStep key (fun tsn => tsnLte tsn sack.cumulativeTsnAck)
      s (s.acknowledgeSack now sack key a) a (applySack a sack now).assoc := by
  have frame := applySack_frame a sack now
  have rtx := acknowledgeSack_rtx s key a now sack
  unfold Socket.acknowledgeSack at rtx ⊢
  obtain ⟨notifications, same⟩ := notifyAcked_eq (s.setAssociation key (applySack a sack now).assoc)
    key a sack
  rw [same] at rtx ⊢
  have aside : Aside True key s { s.setAssociation key (applySack a sack now).assoc with
      notifications := notifications } := by
    intro k apart
    exact .kept (by simp [Socket.find?, Socket.setAssociation, apart]) ⟨rfl, rfl⟩ fun _ => rfl
  refine ⟨(s.find?_setAssociation key key _).trans (if_pos rfl),
    aside.trans (.removeAcked _ key sack), fun ok => ?_,
    fun _ _ fit => ?_, rfl, frame.held, frame.ips, frame.paths, frame.nextTsn, frame.burstCount,
      ?_, rfl, sentData_applySack a sack now,
    keys_applySack a sack now, fun p member => ?_⟩
  · have set : QueuesOk { s.setAssociation key (applySack a sack now).assoc
      with notifications := notifications } :=
      ok.of_eq rfl rfl
    exact set.dropped
  · have set : QueuesFit { s.setAssociation key (applySack a sack now).assoc
      with notifications := notifications } :=
      fit.of_sends rfl
    exact set.dropped
  · rw [frame.state]
    exact id
  · rw [rtx, List.mem_filter] at member
    refine Or.inl ⟨member.1, ?_⟩
    by_contra below
    rw [Bool.not_eq_false] at below
    simp [sackAcknowledges_of_below below] at member

theorem acknowledgeSack_t3 (now : Time) (sack : SackChunkValue) (ip : BitVec 32) :
    t3Active (s.acknowledgeSack now sack key a) key ip = t3Active s key ip := by
  unfold Socket.acknowledgeSack
  obtain ⟨notifications, same⟩ := notifyAcked_eq (s.setAssociation key (applySack a sack now).assoc)
    key a sack
  rw [same]
  rfl

end Acknowledge

/-! ### The timers afterwards -/

section Actions

variable {s : Socket} {key : AssociationKey} {a : Association}

theorem runT3Action_step (now : Time) (action : SockAddr × T3Action)
    (found : s.find? key = some a) :
    SenderStep key keepAll s (s.runT3Action now key action) a a := by
  unfold Socket.runT3Action
  split
  · exact cancelT3_step _ found
  · exact restartT3_step now _ found
  · exact startT3IfStopped_step now _ found

theorem runT3Actions_step (now : Time) (actions : List (SockAddr × T3Action))
    (found : s.find? key = some a) :
    SenderStep key keepAll s (actions.foldl (fun s action => s.runT3Action now key action) s) a
      a := by
  induction actions generalizing s with
  | nil => exact .refl found
  | cons action rest ih =>
    have first := runT3Action_step now action found
    exact first.trans (ih first.found)

theorem rtxData_runT3Actions (now : Time) (actions : List (SockAddr × T3Action)) :
    rtxData (actions.foldl (fun s action => s.runT3Action now key action) s) key
      = rtxData s key := by
  induction actions generalizing s with
  | nil => rfl
  | cons action rest ih =>
    rw [List.foldl_cons, ih]
    unfold Socket.runT3Action Socket.startT3IfStopped Socket.restartT3
    simp only
    (repeat' split) <;> rfl

/-- An address with something unacknowledged is timed once the actions are done, if it
was or if one of them is about it, and none of them stops it. -/
theorem t3Active_runT3Actions (now : Time) {actions : List (SockAddr × T3Action)}
    (found : s.find? key = some a) (ok : PathsOk a) {i : Nat} (bound : i < a.peerAddressList.length)
    (unacked : hasUnacknowledgedData a i = true)
    (running : ∀ action ∈ actions, action.1.addr = (a.path i).address.addr → action.2 ≠ .stop)
    (timed : t3Active s key (a.path i).address.addr = true
      ∨ ∃ action ∈ actions, action.1.addr = (a.path i).address.addr) :
    t3Active (actions.foldl (fun s action => s.runT3Action now key action) s)
      key (a.path i).address.addr = true := by
  induction actions generalizing s with
  | nil => simpa using timed
  | cons action rest ih =>
    rw [List.foldl_cons]
    refine ih (runT3Action_step now action found).found
      (fun later member => running later (List.mem_cons_of_mem _ member)) ?_
    by_cases here : action.1.addr = (a.path i).address.addr
    · refine Or.inl ?_
      have path : findPath a action.1 = some i := (findPath_eq_iff ok bound).mpr here.symm
      have moves := running action List.mem_cons_self here
      unfold Socket.runT3Action
      split
      · next stop => exact absurd stop moves
      · rw [t3Active_restartT3 now _ found, if_pos here, path]
        exact unacked
      · rw [t3Active_startT3IfStopped now _ found, path]
        simp [here, unacked]
    · rcases timed with active | ⟨later, member, same⟩
      · refine Or.inl ?_
        unfold Socket.runT3Action
        split
        · rw [t3Active_cancelT3]
          simp [here, active]
        · rw [t3Active_restartT3 now _ found, if_neg here]
          exact active
        · rw [t3Active_startT3IfStopped now _ found, active]
          rfl
      · rcases List.mem_cons.mp member with rfl | inside
        · exact absurd same here
        · exact Or.inr ⟨later, inside, same⟩

end Actions

/-- What `acceptSack` does before it looks at the shutdown. -/
def Socket.settleSack (s : Socket) (now : Time) (sack : SackChunkValue) (key : AssociationKey)
    (assoc : Association) : Socket :=
  (s.t3Actions key assoc sack (applySack assoc sack now)).foldl (fun s action =>
    s.runT3Action now key action) (if (applySack assoc sack now).enteredFastRecovery then
      (s.acknowledgeSack now sack key assoc).schedulePendingRetransmission key false
    else s.acknowledgeSack now sack key assoc)

theorem acceptSack_eq (s : Socket) (now : Time) (sack : SackChunkValue) (key : AssociationKey)
    (assoc : Association) :
    s.acceptSack now sack key assoc = (s.settleSack now sack key assoc).doNextShutdownStep now
      key := rfl

theorem settleSack_step (s : Socket) (key : AssociationKey) (a : Association) (now : Time)
    (sack : SackChunkValue) :
    ∃ b, SenderStep key (fun tsn => tsnLte tsn sack.cumulativeTsnAck)
      s (s.settleSack now sack key a) a b
      ∧ b.state = a.state ∧ b.cumulativeTsnAck = sack.cumulativeTsnAck := by
  have acked := acknowledgeSack_step s key a now sack
  have state := (applySack_frame a sack now).state
  have cumulative := applySack_cumulativeTsnAck a sack now
  unfold Socket.settleSack
  split
  · obtain ⟨b, step, state', cumulative', -⟩ := schedulePendingRetransmission_step acked.found false
    have scheduled := acked.trans step
    exact ⟨b, scheduled.trans (runT3Actions_step now _ scheduled.found), state'.trans state,
      cumulative'.trans cumulative⟩
  · exact ⟨_, acked.trans (runT3Actions_step now _ acked.found), state, cumulative⟩

/-! ## SHUTDOWN -/

/-- Nothing but one association changed, and what is told about it. -/
structure Rewritten (key : AssociationKey) (s s' : Socket) (b : Association) : Prop where
  sends : s'.sends = s.sends
  expirations : s'.expirations = s.expirations
  receives : s'.receives = s.receives
  found : s'.find? key = some b
  others : ∀ k, k ≠ key → s'.find? k = s.find? k

namespace Rewritten

variable {key : AssociationKey} {s s' s'' : Socket} {a b c : Association}

theorem trans (first : Rewritten key s s' b) (second : Rewritten key s' s'' c) :
    Rewritten key s s'' c :=
  ⟨second.sends.trans first.sends, second.expirations.trans first.expirations,
    second.receives.trans first.receives, second.found, fun k apart =>
      (second.others k apart).trans (first.others k apart)⟩

theorem refl (found : s.find? key = some a) : Rewritten key s s a :=
  ⟨rfl, rfl, rfl, found, fun _ _ => rfl⟩

theorem update (found : s.find? key = some a) (f : Association → Association) :
    Rewritten key s (s.updateAssociation key f) (f a) :=
  ⟨rfl, rfl, rfl, by simp [found], fun k apart => by simp [apart]⟩

theorem notify (found : s.find? key = some a) (payload : NotificationPayload) :
    Rewritten key s (s.notify key payload) a := ⟨rfl, rfl, rfl, found, fun _ _ => rfl⟩

theorem aside (rewritten : Rewritten key s s' b) : Aside True key s s' := by
  intro k apart
  refine .kept (rewritten.others k apart) ?_ fun ip => ?_
  · simp only [SameQueued, newDataFor, rtxData, rewritten.sends, and_self]
  · simp only [t3Active, rewritten.expirations]

theorem newData (rewritten : Rewritten key s s' b) (k : AssociationKey) :
    newDataFor s' k = newDataFor s k := by
  simp only [newDataFor, rewritten.sends]

theorem rtx (rewritten : Rewritten key s s' b) (k : AssociationKey) :
    rtxData s' k = rtxData s k := by
  simp only [rtxData, rewritten.sends]

theorem t3 (rewritten : Rewritten key s s' b) (k : AssociationKey) (ip : BitVec 32) :
    t3Active s' k ip = t3Active s k ip := by
  simp only [t3Active, rewritten.expirations]

theorem clearPathErrorsAt (found : s.find? key = some a) (i : Nat) :
    Rewritten key s (s.clearPathErrorsAt key a i) (a.modifyPath i fun path =>
      (clearPathErrors path).1) := by
  have updated := update found fun a => a.modifyPath i fun path => (clearPathErrors path).1
  unfold Socket.clearPathErrorsAt Socket.notifyIf
  simp only
  split
  · exact updated.trans (notify updated.found _)
  · exact updated

theorem countPathErrorAt (found : s.find? key = some a) (read : Association) (i : Nat) :
    Rewritten key s (s.countPathErrorAt key read i) (a.modifyPath i fun path =>
      (countPathError path).1) := by
  have updated := update found fun a => a.modifyPath i fun path => (countPathError path).1
  unfold Socket.countPathErrorAt Socket.notifyIf
  simp only
  split
  · exact updated.trans (notify updated.found _)
  · exact updated

/-- Nothing outstanding is dropped. -/
theorem step (rewritten : Rewritten key s s' b) (frame : SameFrame a b)
    (transmits : transmitsData a.state = true → transmitsData b.state = true)
    (sent : ∀ tsn, sentData b tsn = sentData a tsn)
    (keys : b.outstandingData.keys.Sublist a.outstandingData.keys) :
    SenderStep key keepAll s s' a b where
  found := rewritten.found
  aside := rewritten.aside
  queues := fun ok => ok.of_eq rewritten.sends rewritten.expirations
  fit := fun _ _ fit => fit.of_sends rewritten.sends
  receives := rewritten.receives
  held := frame.held
  ips := frame.ips
  paths := frame.paths
  nextTsn := frame.nextTsn
  burstCount := frame.burstCount
  transmits := transmits
  newData := rewritten.newData key
  sent := fun tsn => by simp [sent]
  keys := keys
  rtx := fun p member => Or.inl ⟨by rwa [rewritten.rtx] at member, rfl⟩

end Rewritten

/-- Clearing the errors of paths, one after the other. -/
theorem clearPathErrors_rewritten {s : Socket} {key : AssociationKey} {a : Association}
    (found : s.find? key = some a) (paths : List Nat) :
    ∃ b, Rewritten key s (paths.foldl (fun s i => (s.find? key).elim s fun current =>
        s.clearPathErrorsAt key current i) s) b
      ∧ SameFrame a b ∧ b.outstandingData = a.outstandingData ∧ b.cumulativeTsnAck
        = a.cumulativeTsnAck := by
  induction paths generalizing s a with
  | nil => exact ⟨a, .refl found, .of_paths rfl rfl rfl rfl rfl rfl, rfl, rfl⟩
  | cons i rest ih =>
    rw [List.foldl_cons, found, Option.elim_some]
    have first := Rewritten.clearPathErrorsAt found i
    obtain ⟨b, later, frame, outstanding, cumulative⟩ := ih first.found
    have frame₁ := SameFrame.modifyPath a i (f := fun path => (clearPathErrors path).1) fun _ => rfl
    exact ⟨b, first.trans later, frame₁.trans frame, outstanding, cumulative⟩

/-- A SHUTDOWN's acknowledgement, before it moves timers. -/
def Socket.acknowledgeByShutdown (s : Socket) (cumulativeTsnAck : Tsn) (key : AssociationKey)
    (assoc : Association) : Socket :=
  let advanced := tsnGt cumulativeTsnAck assoc.cumulativeTsnAck
  let s := if advanced then s.advanceByShutdown key assoc cumulativeTsnAck else s
  let s := s.updateAssociation key fun assoc => { assoc with state := .shutdownReceived }
  let s := if assoc.state ≠ .shutdownReceived then s.notify key .shutdownEvent else s
  if advanced then s.removeAckedRetransmissions key (cumulativeSack cumulativeTsnAck) else s

/-- What `acceptShutdown` does before it answers. -/
def Socket.settleShutdown (s : Socket) (now : Time) (cumulativeTsnAck : Tsn) (key : AssociationKey)
    (assoc : Association) : Socket :=
  (if tsnGt cumulativeTsnAck assoc.cumulativeTsnAck then
    ((List.range assoc.peerAddressList.length).filter fun i =>
      decide (i ∈ pathsAcked assoc cumulativeTsnAck)).map
      fun i => ((assoc.path i).address, T3Action.restart)
  else []).foldl (fun s action => s.runT3Action now key action)
    (s.acknowledgeByShutdown cumulativeTsnAck key assoc)

theorem acceptShutdown_eq (s : Socket) (now : Time) (cumulativeTsnAck : Tsn) (key : AssociationKey)
    (assoc : Association) : s.acceptShutdown now cumulativeTsnAck key assoc
      = (s.settleShutdown now cumulativeTsnAck key assoc).doNextShutdownStep now key := by
  unfold Socket.acceptShutdown Socket.settleShutdown Socket.acknowledgeByShutdown
  simp only
  cases tsnGt cumulativeTsnAck assoc.cumulativeTsnAck with
  | false => rfl
  | true =>
    simp only [if_true, List.foldl_map]
    rfl

/-- The TSNs a SHUTDOWN drops. -/
def shutdownDrops (a : Association) (cumulativeTsnAck : Tsn) (tsn : Tsn) : Bool :=
  tsnGt cumulativeTsnAck a.cumulativeTsnAck && tsnLte tsn cumulativeTsnAck

theorem sackAcknowledges_cumulativeSack (cumulativeTsnAck tsn : Tsn) :
    sackAcknowledges (cumulativeSack cumulativeTsnAck) tsn = tsnLte tsn cumulativeTsnAck := by
  unfold sackAcknowledges cumulativeSack
  cases tsnLte tsn cumulativeTsnAck <;> simp

section Shutdown

variable {s : Socket} {key : AssociationKey} {a : Association}

/-- A SHUTDOWN drops what it acknowledges, here and from what is to be retransmitted. -/
theorem acknowledgeByShutdown_spec (found : s.find? key = some a) (cumulativeTsnAck : Tsn) :
    ∃ b, SenderStep key (shutdownDrops a cumulativeTsnAck)
      s (s.acknowledgeByShutdown cumulativeTsnAck key a) a b
      ∧ b.state = .shutdownReceived
      ∧ b.cumulativeTsnAck
        = (if tsnGt cumulativeTsnAck a.cumulativeTsnAck then cumulativeTsnAck
          else a.cumulativeTsnAck)
      ∧ (∀ tsn, b.outstandingData.get? tsn
        = if shutdownDrops a cumulativeTsnAck tsn then none else a.outstandingData.get? tsn)
      ∧ rtxData (s.acknowledgeByShutdown cumulativeTsnAck key a) key
        = ((rtxData s key).filter fun p => !shutdownDrops a cumulativeTsnAck p.2.tsn)
      ∧ ∀ ip, t3Active (s.acknowledgeByShutdown cumulativeTsnAck key a) key ip
        = t3Active s key ip := by
  have closing : ∀ {s₁ : Socket} {b₁ : Association}, Rewritten key s s₁ b₁ →
      Rewritten key s (if a.state ≠ .shutdownReceived then
        (s₁.updateAssociation key fun assoc => { assoc with state := .shutdownReceived }).notify
          key .shutdownEvent
      else s₁.updateAssociation key fun assoc => { assoc with state := .shutdownReceived })
        { b₁ with state := .shutdownReceived } := by
    intro s₁ b₁ before
    have updated := before.trans
      (Rewritten.update before.found fun assoc => { assoc with state := .shutdownReceived })
    split
    · exact updated.trans (.notify updated.found _)
    · exact updated
  unfold Socket.acknowledgeByShutdown shutdownDrops
  simp only
  cases tsnGt cumulativeTsnAck a.cumulativeTsnAck with
  | false =>
    simp only [Bool.false_eq_true, if_false, Bool.false_and]
    have rewritten := closing (Rewritten.refl found)
    refine ⟨{ a with state := .shutdownReceived }, ?_, rfl, rfl, fun _ => rfl, ?_, rewritten.t3 key⟩
    · refine ⟨rewritten.found, rewritten.aside,
        fun ok => ok.of_eq rewritten.sends rewritten.expirations,
        fun _ _ fit => fit.of_sends rewritten.sends, rewritten.receives, rfl, rfl,
          fun ok => ⟨ok.some, ok.distinct, ok.pmdcs⟩, rfl, rfl, fun _ => rfl,
        rewritten.newData key, fun tsn => by simp [sentData], List.Sublist.refl _, fun p member =>
          ?_⟩
      exact Or.inl ⟨by rwa [rewritten.rtx] at member, rfl⟩
    · rw [rewritten.rtx]
      simp
  | true =>
    simp only [if_true, Bool.true_and]
    obtain ⟨b₀, cleared, frame, outstanding, cumulative⟩ :=
      clearPathErrors_rewritten found (pathsAcked a cumulativeTsnAck)
    have advanced : Rewritten key s (s.advanceByShutdown key a cumulativeTsnAck)
        (acknowledgeShutdown b₀ cumulativeTsnAck) :=
      cleared.trans (.update cleared.found fun assoc => acknowledgeShutdown assoc cumulativeTsnAck)
    have rewritten := closing advanced
    have entries : ∀ tsn, (acknowledgeShutdown b₀ cumulativeTsnAck).outstandingData.get? tsn
        = if tsnLte tsn cumulativeTsnAck then none else a.outstandingData.get? tsn := by
      intro tsn
      unfold acknowledgeShutdown
      simp only [KeyMap.get?_filterMap, outstanding]
      cases a.outstandingData.get? tsn <;> cases tsnLte tsn cumulativeTsnAck <;> simp
    have frame' : SameFrame b₀ (acknowledgeShutdown b₀ cumulativeTsnAck) :=
      .of_paths rfl rfl rfl rfl rfl rfl
    have kept := frame.trans frame'
    have rtx := rtxData_removeAcked (if a.state ≠ .shutdownReceived then
        ((s.advanceByShutdown key a cumulativeTsnAck).updateAssociation key fun assoc =>
          { assoc with state := .shutdownReceived }).notify key .shutdownEvent
      else (s.advanceByShutdown key a cumulativeTsnAck).updateAssociation key fun assoc =>
          { assoc with state := .shutdownReceived }) key (cumulativeSack cumulativeTsnAck)
    rw [rewritten.rtx] at rtx
    simp only [sackAcknowledges_cumulativeSack] at rtx
    refine ⟨{ acknowledgeShutdown b₀ cumulativeTsnAck with state := .shutdownReceived }, ?_, rfl,
      rfl, entries, rtx,
      fun ip => ?_⟩
    · refine ⟨rewritten.found, rewritten.aside.trans (.removeAcked _ key _), fun ok => ?_,
        fun _ _ fit => (fit.of_sends rewritten.sends).dropped, rewritten.receives, kept.held,
          kept.ips, fun ok => ?_, kept.nextTsn, kept.burstCount, fun _ => rfl,
          rewritten.newData key,
        fun tsn => ?_, ?_, fun p member => ?_⟩
      · exact (ok.of_eq rewritten.sends rewritten.expirations).dropped
      · have ok' := kept.paths ok
        exact ⟨ok'.some, ok'.distinct, ok'.pmdcs⟩
      · have entry := entries tsn
        unfold sentData
        simp only [entry]
        cases tsnLte tsn cumulativeTsnAck <;> simp
      · rw [← outstanding]
        exact KeyMap.keys_filterMap _ _
      · rw [rtx, List.mem_filter] at member
        exact Or.inl ⟨member.1, by simpa using member.2⟩
    · exact rewritten.t3 key ip

theorem settleShutdown_step (now : Time) (found : s.find? key = some a) (cumulativeTsnAck : Tsn) :
    ∃ b, SenderStep key (shutdownDrops a cumulativeTsnAck)
      s (s.settleShutdown now cumulativeTsnAck key a) a b
      ∧ b.state = .shutdownReceived ∧ b.cumulativeTsnAck
        = if tsnGt cumulativeTsnAck a.cumulativeTsnAck then cumulativeTsnAck
          else a.cumulativeTsnAck := by
  obtain ⟨b, step, state, cumulative, -⟩ := acknowledgeByShutdown_spec found cumulativeTsnAck
  exact ⟨b, step.trans (runT3Actions_step now _ step.found), state, cumulative⟩

end Shutdown

/-! ## A T3-rtx expiry -/

/-- A destination is found by its address. -/
theorem findPath_eq_findIdx? (a : Association) (address : SockAddr) :
    findPath a address = a.ips.findIdx? fun ip => ip == address.addr := by
  unfold findPath Association.ips
  rw [List.findIdx?_map]
  rfl

theorem destinationOf_congr {a b : Association} {o : OutstandingData} (ips : b.ips = a.ips)
    (placed : o.destination.addr ∈ a.ips) : destinationOf b o = destinationOf a o := by
  obtain ⟨i, found⟩ := findPath_isSome placed
  have found' : findPath b o.destination = some i := by
    rw [findPath_eq_findIdx?, ips, ← findPath_eq_findIdx?]
    exact found
  rw [destinationOf, destinationOf, found, found']
  rfl

/-- What a T3-rtx expiry makes of an entry: marked and moved if it was in flight on the
path at index `i`. -/
def expireEntry (a : Association) (i : Nat) (target : SockAddr) (outstanding : OutstandingData) :
    OutstandingData :=
  if !outstanding.gapAcked && !outstanding.pendingRetransmission && destinationOf a outstanding == i
    then
    { outstanding with pendingRetransmission := true, destination := target }
  else outstanding

/-- The congestion response of a T3-rtx expiry, with the timeout doubled. -/
def expirePath (a : Association) (path : PeerPath) : PeerPath :=
  doubleRto (if a.zeroWindowProbing then path else collapseCwnd a.pmdcs path)

theorem expirePath_frame (a : Association) (i : Nat) :
    SameFrame a (a.modifyPath i (expirePath a)) := by
  have addr : ∀ path : PeerPath, (expirePath a path).address.addr = path.address.addr := by
    intro path
    unfold expirePath
    split <;> rfl
  exact .modifyPath a i addr

theorem expireT3_spec {s : Socket} {key : AssociationKey} {a : Association}
    (found : s.find? key = some a) (i : Nat) :
    ∃ b c target, Rewritten key s (s.expireT3 key a i) b ∧ SameFrame a b ∧ SameFrame a c
      ∧ b.cumulativeTsnAck = a.cumulativeTsnAck
      ∧ b.outstandingData.keys.Sublist a.outstandingData.keys
      ∧ (PathsOk a → target.addr ∈ a.ips)
      ∧ ∀ tsn, b.outstandingData.get? tsn
        = (a.outstandingData.get? tsn).map (expireEntry c i target) := by
  have first := Rewritten.update found fun assoc => assoc.modifyPath i (expirePath assoc)
  have frame₁ := expirePath_frame a i
  have second : ∃ b₂, Rewritten key s (if !a.zeroWindowProbing || !a.sackSinceT3 then
        ((s.updateAssociation key fun assoc =>
          assoc.modifyPath i (expirePath assoc)).countPathErrorAt key a i).updateAssociation key
            fun assoc => { assoc with errorCount := assoc.errorCount + 1 }
      else s.updateAssociation key fun assoc => assoc.modifyPath i (expirePath assoc)) b₂
      ∧ SameFrame a b₂ ∧ b₂.outstandingData = a.outstandingData ∧ b₂.cumulativeTsnAck
        = a.cumulativeTsnAck := by
    split
    · have noted := first.trans (Rewritten.countPathErrorAt first.found a i)
      have frame₂ := frame₁.trans (SameFrame.modifyPath _ i samePath_countPathError)
      exact ⟨_, noted.trans (.update noted.found fun assoc =>
        { assoc with errorCount := assoc.errorCount + 1 }),
          frame₂.trans (.of_paths rfl rfl rfl rfl rfl rfl), rfl, rfl⟩
    · exact ⟨_, first, frame₁, rfl, rfl⟩
  obtain ⟨b₂, counted, frame₂, outstanding, cumulative⟩ := second
  refine ⟨_, { b₂ with sackSinceT3 := false },
    (b₂.path (retransmissionPath b₂ (b₂.path i).address)).address,
    counted.trans (.update counted.found fun assoc =>
      moveTimedOut { assoc with sackSinceT3 := false }
        i (assoc.path (retransmissionPath assoc (assoc.path i).address)).address), ?_, ?_,
        cumulative, ?_, ?_, fun tsn => ?_⟩
  · exact frame₂.trans (.of_paths rfl rfl rfl rfl rfl rfl)
  · exact frame₂.trans (.of_paths rfl rfl rfl rfl rfl rfl)
  · rw [← outstanding]
    exact KeyMap.keys_filterMap _ _
  · intro ok
    rw [← frame₂.ips]
    exact addr_mem_ips (retransmissionPath_lt (frame₂.paths ok) _)
  · unfold moveTimedOut
    simp only [KeyMap.get?_mapVals, outstanding]
    rfl

theorem sentData_expire {a b c : Association} {i : Nat} {target : SockAddr}
    (entries : ∀ tsn, b.outstandingData.get? tsn
      = (a.outstandingData.get? tsn).map (expireEntry c i target))
    (tsn : Tsn) : sentData b tsn = sentData a tsn := by
  unfold sentData
  rw [entries, Option.map_map]
  congr 1
  funext o
  simp only [Function.comp_apply, expireEntry]
  split <;> rfl

theorem removeAssociation_gone (s : Socket) (key : AssociationKey) :
    (s.removeAssociation key).find? key = none ∧ NothingQueued (s.removeAssociation key) key := by
  unfold Socket.removeAssociation
  simp only
  refine ⟨?_, nothingQueued_purge _ key⟩
  cases found : s.find? key with
  | none => simp [found]
  | some a => simp

/-- A T3-rtx expiry is calm, or a step on the sender it is for. -/
theorem handleT3Expiration_cases (s : Socket) (key : AssociationKey) (destination : SockAddr) :
    Calm True s (s.handleT3Expiration key destination)
    ∨ ∃ a b, s.find? key = some a ∧ transmitsData a.state = true
      ∧ SenderStep key keepAll s (s.handleT3Expiration key destination) a b
      ∧ b.state = a.state ∧ b.cumulativeTsnAck = a.cumulativeTsnAck ∧ SameGaps a b := by
  unfold Socket.handleT3Expiration
  cases found : s.find? key with
  | none => exact Or.inl (.refl s)
  | some a =>
    simp only
    split
    · exact Or.inl (.refl s)
    · next sends =>
      cases path : findPath a destination with
      | none => exact Or.inl (.refl s)
      | some i =>
        simp only
        obtain ⟨b, c, target, rewritten, frame, frame', cumulative, keys, placed, entries⟩ :=
          expireT3_spec found i
        split
        · exact Or.inl (.refl s)
        · split
          · refine Or.inl ?_
            obtain ⟨gone, empty⟩ := removeAssociation_gone (s.expireT3 key a i) key
            have lost : Calm True _ _ := .loseAssociation (s.expireT3 key a i) key
            have before : Background True s (s.expireT3 key a i) :=
              SameQueues.background ⟨rewritten.sends, rewritten.expirations,
                fun _ k => Nat.le_of_eq (by rw [rewritten.receives])⟩
            refine ⟨before.trans lost.background, fun k => ?_⟩
            by_cases same : k = key
            · rw [same]
              exact .gone gone empty
            · exact (rewritten.aside k same).trans (lost.keys k)
          · have step := rewritten.step frame (by rw [frame.state]; exact id)
              (sentData_expire entries) keys
            have dropped : SenderStep key keepAll (s.expireT3 key a i)
                ((s.expireT3 key a i).removeRetransmissionsOfType key .data (some destination))
                  b b := by
              refine .of_queues rewritten.found (.removeOfType _ key _ _)
                (fun queues => queues.dropped) (fun fit => fit.dropped) rfl rfl
                fun p member => ?_
              rw [rtxData_removeData, List.mem_filter] at member
              exact member.1
            have whole := step.trans dropped
            obtain ⟨d, step', state', cumulative', -, gaps⟩ :=
              schedulePendingRetransmission_step whole.found false
            refine Or.inr ⟨a, d, rfl, by simpa using sends, whole.trans step',
              state'.trans frame.state, cumulative'.trans cumulative, fun tsn =>
                (gaps tsn).trans ?_⟩
            rw [entries, Option.map_map]
            congr 1
            funext o
            simp only [Function.comp_apply, expireEntry]
            split <;> rfl

end SctpStack
