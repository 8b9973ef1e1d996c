import SctpStack.SendPass

/-!
# After a packet went out

What `packet_sent` and `requeue_bundled_sack` do: the DATA of the packet is recorded as
outstanding, bound where the packet went, and the T3-rtx timer there runs. With this the
whole of `run_sending` keeps the socket `Orderly`.
-/

namespace SctpStack

/-! ## Recording -/

/-- Chunks recorded as sent to an address of the association. -/
structure Recorded (ip : BitVec 32) (chunks : List DataChunkValue) (a b : Association) : Prop where
  nextTsn : b.nextTsn = a.nextTsn
  cumulativeTsnAck : b.cumulativeTsnAck = a.cumulativeTsnAck
  state : b.state = a.state
  held : heldBytes b = heldBytes a
  ips : b.ips = a.ips
  paths : PathsOk a → PathsOk b
  sent : ∀ tsn, sentData b tsn = (sentData a tsn).or (chunks.find? fun data => data.tsn == tsn)
  entries : ∀ tsn o, b.outstandingData.get? tsn = some o →
    (a.outstandingData.get? tsn = some o ∧ ∀ data ∈ chunks, data.tsn ≠ tsn)
      ∨ ((∃ data ∈ chunks, data.tsn = tsn) ∧ o.gapAcked = false ∧ o.destination.addr = ip)

namespace Recorded

variable {ip : BitVec 32} {data : DataChunkValue} {chunks : List DataChunkValue}
    {a b c : Association}

theorem nil (ip : BitVec 32) (a : Association) : Recorded ip [] a a where
  nextTsn := rfl
  cumulativeTsnAck := rfl
  state := rfl
  held := rfl
  ips := rfl
  paths := id
  sent := fun tsn => by simp
  entries := fun tsn o entry => Or.inl ⟨entry, by simp⟩

theorem cons (first : Recorded ip [data] a b) (rest : Recorded ip chunks b c) :
    Recorded ip (data :: chunks) a c where
  nextTsn := rest.nextTsn.trans first.nextTsn
  cumulativeTsnAck := rest.cumulativeTsnAck.trans first.cumulativeTsnAck
  state := rest.state.trans first.state
  held := rest.held.trans first.held
  ips := rest.ips.trans first.ips
  paths := rest.paths ∘ first.paths
  sent := by
    intro tsn
    rw [rest.sent, first.sent, Option.or_assoc]
    congr 1
    cases same : data.tsn == tsn <;> simp [same]
  entries := by
    intro tsn o entry
    rcases rest.entries tsn o entry with ⟨before, others⟩ | ⟨⟨d, member, same⟩, sent⟩
    · rcases first.entries tsn o before with ⟨older, other⟩ | ⟨⟨d, member, same⟩, sent⟩
      · refine Or.inl ⟨older, fun d member => ?_⟩
        rcases List.mem_cons.mp member with rfl | inside
        · exact other d List.mem_cons_self
        · exact others d inside
      · exact Or.inr ⟨⟨d, List.mem_cons.mpr (Or.inl (List.mem_singleton.mp member)), same⟩, sent⟩
    · exact Or.inr ⟨⟨d, List.mem_cons_of_mem _ member, same⟩, sent⟩

/-- What was not in the packet is as it was. -/
theorem others {ip : BitVec 32} {chunks : List DataChunkValue} (recorded : Recorded ip chunks a b)
    {tsn : Tsn} (apart : ∀ data ∈ chunks, data.tsn ≠ tsn) :
    b.outstandingData.get? tsn = a.outstandingData.get? tsn := by
  have none : chunks.find? (fun data => data.tsn == tsn) = none := by
    rw [List.find?_eq_none]
    intro data inside
    simpa using apart data inside
  have same := recorded.sent tsn
  rw [none, Option.or_none] at same
  cases here : b.outstandingData.get? tsn with
  | none =>
    rw [sentData, here, sentData] at same
    exact (Option.map_eq_none_iff.mp same.symm).symm
  | some o =>
    rcases recorded.entries tsn o here with ⟨before, -⟩ | ⟨⟨data, inside, name⟩, -⟩
    · exact before.symm
    · exact absurd name (apart data inside)

theorem named {ip : BitVec 32} {chunks : List DataChunkValue} (recorded : Recorded ip chunks a b)
    (named : ∀ tsn o, a.outstandingData.get? tsn = some o → o.data.tsn = tsn) :
    ∀ tsn o, b.outstandingData.get? tsn = some o → o.data.tsn = tsn := by
  intro tsn o entry
  have data : sentData b tsn = some o.data := by rw [sentData, entry]; rfl
  rw [recorded.sent] at data
  cases before : a.outstandingData.get? tsn with
  | some o' =>
    rw [sentData, before] at data
    rw [← Option.some.inj data]
    exact named tsn o' before
  | none =>
    rw [sentData, before] at data
    simpa using List.find?_some data

end Recorded

theorem sentOn_spec {a : Association} {destination : SockAddr} (placed : destination.addr ∈ a.ips) :
    sentOn a destination < a.peerAddressList.length
      ∧ (a.path (sentOn a destination)).address.addr = destination.addr := by
  obtain ⟨i, found⟩ := findPath_isSome placed
  rw [sentOn, found]
  exact findPath_spec found

theorem address_modifyPath (a : Association) (i j : Nat) {f : PeerPath → PeerPath}
    (same : ∀ path, (f path).address = path.address) :
    ((a.modifyPath i f).path j).address = (a.path j).address := by
  simp only [Association.path, Association.modifyPath, List.getD_eq_getElem?_getD,
    List.getElem?_modify]
  cases here : a.peerAddressList[j]? with
  | none => rfl
  | some path =>
    simp only [Option.map_eq_map, Option.map_some, Option.getD_some]
    split
    · exact same path
    · rfl

theorem recordDataSentIn_frame (a : Association) (destination : SockAddr) (data : DataChunkValue)
    (sentAt : Time) :
    SameFrame a (recordDataSentIn a destination data sentAt)
      ∧ (recordDataSentIn a destination data sentAt).cumulativeTsnAck = a.cumulativeTsnAck := by
  have first : SameFrame a (a.modifyPath (sentOn a destination) fun path =>
      { path with dataSentAt := sentAt, idleDecaying := false }) :=
    .modifyPath a _ fun _ => rfl
  unfold recordDataSentIn
  simp only
  split
  · exact ⟨first.trans (.of_paths rfl rfl rfl rfl rfl rfl), rfl⟩
  · refine ⟨first.trans (SameFrame.trans (.modifyPath _ (sentOn a destination) (f := fun path =>
      { path with newDataSentAt := sentAt }) fun _ => rfl) ?_), rfl⟩
    exact .of_paths rfl rfl rfl rfl rfl rfl

/-- The entry of a chunk sent the first time. -/
def firstEntry (data : DataChunkValue) (sentAt : Time) (address : SockAddr) : OutstandingData where
  data := data
  firstSent := sentAt
  lastSent := sentAt
  retransmitted := false
  gapAcked := false
  missingReports := 0
  fastRetransmitted := false
  pendingRetransmission := false
  destination := address

/-- The entry of a chunk sent again. -/
def againEntry (sentAt : Time) (address : SockAddr) (outstanding : OutstandingData) :
    OutstandingData :=
  { outstanding with lastSent := sentAt, retransmitted := true, gapAcked := false, destination :=
    address }

theorem outstandingData_recordDataSentIn (a : Association) (destination : SockAddr)
    (data : DataChunkValue) (sentAt : Time) :
    (recordDataSentIn a destination data sentAt).outstandingData =
      if a.outstandingData.contains data.tsn then
        a.outstandingData.modify data.tsn
          (againEntry sentAt (a.path (sentOn a destination)).address)
      else a.outstandingData.emplaceBy tsnLt data.tsn
        (firstEntry data sentAt (a.path (sentOn a destination)).address) := by
  have address : ((a.modifyPath (sentOn a destination) fun path =>
      { path with dataSentAt := sentAt, idleDecaying := false }).path
        (sentOn a destination)).address
      = (a.path (sentOn a destination)).address := address_modifyPath a _ _ fun _ => rfl
  have address' : (((a.modifyPath (sentOn a destination) fun path =>
      { path with dataSentAt := sentAt, idleDecaying := false }).modifyPath (sentOn a destination)
        fun path =>
      { path with newDataSentAt := sentAt }).path (sentOn a destination)).address
      = (a.path (sentOn a destination)).address := by
    refine (address_modifyPath _ _ _ ?_).trans address
    intro path
    rfl
  unfold recordDataSentIn
  simp only
  split
  · next again =>
    rw [if_pos (show a.outstandingData.contains data.tsn = true from again), ← address]
    rfl
  · next new =>
    rw [if_neg (show ¬a.outstandingData.contains data.tsn = true from new), ← address']
    rfl

/-- The chunk sent is outstanding and bound where it went; the others are as they were. -/
theorem get?_recordDataSentIn (a : Association) (destination : SockAddr) (data : DataChunkValue)
    (sentAt : Time) (tsn : Tsn) :
    (recordDataSentIn a destination data sentAt).outstandingData.get? tsn =
      if tsn = data.tsn then some (((a.outstandingData.get? tsn).map
          (againEntry sentAt (a.path (sentOn a destination)).address)).getD
        (firstEntry data sentAt (a.path (sentOn a destination)).address))
      else a.outstandingData.get? tsn := by
  rw [outstandingData_recordDataSentIn]
  split
  · next again =>
    obtain ⟨o, here⟩ := KeyMap.contains_eq_true.mp again
    rw [KeyMap.get?_modify]
    split
    · next same => simp [same, here]
    · rfl
  · next new =>
    have absent := KeyMap.contains_eq_false.mp (Bool.not_eq_true _ ▸ new)
    rw [KeyMap.get?_emplaceBy]
    split
    · next same => simp [same, absent]
    · rfl

theorem recordDataSentIn_recorded {a : Association} {destination : SockAddr}
    (placed : destination.addr ∈ a.ips) (data : DataChunkValue) (sentAt : Time) :
    Recorded destination.addr [data] a (recordDataSentIn a destination data sentAt) := by
  obtain ⟨frame, cumulativeTsnAck⟩ := recordDataSentIn_frame a destination data sentAt
  refine ⟨frame.nextTsn, cumulativeTsnAck, frame.state, frame.held, frame.ips, frame.paths,
    fun tsn => ?_,
    fun tsn o entry => ?_⟩
  · rw [sentData, get?_recordDataSentIn, sentData]
    by_cases same : tsn = data.tsn
    · subst same
      cases a.outstandingData.get? data.tsn <;> simp [againEntry, firstEntry]
    · simp [same, Ne.symm same]
  · rw [get?_recordDataSentIn] at entry
    split at entry
    · next same =>
      refine Or.inr ⟨⟨data, List.mem_singleton_self data, same.symm⟩, ?_⟩
      cases entry
      cases a.outstandingData.get? tsn <;> exact ⟨rfl, (sentOn_spec placed).2⟩
    · next other =>
      refine Or.inl ⟨entry, fun d member => ?_⟩
      rw [List.mem_singleton.mp member]
      exact Ne.symm other

/-- Chunks recorded one after the other. -/
def recordAll (a : Association) (destination : SockAddr) (chunks : List DataChunkValue)
    (sentAt : Time) : Association :=
  chunks.foldl (fun a data => recordDataSentIn a destination data sentAt) a

theorem recordAll_recorded {a : Association} {destination : SockAddr}
    (placed : destination.addr ∈ a.ips) (chunks : List DataChunkValue) (sentAt : Time) :
    Recorded destination.addr chunks a (recordAll a destination chunks sentAt) := by
  induction chunks generalizing a with
  | nil => exact .nil _ a
  | cons data rest ih =>
    have first := recordDataSentIn_recorded placed data sentAt
    exact first.cons (ih (first.ips ▸ placed))

theorem burstCount_recordAll (a : Association) (destination : SockAddr)
    (chunks : List DataChunkValue) (sentAt : Time) :
    (recordAll a destination chunks sentAt).burstCount = a.burstCount :=
  List.foldlRecOn (motive := fun b : Association => b.burstCount = a.burstCount) chunks _ rfl
    fun b same data _ => ((recordDataSentIn_frame b destination data sentAt).1.burstCount).trans
      same

/-! ## The packet -/

/-- One association updated again and again. -/
theorem foldl_updateAssociation {α : Type} (s : Socket) (key : AssociationKey)
    (f : α → Association → Association) (l : List α) :
    (l.foldl (fun s x => s.updateAssociation key (f x)) s).sends = s.sends
      ∧ (l.foldl (fun s x => s.updateAssociation key (f x)) s).expirations = s.expirations
      ∧ (l.foldl (fun s x => s.updateAssociation key (f x)) s).receives = s.receives
      ∧ ∀ k, (l.foldl (fun s x => s.updateAssociation key (f x)) s).find? k
        = if k = key then (s.find? key).map fun a =>
          l.foldl (fun a x => f x a) a else s.find? k := by
  induction l generalizing s with
  | nil =>
    refine ⟨rfl, rfl, rfl, fun k => ?_⟩
    split
    · next same => simp [same]
    · rfl
  | cons x rest ih =>
    obtain ⟨sends, expirations, receives, found⟩ := ih (s.updateAssociation key (f x))
    refine ⟨sends, expirations, receives, fun k => ?_⟩
    rw [List.foldl_cons, found]
    simp only [Socket.find?_updateAssociation, if_true, Option.map_map]
    split
    · rfl
    · rfl

/-- Of a packet of DATA and SACKs, the DATA is recorded. -/
theorem foldl_chunkSent (s : Socket) (d : Deliverable) (sentAt : Time) {header : CommonHeader}
    {chunks : List Chunk} (kinds : Carries ⟨header, chunks⟩) :
    chunks.foldl (fun s chunk => s.chunkSent d sentAt chunk) s
      = (Packet.dataChunks ⟨header, chunks⟩).foldl
          (fun s data => s.recordDataSent d.location d.destination data sentAt) s := by
  induction chunks generalizing s with
  | nil => rfl
  | cons chunk rest ih =>
    have later := fun s => ih s fun c inside => kinds c (List.mem_cons_of_mem _ inside)
    rw [List.foldl_cons, later, dataChunks_cons, List.foldl_append]
    congr 1
    cases value : chunk.value with
    | data data => simp [Socket.chunkSent, value]
    | sack sack => simp [Socket.chunkSent, value]
    | _ =>
      have impossible := kinds chunk List.mem_cons_self
      simp [Chunk.type, value] at impossible

/-- What becomes of an association when a packet of DATA goes out. -/
def afterSent (a : Association) (p : Pending) (sentAt : Time) : Association :=
  let recorded := if transmitsData a.state then
      recordAll a p.deliverable.destination p.deliverable.packet.dataChunks sentAt
    else a
  { recorded with burstCount := a.burstCount + if p.priority = .newData then 1 else 0 }

theorem foldl_recordDataSentIn (a : Association) (destination : SockAddr)
    (chunks : List DataChunkValue) (sentAt : Time) :
    chunks.foldl (fun a data => if transmitsData a.state then recordDataSentIn a destination data
      sentAt else a) a
      = if transmitsData a.state then recordAll a destination chunks sentAt else a := by
  induction chunks generalizing a with
  | nil => simp [recordAll]
  | cons data rest ih =>
    rw [List.foldl_cons, ih]
    by_cases transmits : transmitsData a.state = true
    · have state := (recordDataSentIn_frame a destination data sentAt).1.state
      simp only [transmits, if_true, state]
      rfl
    · simp [transmits]

/-- A packet of DATA went out, for the association `a`, which became `b`. -/
structure SentStep (p : Pending) (sentAt : Time) (s s' : Socket) (a : Association) : Prop where
  found : s'.find? p.deliverable.location = some (afterSent a p sentAt)
  aside : Aside True p.deliverable.location s s'
  queues : QueuesOk s → QueuesOk s'
  fit : QueuesFit s → QueuesFit s'
  receives : s'.receives = s.receives
  newData : newDataFor s' p.deliverable.location
    = if p.priority = .newData then (newDataFor s p.deliverable.location).filter fun q =>
      decide (q.id ≠ p.id)
      else newDataFor s p.deliverable.location
  rtx : rtxData s p.deliverable.location
    = (if p.priority = .retransmission then
        p.deliverable.packet.dataChunks.map fun data => (p.deliverable.destination.addr, data)
          else [])
      ++ rtxData s' p.deliverable.location
  t3 : ∀ ip, t3Active s' p.deliverable.location ip = (t3Active s p.deliverable.location ip
    || !p.deliverable.packet.dataChunks.isEmpty && decide (p.deliverable.destination.addr = ip)
      && (findPath (afterSent a p sentAt) p.deliverable.destination).any
        (hasUnacknowledgedData (afterSent a p sentAt)))

theorem eq_singleton_of_mem {α : Type} {l : List α} {x : α} (single : l.length ≤ 1)
    (member : x ∈ l) : l = [x] := by
  obtain ⟨y, only⟩ := List.length_eq_one_iff.mp
    (Nat.le_antisymm single (List.length_pos_of_mem member))
  rw [only, List.mem_singleton] at member
  rw [only, member]

theorem eraseP_eq_filter {α β : Type} [DecidableEq β] {f : α → β} {l : List α}
    (distinct : (l.map f).Nodup) (y : β) :
    l.eraseP (fun x => f x == y) = l.filter fun x => decide (f x ≠ y) := by
  induction l with
  | nil => rfl
  | cons x rest ih =>
    rw [List.map_cons, List.nodup_cons] at distinct
    by_cases same : f x = y
    · rw [List.eraseP_cons_of_pos (by simpa using same),
        List.filter_cons_of_neg (by simpa using same), eq_comm, List.filter_eq_self]
      intro x' member
      simp only [ne_eq, decide_eq_true_eq, ← same]
      intro equal
      exact distinct.1 (equal ▸ List.mem_map_of_mem member)
    · rw [List.eraseP_cons_of_neg (by simpa using same),
        List.filter_cons_of_pos (by simpa using same), ih distinct.2]

theorem containsData_eq (packet : Packet) :
    containsChunk packet .data = !packet.dataChunks.isEmpty := by
  cases none : packet.dataChunks with
  | nil => exact containsData_of_noData none
  | cons data rest =>
    have inside : data ∈ packet.dataChunks := by
      rw [none]
      exact List.mem_cons_self
    obtain ⟨chunk, member, value⟩ := List.mem_filterMap.mp inside
    rw [containsChunk, List.any_eq_true.mpr]
    · rfl
    · refine ⟨chunk, member, ?_⟩
      cases here : chunk.value <;> simp_all [Chunk.type]

/-- Taking a packet off its queue. -/
structure Committed (p : Pending) (s s' : Socket) : Prop where
  same : ∀ k, s'.find? k = s.find? k
  receives : s'.receives = s.receives
  expirations : s'.expirations = s.expirations
  aside : Aside True p.deliverable.location s s'
  queues : QueuesOk s → QueuesOk s'
  fit : QueuesFit s → QueuesFit s'
  newData : newDataFor s' p.deliverable.location
    = if p.priority = .newData then (newDataFor s p.deliverable.location).filter fun q =>
      decide (q.id ≠ p.id)
      else newDataFor s p.deliverable.location
  rtx : rtxData s p.deliverable.location
    = (if p.priority = .retransmission then
        p.deliverable.packet.dataChunks.map fun data => (p.deliverable.destination.addr, data)
          else [])
      ++ rtxData s' p.deliverable.location

theorem committed_retransmission {s : Socket} {p : Pending} {q : Queued} {rest : List Queued}
    (priority : p.priority = .retransmission) (head : s.sends.retransmission = q :: rest)
    (picked : PickedAs p q) :
    Committed p s { s with sends := s.sends.commit p } := by
  have sends : s.sends.commit p = { s.sends
      with retransmission := rest, nextSendAttempt := 0 } := by
    simp [SendQueue.commit, priority, head, picked.id]
  rw [sends]
  have rtx : ∀ k, rtxData s k = (if q.deliverable.location = k then
      q.deliverable.packet.dataChunks.map fun data => (q.deliverable.destination.addr, data)
        else [])
      ++ rtxData { s with sends := { s.sends with retransmission := rest, nextSendAttempt := 0 } }
        k := by
    intro k
    rw [rtxData, head, List.flatMap_cons]
    rfl
  refine ⟨fun _ => rfl, rfl, rfl, fun k apart => .kept rfl ⟨rfl, ?_⟩ fun _ => rfl, fun ok => ?_,
    fun fit => ⟨fun q' member => fit.retransmission q' ?_, fit.newData⟩, ?_, ?_⟩
  · rw [rtx k, if_neg]
    · rfl
    · rw [← picked.location]
      exact Ne.symm apart
  · refine ⟨ok.control, fun q' member => ok.retransmission q' ?_, ok.newData, ok.distinct, ok.known,
      ok.retries⟩
    rw [head]
    exact List.mem_cons_of_mem _ member
  · rw [head]
    exact List.mem_cons_of_mem _ member
  · rw [priority]
    rfl
  · rw [rtx, if_pos priority, if_pos picked.location.symm, picked.dataChunks, picked.destination]

theorem committed_newData {s : Socket} (ok : QueuesOk s) {p : Pending} {q : Queued}
    (priority : p.priority = .newData) (member : q ∈ s.sends.newData) (picked : PickedAs p q) :
    Committed p s { s with sends := s.sends.commit p } := by
  have sends : s.sends.commit p = { s.sends with
      newData := s.sends.newData.filter fun q => decide (q.id ≠ p.id), nextSendAttempt := 0 } := by
    simp only [SendQueue.commit, priority]
    rw [eraseP_eq_filter ok.distinct]
  rw [sends]
  have left : ∀ k, newDataFor { s with sends := { s.sends with
      newData := s.sends.newData.filter fun q => decide (q.id ≠ p.id), nextSendAttempt := 0 } } k
      = (newDataFor s k).filter fun q => decide (q.id ≠ p.id) := by
    intro k
    simp only [newDataFor, List.filter_filter]
    congr 1
    funext q'
    rw [Bool.and_comm]
  refine ⟨fun _ => rfl, rfl, rfl, fun k apart => .kept rfl ⟨?_, rfl⟩ fun _ => rfl, fun ok => ?_,
    fun fit => ⟨fit.retransmission, fun q' inside =>
      fit.newData q' (List.mem_of_mem_filter inside)⟩, ?_, ?_⟩
  · rw [left, List.filter_eq_self]
    intro q' inside
    rw [decide_eq_true_eq]
    intro same
    obtain ⟨here, location⟩ := List.mem_filter.mp inside
    have equal : q' = q := List.inj_on_of_nodup_map ok.distinct here member (same.trans picked.id)
    rw [equal, decide_eq_true_eq] at location
    exact apart (location.symm.trans picked.location.symm)
  · exact ⟨ok.control, ok.retransmission, fun q' inside =>
      ok.newData q' (List.mem_of_mem_filter inside),
        ok.distinct.sublist (List.filter_sublist.map _), fun q' inside =>
          ok.known q' (List.mem_of_mem_filter inside),
      ok.retries⟩
  · rw [left, if_pos priority]
  · rw [priority]
    rfl

theorem startT3IfStopped_sends (s : Socket) (now : Time) (key : AssociationKey)
    (destination : SockAddr) :
    (s.startT3IfStopped now key destination).sends = s.sends := by
  unfold Socket.startT3IfStopped
  split
  · rfl
  · unfold Socket.restartT3
    simp only
    split <;> rfl

theorem Calm.chunkSent {strict : Prop} (s : Socket) {d : Deliverable} (none : NoData d.packet)
    (sentAt : Time) {chunk : Chunk} (member : chunk ∈ d.packet.chunks) :
    Calm strict s (s.chunkSent d sentAt chunk) := by
  unfold Socket.chunkSent
  simp only
  cases value : chunk.value with
  | data data =>
    have inside : data ∈ d.packet.dataChunks :=
      List.mem_filterMap.mpr ⟨chunk, member, by simp [value]⟩
    rw [none] at inside
    cases inside
  | heartbeat info => exact .recordHeartbeatSent s _ _ _
  | init init =>
    simp only
    split
    · exact .refl s
    · split
      · exact .refl s
      · exact .schedule s _ (by simp [timerOf]) none
  | cookieEcho cookie =>
    simp only
    split
    · exact .refl s
    · split
      · exact .refl s
      · exact .schedule s _ (by simp [timerOf]) none
  | _ => exact .refl s

/-- Only the association under a key changed. -/
structure OnlyKey (key : AssociationKey) (s s' : Socket) : Prop where
  sends : s'.sends = s.sends
  expirations : s'.expirations = s.expirations
  receives : s'.receives = s.receives
  others : ∀ k, k ≠ key → s'.find? k = s.find? k

theorem OnlyKey.aside {key : AssociationKey} {s s' : Socket} (only : OnlyKey key s s') :
    Aside True key s s' := by
  intro k apart
  refine .kept (only.others k apart) ⟨?_, ?_⟩ fun ip => ?_
  · rw [newDataFor, only.sends]
    rfl
  · rw [rtxData, only.sends]
    rfl
  · rw [t3Active, only.expirations]
    rfl

/-- The DATA of a packet recorded, and its timer started. -/
theorem scheduleExpirationsAfterSend_step {s : Socket} {d : Deliverable} (sentAt : Time)
    (carries : Carries d.packet) {a : Association} (found : s.find? d.location = some a) :
    let b := if transmitsData a.state then recordAll a d.destination d.packet.dataChunks sentAt
      else a
    let s' := s.scheduleExpirationsAfterSend d sentAt
    s'.find? d.location = some b ∧ s'.sends = s.sends ∧ s'.receives = s.receives
      ∧ Aside True d.location s s' ∧ (QueuesOk s → QueuesOk s')
      ∧ ∀ ip, t3Active s' d.location ip = (t3Active s d.location ip
        || !d.packet.dataChunks.isEmpty && decide (d.destination.addr = ip)
          && (findPath b d.destination).any (hasUnacknowledgedData b)) := by
  intro b s'
  obtain ⟨sends, expirations, receives, lookup⟩ := foldl_updateAssociation s d.location
    (fun data a => if transmitsData a.state then recordDataSentIn a d.destination data sentAt
      else a)
    d.packet.dataChunks
  have fold := foldl_chunkSent s d sentAt carries
  change _ = d.packet.dataChunks.foldl (fun s data => s.updateAssociation d.location fun a =>
    if transmitsData a.state then recordDataSentIn a d.destination data sentAt else a) s at fold
  change d.packet.chunks.foldl (fun s chunk => s.chunkSent d sentAt chunk) s = _ at fold
  generalize recorded : d.packet.chunks.foldl (fun s chunk => s.chunkSent d sentAt chunk) s
    = s₁ at fold
  rw [← fold] at sends expirations receives lookup
  have here : s₁.find? d.location = some b := by
    rw [lookup, if_pos rfl, found, Option.map_some, foldl_recordDataSentIn]
  have only : OnlyKey d.location s s₁ :=
    ⟨sends, expirations, receives, fun k apart => by rw [lookup, if_neg apart]⟩
  have queues : QueuesOk s → QueuesOk s₁ := fun ok => ok.of_eq sends expirations
  have t3 : ∀ ip, t3Active s₁ d.location ip = t3Active s d.location ip := fun ip => by
    rw [t3Active, expirations]
    rfl
  have after : s' = if containsChunk d.packet .data then s₁.startT3IfStopped sentAt d.location
      d.destination else s₁ := by
    rw [← recorded]
    rfl
  rw [containsData_eq] at after
  cases empty : d.packet.dataChunks.isEmpty with
  | true =>
    rw [empty] at after
    simp only [Bool.not_true, Bool.false_eq_true, if_false] at after
    rw [after]
    exact ⟨here, sends, receives, only.aside, queues, fun ip => by simp [t3]⟩
  | false =>
    rw [empty] at after
    simp only [Bool.not_false, if_true] at after
    rw [after]
    have started := startT3IfStopped_step sentAt d.destination here
    refine ⟨started.found, ?_, started.receives.trans receives, only.aside.trans started.aside,
      started.queues ∘ queues,
      fun ip => ?_⟩
    · rw [startT3IfStopped_sends, sends]
    · rw [t3Active_startT3IfStopped sentAt d.destination here, t3]
      simp

theorem packetSent_step {s : Socket} {p : Pending} {a : Association} (sentAt : Time)
    (committed : Committed p s { s with sends := s.sends.commit p })
    (carries : Carries p.deliverable.packet) (found : s.find? p.deliverable.location = some a) :
    SentStep p sentAt s (s.packetSent sentAt p) a := by
  have before : Socket.find? { s with sends := s.sends.commit p } p.deliverable.location = some a :=
    found
  obtain ⟨here, sends, receives, aside, queues, t3⟩ :=
    scheduleExpirationsAfterSend_step sentAt carries before
  generalize recorded : Socket.scheduleExpirationsAfterSend { s with sends := s.sends.commit p }
    p.deliverable sentAt
    = s₂ at here sends receives aside queues t3
  have after : s.packetSent sentAt p = if p.priority ≠ .newData then s₂
      else s₂.updateAssociation p.deliverable.location fun a =>
        { a with burstCount := a.burstCount + 1 } := by
    rw [← recorded]
    rfl
  have burst : Association.burstCount (if transmitsData a.state then
      recordAll a p.deliverable.destination p.deliverable.packet.dataChunks sentAt else a)
        = a.burstCount := by
    split
    · exact burstCount_recordAll _ _ _ _
    · rfl
  -- The counter of the burst is all that is left to change.
  have found' : (s.packetSent sentAt p).find? p.deliverable.location
      = some (afterSent a p sentAt) := by
    rw [after, afterSent, ← burst]
    by_cases new : p.priority = .newData
    · simp only [new, ne_eq, not_true_eq_false, if_false, if_true, Socket.find?_updateAssociation,
        here, Option.map_some]
    · simp only [new, ne_eq, not_false_eq_true, if_false, if_true, Nat.add_zero]
      exact here
  have only : OnlyKey p.deliverable.location s₂ (s.packetSent sentAt p) := by
    rw [after]
    split
    · exact ⟨rfl, rfl, rfl, fun _ _ => rfl⟩
    · exact ⟨rfl, rfl, rfl, fun k apart => by simp [apart]⟩
  refine ⟨found', (committed.aside.trans aside).trans only.aside,
    fun ok => (queues (committed.queues ok)).of_eq only.sends only.expirations,
    fun fit => (committed.fit fit).of_sends (only.sends.trans sends),
    only.receives.trans (receives.trans committed.receives), ?_, ?_, fun ip => ?_⟩
  · rw [newDataFor, only.sends, sends]
    exact committed.newData
  · rw [committed.rtx]
    simp only [rtxData, only.sends, sends]
  · rw [t3Active, only.expirations]
    exact t3 ip

theorem Calm.commit {strict : Prop} {s : Socket} {p : Pending} (picked : Picked s.sends p)
    (none : NoData p.deliverable.packet) (old : p.priority ≠ .newData) :
    Calm strict s { s with sends := s.sends.commit p } := by
  cases picked with
  | control priority =>
    simp only [SendQueue.commit, priority]
    exact ⟨⟨List.Sublist.refl _, Nat.le_refl _, fun q member =>
      Or.inl (List.mem_of_mem_eraseP member),
      fun q member => Or.inr ⟨q, member, .refl _⟩, fun _ => Or.inl, fun _ _ => Nat.le_refl _⟩,
      fun k => .kept rfl ⟨rfl, rfl⟩ fun _ => rfl⟩
  | retransmission q rest priority head picked =>
    simp only [SendQueue.commit, priority]
    rw [head, List.eraseP_cons_of_pos (by simp [picked.id])]
    refine ⟨⟨List.Sublist.refl _, Nat.le_refl _, fun _ => Or.inl, fun q' member =>
      Or.inr ⟨q', ?_, .refl _⟩,
      fun _ => Or.inl, fun _ _ => Nat.le_refl _⟩, fun k => .kept rfl ⟨rfl, ?_⟩ fun _ => rfl⟩
    · rw [head]
      exact List.mem_cons_of_mem _ member
    · have empty : q.deliverable.packet.dataChunks = [] := picked.dataChunks ▸ none
      simp only [rtxData, head, List.flatMap_cons, empty, List.map_nil, ite_self, List.nil_append]
  | newData q priority => exact absurd priority old

theorem Calm.packetSent {strict : Prop} {s : Socket} {p : Pending} (picked : Picked s.sends p)
    (none : NoData p.deliverable.packet) (old : p.priority ≠ .newData) (sentAt : Time) :
    Calm strict s (s.packetSent sentAt p) := by
  unfold Socket.packetSent Socket.scheduleExpirationsAfterSend
  simp only [containsData_of_noData none, Bool.false_eq_true, if_false]
  rw [if_pos old]
  exact List.foldlRecOn (motive := Calm strict s) p.deliverable.packet.chunks
    _ (.commit picked none old)
    fun s' calm chunk member => calm.trans (.chunkSent s' none sentAt member)

/-- A packet of DATA picked from a queue. -/
structure DataPicked (s : Socket) (p : Pending) : Prop where
  carries : Carries p.deliverable.packet
  committed : Committed p s { s with sends := s.sends.commit p }
  queued : (p.priority = .retransmission ∧ p.deliverable.packet.dataChunks ≠ [])
    ∨ ∃ q, p.priority = .newData ∧ q ∈ newDataFor s p.deliverable.location ∧ PickedAs p q

/-- A packet going out is calm, or it is one of DATA. -/
theorem packetSent_cases {s : Socket} {p : Pending} (ok : QueuesOk s) (picked : Picked s.sends p)
    (sentAt : Time) :
    (p.priority ≠ .newData ∧ Calm True s (s.packetSent sentAt p)) ∨ DataPicked s p := by
  cases id picked with
  | control priority none =>
    have old : p.priority ≠ .newData := by simp [priority]
    exact Or.inl ⟨old, .packetSent picked none old sentAt⟩
  | retransmission q rest priority head as kinds =>
    have old : p.priority ≠ .newData := by simp [priority]
    by_cases none : NoData p.deliverable.packet
    · exact Or.inl ⟨old, .packetSent picked none old sentAt⟩
    · exact Or.inr ⟨kinds.resolve_left none, committed_retransmission priority head as,
        Or.inl ⟨priority, none⟩⟩
  | newData q priority member as carries =>
    refine Or.inr ⟨carries, committed_newData ok priority member as, Or.inr ⟨q, priority, ?_, as⟩⟩
    exact List.mem_filter.mpr ⟨member, by simp [as.location]⟩

namespace DataPicked

variable {s : Socket} {p : Pending}

/-- Something was queued for the association. -/
theorem not_nothing (picked : DataPicked s p) : ¬NothingQueued s p.deliverable.location := by
  rintro ⟨newData, rtx⟩
  rcases picked.queued with ⟨priority, chunks⟩ | ⟨q, -, member, -⟩
  · have here := picked.committed.rtx
    rw [rtx, if_pos priority, eq_comm, List.append_eq_nil_iff, List.map_eq_nil_iff] at here
    exact chunks here.1
  · rw [newData] at member
    cases member

/-- The packet goes to an address of the association. -/
theorem placed (picked : DataPicked s p) {due : BitVec 32 → Prop} {a : Association}
    (covered : Covered s due p.deliverable.location a) :
    p.deliverable.destination.addr ∈ a.ips := by
  rcases picked.queued with ⟨priority, chunks⟩ | ⟨q, -, member, as⟩
  · obtain ⟨data, inside⟩ := List.exists_mem_of_ne_nil _ chunks
    refine covered.rtxTo (p.deliverable.destination.addr, data) ?_
    rw [picked.committed.rtx, if_pos priority]
    exact List.mem_append_left _ (List.mem_map_of_mem inside)
  · rw [as.destination]
    exact covered.newTo q member

end DataPicked

theorem afterSent_recorded {a : Association} {p : Pending} (sentAt : Time)
    (transmits : transmitsData a.state = true) (placed : p.deliverable.destination.addr ∈ a.ips) :
    Recorded p.deliverable.destination.addr p.deliverable.packet.dataChunks
      a (afterSent a p sentAt) := by
  have recorded := recordAll_recorded placed p.deliverable.packet.dataChunks sentAt
  unfold afterSent
  rw [if_pos transmits]
  exact ⟨recorded.nextTsn, recorded.cumulativeTsnAck, recorded.state, recorded.held, recorded.ips,
    fun ok => ⟨(recorded.paths ok).some, (recorded.paths ok).distinct,
      (recorded.paths ok).pmdcs⟩, recorded.sent, recorded.entries⟩

theorem afterSent_silent {a : Association} (p : Pending) (sentAt : Time)
    (silent : transmitsData a.state = false) :
    afterSent a p sentAt = { a with burstCount := a.burstCount + if p.priority = .newData then 1
      else 0 } := by
  unfold afterSent
  rw [if_neg (by simp [silent])]

theorem afterSent_state (a : Association) (p : Pending) (sentAt : Time) :
    (afterSent a p sentAt).state = a.state := by
  have state : (recordAll a p.deliverable.destination p.deliverable.packet.dataChunks sentAt).state
      = a.state :=
    List.foldlRecOn (motive := fun b : Association => b.state = a.state)
      p.deliverable.packet.dataChunks _ rfl
      fun b same data _ => ((recordDataSentIn_frame b p.deliverable.destination data
        sentAt).1.state).trans same
  unfold afterSent
  simp only
  split
  · exact state
  · rfl

theorem Covered.sent {s s' : Socket} {due : BitVec 32 → Prop} {p : Pending} {sentAt : Time}
    {a : Association} (covered : Covered s due p.deliverable.location a) (ok : PathsOk a)
    (transmits : transmitsData a.state = true) (placed : p.deliverable.destination.addr ∈ a.ips)
    (step : SentStep p sentAt s s' a) :
    Covered s' due p.deliverable.location (afterSent a p sentAt) := by
  have recorded := afterSent_recorded sentAt transmits placed
  have rtx : ∀ x ∈ rtxData s' p.deliverable.location, x ∈ rtxData s p.deliverable.location := by
    intro x member
    rw [step.rtx]
    exact List.mem_append_right _ member
  refine ⟨fun tsn o entry => ?_, fun tsn o entry => ?_, fun q member => ?_, fun x member => ?_,
    fun tsn o entry unacked => ?_⟩
  · exact recorded.named covered.named tsn o entry
  · rw [recorded.ips]
    rcases recorded.entries tsn o entry with ⟨before, -⟩ | ⟨-, -, address⟩
    · exact covered.placed tsn o before
    · rw [address]
      exact placed
  · rw [recorded.ips]
    refine covered.newTo q ?_
    rw [step.newData] at member
    split at member
    · exact List.mem_of_mem_filter member
    · exact member
  · rw [recorded.ips]
    exact covered.rtxTo x (rtx x member)
  · unfold CoveredBy
    rw [step.t3]
    rcases recorded.entries tsn o entry with ⟨before, others⟩ | ⟨⟨data, member, -⟩, -, address⟩
    · rcases covered.cover tsn o before unacked with marked | ⟨data, queued,
        name⟩ | active | waiting
      · exact Or.inl marked
      · refine Or.inr (Or.inl ⟨data, ?_, name⟩)
        rw [step.rtx, List.mem_append] at queued
        refine queued.resolve_left fun here => ?_
        split at here
        · obtain ⟨data', inside, same⟩ := List.mem_map.mp here
          obtain ⟨-, rfl⟩ := Prod.mk.inj same
          exact others data' inside name
        · cases here
      · simp [active]
      · exact Or.inr (Or.inr (Or.inr waiting))
    -- What went out is timed where it went.
    · refine Or.inr (Or.inr (Or.inl ?_))
      obtain ⟨bound, path⟩ := destinationOf_spec (a := afterSent a p sentAt) (o := o)
        (by rw [recorded.ips, address]; exact placed)
      have found : findPath (afterSent a p sentAt) p.deliverable.destination
          = some (destinationOf (afterSent a p sentAt) o) :=
        (findPath_eq_iff (recorded.paths ok) bound).mpr (path.trans address)
      have some : p.deliverable.packet.dataChunks.isEmpty = false := by
        cases empty : p.deliverable.packet.dataChunks with
        | nil => rw [empty] at member; cases member
        | cons => rfl
      simp [found, address, some, hasUnacknowledgedData_of_entry entry unacked]

/-! ## Every pass of `run_sending` -/

theorem Orderly.packetSent {s : Socket} {due : AssociationKey → BitVec 32 → Prop}
    (ok : Orderly s due) {p : Pending} (picked : Picked s.sends p) (sentAt : Time) :
    Orderly (s.packetSent sentAt p) due := by
  rcases packetSent_cases ok.queues picked sentAt with ⟨-, calm⟩ | picked
  · exact ok.calm calm.weaken
  · cases found : s.find? p.deliverable.location with
    | none => exact absurd ((ok.keys _).absent found) picked.not_nothing
    | some a =>
      have step := packetSent_step sentAt picked.committed picked.carries found
      have old := (ok.keys _).assoc a found
      refine ok.aside step.aside (step.queues ok.queues) ⟨fun absent => ?_, fun b here => ?_⟩
      · rw [step.found] at absent
        cases absent
      · rw [step.found] at here
        cases here
        cases transmits : transmitsData a.state with
        | true =>
          have placed := picked.placed (old.covered transmits)
          refine ⟨(afterSent_recorded sentAt transmits placed).paths old.paths, fun forms => ?_,
            fun _ => (old.covered transmits).sent old.paths transmits placed step⟩
          rw [afterSent_state] at forms
          exact absurd (old.forming forms).2 picked.not_nothing
        | false =>
          refine ⟨?_, fun forms => ?_, fun sends => ?_⟩
          · rw [afterSent_silent p sentAt transmits]
            exact ⟨old.paths.some, old.paths.distinct, old.paths.pmdcs⟩
          · rw [afterSent_state] at forms
            exact absurd (old.forming forms).2 picked.not_nothing
          · rw [afterSent_state, transmits] at sends
            cases sends

theorem Calm.packetRefused {strict : Prop} (s : Socket) (now : Time) (p : Pending) :
    Calm strict s (s.packetRefused now p) := by
  have deferred : Calm strict s { s with sends := s.sends.defer (now + msec sendRetryDelay) } :=
    ⟨⟨List.Sublist.refl _, Nat.le_refl _, fun _ => Or.inl, fun q member =>
      Or.inr ⟨q, member, .refl _⟩,
      fun _ => Or.inl, fun _ _ => Nat.le_refl _⟩, fun k => .kept rfl ⟨rfl, rfl⟩ fun _ => rfl⟩
  unfold Socket.packetRefused Socket.requeueBundledSack
  split
  · next chunk rest _ =>
    split
    · exact deferred
    · next other =>
      refine deferred.trans (.control _ ?_)
      have sack : chunk.type = .sack := by
        by_contra apart
        exact other (Or.inr apart)
      cases value : chunk.value with
      | sack sack => simp [NoData, Packet.dataChunks, value]
      | _ => simp [Chunk.type, value] at sack
  · exact deferred

theorem Orderly.nextPacket {s : Socket} {due : AssociationKey → BitVec 32 → Prop}
    (ok : Orderly s due) (now : Time) :
    Orderly (s.refilled now).socket due ∧ Orderly (s.nextPacket now).socket due := by
  have refilled : Orderly (s.refilled now).socket due :=
    refilled_keeps (fun s _ => Orderly s due) now ok (fun _ _ _ ok calm => ok.calm calm.weaken)
      (fun _ key ok => ok.schedulePending key true)
      fun _ _ _ _ _ _ _ ok found transmits step => ok.cut found transmits step
  exact ⟨refilled, refilled.calm (.nextPacket s now)⟩

theorem Orderly.sendOne {σ : System} (ok : Orderly σ.socket noneDue) (now : Time) (accepted : Bool)
    (left : Nat) :
    Orderly (σ.sendOne now accepted left).socket noneDue := by
  obtain ⟨refilled, next⟩ := ok.nextPacket now
  unfold System.sendOne
  simp only
  cases pending : (σ.socket.nextPacket now).pending with
  | none => exact next
  | some p =>
    simp only
    split
    · exact next.packetSent (picked_nextPacket refilled.queues pending) now
    · exact next.calm (.packetRefused _ now p)

/-! ## Every run -/

theorem Orderly.fresh (address : SockAddr) : Orderly (.fresh address) noneDue :=
  ⟨.fresh address, fun key => ⟨fun _ => ⟨rfl, rfl⟩, fun a found => by cases found⟩⟩

theorem Orderly.step {σ σ' : System} {event : Event} (ok : Orderly σ.socket noneDue)
    (stepped : σ.step event = some σ') : Orderly σ'.socket noneDue := by
  rcases System.step_cases stepped with ⟨now, draws, packet, src, -, -, rfl⟩ | ⟨now, draws, -,
    -, rfl⟩ | ⟨-, -, rfl⟩
    | ⟨now, accepted, left, -, -, rfl⟩ | ⟨s, called, rfl⟩
  · exact ok.handlePacket now draws packet src
  · exact ok.runExpire now draws
  · exact ok.startTransmissionOpportunity
  · exact ok.sendOne now accepted left
  · exact ok.calm (Calm.call called ok.empty)

theorem orderly_reached {allowed : System → Event → Prop} {σ : System}
    (reached : System.Reached allowed σ) :
    Orderly σ.socket noneDue := by
  refine reached.invariant (fun σ => Orderly σ.socket noneDue) (fun σ initial => ?_)
    fun σ event σ' ok _ stepped => ok.step stepped
  obtain ⟨address, rfl⟩ := initial
  exact .fresh address

/-- In every reachable state, each chunk outstanding and not acknowledged by a gap ack
block is marked for retransmission, or queued for it, or the T3-rtx timer of its path
is running. -/
theorem no_retransmission_lost {allowed : System → Event → Prop} {σ : System}
    (reached : System.Reached allowed σ) {key : AssociationKey} {a : Association}
    (found : σ.socket.find? key = some a) (transmits : transmitsData a.state = true) {tsn : Tsn}
    {chunk : OutstandingData} (outstanding : a.outstandingData.get? tsn = some chunk)
    (unacknowledged : chunk.gapAcked = false) :
    chunk.pendingRetransmission = true
      ∨ (∃ queued ∈ σ.socket.sends.retransmission, queued.deliverable.location = key
          ∧ ∃ data ∈ queued.deliverable.packet.dataChunks, data.tsn = tsn)
      ∨ σ.socket.expirations.isActive
          (pathTimerOf key .t3Rtx (a.path (destinationOf a chunk)).address) = true := by
  have covered := (((orderly_reached reached).keys key).assoc a found).covered transmits
  rcases covered.cover tsn chunk outstanding unacknowledged with marked | ⟨data, queued,
    name⟩ | active | impossible
  · exact Or.inl marked
  · refine Or.inr (Or.inl ?_)
    obtain ⟨q, member, inside⟩ := List.mem_flatMap.mp queued
    split at inside
    · next here =>
      obtain ⟨data', carried, same⟩ := List.mem_map.mp inside
      obtain ⟨-, rfl⟩ := Prod.mk.inj same
      exact ⟨q, member, here, data', carried, name⟩
    · cases inside
  · refine Or.inr (Or.inr ?_)
    have timer : pathTimerOf key .t3Rtx (a.path (destinationOf a chunk)).address
        = ⟨key, .t3Rtx, ⟨⟨chunk.destination.addr, 0#16⟩⟩⟩ := by
      rw [← (destinationOf_spec (covered.placed tsn chunk outstanding)).2]
      rfl
    rw [timer]
    exact active
  · exact impossible.elim

/-- A message of two bytes is sent, and waits for its acknowledgement. -/
theorem first_chunk_covered : ∃ σ a chunk, System.Reached (fun _ _ => True) σ
    ∧ σ.socket.find? Opened.key = some a ∧ a.outstandingData.get? 10#32 = some chunk
    ∧ chunk.gapAcked = false
    ∧ (chunk.pendingRetransmission = true
      ∨ (∃ queued ∈ σ.socket.sends.retransmission, queued.deliverable.location = Opened.key
          ∧ ∃ data ∈ queued.deliverable.packet.dataChunks, data.tsn = 10#32)
      ∨ σ.socket.expirations.isActive
          (pathTimerOf Opened.key .t3Rtx (a.path (destinationOf a chunk)).address) = true) := by
  obtain ⟨σ, reached, ends⟩ := Opened.exists_reached
    (.sendData Opened.key [1#8, 2#8] 0#16 false :: Opened.batch 1)
    (p := fun σ => (σ.socket.find? Opened.key).any fun a => transmitsData a.state
      && (a.outstandingData.get? 10#32).any fun chunk => !chunk.gapAcked) (by decide +kernel)
  obtain ⟨a, found, holds⟩ := (Option.any_eq_true _ _).mp ends
  obtain ⟨transmits, some⟩ := Bool.and_eq_true_iff.mp holds
  obtain ⟨chunk, here, unacked⟩ := (Option.any_eq_true _ _).mp some
  have unacknowledged : chunk.gapAcked = false := by simpa using unacked
  exact ⟨σ, a, chunk, reached, found, here, unacknowledged,
    no_retransmission_lost reached found transmits here unacknowledged⟩

end SctpStack
