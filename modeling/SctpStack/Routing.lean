import SctpStack.Views
import SctpStack.Works

/-!
# Where new DATA goes

A packet of new DATA is cut against the window of the data path and addressed there, and
it may then wait. While no step moves the data path of an association new DATA waits for,
what `next_packet` returns is still addressed to the path whose window it was admitted
against (`new_data_to_data_path`). Otherwise it is not.
-/

namespace SctpStack

/-! ## The data path -/

/-- What decides where new DATA goes. -/
def Association.roads (a : Association) : List (SockAddr × Bool × Bool) × SockAddr :=
  (a.peerAddressList.map fun path => (path.address, path.confirmed, path.active), a.primaryPath)

/-- Where new DATA goes. -/
def Association.route (a : Association) : SockAddr := (a.path (dataPath a)).address

section Roads

variable {a b : Association}

theorem findPath_roads (a : Association) (address : SockAddr) :
    findPath a address = a.roads.1.findIdx? fun road => sameDestination road.1 address := by
  rw [Association.roads, List.findIdx?_map]
  rfl

theorem path_roads (a : Association) (i : Nat) :
    ((a.path i).address, (a.path i).confirmed, (a.path i).active)
    = a.roads.1.getD i ((default : PeerPath).address, (default : PeerPath).confirmed,
    (default : PeerPath).active) := by
  rw [Association.roads, Association.path, List.getD_eq_getElem?_getD, List.getD_eq_getElem?_getD,
    List.getElem?_map]
  cases a.peerAddressList[i]? <;> rfl

theorem dataPath_congr (same : b.roads = a.roads) : dataPath b = dataPath a := by
  have preferred : primary b = primary a := by
    rw [primary, primary, findPath_roads, findPath_roads, same, show b.primaryPath
      = a.primaryPath from congrArg Prod.snd same]
  have active : ∀ i, (b.path i).active = (a.path i).active := by
    intro i
    have here := path_roads b i
    rw [same, ← path_roads a i] at here
    exact congrArg (fun road => road.2.2) here
  have first : ∀ c : Association, (c.peerAddressList.findIdx? fun path => path.confirmed
      && path.active)
      = c.roads.1.findIdx? fun road => road.2.1 && road.2.2 := by
    intro c
    rw [Association.roads, List.findIdx?_map]
    rfl
  simp only [dataPath, preferred, active, first, same]

theorem route_congr (same : b.roads = a.roads) : b.route = a.route := by
  have here := path_roads b (dataPath a)
  rw [same, ← path_roads a (dataPath a)] at here
  rw [Association.route, Association.route, dataPath_congr same]
  exact congrArg Prod.fst here

/-- The paths change, but not what decides between them. -/
theorem roads_modifyPath (a : Association) (i : Nat) {f : PeerPath → PeerPath}
    (same : ∀ path, (f path).address = path.address ∧ (f path).confirmed = path.confirmed
      ∧ (f path).active = path.active) :
    (a.modifyPath i f).roads = a.roads := by
  have paths : (a.modifyPath i f).peerAddressList.map (fun path =>
      (path.address, path.confirmed, path.active))
      = a.peerAddressList.map fun path => (path.address, path.confirmed, path.active) := by
    apply List.ext_getElem?
    intro j
    rw [Association.modifyPath, List.getElem?_map, List.getElem?_modify, List.getElem?_map]
    cases a.peerAddressList[j]? with
    | none => rfl
    | some path =>
      obtain ⟨address, confirmed, active⟩ := same path
      by_cases here : i = j
      · simp [here, address, confirmed, active]
      · simp [here]
  exact congrArg (fun paths => (paths, a.primaryPath)) paths

theorem roads_decayPaths (now : Time) (a : Association) : (decayPaths now a).roads = a.roads := by
  have paths : (decayPaths now a).peerAddressList.map (fun path =>
      (path.address, path.confirmed, path.active))
      = a.peerAddressList.map fun path => (path.address, path.confirmed, path.active) := by
    rw [decayPaths, List.map_map]
    refine List.map_congr_left fun path _ => ?_
    simp only [Function.comp_apply, decayIdleCwnd]
    split
    · rfl
    · split <;> rfl
  exact congrArg (fun paths => (paths, a.primaryPath)) paths

theorem roads_recordDataSentIn (a : Association) (destination : SockAddr) (data : DataChunkValue)
    (sentAt : Time) :
    (recordDataSentIn a destination data sentAt).roads = a.roads := by
  unfold recordDataSentIn
  simp only
  split
  · exact roads_modifyPath a _ (f := fun path =>
      { path with dataSentAt := sentAt, idleDecaying := false })
      fun _ => ⟨rfl, rfl, rfl⟩
  · refine (roads_modifyPath _ _ (f := fun path => { path with newDataSentAt := sentAt }) fun _ =>
      ⟨rfl, rfl, rfl⟩).trans ?_
    exact roads_modifyPath a _ (f := fun path =>
      { path with dataSentAt := sentAt, idleDecaying := false })
      fun _ => ⟨rfl, rfl, rfl⟩

end Roads

/-! ## What is queued goes there -/

/-- Every association is there before and after, and its new DATA goes where it went. -/
abbrev SameRoads : Socket → Socket → Prop := SameView Association.roads

/-- New DATA that waits is addressed to the data path. -/
def Routed (s : Socket) : Prop :=
  ∀ e ∈ s.sends.newData, ∀ a, s.find? e.deliverable.location = some a → e.deliverable.destination
    = a.route

section Socket

variable {s s' s'' : Socket} {key : AssociationKey}

theorem Routed.of_roads (routed : Routed s) (roads : SameRoads s s')
    (less : ∀ e ∈ s'.sends.newData, e ∈ s.sends.newData) :
    Routed s' := by
  intro e member b after
  obtain ⟨a, before, same⟩ := roads.found after
  rw [← route_congr same]
  exact routed e (less e member) a before

/-! ## A pass of the send loop -/

theorem roadsPass : PassView Association.roads where
  decay := roads_decayPaths
  unmark := fun _ _ => rfl
  cut := by
    intro a b only
    rw [only]
    rfl
  sack := fun _ _ _ => rfl

theorem schedulePending_newData (s : Socket) (key : AssociationKey) (gated : Bool) :
    (s.schedulePendingRetransmission key gated).sends.newData = s.sends.newData := by
  cases found : s.find? key with
  | none =>
    unfold Socket.schedulePendingRetransmission
    simp only [found]
  | some a =>
    rcases schedulePendingRetransmission_cases found gated with ⟨same, -⟩ | ⟨target, bundle, -,
      made⟩
    · rw [same]
    · rw [made]
      rfl

theorem refillRetransmissions_newData (s : Socket) (allowances : SendAllowances) :
    (s.refillRetransmissions allowances).sends.newData = s.sends.newData := by
  refine List.foldlRecOn (motive := fun s' : Socket => s'.sends.newData = s.sends.newData)
    allowances.keys _ rfl
    fun s' held key _ => ?_
  split
  · exact held
  · exact (schedulePending_newData s' key true).trans held

/-- What is cut is addressed to the data path. -/
theorem Routed.refillNewDataFor {r : Socket.Refill} (routed : Routed r.socket)
    (key : AssociationKey) :
    Routed (Socket.refillNewDataFor r key).socket := by
  rcases refillNewDataFor_cases r key with same | ⟨allowance, a, -, found, -, -, -, -, done⟩
  · rw [same]
    exact routed
  · have set : SameRoads r.socket (r.socket.setAssociation key (cutNewData a allowance).assoc) :=
      .set found (roadsPass.cut (cutNewDataFrom_spec allowance (a.pmdcs + 1) a 0 true).1)
    rcases done with ⟨-, socket, -⟩ | ⟨-, socket, -⟩
    · rw [socket]
      exact routed.of_roads set fun _ => id
    · rw [socket]
      intro e member b after
      rcases List.mem_append.mp member with old | new
      · exact routed.of_roads set (fun _ => id) e old b after
      · rw [List.mem_singleton.mp new] at after ⊢
        have here : (r.socket.setAssociation key (cutNewData a allowance).assoc).find? key
            = some b := after
        rw [Socket.find?_setAssociation, if_pos rfl, Option.some.injEq] at here
        rw [← here]
        rfl

theorem Routed.refilled (routed : Routed s) (now : Time) : Routed (s.refilled now).socket := by
  have windows : Routed (s.sendAllowances now).1 :=
    routed.of_roads (.sendAllowances roadsPass s now) fun _ => id
  have resent := windows.of_roads (.refillRetransmissions roadsPass _ (s.sendAllowances now).2)
    fun e member => by
    rw [refillRetransmissions_newData] at member
    exact member
  exact List.foldlRecOn (motive := fun r : Socket.Refill => Routed r.socket)
    (s.sendAllowances now).2.keys Socket.refillNewDataFor resent fun r held key _ =>
      held.refillNewDataFor key

theorem Routed.nextPacket (routed : Routed s) (now : Time) : Routed (s.nextPacket now).socket := by
  have armed : Routed (s.armed now) := by
    refine (routed.refilled now).of_roads (.of_find? fun k => armZeroWindowProbes_find? _ now _ k)
      fun e member => ?_
    rw [(armed_queues s now).2] at member
    exact member
  rw [nextPacket_eq]
  split
  · exact armed
  · split
    · exact armed
    · next p _ _ =>
      refine armed.of_roads (.prepareDataPacket roadsPass (s.armed now) p.deliverable
        (decide (p.priority = .newData)))
        fun e member => ?_
      have same := (prepareDataPacket_spec (s.armed now) p.deliverable
        (decide (p.priority = .newData))).newData
      rw [same] at member
      exact member

theorem SameRoads.chunkSent (s : Socket) (d : Deliverable) (sentAt : Time) (chunk : Chunk) :
    SameRoads s (s.chunkSent d sentAt chunk) := by
  unfold Socket.chunkSent
  simp only
  split
  · refine .update s _ fun a => ?_
    split
    · rfl
    · exact roads_modifyPath a _ fun path => by split <;> exact ⟨rfl, rfl, rfl⟩
  · refine .update s _ fun a => ?_
    split
    · exact roads_recordDataSentIn _ _ _ _
    · rfl
  · (repeat' split) <;> exact .refl s
  · (repeat' split) <;> exact .refl s
  · exact .refl s

theorem sends_chunkSent (s : Socket) (d : Deliverable) (sentAt : Time) (chunk : Chunk) :
    (s.chunkSent d sentAt chunk).sends = s.sends := by
  unfold Socket.chunkSent
  simp only
  (repeat' split) <;> rfl

theorem SameRoads.packetSent (s : Socket) (sentAt : Time) (p : Pending) :
    SameRoads s (s.packetSent sentAt p) := by
  have recorded : SameRoads s (({ s with sends := s.sends.commit p } :
      Socket).scheduleExpirationsAfterSend p.deliverable sentAt) := by
    have chunks : SameRoads { s with sends := s.sends.commit p } _ :=
      .foldl (fun s chunk => SameRoads.chunkSent s p.deliverable sentAt chunk)
        p.deliverable.packet.chunks _
    have start : SameRoads s { s with sends := s.sends.commit p } := .of_find? fun _ => rfl
    unfold Socket.scheduleExpirationsAfterSend
    simp only
    split
    · refine (start.trans chunks).trans (.of_find? fun k => ?_)
      unfold Socket.startT3IfStopped Socket.restartT3
      simp only
      (repeat' split) <;> rfl
    · exact start.trans chunks
  unfold Socket.packetSent
  simp only
  split
  · exact recorded
  · exact recorded.trans (.update _ _ fun _ => rfl)

theorem newData_packetSent (s : Socket) (sentAt : Time) (p : Pending) :
    ∀ e ∈ (s.packetSent sentAt p).sends.newData, e ∈ s.sends.newData := by
  have sends : (s.packetSent sentAt p).sends = s.sends.commit p := by
    have chunks : ∀ (chunks : List Chunk) (s : Socket),
        (chunks.foldl (fun s chunk => s.chunkSent p.deliverable sentAt chunk) s).sends
          = s.sends := by
      intro chunks
      induction chunks with
      | nil => exact fun s => rfl
      | cons chunk rest ih => exact fun s => (ih _).trans (sends_chunkSent s p.deliverable sentAt
          chunk)
    unfold Socket.packetSent Socket.scheduleExpirationsAfterSend Socket.startT3IfStopped
      Socket.restartT3
    simp only
    (repeat' split) <;> exact chunks _ _
  rw [sends]
  intro e member
  unfold SendQueue.commit at member
  simp only at member
  split at member
  · exact member
  · exact member
  · exact List.mem_of_mem_eraseP member

theorem packetRefused_roads (s : Socket) (now : Time) (p : Pending) :
    SameRoads s (s.packetRefused now p) ∧ (s.packetRefused now p).sends.newData
      = s.sends.newData := by
  unfold Socket.packetRefused Socket.requeueBundledSack
  split
  · split
    · exact ⟨.refl s, rfl⟩
    · refine ⟨.of_find? fun _ => rfl, ?_⟩
      simp only [Socket.enqueuePacket, SendQueue.enqueue]
      split <;> rfl
  · exact ⟨.refl s, rfl⟩

theorem Routed.sendOne {σ : System} (routed : Routed σ.socket) (now : Time) (accepted : Bool)
    (left : Nat) :
    Routed (σ.sendOne now accepted left).socket := by
  have next := routed.nextPacket now
  unfold System.sendOne
  simp only
  cases (σ.socket.nextPacket now).pending with
  | none => exact next
  | some p =>
    simp only
    split
    · exact next.of_roads (.packetSent _ now p) (newData_packetSent _ now p)
    · obtain ⟨roads, newData⟩ := packetRefused_roads (σ.socket.nextPacket now).socket now p
      refine next.of_roads roads fun e member => ?_
      rw [newData] at member
      exact member

end Socket

/-! ## Along a run -/

theorem KeyStep.newData_subset {strict : Prop} {s s' : Socket} {k : AssociationKey}
    (step : KeyStep strict s s' k) :
    newDataFor s' k ⊆ newDataFor s k := by
  cases step with
  | absent _ _ queued => exact fun e member => queued.1 ▸ member
  | same a b _ _ _ queued => exact fun e member => queued.1 ▸ member
  | gone _ empty =>
    rw [empty.1]
    exact List.nil_subset _
  | fresh b _ _ empty =>
    rw [empty.1]
    exact List.nil_subset _

/-- Until something is cut, the new DATA that waits is what waited before. -/
def SinceUncut (s₀ s : Socket) (cut : List (AssociationKey × DataChunkValue)) : Prop :=
  cut = [] → ∀ k, newDataFor s k ⊆ newDataFor s₀ k

theorem SinceUncut.step {s₀ s s' : Socket} {key : AssociationKey}
    {cut : List (AssociationKey × DataChunkValue)} (since : SinceUncut s₀ s cut)
    (others : ∀ k, k ≠ key → newDataFor s' k ⊆ newDataFor s k)
    (here : newDataFor s' key = newDataFor s key) : SinceUncut s₀ s' cut := by
  intro none k
  by_cases same : k = key
  · subst same
    rw [here]
    exact since none k
  · exact List.Subset.trans (others k same) (since none k)

theorem sinceUncut_keeps (s₀ : Socket) : Keeps (SinceUncut s₀) fun _ _ => True where
  calm := fun _ calm since none k => List.Subset.trans (calm.keys k).newData_subset (since none k)
  drain := fun _ since => since
  opportunity := fun since => since
  resend := fun _ step since => since.step (fun k apart => (step.step.aside k apart).newData_subset)
    step.step.newData
  cuts := by
    intro s s' key a b cut chunks _ _ _ step since none
    rw [List.append_eq_nil_iff, List.map_eq_nil_iff] at none
    obtain ⟨uncut, rfl⟩ := none
    rcases step.newData with ⟨-, same⟩ | ⟨some, -⟩
    · exact since.step (fun k apart => (step.aside k apart).newData_subset) same uncut
    · exact absurd rfl some
  sent := fun _ _ _ => trivial
  done := fun _ => trivial

/-- New DATA is queued by the send loop only. -/
theorem System.newData_before {σ σ' : System} {event : Event} (ok : Orderly σ.socket noneDue)
    (stepped : σ.step event = some σ') (unsent : ∀ now accepted, event ≠ .send now accepted)
    {e : Queued} (member : e ∈ σ'.socket.sends.newData) : e ∈ σ.socket.sends.newData := by
  have start : Along (SinceUncut σ.socket) σ.socket [] := ⟨fun _ _ _ => id, ok.everyDue⟩
  have since : SinceUncut σ.socket σ'.socket [] := by
    rcases System.step_cases stepped with ⟨now, draws, packet, src, rfl, -, rfl⟩ | ⟨now, draws,
      rfl, -, rfl⟩ | ⟨rfl, -, rfl⟩
      | ⟨now, accepted, left, rfl, -, rfl⟩ | ⟨s, called, rfl⟩
    · refine ((sinceUncut_keeps σ.socket).handlePacket now draws packet src
        (fun _ key _ _ chunk _ s₁ s₂ a b _ step since => ?_) start).1
      obtain ⟨gone, sender⟩ := step.sender
      exact since.step (fun k apart => (sender.aside k apart).newData_subset) sender.newData
    · exact ((sinceUncut_keeps σ.socket).runExpire now draws start).1
    · exact start.1
    · exact absurd rfl (unsent now accepted)
    · exact (sinceUncut_keeps σ.socket).calm start.2 (Calm.call called ok.empty) start.1
  have here : e ∈ newDataFor σ'.socket e.deliverable.location :=
    List.mem_filter.mpr ⟨member, decide_eq_true rfl⟩
  exact List.mem_of_mem_filter (since rfl _ here)

/-- The step moves the data path of an association new DATA waits for. -/
def System.reroutes (σ : System) (event : Event) : Bool :=
  (σ.step event).any fun σ' => σ.socket.sends.newData.any fun e =>
    decide (e ∈ σ'.socket.sends.newData) && (σ.socket.find? e.deliverable.location).any fun a =>
      (σ'.socket.find? e.deliverable.location).any fun b =>
      decide (b.route ≠ a.route)

theorem Routed.step {σ σ' : System} {event : Event} (standing : Standing σ.socket)
    (ok : Orderly σ.socket noneDue) (routed : Routed σ.socket) (kept : σ.reroutes event = false)
    (stepped : σ.step event = some σ') : Routed σ'.socket := by
  by_cases sends : ∃ now accepted, event = .send now accepted
  · obtain ⟨now, accepted, rfl⟩ := sends
    rcases System.step_cases stepped with ⟨_, _, _, _, is, -, rfl⟩ | ⟨_, _, is, -, rfl⟩ | ⟨is,
      -, rfl⟩
      | ⟨_, _, left, is, -, rfl⟩ | ⟨s, called, rfl⟩
    · cases is
    · cases is
    · cases is
    · exact routed.sendOne _ _ left
    · cases called
  · intro e member b after
    have before := System.newData_before ok stepped (fun now accepted is =>
      sends ⟨now, accepted, is⟩) member
    obtain ⟨a, found, -⟩ := standing.waiting e (List.mem_append_right _ before)
    have same : b.route = a.route := by
      by_contra moved
      have moves : σ.reroutes event = true := by
        rw [System.reroutes, stepped, Option.any_some, List.any_eq_true]
        refine ⟨e, before, ?_⟩
        rw [Bool.and_eq_true]
        refine ⟨decide_eq_true member, ?_⟩
        rw [found, Option.any_some, after, Option.any_some]
        exact decide_eq_true moved
      rw [kept] at moves
      cases moves
    rw [same]
    exact routed e before a found

theorem System.Reached.routed {σ : System}
    (reached : System.Reached (fun σ event => σ.reroutes event = false) σ) :
    Routed σ.socket := by
  induction reached with
  | start initial =>
    obtain ⟨address, rfl⟩ := initial
    exact fun e member => absurd member List.not_mem_nil
  | next reached kept stepped ih =>
      exact ih.step (System.Reached.standing reached) (orderly_reached reached) kept stepped

/-! ## What is admitted -/

/-- New DATA is admitted by the allowance of its association. -/
theorem peekNewData_admits {allowances : SendAllowances} {refused : List AssociationKey}
    {queue : List Queued} {p : Pending}
    (picked : (SendQueue.peekNewData allowances refused queue).1 = some p)
    {windows : SendAllowances} (same : ∀ k allowance, allowances.get? k = some allowance →
      ∃ window, windows.get? k = some window ∧ allowance.cwndOpen = window.cwndOpen) :
    ∃ window, windows.get? p.deliverable.location = some window ∧ window.cwndOpen = true := by
  induction queue generalizing allowances refused with
  | nil => cases picked
  | cons q rest ih =>
    unfold SendQueue.peekNewData at picked
    simp only at picked
    split at picked
    · exact ih picked same
    · cases here : allowances.get? q.deliverable.location with
      | none =>
        rw [here] at picked
        exact ih picked same
      | some allowance =>
        rw [here] at picked
        simp only at picked
        have open_ : (admits allowance q.deliverable.packet).2.cwndOpen = allowance.cwndOpen := by
          unfold admits
          split
          · rfl
          · split <;> rfl
        split at picked
        · next admitted =>
          cases picked
          obtain ⟨window, there, cwnd⟩ := same _ allowance here
          refine ⟨window, there, ?_⟩
          rw [← cwnd]
          unfold admits at admitted
          split at admitted
          · cases admitted
          · next room =>
            rw [Bool.or_eq_true, not_or] at room
            simpa using room.1
        · refine ih picked fun k allowance' found => ?_
          rw [KeyMap.get?_put] at found
          split at found
          · next is =>
            cases found
            rw [is, open_]
            exact same _ allowance here
          · exact same k allowance' found

theorem peek_admits {q : SendQueue} {now : Time} {allowances windows : SendAllowances} {p : Pending}
    (picked : (q.peek now allowances).1 = some p) (new : p.priority = .newData)
    (same : ∀ k allowance, allowances.get? k = some allowance →
      ∃ window, windows.get? k = some window ∧ allowance.cwndOpen = window.cwndOpen) :
    ∃ window, windows.get? p.deliverable.location = some window ∧ window.cwndOpen = true := by
  unfold SendQueue.peek at picked
  split at picked
  · cases picked
  · split at picked
    · cases picked
      cases new
    · cases picked
      cases new
    · split at picked
      · next p' allowances' found =>
        cases picked
        have first : (SendQueue.peekNewData allowances [] q.newData).1 = some p := by rw [found]
        exact peekNewData_admits first same
      · cases picked

/-- Refilling changes no congestion window. -/
theorem refilled_windows (s : Socket) (now : Time) (k : AssociationKey) (allowance : SendAllowance)
    (found : (s.refilled now).allowances.get? k = some allowance) :
    ∃ window, (s.sendAllowances now).2.get? k = some window ∧ allowance.cwndOpen
      = window.cwndOpen := by
  have all : ∀ k allowance, (s.refilled now).allowances.get? k = some allowance →
      ∃ window, (s.sendAllowances now).2.get? k = some window ∧ allowance.cwndOpen
        = window.cwndOpen := by
    refine List.foldlRecOn (motive := fun r : Socket.Refill => ∀ k allowance, r.allowances.get? k
      = some allowance → ∃ window, (s.sendAllowances now).2.get? k = some window
      ∧ allowance.cwndOpen = window.cwndOpen) (s.sendAllowances now).2.keys Socket.refillNewDataFor
        (fun k allowance here => ⟨allowance, here, rfl⟩)
      fun r held key _ k allowance here => ?_
    rcases refillNewDataFor_cases r key with same | ⟨before, a, there, -, -, -, -, allowances, -⟩
    · rw [same] at here
      exact held k allowance here
    · rw [allowances, KeyMap.get?_put] at here
      split at here
      · next is =>
        cases here
        rw [is]
        exact held key before there
      · exact held k allowance here
  exact all k allowance found

/-- While no step moves the data path of an association new DATA waits for: new DATA that
`next_packet` returns is addressed to the data path as it then stands, and the congestion
window it was admitted against is that of this path. -/
theorem new_data_to_data_path {σ : System}
    (reached : System.Reached (fun σ event => σ.reroutes event = false) σ) (now : Time)
    {p : Pending} (next : (σ.socket.nextPacket now).pending = some p)
    (new : p.priority = .newData) :
    ∃ a b, (σ.socket.sendAllowances now).1.find? p.deliverable.location = some a
      ∧ p.deliverable.destination = (a.path (dataPath a)).address ∧ cwndOpen a (dataPath a) = true
      ∧ (σ.socket.nextPacket now).socket.find? p.deliverable.location = some b
      ∧ p.deliverable.destination = (b.path (dataPath b)).address := by
  have routed := System.Reached.routed reached
  have routed' := routed.nextPacket now
  have roads := (SameView.sendAllowances roadsPass σ.socket now).symm.trans
    (.nextPacket roadsPass σ.socket now)
  have orderly := orderly_reached reached
  have works : Works (fun _ => True) (.send now true) σ.socket _ :=
    (Works.nextPacket (System.Reached.standing reached) now).1
  have standing := works.standing (System.Reached.standing reached)
  cases picked_nextPacket (orderly.everyDue.nextPacket now).1.queues next with
  | control is => rw [new] at is; cases is
  | retransmission q rest is => rw [new] at is; cases is
  | newData q is member picked =>
    obtain ⟨b, after, -⟩ := standing.waiting q (List.mem_append_right _ member)
    obtain ⟨a, before, same⟩ := roads.found after
    have addressed : p.deliverable.destination = b.route :=
      picked.destination.trans (routed' q member b after)
    rw [← picked.location] at before after
    refine ⟨a, b, before, addressed.trans (route_congr same).symm, ?_, after, addressed⟩
    -- The packet was found in the queue by the allowances, and those are of this snapshot.
    rw [nextPacket_eq] at next
    cases peeked : (σ.socket.peeked now).1 with
    | none =>
      rw [peeked] at next
      cases next
    | some p' =>
      simp only [peeked] at next
      have given : p'.priority = .newData ∧ p'.deliverable.location = p.deliverable.location := by
        split at next
        · cases next
          exact ⟨new, rfl⟩
        · cases next
          exact ⟨new, (prepareDataPacket_spec _ _ _).location.symm⟩
      obtain ⟨window, there, open_⟩ := peek_admits peeked given.1 (refilled_windows σ.socket now)
      rw [given.2, get?_sendAllowances, before, Option.bind_some] at there
      split at there
      · cases there
        exact open_
      · cases there

namespace Opened

/-- A second address of the peer, named in its INIT ACK. -/
def other : SockAddr := ⟨0x0A000004#32, 5000#16⟩

def twoInitAck : Chunk :=
  ⟨0#8, .initAck ⟨7#32, 65535#32, 1#16, 1#16, 100#32,
    [0x00#8, 0x07#8, 0x00#8, 0x05#8, 0x01#8, 0#8, 0#8, 0#8, 0x00#8, 0x05#8, 0x00#8, 0x08#8, 0x0A#8,
    0x00#8, 0x00#8, 0x04#8]⟩⟩

/-- Both addresses are confirmed, and new DATA is cut while a HEARTBEAT goes out first. -/
def twoPaths : List Event :=
  [.associate draws peer 5000#16] ++ batch 1 ++ [arrives [twoInitAck]] ++ batch 1
    ++ [arrives [⟨0#8, .cookieAck⟩], .requestHeartbeat 0 draws key other] ++ batch 1
    ++ [arrives [⟨0#8, .heartbeatAck (heartbeatInfo 0#64 other)⟩], .sendData key [42#8] 0#16 false,
      .requestHeartbeat 0 draws key peer, .startSending, .send 0 true]

end Opened

/-- Nothing moves, and the DATA goes to the primary path. -/
theorem waiting_data_routed : ∃ σ p, System.Reached (fun σ event => σ.reroutes event = false) σ
    ∧ (σ.socket.nextPacket 0).pending = some p ∧ p.priority = .newData
    ∧ ∃ b, (σ.socket.nextPacket 0).socket.find? p.deliverable.location = some b
      ∧ p.deliverable.destination = (b.path (dataPath b)).address := by
  obtain ⟨σ, reached, ends⟩ := Opened.exists_run_while (fun σ event => σ.reroutes event = false)
    Opened.twoPaths
    (p := fun σ : System => (σ.socket.nextPacket 0).pending.any fun p : Pending =>
      decide (p.priority = .newData)) (by decide +kernel)
  obtain ⟨p, next, new⟩ := (Option.any_eq_true _ _).mp ends
  have is := of_decide_eq_true new
  obtain ⟨a, b, -, -, -, after, addressed⟩ := new_data_to_data_path reached 0 next is
  exact ⟨σ, p, reached, next, is, b, after, addressed⟩

/-- The primary path is moved while new DATA waits: `next_packet` returns it for the old one. -/
theorem waiting_data_misrouted : ∃ σ p b, System.Reached (fun _ _ => True) σ
    ∧ (σ.socket.nextPacket 0).pending = some p ∧ p.priority = .newData
    ∧ (σ.socket.nextPacket 0).socket.find? p.deliverable.location = some b
    ∧ p.deliverable.destination.addr ≠ (b.path (dataPath b)).address.addr := by
  obtain ⟨σ, reached, ends⟩ := Opened.exists_run (Opened.twoPaths
    ++ [.setPrimary Opened.key Opened.other])
    (p := fun σ : System => (σ.socket.nextPacket 0).pending.any fun p : Pending =>
      decide (p.priority = .newData)
        && ((σ.socket.nextPacket 0).socket.find? p.deliverable.location).any fun b : Association =>
        p.deliverable.destination.addr != (b.path (dataPath b)).address.addr) (by decide +kernel)
  obtain ⟨p, next, terms⟩ := (Option.any_eq_true _ _).mp ends
  rw [Bool.and_eq_true, decide_eq_true_eq, Option.any_eq_true] at terms
  obtain ⟨new, b, found, apart⟩ := terms
  exact ⟨σ, p, b, reached, next, new, found, bne_iff_ne.mp apart⟩

end SctpStack
