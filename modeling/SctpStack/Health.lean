import SctpStack.UpkeepSteps
import SctpStack.Decay

/-!
# The health of the paths

Whatever the peer sends or leaves out, the RTO of every path stays between its bounds, its
ssthresh at four packets or more, and it is inactive exactly once its errors passed
Path.Max.Retrans; and no association counts more errors than it tolerates. Its cwnd never
falls below what lets a packet out while no SACK comes for an association with close to 2^32
bytes outstanding: only then may the sum of 32 bits wrap (`paths_healthy`).
-/

namespace SctpStack

/-- What failure detection and congestion control keep of a path. -/
structure Healthy (pmdcs : Nat) (path : PeerPath) : Prop where
  least : rtoMin ≤ path.rto
  most : path.rto ≤ rtoMax
  ssthresh : 4 * pmdcs ≤ path.ssthresh
  counted : path.errorCount ≤ pathMaxRetrans + 1
  active : path.active = true ↔ path.errorCount ≤ pathMaxRetrans

/-- An association whose paths are healthy, and which is not past giving up. -/
structure WellKept (a : Association) : Prop where
  pmdcs : a.pmdcs = defaultPmdcs
  threshold : a.errorThreshold = associationMaxRetrans
  errors : a.errorCount ≤ a.errorThreshold
  paths : ∀ path ∈ a.peerAddressList, Healthy a.pmdcs path

/-! ## One path -/

section Path

variable {pmdcs : Nat} {grows : Nat → Prop} {path path' : PeerPath}

theorem Healthy.of_gauge (healthy : Healthy pmdcs path) (same : path'.gauge = path.gauge) :
    Healthy pmdcs path' := by
  have rto : path'.rto = path.rto := congrArg Gauge.rto same
  have ssthresh : path'.ssthresh = path.ssthresh := congrArg Gauge.ssthresh same
  have errors : path'.errorCount = path.errorCount := congrArg Gauge.errorCount same
  have active : path'.active = path.active := congrArg Gauge.active same
  constructor
  · rw [rto]
    exact healthy.least
  · rw [rto]
    exact healthy.most
  · rw [ssthresh]
    exact healthy.ssthresh
  · rw [errors]
    exact healthy.counted
  · rw [active, errors]
    exact healthy.active

theorem healthy_makePath (address : SockAddr) (confirmed : Bool) :
    Healthy defaultPmdcs (makePath address confirmed defaultPmdcs) where
  least := (show rtoMin ≤ rtoInitial from by decide)
  most := (show rtoInitial ≤ rtoMax from by decide)
  ssthresh := (show 4 * defaultPmdcs ≤ rwnd from by decide)
  counted := Nat.zero_le _
  active := ⟨fun _ => Nat.zero_le _, fun _ => rfl⟩

theorem Healthy.doubled (healthy : Healthy pmdcs path) : Healthy pmdcs (doubleRto path) where
  least := by
    have positive : (0 : Int) ≤ path.rto := le_trans (by decide) healthy.least
    have twice : path.rto ≤ path.rto * 2 := by
      rw [mul_two]
      exact Int.le_add_of_nonneg_right positive
    exact le_min (le_trans healthy.least twice) (by decide)
  most := min_le_right _ _
  ssthresh := healthy.ssthresh
  counted := healthy.counted
  active := healthy.active

theorem Healthy.measured (healthy : Healthy pmdcs path) (measurement : Micros) :
    Healthy pmdcs (updateRto path measurement) := by
  have smoothed : ∃ p : PeerPath, p.gauge = path.gauge
      ∧ updateRto path measurement = { p
        with rto := max rtoMin (min (p.srtt + p.rttvar * 4) rtoMax) } := by
    refine ⟨_, ?_, rfl⟩
    simp only
    (repeat' split) <;> rfl
  obtain ⟨p, same, updated⟩ := smoothed
  rw [updated]
  exact { healthy.of_gauge same with
    least := le_max_left _ _
    most := max_le (by decide) (min_le_right _ _) }

theorem Healthy.countedError (healthy : Healthy pmdcs path) :
    Healthy pmdcs (countPathError path).1 := by
  unfold countPathError
  split
  · next is =>
    have few := healthy.active.mp is
    simp only
    split
    · next past =>
      refine { healthy with counted := Nat.succ_le_succ few, active := ?_ }
      exact ⟨fun none => absurd none Bool.false_ne_true, fun low =>
        absurd low (Nat.not_le.mpr past)⟩
    · next low =>
      refine { healthy with counted := Nat.succ_le_succ few, active := ?_ }
      exact ⟨fun _ => Nat.le_of_not_lt low, fun _ => is⟩
  · exact healthy

theorem Healthy.cleared (healthy : Healthy pmdcs path) :
    Healthy pmdcs (clearPathErrors path).1 where
  least := healthy.least
  most := healthy.most
  ssthresh := healthy.ssthresh
  counted := Nat.zero_le _
  active := ⟨fun _ => Nat.zero_le _, fun _ => rfl⟩

theorem Healthy.grown (healthy : Healthy pmdcs path) (inFastRecovery : Bool)
    (bytesAcked duplicateBytes flightBefore : Nat) :
    Healthy pmdcs (growCwnd inFastRecovery pmdcs path bytesAcked duplicateBytes flightBefore) := by
  have wider : ∀ cwnd partly, Healthy pmdcs
      { path with cwnd := cwnd, partialBytesAcked := partly } := fun _ _ =>
    { healthy with }
  unfold growCwnd
  simp only
  (repeat' split) <;> exact wider _ _

theorem Healthy.halved (healthy : Healthy pmdcs path) : Healthy pmdcs (halveCwnd pmdcs path) where
  least := healthy.least
  most := healthy.most
  ssthresh := le_max_right _ _
  counted := healthy.counted
  active := healthy.active

theorem Healthy.collapsed (healthy : Healthy pmdcs path) :
    Healthy pmdcs (collapseCwnd pmdcs path) where
  least := healthy.least
  most := healthy.most
  ssthresh := le_max_right _ _
  counted := healthy.counted
  active := healthy.active

theorem Healthy.decayed (healthy : Healthy pmdcs path) (now : Time) :
    Healthy pmdcs (decayIdleCwnd pmdcs now path) := by
  unfold decayIdleCwnd
  simp only
  split
  · exact healthy
  · split
    · exact healthy.of_gauge rfl
    · next above =>
      have room : 4 * pmdcs ≤ path.cwnd := Nat.le_of_not_le above
      refine { healthy with ssthresh := ?_ }
      show 4 * pmdcs ≤ if path.idleDecaying = true then path.ssthresh else path.cwnd
      split
      · exact healthy.ssthresh
      · exact room

theorem Healthy.adjusts (healthy : Healthy pmdcs path) (step : Adjusts pmdcs grows path path') :
    Healthy pmdcs path' := by
  cases step with
  | other same => exact healthy.of_gauge same
  | doubled => exact healthy.doubled
  | measured measurement => exact healthy.measured measurement
  | counted => exact healthy.countedError
  | cleared => exact healthy.cleared
  | grown inFastRecovery bytesAcked duplicateBytes _ =>
      exact healthy.grown inFastRecovery bytesAcked duplicateBytes _
  | halved => exact healthy.halved
  | collapsed => exact healthy.collapsed
  | decayed now => exact healthy.decayed now

theorem Healthy.adjusted (healthy : Healthy pmdcs path) (steps : Adjusted pmdcs grows path path') :
    Healthy pmdcs path' := by
  induction steps with
  | refl => exact healthy
  | tail _ step ih => exact ih.adjusts step

theorem healthy_paths {paths paths' : List PeerPath}
    (each : List.Forall₂ (Adjusted pmdcs grows) paths paths')
    (healthy : ∀ path ∈ paths, Healthy pmdcs path) : ∀ path ∈ paths', Healthy pmdcs path := by
  induction each with
  | nil => exact healthy
  | cons steps _ ih =>
    obtain ⟨first, rest⟩ := List.forall_mem_cons.mp healthy
    exact List.forall_mem_cons.mpr ⟨first.adjusted steps, ih rest⟩

end Path

/-! ## One association -/

section Kept

variable {a b : Association}

theorem WellKept.of_paths (grows : Nat → Prop) (kept : WellKept a) (pmdcs : b.pmdcs = a.pmdcs)
    (threshold : b.errorThreshold = a.errorThreshold) (errors : b.errorCount ≤ a.errorThreshold)
    (paths : List.Forall₂ (Adjusted a.pmdcs grows) a.peerAddressList b.peerAddressList) :
    WellKept b where
  pmdcs := pmdcs.trans kept.pmdcs
  threshold := threshold.trans kept.threshold
  errors := by
    rw [threshold]
    exact errors
  paths := by
    rw [pmdcs]
    exact healthy_paths paths kept.paths

/-- Nothing that matters here changed but the errors, and they are few. -/
theorem WellKept.of_errors (kept : WellKept a) (pmdcs : b.pmdcs = a.pmdcs)
    (threshold : b.errorThreshold = a.errorThreshold) (errors : b.errorCount ≤ a.errorThreshold)
    (paths : b.peerAddressList = a.peerAddressList) : WellKept b := by
  refine .of_paths (fun _ => False) kept pmdcs threshold errors ?_
  rw [paths]
  exact forall₂_adjusted_refl _

theorem wellKept_opened (draws : Draws) (destination : SockAddr) :
    WellKept (initNewAssociation draws destination) where
  pmdcs := rfl
  threshold := rfl
  errors := Nat.zero_le _
  paths := by
    intro path member
    rw [List.mem_singleton.mp member]
    exact healthy_makePath destination true

theorem wellKept_created (cookie : StateCookie) :
    WellKept (initNewAssociationFromCookie cookie) where
  pmdcs := rfl
  threshold := rfl
  errors := Nat.zero_le _
  paths := by
    intro path member
    rw [List.mem_singleton.mp member]
    exact healthy_makePath (cookieSource cookie) true

theorem WellKept.listed (kept : WellKept a) (address : SockAddr) :
    WellKept (withPath a address) := by
  unfold withPath
  split
  · refine ⟨kept.pmdcs, kept.threshold, kept.errors, fun path member => ?_⟩
    rcases List.mem_append.mp member with before | new
    · exact kept.paths path before
    · rw [List.mem_singleton.mp new, kept.pmdcs]
      exact healthy_makePath address false
  · exact kept

theorem WellKept.regauge (kept : WellKept a) (i : Nat) {f : PeerPath → PeerPath}
    (each : ∀ path, (f path).gauge = path.gauge) :
    WellKept (a.modifyPath i f) :=
  .of_paths (fun _ => False) kept rfl rfl kept.errors (forall₂_adjusted_modify i fun path =>
    .of_gauge (each path))

theorem WellKept.sent (kept : WellKept a) (destination : SockAddr) (data : DataChunkValue)
    (sentAt : Time) :
    WellKept (recordDataSentIn a destination data sentAt) := by
  have stamped : WellKept (a.modifyPath (sentOn a destination) fun path =>
      { path with dataSentAt := sentAt, idleDecaying := false }) :=
    kept.regauge _ fun _ => rfl
  unfold recordDataSentIn
  simp only
  split
  · exact stamped.of_errors rfl rfl stamped.errors rfl
  · have fresh := stamped.regauge (sentOn a destination) (f := fun path =>
      { path with newDataSentAt := sentAt }) fun _ => rfl
    exact fresh.of_errors rfl rfl fresh.errors rfl

theorem WellKept.acked (kept : WellKept a) (sack : SackChunkValue) (now : Time) :
    WellKept (acknowledgeEntries a sack now) := by
  have errors : ∀ newly : Bool, (if newly = true then 0 else a.errorCount) ≤ a.errorThreshold := by
    intro newly
    split
    · exact Nat.zero_le _
    · exact kept.errors
  unfold acknowledgeEntries
  simp only
  split
  · exact kept.of_errors rfl rfl (errors _) rfl
  · next i firstSent _ =>
    refine .of_paths (fun _ => False) kept rfl rfl (errors _) ?_
    exact forall₂_adjusted_modify i fun _ => .single (.measured _)

theorem upkeep_wellKept (start : Option Association) (cause : Cause → Prop) :
    Upkeep start cause fun _ a => WellKept a where
  opened _ draws destination _ := wellKept_opened draws destination
  created _ cookie _ := wellKept_created cookie
  restarted _ cookie _ _ := wellKept_created cookie
  collided _ _ _ kept := kept.of_errors rfl rfl kept.errors rfl
  answered _ _ kept := kept.of_errors rfl rfl kept.errors rfl
  retried _ kept := kept.of_errors rfl rfl kept.errors rfl
  adjusted figures paths _ kept := by
    refine .of_paths _ kept (congrArg Figures.pmdcs figures)
      (congrArg Figures.errorThreshold figures) ?_ paths
    exact (congrArg Figures.errorCount figures).trans_le kept.errors
  listed address kept := kept.listed address
  onward _ _ kept := kept.of_errors rfl rfl kept.errors rfl
  undelayed _ kept := kept
  heard kept := kept.of_errors rfl rfl (Nat.zero_le _) rfl
  missed few kept := kept.of_errors rfl rfl few rfl
  queued _ _ _ _ kept := kept.of_errors rfl rfl kept.errors rfl
  cut {r a} allowance _ kept := by
    rw [cutNewData_only a allowance]
    exact kept.of_errors rfl rfl kept.errors rfl
  sent destination data sentAt _ kept := kept.sent destination data sentAt
  marked _ _ kept := kept.of_errors rfl rfl kept.errors rfl
  acked sack now _ kept := kept.acked sack now
  ackedByShutdown cumulativeTsnAck _ kept := by
    refine kept.of_errors rfl rfl ?_ rfl
    unfold acknowledgeShutdown
    simp only
    split
    · exact Nat.zero_le _
    · exact kept.errors
  timed _ _ kept := kept.of_errors rfl rfl kept.errors rfl
  received _ only kept := by
    rw [only]
    exact kept.of_errors rfl rfl kept.errors rfl
  reported kept := kept.of_errors rfl rfl kept.errors rfl
  delayed _ _ kept := kept.of_errors rfl rfl kept.errors rfl

end Kept

/-! ## Windows -/

section Windows

variable {pmdcs : Nat} {grows : Nat → Prop} {path path' : PeerPath}

/-- A full window grows without wrapping while the flightsize is a PMDCS below 2^32. -/
theorem le_growCwnd (inFastRecovery : Bool) (bytesAcked duplicateBytes : Nat) {flightBefore : Nat}
    (room : flightBefore + pmdcs < 2 ^ 32) :
    path.cwnd ≤ (growCwnd inFastRecovery pmdcs path bytesAcked duplicateBytes
      flightBefore).cwnd := by
  unfold growCwnd
  simp only
  split
  · split
    · next full =>
      rw [Bool.and_eq_true, decide_eq_true_eq] at full
      have once : min bytesAcked (slowStartIncreasePmdcs * pmdcs) ≤ pmdcs :=
        (Nat.min_le_right _ _).trans (Nat.le_of_eq (Nat.one_mul pmdcs))
      show path.cwnd ≤ (path.cwnd + min bytesAcked (slowStartIncreasePmdcs * pmdcs)) % 2 ^ 32
      rw [Nat.mod_eq_of_lt (by omega)]
      exact Nat.le_add_right _ _
    · exact Nat.le_refl _
  · split
    · next full =>
      rw [decide_eq_true_eq] at full
      show path.cwnd ≤ (path.cwnd + pmdcs) % 2 ^ 32
      rw [Nat.mod_eq_of_lt (by omega)]
      exact Nat.le_add_right _ _
    · split <;> exact Nat.le_refl _

theorem Adjusts.window (step : Adjusts pmdcs grows path path')
    (room : ∀ flight, grows flight → flight + pmdcs < 2 ^ 32) (wide : pmdcs ≤ path.cwnd) :
    pmdcs ≤ path'.cwnd := by
  cases step with
  | other same =>
    rw [show path'.cwnd = path.cwnd from congrArg Gauge.cwnd same]
    exact wide
  | doubled => exact wide
  | measured measurement =>
    rw [updateRto_cwnd]
    exact wide
  | counted =>
    simp only [countPathError]
    (repeat' split) <;> exact wide
  | cleared => exact wide
  | grown inFastRecovery bytesAcked duplicateBytes at_ =>
    exact wide.trans (le_growCwnd inFastRecovery bytesAcked duplicateBytes (room _ at_))
  | halved => exact (Nat.le_mul_of_pos_left pmdcs (by decide)).trans (Nat.le_max_right _ _)
  | collapsed => exact Nat.le_refl pmdcs
  | decayed now =>
    unfold decayIdleCwnd
    simp only
    split
    · exact wide
    · split
      · exact wide
      · next above =>
        exact (Nat.le_mul_of_pos_left pmdcs (by decide)).trans
          (le_halveTo _ (Nat.le_of_not_le above))

theorem windows_adjusted {paths paths' : List PeerPath}
    (each : List.Forall₂ (Adjusted pmdcs grows) paths paths')
    (room : ∀ flight, grows flight → flight + pmdcs < 2 ^ 32)
    (wide : ∀ path ∈ paths, pmdcs ≤ path.cwnd) :
    ∀ path ∈ paths', pmdcs ≤ path.cwnd := by
  have steps : ∀ {path path'}, Adjusted pmdcs grows path path' → pmdcs ≤ path.cwnd →
      pmdcs ≤ path'.cwnd := by
    intro path path' steps wide
    induction steps with
    | refl => exact wide
    | tail _ step ih => exact step.window room ih
  induction each with
  | nil => exact wide
  | cons first _ ih =>
    obtain ⟨here, rest⟩ := List.forall_mem_cons.mp wide
    exact List.forall_mem_cons.mpr ⟨steps first here, ih rest⟩

end Windows

/-- Every window has room for a packet; and where SACKs come, none can wrap. -/
structure Roomy (cause : Cause → Prop) (a : Association) : Prop where
  pmdcs : a.pmdcs = defaultPmdcs
  windows : ∀ path ∈ a.peerAddressList, defaultPmdcs ≤ path.cwnd
  bounded : (∃ sack, cause (.chunk (.sack sack))) → outstandingBytes a + defaultPmdcs < 2 ^ 32

section Roomy

variable {cause : Cause → Prop} {a b : Association}

/-- The paths are the same, and no more is outstanding. -/
theorem Roomy.of_paths (roomy : Roomy cause a) (pmdcs : b.pmdcs = a.pmdcs)
    (paths : b.peerAddressList = a.peerAddressList)
    (less : outstandingBytes b ≤ outstandingBytes a) : Roomy cause b := by
  refine ⟨pmdcs.trans roomy.pmdcs, ?_, fun sacks => ?_⟩
  · rw [paths]
    exact roomy.windows
  · exact (Nat.add_le_add_right less _).trans_lt (roomy.bounded sacks)

/-- A path changes, its window left alone. -/
theorem Roomy.modifyPath (roomy : Roomy cause a) (i : Nat) {f : PeerPath → PeerPath}
    (same : ∀ path, (f path).cwnd = path.cwnd) : Roomy cause (a.modifyPath i f) := by
  refine ⟨roomy.pmdcs, fun path member => ?_, roomy.bounded⟩
  obtain ⟨n, bound, rfl⟩ := List.mem_iff_getElem.mp member
  simp only [Association.modifyPath, List.length_modify] at bound
  simp only [Association.modifyPath, List.getElem_modify]
  have wide := roomy.windows _ (List.getElem_mem bound)
  split
  · rw [same]
    exact wide
  · exact wide

theorem roomy_single {address : SockAddr} {confirmed : Bool} (pmdcs : a.pmdcs = defaultPmdcs)
    (paths : a.peerAddressList = [makePath address confirmed defaultPmdcs])
    (none : a.outstandingData = ∅) : Roomy cause a := by
  refine ⟨pmdcs, fun path member => ?_, fun _ => ?_⟩
  · rw [paths] at member
    rw [List.mem_singleton.mp member]
    exact (by decide : defaultPmdcs ≤ initialCwnd defaultPmdcs)
  · rw [outstandingBytes, none]
    decide

theorem Roomy.acked (roomy : Roomy cause a) (sack : SackChunkValue) (now : Time) :
    Roomy cause (acknowledgeEntries a sack now) := by
  have less : outstandingBytes { a
      with outstandingData := a.outstandingData.filterMap (ackEntry sack) }
      ≤ outstandingBytes a := by
    refine KeyMap.weight_filterMap_le _ fun tsn o o' kept => ?_
    unfold ackEntry at kept
    (repeat' split at kept) <;> cases kept <;> exact Nat.le_refl _
  unfold acknowledgeEntries
  simp only
  split
  · exact roomy.of_paths rfl rfl less
  · exact (roomy.modifyPath _ fun path => updateRto_cwnd _ _).of_paths rfl rfl less

/-- What keeps the windows wide: no step both takes in a SACK and sends DATA. -/
theorem upkeep_roomy (start : Option Association)
    (apart : cause .sent → ∀ sack, ¬cause (.chunk (.sack sack))) :
    Upkeep start cause fun _ a => Roomy cause a where
  opened _ draws destination _ := roomy_single rfl rfl rfl
  created _ cookie _ := roomy_single rfl rfl rfl
  restarted _ cookie _ _ := roomy_single rfl rfl rfl
  collided _ _ _ roomy := roomy.of_paths rfl rfl (Nat.le_refl _)
  answered _ _ roomy := roomy.of_paths rfl rfl (Nat.le_refl _)
  retried _ roomy := roomy.of_paths rfl rfl (Nat.le_refl _)
  adjusted {r a b before} figures paths first roomy := by
    refine ⟨(congrArg Figures.pmdcs figures).trans roomy.pmdcs, ?_, fun sacks => ?_⟩
    · rw [roomy.pmdcs] at paths
      refine windows_adjusted paths (fun flight grows => ?_) roomy.windows
      exact (Nat.add_le_add_right grows.2 _).trans_lt (first.bounded grows.1)
    · rw [outstandingBytes, show b.outstandingData = a.outstandingData
        from congrArg Figures.outstandingData figures]
      exact roomy.bounded sacks
  listed address roomy := by
    unfold withPath
    split
    · refine ⟨roomy.pmdcs, fun path member => ?_, roomy.bounded⟩
      rcases List.mem_append.mp member with before | new
      · exact roomy.windows path before
      · rw [List.mem_singleton.mp new, roomy.pmdcs]
        exact (by decide : defaultPmdcs ≤ initialCwnd defaultPmdcs)
    · exact roomy
  onward _ _ roomy := roomy.of_paths rfl rfl (Nat.le_refl _)
  undelayed _ roomy := roomy
  heard roomy := roomy.of_paths rfl rfl (Nat.le_refl _)
  missed _ roomy := roomy.of_paths rfl rfl (Nat.le_refl _)
  queued _ _ _ _ roomy := roomy.of_paths rfl rfl (Nat.le_refl _)
  cut {r a} allowance _ roomy := by
    rw [cutNewData_only a allowance]
    exact roomy.of_paths rfl rfl (Nat.le_refl _)
  sent {r a} destination data sentAt told roomy := by
    have unheard : ¬∃ sack, cause (.chunk (.sack sack)) := fun ⟨sack, heard⟩ =>
      apart told sack heard
    have stamped := roomy.modifyPath (sentOn a destination) (f := fun path =>
      { path with dataSentAt := sentAt, idleDecaying := false }) fun _ => rfl
    unfold recordDataSentIn
    simp only
    split
    · exact ⟨stamped.pmdcs, stamped.windows, fun sacks => absurd sacks unheard⟩
    · have fresh := stamped.modifyPath (sentOn a destination) (f := fun path =>
        { path with newDataSentAt := sentAt })
        fun _ => rfl
      exact ⟨fresh.pmdcs, fresh.windows, fun sacks => absurd sacks unheard⟩
  marked {r a} f same roomy := by
    have kept : (a.outstandingData.mapVals f).weight (fun o => dataChunkWireSize o.data)
        ≤ outstandingBytes a := by
      refine KeyMap.weight_filterMap_le _ fun tsn o o' here => ?_
      cases here
      rw [(same tsn o).2.2]
    exact roomy.of_paths rfl rfl kept
  acked sack now _ roomy := roomy.acked sack now
  ackedByShutdown {r a} cumulativeTsnAck _ roomy := by
    have left : KeyMap.weight (fun o => dataChunkWireSize o.data)
        (a.outstandingData.filterMap fun tsn o =>
        if tsnLte tsn cumulativeTsnAck then none else some o) ≤ outstandingBytes a := by
      refine KeyMap.weight_filterMap_le _ fun tsn o o' here => ?_
      split at here <;> cases here
      exact Nat.le_refl _
    exact roomy.of_paths rfl rfl left
  timed _ _ roomy := roomy.of_paths rfl rfl (Nat.le_refl _)
  received _ only roomy := by
    rw [only]
    exact roomy.of_paths rfl rfl (Nat.le_refl _)
  reported roomy := roomy.of_paths rfl rfl (Nat.le_refl _)
  delayed _ _ roomy := roomy.of_paths rfl rfl (Nat.le_refl _)

end Roomy

/-! ## Runs -/

/-- No SACK comes while an association has close to 2^32 bytes outstanding, so that no cwnd
wraps. -/
def FlightBounded (σ : System) (event : Event) : Prop :=
  ∀ sack, event.Causes (.chunk (.sack sack)) → ∀ key a, σ.socket.find? key = some a →
    outstandingBytes a + defaultPmdcs < 2 ^ 32

/-- Whether no association has that much outstanding. -/
def boundedFlights (σ : System) : Bool :=
  σ.socket.associations.entries.all fun entry =>
    decide (outstandingBytes entry.2 + defaultPmdcs < 2 ^ 32)

theorem flightBounded_of_boundedFlights {σ : System} (bounded : boundedFlights σ = true)
    (event : Event) :
    FlightBounded σ event := by
  intro _ _ key a found
  exact of_decide_eq_true (List.all_eq_true.mp bounded (key, a) (KeyMap.mem_entries.mpr found))

theorem Opened.exists_reached_bounded (more : List Event) {p : System → Bool}
    (ends : (Run.replayWhile System.step (fun σ _ => boundedFlights σ) start (events ++ more)).any p
      = true) :
    ∃ σ, System.Reached FlightBounded σ ∧ p σ = true :=
  Run.Reach.exists_replayWhile (.start ⟨own, rfl⟩) (events ++ more)
    (fun _ event bounded => flightBounded_of_boundedFlights bounded event) ends

/-- While no cwnd wraps, every path has room for a packet. -/
theorem windows_open {σ : System} (reached : System.Reached FlightBounded σ) {key : AssociationKey}
    {a : Association} (found : σ.socket.find? key = some a) : Roomy (fun _ => False) a := by
  have held : Standing σ.socket ∧ ∀ key, Held (fun _ a => Roomy (fun _ => False) a) []
      key σ.socket := by
    refine reached.invariant (fun σ => Standing σ.socket
      ∧ ∀ key, Held (fun _ a => Roomy (fun _ => False) a) [] key σ.socket) ?_ ?_
    · rintro _ ⟨address, rfl⟩
      exact ⟨standing_fresh address, fun _ => Held.gone rfl⟩
    · rintro σ event σ' ⟨standing, held⟩ bounded stepped
      have next := (System.step_works standing stepped).standing standing
      refine ⟨next, fun key b after => ?_⟩
      have before : Held (fun _ a => Roomy event.Causes a) [] key σ.socket := fun a found =>
        ⟨(held key a found).pmdcs, (held key a found).windows, fun ⟨sack, told⟩ =>
          bounded sack told key a found⟩
      have apart : event.Causes .sent → ∀ sack, ¬event.Causes (.chunk (.sack sack)) := by
        rintro ⟨⟩ sack told
        generalize is : Cause.chunk (.sack sack) = c at told
        cases told <;> cases is
      have roomy := (upkeep_roomy _ apart).step standing stepped rfl (fun _ => id) before b after
      exact ⟨roomy.pmdcs, roomy.windows, fun sacks => sacks.elim fun _ => False.elim⟩
  exact held.2 key a found

/-- In every reachable state, every path of every association is healthy: its RTO lies
between RTO.Min and RTO.Max, its ssthresh has room for four packets, and it is active
exactly while it counts no more than Path.Max.Retrans errors. The errors the association
counts stay within Association.Max.Retrans. In a run in which no cwnd wraps, every cwnd has
room for a packet. -/
theorem paths_healthy {σ : System} (reached : System.Reached (fun _ _ => True) σ)
    {key : AssociationKey} {a : Association} (found : σ.socket.find? key = some a) :
    a.errorCount ≤ associationMaxRetrans ∧ (∀ path ∈ a.peerAddressList, Healthy defaultPmdcs path)
      ∧ (System.Reached FlightBounded σ → ∀ path ∈ a.peerAddressList, defaultPmdcs
        ≤ path.cwnd) := by
  have kept := reached.held (fun start => upkeep_wellKept start _) found
  refine ⟨?_, fun path member => ?_, fun bounded => (windows_open bounded found).windows⟩
  · rw [← kept.threshold]
    exact kept.errors
  · rw [← kept.pmdcs]
    exact kept.paths path member

/-- A message is not acknowledged in time, and then it is. -/
theorem lossy_healthy : ∃ σ a, System.Reached FlightBounded σ ∧ σ.socket.find? Opened.key = some a
    ∧ a.errorCount ≤ associationMaxRetrans ∧ (∀ path ∈ a.peerAddressList, Healthy defaultPmdcs path)
    ∧ ∀ path ∈ a.peerAddressList, defaultPmdcs ≤ path.cwnd := by
  obtain ⟨σ, reached, ends⟩ := Opened.exists_reached_bounded
    ([.sendData Opened.key [1#8, 2#8] 0#16 false] ++ Opened.batch 1
      ++ [.expire 1000000000 fun _ => Opened.draws] ++ Opened.batch 1
        ++ [Opened.arrives [⟨0#8, .sack ⟨10#32, 65535#32, 0#16, 0#16, [], []⟩⟩]])
    (p := fun σ => (σ.socket.find? Opened.key).any fun a => a.cumulativeTsnAck == 10#32)
      (by decide +kernel)
  obtain ⟨a, found, counted⟩ := (Option.any_eq_true _ _).mp ends
  obtain ⟨few, healthy, windows⟩ := paths_healthy (reached.mono fun _ _ _ => trivial) found
  exact ⟨σ, a, reached, found, few, healthy, windows reached⟩

end SctpStack
