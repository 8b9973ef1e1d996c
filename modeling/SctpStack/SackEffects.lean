import SctpStack.Views

/-!
# The effect of a SACK

What `handle_sack` leaves of an association when it neither rejects nor ignores the SACK:
the chunks still outstanding and what is known of each (`sackEntry_judged`), the window of
each path (`windows_applySack`), and Fast Recovery (`recovery_applySack`).
-/

namespace SctpStack

/-! ## What is left when the timers and the shutdown are seen to -/

/-- What a sender knows of its chunks and its paths, but for the marks of those waiting to
be sent again. -/
structure Books where
  keys : List Tsn
  entry : Tsn → Option OutstandingData
  paths : List PeerPath
  cumulativeTsnAck : Tsn
  inFastRecovery : Bool
  fastRecoveryExitTsn : Tsn

def Association.books (a : Association) : Books where
  keys := a.outstandingData.keys
  entry := fun tsn => (a.outstandingData.get? tsn).map fun o =>
    { o with pendingRetransmission := false }
  paths := a.peerAddressList
  cumulativeTsnAck := a.cumulativeTsnAck
  inFastRecovery := a.inFastRecovery
  fastRecoveryExitTsn := a.fastRecoveryExitTsn

theorem keys_mapVals (m : KeyMap Tsn OutstandingData)
    (f : Tsn → OutstandingData → OutstandingData) :
    (m.mapVals f).keys = m.keys := by
  rw [KeyMap.keys, KeyMap.entries_mapVals, List.map_map]
  rfl

theorem books_unmark (a : Association) (tsns : List Tsn) : (unmark a tsns).books = a.books := by
  have entry : (unmark a tsns).books.entry = a.books.entry := by
    funext tsn
    simp only [Association.books, get?_unmark, Option.map_map]
    congr 1
    funext o
    simp only [Function.comp_apply]
    split <;> rfl
  have keys : (unmark a tsns).books.keys = a.books.keys := keys_mapVals _ _
  unfold Association.books at entry keys ⊢
  simp only at entry keys ⊢
  rw [entry, keys]
  rfl

theorem runT3Actions_find? (s : Socket) (now : Time) (key : AssociationKey)
    (actions : List (SockAddr × T3Action)) (k : AssociationKey) :
    (actions.foldl (fun s action => s.runT3Action now key action) s).find? k = s.find? k := by
  refine List.foldlRecOn (motive := fun s' : Socket => s'.find? k = s.find? k) actions _
    rfl fun s' same action _ => ?_
  refine Eq.trans ?_ same
  unfold Socket.runT3Action Socket.startT3IfStopped Socket.restartT3
  simp only
  (repeat' split) <;> rfl

/-- Closing the association is no matter of the books. -/
theorem doNextShutdownStep_view {α : Type} {view : Association → α}
    (state : ∀ a state, view { a with state := state } = view a) (s : Socket) (now : Time)
    (key : AssociationKey) : SameView view s (s.doNextShutdownStep now key) := by
  unfold Socket.doNextShutdownStep
  cases found : s.find? key with
  | none => exact .refl s
  | some a =>
    simp only
    cases s.nextShutdownStep key a with
    | none => exact .refl s
    | some step =>
      have closed : SameView view s (s.setAssociation key { a with state := step.2 }) :=
        .set found (state a step.2)
      refine closed.trans (.of_find? fun k => ?_)
      simp only [Socket.restartT2]
      (repeat' split) <;> rfl

/-- What `acceptSack` leaves is what `applySack` computes. -/
theorem books_acceptSack (s : Socket) (now : Time) (sack : SackChunkValue) (key : AssociationKey)
    (a : Association) :
    ∃ b, (s.acceptSack now sack key a).find? key = some b
      ∧ b.books = (applySack a sack now).assoc.books := by
  have acked := (acknowledgeSack_step s key a now sack).found
  have settled : SameView Association.books (s.acknowledgeSack now sack key a)
      (s.settleSack now sack key a) := by
    unfold Socket.settleSack
    split
    · exact (SameView.schedulePending books_unmark _ key false).trans (.of_find? fun k =>
        runT3Actions_find? _ now key _ k)
    · exact .of_find? fun k => runT3Actions_find? _ now key _ k
  have closed : SameView Association.books (s.acknowledgeSack now sack key a)
      (s.acceptSack now sack key a) := by
    rw [acceptSack_eq]
    exact settled.trans (doNextShutdownStep_view (fun _ _ => rfl) _ now key)
  have here := closed key
  rw [acked, Option.map_some, Option.map_eq_some_iff] at here
  exact here

/-! ## The chunks -/

theorem sackEntry_isSome (a : Association) (sack : SackChunkValue) (tsn : Tsn)
    (o : OutstandingData) :
    (sackEntry a sack tsn o).isSome = !tsnLte tsn sack.cumulativeTsnAck := by
  rcases sackEntry_spec a sack tsn o with ⟨below, gone⟩ | ⟨o', above, left, -⟩
  · rw [gone, below]
    rfl
  · rw [left, above]
    rfl

/-- The TSNs above the Cumulative TSN Ack stay outstanding, in their order. -/
theorem keys_applySack_eq (a : Association) (sack : SackChunkValue) (now : Time) :
    (applySack a sack now).assoc.outstandingData.keys
      = a.outstandingData.keys.filter fun tsn => !tsnLte tsn sack.cumulativeTsnAck := by
  have entries : ∀ l : List (Tsn × OutstandingData),
      (l.filterMap fun e => (ackEntry sack e.1 e.2).map (Prod.mk e.1)).map Prod.fst
        = (l.map Prod.fst).filter fun tsn => !tsnLte tsn sack.cumulativeTsnAck := by
    intro l
    induction l with
    | nil => rfl
    | cons e rest ih =>
      have here := sackEntry_isSome a sack e.1 e.2
      unfold sackEntry at here
      rw [Option.isSome_map] at here
      rw [List.map_cons, List.filter_cons, ← here, ← ih]
      cases left : ackEntry sack e.1 e.2 with
      | none => simp [left]
      | some o => simp [left]
  have counted : (countMissing a
      sack (updateWindows a sack (acknowledgeEntries a sack now))).outstandingData.keys
      = a.outstandingData.keys.filter fun tsn => !tsnLte tsn sack.cumulativeTsnAck :=
    (keys_mapVals _ _).trans (entries a.outstandingData.entries)
  unfold applySack
  simp only [finishSack_outstandingData]
  split
  · exact counted
  · exact counted

/-- What one SACK can make of the missing reports of a chunk and of its mark: at most one
more report, and a mark at the third. -/
structure Judged (o o' : OutstandingData) : Prop where
  more : o.missingReports ≤ o'.missingReports
  once : o'.missingReports ≤ o.missingReports + 1
  stays : o.fastRetransmitted = true → o'.fastRetransmitted = true
  third : o'.fastRetransmitted = true → o.fastRetransmitted = true ∨ 3 ≤ o'.missingReports

theorem missEntry_judged (reported : Option Tsn) (reneged : List Tsn) (tsn : Tsn)
    (o : OutstandingData) :
    Judged o (missEntry reported reneged tsn o)
      ∧ (tsn ∈ reneged → (missEntry reported reneged tsn o).missingReports = o.missingReports) := by
  unfold missEntry
  split
  · exact ⟨⟨Nat.le_refl _, Nat.le_succ _, id, Or.inl⟩, fun _ => rfl⟩
  · next open_ =>
    simp only [Bool.or_eq_true, not_or, Bool.not_eq_true] at open_
    generalize counts : (if (reportedMissing reported tsn && !decide (tsn ∈ reneged)) = true
      then o.missingReports + 1
      else o.missingReports) = reports
    have bounds : o.missingReports ≤ reports ∧ reports ≤ o.missingReports + 1
        ∧ (tsn ∈ reneged → reports = o.missingReports) := by
      rw [← counts]
      split
      · next counted => exact ⟨Nat.le_succ _, Nat.le_refl _, fun inside => by
          simp [inside] at counted⟩
      · exact ⟨Nat.le_refl _, Nat.le_succ _, fun _ => rfl⟩
    simp only
    split
    · next third => exact ⟨⟨bounds.1, bounds.2.1, fun _ => rfl, fun _ => Or.inr third⟩, bounds.2.2⟩
    · exact ⟨⟨bounds.1, bounds.2.1, id, Or.inl⟩, bounds.2.2⟩

/-- A chunk that is withdrawn is counted as missing then, and not again by the second pass. -/
theorem sackEntry_judged {a : Association} {sack : SackChunkValue} {tsn : Tsn}
    {o o' : OutstandingData} (here : a.outstandingData.get? tsn = some o)
    (left : sackEntry a sack tsn o = some o') : Judged o o' := by
  unfold sackEntry ackEntry at left
  split at left
  · cases left
  · split at left
    · rw [Option.map_some, Option.some.injEq] at left
      rw [← left]
      obtain ⟨more, once, stays, third⟩ := (missEntry_judged (missingBelow a sack)
        ((a.outstandingData.entries.filter (reneges sack)).map Prod.fst) tsn
        { o with gapAcked := true, pendingRetransmission := false }).1
      exact ⟨more, once, stays, third⟩
    · next unacked =>
      split at left
      · next gone =>
        rw [Option.map_some, Option.some.injEq] at left
        have reneged : tsn ∈ (a.outstandingData.entries.filter (reneges sack)).map Prod.fst := by
          refine List.mem_map.mpr ⟨(tsn, o), List.mem_filter.mpr ⟨KeyMap.mem_entries.mpr here, ?_⟩,
            rfl⟩
          simp [reneges, unacked, gone]
        obtain ⟨judged, still⟩ := missEntry_judged (missingBelow a sack)
          ((a.outstandingData.entries.filter (reneges sack)).map Prod.fst) tsn
          { o with gapAcked := false, missingReports := if o.fastRetransmitted then o.missingReports
            else o.missingReports + 1 }
        rw [left] at judged still
        have same := still reneged
        simp only at same
        refine ⟨?_, ?_, judged.stays, fun marked => ?_⟩
        · rw [same]
          split <;> omega
        · rw [same]
          split <;> omega
        · exact judged.third marked
      · rw [Option.map_some, Option.some.injEq] at left
        rw [← left]
        exact (missEntry_judged _ _ tsn o).1

/-! ## The windows -/

/-- A window a SACK did not reset: it opened by a PMDCS at most, and only if it was full. -/
structure Opens (pmdcs flight : Nat) (path path' : PeerPath) : Prop where
  once : path'.cwnd ≤ path.cwnd + pmdcs
  full : path.cwnd < path'.cwnd → path.cwnd ≤ flight

theorem Opens.of_eq {pmdcs flight : Nat} {path path' : PeerPath} (same : path'.cwnd = path.cwnd) :
    Opens pmdcs flight path path' := by
  refine ⟨?_, fun more => ?_⟩
  · rw [same]
    exact Nat.le_add_right _ _
  · rw [same] at more
    exact absurd more (Nat.lt_irrefl _)

theorem growCwnd_opens (recovering : Bool) (pmdcs bytesAcked duplicate flight : Nat)
    (path : PeerPath) :
    Opens pmdcs flight path (growCwnd recovering pmdcs path bytesAcked duplicate flight) := by
  unfold growCwnd
  simp only
  split
  · split
    -- In slow start the window opens by what was acknowledged.
    · next full =>
      rw [Bool.and_eq_true, decide_eq_true_eq] at full
      refine ⟨(Nat.mod_le _ _).trans (Nat.add_le_add_left ?_ _), fun _ => full.1⟩
      exact (Nat.min_le_right _ _).trans (Nat.le_of_eq (Nat.one_mul pmdcs))
    · exact .of_eq rfl
  · split
    · next full => exact ⟨Nat.mod_le _ _, fun _ => by simpa using full.2⟩
    · split <;> exact .of_eq rfl

theorem ackPath_opens (before : Association) (sack : SackChunkValue) (remaining : Association)
    (duplicates : List (Nat × Nat)) (i : Nat) (path : PeerPath) :
    Opens before.pmdcs (bytesInFlightOn before i)
      path (ackPath before sack remaining duplicates i path) := by
  have cleared : ∀ acked : List (Tsn × OutstandingData), (if acked.isEmpty then path
      else { (clearPathErrors path).1 with singlePacketInFlight := false }).cwnd = path.cwnd := by
    intro acked
    split <;> rfl
  have grown : ∀ (path' : PeerPath) (grows : Bool) (bytes duplicate : Nat), path'.cwnd = path.cwnd →
      Opens before.pmdcs (bytesInFlightOn before i) path
        (if grows then growCwnd before.inFastRecovery before.pmdcs path' bytes duplicate
          (bytesInFlightOn before i)
          else path') := by
    intro path' grows bytes duplicate same
    split
    · obtain ⟨once, full⟩ := growCwnd_opens before.inFastRecovery before.pmdcs bytes duplicate
        (bytesInFlightOn before i) path'
      rw [same] at once full
      exact ⟨once, full⟩
    · exact .of_eq same
  have reset : ∀ (path' : PeerPath) (none : Bool), Opens before.pmdcs (bytesInFlightOn before i)
      path path' → Opens before.pmdcs (bytesInFlightOn before i) path
        (if none then { path' with partialBytesAcked := 0 } else path') := by
    intro path' none opens
    split
    · exact ⟨opens.once, opens.full⟩
    · exact opens
  unfold ackPath
  exact reset _ _ (grown _ _ _ _ (cleared _))

theorem path_mapIdx {a : Association} {f : Nat → PeerPath → PeerPath} {i : Nat}
    (bound : i < a.peerAddressList.length) :
    ({ a with peerAddressList := a.peerAddressList.mapIdx f } : Association).path i
      = f i (a.path i) := by
  simp [Association.path, List.getD_eq_getElem?_getD, bound]

theorem cwnd_modifyPath (a : Association) (i j : Nat) {f : PeerPath → PeerPath}
    (same : ∀ path, (f path).cwnd = path.cwnd) :
    ((a.modifyPath i f).path j).cwnd = (a.path j).cwnd := by
  simp only [Association.path, Association.modifyPath, List.getD_eq_getElem?_getD,
    List.getElem?_modify]
  cases a.peerAddressList[j]? with
  | none => rfl
  | some path =>
    by_cases here : i = j
    · simp [here, same]
    · simp [here]

section Windows

variable (a : Association) (sack : SackChunkValue) (now : Time)

/-- What the two passes over the entries leave, before Fast Recovery is entered or left. -/
def countedSack : Association :=
  countMissing a sack (updateWindows a sack (acknowledgeEntries a sack now))

/-- The chunks a SACK marks for Fast Retransmit. -/
def markedSack : List (Tsn × OutstandingData) :=
  fastRetransmits (updateWindows a sack (acknowledgeEntries a sack now)) (countedSack a sack now)

theorem applySack_eq : applySack a sack now =
    ⟨finishSack sack (if (!(markedSack a sack now).isEmpty
      && !(countedSack a sack now).inFastRecovery) = true then
        enterFastRecovery (markedSack a sack now) (countedSack a sack now)
          else countedSack a sack now),
      !(markedSack a sack now).isEmpty,
      !(markedSack a sack now).isEmpty && !(countedSack a sack now).inFastRecovery⟩ := rfl

/-- Measuring an RTT does not touch a window, nor Fast Recovery. -/
theorem acknowledgeEntries_spec :
    (acknowledgeEntries a sack now).peerAddressList.length = a.peerAddressList.length
      ∧ (∀ i, ((acknowledgeEntries a sack now).path i).cwnd = (a.path i).cwnd)
      ∧ (acknowledgeEntries a sack now).inFastRecovery = a.inFastRecovery
      ∧ (acknowledgeEntries a sack now).fastRecoveryExitTsn = a.fastRecoveryExitTsn
      ∧ (acknowledgeEntries a sack now).primaryPath = a.primaryPath := by
  unfold acknowledgeEntries
  simp only
  cases rttSample a sack with
  | none => exact ⟨rfl, fun _ => rfl, rfl, rfl, rfl⟩
  | some sample =>
    refine ⟨by simp [Association.modifyPath], fun i => ?_, rfl, rfl, rfl⟩
    exact cwnd_modifyPath a sample.1 i fun path => updateRto_cwnd path (microsBetween sample.2 now)

theorem countedSack_spec :
    (countedSack a sack now).peerAddressList.length = a.peerAddressList.length
      ∧ (∀ i, i < a.peerAddressList.length →
        Opens a.pmdcs (bytesInFlightOn a i) (a.path i) ((countedSack a sack now).path i))
      ∧ (countedSack a sack now).inFastRecovery = a.inFastRecovery
      ∧ (countedSack a sack now).fastRecoveryExitTsn = a.fastRecoveryExitTsn
      ∧ (countedSack a sack now).primaryPath = a.primaryPath := by
  obtain ⟨length, cwnd, recovering, exit, preferred⟩ := acknowledgeEntries_spec a sack now
  refine ⟨?_, fun i bound => ?_, recovering, exit, preferred⟩
  · simp [countedSack, countMissing, updateWindows, length]
  · have bound' : i < (acknowledgeEntries a sack now).peerAddressList.length := by rwa [length]
    obtain ⟨remaining, duplicates, here⟩ : ∃ remaining duplicates, (countedSack a sack now).path i
        = ackPath a sack remaining duplicates i ((acknowledgeEntries a sack now).path i) :=
          ⟨_, _, path_mapIdx bound'⟩
    obtain ⟨once, full⟩ := ackPath_opens a sack remaining duplicates
      i ((acknowledgeEntries a sack now).path i)
    rw [cwnd] at once full
    rw [here]
    exact ⟨once, full⟩

theorem outstandingData_applySack :
    (applySack a sack now).assoc.outstandingData = (countedSack a sack now).outstandingData := by
  rw [applySack_eq]
  simp only [finishSack_outstandingData]
  split <;> rfl

theorem get?_countedSack (tsn : Tsn) : (countedSack a sack now).outstandingData.get? tsn
    = (a.outstandingData.get? tsn).bind (sackEntry a sack tsn) := by
  rw [← outstandingData_applySack]
  exact get?_applySack a sack now tsn

/-- The paths whose windows a SACK resets on entering Fast Recovery: those of the chunks it
marks. -/
def Resets (i : Nat) : Prop :=
  (applySack a sack now).enteredFastRecovery = true
    ∧ ∃ tsn o o', a.outstandingData.get? tsn = some o ∧ o.fastRetransmitted = false
      ∧ (applySack a sack now).assoc.outstandingData.get? tsn = some o' ∧ o'.fastRetransmitted
        = true
      ∧ destinationOf a o = i

theorem finishSack_spec (b : Association) :
    (finishSack sack b).peerAddressList = b.peerAddressList
      ∧ (finishSack sack b).inFastRecovery
        = (b.inFastRecovery && !tsnGte sack.cumulativeTsnAck b.fastRecoveryExitTsn)
      ∧ (finishSack sack b).fastRecoveryExitTsn = b.fastRecoveryExitTsn := by
  unfold finishSack
  simp only
  (repeat' split) <;> exact ⟨rfl, rfl, rfl⟩

/-- A chunk the first pass left, and that the second marked, had no mark before. -/
theorem mem_markedSack {entry : Tsn × OutstandingData} (member : entry ∈ markedSack a sack now) :
    ∃ o, a.outstandingData.get? entry.1 = some o ∧ o.fastRetransmitted = false
      ∧ o.destination = entry.2.destination
      ∧ (countedSack a sack now).outstandingData.get? entry.1 = some entry.2
      ∧ entry.2.fastRetransmitted = true := by
  obtain ⟨inside, marked⟩ := List.mem_filter.mp member
  have here := KeyMap.mem_entries.mp inside
  rw [Bool.and_eq_true, Option.any_eq_true] at marked
  obtain ⟨marked, o₁, first, unmarked⟩ := marked
  have acked : (updateWindows a sack (acknowledgeEntries a sack now)).outstandingData
      = a.outstandingData.filterMap (ackEntry sack) := rfl
  rw [acked, KeyMap.get?_filterMap, Option.bind_eq_some_iff] at first
  obtain ⟨o, before, passed⟩ := first
  have kept : o₁.fastRetransmitted = o.fastRetransmitted := by
    unfold ackEntry at passed
    (repeat' split at passed) <;> cases passed <;> rfl
  refine ⟨o, before, ?_, ?_, here, marked⟩
  · rw [← kept]
    simpa using unmarked
  · have counted := here
    rw [get?_countedSack, before, Option.bind_some] at counted
    rcases sackEntry_spec a sack entry.1 o with ⟨-, gone⟩ | ⟨o', -, left, -, destination, -⟩
    · rw [gone] at counted
      cases counted
    · rw [left] at counted
      cases counted
      exact destination.symm

theorem destinationOf_countedSack (o : OutstandingData) :
    destinationOf (countedSack a sack now) o = destinationOf a o := by
  obtain ⟨-, -, -, -, preferred⟩ := countedSack_spec a sack now
  have ips : (countedSack a sack now).ips = a.ips :=
    (updateWindows_frame a sack _).ips.trans (acknowledgeEntries_frame a sack now).ips
  simp only [destinationOf, primary, findPath_eq_findIdx?, ips, preferred]

/-- No window that is not reset grows by more than a PMDCS, and none that was not full grows
at all. -/
theorem windows_applySack {i : Nat} (bound : i < a.peerAddressList.length)
    (kept : ¬Resets a sack now i) :
    Opens a.pmdcs (bytesInFlightOn a i) (a.path i) ((applySack a sack now).assoc.path i) := by
  obtain ⟨length, opens, -⟩ := countedSack_spec a sack now
  have finished : (applySack a sack now).assoc.path i
      = (if (!(markedSack a sack now).isEmpty && !(countedSack a sack now).inFastRecovery) = true
        then
        enterFastRecovery (markedSack a sack now) (countedSack a sack now)
          else countedSack a sack now).path i := by
    rw [applySack_eq]
    simp only [Association.path, (finishSack_spec sack _).1]
  rw [finished]
  split
  · next enters =>
    have unmarked : i ∉ (markedSack a sack now).map fun entry =>
        destinationOf (countedSack a sack now) entry.2 := by
      intro reset
      obtain ⟨entry, member, here⟩ := List.mem_map.mp reset
      obtain ⟨o, before, unmarked, destination, counted, marked⟩ := mem_markedSack a sack now member
      refine kept ⟨by rw [applySack_eq]; exact enters, entry.1, o, entry.2, before, unmarked, ?_,
        marked, ?_⟩
      · rw [outstandingData_applySack]
        exact counted
      · rw [← here, destinationOf_countedSack, destinationOf, destinationOf, destination]
    have same : (enterFastRecovery (markedSack a sack now) (countedSack a sack now)).path i
        = (countedSack a sack now).path i := by
      have bound' : i < (countedSack a sack now).peerAddressList.length := by rwa [length]
      exact (path_mapIdx bound').trans (if_neg unmarked)
    rw [same]
    exact opens i bound
  · exact opens i bound

theorem length_applySack : (applySack a sack now).assoc.peerAddressList.length
    = a.peerAddressList.length := by
  have ips := congrArg List.length (applySack_frame a sack now).ips
  simpa [Association.ips] using ips

/-! ## Fast Recovery -/

theorem tsnGte_eq (x y : Tsn) : tsnGte x y = tsnLte y x := by
  unfold tsnGte tsnGt tsnLte
  rw [Bool.beq_comm]

/-- Fast Recovery is entered from outside, up to a TSN that the SACK does not cover. -/
theorem enters_applySack (enters : (applySack a sack now).enteredFastRecovery = true) :
    a.inFastRecovery = false ∧ (applySack a sack now).assoc.inFastRecovery = true := by
  obtain ⟨-, -, recovering, -, -⟩ := countedSack_spec a sack now
  have marks : (markedSack a sack now).isEmpty = false ∧ a.inFastRecovery = false := by
    rw [applySack_eq, Bool.and_eq_true, recovering] at enters
    simpa using enters
  refine ⟨marks.2, ?_⟩
  rw [applySack_eq] at enters ⊢
  simp only at enters ⊢
  rw [if_pos enters, (finishSack_spec sack _).2.1, Bool.and_eq_true]
  refine ⟨rfl, ?_⟩
  -- What is marked is outstanding, and the last TSN outstanding lies above the point.
  obtain ⟨entry, member⟩ := List.exists_mem_of_ne_nil _ (List.isEmpty_eq_false_iff.mp marks.1)
  obtain ⟨o, -, -, -, here, -⟩ := mem_markedSack a sack now member
  have outstanding : entry.1 ∈ (countedSack a sack now).outstandingData.keys :=
    KeyMap.mem_keys.mpr (Option.isSome_iff_exists.mpr ⟨_, here⟩)
  change (!tsnGte sack.cumulativeTsnAck
    (((countedSack a sack now).outstandingData.keys.getLast?).getD _)) = true
  cases last : (countedSack a sack now).outstandingData.keys.getLast? with
  | none =>
    rw [List.getLast?_eq_none_iff.mp last] at outstanding
    cases outstanding
  | some exit =>
    have above := List.mem_of_getLast? last
    rw [← outstandingData_applySack, keys_applySack_eq, List.mem_filter] at above
    rw [Option.getD_some, tsnGte_eq]
    exact above.2

/-- Until it is left, Fast Recovery is not entered again. -/
theorem recovering_applySack (recovering : a.inFastRecovery = true) :
    (applySack a sack now).enteredFastRecovery = false
      ∧ (applySack a sack now).assoc.inFastRecovery
        = !tsnGte sack.cumulativeTsnAck a.fastRecoveryExitTsn
      ∧ (applySack a sack now).assoc.fastRecoveryExitTsn = a.fastRecoveryExitTsn := by
  obtain ⟨-, -, same, exit, -⟩ := countedSack_spec a sack now
  rw [recovering] at same
  obtain ⟨-, left, still⟩ := finishSack_spec sack (countedSack a sack now)
  rw [same, exit, Bool.true_and] at left
  rw [exit] at still
  have stays : (!(markedSack a sack now).isEmpty && !(countedSack a sack now).inFastRecovery)
      = false := by simp [same]
  rw [applySack_eq]
  simp only [stays, Bool.false_eq_true, if_false]
  exact ⟨trivial, left, still⟩

end Windows

/-! ## The handler -/

/-- What a SACK that is neither rejected nor ignored makes of an association. -/
structure SackEffect (a : Association) (sack : SackChunkValue) (now : Time) (b : Association) :
    Prop where
  keys : b.outstandingData.keys = a.outstandingData.keys.filter fun tsn =>
    !tsnLte tsn sack.cumulativeTsnAck
  chunks : ∀ tsn o', b.outstandingData.get? tsn = some o' → ∃ o, a.outstandingData.get? tsn = some o
    ∧ o'.data = o.data ∧ (o'.gapAcked = true ↔ sackAcknowledges sack tsn = true)
    ∧ o.missingReports ≤ o'.missingReports ∧ o'.missingReports ≤ o.missingReports + 1
  paths : b.peerAddressList.length = a.peerAddressList.length
  windows : ∀ i, i < a.peerAddressList.length → ¬Resets a sack now i →
    Opens a.pmdcs (bytesInFlightOn a i) (a.path i) (b.path i)

theorem handleSack_accepts {s : Socket} {key : AssociationKey} {a : Association}
    (found : s.find? key = some a) (transmits : transmitsData a.state = true)
    {sack : SackChunkValue} (sent : acksUnsent a sack = false)
    (new : tsnLt sack.cumulativeTsnAck a.cumulativeTsnAck = false) (now : Time)
    (header : CommonHeader) (src : SockAddr) :
    s.handleSack now header sack key src = s.acceptSack now sack key a := by
  unfold Socket.handleSack
  simp [found, transmits, sent, new]

theorem sackEffect_acceptSack (s : Socket) (now : Time) (sack : SackChunkValue)
    (key : AssociationKey) (a : Association) :
    ∃ b, (s.acceptSack now sack key a).find? key = some b ∧ SackEffect a sack now b := by
  obtain ⟨b, after, books⟩ := books_acceptSack s now sack key a
  have paths : b.peerAddressList = (applySack a sack now).assoc.peerAddressList :=
    congrArg Books.paths books
  refine ⟨b, after, ?_, fun tsn o' here => ?_, ?_, fun i bound kept => ?_⟩
  · exact (congrArg Books.keys books).trans (keys_applySack_eq a sack now)
  · have entry : (b.outstandingData.get? tsn).map (fun o =>
      { o with pendingRetransmission := false })
        = ((a.outstandingData.get? tsn).bind (sackEntry a sack tsn)).map
          fun o => { o with pendingRetransmission := false } := by
      rw [← get?_applySack a sack now]
      exact congrFun (congrArg Books.entry books) tsn
    rw [here, Option.map_some, eq_comm, Option.map_eq_some_iff] at entry
    obtain ⟨o₁, left, same⟩ := entry
    obtain ⟨o, before, kept⟩ := Option.bind_eq_some_iff.mp left
    have judged := sackEntry_judged before kept
    rcases sackEntry_spec a sack tsn o with ⟨-, gone⟩ | ⟨o₂, -, some, data, -, gapAcked, -⟩
    · rw [gone] at kept
      cases kept
    · rw [some] at kept
      cases kept
      simp only [OutstandingData.mk.injEq] at same
      obtain ⟨data', -, -, -, gapAcked', reports, -⟩ := same
      rw [← data', ← gapAcked', ← reports, gapAcked]
      exact ⟨o, before, data, Iff.rfl, judged.more, judged.once⟩
  · rw [paths]
    exact length_applySack a sack now
  · have opens := windows_applySack a sack now bound kept
    unfold Association.path at opens ⊢
    rw [paths]
    exact opens

end SctpStack
