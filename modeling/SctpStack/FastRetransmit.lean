import SctpStack.Passages
import SctpStack.SackEffects

/-!
# Fast Retransmit along a run

Missing reports are counted, and chunks marked, by accepted SACKs alone, and Fast Recovery
lasts until its exit TSN is covered. So a chunk is marked once, after three reports, and
windows are reset once between Fast Recovery being entered and left
(`sack_effects`).
-/

namespace SctpStack

/-! ## What a run shows -/

/-- The missing reports of an outstanding TSN, and whether it is marked. -/
def Association.report (a : Association) (tsn : Tsn) : Option (Nat × Bool) :=
  (a.outstandingData.get? tsn).map fun o => (o.missingReports, o.fastRetransmitted)

def Socket.report (s : Socket) (key : AssociationKey) (tsn : Tsn) : Option (Nat × Bool) :=
  (s.find? key).bind fun a => a.report tsn

/-- Fast Recovery is under way, up to a TSN. -/
def Recovering (s : Socket) (key : AssociationKey) (exit : Tsn) : Prop :=
  ∃ a, s.find? key = some a ∧ a.inFastRecovery = true ∧ a.fastRecoveryExitTsn = exit

/-- The exit TSN is covered, or there is nothing left to recover: the association is gone,
or it started over. -/
def Recovered (s : Socket) (key : AssociationKey) (exit : Tsn) : Prop :=
  ∀ a, s.find? key = some a → tsnGte a.cumulativeTsnAck exit = true
    ∨ a.outstandingData.keys = [] ∧ a.cumulativeTsnAck = a.nextTsn - 1#32

namespace Passage

/-- A SACK applied to an association. -/
structure Accepts (p : Passage) (key : AssociationKey) (now : Time) (sack : SackChunkValue)
    (a : Association) : Prop where
  found : p.before.find? key = some a
  transmits : transmitsData a.state = true
  sent : acksUnsent a sack = false
  new : tsnLt sack.cumulativeTsnAck a.cumulativeTsnAck = false
  after : p.after = p.before.acceptSack now sack key a

/-- The missing reports of a TSN grew. -/
def Counts (p : Passage) (key : AssociationKey) (tsn : Tsn) : Prop :=
  ((p.before.report key tsn).elim 0 Prod.fst) < (p.after.report key tsn).elim 0 Prod.fst

instance (p : Passage) (key : AssociationKey) (tsn : Tsn) : Decidable (p.Counts key tsn) :=
  inferInstanceAs (Decidable (_ < _))

/-- A TSN was marked for Fast Retransmit. -/
def Marks (p : Passage) (key : AssociationKey) (tsn : Tsn) : Prop :=
  (p.before.report key tsn).any Prod.snd = false ∧ (p.after.report key tsn).any Prod.snd = true

instance (p : Passage) (key : AssociationKey) (tsn : Tsn) : Decidable (p.Marks key tsn) :=
  inferInstanceAs (Decidable (_ ∧ _))

/-- Windows were reset on entering Fast Recovery. -/
def Reduces (p : Passage) (key : AssociationKey) : Prop :=
  ∃ now sack a, p.Accepts key now sack a ∧ (applySack a sack now).enteredFastRecovery = true

end Passage

/-! ## What no SACK changes -/

/-- What is reported of the chunks, and Fast Recovery. -/
def Association.rulings (a : Association) : (Tsn → Option (Nat × Bool)) × Bool × Tsn × Tsn :=
  (a.report, a.inFastRecovery, a.fastRecoveryExitTsn, a.cumulativeTsnAck)

/-- Chunks may leave and new ones come, but no report is counted and none is marked; Fast
Recovery goes on unless it is over. -/
structure Unjudged (s s' : Socket) (key : AssociationKey) : Prop where
  report : ∀ tsn, s'.report key tsn = none ∨ s'.report key tsn = s.report key tsn
    ∨ s.report key tsn = none ∧ s'.report key tsn = some (0, false)
  recovery : ∀ exit, Recovering s key exit → Recovering s' key exit ∨ Recovered s' key exit

section Unjudged

variable {s s' s'' : Socket} {key : AssociationKey} {a b : Association}

theorem report_of_found (found : s.find? key = some a) (tsn : Tsn) :
    s.report key tsn = a.report tsn := by
  rw [Socket.report, found, Option.bind_some]

theorem SameView.report (same : SameView Association.rulings s s') (key : AssociationKey)
    (tsn : Tsn) :
    s'.report key tsn = s.report key tsn := by
  have here := same key
  unfold Socket.report
  cases before : s.find? key with
  | none =>
    rw [before, Option.map_none, Option.map_eq_none_iff] at here
    rw [here]
  | some a =>
    rw [before, Option.map_some, Option.map_eq_some_iff] at here
    obtain ⟨b, after, equal⟩ := here
    rw [after]
    exact congrFun (congrArg Prod.fst equal) tsn

theorem SameView.recovering {exit : Tsn} (same : SameView Association.rulings s s')
    (holds : Recovering s key exit) :
    Recovering s' key exit := by
  obtain ⟨a, before, recovering, until_⟩ := holds
  obtain ⟨b, after, equal⟩ := same.symm.found before
  have fields := congrArg Prod.snd equal
  exact ⟨b, after, (congrArg Prod.fst fields).trans recovering,
    (congrArg (fun rulings => rulings.2.1) fields).trans until_⟩

theorem SameView.unjudged (same : SameView Association.rulings s s') (key : AssociationKey) :
    Unjudged s s' key where
  report := fun tsn => Or.inr (Or.inl (same.report key tsn))
  recovery := fun _ holds => Or.inl (same.recovering holds)

/-- Something of no account came first. -/
theorem Unjudged.after (same : SameView Association.rulings s s') (unjudged : Unjudged s' s'' key) :
    Unjudged s s'' key where
  report := fun tsn => by
    rw [← same.report key tsn]
    exact unjudged.report tsn
  recovery := fun exit holds => unjudged.recovery exit (same.recovering holds)

theorem KeyStep.unjudged {strict : Prop} (step : KeyStep strict s s' key) : Unjudged s s' key := by
  cases step with
  | absent _ gone =>
    refine ⟨fun tsn => Or.inl (by rw [Socket.report, gone]; rfl), fun exit _ =>
      Or.inr fun a found => ?_⟩
    rw [gone] at found
    cases found
  | gone gone =>
    refine ⟨fun tsn => Or.inl (by rw [Socket.report, gone]; rfl), fun exit _ =>
      Or.inr fun a found => ?_⟩
    rw [gone] at found
    cases found
  | same a b before after core =>
    refine ⟨fun tsn => Or.inr (Or.inl ?_), fun exit holds => Or.inl ?_⟩
    · rw [report_of_found before, report_of_found after, Association.report, Association.report,
        core.outstandingData]
    · obtain ⟨a', found, recovering, until_⟩ := holds
      rw [before, Option.some.injEq] at found
      subst found
      exact ⟨b, after, core.inFastRecovery.trans recovering, core.fastRecoveryExitTsn.trans until_⟩
  | fresh b after new =>
    refine ⟨fun tsn => Or.inl ?_, fun exit _ => Or.inr fun b' found => Or.inr ?_⟩
    · rw [report_of_found after, Association.report, new.outstandingData]
      rfl
    · rw [after, Option.some.injEq] at found
      rw [← found]
      exact ⟨by rw [new.outstandingData]; rfl, new.cumulativeTsnAck⟩

end Unjudged

/-! ### SHUTDOWN -/

theorem SameView.clearPathErrorsAt (s : Socket) (key : AssociationKey) (a : Association) (i : Nat) :
    SameView Association.rulings s (s.clearPathErrorsAt key a i) := by
  have cleared : SameView Association.rulings s
      (s.updateAssociation key fun a => a.modifyPath i fun path => (clearPathErrors path).1) :=
    .update s key fun _ => rfl
  unfold Socket.clearPathErrorsAt Socket.notifyIf
  simp only
  split <;> exact cleared

theorem SameView.countPathErrorAt (s : Socket) (key : AssociationKey) (a : Association) (i : Nat) :
    SameView Association.rulings s (s.countPathErrorAt key a i) := by
  have counted : SameView Association.rulings s
      (s.updateAssociation key fun a => a.modifyPath i fun path => (countPathError path).1) :=
    .update s key fun _ => rfl
  unfold Socket.countPathErrorAt Socket.notifyIf
  simp only
  split <;> exact counted

/-- Chunks are acknowledged, and nothing else. -/
theorem unjudged_acknowledged {s s' : Socket} {key : AssociationKey} {a b : Association}
    {cumulativeTsnAck : Tsn} (found : s.find? key = some a) (after : s'.find? key = some b)
    (same : b.rulings = (acknowledgeShutdown a cumulativeTsnAck).rulings) : Unjudged s s' key := by
  have fields := congrArg Prod.snd same
  refine ⟨fun tsn => ?_, fun exit holds => ?_⟩
  · have left : b.report tsn = (acknowledgeShutdown a cumulativeTsnAck).report tsn :=
      congrFun (congrArg Prod.fst same) tsn
    rw [report_of_found after, report_of_found found, left]
    unfold Association.report acknowledgeShutdown
    simp only [KeyMap.get?_filterMap]
    cases a.outstandingData.get? tsn with
    | none => exact Or.inl rfl
    | some o =>
      simp only [Option.bind_some]
      split
      · exact Or.inl rfl
      · exact Or.inr (Or.inl rfl)
  · obtain ⟨a', before, recovering, until_⟩ := holds
    rw [found, Option.some.injEq] at before
    subst before
    cases covered : tsnGte cumulativeTsnAck a.fastRecoveryExitTsn with
    | true =>
      refine Or.inr fun b' here => Or.inl ?_
      rw [after, Option.some.injEq] at here
      rw [← here, ← until_, show b.cumulativeTsnAck = cumulativeTsnAck
        from congrArg (fun rulings => rulings.2.2) fields]
      exact covered
    | false =>
      refine Or.inl ⟨b, after, ?_, (congrArg (fun rulings => rulings.2.1) fields).trans until_⟩
      rw [show b.inFastRecovery = (acknowledgeShutdown a cumulativeTsnAck).inFastRecovery
        from congrArg Prod.fst fields]
      simp [acknowledgeShutdown, recovering, covered]

theorem unjudged_acceptShutdown {s : Socket} {key : AssociationKey} {a : Association}
    (found : s.find? key = some a) (now : Time) (cumulativeTsnAck : Tsn) :
    Unjudged s (s.acceptShutdown now cumulativeTsnAck key a) key := by
  have closing : ∀ s₁ : Socket, SameView Association.rulings s₁ (if a.state ≠ .shutdownReceived then
      (s₁.updateAssociation key fun assoc => { assoc with state := .shutdownReceived }).notify
        key .shutdownEvent
      else s₁.updateAssociation key fun assoc => { assoc with state := .shutdownReceived }) := by
    intro s₁
    have closed : SameView Association.rulings s₁
        (s₁.updateAssociation key fun assoc => { assoc with state := .shutdownReceived }) :=
          .update s₁ key fun _ => rfl
    split <;> exact closed
  have ending : ∀ (s₁ : Socket) (actions : List (SockAddr × T3Action)), SameView Association.rulings
      s₁ ((actions.foldl (fun s action => s.runT3Action now key action) s₁).doNextShutdownStep
        now key) := fun s₁ actions =>
    (SameView.of_find? fun k => runT3Actions_find? s₁ now key actions k).trans
      (doNextShutdownStep_view (fun _ _ => rfl) _ now key)
  rw [acceptShutdown_eq]
  unfold Socket.settleShutdown Socket.acknowledgeByShutdown
  simp only
  cases tsnGt cumulativeTsnAck a.cumulativeTsnAck with
  | false =>
    simp only [Bool.false_eq_true, if_false]
    exact ((closing s).trans (ending _ _)).unjudged key
  | true =>
    simp only [if_true]
    have cleared : SameView Association.rulings s ((pathsAcked a cumulativeTsnAck).foldl
        (fun s i => (s.find? key).elim s fun current => s.clearPathErrorsAt key current i) s) := by
      refine .foldl (fun s i => ?_) _ s
      cases s.find? key with
      | none => exact .refl s
      | some current => exact .clearPathErrorsAt s key current i
    unfold Socket.advanceByShutdown
    simp only
    generalize (pathsAcked a cumulativeTsnAck).foldl
      (fun s i => (s.find? key).elim s fun current => s.clearPathErrorsAt key current i) s
        = s₁ at cleared
    obtain ⟨a₁, before, -⟩ := cleared.symm.found found
    refine .after cleared ?_
    -- What is acknowledged, and then the shutdown and the timers.
    have acked : (s₁.updateAssociation key fun assoc =>
        acknowledgeShutdown assoc cumulativeTsnAck).find? key
        = some (acknowledgeShutdown a₁ cumulativeTsnAck) := by simp [before]
    have dropped : ∀ s₂ : Socket, SameView Association.rulings s₂
        (s₂.removeAckedRetransmissions key (cumulativeSack cumulativeTsnAck)) := fun s₂ =>
          .of_find? fun _ => rfl
    obtain ⟨b, after, same⟩ := (((closing _).trans (dropped _)).trans (ending _ _)).symm.found acked
    exact unjudged_acknowledged before after same

/-! ### T3-rtx and sending -/

theorem rulings_mapVals (a : Association) {f : Tsn → OutstandingData → OutstandingData}
    (same : ∀ tsn o, (f tsn o).missingReports = o.missingReports ∧ (f tsn o).fastRetransmitted
      = o.fastRetransmitted) :
    Association.rulings { a with outstandingData := a.outstandingData.mapVals f } = a.rulings := by
  have report : Association.report { a with outstandingData := a.outstandingData.mapVals f }
      = a.report := by
    funext tsn
    unfold Association.report
    rw [KeyMap.get?_mapVals, Option.map_map]
    congr 1
    funext o
    simp only [Function.comp_apply, same tsn o]
  unfold Association.rulings
  rw [report]

theorem rulings_unmark (a : Association) (tsns : List Tsn) : (unmark a tsns).rulings = a.rulings :=
  rulings_mapVals a fun tsn o => by split <;> exact ⟨rfl, rfl⟩

theorem rulingsPass : PassView Association.rulings where
  decay := fun _ _ => rfl
  unmark := rulings_unmark
  cut := by
    intro a b only
    rw [only]
    rfl
  sack := fun _ _ _ => rfl

theorem SameView.expireT3 (s : Socket) (key : AssociationKey) (a : Association) (i : Nat) :
    SameView Association.rulings s (s.expireT3 key a i) := by
  have moved : ∀ (a : Association) (target : SockAddr),
      (moveTimedOut { a with sackSinceT3 := false } i target).rulings
      = a.rulings := fun a target => by
    have same := rulings_mapVals { a with sackSinceT3 := false } (f := fun _ outstanding =>
      if !outstanding.gapAcked && !outstanding.pendingRetransmission
          && destinationOf { a with sackSinceT3 := false } outstanding == i then
        { outstanding with pendingRetransmission := true, destination := target } else outstanding)
      fun _ _ => by split <;> exact ⟨rfl, rfl⟩
    exact same
  unfold Socket.expireT3
  simp only
  refine SameView.trans ?_ (.update _ key fun a => moved a _)
  have backedOff : SameView Association.rulings s (s.updateAssociation key fun assoc =>
      assoc.modifyPath i fun path =>
      doubleRto (if assoc.zeroWindowProbing then path else collapseCwnd assoc.pmdcs path)) :=
        .update s key fun _ => rfl
  split
  · exact (backedOff.trans (.countPathErrorAt _ key a i)).trans (.update _ key fun _ => rfl)
  · exact backedOff

theorem unjudged_handleT3Expiration (s : Socket) (key : AssociationKey) (destination : SockAddr)
    (k : AssociationKey) :
    Unjudged s (s.handleT3Expiration key destination) k := by
  have same : ∀ s : Socket, Unjudged s s k := fun s => (SameView.refl s).unjudged k
  unfold Socket.handleT3Expiration
  cases found : s.find? key with
  | none => exact same s
  | some a =>
    simp only
    split
    · exact same s
    · cases findPath a destination with
      | none => exact same s
      | some i =>
        simp only
        split
        · exact same s
        · have expired := SameView.expireT3 s key a i
          split
          · have lost : Calm True _ _ := .loseAssociation (s.expireT3 key a i) key
            exact .after expired (lost.keys k).unjudged
          · have dropped : SameView Association.rulings (s.expireT3 key a i)
                ((s.expireT3 key a i).removeRetransmissionsOfType key .data (some destination)) :=
                  .of_find? fun _ => rfl
            exact ((expired.trans dropped).trans
              (.schedulePending rulings_unmark _ key false)).unjudged k

/-- A chunk sent the first time has no report, and sending it again changes none. -/
theorem report_recordAll (a : Association) (destination : SockAddr) (chunks : List DataChunkValue)
    (sentAt : Time) (tsn : Tsn) :
    ((recordAll a destination chunks sentAt).report tsn = a.report tsn
        ∨ a.report tsn = none ∧ (recordAll a destination chunks sentAt).report tsn
          = some (0, false))
      ∧ (recordAll a destination chunks sentAt).inFastRecovery = a.inFastRecovery
      ∧ (recordAll a destination chunks sentAt).fastRecoveryExitTsn = a.fastRecoveryExitTsn := by
  induction chunks generalizing a with
  | nil => exact ⟨Or.inl rfl, rfl, rfl⟩
  | cons data rest ih =>
    obtain ⟨later, recovering, exit⟩ := ih (recordDataSentIn a destination data sentAt)
    have first : ((recordDataSentIn a destination data sentAt).report tsn = a.report tsn
        ∨ a.report tsn = none ∧ (recordDataSentIn a destination data sentAt).report tsn
          = some (0, false)) := by
      unfold Association.report
      rw [get?_recordDataSentIn]
      split
      · next same =>
        subst same
        cases a.outstandingData.get? data.tsn with
        | none => exact Or.inr ⟨rfl, rfl⟩
        | some o => exact Or.inl rfl
      · exact Or.inl rfl
    have kept : (recordDataSentIn a destination data sentAt).inFastRecovery = a.inFastRecovery
        ∧ (recordDataSentIn a destination data sentAt).fastRecoveryExitTsn
          = a.fastRecoveryExitTsn := by
      unfold recordDataSentIn
      simp only
      split <;> exact ⟨rfl, rfl⟩
    refine ⟨?_, recovering.trans kept.1, exit.trans kept.2⟩
    rw [show recordAll a destination (data :: rest) sentAt
      = recordAll (recordDataSentIn a destination data sentAt) destination rest sentAt from rfl]
    rcases later with same | ⟨none, new⟩
    · rw [same]
      exact first
    · rcases first with same | ⟨absent, other⟩
      · exact Or.inr ⟨same.symm.trans none, new⟩
      · rw [other] at none
        cases none

theorem unjudged_packetSent {s : Socket} {p : Pending} (ok : QueuesOk s)
    (empty : ∀ k, s.find? k = none → NothingQueued s k) (picked : Picked s.sends p) (sentAt : Time)
    (key : AssociationKey) :
    Unjudged s (s.packetSent sentAt p) key := by
  rcases packetSent_cases ok picked sentAt with ⟨-, calm⟩ | data
  · exact (calm.keys key).unjudged
  · cases found : s.find? p.deliverable.location with
    | none => exact absurd (empty _ found) data.not_nothing
    | some a =>
      have step := packetSent_step sentAt data.committed data.carries found
      by_cases here : key = p.deliverable.location
      · subst here
        have recorded : ∀ tsn, ((afterSent a p sentAt).report tsn = a.report tsn
              ∨ a.report tsn = none ∧ (afterSent a p sentAt).report tsn = some (0, false))
            ∧ (afterSent a p sentAt).inFastRecovery = a.inFastRecovery
            ∧ (afterSent a p sentAt).fastRecoveryExitTsn = a.fastRecoveryExitTsn := by
          intro tsn
          unfold afterSent
          simp only
          split
          · exact report_recordAll a p.deliverable.destination p.deliverable.packet.dataChunks
              sentAt tsn
          · exact ⟨Or.inl rfl, rfl, rfl⟩
        refine ⟨fun tsn => Or.inr ?_, fun exit holds => Or.inl ?_⟩
        · rw [report_of_found step.found, report_of_found found]
          exact (recorded tsn).1
        · obtain ⟨a', before, recovering, until_⟩ := holds
          rw [found, Option.some.injEq] at before
          subst before
          exact ⟨_, step.found, (recorded 0#32).2.1.trans recovering,
            (recorded 0#32).2.2.trans until_⟩
      · exact (step.aside key here).unjudged

/-! ## Passages -/

namespace Passage

/-- A passage counts and marks nothing, or it applies a SACK. -/
def Fair (p : Passage) (key : AssociationKey) : Prop :=
  Unjudged p.before p.after key ∨ ∃ now sack a, p.Accepts key now sack a

/-- A chunk is left by a SACK as `Judged` says. -/
theorem Accepts.judged {p : Passage} {key : AssociationKey} {now : Time} {sack : SackChunkValue}
    {a : Association} (accepts : p.Accepts key now sack a) (tsn : Tsn) :
    p.after.report key tsn = none
      ∨ ∃ o o', Judged o o' ∧ p.before.report key tsn = some (o.missingReports, o.fastRetransmitted)
        ∧ p.after.report key tsn = some (o'.missingReports, o'.fastRetransmitted) := by
  obtain ⟨b, after, books⟩ := books_acceptSack p.before now sack key a
  rw [← accepts.after] at after
  have left : (b.outstandingData.get? tsn).map (fun o => { o with pendingRetransmission := false })
      = ((a.outstandingData.get? tsn).bind (sackEntry a sack tsn)).map fun o =>
        { o with pendingRetransmission := false } := by
    rw [← get?_applySack a sack now]
    exact congrFun (congrArg Books.entry books) tsn
  have shown : ∀ entry : Option OutstandingData,
      entry.map (fun o => (o.missingReports, o.fastRetransmitted))
      = (entry.map fun o => { o with pendingRetransmission := false }).map fun o =>
        (o.missingReports, o.fastRetransmitted) := by
    intro entry
    cases entry <;> rfl
  rw [report_of_found after, report_of_found accepts.found, Association.report, Association.report,
    shown, left, ← shown]
  cases before : a.outstandingData.get? tsn with
  | none => exact Or.inl rfl
  | some o =>
    rw [Option.bind_some]
    cases kept : sackEntry a sack tsn o with
    | none => exact Or.inl rfl
    | some o' => exact Or.inr ⟨o, o', sackEntry_judged before kept, rfl, rfl⟩

/-- Fast Recovery is kept up by a SACK that does not cover the exit TSN. -/
theorem Accepts.recovering {p : Passage} {key : AssociationKey} {now : Time} {sack : SackChunkValue}
    {a : Association} (accepts : p.Accepts key now sack a) {exit : Tsn}
    (holds : Recovering p.before key exit) :
    Recovering p.after key exit ∨ Recovered p.after key exit := by
  obtain ⟨b, after, books⟩ := books_acceptSack p.before now sack key a
  rw [← accepts.after] at after
  obtain ⟨a', before, recovering, until_⟩ := holds
  rw [accepts.found, Option.some.injEq] at before
  subst before
  obtain ⟨-, still, same⟩ := recovering_applySack a sack now recovering
  have inFastRecovery : b.inFastRecovery = !tsnGte sack.cumulativeTsnAck a.fastRecoveryExitTsn :=
    (congrArg Books.inFastRecovery books).trans still
  have exits : b.fastRecoveryExitTsn = a.fastRecoveryExitTsn :=
    (congrArg Books.fastRecoveryExitTsn books).trans same
  have cumulative : b.cumulativeTsnAck = sack.cumulativeTsnAck :=
    (congrArg Books.cumulativeTsnAck books).trans (applySack_cumulativeTsnAck a sack now)
  cases covered : tsnGte sack.cumulativeTsnAck a.fastRecoveryExitTsn with
  | true =>
    refine Or.inr fun b' here => Or.inl ?_
    rw [after, Option.some.injEq] at here
    rw [← here, cumulative, ← until_]
    exact covered
  | false => exact Or.inl ⟨b, after, by rw [inFastRecovery, covered]; rfl, exits.trans until_⟩

/-- Resetting windows starts a Fast Recovery, and none was under way. -/
theorem Reduces.recovering {p : Passage} {key : AssociationKey} (reduces : p.Reduces key) :
    (∀ exit, ¬Recovering p.before key exit) ∧ ∃ b, p.after.find? key = some b ∧ b.inFastRecovery
      = true := by
  obtain ⟨now, sack, a, accepts, enters⟩ := reduces
  obtain ⟨outside, entered⟩ := enters_applySack a sack now enters
  obtain ⟨b, after, books⟩ := books_acceptSack p.before now sack key a
  rw [← accepts.after] at after
  refine ⟨fun exit recovering => ?_, b, after, (congrArg Books.inFastRecovery books).trans entered⟩
  obtain ⟨a', before, inside, -⟩ := recovering
  rw [accepts.found, Option.some.injEq] at before
  rw [before, inside] at outside
  cases outside

variable {p : Passage} {key : AssociationKey}

/-- What a passage makes of a report. -/
theorem Fair.report (fair : p.Fair key) (tsn : Tsn) : p.after.report key tsn = none
    ∨ p.after.report key tsn = p.before.report key tsn
    ∨ p.before.report key tsn = none ∧ p.after.report key tsn = some (0, false)
    ∨ (∃ now sack a, p.Accepts key now sack a)
      ∧ ∃ o o', Judged o o' ∧ p.before.report key tsn = some (o.missingReports, o.fastRetransmitted)
        ∧ p.after.report key tsn = some (o'.missingReports, o'.fastRetransmitted) := by
  rcases fair with unjudged | ⟨now, sack, a, accepts⟩
  · rcases unjudged.report tsn with gone | same | new
    · exact Or.inl gone
    · exact Or.inr (Or.inl same)
    · exact Or.inr (Or.inr (Or.inl new))
  · rcases accepts.judged tsn with gone | judged
    · exact Or.inl gone
    · exact Or.inr (Or.inr (Or.inr ⟨⟨now, sack, a, accepts⟩, judged⟩))

theorem Fair.recovery (fair : p.Fair key) {exit : Tsn} (holds : Recovering p.before key exit) :
    Recovering p.after key exit ∨ Recovered p.after key exit := by
  rcases fair with unjudged | ⟨now, sack, a, accepts⟩
  · exact unjudged.recovery exit holds
  · exact accepts.recovering holds

/-- Only a SACK counts a chunk missing or marks it. -/
theorem Fair.accepts (fair : p.Fair key) {tsn : Tsn} (judges : p.Counts key tsn ∨ p.Marks key tsn) :
    ∃ now sack a, p.Accepts key now sack a := by
  rcases fair.report tsn with gone | same | ⟨none, new⟩ | ⟨accepts, -⟩
  · rcases judges with counts | ⟨-, marks⟩
    · simp [Counts, gone] at counts
    · simp [gone] at marks
  · rcases judges with counts | ⟨before, marks⟩
    · simp [Counts, same] at counts
    · rw [same, before] at marks
      cases marks
  · rcases judges with counts | ⟨-, marks⟩
    · simp [Counts, new] at counts
    · simp [new] at marks
  · exact accepts

/-- A mark stays as long as its chunk. -/
theorem Fair.marked (fair : p.Fair key) {tsn : Tsn}
    (marked : (p.before.report key tsn).any Prod.snd = true) :
    (p.after.report key tsn).any Prod.snd = true ∨ p.after.report key tsn = none := by
  rcases fair.report tsn with gone | same | ⟨none, -⟩ | ⟨-, o, o', judged, before, after⟩
  · exact Or.inr gone
  · rw [same]
    exact Or.inl marked
  · simp [none] at marked
  · rw [before] at marked
    rw [after]
    exact Or.inl (judged.stays marked)

/-- A chunk's handler is fair to every association. -/
theorem fair_handleChunk (s : Socket) (now : Time) (draws : Draws) (header : CommonHeader)
    (key : AssociationKey) (src : SockAddr) (chunk : Chunk) (k : AssociationKey) :
    Fair ⟨none, s, s.handleChunk now draws header key src chunk⟩ k := by
  have calmly : ∀ {s' : Socket}, Calm False s s' → Fair ⟨none, s, s'⟩ k :=
    fun calm => Or.inl (calm.keys k).unjudged
  have elsewhere : ∀ {s' : Socket}, Aside True key s s' → k ≠ key →
      Fair ⟨none, s, s'.doNextShutdownStep now key⟩ k := by
    intro s' aside other
    have closed : Calm True s' _ := .doNextShutdownStep s' key now
    exact Or.inl ((aside k other).trans (closed.keys k)).unjudged
  by_cases acking : chunk.type = .sack ∨ chunk.type = .shutdown
  · unfold Socket.handleChunk
    cases value : chunk.value with
    | sack sack =>
      simp only [Socket.handleSack]
      cases found : s.find? key with
      | none => exact calmly (.refl s)
      | some a =>
        simp only
        split
        · exact calmly (.refl s)
        · next sends =>
          split
          · exact calmly (.abortAssociation s key _ _ _)
          · next sent =>
            split
            · exact calmly (.refl s)
            · next new =>
              by_cases here : k = key
              · subst here
                refine Or.inr ⟨now, sack, a, found, by simpa using sends, by simpa using sent, by
                  simpa using new, rfl⟩
              · obtain ⟨b, step, -⟩ := settleSack_step s key a now sack
                rw [acceptSack_eq]
                exact elsewhere step.aside here
    | shutdown cumulativeTsnAck =>
      simp only [Socket.handleShutdown]
      cases found : s.find? key with
      | none => exact calmly (.refl s)
      | some a =>
        simp only
        split
        · exact calmly (.refl s)
        · split
          · exact calmly (.answerShutdown found now header src)
          · split
            · exact calmly (.abortAssociation s key _ _ _)
            · by_cases here : k = key
              · subst here
                exact Or.inl (unjudged_acceptShutdown found now cumulativeTsnAck)
              · obtain ⟨b, step, -⟩ := settleShutdown_step now found cumulativeTsnAck
                rw [acceptShutdown_eq]
                exact elsewhere step.aside here
    | _ => simp [Chunk.type, value] at acking
  · rw [not_or] at acking
    exact calmly (.handleChunk s key now draws header src acking.1 acking.2)

end Passage

open Passage in
/-- Every handler an event calls is fair. -/
theorem System.fair_passages {σ σ' : System} {event : Event} (ok : Orderly σ.socket noneDue)
    (stepped : σ.step event = some σ') {p : Passage} (member : p ∈ σ.passages event)
    (k : AssociationKey) : p.Fair k := by
  have single : ∀ {s : Socket}, Unjudged σ.socket s k → p ∈ [(⟨none, σ.socket, s⟩ : Passage)] →
      p.Fair k := by
    intro s unjudged inside
    rw [List.mem_singleton] at inside
    rw [inside]
    exact Or.inl unjudged
  rcases step_cases stepped with ⟨now, draws, packet, src, rfl, -, -⟩ | ⟨now, draws, rfl, -,
    -⟩ | ⟨rfl, -, rfl⟩
    | ⟨now, accepted, left, rfl, -, -⟩ | ⟨s, called, rfl⟩
  · obtain ⟨turn, inside, rfl⟩ := List.mem_map.mp member
    rcases plain_turns ok.empty inside with calm | ⟨draws₁, header, chunk, -, after⟩
    · exact Or.inl (calm.keys k).unjudged
    · have fair := fair_handleChunk turn.before now draws₁ header turn.key src chunk k
      rw [← after] at fair
      exact fair
  · rcases List.mem_cons.mp member with rfl | timer
    · have drained : SameView Association.rulings σ.socket
          { σ.socket with expirations := (σ.socket.expirations.drainExpired now).2 } :=
            .of_find? fun _ => rfl
      exact Or.inl (drained.unjudged k)
    · obtain ⟨pair, inside, same⟩ := mem_timerPassages timer
      refine Or.inl ?_
      have off := (ExpirationQueue.drainExpiredFrom_spec now σ.socket.expirations.queue.length
        σ.socket.expirations).1
      have retry : NoData pair.1.retry.packet :=
        ok.queues.retries _ (off _ (List.fst_mem_of_mem_zipIdx inside))
      rw [same]
      by_cases t3 : pair.1.key.type = .t3Rtx
      · unfold Socket.handleExpiration
        simp only [t3]
        exact unjudged_handleT3Expiration p.before pair.1.key.location pair.1.key.path.address k
      · have calm : Calm False p.before _ := .handleExpiration p.before now (draws pair.2) t3 retry
        exact (calm.keys k).unjudged
  · simp only [passages, stepped] at member
    refine single ((SameView.mapVals σ.socket ?_).unjudged k) member
    exact fun _ _ => rfl
  · have next := ok.everyDue.nextPacket now
    unfold passages at member
    simp only at member
    rcases List.mem_cons.mp member with rfl | later
    · exact Or.inl ((SameView.nextPacket rulingsPass σ.socket now).unjudged k)
    · cases pending : (σ.socket.nextPacket now).pending with
      | none =>
        rw [pending] at later
        cases later
      | some out =>
        simp only [pending, List.mem_singleton] at later
        subst later
        refine Or.inl ?_
        simp only
        split
        · exact unjudged_packetSent next.2.queues next.2.empty
            (picked_nextPacket next.1.queues pending) now k
        · have refused : Calm False (σ.socket.nextPacket now).socket _ := .packetRefused _ now out
          exact (refused.keys k).unjudged
  · have calm : Calm False σ.socket s := .call called ok.empty
    cases event with
    | recv | expire | startSending | send => cases called
    | _ =>
      simp only [passages, stepped] at member
      exact single (calm.keys k).unjudged member

/-! ## Along a run -/

section History

variable {σ : System} {passed : List Passage} {key : AssociationKey} {tsn : Tsn}

theorem System.History.fair (history : History σ passed) : ∀ p ∈ passed, p.Fair key := by
  induction history with
  | start initial => exact fun p member => absurd member List.not_mem_nil
  | next before stepped ih =>
    intro p member
    rcases List.mem_append.mp member with old | new
    · exact ih p old
    · exact fair_passages (orderly_reached before.reached) stepped new key

/-- The SACKs that counted a chunk, since it came to be outstanding. -/
def Tallied (passed : List Passage) (key : AssociationKey) (tsn : Tsn)
    (report : Option (Nat × Bool)) : Prop :=
  ∀ n marked, report = some (n, marked) → (marked = true → 3 ≤ n) ∧ ∃ earlier since, passed
    = earlier ++ since
    ∧ (∀ p ∈ since, (p.before.report key tsn).isSome = true)
    ∧ n ≤ (since.filter fun p => decide (p.Counts key tsn)).length

/-- A passage that counts a chunk missing adds itself to the tally. -/
theorem Tallied.step {p : Passage} (tallied : Tallied passed key tsn (p.before.report key tsn))
    (fair : p.Fair key) :
    Tallied (passed ++ [p]) key tsn (p.after.report key tsn) := by
  intro n' marked' after
  -- A chunk that was outstanding before, with at most one report fewer.
  have goes : ∀ n marked, p.before.report key tsn = some (n, marked) → n' ≤ n + 1 →
      (n < n' → p.Counts key tsn) → ∃ earlier since, passed ++ [p] = earlier ++ since
        ∧ (∀ p ∈ since, (p.before.report key tsn).isSome = true)
        ∧ n' ≤ (since.filter fun p => decide (p.Counts key tsn)).length := by
    intro n marked before once counts
    obtain ⟨-, earlier, since, rfl, outstanding, tally⟩ := tallied n marked before
    refine ⟨earlier, since ++ [p], List.append_assoc _ _ _, fun q member => ?_, ?_⟩
    · rcases List.mem_append.mp member with old | new
      · exact outstanding q old
      · rw [List.mem_singleton.mp new, before]
        rfl
    · rw [List.filter_append, List.length_append]
      by_cases more : n < n'
      · rw [List.filter_cons_of_pos (by simpa using counts more)]
        exact once.trans (Nat.add_le_add_right tally 1)
      · exact (Nat.le_of_not_lt more).trans (tally.trans (Nat.le_add_right _ _))
  rcases fair.report tsn with gone | same | ⟨-, new⟩ | ⟨-, o, o', judged, before, left⟩
  · rw [gone] at after
    cases after
  · rw [same] at after
    exact ⟨(tallied n' marked' after).1, goes n' marked' after (Nat.le_succ _) fun less =>
      absurd less (Nat.lt_irrefl _)⟩
  · rw [new] at after
    cases after
    exact ⟨fun marked => (by cases marked), passed ++ [p], [], (List.append_nil _).symm, by simp,
      Nat.zero_le _⟩
  · rw [left] at after
    cases after
    refine ⟨fun marked => ?_, goes _ _ before judged.once fun more => ?_⟩
    · rcases judged.third marked with already | third
      · exact ((tallied _ _ before).1 already).trans judged.more
      · exact third
    · simpa [Passage.Counts, before, left] using more

theorem Tallied.passes {s s' : Socket} {earlier : List Passage} (passes : Passes s passed s')
    (fair : ∀ p ∈ passed, p.Fair key) (tallied : Tallied earlier key tsn (s.report key tsn)) :
    Tallied (earlier ++ passed) key tsn (s'.report key tsn) := by
  induction passes generalizing earlier with
  | nil =>
    rw [List.append_nil]
    exact tallied
  | cons p _ ih =>
    rw [List.append_cons]
    exact ih (fun q member => fair q (List.mem_cons_of_mem p member))
      (tallied.step (fair p List.mem_cons_self))

end History

/-- What a SACK does that `handle_sack` neither rejects nor ignores, and one that comes late;
and along a run, that a chunk is marked for Fast Retransmit once while it is outstanding,
after three SACKs counted it missing, and that windows are reset once in each Fast Recovery. -/
theorem sack_effects (key : AssociationKey) :
    (∀ (s : Socket) (now : Time) (header : CommonHeader) (sack : SackChunkValue) (src : SockAddr)
      (a : Association), s.find? key = some a → transmitsData a.state = true → acksUnsent a sack
        = false →
      (tsnLt sack.cumulativeTsnAck a.cumulativeTsnAck = false →
        ∃ b, (s.handleSack now header sack key src).find? key = some b ∧ SackEffect a sack now b)
      ∧ (tsnLt sack.cumulativeTsnAck a.cumulativeTsnAck = true →
        s.handleSack now header sack key src = s))
    ∧ ∀ (σ : System) (passed : List Passage), System.History σ passed →
      (∀ p ∈ passed, ∀ tsn, p.Counts key tsn ∨ p.Marks key tsn →
        ∃ now sack a, p.Accepts key now sack a)
      ∧ (∀ tsn earlier p between q later, passed = earlier ++ p :: between ++ q :: later →
        p.Marks key tsn → q.Marks key tsn → ∃ r ∈ between, r.after.report key tsn = none)
      ∧ (∀ tsn earlier p later, passed = earlier ++ p :: later → p.Marks key tsn →
        ∃ before since, earlier ++ [p] = before ++ since
        ∧ (∀ r ∈ since, (r.before.report key tsn).isSome = true)
          ∧ 3 ≤ (since.filter fun r => decide (r.Counts key tsn)).length)
      ∧ ∀ earlier p between q later, passed = earlier ++ p :: between ++ q :: later →
        p.Reduces key → q.Reduces key → ∃ b, p.after.find? key = some b
        ∧ ∃ r ∈ between, Recovered r.after key b.fastRecoveryExitTsn := by
  refine ⟨fun s now header sack src a found transmits sent => ⟨fun new => ?_, fun stale => ?_⟩,
    fun σ passed history => ?_⟩
  · rw [handleSack_accepts found transmits sent new]
    exact sackEffect_acceptSack s now sack key a
  · unfold Socket.handleSack
    simp [found, transmits, sent, stale]
  have fair : ∀ p ∈ passed, p.Fair key := history.fair
  obtain ⟨σ₀, ⟨address, rfl⟩, passes⟩ := history.passes
  refine ⟨fun p member tsn judges => (fair p member).accepts judges, ?_, ?_, ?_⟩
  · rintro tsn earlier p between q later rfl marks again
    -- The mark stays from the one to the other, unless the chunk goes.
    rcases passes.between.keeps_or (P := fun s => (s.report key tsn).any Prod.snd = true)
      (Q := fun s => s.report key tsn = none)
      (fun r member marked => (fair r (by simp [member])).marked marked) marks.2 with still | gone
    · rw [again.1] at still
      cases still
    · exact gone
  · rintro tsn earlier p later rfl marks
    obtain ⟨s₁, first, rest⟩ := passes.split
    cases rest with
    | cons _ _ =>
      have tallied : Tallied ([] ++ earlier) key tsn (p.before.report key tsn) :=
        Tallied.passes first (fun r member => fair r (by simp [member]))
          fun n marked impossible => by cases impossible
      rw [List.nil_append] at tallied
      have counted := tallied.step (fair p (by simp))
      cases after : p.after.report key tsn with
      | none =>
        have marked := marks.2
        rw [after] at marked
        cases marked
      | some report =>
        have marked := marks.2
        rw [after] at marked counted
        obtain ⟨third, before, since, split, outstanding, tally⟩ := counted report.1 report.2 rfl
        exact ⟨before, since, split, outstanding, (third marked).trans tally⟩
  · rintro earlier p between q later rfl reduces again
    obtain ⟨-, b, after, entered⟩ := reduces.recovering
    refine ⟨b, after, ?_⟩
    rcases passes.between.keeps_or (P := fun s => Recovering s key b.fastRecoveryExitTsn)
      (Q := fun s => Recovered s key b.fastRecoveryExitTsn)
      (fun r member recovering => (fair r (by simp [member])).recovery recovering)
      ⟨b, after, entered, rfl⟩ with still | over_
    · exact absurd still (again.recovering.1 _)
    · exact over_

namespace Opened

/-- A SACK that lacks TSN 10 and reports those up to `10 + n - 1`. -/
def lacksFirst (n : BitVec 16) : SackChunkValue := ⟨9#32, 65535#32, 1#16, 0#16, [⟨2#16, n⟩], []⟩

/-- Five chunks go out in one packet, and three SACKs lack the first of them. -/
def loses : List Event :=
  events ++ List.replicate 5 (.sendData key [42#8] 0#16 false) ++ batch 1
    ++ [2#16, 3#16, 4#16].map fun n => arrives [⟨0#8, .sack (lacksFirst n)⟩]

end Opened

/-- The third SACK marks TSN 10, and a fourth still has its effect. -/
theorem first_chunk_marked :
    ∃ (σ : System) (passed earlier : List Passage) (p : Passage) (later : List Passage),
      System.History σ passed ∧ passed = earlier ++ p :: later ∧ p.Marks Opened.key 10#32
    ∧ (∃ before since, earlier ++ [p] = before ++ since
      ∧ (∀ r ∈ since, (r.before.report Opened.key 10#32).isSome = true)
      ∧ 3 ≤ (since.filter fun r => decide (r.Counts Opened.key 10#32)).length)
    ∧ ∃ a b, σ.socket.find? Opened.key = some a
      ∧ (σ.socket.handleSack 0 ⟨5000#16, 5000#16, 1#32⟩ (Opened.lacksFirst 5#16)
        Opened.key Opened.peer).find? Opened.key
        = some b ∧ SackEffect a (Opened.lacksFirst 5#16) 0 b := by
  obtain ⟨σ, passed, history, ends⟩ := Opened.exists_history Opened.loses
    (p := fun w : System × List Passage =>
      w.2.any (fun p : Passage => decide (p.Marks Opened.key 10#32))
        && (w.1.socket.find? Opened.key).any fun a : Association => transmitsData a.state
          && !acksUnsent a (Opened.lacksFirst 5#16) && !tsnLt 9#32 a.cumulativeTsnAck)
          (by decide +kernel)
  rw [Bool.and_eq_true, List.any_eq_true, Option.any_eq_true] at ends
  obtain ⟨⟨p, member, marks⟩, a, found, holds⟩ := ends
  simp only [Bool.and_eq_true, Bool.not_eq_true'] at holds
  obtain ⟨⟨transmits, sent⟩, new⟩ := holds
  obtain ⟨earlier, later, split⟩ := List.append_of_mem member
  obtain ⟨effect, along⟩ := sack_effects Opened.key
  obtain ⟨-, -, third, -⟩ := along σ passed history
  obtain ⟨b, after, done⟩ := (effect σ.socket 0 ⟨5000#16, 5000#16, 1#32⟩ (Opened.lacksFirst 5#16)
    Opened.peer a found transmits sent).1 new
  exact ⟨σ, passed, earlier, p, later, history, split, of_decide_eq_true marks,
    third 10#32 earlier p later split (of_decide_eq_true marks), a, b, found, after, done⟩

end SctpStack
