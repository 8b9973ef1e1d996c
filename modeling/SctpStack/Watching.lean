import SctpStack.Isolation
import SctpStack.Passages

/-!
# The paths that are watched

While an association transmits, each path with a heartbeat out has its timer running, and
so has each path whose turn it is to be confirmed (`Watched`). Nothing a handler does
disturbs that unless it changes what is probed (`Vigilant`), and what does change it
arms the timers that are then wanted.
-/

namespace SctpStack

/-! ## Turns at being confirmed -/

/-- No more than HB.Max.Burst of the addresses that wait have a turn at being confirmed. -/
def hasTurn (probes : List Probe) (i : Nat) : Bool :=
  probes[i]?.any Probe.waits && decide ((probes.take i).countP Probe.waits < hbMaxBurst)

theorem probesForConfirmation_eq (a : Association) (i : Nat) :
    probesForConfirmation a i = hasTurn a.probes i := by
  have counted : (a.probes.take i).countP Probe.waits
      = (a.peerAddressList.take i).countP PeerPath.probing := by
    unfold Association.probes
    rw [← List.map_take, List.countP_map]
    rfl
  unfold probesForConfirmation hasTurn
  rw [counted]
  congr 1
  unfold Association.probes Association.path
  rw [List.getElem?_map, List.getD_eq_getElem?_getD]
  cases found : a.peerAddressList[i]? with
  | none =>
    rw [decide_eq_false (Nat.not_lt_of_le (List.getElem?_eq_none_iff.mp found))]
    rfl
  | some path =>
    rw [decide_eq_true (List.getElem?_eq_some_iff.mp found).1]
    rfl

section Turns

variable {probes : List Probe} {i j : Nat} {m m' : Probe}

theorem hasTurn_iff : hasTurn probes i = true
    ↔ (∃ m, probes[i]? = some m ∧ m.waits = true) ∧ (probes.take i).countP Probe.waits
      < hbMaxBurst := by
  unfold hasTurn
  rw [Bool.and_eq_true, Option.any_eq_true, decide_eq_true_eq]

/-- The first address that waits has a turn. -/
theorem hasTurn_first (here : probes[i]? = some m) (waits : m.waits = true)
    (first : ∀ m ∈ probes.take i, m.waits = false) : hasTurn probes i = true := by
  refine hasTurn_iff.mpr ⟨⟨m, here, waits⟩, ?_⟩
  rw [List.countP_eq_zero.mpr fun m member => by rw [first m member]; exact Bool.false_ne_true]
  exact Nat.zero_lt_one

theorem countP_set {α : Type} {p : α → Bool} {l : List α} {i : Nat} {x y : α}
    (here : l[i]? = some x) :
    (l.set i y).countP p + (if p x then 1 else 0) = l.countP p + (if p y then 1 else 0) := by
  induction l generalizing i with
  | nil => cases here
  | cons z rest ih =>
    cases i with
    | zero =>
      cases here
      simp only [List.set_cons_zero, List.countP_cons]
      omega
    | succ i =>
      have later := ih (i := i) here
      simp only [List.set_cons_succ, List.countP_cons]
      omega

/-- When another address stops waiting, a turn is only new where that one had a turn. -/
theorem hasTurn_set (here : probes[i]? = some m) (off : m'.waits = true → m.waits = true)
    (apart : j ≠ i) (turn : hasTurn (probes.set i m') j = true) :
    hasTurn probes j = true ∨ hasTurn probes i = true ∧ m'.waits = false := by
  obtain ⟨⟨n, there, waits⟩, few⟩ := hasTurn_iff.mp turn
  rw [List.getElem?_set_ne (Ne.symm apart)] at there
  by_cases before : (probes.take j).countP Probe.waits < hbMaxBurst
  · exact Or.inl (hasTurn_iff.mpr ⟨⟨n, there, waits⟩, before⟩)
  · -- Fewer wait before it now, so the other one comes before it.
    by_cases earlier : i < j
    · rw [List.take_set] at few
      have inside : (probes.take j)[i]? = some m := by rw [List.getElem?_take_of_lt earlier, here]
      have counts := countP_set (p := Probe.waits) (y := m') inside
      have fewer : ((probes.take i).countP Probe.waits)
          ≤ ((probes.take j).set i m').countP Probe.waits := by
        have same : ((probes.take j).set i m').take i = probes.take i := by
          rw [List.take_set_of_le (Nat.le_refl i), List.take_take,
            Nat.min_eq_left (Nat.le_of_lt earlier)]
        rw [← same]
        exact (List.take_sublist _ _).countP_le
      cases was : m.waits with
      | false =>
        have still : m'.waits = false := by
          rw [Bool.eq_false_iff]
          intro is
          rw [off is] at was
          cases was
        rw [was, still] at counts
        exact absurd (lt_of_eq_of_lt (Nat.add_right_cancel counts).symm few) before
      | true =>
        refine Or.inr ⟨hasTurn_iff.mpr ⟨⟨m, here, was⟩, by omega⟩, ?_⟩
        cases is : m'.waits with
        | false => rfl
        | true =>
          rw [was, is] at counts
          simp only [if_true] at counts
          omega
    · rw [List.take_set_of_le (Nat.le_of_not_lt earlier)] at few
      exact absurd few before

end Turns

/-! ## What is watched -/

namespace Socket

/-- What is probed for the association under a key, as long as it transmits. -/
def watch (s : Socket) (key : AssociationKey) : Option (List Probe) :=
  ((s.find? key).filter fun a => transmitsData a.state).map Association.probes

theorem watch_of_some {s : Socket} {key : AssociationKey} {a : Association}
    (found : s.find? key = some a) (transmits : transmitsData a.state = true) :
    s.watch key = some a.probes := by
  unfold watch
  rw [found, Option.filter_some, if_pos transmits]
  rfl

theorem watch_eq_some {s : Socket} {key : AssociationKey} {probes : List Probe}
    (watch : s.watch key = some probes) :
    ∃ a, s.find? key = some a ∧ transmitsData a.state = true ∧ a.probes = probes := by
  obtain ⟨a, found, same⟩ := Option.map_eq_some_iff.mp watch
  obtain ⟨found, transmits⟩ := Option.filter_eq_some_iff.mp found
  exact ⟨a, found, transmits, same⟩

theorem watch_congr {s s' : Socket} {key : AssociationKey} (same : s'.find? key = s.find? key) :
    s'.watch key = s.watch key := by
  unfold watch
  rw [same]

theorem watch_of_stopped {s : Socket} {key : AssociationKey}
    (stopped : ∀ a, s.find? key = some a → transmitsData a.state = false) : s.watch key = none := by
  cases watch : s.watch key with
  | none => rfl
  | some probes =>
    obtain ⟨a, found, transmits, -⟩ := watch_eq_some watch
    rw [stopped a found] at transmits
    cases transmits

theorem watch_updateAssociation (s : Socket) (key : AssociationKey) {f : Association → Association}
    (keeps : ∀ a, (f a).state = a.state ∧ (f a).probes = a.probes) :
    (s.updateAssociation key f).watch key = s.watch key := by
  unfold watch
  rw [find?_updateAssociation, if_pos rfl]
  cases s.find? key with
  | none => rfl
  | some a =>
    obtain ⟨state, probes⟩ := keeps a
    rw [Option.map_some, Option.filter_some, Option.filter_some, state]
    split
    · exact congrArg some probes
    · rfl

end Socket

/-- The heartbeat timer of an address. -/
def Probe.timer (key : AssociationKey) (m : Probe) : ExpirationKey :=
  ⟨key, .heartbeat, ⟨⟨m.ip, 0#16⟩⟩⟩

/-- A heartbeat is out, or the address has a turn at being confirmed. -/
def Needs (probes : List Probe) (i : Nat) (m : Probe) : Prop :=
  probes[i]? = some m ∧ (m.out = true ∨ hasTurn probes i = true)

/-- The timer runs, or it went off and its handler is yet to be called. -/
def Ticks (due : List ExpirationKey) (s : Socket) (timer : ExpirationKey) : Prop :=
  s.expirations.isActive timer = true ∨ timer ∈ due

section Watched

variable (due : List ExpirationKey) (s : Socket) (key : AssociationKey)

/-- Every timer that is needed ticks. -/
def Watched : Prop := ∀ probes, s.watch key = some probes → ∀ i m, Needs probes i m →
    Ticks due s (m.timer key)

/-- That of the path at one index apart. -/
def WatchedBut (i : Nat) : Prop :=
  ∀ probes, s.watch key = some probes → ∀ j m, j ≠ i → Needs probes j m → Ticks due s (m.timer key)

/-- The timer of every path with a heartbeat out ticks. -/
def OutWatched : Prop :=
  ∀ probes, s.watch key = some probes → ∀ m ∈ probes, m.out = true → Ticks due s (m.timer key)

end Watched

section Watched

variable {due : List ExpirationKey} {s s' : Socket} {key : AssociationKey}

theorem Watched.outWatched (watched : Watched due s key) : OutWatched due s key := by
  intro probes watch m member out
  obtain ⟨i, here⟩ := List.mem_iff_getElem?.mp member
  exact watched probes watch i m ⟨here, Or.inl out⟩

theorem Watched.but (watched : Watched due s key) (i : Nat) : WatchedBut due s key i :=
  fun probes watch j m _ needs => watched probes watch j m needs

theorem Watched.of_stopped (stopped : s.watch key = none) : Watched due s key := by
  intro probes watch
  rw [stopped] at watch
  cases watch

/-- Nothing new is probed, and no heartbeat timer stopped that may be needed. -/
structure Vigilant (key : AssociationKey) (s s' : Socket) : Prop where
  watch : ∀ probes, s'.watch key = some probes → s.watch key = some probes
  timers : ∀ probes, s'.watch key = some probes → ∀ timer, timer.location = key →
    timer.type = .heartbeat → s.expirations.isActive timer = true → s'.expirations.isActive timer
      = true

namespace Vigilant

theorem ticks (vigilant : Vigilant key s s') {probes : List Probe}
    (watch : s'.watch key = some probes) {m : Probe} (ticks : Ticks due s (m.timer key)) :
    Ticks due s' (m.timer key) :=
  ticks.imp_left (vigilant.timers probes watch _ rfl rfl)

theorem watched (vigilant : Vigilant key s s') (watched : Watched due s key) : Watched due s' key :=
  fun probes watch i m needs => vigilant.ticks watch
    (watched probes (vigilant.watch probes watch) i m needs)

theorem watchedBut (vigilant : Vigilant key s s') {i : Nat} (watched : WatchedBut due s key i) :
    WatchedBut due s' key i :=
  fun probes watch j m apart needs =>
    vigilant.ticks watch (watched probes (vigilant.watch probes watch) j m apart needs)

theorem refl (key : AssociationKey) (s : Socket) : Vigilant key s s :=
  ⟨fun _ => id, fun _ _ _ _ _ => id⟩

theorem trans {s'' : Socket} (first : Vigilant key s s') (second : Vigilant key s' s'') :
    Vigilant key s s'' where
  watch := fun probes watch => first.watch probes (second.watch probes watch)
  timers := fun probes watch timer location type active =>
    second.timers probes watch timer location type
      (first.timers probes (second.watch probes watch) timer location type active)

theorem of_same (watch : s'.watch key = s.watch key)
    (expirations : s'.expirations = s.expirations) :
    Vigilant key s s' := by
  refine ⟨fun probes here => watch ▸ here, fun _ _ timer _ _ active => ?_⟩
  rw [expirations]
  exact active

theorem of_gone (gone : s'.find? key = none) : Vigilant key s s' := by
  have none : s'.watch key = none := Socket.watch_of_stopped fun a found => by
    rw [gone] at found; cases found
  refine ⟨fun probes watch => ?_, fun probes watch => ?_⟩
  all_goals
    rw [none] at watch
    cases watch

theorem of_spares {a b : Association} (before : s.find? key = some a)
    (after : s'.find? key = some b) (spares : Spares a b)
    (expirations : s'.expirations = s.expirations) : Vigilant key s s' := by
  refine ⟨fun probes watch => ?_, fun _ _ timer _ _ active => ?_⟩
  · obtain ⟨b', found, transmits, same⟩ := Socket.watch_eq_some watch
    rw [after] at found
    cases found
    obtain ⟨transmitted, probes'⟩ := spares transmits
    rw [← same, probes']
    exact Socket.watch_of_some before transmitted
  · rw [expirations]
    exact active

end Vigilant

/-- What is done for another association disturbs nothing. -/
theorem Isolated.vigilant {k : AssociationKey} (isolated : Isolated key s s') (apart : k ≠ key) :
    Vigilant k s s' := by
  refine ⟨fun probes watch => ?_, fun _ _ timer location _ active => ?_⟩
  · rw [← Socket.watch_congr (isolated.tcbs k apart)]
    exact watch
  · rw [ExpirationQueue.isActive, KeyMap.contains, isolated.timers timer fun here =>
      apart (location.symm.trans here)]
    exact active

end Watched

/-! ## Deeds that change nothing about it -/

/-- DATA, taken or wrong, is all that may be shown. -/
def onlyData : Evidence → Prop
  | .spoiled _ _ | .took _ _ => True
  | _ => False

theorem unshown (s : Socket) (cookie : StateCookie) : ¬Shown onlyData s cookie := by
  rintro ⟨now, cookieData, header, src, told, -⟩
  exact told

section Deeds

variable {key : AssociationKey} {s s' : Socket}

theorem Deed.vigilant (deed : Deed onlyData key s s') (standing : Standing s) :
    Vigilant key s s' := by
  cases deed with
  | @update a b found succeeds minds =>
    exact .of_spares found (by simp) (minds.resolve_left id (standing.sound key a found)) rfl
  | @tie a draws found =>
    refine .of_spares found (by simp) (.of_eq (Deeds.state_withTieTags draws a) ?_) rfl
    rw [withTieTags_only]
    rfl
  | credit notes found told => exact told.elim
  | up found forms probed => exact probed.elim
  | created absent shown => exact absurd shown (unshown s _)
  | restarted found restarts => exact absurd restarts.shown (unshown s _)
  | @collided a b found follows spares =>
    refine .of_spares found (by simp) spares ?_
    unfold Socket.abandonPartialDelivery
    split <;> rfl
  | ended | violated | gaveUp => exact .of_gone (by simp)
  | deliver delivered found receives follows spares => exact .of_spares found (by simp) spares rfl
  | schedule timer expiration retry =>
    refine ⟨fun _ => id, fun _ _ other _ _ active => ?_⟩
    simp only [ExpirationQueue.isActive, Socket.scheduleExpiration, ExpirationQueue.schedule,
      KeyMap.contains_put] at active ⊢
    simp [active]
  | stop q queue next stopped =>
    refine ⟨fun _ => id, fun probes watch timer location type active => ?_⟩
    rcases stopped timer with same | ⟨-, -, unneeded⟩
    · rw [ExpirationQueue.isActive, KeyMap.contains, same]
      exact active
    · obtain ⟨a, found, transmits, -⟩ := Socket.watch_eq_some watch
      rw [unneeded.resolve_left id type a (location ▸ found)] at transmits
      cases transmits
  | enqueue | drop | note | list | mint => exact .of_same rfl rfl

theorem Deeds.vigilant (deeds : Deeds onlyData key s s') (standing : Standing s)
    (k : AssociationKey) :
    Vigilant k s s' := by
  by_cases here : k = key
  · subst here
    induction deeds with
    | refl => exact .refl _ _
    | tail before deed ih => exact ih.trans (deed.vigilant (Deeds.standing before standing))
  · exact (Deeds.isolated deeds standing).vigilant here

theorem Work.vigilant {event : Event} (work : Work onlyData event s s') (standing : Standing s)
    (awake : ∀ now draws, event ≠ .expire now draws) (k : AssociationKey) : Vigilant k s s' := by
  cases work with
  | deed key deed => exact Deeds.vigilant (.single deed) standing k
  | all f outline spares =>
    cases found : s.find? k with
    | none => exact .of_gone ((find?_mapVals s f k).trans (by rw [found]; rfl))
    | some a => exact .of_spares found ((find?_mapVals s f k).trans
        (by rw [found]; rfl)) (spares k a) rfl
  | @opened draws toAddress port _ absent =>
    refine .of_same ?_ rfl
    have after := find?_emplace absent (initNewAssociation draws toAddress) k
    by_cases here : k = peerKey toAddress port
    · rw [if_pos here] at after
      rw [Socket.watch_of_stopped fun a found => ?_, Socket.watch_of_stopped fun a found => ?_]
      · rw [here, absent] at found
        cases found
      · rw [after] at found
        cases found
        rfl
    · exact Socket.watch_congr (after.trans (if_neg here))
  | @aborted key =>
    by_cases here : k = key
    · exact .of_gone (by simp [here])
    · exact (Isolated.remove key s).vigilant here
  | @withdrawn now key =>
    by_cases here : k = key
    · exact .of_gone (by simp [here])
    · exact (Isolated.tearDown key s).vigilant here
  | expired q is => exact absurd is (awake _ _)
  | read | sent | attended => exact .of_same rfl rfl

theorem Works.vigilant {event : Event} (works : Works onlyData event s s') (standing : Standing s)
    (awake : ∀ now draws, event ≠ .expire now draws) (k : AssociationKey) : Vigilant k s s' := by
  induction works with
  | refl => exact .refl _ _
  | tail before work ih => exact ih.trans (work.vigilant (Works.standing before standing) awake k)

end Deeds

end SctpStack
