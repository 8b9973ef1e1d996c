import SctpStack.Watching

/-!
# The timers that are armed

What starts the heartbeats arms every path (`watched_startHeartbeats`); what may give a
path a turn at being confirmed arms that one, provided those with a heartbeat out are
watched (`watched_armConfirmationProbes`); and the handler of a heartbeat timer sees to its
own path, and hands the turn on where the path failed (`watched_handleHeartbeatExpiration`).
-/

namespace SctpStack

/-! ## Single timers -/

@[simp] theorem isActive_scheduleExpiration (s : Socket) (timer t : ExpirationKey)
    (expiration : Time) (retry : Deliverable) :
    (s.scheduleExpiration timer expiration retry).expirations.isActive t
      = (decide (t = timer) || s.expirations.isActive t) :=
  KeyMap.contains_put _ _ _ _

@[simp] theorem isActive_cancelExpiration (s : Socket) (timer t : ExpirationKey) :
    (s.cancelExpiration timer).expirations.isActive t
      = (!decide (t = timer) && s.expirations.isActive t) := by
  simp only [Socket.cancelExpiration, ExpirationQueue.cancel, ExpirationQueue.isActive,
    KeyMap.contains, KeyMap.get?_erase]
  by_cases here : t = timer <;> simp [here]

section Probes

variable {a : Association} {key : AssociationKey} {probes : List Probe} {i j : Nat} {m n : Probe}

theorem probe_path (same : a.probes = probes) (here : probes[i]? = some m) :
    (a.path i).probe = m := by
  rw [← same, Association.probes, List.getElem?_map, Option.map_eq_some_iff] at here
  obtain ⟨path, found, rfl⟩ := here
  rw [Association.path, List.getD_eq_getElem?_getD, found]
  rfl

theorem probes_of_lt {a : Association} {i : Nat} (bound : i < a.peerAddressList.length) :
    a.probes[i]? = some (a.path i).probe := by
  rw [Association.probes, List.getElem?_map, Association.path, List.getD_eq_getElem?_getD,
    List.getElem?_eq_getElem bound]
  rfl

theorem ips_probes (a : Association) : a.probes.map Probe.ip = a.ips := by
  unfold Association.probes Association.ips
  rw [List.map_map]
  rfl

theorem probes_modifyPath_set (a : Association) (i : Nat) (f : PeerPath → PeerPath) :
    (a.modifyPath i f).probes = a.probes.set i (f (a.path i)).probe := by
  unfold Association.modifyPath Association.probes Association.path
  apply List.ext_getElem?
  intro j
  rw [List.getElem?_map, List.getElem?_modify, List.getElem?_set, List.getElem?_map,
    List.length_map, List.getD_eq_getElem?_getD]
  by_cases here : i = j
  · subst here
    simp only [if_true]
    cases found : a.peerAddressList[i]? with
    | none => rw [if_neg (Nat.not_lt_of_le (List.getElem?_eq_none_iff.mp found))]; rfl
    | some path => rw [if_pos (List.getElem?_eq_some_iff.mp found).1]; rfl
  · simp [here]

/-- No two paths of an association have the same address. -/
def Distinct (probes : List Probe) : Prop := (probes.map Probe.ip).Nodup

theorem Sound.distinct_probes (sound : Sound a) : Distinct a.probes := by
  have same : a.probes.map Probe.ip = a.marks.map Prod.fst := by
    simp only [Association.probes, Association.marks, List.map_map]
    rfl
  rw [Distinct, same]
  exact sound.distinct

theorem Distinct.index_eq (distinct : Distinct probes) (here : probes[i]? = some m)
    (there : probes[j]? = some n) (same : m.ip = n.ip) : i = j := by
  have bound : i < probes.length := (List.getElem?_eq_some_iff.mp here).1
  refine (List.getElem?_inj (by rw [List.length_map]; exact bound) distinct).mp ?_
  rw [List.getElem?_map, List.getElem?_map, here, there, Option.map_some, Option.map_some, same]

theorem timer_inj (same : m.timer key = n.timer key) : m.ip = n.ip := by
  simp only [Probe.timer, ExpirationKey.mk.injEq, AssociationKey.mk.injEq, SockAddr.mk.injEq,
    and_true, true_and] at same
  exact same

theorem Distinct.timer_ne (distinct : Distinct probes) (here : probes[i]? = some m)
    (there : probes[j]? = some n) (apart : i ≠ j) : m.timer key ≠ n.timer key :=
  fun same => apart (distinct.index_eq here there (timer_inj same))

end Probes

/-! ## Arming the timer of a path -/

/-- The timer of the path at an index is armed if it is needed, and no other is touched. -/
structure Arms (key : AssociationKey) (probes : List Probe) (i : Nat) (m : Probe) (s s' : Socket) :
    Prop where
  watch : s'.watch key = some probes
  armed : m.out = true ∨ hasTurn probes i = true → s'.expirations.isActive (m.timer key) = true
  others : ∀ timer, timer ≠ m.timer key → s'.expirations.isActive timer
    = s.expirations.isActive timer

section Arms

variable {key : AssociationKey} {s s' : Socket} {probes : List Probe} {i : Nat} {m : Probe}
    {due : List ExpirationKey}

theorem Arms.armHeartbeat (watch : s.watch key = some probes) (here : probes[i]? = some m) :
    Arms key probes i m s (s.armHeartbeat key i) := by
  obtain ⟨a, found, transmits, same⟩ := Socket.watch_eq_some watch
  have probe := probe_path same here
  have timer : pathTimerOf key .heartbeat (a.path i).address = m.timer key := by
    rw [← probe]
    rfl
  have out : (a.path i).hbOutstanding = m.out := congrArg Probe.out probe
  have scheduled : ∀ expiration, Arms key probes i m s
      (s.scheduleExpiration (m.timer key) expiration (noRetry key)) := by
    refine fun expiration => ⟨watch, fun _ => by simp, fun other apart => ?_⟩
    rw [isActive_scheduleExpiration, decide_eq_false apart, Bool.false_or]
  unfold Socket.armHeartbeat
  rw [found]
  simp only
  rw [timer, out, probesForConfirmation_eq, same]
  split
  · exact scheduled _
  · next still =>
    split
    · next idle =>
      refine ⟨watch, fun needed => ?_, fun other apart => ?_⟩
      · -- A path with a turn is enabled, so its timer is not cancelled.
        exfalso
        have turn := needed.resolve_left still
        obtain ⟨⟨n, there, waits⟩, -⟩ := hasTurn_iff.mp turn
        rw [here] at there
        cases there
        rw [← probe] at waits
        simp only [PeerPath.probe, PeerPath.probing, Bool.and_eq_true] at waits
        rw [turn, waits.2] at idle
        simp at idle
      · rw [isActive_cancelExpiration, decide_eq_false apart, Bool.not_false, Bool.true_and]
    · exact scheduled _

theorem Arms.ticks (arms : Arms key probes i m s s') {timer : ExpirationKey}
    (apart : timer ≠ m.timer key) (ticks : Ticks due s timer) : Ticks due s' timer := by
  refine ticks.imp_left fun active => ?_
  rw [arms.others timer apart]
  exact active

/-- With the timer of one path armed, every timer is that is needed. -/
theorem Arms.watched (arms : Arms key probes i m s s') (watch : s.watch key = some probes)
    (distinct : Distinct probes) (here : probes[i]? = some m) (but : WatchedBut due s key i) :
    Watched due s' key := by
  intro probes' watch' j n needs
  rw [arms.watch] at watch'
  cases watch'
  by_cases same : j = i
  · subst same
    cases here.symm.trans needs.1
    exact Or.inl (arms.armed needs.2)
  · exact arms.ticks (distinct.timer_ne needs.1 here same) (but probes watch j n same needs)

theorem Arms.outWatched (arms : Arms key probes i m s s') (watch : s.watch key = some probes)
    (distinct : Distinct probes) (here : probes[i]? = some m) (out : OutWatched due s key) :
    OutWatched due s' key := by
  intro probes' watch' n member isOut
  rw [arms.watch] at watch'
  cases watch'
  obtain ⟨j, there⟩ := List.mem_iff_getElem?.mp member
  by_cases same : j = i
  · subst same
    rw [here] at there
    cases there
    exact Or.inl (arms.armed (Or.inl isOut))
  · exact arms.ticks (distinct.timer_ne there here same) (out probes watch n member isOut)

variable (due) in
/-- Where each timer is armed in turn, those that are needed tick. -/
theorem ticks_foldl {f : Socket → Nat → Socket} (distinct : Distinct probes)
    (arms : ∀ s i m, s.watch key = some probes → probes[i]? = some m →
      Arms key probes i m s (f s i)) (l : List Nat)
    (inside : ∀ i ∈ l, i < probes.length) (watch : s.watch key = some probes) :
    (l.foldl f s).watch key = some probes
      ∧ ∀ j n, Needs probes j n → j ∈ l ∨ Ticks due s (n.timer key) →
        Ticks due (l.foldl f s) (n.timer key) := by
  induction l generalizing s with
  | nil => exact ⟨watch, fun j n _ either => either.resolve_left List.not_mem_nil⟩
  | cons i rest ih =>
    obtain ⟨head, tail⟩ := List.forall_mem_cons.mp inside
    have here : probes[i]? = some probes[i] := List.getElem?_eq_getElem head
    have armed := arms s i _ watch here
    obtain ⟨watch', later⟩ := ih tail armed.watch
    refine ⟨watch', fun j n needs either => later j n needs ?_⟩
    rcases either with member | ticks
    · rcases List.mem_cons.mp member with rfl | member
      · cases here.symm.trans needs.1
        exact Or.inr (Or.inl (armed.armed needs.2))
      · exact Or.inl member
    · by_cases same : j = i
      · subst same
        cases here.symm.trans needs.1
        exact Or.inr (Or.inl (armed.armed needs.2))
      · exact Or.inr (armed.ticks (distinct.timer_ne needs.1 here same) ticks)

end Arms

/-! ## What the handlers arm -/

section Operations

variable {key : AssociationKey} {s s' : Socket} {probes : List Probe} {i : Nat} {m : Probe}
    {due : List ExpirationKey}

theorem watch_foldl {f : Socket → Nat → Socket} (keeps : ∀ s i, (f s i).watch key = s.watch key)
    (l : List Nat) (s : Socket) : (l.foldl f s).watch key = s.watch key := by
  induction l generalizing s with
  | nil => rfl
  | cons i rest ih => exact (ih _).trans (keeps s i)

theorem watch_armHeartbeat (s : Socket) (key : AssociationKey) (i : Nat) :
    (s.armHeartbeat key i).watch key = s.watch key := by
  unfold Socket.armHeartbeat
  split
  · rfl
  · simp only
    (repeat' split) <;> rfl

theorem watch_armConfirmationProbe (s : Socket) (now : Time) (key : AssociationKey) (i : Nat) :
    (s.armConfirmationProbe now key i).watch key = s.watch key := by
  unfold Socket.armConfirmationProbe
  split
  · rfl
  · simp only
    split
    · exact (watch_armHeartbeat _ key i).trans
        (Socket.watch_updateAssociation s key fun a => ⟨rfl, probes_modifyPath a i fun _ => rfl⟩)
    · rfl

theorem watch_armConfirmationProbes (s : Socket) (now : Time) (key : AssociationKey) :
    (s.armConfirmationProbes now key).watch key = s.watch key :=
  watch_foldl (fun s i => watch_armConfirmationProbe s now key i) _ s

theorem watch_planProbe (s : Socket) (now : Time) (draws : Draws) (key : AssociationKey) (i : Nat) :
    (s.planProbe now draws key i).watch key = s.watch key := by
  refine Socket.watch_updateAssociation s key fun a => ?_
  have planned : (planNextProbe a draws i now).probes = a.probes := probes_modifyPath a i fun _ =>
    rfl
  simp only
  split
  · refine ⟨rfl, (probes_modifyPath _ i ?_).trans planned⟩
    exact fun _ => rfl
  · exact ⟨rfl, planned⟩

theorem Arms.of_same {s₀ : Socket} (arms : Arms key probes i m s₀ s')
    (expirations : s₀.expirations = s.expirations) :
    Arms key probes i m s s' :=
  ⟨arms.watch, arms.armed, fun timer apart => (arms.others timer apart).trans (by rw [expirations])⟩

theorem length_watch {s : Socket} (watch : s.watch key = some probes) :
    s.pathCount key = probes.length := by
  obtain ⟨a, found, -, rfl⟩ := Socket.watch_eq_some watch
  unfold Socket.pathCount
  rw [found]
  exact (List.length_map _).symm

/-- Every path gets the timer it needs. -/
theorem watched_startHeartbeats (distinct : ∀ probes, s.watch key = some probes → Distinct probes)
    (now : Time) (draws : Draws) : Watched due (s.startHeartbeats now draws key) key := by
  unfold Socket.startHeartbeats
  have kept := watch_foldl (f := fun s i => (s.planProbe now draws key i).armHeartbeat key i)
    (fun s i => (watch_armHeartbeat _ key i).trans (watch_planProbe s now draws key i))
    (List.range (s.pathCount key)) s
  cases watch : s.watch key with
  | none => exact .of_stopped (kept.trans watch)
  | some probes =>
    obtain ⟨watch', ticks⟩ := ticks_foldl due (distinct probes watch)
      (f := fun s i => (s.planProbe now draws key i).armHeartbeat key i)
      (fun s i m watch here => (Arms.armHeartbeat ((watch_planProbe s now draws key i).trans watch)
        here).of_same rfl)
      (List.range (s.pathCount key))
        (fun i member => by rw [← length_watch watch]; exact List.mem_range.mp member) watch
    intro probes' here i m needs
    rw [watch'] at here
    cases here
    refine ticks i m needs (Or.inl (List.mem_range.mpr ?_))
    rw [length_watch watch]
    exact (List.getElem?_eq_some_iff.mp needs.1).1

/-- A path that has a turn and no timer gets one, and no timer is stopped. -/
theorem armConfirmationProbe_spec (watch : s.watch key = some probes) (now : Time) (i : Nat) :
    (∀ timer, s.expirations.isActive timer = true →
      (s.armConfirmationProbe now key i).expirations.isActive timer = true)
      ∧ ∀ m, probes[i]? = some m → hasTurn probes i = true →
        m.out = true ∨ (s.armConfirmationProbe now key i).expirations.isActive (m.timer key)
          = true := by
  obtain ⟨a, found, transmits, same⟩ := Socket.watch_eq_some watch
  have still : (s.updateAssociation key fun assoc =>
      assoc.modifyPath i fun path => { path with hbPeriodStart := now, hbNext := now }).watch key
        = some probes := by
    rw [← watch]
    refine Socket.watch_updateAssociation s key fun b => ⟨rfl, probes_modifyPath b i fun _ => rfl⟩
  unfold Socket.armConfirmationProbe
  rw [found]
  simp only
  rw [probesForConfirmation_eq, same]
  split
  · next wanted =>
    simp only [Bool.and_eq_true, Bool.not_eq_true'] at wanted
    obtain ⟨⟨turn, -⟩, idle⟩ := wanted
    obtain ⟨⟨m, here, -⟩, -⟩ := hasTurn_iff.mp turn
    have timer : pathTimerOf key .heartbeat (a.path i).address = m.timer key := by
      rw [← probe_path same here]
      rfl
    have arms := Arms.armHeartbeat still here
    refine ⟨fun other active => ?_, fun n there _ => ?_⟩
    · by_cases is : other = m.timer key
      · rw [is]
        exact arms.armed (Or.inr turn)
      · rw [arms.others other is]
        exact active
    · rw [here] at there
      cases there
      exact Or.inr (arms.armed (Or.inr turn))
  · next unwanted =>
    refine ⟨fun _ => id, fun m here turn => ?_⟩
    have probe := probe_path same here
    rw [turn, show (a.path i).hbOutstanding = m.out from congrArg Probe.out probe,
      show pathTimerOf key .heartbeat (a.path i).address = m.timer key by rw [← probe]; rfl]
          at unwanted
    cases out : m.out with
    | true => exact Or.inl rfl
    | false =>
      rw [out] at unwanted
      exact Or.inr (by simpa using unwanted)

/-- As long as the paths with a heartbeat out are watched, so is then every path that
needs it. -/
theorem watched_armConfirmationProbes (out : OutWatched due s key) (now : Time) :
    Watched due (s.armConfirmationProbes now key) key := by
  unfold Socket.armConfirmationProbes
  have kept := watch_foldl (f := fun s i => s.armConfirmationProbe now key i)
    (fun s i => watch_armConfirmationProbe s now key i) (List.range (s.pathCount key)) s
  cases watch : s.watch key with
  | none => exact .of_stopped (kept.trans watch)
  | some probes =>
    have along : ∀ (l : List Nat) (s : Socket), s.watch key = some probes →
        (∀ timer, s.expirations.isActive timer = true →
          (l.foldl (fun s i => s.armConfirmationProbe now key i) s).expirations.isActive timer
            = true)
        ∧ ∀ i ∈ l, ∀ m, probes[i]? = some m → hasTurn probes i = true →
          m.out = true ∨ (l.foldl (fun s i => s.armConfirmationProbe now key i)
            s).expirations.isActive (m.timer key) = true := by
      intro l
      induction l with
      | nil => exact fun s watch => ⟨fun _ => id, fun _ member => absurd member List.not_mem_nil⟩
      | cons i rest ih =>
        intro s watch
        obtain ⟨grows, armed⟩ := armConfirmationProbe_spec watch now i
        obtain ⟨grows', armed'⟩ := ih _ ((watch_armConfirmationProbe s now key i).trans watch)
        refine ⟨fun timer active => grows' timer (grows timer active),
          List.forall_mem_cons.mpr ⟨?_, armed'⟩⟩
        exact fun m here turn => (armed m here turn).imp_right (grows' _)
    obtain ⟨grows, armed⟩ := along (List.range (s.pathCount key)) s watch
    intro probes' here i m needs
    rw [kept, watch] at here
    cases here
    have ticks : m.out = true → Ticks due _ (m.timer key) := fun isOut =>
      (out probes watch m (List.mem_of_getElem? needs.1) isOut).imp_left (grows _)
    rcases needs.2 with isOut | turn
    · exact ticks isOut
    · have inside : i ∈ List.range (s.pathCount key) := by
        rw [List.mem_range, length_watch watch]
        exact (List.getElem?_eq_some_iff.mp needs.1).1
      rcases armed i inside m needs.1 turn with isOut | active
      · exact ticks isOut
      · exact Or.inl active

end Operations

/-! ## Heartbeats that go out -/

section Expiry

variable {key : AssociationKey} {s s' : Socket} {probes : List Probe} {i : Nat} {m m' : Probe}
    {due : List ExpirationKey}

theorem Distinct.set (distinct : Distinct probes) (here : probes[i]? = some m)
    (same : m'.ip = m.ip) :
    Distinct (probes.set i m') := by
  have ips : (probes.set i m').map Probe.ip = probes.map Probe.ip := by
    rw [List.map_set, same]
    refine List.ext_getElem? fun j => ?_
    rw [List.getElem?_set]
    split
    · next at_ =>
      subst at_
      rw [List.length_map, if_pos (List.getElem?_eq_some_iff.mp here).1, List.getElem?_map, here]
      rfl
    · rfl
  rw [Distinct, ips]
  exact distinct

/-- The path at an index changes, and keeps its turn if it had one. -/
theorem WatchedBut.set (but : WatchedBut due s key i) (watch : s.watch key = some probes)
    (here : probes[i]? = some m) (watch' : s'.watch key = some (probes.set i m'))
    (expirations : s'.expirations = s.expirations) (off : m'.waits = true → m.waits = true)
    (kept : hasTurn probes i = true → m'.waits = true) :
    WatchedBut due s' key i := by
  intro probes' there j n apart needs
  rw [watch'] at there
  cases there
  have place : probes[j]? = some n := by
    rw [← needs.1, List.getElem?_set_ne (Ne.symm apart)]
  have before : Ticks due s (n.timer key) := by
    refine but probes watch j n apart ⟨place, needs.2.imp_right fun turn => ?_⟩
    rcases hasTurn_set here off apart turn with was | ⟨had, gone⟩
    · exact was
    · rw [kept had] at gone
      cases gone
  unfold Ticks
  rw [expirations]
  exact before

/-- The path at an index changes, with no heartbeat out there. -/
theorem WatchedBut.set_out (but : WatchedBut due s key i) (watch : s.watch key = some probes)
    (watch' : s'.watch key = some (probes.set i m')) (expirations : s'.expirations = s.expirations)
    (silent : m'.out = false) : OutWatched due s' key := by
  intro probes' there n member out
  rw [watch'] at there
  cases there
  obtain ⟨j, place⟩ := List.mem_iff_getElem?.mp member
  by_cases same : j = i
  · subst same
    obtain ⟨bound, is⟩ := List.getElem?_eq_some_iff.mp place
    rw [List.getElem_set_self] at is
    rw [← is, silent] at out
    cases out
  · rw [List.getElem?_set_ne (Ne.symm same)] at place
    have before := but probes watch j n same ⟨place, Or.inl out⟩
    unfold Ticks
    rw [expirations]
    exact before

theorem watch_modifyPath {a : Association} (found : s.find? key = some a)
    (transmits : transmitsData a.state = true) (i : Nat) (f : PeerPath → PeerPath) :
    (s.updateAssociation key fun assoc => assoc.modifyPath i f).watch key
      = some (a.probes.set i (f (a.path i)).probe) := by
  rw [← probes_modifyPath_set]
  refine Socket.watch_of_some (a := a.modifyPath i f) ?_ transmits
  rw [Socket.find?_updateAssociation, if_pos rfl, found]
  rfl

/-- A probe goes out: the turns stay as they are. -/
theorem buildProbe_spec {a : Association} (found : s.find? key = some a)
    (transmits : transmitsData a.state = true) (here : a.probes[i]? = some m) (now : Time)
    (draws : Draws) (but : WatchedBut due s key i) :
    (s.buildProbe now draws key a i).1.watch key = some (a.probes.set i { m with out := true })
      ∧ WatchedBut due (s.buildProbe now draws key a i).1 key i := by
  have watch : (s.buildProbe now draws key a i).1.watch key
      = some (a.probes.set i { m with out := true }) := by
    rw [← probe_path rfl here]
    exact watch_modifyPath found transmits i _
  refine ⟨watch, but.set (Socket.watch_of_some found transmits) here watch rfl id fun turn => ?_⟩
  obtain ⟨⟨n, there, waits⟩, -⟩ := hasTurn_iff.mp turn
  rw [here] at there
  cases there
  exact waits

/-- With the timer of one path armed, all are that are needed. -/
theorem watched_armHeartbeat (watch : s.watch key = some probes) (distinct : Distinct probes)
    (here : probes[i]? = some m) (but : WatchedBut due s key i) :
    Watched due (s.armHeartbeat key i) key :=
  (Arms.armHeartbeat watch here).watched watch distinct here but

theorem watched_sendDueProbe (watch : s.watch key = some probes) (distinct : Distinct probes)
    (here : probes[i]? = some m) (now : Time) (draws : Draws) (probeNow : Bool)
    (but : WatchedBut due s key i) :
    Watched due (s.sendDueProbe now draws key i probeNow).1 key := by
  have planned : ∀ {s : Socket} {probes : List Probe} {m : Probe}, s.watch key = some probes →
      Distinct probes → probes[i]? = some m → WatchedBut due s key i →
      Watched due ((s.updateAssociation key fun assoc =>
        planNextProbe assoc draws i now).armHeartbeat key i) key := by
    intro s probes m watch distinct here but
    have same : (s.updateAssociation key fun assoc => planNextProbe assoc draws i now).watch key
        = s.watch key :=
      Socket.watch_updateAssociation s key fun a => ⟨rfl, probes_modifyPath a i fun _ => rfl⟩
    exact watched_armHeartbeat (same.trans watch) distinct here
      ((Vigilant.of_same same rfl).watchedBut but)
  obtain ⟨a, found, transmits, rfl⟩ := Socket.watch_eq_some watch
  unfold Socket.sendDueProbe
  rw [found]
  simp only
  split
  · split
    · obtain ⟨watch', but'⟩ := buildProbe_spec found transmits here now draws but
      exact planned watch' (distinct.set here rfl)
        (List.getElem?_set_self (List.getElem?_eq_some_iff.mp here).1) but'
    · exact planned watch distinct here but
  · exact watched_armHeartbeat watch distinct here but

/-- What is left of a path whose heartbeat was missed. -/
def missed (path : PeerPath) : PeerPath :=
  (countPathError (doubleRto { path with hbOutstanding := false })).1

theorem probe_missed (path : PeerPath) :
    (missed path).probe.ip = path.probe.ip ∧ (missed path).probe.out = false
    ∧ (missed path).probe.waits = (!path.confirmed && (countPathError path).1.active
      && path.hbEnabled) := by
  unfold missed countPathError doubleRto
  simp only
  (repeat' split) <;> simp_all [PeerPath.probe, PeerPath.probing]

theorem waits_of_missed {path : PeerPath} (waits : (missed path).probe.waits = true) :
    path.probe.waits = true := by
  rw [(probe_missed path).2.2] at waits
  simp only [Bool.and_eq_true] at waits
  obtain ⟨⟨unconfirmed, active⟩, enabled⟩ := waits
  have still : path.active = true := by
    cases was : path.active with
    | true => rfl
    | false =>
      rw [countPathError, was] at active
      exact absurd (active.symm.trans was) Bool.noConfusion
  rw [PeerPath.probe, PeerPath.probing, unconfirmed, still, enabled]
  rfl

theorem path_modifyPath_self {a : Association} (here : a.probes[i]? = some m)
    (f : PeerPath → PeerPath) :
    (a.modifyPath i f).path i = f (a.path i) := by
  rw [Association.probes, List.getElem?_map, Option.map_eq_some_iff] at here
  obtain ⟨path, found, -⟩ := here
  simp only [Association.path, Association.modifyPath, List.getD_eq_getElem?_getD,
    List.getElem?_modify, found]
  simp

theorem watch_notifyIf (s : Socket) (changed : Bool) (key k : AssociationKey) (address : SockAddr)
    (state : PeerAddrState) :
    (s.notifyIf changed key address state).watch k = s.watch k := by
  cases changed <;> rfl

theorem expirations_notifyIf (s : Socket) (changed : Bool) (key : AssociationKey)
    (address : SockAddr) (state : PeerAddrState) :
    (s.notifyIf changed key address state).expirations = s.expirations := by
  cases changed <;> rfl

theorem watch_missed {a : Association} (found : s.find? key = some a)
    (transmits : transmitsData a.state = true) (here : a.probes[i]? = some m) :
    ((s.updateAssociation key fun assoc => assoc.modifyPath i fun path =>
      doubleRto { path with hbOutstanding := false }).countPathErrorAt key a i).watch key
      = some (a.probes.set i (missed (a.path i)).probe) := by
  have found' : (s.updateAssociation key fun assoc => assoc.modifyPath i fun path =>
      doubleRto { path with hbOutstanding := false }).find? key
      = some (a.modifyPath i fun path => doubleRto { path with hbOutstanding := false }) := by
    rw [Socket.find?_updateAssociation, if_pos rfl, found]
    rfl
  refine (watch_notifyIf _ _ _ _ _ _).trans ?_
  rw [watch_modifyPath found' transmits, probes_modifyPath_set a i, List.set_set,
    path_modifyPath_self here]
  rfl

/-- A heartbeat was missed: where the path had a turn and failed, the turn is handed on. -/
theorem missHeartbeat_spec {a : Association} (found : s.find? key = some a)
    (transmits : transmitsData a.state = true) (here : a.probes[i]? = some m) (now : Time)
    (but : WatchedBut due s key i) :
    (s.missHeartbeat now key a i).1.watch key = some (a.probes.set i (missed (a.path i)).probe)
      ∧ WatchedBut due (s.missHeartbeat now key a i).1 key i := by
  have watch := Socket.watch_of_some found transmits
  have probe := probe_path rfl here
  obtain ⟨-, silent, waits⟩ := probe_missed (a.path i)
  have counted := watch_missed found transmits here
  unfold Socket.missHeartbeat
  simp only
  generalize after : (s.updateAssociation key fun assoc => assoc.modifyPath i fun path =>
      doubleRto { path with hbOutstanding := false }).countPathErrorAt key a i = s₁ at counted ⊢
  have expirations : s₁.expirations = s.expirations := by
    rw [← after]
    exact expirations_notifyIf _ _ _ _ _
  have watch' : (s₁.updateAssociation key fun assoc =>
      if ((a.path i).confirmed && dataPath a == i) = true then
      { assoc with errorCount := assoc.errorCount + 1 } else assoc).watch key
      = some (a.probes.set i (missed (a.path i)).probe) := by
    refine (Socket.watch_updateAssociation s₁ key fun assoc => ?_).trans counted
    split <;> exact ⟨rfl, rfl⟩
  rw [probesForConfirmation_eq]
  split
  · refine ⟨(watch_armConfirmationProbes _ now key).trans watch', ?_⟩
    exact (watched_armConfirmationProbes (but.set_out watch watch' expirations silent) now).but i
  · next stays =>
    refine ⟨watch', but.set watch here watch' expirations (fun is => ?_) fun turn => ?_⟩
    · rw [← probe]
      exact waits_of_missed is
    · obtain ⟨⟨n, there, was⟩, -⟩ := hasTurn_iff.mp turn
      rw [here] at there
      cases there
      rw [← probe] at was
      simp only [PeerPath.probe, PeerPath.probing, Bool.and_eq_true] at was
      rw [turn, Bool.true_and, Bool.not_eq_true', Bool.not_eq_false] at stays
      rw [waits, stays, was.1.1, was.2]
      rfl

theorem Ticks.of_cons {timer t : ExpirationKey} (ticks : Ticks (timer :: due) s t)
    (apart : t ≠ timer) : Ticks due s t :=
  ticks.imp_right fun member => (List.mem_cons.mp member).resolve_left apart

/-- The timer of a path went off: its handler sees to the path, and to the one whose turn
it is then. -/
theorem watched_handleHeartbeatExpiration (standing : Standing s) (timer : ExpirationKey)
    (now : Time) (draws : Draws) (watched : Watched (timer :: due) s timer.location) :
    Watched due (s.handleHeartbeatExpiration now draws timer.location timer.path.address)
      timer.location := by
  unfold Socket.handleHeartbeatExpiration
  cases found : s.find? timer.location with
  | none => exact .of_stopped (Socket.watch_of_stopped fun a here => by
      rw [found] at here; cases here)
  | some a =>
    simp only
    split
    · next stopped =>
      refine .of_stopped (Socket.watch_of_stopped fun b here => ?_)
      rw [found] at here
      cases here
      exact (Bool.not_eq_true' _).mp stopped
    · next transmits =>
      rw [Bool.not_eq_true', Bool.not_eq_false] at transmits
      have watch := Socket.watch_of_some found transmits
      have distinct := (standing.sound _ a found).distinct_probes
      have address : ∀ {n : Probe}, n.timer timer.location = timer →
          n.ip = timer.path.address.addr := by
        intro n same
        rw [← same]
        rfl
      cases path : findPath a timer.path.address with
      | none =>
        intro probes here i m needs
        rw [watch] at here
        cases here
        refine (watched _ watch i m needs).of_cons fun same => findPath_eq_none.mp path ?_
        rw [← address same]
        rw [← ips_probes]
        exact List.mem_map_of_mem (List.mem_of_getElem? needs.1)
      | some i =>
        obtain ⟨bound, same⟩ := findPath_spec path
        have here := probes_of_lt bound
        have but : WatchedBut due s timer.location i := by
          intro probes there j n apart needs
          rw [watch] at there
          cases there
          refine (watched _ watch j n needs).of_cons fun is =>
            apart (distinct.index_eq needs.1 here ?_)
          exact (address is).trans same.symm
        have outcome : ∃ probes m, (if (a.path i).hbOutstanding = true then s.missHeartbeat now
            timer.location a i
            else (s, false)).1.watch timer.location = some probes ∧ Distinct probes
              ∧ probes[i]? = some m
            ∧ WatchedBut due (if (a.path i).hbOutstanding = true then s.missHeartbeat now
              timer.location a i
              else (s, false)).1 timer.location i := by
          split
          · obtain ⟨watch', but'⟩ := missHeartbeat_spec found transmits here now but
            exact ⟨_, _, watch', distinct.set here (probe_missed (a.path i)).1,
              List.getElem?_set_self (List.getElem?_eq_some_iff.mp here).1, but'⟩
          · exact ⟨_, _, watch, distinct, here, but⟩
        simp only
        revert outcome
        generalize (if (a.path i).hbOutstanding = true then s.missHeartbeat now timer.location a i
          else (s, false)) = missed
        obtain ⟨s₁, unreachable⟩ := missed
        rintro ⟨probes, m, watch', distinct', here', but'⟩
        simp only at watch' but' ⊢
        split
        · refine .of_stopped (Socket.watch_of_stopped fun b after => ?_)
          simp [Socket.loseAssociation] at after
        · have sent := watched_sendDueProbe watch' distinct' here' now draws
            ((s₁.find? timer.location).any fun assoc =>
              !(a.path i).hbOutstanding || probesForConfirmation assoc i
                || decide (now ≥ (assoc.path i).hbNext)) but'
          split
          · next s₂ none =>
            rw [none] at sent
            exact sent
          · next s₂ probe some =>
            rw [some] at sent
            exact (Vigilant.of_same rfl rfl).watched sent

end Expiry

/-! ## Fewer heartbeats out -/

/-- No path goes away, no two become one, and every heartbeat that is out was out before. -/
structure Soothes (probes probes' : List Probe) : Prop where
  length : probes.length ≤ probes'.length
  distinct : Distinct probes → Distinct probes'
  out : ∀ m ∈ probes', m.out = true → ∃ n ∈ probes, n.out = true ∧ n.ip = m.ip

namespace Soothes

variable {p q r : List Probe}

theorem refl (p : List Probe) : Soothes p p :=
  ⟨Nat.le_refl _, id, fun m member out => ⟨m, member, out, rfl⟩⟩

theorem trans (first : Soothes p q) (second : Soothes q r) : Soothes p r := by
  refine ⟨first.length.trans second.length, fun distinct =>
    second.distinct (first.distinct distinct), fun m member out => ?_⟩
  obtain ⟨n, member', out', same'⟩ := second.out m member out
  obtain ⟨l, member'', out'', same⟩ := first.out n member' out'
  exact ⟨l, member'', out'', same.trans same'⟩

theorem modifyPath (a : Association) (i : Nat) {f : PeerPath → PeerPath}
    (keeps : ∀ path, (f path).address.addr = path.address.addr)
    (fewer : ∀ path, (f path).hbOutstanding = true → path.hbOutstanding = true) :
    Soothes a.probes (a.modifyPath i f).probes := by
  have same : ∀ j, (a.modifyPath i f).probes[j]? = a.peerAddressList[j]?.map fun path =>
      (if i = j then f path else path).probe := by
    intro j
    unfold Association.modifyPath Association.probes
    rw [List.getElem?_map, List.getElem?_modify]
    cases a.peerAddressList[j]? with
    | none => rfl
    | some path => by_cases here : i = j <;> simp [here]
  refine ⟨?_, fun distinct => ?_, fun m member out => ?_⟩
  · simp [Association.probes, Association.modifyPath]
  · have ips : (a.modifyPath i f).probes.map Probe.ip = a.probes.map Probe.ip := by
      apply List.ext_getElem?
      intro j
      rw [List.getElem?_map, same, Association.probes, List.getElem?_map, List.getElem?_map,
        Option.map_map, Option.map_map]
      cases a.peerAddressList[j]? with
      | none => rfl
      | some path =>
        simp only [Option.map_some, Function.comp_apply]
        split
        · exact congrArg some (keeps path)
        · rfl
    rw [Distinct, ips]
    exact distinct
  · obtain ⟨j, here⟩ := List.mem_iff_getElem?.mp member
    rw [same, Option.map_eq_some_iff] at here
    obtain ⟨path, found, rfl⟩ := here
    refine ⟨path.probe, List.mem_map_of_mem (List.mem_of_getElem? found), ?_⟩
    by_cases here : i = j
    · rw [if_pos here] at out ⊢
      exact ⟨fewer path out, (keeps path).symm⟩
    · rw [if_neg here] at out ⊢
      exact ⟨out, rfl⟩

theorem withPath (a : Association) (address : SockAddr) :
    Soothes a.probes (withPath a address).probes := by
  unfold SctpStack.withPath
  split
  · next new =>
    have probes : ({ a with peerAddressList := a.peerAddressList
      ++ [makePath address false a.pmdcs] } : Association).probes
        = a.probes ++ [(makePath address false a.pmdcs).probe] := List.map_append
    rw [probes]
    refine ⟨by simp, fun distinct => ?_, fun m member out => ?_⟩
    · rw [Distinct, List.map_append]
      refine List.nodup_append.mpr ⟨distinct, List.nodup_singleton _, fun ip member ip' here same =>
        ?_⟩
      rw [List.map_singleton, List.mem_singleton] at here
      refine findPath_eq_none.mp new ?_
      rw [← ips_probes, show address.addr = ip from (same.trans here).symm]
      exact member
    · rcases List.mem_append.mp member with before | added
      · exact ⟨m, before, out, rfl⟩
      · rw [List.mem_singleton.mp added] at out
        cases out
  · exact .refl _

theorem withPaths (a : Association) (addresses : List SockAddr) :
    Soothes a.probes (withPaths a addresses).probes := by
  unfold SctpStack.withPaths
  induction addresses generalizing a with
  | nil => exact .refl _
  | cons address rest ih => exact (withPath a address).trans (ih _)

end Soothes

/-- What is watched changes, but no heartbeat goes out; and no timer is touched. -/
structure Quells (key : AssociationKey) (s s' : Socket) : Prop where
  expirations : s'.expirations = s.expirations
  watch : Option.Rel Soothes (s.watch key) (s'.watch key)

namespace Quells

variable {key : AssociationKey} {s s' s'' : Socket} {due : List ExpirationKey}

theorem of_watch (watch : s'.watch key = s.watch key)
    (expirations : s'.expirations = s.expirations) : Quells key s s' := by
  refine ⟨expirations, ?_⟩
  rw [watch]
  cases s.watch key with
  | none => exact .none
  | some probes => exact .some (.refl probes)

theorem trans (first : Quells key s s') (second : Quells key s' s'') : Quells key s s'' := by
  refine ⟨second.expirations.trans first.expirations, ?_⟩
  obtain ⟨-, watch⟩ := first
  obtain ⟨-, watch'⟩ := second
  revert watch watch'
  generalize s.watch key = x, s'.watch key = y, s''.watch key = z
  rintro (soothes | _) (soothes' | _)
  · exact .some (soothes.trans soothes')
  · exact .none

/-- A TCB takes the place of another in the same state. -/
theorem of_tcb {a b : Association} (before : s.find? key = some a) (after : s'.find? key = some b)
    (state : b.state = a.state) (soothes : Soothes a.probes b.probes)
    (expirations : s'.expirations = s.expirations) : Quells key s s' := by
  refine ⟨expirations, ?_⟩
  unfold Socket.watch
  rw [before, after, Option.filter_some, Option.filter_some, state]
  split
  · exact .some soothes
  · exact .none

theorem update {f : Association → Association} (state : ∀ a, (f a).state = a.state)
    (soothes : ∀ a, Soothes a.probes (f a).probes) : Quells key s (s.updateAssociation key f) := by
  cases found : s.find? key with
  | none =>
    rw [Deeds.updateAssociation_of_none found]
    exact .of_watch rfl rfl
  | some a =>
    refine .of_tcb found ?_ (state a) (soothes a) rfl
    rw [Socket.find?_updateAssociation, if_pos rfl, found]
    rfl

theorem outWatched (quells : Quells key s s') (out : OutWatched due s key) :
    OutWatched due s' key := by
  intro probes' watch' m member isOut
  obtain ⟨expirations, watch⟩ := quells
  rw [watch'] at watch
  cases before : s.watch key with
  | none =>
    rw [before] at watch
    cases watch
  | some probes =>
    rw [before] at watch
    cases watch with
    | some soothes =>
      obtain ⟨n, member', isOut', same⟩ := soothes.out m member isOut
      have ticks := out probes before n member' isOut'
      unfold Ticks
      rw [expirations, show m.timer key = n.timer key by unfold Probe.timer; rw [same]]
      exact ticks

end Quells

end SctpStack
