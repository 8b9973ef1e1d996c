import SctpStack.Arming
import SctpStack.Routing

/-!
# Confirmation goes on

Every handler keeps the paths watched that need it, so the first path that waits to be
confirmed is always watched, and so is every path with a heartbeat out
(`confirmation_goes_on`).
-/

namespace SctpStack

/-! ## What makes an association, or brings it up -/

section Handlers

variable {key : AssociationKey} {s s' : Socket} {a : Association} {due : List ExpirationKey}

theorem watched_bringUp (found : s.find? key = some a) (distinct : Distinct a.probes) (now : Time)
    (draws : Draws) :
    Watched due (s.bringUp now draws key) key := by
  refine watched_startHeartbeats (fun probes watch => ?_) now draws
  obtain ⟨b, after, -, rfl⟩ := Socket.watch_eq_some watch
  have here : (s.updateAssociation key fun assoc => { assoc with state := .established }).find? key
      = some { a with state := .established } := by
    rw [Socket.find?_updateAssociation, if_pos rfl, found]
    rfl
  cases here.symm.trans after
  exact distinct

theorem find?_withPaths (found : s.find? key = some a) (addresses : List SockAddr) :
    (s.addPeerAddresses key addresses).find? key = some (withPaths a addresses) := by
  obtain ⟨associations, peerAddresses, same, after, -⟩ := addPeerAddresses_eq s key addresses
  rw [same]
  refine (after key).trans ?_
  rw [if_pos rfl, found]
  rfl

/-- A TCB gets its addresses, and then its heartbeats. -/
theorem watched_finishCreation (found : s.find? key = some a) (distinct : Distinct a.probes)
    (addresses : List SockAddr) (told : AssocChangeState) (now : Time) (draws : Draws) :
    Watched due (((s.addPeerAddresses key addresses).notifyAssocChange key told).startHeartbeats
      now draws key) key := by
  refine watched_startHeartbeats (fun probes watch => ?_) now draws
  obtain ⟨b, after, -, rfl⟩ := Socket.watch_eq_some watch
  cases (find?_withPaths found addresses).symm.trans after
  exact (Soothes.withPaths a addresses).distinct distinct

theorem distinct_initNewAssociationFromCookie (cookie : StateCookie) :
    Distinct (initNewAssociationFromCookie cookie).probes :=
  (Deeds.begins_initNewAssociationFromCookie cookie).sound.distinct_probes

theorem watched_createFromCookie (now : Time) (draws : Draws) (header : CommonHeader)
    (src : SockAddr) (cookie : StateCookie) :
    Watched due (s.createFromCookie now draws header key src cookie) key := by
  have here : (s.setAssociation key (initNewAssociationFromCookie cookie)).find? key
      = some (initNewAssociationFromCookie cookie) := by simp
  have watched : Watched due _ key :=
    watched_finishCreation here (distinct_initNewAssociationFromCookie cookie)
      (cookieAddresses cookie) .commUp now draws
  unfold Socket.createFromCookie
  simp only
  split
  · exact watched
  · exact (Vigilant.of_same rfl rfl).watched watched

theorem watched_restartFromCookie (now : Time) (draws : Draws) (a : Association)
    (cookie : StateCookie) :
    Watched due (s.restartFromCookie now draws key a cookie) key := by
  have here : ((s.clearedFor key a).setAssociation key (initNewAssociationFromCookie cookie)).find?
      key
      = some (initNewAssociationFromCookie cookie) := by simp
  exact watched_finishCreation here (distinct_initNewAssociationFromCookie cookie)
    (cookieAddresses cookie) .restart now draws

/-- The end of every accepting branch for an existing TCB. -/
theorem Vigilant.finishCookieEcho (s : Socket) (key : AssociationKey) (header : CommonHeader)
    (destination : SockAddr) (cookie : StateCookie) :
    Vigilant key s (s.finishCookieEcho header key destination cookie) := by
  refine ⟨fun _ => id, fun _ _ timer _ type active => ?_⟩
  have other : ∀ type' : ExpirationTimerType, type' ≠ .heartbeat → timer ≠ timerOf key type' := by
    rintro type' apart rfl
    exact apart type
  have t1Init := other .t1Init nofun
  have t1Cookie := other .t1Cookie nofun
  show (((s.cancelExpiration (timerOf key .t1Init)).cancelExpiration
      (timerOf key .t1Cookie))).expirations.isActive timer = true
  simp [t1Init, t1Cookie, active]

theorem quells_collided (found : s.find? key = some a) (cookie : StateCookie) :
    Quells key s (((s.addPeerAddresses key (cookieAddresses cookie)).abandonPartialDelivery key
      a).updateAssociation key (Socket.collided cookie)) := by
  have same : ((s.addPeerAddresses key (cookieAddresses cookie)).abandonPartialDelivery key a).find?
      key
      = some (withPaths a (cookieAddresses cookie)) :=
    (find?_abandonPartialDelivery _ key key a).trans
      (find?_withPaths found (cookieAddresses cookie))
  refine .of_tcb found (b := Socket.collided cookie (withPaths a (cookieAddresses cookie))) ?_ ?_
    (Soothes.withPaths a (cookieAddresses cookie)) ?_
  · rw [Socket.find?_updateAssociation, if_pos rfl, same]
    rfl
  · show (withPaths a (cookieAddresses cookie)).state = a.state
    rw [withPaths_only]
  · obtain ⟨associations, peerAddresses, same, -⟩ :=
      addPeerAddresses_eq s key (cookieAddresses cookie)
    rw [same]
    unfold Socket.abandonPartialDelivery
    split <;> rfl

theorem watched_collideWithCookie (standing : Standing s) (found : s.find? key = some a)
    (watched : Watched due s key) (now : Time) (draws : Draws) (cookie : StateCookie) :
    Watched due (s.collideWithCookie now draws key a cookie) key := by
  have quells := quells_collided found cookie
  have here : (((s.addPeerAddresses key (cookieAddresses cookie)).abandonPartialDelivery
      key a).updateAssociation key (Socket.collided cookie)).find? key
        = some (Socket.collided cookie (withPaths a (cookieAddresses cookie))) := by
    rw [Socket.find?_updateAssociation, if_pos rfl, find?_abandonPartialDelivery,
      find?_withPaths found]
    rfl
  have distinct : Distinct (Socket.collided cookie (withPaths a (cookieAddresses cookie))).probes :=
    (Soothes.withPaths a (cookieAddresses cookie)).distinct
      (standing.sound key a found).distinct_probes
  unfold Socket.collideWithCookie
  simp only
  change Watched due
    (if _ then (((s.addPeerAddresses key (cookieAddresses cookie)).abandonPartialDelivery key
      a).updateAssociation key (Socket.collided cookie)).bringUp now draws key else if _ then
      (((s.addPeerAddresses key (cookieAddresses cookie)).abandonPartialDelivery
        key a).updateAssociation key (Socket.collided cookie)).armConfirmationProbes now key else _)
          key
  split
  · exact watched_bringUp here distinct now draws
  · split
    · exact watched_armConfirmationProbes (quells.outWatched watched.outWatched) now
    · next stopped =>
      rw [Bool.not_eq_true] at stopped
      refine .of_stopped (Socket.watch_of_stopped fun b after => ?_)
      cases here.symm.trans after
      show transmitsData (withPaths a (cookieAddresses cookie)).state = false
      rw [withPaths_only]
      exact stopped

theorem watched_acceptCookie (standing : Standing s) (found : s.find? key = some a)
    (watched : Watched due s key) (now : Time) (draws : Draws) (header : CommonHeader)
    (src : SockAddr) (cookie : StateCookie) :
    Watched due (s.acceptCookie now draws header key src a cookie).2 key := by
  have finished : ∀ {s' : Socket} {destination : SockAddr}, Watched due s' key →
      Watched due (s'.finishCookieEcho header key destination cookie) key :=
    fun watched => (Vigilant.finishCookieEcho _ key header _ cookie).watched watched
  unfold Socket.acceptCookie
  simp only
  split
  · refine finished ?_
    split
    · exact watched_bringUp found (standing.sound key a found).distinct_probes now draws
    · exact watched
  · split
    · split
      · exact (Vigilant.of_same rfl rfl).watched watched
      · exact finished (watched_restartFromCookie now draws a cookie)
    · split
      · exact finished (watched_collideWithCookie standing found watched now draws cookie)
      · exact watched

/-- A COOKIE ECHO acts for the association its cookie names. -/
theorem watched_handleCookieEcho (standing : Standing s) (now : Time) (draws : Draws)
    (header : CommonHeader) (cookieData : Bytes) (src : SockAddr)
    (watched : Watched due s (s.handleCookieEcho now draws header cookieData key src).2.1) :
    Watched due (s.handleCookieEcho now draws header cookieData key src).2.2
      (s.handleCookieEcho now draws header cookieData key src).2.1 := by
  unfold Socket.handleCookieEcho at watched ⊢
  cases verdict : s.cookieAuthorizer.verify now cookieData header src with
  | valid cookie =>
    rw [verdict] at watched
    simp only at watched ⊢
    cases found : s.find? (s.associationKeyFor (cookieKey cookie)) with
    | none => exact watched_createFromCookie now draws header src cookie
    | some a =>
      rw [found] at watched
      exact watched_acceptCookie standing found watched now draws header src cookie
  | stale cookie stalenessUs =>
    rw [verdict] at watched
    simp only at watched ⊢
    cases found : s.find? (s.associationKeyFor (cookieKey cookie)) with
    | none =>
      rw [found] at watched
      exact (Vigilant.of_same rfl rfl).watched watched
    | some a =>
      rw [found] at watched
      simp only at watched ⊢
      split at watched
      · next matches_ =>
        rw [if_pos matches_]
        exact watched_acceptCookie standing found watched now draws header src cookie
      · next matches_ =>
        rw [if_neg matches_]
        exact (Vigilant.of_same rfl rfl).watched watched
  | _ =>
    rw [verdict] at watched
    exact watched

theorem watched_handleCookieAck (standing : Standing s) (watched : Watched due s key) (now : Time)
    (draws : Draws) :
    Watched due (s.handleCookieAck now draws key) key := by
  unfold Socket.handleCookieAck
  cases found : s.find? key with
  | none => exact watched
  | some a =>
    simp only
    split
    · exact watched
    · have up : Watched due (s.bringUp now draws key) key :=
        watched_bringUp found (standing.sound key a found).distinct_probes now draws
      refine Vigilant.watched (s := s.bringUp now draws key) ⟨fun _ => id,
        fun _ _ timer _ type active => ?_⟩ up
      have apart : timer ≠ timerOf key .t1Cookie := by
        rintro rfl
        cases type
      show ((s.bringUp now draws key).cancelExpiration (timerOf key .t1Cookie)).expirations.isActive
          timer = true
      simp [apart, active]

/-! ## Answers and calls -/

/-- After a change by which no heartbeat goes out, one path is armed and then the one that
has a turn. -/
theorem Quells.rearmed (quells : Quells key s s') (standing : Standing s)
    (watched : Watched due s key) (found : s.find? key = some a) {i : Nat}
    (bound : i < a.peerAddressList.length) (now : Time) :
    Watched due ((s'.armHeartbeat key i).armConfirmationProbes now key) key := by
  have out := quells.outWatched watched.outWatched
  refine watched_armConfirmationProbes ?_ now
  cases watch : s'.watch key with
  | none =>
    intro probes after
    rw [watch_armHeartbeat, watch] at after
    cases after
  | some probes =>
    have rel := quells.watch
    rw [watch] at rel
    cases before : s.watch key with
    | none =>
      rw [before] at rel
      cases rel
    | some probes₀ =>
      rw [before] at rel
      cases rel with
      | some soothes =>
        obtain ⟨b, found', -, rfl⟩ := Socket.watch_eq_some before
        cases found.symm.trans found'
        have inside : i < probes.length :=
          Nat.lt_of_lt_of_le (by rw [Association.probes, List.length_map]; exact bound)
            soothes.length
        have here : probes[i]? = some probes[i] := List.getElem?_eq_getElem inside
        have distinct := soothes.distinct (standing.sound key a found).distinct_probes
        exact (Arms.armHeartbeat watch here).outWatched watch distinct here out

theorem Quells.notifyIf (s : Socket) (changed : Bool) (key : AssociationKey) (address : SockAddr)
    (state : PeerAddrState) :
    Quells key s (s.notifyIf changed key address state) :=
  .of_watch (watch_notifyIf s changed key key address state)
    (expirations_notifyIf s changed key address state)

theorem Quells.notify (s : Socket) (key : AssociationKey) (address : SockAddr)
    (state : PeerAddrState) :
    Quells key s (s.notifyPeerAddrChange key address state) := .of_watch rfl rfl

theorem Quells.modifyPath (s : Socket) (key : AssociationKey) (i : Nat) {f : PeerPath → PeerPath}
    (keeps : ∀ path, (f path).address.addr = path.address.addr)
    (fewer : ∀ path, (f path).hbOutstanding = true → path.hbOutstanding = true) :
    Quells key s (s.updateAssociation key fun assoc => assoc.modifyPath i f) :=
  .update (fun _ => rfl) fun a => .modifyPath a i keeps fewer

theorem quells_answered (s : Socket) (key : AssociationKey) (a : Association) (i : Nat) (now : Time)
    (draws : Draws) :
    Quells key s (let s₁ := ((s.updateAssociation key fun assoc => assoc.modifyPath i fun path =>
        updateRto { path with hbOutstanding := false }
          (microsBetween path.hbSentAt now)).clearPathErrorsAt key a
            i).updateAssociation key fun assoc =>
              if dataPath assoc = i then { assoc with errorCount := 0 } else assoc
      if (a.path i).confirmed then s₁
      else ((s₁.updateAssociation key fun assoc => assoc.modifyPath i fun path =>
          { path with confirmed := true }).notifyPeerAddrChange key (a.path i).address
            .addrConfirmed).updateAssociation
        key fun assoc => planNextProbe assoc draws i now) := by
  have answered : Quells key s (s.updateAssociation key fun assoc => assoc.modifyPath i fun path =>
      updateRto { path with hbOutstanding := false } (microsBetween path.hbSentAt now)) := by
    refine .modifyPath s key i (fun path => ?_) fun path out => ?_
    · exact congrArg Probe.ip (Deeds.probe_updateRto _ _)
    · rw [show (updateRto { path with hbOutstanding := false }
        (microsBetween path.hbSentAt now)).hbOutstanding
          = false from congrArg Probe.out (Deeds.probe_updateRto _ _)] at out
      cases out
  have cleared := answered.trans (.modifyPath _ key i (f := fun path => (clearPathErrors path).1)
    (fun _ => rfl) fun _ => id)
  have told := cleared.trans (.notifyIf _ (clearPathErrors (a.path i)).2 key (a.path i).address
    .addrAvailable)
  have counted := told.trans (.update (f := fun assoc =>
      if dataPath assoc = i then { assoc with errorCount := 0 } else assoc)
    (fun b => by split <;> rfl) fun b => by split <;> exact .refl _)
  simp only
  split
  · exact counted
  · have confirmed := counted.trans
      (.modifyPath _ key i (f := fun path => { path with confirmed := true }) (fun _ => rfl)
      fun _ => id)
    refine (confirmed.trans (.notify _ key (a.path i).address .addrConfirmed)).trans
      (.update (f := fun assoc => planNextProbe assoc draws i now) (fun _ => rfl) fun b => ?_)
    exact .modifyPath b i (fun _ => rfl) fun _ => id

theorem watched_creditHeartbeat (standing : Standing s) (watched : Watched due s key)
    (found : s.find? key = some a) {i : Nat} (bound : i < a.peerAddressList.length) (now : Time)
    (draws : Draws) :
    Watched due (s.creditHeartbeat now draws key a i) key := by
  have quells := quells_answered s key a i now draws
  unfold Socket.creditHeartbeat
  simp only at quells ⊢
  split
  · exact quells.rearmed standing watched found bound now
  · next stopped =>
    rw [Bool.not_eq_true] at stopped
    have none : s.watch key = none := Socket.watch_of_stopped fun b here => by
      cases found.symm.trans here
      exact stopped
    have rel := quells.watch
    rw [none] at rel
    refine .of_stopped ?_
    revert rel
    generalize Socket.watch _ key = after
    rintro (_ | _)
    rfl

theorem watched_handleHeartbeatAck (standing : Standing s) (watched : Watched due s key)
    (now : Time) (draws : Draws) (info : Bytes) :
    Watched due (s.handleHeartbeatAck now draws info key) key := by
  unfold Socket.handleHeartbeatAck
  split
  · exact watched
  · cases found : s.find? key with
    | none => exact watched
    | some a =>
      simp only
      cases path : findPath a (heartbeatInfoDestination info) with
      | none => exact watched
      | some i =>
        simp only
        split
        · exact watched
        · exact watched_creditHeartbeat standing watched found (findPath_spec path).1 now draws

theorem watched_handleChunk (standing : Standing s) (watched : Watched due s key) (now : Time)
    (draws : Draws) (header : CommonHeader) (src : SockAddr) (chunk : Chunk) :
    Watched due (s.handleChunk now draws header key src chunk) key := by
  by_cases answers : Deeds.answersProbe chunk.value = true
  · unfold Socket.handleChunk
    cases value : chunk.value with
    | cookieAck => exact watched_handleCookieAck standing watched now draws
    | heartbeatAck info => exact watched_handleHeartbeatAck standing watched now draws info
    | _ =>
      rw [value] at answers
      cases answers
  · have led : Led onlyData onlyData key s _ := Deeds.handleChunk s key now draws header src chunk
      (fun info value => absurd (by rw [value]; rfl) answers) fun is => absurd is answers
    exact (Deeds.vigilant (led.deeds fun _ => id) standing key).watched watched

theorem watched_sctpRequestHeartbeat (standing : Standing s) (watched : Watched due s key)
    (now : Time) (draws : Draws) (destination : SockAddr) :
    Watched due (s.sctpRequestHeartbeat now draws key destination).2 key := by
  unfold Socket.sctpRequestHeartbeat
  cases found : s.find? key with
  | none => exact watched
  | some a =>
    simp only
    cases path : findPath a destination with
    | none => exact watched
    | some i =>
      simp only
      split
      · exact watched
      · next transmits =>
        rw [Bool.not_eq_true', Bool.not_eq_false] at transmits
        have here := probes_of_lt (findPath_spec path).1
        obtain ⟨watch, but⟩ := buildProbe_spec found transmits here now draws (watched.but i)
        have distinct : Distinct (a.probes.set i { (a.path i).probe with out := true }) :=
          (standing.sound key a found).distinct_probes.set here rfl
        exact (Vigilant.of_same rfl rfl).watched (watched_armHeartbeat watch distinct
          (List.getElem?_set_self (List.getElem?_eq_some_iff.mp here).1) but)

theorem arms_replanHeartbeat {probes : List Probe} (watch : s.watch key = some probes) {i : Nat}
    {m : Probe} (here : probes[i]? = some m) (now : Time) (draws : Draws) :
    Arms key probes i m s (s.replanHeartbeat now draws key i) := by
  obtain ⟨a, found, -, -⟩ := Socket.watch_eq_some watch
  unfold Socket.replanHeartbeat
  rw [found]
  simp only
  split
  · exact .armHeartbeat watch here
  · exact (Arms.armHeartbeat ((watch_planProbe s now draws key i).trans watch) here).of_same rfl

theorem watched_sctpChangeHeartbeat (standing : Standing s) (watched : Watched due s key)
    (now : Time) (draws : Draws) (destination : SockAddr) (enabled : Bool) (interval : Option Int) :
    Watched due (s.sctpChangeHeartbeat now draws key destination enabled interval).2 key := by
  unfold Socket.sctpChangeHeartbeat
  cases found : s.find? key with
  | none => exact watched
  | some a =>
    simp only
    cases path : findPath a destination with
    | none => exact watched
    | some changed =>
      simp only
      have after : (s.updateAssociation key fun assoc =>
          { assoc.modifyPath changed fun path => { path with hbEnabled := enabled } with
            hbInterval := interval.getD assoc.hbInterval }).find? key
          = some { a.modifyPath changed fun path => { path with hbEnabled := enabled } with
            hbInterval := interval.getD a.hbInterval } := by
        rw [Socket.find?_updateAssociation, if_pos rfl, found]
        rfl
      have soothes : Soothes a.probes (a.modifyPath changed fun path =>
          { path with hbEnabled := enabled }).probes :=
        .modifyPath a changed (fun _ => rfl) fun _ => id
      have quells : Quells key s _ := .of_tcb found after rfl soothes rfl
      split
      · next stopped =>
        refine .of_stopped (Socket.watch_of_stopped fun b here => ?_)
        cases after.symm.trans here
        exact (Bool.not_eq_true' _).mp stopped
      · next transmits =>
        rw [Bool.not_eq_true', Bool.not_eq_false] at transmits
        have watch := Socket.watch_of_some after transmits
        have distinct := soothes.distinct (standing.sound key a found).distinct_probes
        obtain ⟨watch', ticks⟩ := ticks_foldl due distinct
          (fun s i m watch here => arms_replanHeartbeat watch here now draws)
          ((List.range a.peerAddressList.length).filter fun i => i == changed || interval.isSome)
          (fun i member => by
            have inside := List.mem_range.mp (List.mem_of_mem_filter member)
            rw [Association.probes, List.length_map]
            simpa [Association.modifyPath] using inside) watch
        refine watched_armConfirmationProbes (fun probes here m member out => ?_) now
        rw [watch'] at here
        cases here
        obtain ⟨j, there⟩ := List.mem_iff_getElem?.mp member
        exact ticks j m ⟨there, Or.inl out⟩
          (Or.inr (quells.outWatched watched.outWatched _ watch m member out))

end Handlers

/-! ## The handlers of an event -/

/-- Every association is watched. -/
def AllWatched (due : List ExpirationKey) (s : Socket) : Prop := ∀ key, Watched due s key

section Events

variable {s s' : Socket} {due : List ExpirationKey}

theorem AllWatched.of_vigilant (watched : AllWatched due s) (vigilant : ∀ key, Vigilant key s s') :
    AllWatched due s' :=
  fun key => (vigilant key).watched (watched key)

/-- A handler for one association leaves the others watched. -/
theorem AllWatched.of_isolated {key : AssociationKey} (watched : AllWatched due s)
    (isolated : Isolated key s s') (here : Watched due s' key) : AllWatched due s' := by
  intro k
  by_cases same : k = key
  · rw [same]
    exact here
  · exact (isolated.vigilant same).watched (watched k)

/-- A timer whose handler is called is due no more; it was none that another path needs. -/
theorem Watched.of_cons {key : AssociationKey} {timer : ExpirationKey}
    (watched : Watched (timer :: due) s key) (apart : ∀ m : Probe, m.timer key ≠ timer) :
    Watched due s key :=
  fun probes watch i m needs => (watched probes watch i m needs).of_cons (apart m)

theorem watched_handleExpiration {s₀ : Socket} {f : ExpirationFallback} (standing : Standing s)
    (formed : Formed s₀ s) (retries : isT1 f.key.type = true → Retries s₀ f) (now : Time)
    (draws : Draws) (watched : AllWatched (f.key :: due) s) :
    AllWatched due (s.handleExpiration now draws f) := by
  by_cases type : f.key.type = .heartbeat
  · have deeds : Deeds (fun _ => True) f.key.location s _ :=
      .expires formed retries (fun _ => trivial) now draws
    intro k
    by_cases here : k = f.key.location
    · rw [here]
      unfold Socket.handleExpiration
      simp only [type]
      exact watched_handleHeartbeatExpiration standing f.key now draws (watched f.key.location)
    · refine Watched.of_cons (((Deeds.isolated deeds standing).vigilant here).watched (watched k))
        fun m same => here ?_
      rw [← same]
      rfl
  · have deeds : Deeds onlyData f.key.location s _ :=
      .expires formed retries (fun is => absurd is type) now draws
    refine fun k => Watched.of_cons ((Deeds.vigilant deeds standing k).watched (watched k))
      fun m same => type ?_
    rw [← same]
    rfl

/-- A turn acts on a chunk, or on a cookie, or changes nothing that is probed. -/
def Turn.Probes (turn : Turn) (now : Time) (src : SockAddr) : Prop :=
  Deeds onlyData turn.key turn.before turn.after
    ∨ (∃ draws header chunk, turn.after = turn.before.handleChunk now draws header turn.key src
      chunk)
    ∨ ∃ draws header cookieData key,
      (turn.before.handleCookieEcho now draws header cookieData key src).2 = (turn.key, turn.after)

section Turns

variable {now : Time} {draws : Nat → Draws} {packet : Packet} {key : AssociationKey}
    {src : SockAddr} {turn : Turn}

theorem probes_restTurns {carried : Bool}
    (member : turn ∈ s.restTurns now draws packet key src carried) :
    turn.Probes now src := by
  unfold Socket.restTurns Socket.loopTurns at member
  rcases List.mem_cons.mp member with rfl | member
  · exact Or.inl (.beforeChunks s key now packet src)
  rcases List.mem_append.mp member with loop | rest
  · obtain ⟨chunk, -, draws₁, -, rfl, -, after⟩ :=
      mem_chunkTurns (fun _ => True) (fun _ _ _ _ _ => trivial) trivial loop
    exact Or.inr (Or.inl ⟨draws₁, _, chunk, after⟩)
  · split at rest
    · cases rest
    · next s₁ _ =>
      simp only [List.mem_cons, List.not_mem_nil, or_false] at rest
      rcases rest with rfl | rfl
      · exact Or.inl (.handleDataPacket s₁ key now _ src carried ⟨fun _ _ _ _ => trivial,
          fun _ _ _ _ => trivial⟩)
      · refine Or.inl ?_
        simp only
        split
        · exact .refl
        · exact .reportUnrecognizedChunks _ key packet.header src _

theorem probes_turns (member : turn ∈ s.turns now draws packet src) : turn.Probes now src := by
  unfold Socket.turns at member
  simp only at member
  split at member
  · split at member
    · next flag cookieData rest chunks =>
      rcases List.mem_cons.mp member with rfl | later
      · exact Or.inr (Or.inr ⟨draws 0, packet.header, cookieData, s.packetKey packet src, rfl⟩)
      · split at later
        · exact probes_restTurns later
        · cases later
    · exact probes_restTurns member
  · next refused =>
    rw [List.mem_singleton] at member
    subst member
    exact Or.inl (Deeds.refused s refused)

theorem allWatched_turn (standing : Standing s) (member : turn ∈ s.turns now draws packet src)
    (watched : AllWatched due turn.before) : AllWatched due turn.after := by
  have sane := sane_turns standing member
  refine watched.of_isolated (Deeds.isolated sane.deeds sane.standing) ?_
  rcases probes_turns member with deeds | ⟨draws₁, header, chunk, after⟩ | ⟨draws₁, header,
    cookieData, key, outcome⟩
  · exact (Deeds.vigilant deeds sane.standing turn.key).watched (watched turn.key)
  · rw [after]
    exact watched_handleChunk sane.standing (watched turn.key) now draws₁ header src chunk
  · have here : Watched due _ (turn.before.handleCookieEcho now draws₁ header cookieData
      key src).2.1 :=
      watched_handleCookieEcho sane.standing now draws₁ header cookieData src
        (by rw [outcome]; exact watched turn.key)
    rw [outcome] at here
    exact here

end Turns

theorem allWatched_call {event : Event} (standing : Standing s) (watched : AllWatched due s)
    (called : System.call s event = some s') : AllWatched due s' := by
  cases event with
  | recv | expire | startSending | send => cases called
  | changeHeartbeat now draws key destination enabled interval =>
    cases called
    have deeds : Deeds (fun _ => True) key s _ :=
      Deeds.sctpChangeHeartbeat s trivial now draws key destination enabled interval
    exact watched.of_isolated (Deeds.isolated deeds standing)
      (watched_sctpChangeHeartbeat standing (watched key) now draws destination enabled interval)
  | requestHeartbeat now draws key destination =>
    cases called
    have deeds : Deeds (fun _ => True) key s _ :=
      Deeds.sctpRequestHeartbeat s trivial now draws key destination
    exact watched.of_isolated (Deeds.isolated deeds standing)
      (watched_sctpRequestHeartbeat standing (watched key) now draws destination)
  | _ =>
    have works : Works onlyData _ s s' := .call called nofun
    exact watched.of_vigilant (works.vigilant standing fun _ _ => Event.noConfusion)

/-! ## Along the handlers of an event -/

/-- The timers whose handlers are among those to come. -/
def dueTimers (later : List Passage) : List ExpirationKey :=
  later.filterMap fun p => p.timer.map ExpirationFallback.key

/-- After each handler every association is watched, but for the timers whose handlers are
still to come. -/
def Unbroken (passed : List Passage) : Prop :=
  ∀ earlier p later, passed = earlier ++ p :: later → AllWatched (dueTimers later) p.after

theorem Unbroken.nil : Unbroken [] := by
  intro earlier p later split
  cases earlier <;> cases split

theorem Unbroken.cons {p : Passage} {rest : List Passage}
    (first : AllWatched (dueTimers rest) p.after) (others : Unbroken rest) :
    Unbroken (p :: rest) := by
  intro earlier q later split
  cases earlier with
  | nil =>
    cases split
    exact first
  | cons _ earlier =>
    cases split
    exact others earlier q later rfl

/-- Where no handler is a timer's, each leaves everything watched. -/
theorem Unbroken.of_each {passed : List Passage} (linked : Passes s passed s')
    (untimed : ∀ p ∈ passed, p.timer = none) (each : ∀ p ∈ passed, AllWatched [] p.before →
      AllWatched [] p.after) (start : AllWatched [] s) : Unbroken passed := by
  induction linked with
  | nil => exact .nil
  | @cons p rest s' _ ih =>
    obtain ⟨head, tail⟩ := List.forall_mem_cons.mp each
    have still : dueTimers rest = [] := by
      refine List.filterMap_eq_nil_iff.mpr fun q member => ?_
      rw [untimed q (List.mem_cons_of_mem p member)]
      rfl
    have first := head start
    refine .cons (still ▸ first) ?_
    exact ih (fun q member => untimed q (List.mem_cons_of_mem p member)) tail first

/-- The last handler leaves nothing due. -/
theorem Unbroken.last {passed : List Passage} (unbroken : Unbroken passed)
    (linked : Passes s passed s') (start : AllWatched [] s) : AllWatched [] s' := by
  rcases List.eq_nil_or_concat passed with rfl | ⟨earlier, p, rfl⟩
  · cases linked
    exact start
  · rw [List.concat_eq_append] at linked unbroken
    obtain ⟨s₁, -, final⟩ := linked.split
    cases final with
    | cons _ ended =>
      rw [← ended.eq_of_nil]
      exact unbroken earlier p [] rfl

theorem dueTimers_timerPassages (now : Time) (draws : Nat → Draws)
    (expired : List (ExpirationFallback × Nat)) (s : Socket) :
    dueTimers (timerPassages now draws expired s) = expired.map fun pair => pair.1.key := by
  induction expired generalizing s with
  | nil => rfl
  | cons pair rest ih => exact congrArg (pair.1.key :: ·) (ih _)

/-- The timers that are due: each handler sees to its own, and the others are due still. -/
theorem unbroken_timerPassages {s₀ : Socket} (now : Time) (draws : Nat → Draws)
    (expired : List (ExpirationFallback × Nat)) (standing : Standing s) (formed : Formed s₀ s)
    (retries : ∀ pair ∈ expired, isT1 pair.1.key.type = true → Retries s₀ pair.1)
    (watched : AllWatched (expired.map fun pair => pair.1.key) s) :
    Unbroken (timerPassages now draws expired s) := by
  induction expired generalizing s with
  | nil => exact .nil
  | cons pair rest ih =>
    obtain ⟨head, tail⟩ := List.forall_mem_cons.mp retries
    have handled : Deeds (fun _ => True) pair.1.key.location s _ :=
      .expires formed head (fun _ => trivial) now (draws pair.2)
    have first := watched_handleExpiration standing formed head now (draws pair.2) watched
    refine .cons ?_ (ih (Deeds.standing handled standing) (formed.trans handled.formed) tail first)
    rw [dueTimers_timerPassages]
    exact first

theorem unbroken_expire {σ : System} (standing : Standing σ.socket)
    (watched : AllWatched [] σ.socket) (now : Time) (draws : Nat → Draws) :
    Unbroken (σ.passages (.expire now draws)) := by
  obtain ⟨queued, left, off⟩ := ExpirationQueue.drainExpiredFrom_spec now
    σ.socket.expirations.queue.length σ.socket.expirations
  obtain ⟨live, next, running⟩ :=
    ExpirationQueue.drainExpiredFrom_live now σ.socket.expirations.queue.length σ.socket.expirations
  have drained : Work onlyData (.expire now draws) σ.socket
      { σ.socket with expirations := (σ.socket.expirations.drainExpired now).2 } :=
        .expired _ rfl left next running
  have keys : ((σ.socket.expirations.drainExpired now).1.zipIdx.map fun pair => pair.1.key)
      = (σ.socket.expirations.drainExpired now).1.map ExpirationFallback.key := by
    rw [← List.zipIdx_map_fst 0 (σ.socket.expirations.drainExpired now).1, List.map_map,
      List.zipIdx_map_fst]
    rfl
  have due : AllWatched ((σ.socket.expirations.drainExpired now).1.zipIdx.map fun pair =>
      pair.1.key) { σ.socket with expirations := (σ.socket.expirations.drainExpired now).2 } := by
    intro key probes watch i m needs
    rcases watched key probes watch i m needs with active | none
    · rcases off (m.timer key) active with runs | ⟨f, member, is⟩
      · exact Or.inl runs
      · refine Or.inr ?_
        rw [keys, ← is]
        exact List.mem_map_of_mem member
    · cases none
  refine .cons ?_ (unbroken_timerPassages now draws _ (drained.standing standing) (.refl _)
    (fun pair member is => ?_) due)
  · rw [dueTimers_timerPassages]
    exact due
  · have inside := List.fst_mem_of_mem_zipIdx member
    exact (standing.retries pair.1 (queued _ inside) (live _ inside) is).of_find? fun _ => rfl

theorem System.unbroken {σ σ' : System} {event : Event} (standing : Standing σ.socket)
    (watched : AllWatched [] σ.socket) (stepped : σ.step event = some σ') :
    Unbroken (σ.passages event) := by
  have linked := passes_passages stepped
  rcases step_cases stepped with ⟨now, draws, packet, src, rfl, -, -⟩ | ⟨now, draws, rfl, -,
    -⟩ | ⟨rfl, -, rfl⟩
    | ⟨now, accepted, left, rfl, -, -⟩ | ⟨s, called, rfl⟩
  · refine .of_each linked (fun p member => ?_) (fun p member before => ?_) watched
    all_goals obtain ⟨turn, inside, rfl⟩ := List.mem_map.mp member
    · rfl
    · exact allWatched_turn standing inside before
  · exact unbroken_expire standing watched now draws
  · have all : Work onlyData .startSending σ.socket σ.socket.startTransmissionOpportunity :=
      .all _ (fun _ _ => rfl) fun _ _ => .of_eq rfl rfl
    refine .of_each linked (fun p member => ?_) (fun p member before => ?_) watched
    all_goals
      simp only [passages, stepped, List.mem_singleton] at member
      subst member
    · rfl
    · exact before.of_vigilant (all.vigilant standing fun _ _ => Event.noConfusion)
  · obtain ⟨next, out⟩ : Works onlyData (.send now accepted) σ.socket _
      ∧ _ := Works.nextPacket standing now
    have standing' := next.standing standing
    refine .of_each linked (fun p member => ?_) (fun p member before => ?_) watched
    all_goals
      unfold passages at member
      simp only at member
      rcases List.mem_cons.mp member with rfl | later
    · rfl
    · cases pending : (σ.socket.nextPacket now).pending with
      | none =>
        rw [pending] at later
        cases later
      | some picked =>
        simp only [pending, List.mem_singleton] at later
        rw [later]
    · exact before.of_vigilant (next.vigilant standing fun _ _ => Event.noConfusion)
    · cases pending : (σ.socket.nextPacket now).pending with
      | none =>
        rw [pending] at later
        cases later
      | some picked =>
        simp only [pending, List.mem_singleton] at later
        subst later
        refine before.of_vigilant fun key => ?_
        split
        · have sent : Works onlyData (.send now accepted) _ _ :=
            Works.packetSent (out picked pending) now
          exact sent.vigilant standing' (fun _ _ => Event.noConfusion) key
        · have refused : Works onlyData (.send now accepted) _ _ :=
            Works.packetRefused (out picked pending) now
          exact refused.vigilant standing' (fun _ _ => Event.noConfusion) key
  · have single : σ.passages event = [⟨none, σ.socket, s⟩] := by
      cases event with
      | recv | expire | startSending | send => cases called
      | _ => simp only [passages, stepped]
    refine .of_each linked (fun p member => ?_) (fun p member before => ?_) watched
    all_goals
      rw [single, List.mem_singleton] at member
      subst member
    · rfl
    · exact allWatched_call standing before called

theorem allWatched_fresh (address : SockAddr) : AllWatched [] (.fresh address) := by
  intro key probes watch
  cases watch

theorem System.Reached.allWatched {ok : System → Event → Prop} {σ : System}
    (reached : System.Reached ok σ) :
    AllWatched [] σ.socket := by
  have both : Standing σ.socket ∧ AllWatched [] σ.socket := by
    refine Run.Reach.invariant (fun σ => Standing σ.socket ∧ AllWatched [] σ.socket) reached ?_ ?_
    · rintro _ ⟨address, rfl⟩
      exact ⟨standing_fresh address, allWatched_fresh address⟩
    · rintro σ event σ' ⟨standing, watched⟩ - stepped
      exact ⟨(System.step_works standing stepped).standing standing,
        (System.unbroken standing watched stepped).last (passes_passages stepped) watched⟩
  exact both.2

end Events

/-! ## What is watched, path by path -/

/-- The timer of the first path that waits to be confirmed ticks, and so does that of
every path with a heartbeat out. -/
def Socket.Confirming (due : List ExpirationKey) (s : Socket) : Prop :=
  ∀ key a, s.find? key = some a → transmitsData a.state = true →
    (∀ path, a.peerAddressList.find? (fun path => !path.confirmed && path.active && path.hbEnabled)
      = some path → Ticks due s (pathTimerOf key .heartbeat path.address))
    ∧ ∀ path ∈ a.peerAddressList, path.hbOutstanding = true →
      Ticks due s (pathTimerOf key .heartbeat path.address)

theorem AllWatched.confirming {due : List ExpirationKey} {s : Socket} (watched : AllWatched due s) :
    s.Confirming due := by
  intro key a found transmits
  have ticks := watched key a.probes (Socket.watch_of_some found transmits)
  refine ⟨fun path first => ?_, fun path member out => ?_⟩
  · obtain ⟨waits, i, bound, rfl, earlier⟩ := List.find?_eq_some_iff_getElem.mp first
    have here : a.probes[i]? = some a.peerAddressList[i].probe := by
      rw [Association.probes, List.getElem?_map, List.getElem?_eq_getElem bound]
      rfl
    refine ticks i _ ⟨here, Or.inr (hasTurn_first here waits fun m member => ?_)⟩
    rw [Association.probes, ← List.map_take] at member
    obtain ⟨other, inside, rfl⟩ := List.mem_map.mp member
    obtain ⟨j, before, rfl⟩ := List.mem_take_iff_getElem.mp inside
    exact (Bool.not_eq_true' _).mp (earlier j (Nat.lt_of_lt_of_le before (Nat.min_le_left _ _)))
  · have here := List.mem_map_of_mem (f := PeerPath.probe) member
    obtain ⟨i, there⟩ := List.mem_iff_getElem?.mp here
    exact ticks i _ ⟨there, Or.inl out⟩

/-- Confirmation never gets stuck: in every state reached, the heartbeat timer runs of the
first path of an association that waits to be confirmed, and of every path with a heartbeat
out. Between the handlers of one event the same holds, but for the timers that went off with
the event and whose handlers are yet to be called. -/
theorem confirmation_goes_on {σ : System} (reached : System.Reached (fun _ _ => True) σ) :
    (∀ key a, σ.socket.find? key = some a → transmitsData a.state = true →
      (∀ path, a.peerAddressList.find? (fun path => !path.confirmed && path.active
        && path.hbEnabled) = some path →
          σ.socket.expirations.isActive (pathTimerOf key .heartbeat path.address) = true)
      ∧ ∀ path ∈ a.peerAddressList, path.hbOutstanding = true →
        σ.socket.expirations.isActive (pathTimerOf key .heartbeat path.address) = true)
    ∧ ∀ event σ', σ.step event = some σ' → ∀ earlier p later, σ.passages event = earlier
      ++ p :: later → p.after.Confirming (dueTimers later) := by
  constructor
  · intro key a found transmits
    obtain ⟨first, out⟩ := reached.allWatched.confirming key a found transmits
    have runs : ∀ {timer}, Ticks [] σ.socket timer → σ.socket.expirations.isActive timer = true :=
      fun ticks => ticks.resolve_right List.not_mem_nil
    exact ⟨fun path waits => runs (first path waits), fun path member isOut =>
      runs (out path member isOut)⟩
  · intro event σ' stepped earlier p later split
    exact (System.unbroken reached.standing reached.allWatched stepped earlier p
      later split).confirming

namespace Opened

/-- The peer has a second address, and the association comes up. -/
def joined : List Event :=
  [.associate draws peer 5000#16] ++ batch 1 ++ [arrives [twoInitAck]] ++ batch 1
    ++ [arrives [⟨0#8, .cookieAck⟩]]

end Opened

/-- The second address waits to be confirmed, and its timer runs. -/
theorem second_address_watched :
    ∃ σ a path, System.Reached (fun _ _ => True) σ ∧ σ.socket.find? Opened.key = some a
    ∧ transmitsData a.state = true
    ∧ a.peerAddressList.find? (fun path => !path.confirmed && path.active && path.hbEnabled)
      = some path
    ∧ path.address.addr = Opened.other.addr
    ∧ σ.socket.expirations.isActive (pathTimerOf Opened.key .heartbeat path.address) = true := by
  obtain ⟨σ, reached, ends⟩ := Opened.exists_run Opened.joined
    (p := fun σ : System => (σ.socket.find? Opened.key).any fun a : Association =>
      transmitsData a.state && (a.peerAddressList.find? fun path => !path.confirmed && path.active
        && path.hbEnabled).any fun path : PeerPath =>
        decide (path.address.addr = Opened.other.addr)) (by decide +kernel)
  obtain ⟨a, found, terms⟩ := (Option.any_eq_true _ _).mp ends
  obtain ⟨transmits, waits⟩ := Bool.and_eq_true_iff.mp terms
  obtain ⟨path, first, address⟩ := (Option.any_eq_true _ _).mp waits
  refine ⟨σ, a, path, reached, found, transmits, first, of_decide_eq_true address, ?_⟩
  exact ((confirmation_goes_on reached).1 Opened.key a found transmits).1 path first

end SctpStack
