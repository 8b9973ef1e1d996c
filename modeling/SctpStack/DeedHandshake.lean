import SctpStack.DeedHandlers

/-!
# The handshake, deed by deed

A cookie makes an association, restarts it or settles a collision, for the key it names;
the rest of the handshake is done for the key of the packet.
-/

namespace SctpStack

/-! ## Where a reply goes that was decided earlier -/

/-- The association was there before, with the same primary path and no fewer addresses
confirmed. -/
def Linked (key : AssociationKey) (s s' : Socket) : Prop :=
  ∀ b, s'.find? key = some b → ∃ a, s.find? key = some a ∧ Listed a b
    ∧ b.primaryPath = a.primaryPath

namespace Linked

variable {key : AssociationKey} {s s' s'' : Socket}

theorem trans (first : Linked key s s') (second : Linked key s' s'') : Linked key s s'' := by
  intro c found
  obtain ⟨b, found', listed, primaryPath⟩ := second c found
  obtain ⟨a, found'', listed', primaryPath'⟩ := first b found'
  exact ⟨a, found'', listed'.trans listed, primaryPath.trans primaryPath'⟩

theorem of_find? (same : s'.find? key = s.find? key) : Linked key s s' := by
  intro b found
  exact ⟨b, same ▸ found, .refl b, rfl⟩

theorem refl (key : AssociationKey) (s : Socket) : Linked key s s := of_find? rfl

theorem update {f : Association → Association}
    (kept : ∀ a, Listed a (f a) ∧ (f a).primaryPath = a.primaryPath) :
    Linked key s (s.updateAssociation key f) := by
  intro b found
  rw [Socket.find?_updateAssociation, if_pos rfl, Option.map_eq_some_iff] at found
  obtain ⟨a, here, rfl⟩ := found
  exact ⟨a, here, kept a⟩

/-- A change that leaves the outline of every TCB alone. -/
theorem adjust {f : Association → Association} (outline : ∀ a, (f a).outline = a.outline) :
    Linked key s (s.updateAssociation key f) :=
  update fun a => ⟨.of_marks (congrArg Outline.marks (outline a)),
    congrArg Outline.primaryPath (outline a)⟩

theorem foldl {α : Type} {f : Socket → α → Socket} (each : ∀ s x, Linked key s (f s x)) (l : List α)
    (s : Socket) :
    Linked key s (l.foldl f s) := by
  induction l generalizing s with
  | nil => exact refl key s
  | cons x rest ih => exact (each s x).trans (ih (f s x))

theorem armHeartbeat (key : AssociationKey) (s : Socket) (i : Nat) :
    Linked key s (s.armHeartbeat key i) := by
  apply of_find?
  unfold Socket.armHeartbeat
  split
  · rfl
  · simp only
    (repeat' split) <;> rfl

theorem armConfirmationProbes (key : AssociationKey) (s : Socket) (now : Time) :
    Linked key s (s.armConfirmationProbes now key) := by
  refine foldl (fun s i => ?_) _ s
  unfold Socket.armConfirmationProbe
  split
  · exact refl key s
  · simp only
    split
    · refine (adjust fun a => outline_modifyPath a i ?_).trans (armHeartbeat key _ i)
      exact fun _ => ⟨rfl, rfl⟩
    · exact refl key s

theorem startHeartbeats (key : AssociationKey) (s : Socket) (now : Time) (draws : Draws) :
    Linked key s (s.startHeartbeats now draws key) := by
  refine foldl (fun s i => Linked.trans (adjust fun a => ?_) (armHeartbeat key _ i)) _ s
  simp only
  split
  · refine (outline_modifyPath _ i ?_).trans (Deeds.outline_planNextProbe a draws i now)
    exact fun _ => ⟨rfl, rfl⟩
  · exact Deeds.outline_planNextProbe a draws i now

theorem bringUp (key : AssociationKey) (s : Socket) (now : Time) (draws : Draws) :
    Linked key s (s.bringUp now draws key) :=
  (update (f := fun assoc => { assoc with state := .established }) fun a => ⟨.refl a, rfl⟩).trans
    (startHeartbeats key _ now draws)

theorem withPaths (a : Association) (addresses : List SockAddr) :
    Listed a (SctpStack.withPaths a addresses) ∧ (SctpStack.withPaths a addresses).primaryPath
      = a.primaryPath := by
  unfold SctpStack.withPaths
  induction addresses generalizing a with
  | nil => exact ⟨.refl a, rfl⟩
  | cons address rest ih =>
    obtain ⟨listed, primaryPath⟩ := ih (withPath a address)
    refine ⟨(Deeds.succeeds_withPath a address).listed.trans listed, primaryPath.trans ?_⟩
    rw [withPath_only]

theorem addPeerAddresses (key : AssociationKey) (s : Socket) (addresses : List SockAddr) :
    Linked key s (s.addPeerAddresses key addresses) := by
  intro b found
  obtain ⟨associations, peerAddresses, same, added, -⟩ := addPeerAddresses_eq s key addresses
  rw [same] at found
  have here := added key
  rw [if_pos rfl] at here
  obtain ⟨a, before, rfl⟩ := Option.map_eq_some_iff.mp (here.symm.trans found)
  exact ⟨a, before, withPaths a addresses⟩

end Linked

/-- A destination chosen before is confirmed still. -/
theorem Sound.replyDestination_of_listed {a b : Association} (sound : Sound b) (listed : Listed a b)
    (primaryPath : b.primaryPath = a.primaryPath) (src : SockAddr) :
    Confirmed b (SctpStack.replyDestination a src) := by
  have rooted : Sound { a with outstandingData := ∅ } := by
    refine ⟨?_, ?_, fun tsn o none => ?_⟩
    · obtain ⟨more, marks, -⟩ := listed
      have distinct := sound.distinct
      rw [marks, List.map_append] at distinct
      exact (List.nodup_append.mp distinct).1
    · have confirmed := listed.confirmed_iff.mp sound.primary
      rw [primaryPath] at confirmed
      exact confirmed
    · rw [KeyMap.get?_empty] at none
      cases none
  exact listed.confirmed (rooted.replyDestination src)

namespace Deeds

variable {heard heard' : Evidence → Prop} (s : Socket) {s' : Socket} (key : AssociationKey)

/-! ## INIT -/

theorem sendInitAck {s : Socket} {key : AssociationKey} {answer : InitAnswer}
    (answers : Answers s key answer) (now : Time) (draws : Draws) (header : CommonHeader)
    (init : InitChunkValue) (src : SockAddr) :
    Deeds heard key s (s.sendInitAck now draws header init key src answer) := by
  unfold Socket.sendInitAck
  simp only
  have minted : ∀ increment, Deed heard key s _ := fun increment =>
    .mint now draws.secret header init src answer increment
      (((transportAddresses src (scanInit init).recognized).drop 1).map SockAddr.addr) answers
  split
  · exact .single (minted _)
  · next packet built =>
    unfold buildInitAck at built
    obtain ⟨parameters, -, rfl⟩ := Option.map_eq_some_iff.mp built
    exact (Relation.ReflTransGen.single (minted _)).trans
      (replyPlain _ key (List.cons_ne_nil _ _) rfl rfl)

theorem state_withTieTags (draws : Draws) (a : Association) :
    (withTieTags draws a).state = a.state := by
  unfold withTieTags
  split <;> rfl

theorem answerInit (now : Time) (draws : Draws) (header : CommonHeader) (init : InitChunkValue)
    (src : SockAddr) :
    Deeds heard key s (s.answerInit now draws header init key src) := by
  unfold Socket.answerInit
  simp only
  cases found : s.find? key with
  | none => exact sendInitAck (Or.inl rfl) now draws header init src
  | some a =>
    simp only
    split
    · exact replyFound found (List.cons_ne_nil _ _) ⟨rfl, rfl⟩ fun sound =>
        sound.replyDestination src
    · split
      · exact sendInitAck (Or.inl rfl) now draws header init src
      · next open_ waits =>
        split
        · exact sendAbort s key header src _ false _
        · have past : forming a.state = false ∨ a.state = .cookieEchoed := by
            cases state : a.state with
            | cookieWait => exact absurd state waits
            | cookieEchoed => exact Or.inr rfl
            | _ => exact Or.inl rfl
          have tied : Deeds heard key s (s.setAssociation key (withTieTags draws a)) :=
            .single (.tie draws found past)
          have found' : (s.setAssociation key (withTieTags draws a)).find? key
              = some (withTieTags draws a) := by simp
          refine tied.trans (sendInitAck (Or.inr ⟨withTieTags draws a, found', ?_, fun forms => ?_⟩)
            now draws header init src)
          · split <;> rfl
          · rw [state_withTieTags] at forms ⊢
            rcases past with up | echoed
            · rw [up] at forms
              cases forms
            · rw [if_pos echoed]

theorem handleInit (now : Time) (draws : Draws) (header : CommonHeader) (init : InitChunkValue)
    (src : SockAddr) :
    Deeds heard key s (s.handleInit now draws header init key src) := by
  unfold Socket.handleInit
  split
  · exact sendAbort s key header src _ true _
  · split
    · exact sendAbort s key header src _ false _
    · split
      · exact sendAbort s key header src _ false _
      · exact answerInit s key now draws header init src

/-! ## INIT ACK -/

theorem refuseInitAck {s : Socket} {key : AssociationKey} {a : Association}
    (found : s.find? key = some a) (waits : a.state = .cookieWait) (header : CommonHeader)
    (src : SockAddr) (tag : Tag) (reflected : Bool) (cause : ErrorCause) :
    Deeds heard key s (s.refuseInitAck header key src tag reflected cause) := by
  have ends : Ends a.state .cantStrAssoc := by
    rw [waits]
    rfl
  exact (ended found ends).trans (sendAbort _ key header src tag reflected [cause])

/-- With nothing received yet, what is held is tidy. -/
theorem tidy_empty {a : Association} (buffer : a.tsnOooBuffer = ∅) (closed : a.reassembly = .closed)
    (held : a.heldDeliveries = []) : Tidy a := by
  refine ⟨fun _ => ⟨buffer, closed, held⟩, ?_, ?_, ?_, ?_, ?_⟩
  · rw [held]
    exact nofun
  · rw [closed]
    exact nofun
  · rw [buffer]
    exact nofun
  · rw [buffer]
    rfl
  · rw [buffer]
    exact nofun

theorem succeeds_initAcked {a : Association} (waits : a.state = .cookieWait)
    (initAck : InitChunkValue) :
    Succeeds a (initAcked initAck a) := by
  refine ⟨⟨rfl, rfl, rfl, .step (exchange_of_waiting waits) (.answered rfl) rfl, .refl a,
    fun sound => ⟨sound.distinct, sound.primary, sound.outstanding⟩,
    fun tidy => ?_⟩, rfl, fun up => ?_⟩
  · obtain ⟨buffer, closed, held⟩ := tidy.unborn (by rw [waits]; rfl)
    exact tidy_empty buffer closed held
  · rw [waits] at up
    cases up

theorem buildCookieEcho_nonempty (srcPort desPort : Port) (peerTag : Tag) (cookie : Bytes)
    (errors : List ErrorCause) :
    (buildCookieEcho srcPort desPort peerTag cookie errors).chunks ≠ [] := List.cons_ne_nil _ _

theorem silent_buildCookieEcho (srcPort desPort : Port) (peerTag : Tag) (cookie : Bytes)
    (errors : List ErrorCause) :
    (buildCookieEcho srcPort desPort peerTag cookie errors).Silent := by
  unfold buildCookieEcho
  split <;> exact ⟨rfl, rfl⟩

theorem acceptInitAck {s : Socket} {key : AssociationKey} {a : Association}
    (found : s.find? key = some a) (waits : a.state = .cookieWait) (header : CommonHeader)
    (initAck : InitChunkValue) (src : SockAddr) (cookie : Bytes) :
    Deeds heard key s (s.acceptInitAck header initAck key src cookie) := by
  have present : (s.find? key).isSome = true := by rw [found]; rfl
  have stopped : ∀ b, s.find? key = some b → transmitsData b.state = false := by
    intro b here
    rw [found] at here
    cases here
    rw [waits]
    rfl
  have added : Deeds heard key s _ :=
    addPeerAddresses s key (transportAddresses src (scanInitAck initAck).recognized)
      present (Or.inr stopped)
  unfold Socket.acceptInitAck
  simp only
  cases here : (s.addPeerAddresses key
    (transportAddresses src (scanInitAck initAck).recognized)).find? key with
  | none => exact added
  | some b =>
    simp only
    obtain ⟨a', before, only⟩ := find?_addPeerAddresses _ here
    rw [found] at before
    cases before
    have waits' : b.state = .cookieWait := by
      rw [only]
      exact waits
    have acked := added.trans (set here (succeeds_initAcked waits' initAck)
      (Spares.of_stopped rfl).minds)
    have stopped := (acked.trans (cancel _ key (rfl : (timerOf key .t1Init).location = key)
      nofun)).trans (dropOfType _ key .init none)
    have found' :
        ((((s.addPeerAddresses key (transportAddresses src
          (scanInitAck initAck).recognized)).setAssociation
            key (initAcked initAck b)).cancelExpiration
              (timerOf key .t1Init)).removeRetransmissionsOfType key .init none).find? key
        = some (initAcked initAck b) := by simp
    have confirmed : Sound (initAcked initAck b) →
        Confirmed (initAcked initAck b) (replyDestination b src) := by
      intro sound
      have same : replyDestination (initAcked initAck b) src = replyDestination b src :=
        replyDestination_congr rfl rfl src
      rw [← same]
      exact sound.replyDestination src
    exact stopped.trans (replyFound found' (buildCookieEcho_nonempty _ _ _ _ _)
      (silent_buildCookieEcho _ _ _ _ _) confirmed)

theorem handleInitAck (header : CommonHeader) (initAck : InitChunkValue) (src : SockAddr) :
    Deeds heard key s (s.handleInitAck header initAck key src) := by
  unfold Socket.handleInitAck
  cases found : s.find? key with
  | none => exact .refl
  | some a =>
    simp only
    split
    · exact .refl
    · next waits =>
      rw [not_not] at waits
      split
      · exact refuseInitAck found waits header src _ _ _
      · split
        · exact refuseInitAck found waits header src _ _ _
        · split
          · exact refuseInitAck found waits header src _ _ _
          · split
            · exact refuseInitAck found waits header src _ _ _
            · exact acceptInitAck found waits header initAck src _

/-! ## COOKIE ECHO -/

theorem begins_initNewAssociationFromCookie (cookie : StateCookie) :
    Begins (initNewAssociationFromCookie cookie) := by
  have marks : (initNewAssociationFromCookie cookie).marks = [((cookieSource cookie).addr, true)] :=
    rfl
  refine ⟨rfl, rfl, marks, ⟨?_, ?_, fun tsn o none => ?_⟩, tidy_empty rfl rfl rfl⟩
  · rw [marks]
    exact List.nodup_singleton _
  · show (initNewAssociationFromCookie cookie).marks.lookup (cookieSource cookie).addr = some true
    rw [marks]
    simp
  · exact absurd none (by rw [show
      (initNewAssociationFromCookie cookie).outstandingData = ∅ from rfl]; exact nofun)

/-- The ULP is told before the addresses are added: the order does not show. -/
theorem addPeerAddresses_notify (s : Socket) (key : AssociationKey) (addresses : List SockAddr)
    (payload : NotificationPayload) :
    (s.notify key payload).addPeerAddresses key addresses
      = (s.addPeerAddresses key addresses).notify key payload := by
  unfold Socket.addPeerAddresses
  induction addresses generalizing s with
  | nil => rfl
  | cons address rest ih =>
    rw [List.foldl_cons, List.foldl_cons, ← ih]
    congr 1
    unfold Socket.addPeerAddress
    simp only
    split <;> rfl

/-- A TCB made from a cookie gets its addresses and its heartbeats. -/
theorem finishCreation {s : Socket} {key : AssociationKey} (probed : heard .probed)
    (present : (s.find? key).isSome = true) (told : AssocChangeState) (addresses : List SockAddr)
    (now : Time) (draws : Draws) :
    Deeds heard key (s.notifyAssocChange key told)
      (((s.addPeerAddresses key addresses).notifyAssocChange key told).startHeartbeats now draws
        key) := by
  have added : Deeds heard key (s.notifyAssocChange key told) _ :=
    addPeerAddresses (s.notifyAssocChange key told) key addresses present (Or.inl probed)
  rw [show (s.notifyAssocChange key told).addPeerAddresses key addresses
    = (s.addPeerAddresses key addresses).notifyAssocChange key told from addPeerAddresses_notify
      s key addresses _] at added
  exact added.trans (startHeartbeats _ key probed now draws)

theorem createFromCookie {s : Socket} {key : AssociationKey} {cookie : StateCookie}
    (absent : s.find? key = none) (shown : Shown heard s cookie) (probed : heard' .probed)
    (now : Time) (draws : Draws) (header : CommonHeader) (src : SockAddr) :
    Led heard heard' key s (s.createFromCookie now draws header key src cookie) := by
  have created : Led heard heard' key s
      ((s.setAssociation key (initNewAssociationFromCookie cookie)).notifyAssocChange key
        .commUp) :=
    .of_deed (.created absent shown rfl (begins_initNewAssociationFromCookie cookie) rfl)
  have up := created.trans (finishCreation probed (by simp) .commUp (cookieAddresses cookie)
    now draws)
  unfold Socket.createFromCookie
  simp only
  split
  · exact up
  · next a found => exact up.trans (replyFound found (List.cons_ne_nil _ _) ⟨rfl, rfl⟩ fun sound =>
      sound.replyDestination src)

theorem restartFromCookie {s : Socket} {key : AssociationKey} {a : Association}
    {cookie : StateCookie} (found : s.find? key = some a) (restarts : Restarts heard s a cookie)
    (probed : heard' .probed) (now : Time) (draws : Draws) :
    Led heard heard' key s (s.restartFromCookie now draws key a cookie) := by
  have restarted : Led heard heard' key s (((s.clearedFor key a).setAssociation key
      (initNewAssociationFromCookie cookie)).notifyAssocChange key .restart) :=
        .of_deed (.restarted found restarts)
  exact restarted.trans (finishCreation probed (by simp) .restart (cookieAddresses cookie)
    now draws)

theorem bringUp {s : Socket} {key : AssociationKey} {a : Association} (found : s.find? key = some a)
    (forms : forming a.state = true) (probed : heard .probed) (now : Time) (draws : Draws) :
    Deeds heard key s (s.bringUp now draws key) := by
  have up : Deeds heard key s _ := .single (.up found forms probed)
  rw [← updateAssociation_of_some found fun a => { a with state := .established }] at up
  exact up.trans (startHeartbeats _ key probed now draws)

/-- What becomes of a TCB in a collision: what was received is forgotten. -/
theorem follows_collided (a : Association) (cookie : StateCookie) :
    Follows a (Socket.collided cookie a) :=
  ⟨rfl, rfl, rfl, .of_eq rfl, .refl a, fun sound =>
    ⟨sound.distinct, sound.primary, sound.outstanding⟩,
    fun _ => tidy_empty rfl rfl rfl⟩

theorem abandonPartialDelivery_congr {a b : Association} (same : b.reassembly = a.reassembly)
    (s : Socket) (key : AssociationKey) :
    s.abandonPartialDelivery key b = s.abandonPartialDelivery key a := by
  unfold Socket.abandonPartialDelivery
  rw [same]

theorem collideWithCookie {s : Socket} {key : AssociationKey} {a : Association}
    (found : s.find? key = some a) (probed : heard .probed) (now : Time) (draws : Draws)
    {cookie : StateCookie} (met : heard
      (.met key (forming a.state) a.peerVerTag cookie.peerVerTag)) :
    Deeds heard key s (s.collideWithCookie now draws key a cookie)
      ∧ Linked key s (s.collideWithCookie now draws key a cookie) := by
  have present : (s.find? key).isSome = true := by rw [found]; rfl
  have added : Deeds heard key s _ :=
    addPeerAddresses s key (cookieAddresses cookie) present (Or.inl probed)
  have linked := Linked.addPeerAddresses key s (cookieAddresses cookie)
  obtain ⟨b, here, reassembly, state, tag⟩ :
      ∃ b, (s.addPeerAddresses key (cookieAddresses cookie)).find? key = some b
      ∧ b.reassembly = a.reassembly ∧ b.state = a.state ∧ b.peerVerTag = a.peerVerTag := by
    obtain ⟨associations, peerAddresses, same, after, -⟩ :=
      addPeerAddresses_eq s key (cookieAddresses cookie)
    refine ⟨withPaths a (cookieAddresses cookie), ?_, by rw [withPaths_only], by
      rw [withPaths_only], by rw [withPaths_only]⟩
    rw [same]
    refine (after key).trans ?_
    rw [if_pos rfl, found]
    rfl
  unfold Socket.collideWithCookie
  simp only
  revert added linked here
  generalize s.addPeerAddresses key (cookieAddresses cookie) = s₁
  intro added linked here
  rw [← abandonPartialDelivery_congr reassembly s₁ key]
  have here' : (s₁.abandonPartialDelivery key b).find? key = some b :=
    (find?_abandonPartialDelivery s₁ key key b).trans here
  have met : Deeds heard key s ((s₁.abandonPartialDelivery key b).updateAssociation key
      (Socket.collided cookie)) := by
    rw [updateAssociation_of_some here']
    refine added.tail (.collided here (follows_collided b cookie) (.of_eq rfl rfl) rfl ?_)
    rw [state, tag]
    exact met
  have linked' : Linked key s ((s₁.abandonPartialDelivery key b).updateAssociation
      key (Socket.collided cookie)) :=
    (linked.trans (.of_find? (find?_abandonPartialDelivery s₁ key key b))).trans (.update fun a =>
      ⟨.refl a, rfl⟩)
  change Deeds heard key s (if _
    then ((s₁.abandonPartialDelivery key b).updateAssociation key (Socket.collided cookie)).bringUp
      now draws key else if _ then ((s₁.abandonPartialDelivery key b).updateAssociation key
        (Socket.collided cookie)).armConfirmationProbes now key else _)
    ∧ Linked key s (if _ then ((s₁.abandonPartialDelivery key b).updateAssociation
      key (Socket.collided cookie)).bringUp now draws key else if _
        then ((s₁.abandonPartialDelivery key b).updateAssociation key
          (Socket.collided cookie)).armConfirmationProbes now key else _)
  split
  · next forms =>
    refine ⟨met.trans (bringUp (a := Socket.collided cookie b) ?_ ?_ probed now draws),
      linked'.trans (.bringUp key _ now draws)⟩
    · rw [Socket.find?_updateAssociation, if_pos rfl, here']
      rfl
    · exact (congrArg forming state).trans forms
  · split
    · exact ⟨met.trans (armConfirmationProbes _ key probed now),
        linked'.trans (.armConfirmationProbes key _ now)⟩
    · exact ⟨met, linked'⟩

/-- The end of every accepting branch for an existing TCB. -/
theorem finishCookieEcho {s : Socket} {key : AssociationKey} {destination : SockAddr}
    (confirmed : ∀ a, s.find? key = some a → Sound a → Confirmed a destination)
    (header : CommonHeader) (cookie : StateCookie) :
    Deeds heard key s (s.finishCookieEcho header key destination cookie) := by
  have stopped : Deeds heard key s _ :=
    (cancel s key (rfl : (timerOf key .t1Init).location = key) nofun).trans
      (cancel _ key (rfl : (timerOf key .t1Cookie).location = key) nofun)
  have dropped := (stopped.trans (dropOfType _ key .init none)).trans
    (dropOfType _ key .cookieEcho none)
  refine dropped.trans (reply _ key ⟨rfl, List.cons_ne_nil _ _, Or.inl ⟨rfl, rfl⟩, ?_,
    fun _ a found sound => confirmed a found sound⟩)
  exact nofun

theorem finishLinked {s s' : Socket} {key : AssociationKey} {a : Association}
    (found : s.find? key = some a) (linked : Linked key s s') (header : CommonHeader)
    (src : SockAddr) (cookie : StateCookie) :
    Deeds heard key s' (s'.finishCookieEcho header key (replyDestination a src) cookie) := by
  refine finishCookieEcho (fun b here sound => ?_) header cookie
  obtain ⟨a', before, listed, primaryPath⟩ := linked b here
  rw [found] at before
  cases before
  exact sound.replyDestination_of_listed listed primaryPath src

/-- A cookie is taken for a TCB there is; unless both its tags match, it verified. -/
theorem acceptCookie {s : Socket} {key : AssociationKey} {a : Association} {cookie : StateCookie}
    (found : s.find? key = some a)
    (verified : cookie.localVerTag = a.thisVerTag ∧ cookie.peerVerTag = a.peerVerTag
      ∨ Shown heard s cookie)
    (probed : heard' .probed) (met : cookie.peerVerTag ≠ a.peerVerTag →
      heard' (.met key (forming a.state) a.peerVerTag cookie.peerVerTag))
    (now : Time) (draws : Draws) (header : CommonHeader) (src : SockAddr) :
    Led heard heard' key s (s.acceptCookie now draws header key src a cookie).2 := by
  unfold Socket.acceptCookie
  simp only
  split
  · split
    · next echoed =>
      exact .of_deeds ((bringUp found (by rw [echoed]; rfl) probed now draws).trans
        (finishLinked found (.bringUp key s now draws) header src cookie))
    · exact .of_deeds (finishLinked found (.refl key s) header src cookie)
  · next unmatched =>
    split
    · next both =>
      simp only [Bool.and_eq_true, Bool.not_eq_true', decide_eq_false_iff_not, decide_eq_true_eq]
        at both
      obtain ⟨⟨other, peer⟩, tie, tied, -⟩ := both
      split
      · have told : Deeds heard' key s (s.reply key (replyDestination a src)
            (buildShutdownAck header.desPort header.srcPort a.peerVerTag)) :=
          replyFound found (List.cons_ne_nil _ _) ⟨rfl, rfl⟩ fun sound => sound.replyDestination src
        have found' : (s.reply key (replyDestination a src)
            (buildShutdownAck header.desPort header.srcPort a.peerVerTag)).find? key = some a :=
              found
        exact .of_deeds (told.trans (replyFound found' (List.cons_ne_nil _ _) ⟨rfl, rfl⟩
          fun sound => sound.replyDestination src))
      · have restarts : Restarts heard s a cookie :=
          ⟨verified.resolve_left fun matches_ => other matches_.1, other, peer, tie, tied⟩
        refine (restartFromCookie found restarts probed now draws).trans
          (finishCookieEcho (fun b here sound => ?_) header cookie)
        rw [here]
        exact sound.replyDestination src
    · split
      · next same =>
        have other : cookie.peerVerTag ≠ a.peerVerTag := fun peer =>
          unmatched (by rw [same, peer]; simp)
        obtain ⟨deeds, linked⟩ := collideWithCookie found probed now draws (met other)
        exact .of_deeds (deeds.trans (finishLinked found linked header src cookie))
      · exact .of_deeds .refl

theorem sendStaleCookieError {s : Socket} {key : AssociationKey} {destination : SockAddr}
    (confirmed : ∀ a, s.find? key = some a → Sound a → Confirmed a destination)
    (header : CommonHeader) (cookie : StateCookie) (stalenessUs : BitVec 32) :
    Deeds heard key s (s.sendStaleCookieError header key destination cookie stalenessUs) := by
  refine reply _ key ⟨rfl, List.cons_ne_nil _ _, Or.inl ⟨rfl, rfl⟩, ?_, fun _ a found sound =>
    confirmed a found sound⟩
  exact nofun

/-- The association a COOKIE ECHO is for: the one its cookie names, if the cookie is ours. -/
theorem handleCookieEcho (now : Time) (draws : Draws) (header : CommonHeader) (cookieData : Bytes)
    (src : SockAddr) (told : heard (.echoed now cookieData header src)) (probed : heard' .probed)
    (met : ∀ key a tag, s.find? key = some a → tag ≠ a.peerVerTag →
      heard' (.met key (forming a.state) a.peerVerTag tag)) :
    Led heard heard' (s.handleCookieEcho now draws header cookieData key src).2.1 s
      (s.handleCookieEcho now draws header cookieData key src).2.2 := by
  unfold Socket.handleCookieEcho
  cases verdict : s.cookieAuthorizer.verify now cookieData header src with
  | valid cookie =>
    simp only
    cases found : s.find? (s.associationKeyFor (cookieKey cookie)) with
    | none => exact createFromCookie found ⟨now, cookieData, header, src, told,
        verdict⟩ probed now draws header src
    | some a =>
      exact acceptCookie found (Or.inr ⟨now, cookieData, header, src, told, verdict⟩) probed
        (met _ a _ found) now draws header src
  | stale cookie stalenessUs =>
    simp only
    cases found : s.find? (s.associationKeyFor (cookieKey cookie)) with
    | none =>
      refine .of_deeds (sendStaleCookieError (fun a here => ?_) header cookie stalenessUs)
      rw [found] at here
      cases here
    | some a =>
      simp only
      split
      · next matches_ =>
          exact acceptCookie found (Or.inl matches_) probed (met _ a _ found) now draws header src
      · refine .of_deeds (sendStaleCookieError (fun b here sound => ?_) header cookie stalenessUs)
        rw [found] at here
        cases here
        exact sound.replyDestination src
  | _ => exact .of_deeds .refl

theorem handleCookieAck (probed : heard .probed) (now : Time) (draws : Draws) :
    Deeds heard key s (s.handleCookieAck now draws key) := by
  unfold Socket.handleCookieAck
  cases found : s.find? key with
  | none => exact .refl
  | some a =>
    simp only
    split
    · exact .refl
    · next echoed =>
      rw [not_not] at echoed
      exact ((bringUp found (by rw [echoed]; rfl) probed now draws).trans
        (cancel _ key (rfl : (timerOf key .t1Cookie).location = key) nofun)).trans
          (dropOfType _ key .cookieEcho none)

/-! ## ERROR -/

theorem staleCookieOutcome_ignored {a : Association} {causes : List ErrorCause}
    (state : a.state ≠ .cookieEchoed) :
    Socket.staleCookieOutcome a causes = .ignored := by
  unfold Socket.staleCookieOutcome
  rw [if_pos state]

theorem retries_of_retry {a : Association} {causes : List ErrorCause} {stalenessUs : BitVec 32}
    (outcome : Socket.staleCookieOutcome a causes = .retry stalenessUs) :
    a.staleCookieRetries < maxStaleCookieRetries := by
  unfold Socket.staleCookieOutcome at outcome
  split at outcome
  · cases outcome
  · split at outcome
    · cases outcome
    · split at outcome
      · cases outcome
      · next left => exact Nat.lt_of_not_ge left

/-- The handshake begins anew. -/
theorem succeeds_retried {a : Association} (echoed : a.state = .cookieEchoed)
    (left : a.staleCookieRetries < maxStaleCookieRetries) :
    Succeeds a { a with
      staleCookieRetries := a.staleCookieRetries + 1, state := .cookieWait, peerVerTag := 0#32,
        initRetransmits := 0,
      cookieRetransmits := 0 } where
  thisVerTag := rfl
  localTieTag := rfl
  peerTieTag := rfl
  handshakes := .step (exchange_of_echoed echoed) (.back rfl left) rfl
  listed := .refl a
  sound := fun sound => ⟨sound.distinct, sound.primary, sound.outstanding⟩
  tidy := fun tidy => tidy.congr (fun _ => by rw [echoed]; rfl) rfl rfl rfl rfl rfl
  partially := rfl
  heeds := by
    intro up
    rw [echoed] at up
    cases up

theorem handleError (causes : List ErrorCause) : Deeds heard key s (s.handleError causes key) := by
  unfold Socket.handleError
  split
  · exact .refl
  · cases found : s.find? key with
    | none => exact .refl
    | some a =>
      simp only
      have present : (s.find? key).isSome = true := by rw [found]; rfl
      by_cases echoed : a.state = .cookieEchoed
      · cases outcome : Socket.staleCookieOutcome a causes with
        | ignored => exact note s key rfl present
        | retry stalenessUs =>
          have back : Deeds heard key s (s.setAssociation key { a with
              staleCookieRetries := a.staleCookieRetries + 1, state := .cookieWait, peerVerTag :=
                0#32,
              initRetransmits := 0, cookieRetransmits := 0 }) := by
            exact set found (succeeds_retried echoed (retries_of_retry outcome))
              (Spares.of_stopped rfl).minds
          have stopped := (back.trans (cancel _ key (rfl : (timerOf key .t1Cookie).location = key)
            nofun)).trans (dropOfType _ key .cookieEcho none)
          exact stopped.trans (enqueue _ ⟨rfl, List.cons_ne_nil _ _, Or.inl ⟨rfl, rfl⟩, fun _ => by
            simp, nofun⟩)
        | failed =>
          have stopped : Deeds heard key s _ :=
            (cancel s key (rfl : (timerOf key .t1Cookie).location = key) nofun).trans
              (dropOfType _ key .cookieEcho none)
          have found' : ((s.cancelExpiration (timerOf key .t1Cookie)).removeRetransmissionsOfType
              key .cookieEcho none).find? key = some a := found
          exact stopped.trans (ended found' (by rw [echoed]; rfl))
      · rw [staleCookieOutcome_ignored echoed]
        exact note s key rfl present

end Deeds

end SctpStack
