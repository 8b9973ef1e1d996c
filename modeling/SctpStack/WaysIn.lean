import SctpStack.MoveSteps

/-!
# The ways into an association

A cookie that is accepted makes an association, restarts it, or settles a collision; what
follows is a sequence of moves (`handleCookieEcho_cases`). With that, what moves and the
ways in keep, a step of the socket keeps (`System.step_moves`).
-/

namespace SctpStack

namespace Socket

/-! ## Cookies -/

/-- A TCB is made from a cookie. -/
def createdFrom (s : Socket) (key : AssociationKey) (cookie : StateCookie) : Socket :=
  (s.setAssociation key (initNewAssociationFromCookie cookie)).addPeerAddresses key
    (cookieAddresses cookie)

/-- What was kept for a key before its peer restarted is gone. -/
def clearedFor (s : Socket) (key : AssociationKey) (tcb : Association) : Socket :=
  ((((s.cancelExpirations key).purgeSends key).forgetPeerAddresses key).abandonPartialDelivery
    key tcb).detachReceives key

/-- A TCB is replaced by the one a cookie describes. -/
def restartedFrom (s : Socket) (key : AssociationKey) (tcb : Association) (cookie : StateCookie) :
    Socket :=
  (s.clearedFor key tcb).createdFrom key cookie

/-- What a colliding cookie makes of a TCB. -/
def collided (cookie : StateCookie) (assoc : Association) : Association :=
  { assoc with
    peerVerTag := cookie.peerVerTag
    lastPeerTsn := cookie.peerInitialTsn - 1#32
    peerRwnd := cookie.peerARwnd.toNat
    peerMaxRwnd := cookie.peerARwnd.toNat
    tsnOooBuffer := ∅
    reassembly := .closed
    inboundStreams := ∅
    heldDeliveries := []
    duplicateTsns := [] }

/-- A collision is settled by a cookie; an association that was forming is up. -/
def collidedWith (s : Socket) (key : AssociationKey) (tcb : Association) (cookie : StateCookie) :
    Socket :=
  let s := ((s.addPeerAddresses key (cookieAddresses cookie)).abandonPartialDelivery key
    tcb).updateAssociation key (collided cookie)
  if forming tcb.state then s.updateAssociation key fun assoc =>
    { assoc with state := .established } else s

end Socket

/-! ## Addresses -/

/-- One address more, unless the association has it. -/
def withPath (a : Association) (address : SockAddr) : Association :=
  if findPath a address = none then
    { a with peerAddressList := a.peerAddressList ++ [makePath address false a.pmdcs] }
  else a

def withPaths (a : Association) (addresses : List SockAddr) : Association :=
  addresses.foldl withPath a

theorem withPath_only (a : Association) (address : SockAddr) :
    withPath a address = { a with peerAddressList := (withPath a address).peerAddressList } := by
  unfold withPath
  split <;> rfl

theorem withPaths_only (a : Association) (addresses : List SockAddr) :
    withPaths a addresses = { a with peerAddressList :=
      (withPaths a addresses).peerAddressList } := by
  unfold withPaths
  induction addresses generalizing a with
  | nil => rfl
  | cons address rest ih =>
    rw [List.foldl_cons, ih (withPath a address), withPath_only]

/-- The aliases of `key` that a list of addresses adds. -/
def withAliases (key : AssociationKey) (owners : KeyMap AssociationKey AssociationKey)
    (addresses : List SockAddr) :
    KeyMap AssociationKey AssociationKey :=
  (addresses.filter fun address => !sameDestination address key.address).foldl
    (fun owners address => owners.emplace (peerKey address key.address.port) key) owners

/-- What adding addresses changes: the paths of one association, and which association
each address is found by. -/
theorem addPeerAddresses_eq (s : Socket) (key : AssociationKey) (addresses : List SockAddr) :
    ∃ associations peerAddresses, s.addPeerAddresses key addresses
        = { s with associations := associations, peerAddresses := peerAddresses }
      ∧ (∀ k, associations.get? k = if k = key then (s.find? key).map (withPaths · addresses)
        else s.find? k)
      ∧ peerAddresses = withAliases key s.peerAddresses addresses := by
  unfold Socket.addPeerAddresses withAliases
  induction addresses generalizing s with
  | nil =>
    refine ⟨s.associations, s.peerAddresses, rfl, fun k => ?_, rfl⟩
    by_cases here : k = key
    · rw [if_pos here, here]
      exact Option.map_id'.symm
    · rw [if_neg here]
      rfl
  | cons address rest ih =>
    obtain ⟨associations, peerAddresses, same, found, owners⟩ := ih (s.addPeerAddress key address)
    have added : ∀ k, (s.addPeerAddress key address).find? k
        = if k = key then (s.find? key).map (withPath · address) else s.find? k := by
      intro k
      unfold Socket.addPeerAddress
      simp only
      split <;> exact Socket.find?_updateAssociation s key k _
    refine ⟨associations, peerAddresses, ?_, fun k => ?_, ?_⟩
    · rw [List.foldl_cons, same]
      unfold Socket.addPeerAddress
      simp only
      split <;> rfl
    · rw [found, added, added, if_pos rfl, Option.map_map]
      split
      · rfl
      · rfl
    · rw [owners]
      unfold Socket.addPeerAddress
      simp only
      split
      · next here => rw [List.filter_cons_of_neg (by simp [here])]; rfl
      · next apart => rw [List.filter_cons_of_pos (by simp [apart])]; rfl

/-- What an INIT ACK tells of the peer. -/
def initAcked (initAck : InitChunkValue) (a : Association) : Association :=
  { a with
    lastPeerTsn := initAck.initialTsn - 1#32
    peerVerTag := initAck.initiateTag
    peerRwnd := initAck.aRwnd.toNat
    peerMaxRwnd := initAck.aRwnd.toNat
    outStreams := minStreams localOutStreams initAck.inStreams
    inStreams := minStreams localMaxInStreams initAck.outStreams
    nextSsn := List.replicate (minStreams localOutStreams initAck.inStreams).toNat 0#16
    state := .cookieEchoed }

/-- What an INIT ACK that is accepted changes: the association takes the peer's terms and
its addresses, T1-init stops, and the cookie is echoed. -/
theorem acceptInitAck_eq {s : Socket} {key : AssociationKey} {a : Association}
    (found : s.find? key = some a) (header : CommonHeader) (initAck : InitChunkValue)
    (src : SockAddr) (cookie : Bytes) :
    ∃ (s₁ : Socket) (destination : SockAddr) (errors : List ErrorCause), s.acceptInitAck header
      initAck key src cookie
        = ((s₁.cancelExpiration (timerOf key .t1Init)).removeRetransmissionsOfType key .init
          none).reply key destination (buildCookieEcho header.desPort header.srcPort
            initAck.initiateTag cookie errors)
      ∧ (∀ k, s₁.find? k = if k = key then
          some (initAcked initAck (withPaths a
            (transportAddresses src (scanInitAck initAck).recognized))) else s.find? k)
      ∧ s₁.peerAddresses = withAliases key s.peerAddresses
        (transportAddresses src (scanInitAck initAck).recognized)
      ∧ s₁.localAddress = s.localAddress ∧ s₁.expirations = s.expirations ∧ s₁.sends = s.sends
      ∧ s₁.notifications = s.notifications ∧ s₁.receives = s.receives ∧ s₁.cookieAuthorizer
        = s.cookieAuthorizer := by
  obtain ⟨associations, peerAddresses, same, added, owners⟩ :=
    addPeerAddresses_eq s key (transportAddresses src (scanInitAck initAck).recognized)
  have here : ({ s with associations := associations, peerAddresses := peerAddresses } :
    Socket).find? key
      = some (withPaths a (transportAddresses src (scanInitAck initAck).recognized)) := by
    refine (added key).trans ?_
    rw [if_pos rfl, found]
    rfl
  unfold Socket.acceptInitAck
  simp only [same, here]
  refine ⟨_, _, _, rfl, fun k => ?_, owners, rfl, rfl, rfl, rfl, rfl, rfl⟩
  rw [Socket.find?_setAssociation]
  split
  · rfl
  · next apart => exact (added k).trans (if_neg apart)

section Cookies

variable {s : Socket} {key : AssociationKey}

/-- The end of every accepting branch, for an association that is up. -/
theorem Acts.finishCookieEcho (s : Socket) (key : AssociationKey) (header : CommonHeader)
    (destination : SockAddr) (cookie : StateCookie)
    (up : ∀ a, s.find? key = some a → forming a.state = false) :
    Acts s (s.finishCookieEcho header key destination cookie) := by
  have passed : ∀ isInit a, s.find? key = some a → a.state ≠ openingState isInit := by
    intro isInit a found same
    have is := up a found
    rw [same] at is
    cases isInit <;> cases is
  have settled : Acts s _ := (Relation.ReflTransGen.single
    (Move.settled key true (passed true))).tail (.settled key false (passed false))
  have dropped : Acts s _ := (settled.tail (.dropped key true (passed true))).tail
    (.dropped key false (passed false))
  exact dropped.thenQuiet (.reply _ key _ _)

/-- A cookie both of whose tags match is one that was accepted before, or the answer to
the COOKIE ECHO of this end; in COOKIE-WAIT it stops the handshake. -/
theorem acceptCookie_matching (now : Time) (draws : Draws) (header : CommonHeader) (src : SockAddr)
    {tcb : Association} (found : s.find? key = some tcb) (cookie : StateCookie)
    (local_ : cookie.localVerTag = tcb.thisVerTag) (peer : cookie.peerVerTag = tcb.peerVerTag) :
    (s.acceptCookie now draws header key src tcb cookie).1 = true
    ∧ (Acts s (s.acceptCookie now draws header key src tcb cookie).2
      ∨ tcb.state = .cookieWait ∧ (s.acceptCookie now draws header key src tcb cookie).2
          = s.finishCookieEcho header key (replyDestination tcb src) cookie) := by
  unfold Socket.acceptCookie
  simp only [local_, peer, decide_true, Bool.and_self, if_true, true_and]
  by_cases echoed : tcb.state = .cookieEchoed
  · rw [if_pos echoed]
    refine Or.inl ((Acts.bringUp s key now draws found echoed).trans
      (Acts.finishCookieEcho _ key header _ cookie
      fun a after => ?_))
    rw [state_bringUp after]
    rfl
  · rw [if_neg echoed]
    by_cases waits : tcb.state = .cookieWait
    · exact Or.inr ⟨waits, rfl⟩
    · refine Or.inl (Acts.finishCookieEcho s key header _ cookie fun a here => ?_)
      rw [found] at here
      cases here
      cases state : tcb.state <;> simp_all [forming]

theorem find?_createdFrom (s : Socket) (key k : AssociationKey) (cookie : StateCookie) :
    (s.createdFrom key cookie).find? k = if k = key then
      some (withPaths (initNewAssociationFromCookie cookie) (cookieAddresses cookie))
        else s.find? k := by
  unfold Socket.createdFrom
  obtain ⟨associations, peerAddresses, same, found, -⟩ :=
    addPeerAddresses_eq (s.setAssociation key (initNewAssociationFromCookie cookie))
      key (cookieAddresses cookie)
  rw [same]
  refine (found k).trans ?_
  simp only [Socket.find?_setAssociation]
  split
  · rfl
  · rfl

theorem up_createdFrom {s : Socket} {key : AssociationKey} {cookie : StateCookie} {a : Association}
    (found : (s.createdFrom key cookie).find? key = some a) : forming a.state = false := by
  rw [find?_createdFrom, if_pos rfl] at found
  cases found
  rw [withPaths_only]
  rfl

/-- What is accepted beyond a match: a restart, or a collision. -/
inductive CookieEntry (s : Socket) (key : AssociationKey) (cookie : StateCookie) :
    Socket → Prop where
  | created : s.find? key = none → CookieEntry s key cookie (s.createdFrom key cookie)
  | restarted (tcb : Association) : s.find? key = some tcb → cookie.localVerTag ≠ tcb.thisVerTag →
      cookie.peerVerTag ≠ tcb.peerVerTag → cookie.localTieTag ≠ 0#32 → cookie.localTieTag
        = tcb.localTieTag →
      cookie.peerTieTag = tcb.peerTieTag → tcb.state ≠ .shutdownAckSent →
      CookieEntry s key cookie (s.restartedFrom key tcb cookie)
  | collided (tcb : Association) : s.find? key = some tcb → cookie.localVerTag = tcb.thisVerTag →
      cookie.peerVerTag ≠ tcb.peerVerTag → CookieEntry s key cookie (s.collidedWith key tcb cookie)

theorem find?_clearedFor (s : Socket) (key k : AssociationKey) (tcb : Association) :
    (s.clearedFor key tcb).find? k = s.find? k := by
  unfold Socket.clearedFor Socket.abandonPartialDelivery
  split <;> rfl

theorem Acts.finishCreation (s : Socket) (key : AssociationKey) (now : Time) (draws : Draws)
    {state : AssocChangeState} (other : state ≠ .shutdownComp) :
    Quiet s ((s.notifyAssocChange key state).startHeartbeats now draws key) :=
  Quiet.trans (.notifyAssocChange s key other) (.startHeartbeats _ key now draws)

theorem createFromCookie_acts (s : Socket) (now : Time) (draws : Draws) (header : CommonHeader)
    (key : AssociationKey) (src : SockAddr) (cookie : StateCookie) :
    Acts (s.createdFrom key cookie) (s.createFromCookie now draws header key src cookie) := by
  have up : Quiet (s.createdFrom key cookie) _ := Acts.finishCreation _ key now draws
    (show AssocChangeState.commUp ≠ .shutdownComp from nofun)
  unfold Socket.createFromCookie
  simp only
  split
  · exact Acts.quiet up
  · exact (Acts.quiet up).thenQuiet (.reply _ key _ _)

/-- The association a restart makes is up. -/
theorem restartFromCookie_acts (s : Socket) (now : Time) (draws : Draws) (header : CommonHeader)
    (key : AssociationKey) (destination : SockAddr) (tcb : Association) (cookie : StateCookie) :
    Acts (s.restartedFrom key tcb cookie)
      ((s.restartFromCookie now draws key tcb cookie).finishCookieEcho header key destination
        cookie) := by
  have up : Quiet (s.restartedFrom key tcb cookie) (s.restartFromCookie now draws key tcb cookie) :=
    Acts.finishCreation _ key now draws nofun
  refine (Acts.quiet up).trans (Acts.finishCookieEcho _ key header _ cookie fun a after => ?_)
  obtain ⟨b, before, same⟩ := up.before after
  rw [show a.state = b.state from congrArg Essence.state same.essence]
  exact up_createdFrom before

theorem find?_collidedWith {tcb : Association} (found : s.find? key = some tcb)
    (cookie : StateCookie) (k : AssociationKey) :
    (s.collidedWith key tcb cookie).find? k = if k = key then
      some (if forming tcb.state then
        { Socket.collided cookie (withPaths tcb (cookieAddresses cookie))
          with state := .established }
      else Socket.collided cookie (withPaths tcb (cookieAddresses cookie))) else s.find? k := by
  obtain ⟨associations, peerAddresses, same, added, -⟩ :=
    addPeerAddresses_eq s key (cookieAddresses cookie)
  have abandoned : ∀ s' : Socket, (s'.abandonPartialDelivery key tcb).find? = s'.find? := by
    intro s'
    unfold Socket.abandonPartialDelivery
    split <;> rfl
  have before : ∀ k, (s.addPeerAddresses key (cookieAddresses cookie)).find? k
      = if k = key then some (withPaths tcb (cookieAddresses cookie)) else s.find? k := by
    intro k
    rw [same]
    refine (added k).trans ?_
    rw [found]
    rfl
  unfold Socket.collidedWith
  simp only
  split
  · simp only [Socket.find?_updateAssociation, abandoned, before]
    split
    · rfl
    · rfl
  · simp only [Socket.find?_updateAssociation, abandoned, before]
    split
    · rfl
    · rfl

theorem up_collidedWith {tcb a : Association} {cookie : StateCookie}
    (found : s.find? key = some tcb) (after : (s.collidedWith key tcb cookie).find? key = some a) :
    forming a.state = false := by
  rw [find?_collidedWith found, if_pos rfl] at after
  cases after
  split
  · rfl
  · next passed =>
    rw [Bool.not_eq_true] at passed
    rw [show (Socket.collided cookie (withPaths tcb (cookieAddresses cookie))).state
      = (withPaths tcb (cookieAddresses cookie)).state from rfl, withPaths_only]
    exact passed

/-- What a way in leaves alone but the associations: the timers and the queues. -/
structure Undisturbed (s s' : Socket) : Prop where
  localAddress : s'.localAddress = s.localAddress
  expirations : s'.expirations = s.expirations
  sends : s'.sends = s.sends
  notifications : NothingCompleted s.notifications s'.notifications

theorem undisturbed_addPeerAddresses (s : Socket) (key : AssociationKey)
    (addresses : List SockAddr) :
    Undisturbed s (s.addPeerAddresses key addresses) := by
  obtain ⟨associations, peerAddresses, same, -⟩ := addPeerAddresses_eq s key addresses
  rw [same]
  exact ⟨rfl, rfl, rfl, .refl _⟩

theorem undisturbed_createdFrom (s : Socket) (key : AssociationKey) (cookie : StateCookie) :
    Undisturbed s (s.createdFrom key cookie) := by
  have added := undisturbed_addPeerAddresses
    (s.setAssociation key (initNewAssociationFromCookie cookie)) key (cookieAddresses cookie)
  exact ⟨added.localAddress, added.expirations, added.sends, added.notifications⟩

theorem undisturbed_abandonPartialDelivery (s : Socket) (key : AssociationKey) (a : Association) :
    Undisturbed s (s.abandonPartialDelivery key a) := by
  unfold Socket.abandonPartialDelivery
  split
  · exact ⟨rfl, rfl, rfl, .refl _⟩
  · exact ⟨rfl, rfl, rfl, .enqueue _ key nofun⟩

theorem Undisturbed.trans {s s' s'' : Socket} (first : Undisturbed s s')
    (second : Undisturbed s' s'') : Undisturbed s s'' :=
  ⟨second.localAddress.trans first.localAddress, second.expirations.trans first.expirations,
    second.sends.trans first.sends, first.notifications.trans second.notifications⟩

theorem undisturbed_collidedWith (s : Socket) (key : AssociationKey) (tcb : Association)
    (cookie : StateCookie) :
    Undisturbed s (s.collidedWith key tcb cookie) := by
  have abandoned := (undisturbed_addPeerAddresses s key (cookieAddresses cookie)).trans
    (undisturbed_abandonPartialDelivery _ key tcb)
  unfold Socket.collidedWith
  simp only
  split
  · exact ⟨abandoned.localAddress, abandoned.expirations, abandoned.sends, abandoned.notifications⟩
  · exact ⟨abandoned.localAddress, abandoned.expirations, abandoned.sends, abandoned.notifications⟩

/-- A restart stops the timers of the association and takes its packets out. -/
theorem undisturbed_restartedFrom (s : Socket) (key : AssociationKey) (tcb : Association)
    (cookie : StateCookie) :
    Undisturbed ((s.cancelExpirations key).purgeSends key) (s.restartedFrom key tcb cookie) := by
  have cleared : Undisturbed ((s.cancelExpirations key).purgeSends key) (s.clearedFor key tcb) := by
    have abandoned := undisturbed_abandonPartialDelivery
      (((s.cancelExpirations key).purgeSends key).forgetPeerAddresses key) key tcb
    exact ⟨abandoned.localAddress, abandoned.expirations, abandoned.sends, abandoned.notifications⟩
  exact cleared.trans (undisturbed_createdFrom _ key cookie)

/-- An association that was entered by a cookie is up, and the others are as they were. -/
theorem CookieEntry.up {s s₁ : Socket} {key : AssociationKey} {cookie : StateCookie}
    (entry : CookieEntry s key cookie s₁) :
    (∀ k, k ≠ key → s₁.find? k = s.find? k) ∧ ∀ a, s₁.find? key = some a → forming a.state
      = false := by
  cases entry with
  | created absent =>
    refine ⟨fun k apart => ?_, fun a => up_createdFrom⟩
    rw [find?_createdFrom, if_neg apart]
  | restarted tcb found =>
    refine ⟨fun k apart => ?_, fun a => up_createdFrom⟩
    rw [Socket.restartedFrom, find?_createdFrom, if_neg apart, find?_clearedFor]
  | collided tcb found =>
    refine ⟨fun k apart => ?_, fun a => up_collidedWith found⟩
    rw [find?_collidedWith found, if_neg apart]

theorem collideWithCookie_acts (now : Time) (draws : Draws) (header : CommonHeader)
    (destination : SockAddr) {tcb : Association} (found : s.find? key = some tcb)
    (cookie : StateCookie) :
    Acts (s.collidedWith key tcb cookie)
      ((s.collideWithCookie now draws key tcb cookie).finishCookieEcho header key destination
        cookie) := by
  have up : Quiet (s.collidedWith key tcb cookie)
      (s.collideWithCookie now draws key tcb cookie) := by
    unfold Socket.collidedWith Socket.collideWithCookie
    simp only
    split
    · exact Acts.broughtUp _ key now draws
    · split
      · exact .armConfirmationProbes _ key now
      · exact .refl _
  refine (Acts.quiet up).trans (Acts.finishCookieEcho _ key header _ cookie fun a after => ?_)
  obtain ⟨b, before, same⟩ := up.before after
  rw [show a.state = b.state from congrArg Essence.state same.essence]
  exact up_collidedWith found before

/-- What a verified cookie does to the association it names: nothing that matters, a move,
an entry, or in COOKIE-WAIT the end of the handshake's packets. -/
theorem acceptCookie_cases (now : Time) (draws : Draws) (header : CommonHeader) (src : SockAddr)
    {tcb : Association} (found : s.find? key = some tcb) (cookie : StateCookie) :
    Acts s (s.acceptCookie now draws header key src tcb cookie).2
    ∨ (∃ s₁, CookieEntry s key cookie s₁
    ∧ Acts s₁ (s.acceptCookie now draws header key src tcb cookie).2)
    ∨ (tcb.state = .cookieWait ∧ cookie.peerVerTag = tcb.peerVerTag ∧ cookie.localVerTag
      = tcb.thisVerTag
      ∧ (s.acceptCookie now draws header key src tcb cookie).2
        = s.finishCookieEcho header key (replyDestination tcb src) cookie) := by
  by_cases matching : cookie.localVerTag = tcb.thisVerTag ∧ cookie.peerVerTag = tcb.peerVerTag
  · rcases (acceptCookie_matching now draws header src found cookie matching.1 matching.2).2
      with acts | ⟨waits, same⟩
    · exact Or.inl acts
    · exact Or.inr (Or.inr ⟨waits, matching.2, matching.1, same⟩)
  · unfold Socket.acceptCookie
    simp only
    split
    · next both =>
      rw [Bool.and_eq_true, decide_eq_true_eq, decide_eq_true_eq] at both
      exact absurd both matching
    · split
      · next tied =>
        simp only [Bool.and_eq_true, Bool.not_eq_true', decide_eq_true_eq, decide_eq_false_iff_not]
          at tied
        obtain ⟨⟨local_, peer⟩, tie, ours, theirs⟩ := tied
        split
        · exact Or.inl ((Acts.quiet (.reply s key _ _)).thenQuiet (.reply _ key _ _))
        · next closing =>
          exact Or.inr (Or.inl ⟨_, .restarted tcb found local_ peer tie ours theirs closing,
            restartFromCookie_acts s now draws header key _ tcb cookie⟩)
      · split
        · next local_ =>
          rw [decide_eq_true_eq] at local_
          have peer : cookie.peerVerTag ≠ tcb.peerVerTag := fun same => matching ⟨local_, same⟩
          exact Or.inr (Or.inl ⟨_, .collided tcb found local_ peer,
            collideWithCookie_acts now draws header _ found cookie⟩)
        · exact Or.inl .refl

/-- A COOKIE ECHO moves the association it is for, or it is a way in. -/
theorem handleCookieEcho_cases (s : Socket) (now : Time) (draws : Draws) (header : CommonHeader)
    (cookieData : Bytes) (key : AssociationKey) (src : SockAddr) :
    Acts s (s.handleCookieEcho now draws header cookieData key src).2.2
    ∨ (∃ cookie s₁, s.cookieAuthorizer.verify now cookieData header src = .valid cookie
      ∧ CookieEntry s (s.associationKeyFor (cookieKey cookie)) cookie s₁
      ∧ Acts s₁ (s.handleCookieEcho now draws header cookieData key src).2.2)
    ∨ ∃ cookie tcb, (s.cookieAuthorizer.verify now cookieData header src = .valid cookie
        ∨ ∃ staleness, s.cookieAuthorizer.verify now cookieData header src
          = .stale cookie staleness)
      ∧ s.find? (s.associationKeyFor (cookieKey cookie)) = some tcb ∧ tcb.state = .cookieWait
      ∧ cookie.peerVerTag = tcb.peerVerTag
      ∧ (s.handleCookieEcho now draws header cookieData key src).2.2
        = s.finishCookieEcho header (s.associationKeyFor (cookieKey cookie))
        (replyDestination tcb src) cookie := by
  unfold Socket.handleCookieEcho
  cases verified : s.cookieAuthorizer.verify now cookieData header src with
  | valid cookie =>
    simp only
    cases found : s.find? (s.associationKeyFor (cookieKey cookie)) with
    | none =>
      exact Or.inr (Or.inl ⟨cookie, _, rfl, .created found,
        createFromCookie_acts s now draws header _ src cookie⟩)
    | some tcb =>
      rcases acceptCookie_cases now draws header src found cookie with acts | ⟨s₁, entry,
        acts⟩ | ⟨waits, peer, -, same⟩
      · exact Or.inl acts
      · exact Or.inr (Or.inl ⟨cookie, s₁, rfl, entry, acts⟩)
      · exact Or.inr (Or.inr ⟨cookie, tcb, Or.inl rfl, found, waits, peer, same⟩)
  | stale cookie staleness =>
    simp only
    cases found : s.find? (s.associationKeyFor (cookieKey cookie)) with
    | none => exact Or.inl (Acts.quiet (.reply s _ _ _))
    | some tcb =>
      simp only
      split
      · next matching =>
        rcases (acceptCookie_matching now draws header src found cookie matching.1 matching.2).2
          with acts | ⟨waits, same⟩
        · exact Or.inl acts
        · exact Or.inr (Or.inr ⟨cookie, tcb, Or.inr ⟨staleness, rfl⟩, found, waits, matching.2,
            same⟩)
      · exact Or.inl (Acts.quiet (.reply s _ _ _))
  | malformed => exact Or.inl .refl
  | unknownSecret => exact Or.inl .refl
  | badMac => exact Or.inl .refl
  | wrongEndpoint => exact Or.inl .refl

end Cookies

/-! ## Packets -/

namespace Socket

/-- The chunks of a packet, each with the socket its handler finds. -/
def handedFrom (now : Time) (draws : Nat → Draws) (header : CommonHeader) (key : AssociationKey)
    (src : SockAddr) :
    Nat → List Chunk → Socket → List (Socket × Chunk)
  | _, [], _ => []
  | i, chunk :: rest, s =>
    (s, chunk) :: if chunk.type = .abort then []
      else handedFrom now draws header key src (i + 1) rest
        (s.handleChunk now (draws i) header key src chunk)

/-- The chunks of a packet that its handlers are given, once it is dispatched. -/
def handed (s : Socket) (now : Time) (draws : Nat → Draws) (packet : Packet) (key : AssociationKey)
    (src : SockAddr) (carriedCookieEcho : Bool) : List (Socket × Chunk) :=
  handedFrom now draws packet.header key src (if carriedCookieEcho then 1 else 0)
    (chunksToHandle packet carriedCookieEcho) (s.beforeChunks now packet key src)

end Socket

theorem stripUnrecognized_sublist (chunks : List Chunk) :
    (stripUnrecognized chunks).1.Sublist chunks := by
  induction chunks with
  | nil => exact .slnil
  | cons chunk rest ih =>
    unfold stripUnrecognized
    split
    · simp only
      split
      · exact ih.cons chunk
      · exact List.nil_sublist _
    · exact ih.cons_cons chunk

/-- A chunk that is handed to its handler is one of the packet. -/
theorem mem_handed {s s₁ : Socket} {now : Time} {draws : Nat → Draws} {packet : Packet}
    {key : AssociationKey} {src : SockAddr} {carried : Bool} {chunk : Chunk}
    (member : (s₁, chunk) ∈ s.handed now draws packet key src carried) :
    chunk ∈ packet.chunks := by
  have from_ : ∀ chunks i s, (s₁, chunk) ∈ Socket.handedFrom now draws packet.header key src i
      chunks s → chunk ∈ chunks := by
    intro chunks
    induction chunks with
    | nil =>
      intro i s member
      cases member
    | cons first rest ih =>
      intro i s member
      unfold Socket.handedFrom at member
      rcases List.mem_cons.mp member with here | later
      · cases here
        exact List.mem_cons_self
      · split at later
        · cases later
        · exact List.mem_cons_of_mem _ (ih _ _ later)
  have left : chunk ∈ (stripUnrecognized packet.chunks).1 := by
    have inside := from_ _ _ _ member
    unfold Socket.chunksToHandle at inside
    split at inside
    · exact List.mem_of_mem_tail inside
    · exact inside
  exact (stripUnrecognized_sublist packet.chunks).subset left

/-- What every chunk handed to its handler keeps, all of them keep. -/
theorem handleChunks_handed {inv : Socket → Prop} {now : Time} {draws : Nat → Draws}
    {header : CommonHeader} {key : AssociationKey} {src : SockAddr} {chunks : List Chunk}
    {s : Socket} {i : Nat} (each : ∀ s₁ chunk draws₁, (s₁, chunk)
      ∈ Socket.handedFrom now draws header key src i chunks s → inv s₁ →
        inv (s₁.handleChunk now draws₁ header key src chunk)) (holds : inv s) :
    inv (Socket.handleChunks now draws header key src i chunks s).2 := by
  induction chunks generalizing s i with
  | nil => exact holds
  | cons chunk rest ih =>
    have first := each s chunk (draws i) List.mem_cons_self holds
    unfold Socket.handleChunks
    simp only
    split
    · exact first
    · next goesOn =>
      refine ih (fun s₁ chunk' draws₁ member here => each s₁ chunk' draws₁ ?_ here) first
      unfold Socket.handedFrom
      rw [if_neg goesOn]
      exact List.mem_cons_of_mem _ member

/-- The ways into an association a packet may take, and its DATA. -/
structure PacketDoors (inv : Socket → Prop) (s : Socket) (now : Time) (draws : Nat → Draws)
    (packet : Packet) (src : SockAddr) : Prop where
  entry : ∀ cookieData cookie s₁, s.cookieAuthorizer.verify now cookieData packet.header src
    = .valid cookie → (∃ flag rest, (stripUnrecognized packet.chunks).1
      = ⟨flag, .cookieEcho cookieData⟩ :: rest) →
    CookieEntry s (s.associationKeyFor (cookieKey cookie)) cookie s₁ → inv s → inv s₁
  /-- A cookie of a TCB that has no peer tag yet. -/
  stuck : ∀ cookieData cookie tcb destination,
    (s.cookieAuthorizer.verify now cookieData packet.header src = .valid cookie
      ∨ ∃ staleness, s.cookieAuthorizer.verify now cookieData packet.header src
        = .stale cookie staleness) →
    (∃ flag rest, (stripUnrecognized packet.chunks).1 = ⟨flag, .cookieEcho cookieData⟩ :: rest) →
    s.find? (s.associationKeyFor (cookieKey cookie)) = some tcb → tcb.state = .cookieWait →
    cookie.peerVerTag = tcb.peerVerTag → inv s →
    inv (s.finishCookieEcho packet.header (s.associationKeyFor (cookieKey cookie)) destination
      cookie)
  initAck : ∀ s' key carried s₁ flag initAck a cookie, s.dispatch now draws packet src
    = some (s', key, carried) → (s₁, ⟨flag, .initAck initAck⟩)
      ∈ s'.handed now draws packet key src carried → s₁.find? key = some a →
    a.state = .cookieWait → echoedCookie initAck = some cookie → inv s₁ →
    inv (s₁.acceptInitAck packet.header initAck key src cookie)
  retry : ∀ s' key carried s₁ flag causes a staleness, s.dispatch now draws packet src
    = some (s', key, carried) → (s₁, ⟨flag, .opError causes⟩)
      ∈ s'.handed now draws packet key src carried → s₁.find? key = some a →
    Socket.staleCookieOutcome a causes = .retry staleness → inv s₁ →
      inv (s₁.retryHandshake key a staleness)
  data : ∀ s' key carried s'' a, s.dispatch now draws packet src = some (s', key, carried) →
    s'.afterChunks now draws packet key src carried = (false, s'') → s''.find? key = some a →
      receivesData a.state = true →
    (takeData (stripUnrecognized packet.chunks).1
      (Socket.DataLoop.start s'' key a carried)).violation = false →
    Keeping (Taken key) s'' (s''.receiveData now ⟨packet.header,
      (stripUnrecognized packet.chunks).1⟩ key src carried a) →
    inv s'' → inv (s''.receiveData now ⟨packet.header, (stripUnrecognized packet.chunks).1⟩
      key src carried a)

theorem handleRest_eq (s : Socket) (now : Time) (draws : Nat → Draws) (packet : Packet)
    (key : AssociationKey) (src : SockAddr) (carried : Bool) :
    s.handleRest now draws packet.header key src (stripUnrecognized packet.chunks).1
      (Socket.chunksToHandle packet carried) (stripUnrecognized packet.chunks).2 carried
    = match s.afterChunks now draws packet key src carried with
      | (true, s) => s
      | (false, s) =>
        let s := s.handleDataPacket now ⟨packet.header, (stripUnrecognized packet.chunks).1⟩ key
          src carried
        if (stripUnrecognized packet.chunks).2.isEmpty then s
        else s.reportUnrecognizedChunks packet.header key src (stripUnrecognized packet.chunks).2 :=
          rfl

/-- A packet that passed the tag check and does not lead with a COOKIE ECHO. -/
theorem handlePacket_plain {s : Socket} {now : Time} {draws : Nat → Draws} {packet : Packet}
    {src : SockAddr} (verdict : s.validateVerificationTag packet (s.packetKey packet src) = .accept)
    (plain : ∀ flag cookieData rest, (stripUnrecognized packet.chunks).1
      ≠ ⟨flag, .cookieEcho cookieData⟩ :: rest) :
    s.handlePacket now draws packet src
      = s.handleRest now draws packet.header (s.packetKey packet src) src
        (stripUnrecognized packet.chunks).1 (Socket.chunksToHandle packet false)
        (stripUnrecognized packet.chunks).2 false := by
  unfold Socket.handlePacket Socket.acceptPacket
  simp only [verdict]
  rfl

/-- A packet is dispatched to its handlers, or it is answered at once. -/
theorem handlePacket_dispatch (s : Socket) (now : Time) (draws : Nat → Draws) (packet : Packet)
    (src : SockAddr) :
    (s.dispatch now draws packet src = none ∧ (Quiet s (s.handlePacket now draws packet src)
      ∨ ∃ flag cookieData rest, (stripUnrecognized packet.chunks).1
        = ⟨flag, .cookieEcho cookieData⟩ :: rest
        ∧ s.handlePacket now draws packet src
          = (s.handleCookieEcho now (draws 0) packet.header cookieData (s.packetKey packet src)
            src).2.2))
    ∨ ∃ s' key carried, s.dispatch now draws packet src = some (s', key, carried)
      ∧ (carried = false ∧ s' = s ∧ key = s.packetKey packet src
        ∨ carried = true ∧ ∃ flag cookieData rest, (stripUnrecognized packet.chunks).1
          = ⟨flag, .cookieEcho cookieData⟩ :: rest
          ∧ s' = (s.handleCookieEcho now (draws 0) packet.header cookieData (s.packetKey packet src)
            src).2.2)
      ∧ s.handlePacket now draws packet src = s'.handleRest now draws packet.header key src
          (stripUnrecognized packet.chunks).1 (Socket.chunksToHandle packet carried)
          (stripUnrecognized packet.chunks).2 carried := by
  unfold Socket.handlePacket Socket.dispatch
  simp only
  cases verdict : s.validateVerificationTag packet (s.packetKey packet src) with
  | discard => exact Or.inl ⟨rfl, Or.inl (.refl s)⟩
  | abortOotb => exact Or.inl ⟨rfl, Or.inl (.reply s _ _ _)⟩
  | abortInit => exact Or.inl ⟨rfl, Or.inl (.reply s _ _ _)⟩
  | shutdownCompleteOotb => exact Or.inl ⟨rfl, Or.inl (.reply s _ _ _)⟩
  | accept =>
    simp only [Socket.acceptPacket]
    by_cases leads : ∃ flag cookieData rest, (stripUnrecognized packet.chunks).1
      = ⟨flag, .cookieEcho cookieData⟩ :: rest
    · obtain ⟨flag, cookieData, rest, chunks⟩ := leads
      simp only [chunks]
      cases outcome : s.handleCookieEcho now (draws 0) packet.header cookieData
        (s.packetKey packet src) src with
      | mk accepted after =>
        obtain ⟨key, s'⟩ := after
        cases accepted with
        | false => exact Or.inl ⟨rfl, Or.inr ⟨flag, cookieData, rest, rfl, by rw [outcome]⟩⟩
        | true =>
          have tail : Socket.chunksToHandle packet true = rest := by
            simp [Socket.chunksToHandle, chunks]
          exact Or.inr ⟨s', key, true, rfl,
            Or.inr ⟨rfl, flag, cookieData, rest, rfl, by rw [outcome]⟩, by rw [tail]⟩
    · refine Or.inr ⟨s, s.packetKey packet src, false, ?_, Or.inl ⟨rfl, rfl, rfl⟩, ?_⟩
      · split
        · next flag cookieData others chunks =>
            exact absurd ⟨flag, cookieData, others, chunks⟩ leads
        · rfl
      · split
        · next flag cookieData others chunks =>
            exact absurd ⟨flag, cookieData, others, chunks⟩ leads
        · rfl

/-- What moves keep, and the ways in that a packet may take, holds once its chunks were
handled and its DATA is next. -/
theorem afterChunks_moves {inv : Socket → Prop} (moves : ∀ s s', Move s s' → inv s → inv s')
    {s s' : Socket} {now : Time} {draws : Nat → Draws} {packet : Packet} {src : SockAddr}
    {key : AssociationKey} {carried : Bool} (doors : PacketDoors inv s now draws packet src)
    (dispatched : s.dispatch now draws packet src = some (s', key, carried)) (start : inv s') :
    inv (s'.afterChunks now draws packet key src carried).2 := by
  have acts : ∀ {s s'}, Acts s s' → inv s → inv s' := fun acts => Acts.keeps moves acts
  refine handleChunks_handed (fun s₁ chunk draws₁ member here => ?_)
    (acts (.quiet (.beforeChunks s' key now packet src)) start)
  obtain ⟨flag, value⟩ := chunk
  cases value with
  | initAck v =>
    rcases handleInitAck_cases s₁ packet.header v key src with moved | ⟨a, cookie, found, waits,
      echoed, accepted⟩
    · exact acts moved here
    · rw [show s₁.handleChunk now draws₁ packet.header key src ⟨flag, .initAck v⟩
        = s₁.handleInitAck packet.header v key src from rfl, accepted]
      exact doors.initAck s' key carried s₁ flag v a cookie dispatched member found waits echoed
        here
  | opError causes =>
    rcases handleError_cases s₁ causes key with moved | ⟨a, staleness, found, outcome, retried⟩
    · exact acts moved here
    · rw [show s₁.handleChunk now draws₁ packet.header key src ⟨flag, .opError causes⟩
        = s₁.handleError causes key from rfl, retried]
      exact doors.retry s' key carried s₁ flag causes a staleness dispatched member found outcome
        here
  | _ => exact acts (Acts.handleChunk s₁ key now draws₁ packet.header src nofun nofun) here

/-- The same for a COOKIE ECHO that leads the packet. -/
theorem cookieEcho_moves {inv : Socket → Prop} (moves : ∀ s s', Move s s' → inv s → inv s')
    {s : Socket} {now : Time} {draws : Nat → Draws} {packet : Packet} {src : SockAddr}
    (doors : PacketDoors inv s now draws packet src) (holds : inv s) {flag : BitVec 8}
    {cookieData : Bytes} {rest : List Chunk}
    (leads : (stripUnrecognized packet.chunks).1 = ⟨flag, .cookieEcho cookieData⟩ :: rest) :
    inv (s.handleCookieEcho now (draws 0) packet.header cookieData (s.packetKey packet src)
      src).2.2 := by
  have acts : ∀ {s s'}, Acts s s' → inv s → inv s' := fun acts => Acts.keeps moves acts
  rcases handleCookieEcho_cases s now (draws 0) packet.header cookieData (s.packetKey packet src)
    src with
    moved | ⟨cookie, s₁, verified, entry, moved⟩ | ⟨cookie, tcb, verified, found, waits, peer, same⟩
  · exact acts moved holds
  · exact acts moved (doors.entry cookieData cookie s₁ verified ⟨flag, rest, leads⟩ entry holds)
  · rw [same]
    exact doors.stuck cookieData cookie tcb _ verified ⟨flag, rest, leads⟩ found waits peer holds

theorem dispatch_moves {inv : Socket → Prop} (moves : ∀ s s', Move s s' → inv s → inv s')
    {s s' : Socket} {now : Time} {draws : Nat → Draws} {packet : Packet} {src : SockAddr}
    {key : AssociationKey} {carried : Bool} (doors : PacketDoors inv s now draws packet src)
    (holds : inv s) (dispatched : s.dispatch now draws packet src = some (s', key, carried)) :
    inv s' := by
  rcases handlePacket_dispatch s now draws packet src with
    ⟨none, -⟩ | ⟨s₁, key₁, carried₁, here, before, -⟩
  · rw [none] at dispatched
    cases dispatched
  · rw [here] at dispatched
    cases dispatched
    rcases before with ⟨-, rfl, -⟩ | ⟨-, flag, cookieData, rest, leads, rfl⟩
    · exact holds
    · exact cookieEcho_moves moves doors holds leads

/-- What moves keep, and the ways in that a packet may take, the packet keeps. -/
theorem handlePacket_moves {inv : Socket → Prop} (moves : ∀ s s', Move s s' → inv s → inv s')
    {s : Socket} {now : Time} {draws : Nat → Draws} {packet : Packet} {src : SockAddr}
    (doors : PacketDoors inv s now draws packet src) (holds : inv s) :
    inv (s.handlePacket now draws packet src) := by
  have acts : ∀ {s s'}, Acts s s' → inv s → inv s' := fun acts => Acts.keeps moves acts
  rcases handlePacket_dispatch s now draws packet src with
    ⟨-, quiet | ⟨flag, cookieData, rest, leads, same⟩⟩ | ⟨s', key, carried, dispatched, -, same⟩
  · exact acts (.quiet quiet) holds
  · rw [same]
    exact cookieEcho_moves moves doors holds leads
  · have handled := afterChunks_moves moves doors dispatched
      (dispatch_moves moves doors holds dispatched)
    rw [same, handleRest_eq]
    cases after : s'.afterChunks now draws packet key src carried with
    | mk stopped s'' =>
      rw [after] at handled
      cases stopped with
      | true => exact handled
      | false =>
        have taken : inv (s''.handleDataPacket now ⟨packet.header,
            (stripUnrecognized packet.chunks).1⟩ key src carried) := by
          rcases handleDataPacket_cases s'' now ⟨packet.header, (stripUnrecognized packet.chunks).1⟩
            key src carried with
            moved | ⟨a, found, receives, same, fine, taken⟩
          · exact acts moved handled
          · rw [same]
            exact doors.data s' key carried s'' a dispatched after found receives fine taken handled
        simp only
        split
        · exact taken
        · exact acts (.quiet (.reportUnrecognizedChunks _ key _ _ _)) taken

/-! ## Steps -/

/-- The timers that went off are handled one by one, those not yet handled last. -/
theorem runExpire_fires {inv : List ExpirationFallback → Socket → Prop} {s : Socket} {now : Time}
    {draws : Nat → Draws} (fire : ∀ fallback due s draws, inv (fallback :: due) s →
      inv due (s.handleExpiration now draws fallback))
    (drained : inv (s.expirations.drainExpired now).1
      { s with expirations := (s.expirations.drainExpired now).2 }) :
    inv [] (s.runExpire now draws) := by
  unfold Socket.runExpire
  simp only
  revert drained
  generalize ({ s with expirations := (s.expirations.drainExpired now).2 } : Socket) = s'
  generalize (s.expirations.drainExpired now).1 = expired
  generalize 0 = i
  induction expired generalizing s' i with
  | nil => exact id
  | cons fallback rest ih =>
    intro holds
    rw [List.zipIdx_cons, List.foldl_cons]
    exact ih _ _ (fire fallback rest s' (draws i) holds)

/-- The same for what does not depend on the timers. -/
theorem runExpire_moves {inv : Socket → Prop} (moves : ∀ s s', Move s s' → inv s → inv s')
    {s : Socket} {now : Time} {draws : Nat → Draws}
    (drained : inv { s with expirations := (s.expirations.drainExpired now).2 }) :
    inv (s.runExpire now draws) :=
  @runExpire_fires (fun _ => inv) s now draws
    (fun fallback _ s draws => Acts.keeps moves (.handleExpiration s now draws fallback)) drained

/-- What moves keep, and the ways in that an event may take, a step keeps. -/
theorem System.step_moves {inv : Socket → Prop} (moves : ∀ s s', Move s s' → inv s → inv s')
    {σ σ' : System} {event : Event} (stepped : σ.step event = some σ')
    (recv : ∀ now draws packet src, event = .recv now draws packet src →
      PacketDoors inv σ.socket now draws packet src)
    (expire : ∀ now draws, event = .expire now draws → inv σ.socket →
      inv (σ.socket.runExpire now draws))
    (associate : ∀ draws toAddress port, event = .associate draws toAddress port → inv σ.socket →
      inv (σ.socket.sctpAssociate draws toAddress port).2)
    (holds : inv σ.socket) : inv σ'.socket := by
  rcases System.step_cases stepped with ⟨now, draws, packet, src, here, -, rfl⟩ | ⟨now, draws,
    here, -, rfl⟩ | ⟨-, -, rfl⟩
    | ⟨now, accepted, left, -, -, rfl⟩ | ⟨s, called, rfl⟩
  · exact handlePacket_moves moves (recv now draws packet src here) holds
  · exact expire now draws here holds
  · exact Acts.keeps moves (.quiet (.startTransmissionOpportunity σ.socket)) holds
  · exact Acts.keeps moves (.sendOne σ now accepted left) holds
  · by_cases opening : ∃ draws toAddress port, event = .associate draws toAddress port
    · obtain ⟨draws, toAddress, port, rfl⟩ := opening
      cases called
      exact associate draws toAddress port rfl holds
    · refine Acts.keeps moves (.call σ.socket called fun draws toAddress port same => ?_) holds
      exact opening ⟨draws, toAddress, port, same⟩

end SctpStack
