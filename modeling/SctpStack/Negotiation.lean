import SctpStack.CookieLife
import SctpStack.Terms

/-!
# Stream counts

An association sends on the streams its peer takes and takes the streams its peer sends
on, as the INIT or INIT ACK with the peer's tag offered them. A cookie that settles a
collision brings a new tag and leaves the counts as they were: that is the one way up by
which they are not those of the offer (`streams_negotiated`).
-/

namespace SctpStack

/-- The counts are those of an offer that came with the peer's tag. -/
structure Agreed (offer : InitChunkValue) (terms : Terms) : Prop where
  tag : offer.initiateTag = terms.peerVerTag
  outStreams : terms.outStreams = minStreams localOutStreams offer.inStreams
  inStreams : terms.inStreams = minStreams localMaxInStreams offer.outStreams

/-- Every association keeps an SSN for each of its streams, and past COOKIE-WAIT its counts
are those of an offer that was heard. -/
structure Negotiated (heard : List InitChunkValue) (s : Socket) : Prop where
  ssns : ∀ key a, s.find? key = some a → a.terms.ssns = a.terms.outStreams.toNat
  agreed : ∀ key a, s.find? key = some a → a.state ≠ .cookieWait →
    ∃ offer ∈ heard, Agreed offer a.terms

/-! ## What was offered -/

/-- The offers of a packet: its INITs and INIT ACKs. -/
def Packet.offers (packet : Packet) : List InitChunkValue :=
  packet.chunks.filterMap fun chunk =>
    match chunk.value with
    | .init offer | .initAck offer => some offer
    | _ => none

def Event.offers : Event → List InitChunkValue
  | .recv _ _ packet _ => packet.offers
  | _ => []

/-- A socket with the offers it has heard. -/
structure Told where
  system : System
  heard : List InitChunkValue

namespace Told

def Initial (τ : Told) : Prop := τ.system.Initial ∧ τ.heard = []

def step (τ : Told) (event : Event) : Option Told :=
  (τ.system.step event).map fun σ => ⟨σ, τ.heard ++ event.offers⟩

/-- The bytes are a cookie that `generate` returned for an INIT that was heard. -/
def Made (τ : Told) (cookieData : Bytes) : Prop :=
  ∃ auth now secret request, request.init ∈ τ.heard
    ∧ cookieData = (Ledger.generated auth now secret request).2

end Told

/-- A cookie that settles a collision offers the counts the association has. -/
def Socket.collidesAlike (s : Socket) (cookie : StateCookie) : Bool :=
  match s.find? (s.associationKeyFor (cookieKey cookie)) with
  | none => true
  | some tcb =>
    decide (cookie.localVerTag ≠ tcb.thisVerTag) || decide (cookie.peerVerTag = tcb.peerVerTag)
      || decide (tcb.outStreams = minStreams localOutStreams cookie.peerInStreams
        ∧ tcb.inStreams = minStreams localMaxInStreams cookie.peerOutStreams)

/-- Cookies that verify are not forged, and those that settle a collision change no count. -/
def Told.SettlesAlike (τ : Told) : Event → Prop
  | .recv now _ packet src => ∀ flag cookieData rest cookie,
    (stripUnrecognized packet.chunks).1 = ⟨flag, .cookieEcho cookieData⟩ :: rest →
    τ.system.socket.cookieAuthorizer.verify now cookieData packet.header src = .valid cookie →
    τ.Made cookieData ∧ τ.system.socket.collidesAlike cookie = true
  | _ => True

/-! ## What a cookie carries -/

/-- A cookie that verifies is what its bytes are decoded to. -/
theorem decoded_of_valid {auth : CookieAuth} {now : Time} {cookieData : Bytes}
    {header : CommonHeader} {src : SockAddr} {cookie : StateCookie}
    (verified : auth.verify now cookieData header src = .valid cookie) :
    deserializeStateCookie cookieData = some cookie := by
  rcases verify_cases auth now cookieData header src with ⟨-, result⟩ | ⟨out, read,
    ⟨-, result⟩ | ⟨secret, -, ⟨-, result⟩ | ⟨-, result⟩⟩⟩
  · rw [result] at verified
    cases verified
  · rw [result] at verified
    cases verified
  · rw [result] at verified
    cases verified
  · rw [result] at verified
    unfold judged at verified
    split at verified
    · cases verified
    · split at verified
      · cases verified
      · split at verified
        · cases verified
        · cases verified
          exact read

theorem sign_body (key : Bytes) (cookie : StateCookie) :
    ∃ rest, CookieAuth.sign key cookie = stateCookieBody cookie ++ rest := by
  unfold CookieAuth.sign serializeStateCookie
  simp only [List.append_assoc]
  exact ⟨_, rfl⟩

/-- `generate` signs the cookie for the request. -/
theorem generated_body (auth : CookieAuth) (now : Time) (secret : Bytes) (request : CookieRequest) :
    ∃ maker rest, (Ledger.generated auth now secret request).2
      = stateCookieBody (request.cookie maker now) ++ rest := by
  obtain ⟨rest, layout⟩ := sign_body (auth.rotateIfDue now secret).current
    (request.cookie (auth.rotateIfDue now secret) now)
  exact ⟨_, rest, layout⟩

/-- A cookie of this socket's making carries the socket's own counts, and the tag and the
counts of an INIT that was heard. -/
theorem Told.Made.offer {τ : Told} {auth : CookieAuth} {now : Time} {cookieData : Bytes}
    {header : CommonHeader} {src : SockAddr} {cookie : StateCookie} (made : τ.Made cookieData)
    (verified : auth.verify now cookieData header src = .valid cookie) :
    (cookie.localOutStreams = localOutStreams ∧ cookie.localInStreams = localMaxInStreams)
    ∧ ∃ init ∈ τ.heard, init.initiateTag = cookie.peerVerTag
    ∧ init.outStreams = cookie.peerOutStreams
      ∧ init.inStreams = cookie.peerInStreams := by
  obtain ⟨auth, made, secret, request, member, same⟩ := made
  obtain ⟨maker, rest, layout⟩ := generated_body auth made secret request
  have read := decoded_of_valid verified
  rw [same, layout] at read
  have carried := decoded_stateCookieBody read
  exact ⟨⟨congrArg StateCookie.localOutStreams carried,
    congrArg StateCookie.localInStreams carried⟩, request.init, member,
    (congrArg StateCookie.peerVerTag carried).symm,
    (congrArg StateCookie.peerOutStreams carried).symm,
    (congrArg StateCookie.peerInStreams carried).symm⟩

/-! ## Moves and the ways in -/

section Keeps

variable {heard : List InitChunkValue} {s s' : Socket}

theorem Negotiated.lasting {R : AssociationKey → Association → Association → Prop}
    (negotiated : Negotiated heard s) (lasting : Lasting R s s')
    (stays : ∀ k a b, R k a b → b.terms = a.terms
      ∧ (a.state = .cookieWait → b.state = .cookieWait)) : Negotiated heard s' where
  ssns := by
    intro k b found
    obtain ⟨a, before, related⟩ := lasting.before found
    rw [(stays k a b related).1]
    exact negotiated.ssns k a before
  agreed := by
    intro k b found up
    obtain ⟨a, before, related⟩ := lasting.before found
    obtain ⟨terms, waits⟩ := stays k a b related
    rw [terms]
    exact negotiated.agreed k a before fun waiting => up (waits waiting)

theorem Negotiated.gone {key : AssociationKey} (negotiated : Negotiated heard s)
    (gone : Gone key s s') :
    Negotiated heard s' where
  ssns := by
    intro k a found
    rw [gone.find?] at found
    split at found
    · cases found
    · exact negotiated.ssns k a found
  agreed := by
    intro k a found
    rw [gone.find?] at found
    split at found
    · cases found
    · exact negotiated.agreed k a found

theorem Negotiated.move (negotiated : Negotiated heard s) (move : Move s s') :
    Negotiated heard s' := by
  have stays : ∀ (k : AssociationKey) (a b : Association), Stays a b →
      b.terms = a.terms ∧ (a.state = .cookieWait → b.state = .cookieWait) := fun _ _ _ stays =>
        ⟨stays.terms, stays.waits⟩
  rcases move.kept with kept | ⟨key, s₁, gone, kept⟩
  · exact negotiated.lasting kept stays
  · exact (negotiated.gone gone).lasting kept stays

/-- One association is entered, on terms that were offered. -/
theorem Negotiated.entered (negotiated : Negotiated heard s) (key : AssociationKey)
    (others : ∀ k, k ≠ key → s'.find? k = s.find? k)
    (here : ∀ a, s'.find? key = some a → a.terms.ssns = a.terms.outStreams.toNat
      ∧ (a.state ≠ .cookieWait → ∃ offer ∈ heard, Agreed offer a.terms)) : Negotiated heard s' where
  ssns := by
    intro k a found
    by_cases mine : k = key
    · rw [mine] at found
      exact (here a found).1
    · rw [others k mine] at found
      exact negotiated.ssns k a found
  agreed := by
    intro k a found
    by_cases mine : k = key
    · rw [mine] at found
      exact (here a found).2
    · rw [others k mine] at found
      exact negotiated.agreed k a found

end Keeps

/-- The terms of an association with more addresses. -/
theorem terms_withPaths (a : Association) (addresses : List SockAddr) :
    (withPaths a addresses).terms = { a.terms with ips := (withPaths a addresses).ips } := by
  rw [withPaths_only]
  rfl

theorem agreed_fromCookie {heard : List InitChunkValue} {cookie : StateCookie}
    (localCounts : cookie.localOutStreams = localOutStreams ∧ cookie.localInStreams
      = localMaxInStreams)
    {init : InitChunkValue} (tag : init.initiateTag = cookie.peerVerTag)
      (outStreams : init.outStreams = cookie.peerOutStreams)
    (inStreams : init.inStreams = cookie.peerInStreams) (member : init ∈ heard) :
    (withPaths (initNewAssociationFromCookie cookie) (cookieAddresses cookie)).terms.ssns
        = (withPaths (initNewAssociationFromCookie cookie)
        (cookieAddresses cookie)).terms.outStreams.toNat
    ∧ ∃ offer ∈ heard, Agreed offer
      (withPaths (initNewAssociationFromCookie cookie) (cookieAddresses cookie)).terms := by
  rw [terms_withPaths]
  refine ⟨List.length_replicate, init, member, tag, ?_, ?_⟩
  · rw [inStreams, ← localCounts.1]
    rfl
  · rw [outStreams, ← localCounts.2]
    rfl

theorem Negotiated.entry {τ : Told} {heard : List InitChunkValue} (sub : τ.heard ⊆ heard)
    {s₁ : Socket} {cookie : StateCookie} (negotiated : Negotiated heard τ.system.socket)
    (entry : CookieEntry τ.system.socket (τ.system.socket.associationKeyFor (cookieKey cookie))
      cookie s₁)
    (localCounts : cookie.localOutStreams = localOutStreams ∧ cookie.localInStreams
      = localMaxInStreams)
    {init : InitChunkValue} (member : init ∈ τ.heard) (tag : init.initiateTag = cookie.peerVerTag)
    (outStreams : init.outStreams = cookie.peerOutStreams)
    (inStreams : init.inStreams = cookie.peerInStreams)
    (alike : τ.system.socket.collidesAlike cookie = true) : Negotiated heard s₁ := by
  have fresh := agreed_fromCookie localCounts tag outStreams inStreams (sub member)
  unfold Socket.collidesAlike at alike
  generalize τ.system.socket.associationKeyFor (cookieKey cookie) = key at entry alike
  refine negotiated.entered key entry.up.1 fun a found => ?_
  cases entry with
  | created absent =>
    rw [find?_createdFrom, if_pos rfl] at found
    cases found
    exact ⟨fresh.1, fun _ => fresh.2⟩
  | restarted tcb was =>
    rw [Socket.restartedFrom, find?_createdFrom, if_pos rfl] at found
    cases found
    exact ⟨fresh.1, fun _ => fresh.2⟩
  | collided tcb was local_ peer =>
    rw [find?_collidedWith was, if_pos rfl] at found
    have terms : a.terms = { tcb.terms with peerVerTag := cookie.peerVerTag, ips := a.ips } := by
      have kept := terms_withPaths tcb (cookieAddresses cookie)
      cases found
      split
      · exact (congrArg (fun t => { t with peerVerTag := cookie.peerVerTag }) kept :)
      · exact (congrArg (fun t => { t with peerVerTag := cookie.peerVerTag }) kept :)
    rw [was] at alike
    simp only [local_, peer, ne_eq, not_true, decide_false, Bool.false_or, decide_eq_true_eq]
      at alike
    rw [terms]
    refine ⟨negotiated.ssns key tcb was, fun _ => ⟨init, sub member, tag, ?_, ?_⟩⟩
    · rw [inStreams]
      exact alike.1
    · rw [outStreams]
      exact alike.2

theorem Negotiated.initAck {heard : List InitChunkValue} {s : Socket} {key : AssociationKey}
    {a : Association} (negotiated : Negotiated heard s) (found : s.find? key = some a)
    (header : CommonHeader) {initAck : InitChunkValue} (member : initAck ∈ heard) (src : SockAddr)
    (cookie : Bytes) :
    Negotiated heard (s.acceptInitAck header initAck key src cookie) := by
  obtain ⟨s₁, destination, errors, same, after, -⟩ :=
    acceptInitAck_eq found header initAck src cookie
  rw [same]
  refine negotiated.entered key (fun k apart => (after k).trans (if_neg apart)) fun b here => ?_
  have here : s₁.find? key = some b := here
  rw [after, if_pos rfl] at here
  cases here
  exact ⟨List.length_replicate, fun _ => ⟨initAck, member, rfl, rfl, rfl⟩⟩

theorem Negotiated.associate {heard : List InitChunkValue} {s : Socket}
    (negotiated : Negotiated heard s) (draws : Draws) (toAddress : SockAddr) (port : Port) :
    Negotiated heard (s.sctpAssociate draws toAddress port).2 := by
  unfold Socket.sctpAssociate
  split
  · exact negotiated
  · simp only
    split
    · exact negotiated
    · have found : ∀ k, (s.associations.emplace (peerKey toAddress port)
        (initNewAssociation draws toAddress)).get? k
          = if k = peerKey toAddress port
            then some ((s.find? (peerKey toAddress port)).getD (initNewAssociation draws toAddress))
            else s.find? k :=
        fun k => KeyMap.get?_emplace s.associations _ k _
      refine negotiated.entered (peerKey toAddress port)
        (fun k apart => (found k).trans (if_neg apart)) fun a here => ?_
      have here : (s.associations.emplace (peerKey toAddress port)
          (initNewAssociation draws toAddress)).get?
        (peerKey toAddress port) = some a := here
      rw [found, if_pos rfl] at here
      cases was : s.find? (peerKey toAddress port) with
      | none =>
        rw [was] at here
        cases here
        exact ⟨List.length_replicate, fun up => absurd rfl up⟩
      | some b =>
        rw [was] at here
        cases here
        exact ⟨negotiated.ssns _ b was, negotiated.agreed _ b was⟩

theorem mem_offers {packet : Packet} {flag : BitVec 8} {initAck : InitChunkValue}
    (member : ⟨flag, .initAck initAck⟩ ∈ packet.chunks) : initAck ∈ packet.offers :=
  List.mem_filterMap.mpr ⟨_, member, rfl⟩

theorem Negotiated.step {τ : Told} {σ' : System} {event : Event}
    (stepped : τ.system.step event = some σ') (alike : τ.SettlesAlike event)
    (negotiated : Negotiated τ.heard τ.system.socket) :
    Negotiated (τ.heard ++ event.offers) σ'.socket := by
  have more : Negotiated (τ.heard ++ event.offers) τ.system.socket := by
    refine ⟨negotiated.ssns, fun k a found up => ?_⟩
    obtain ⟨offer, member, agreed⟩ := negotiated.agreed k a found up
    exact ⟨offer, List.mem_append_left _ member, agreed⟩
  refine System.step_moves (fun _ _ move negotiated => negotiated.move move) stepped
    (fun now draws packet src here => ?_) (fun now draws _ negotiated => ?_)
    (fun draws toAddress port _ negotiated => negotiated.associate draws toAddress port) more
  · rw [here] at alike ⊢
    refine ⟨?_, ?_, ?_, ?_, ?_⟩
    · rintro cookieData cookie s₁ verified ⟨flag, rest, leads⟩ entry negotiated
      obtain ⟨made, same⟩ := alike flag cookieData rest cookie leads verified
      obtain ⟨localCounts, init, member, tag, outStreams, inStreams⟩ := made.offer verified
      exact negotiated.entry (List.subset_append_left _ _) entry localCounts member tag outStreams
        inStreams same
    · intro cookieData cookie tcb destination _ _ _ _ _ negotiated
      exact ⟨negotiated.ssns, negotiated.agreed⟩
    · intro s' key carried s₁ flag initAck a cookie _ member found _ _ negotiated
      exact negotiated.initAck found packet.header
        (List.mem_append_right _ (mem_offers (mem_handed member))) src cookie
    · intro s' key carried s₁ flag causes a staleness _ _ found _ negotiated
      refine negotiated.entered key (fun k apart =>
        (Socket.find?_setAssociation s₁ key k _).trans (if_neg apart))
        fun b here => ?_
      have after := (Socket.find?_setAssociation s₁ key key _).symm.trans here
      rw [if_pos rfl] at after
      cases after
      exact ⟨negotiated.ssns key a found, fun up => absurd rfl up⟩
    · intro s' key carried s'' a _ _ _ _ _ taken negotiated
      refine negotiated.lasting taken.lasting fun k a b related =>
        ⟨congrArg Essence.terms related.essence, fun waits => ?_⟩
      exact (congrArg Essence.state related.essence).trans waits
  · exact runExpire_moves (fun _ _ move negotiated => negotiated.move move) ⟨negotiated.ssns,
      negotiated.agreed⟩

/-! ## Runs -/

/-- The ULP sends on the streams there are. -/
theorem stream_lt_of_accepted {s : Socket} {key : AssociationKey} {a : Association}
    (found : s.find? key = some a) {data : Bytes} {stream : StreamId} {unordered : Bool}
    (ok : (s.sctpSendData key data stream unordered).1 = .ok) :
    stream.toNat < a.outStreams.toNat := by
  have accepted : sendStatus a data stream = .ok := by
    simp only [Socket.sctpSendData, found] at ok
    by_contra refused
    rw [if_neg refused] at ok
    exact refused ok
  by_contra beyond
  unfold sendStatus at accepted
  split at accepted
  · unfold refusalIn at accepted
    split at accepted <;> cases accepted
  · rw [if_pos (Nat.not_lt.mp beyond)] at accepted
    split at accepted <;> cases accepted

/-- In every run in which no cookie is forged and the cookies that settle a collision offer
the counts the association has: the counts of an association that is up are those of an
offer that came with its peer's tag, with an SSN for each stream, and the ULP sends on no
stream beyond them. -/
theorem streams_negotiated {τ : Told}
    (reached : Run.Reach Told.step Told.Initial Told.SettlesAlike τ) {key : AssociationKey}
    {a : Association} (found : τ.system.socket.find? key = some a) (up : forming a.state = false) :
    ∃ offer ∈ τ.heard, offer.initiateTag = a.peerVerTag
      ∧ a.outStreams = minStreams localOutStreams offer.inStreams
      ∧ a.inStreams = minStreams localMaxInStreams offer.outStreams
      ∧ a.nextSsn.length = a.outStreams.toNat
      ∧ ∀ data stream unordered, (τ.system.socket.sctpSendData key data stream unordered).1 = .ok →
        stream.toNat < offer.inStreams.toNat := by
  have negotiated : Negotiated τ.heard τ.system.socket := by
    refine reached.invariant (fun τ => Negotiated τ.heard τ.system.socket) ?_ ?_
    · rintro τ ⟨⟨address, same⟩, -⟩
      rw [same]
      refine ⟨fun key a found => ?_, fun key a found => ?_⟩
      · cases found
      · cases found
    · intro τ event τ' negotiated alike stepped
      obtain ⟨σ', taken, rfl⟩ := Option.map_eq_some_iff.mp stepped
      exact negotiated.step taken alike
  have waits : a.state ≠ .cookieWait := by
    intro waits
    rw [waits] at up
    cases up
  obtain ⟨offer, member, agreed⟩ := negotiated.agreed key a found waits
  have counts : a.outStreams = minStreams localOutStreams offer.inStreams := agreed.outStreams
  refine ⟨offer, member, agreed.tag, counts, agreed.inStreams, negotiated.ssns key a found,
    fun data stream unordered ok => ?_⟩
  have below := stream_lt_of_accepted found ok
  have smaller : (minStreams localOutStreams offer.inStreams).toNat ≤ offer.inStreams.toNat := by
    unfold minStreams
    split
    · exact Nat.le_refl _
    · next least => exact Nat.not_lt.mp least
  rw [counts] at below
  exact Nat.lt_of_lt_of_le below smaller

namespace Opened

def told : Told := ⟨start, []⟩

/-- The INIT of a peer with tag 7. -/
def initOf (outStreams inStreams : BitVec 16) : InitChunkValue :=
  ⟨7#32, 65535#32, outStreams, inStreams, 100#32, []⟩

/-- What a socket that waits for an INIT ACK answers an INIT with. -/
def collisionRequest (init : InitChunkValue) : CookieRequest :=
  ⟨⟨5000#16, 5000#16, 0#32⟩, init, peer, draws.tag, draws.tsn, 0#32, 0#32, 0#32, []⟩

def collisionCookie (init : InitChunkValue) : Bytes :=
  (Ledger.generated .fresh 0 draws.secret (collisionRequest init)).2

/-- Both ends open the association, and the peer's COOKIE ECHO comes first. -/
def collision (init : InitChunkValue) : List Event :=
  [.associate draws peer 5000#16, .recv 0 (fun _ => draws)
    ⟨⟨5000#16, 5000#16, 0#32⟩, [⟨0#8, .init init⟩]⟩ peer,
    arrives [⟨0#8, .cookieEcho (collisionCookie init)⟩]]

/-- Only that cookie is echoed, once its INIT was heard, and it changes no count. -/
def echoesOnly (init : InitChunkValue) (τ : Told) : Event → Bool
  | .recv now _ packet src =>
    match (stripUnrecognized packet.chunks).1 with
    | ⟨_, .cookieEcho cookieData⟩ :: _ =>
      match τ.system.socket.cookieAuthorizer.verify now cookieData packet.header src with
      | .valid cookie =>
        decide (init ∈ τ.heard) && decide (cookieData = collisionCookie init)
          && τ.system.socket.collidesAlike cookie
      | _ => true
    | _ => true
  | _ => true

theorem settlesAlike_of_echoesOnly {init : InitChunkValue} {τ : Told} {event : Event}
    (only : echoesOnly init τ event = true) : τ.SettlesAlike event := by
  cases event with
  | recv now draws packet src =>
    intro flag cookieData rest cookie leads verified
    simp only [echoesOnly, leads, verified, Bool.and_eq_true, decide_eq_true_eq] at only
    obtain ⟨⟨member, same⟩, alike⟩ := only
    exact ⟨⟨_, _, _, collisionRequest init, member, same⟩, alike⟩
  | _ => exact trivial

end Opened

/-- A collision is settled by the cookie of a peer that takes as many streams as there are:
the association is up on its terms. -/
theorem opened_negotiated : ∃ τ a, Run.Reach Told.step Told.Initial Told.SettlesAlike τ
    ∧ τ.system.socket.find? Opened.key = some a ∧ forming a.state = false
    ∧ τ.heard = [Opened.initOf 65535#16 10#16]
    ∧ ∃ offer ∈ τ.heard, offer.initiateTag = a.peerVerTag
    ∧ a.outStreams = minStreams localOutStreams offer.inStreams := by
  have sound : ∀ τ event, Opened.echoesOnly (Opened.initOf 65535#16 10#16) τ event = true →
      τ.SettlesAlike event :=
    fun _ _ => Opened.settlesAlike_of_echoesOnly
  obtain ⟨τ, reached, ends⟩ := Run.Reach.exists_replayWhile
    (.start ⟨⟨Opened.own, rfl⟩, rfl⟩ : Run.Reach Told.step Told.Initial Told.SettlesAlike
      Opened.told)
    (Opened.collision (Opened.initOf 65535#16 10#16)) sound
    (p := fun τ => τ.heard == [Opened.initOf 65535#16 10#16]
      && (τ.system.socket.find? Opened.key).any fun a => !forming a.state) (by decide +kernel)
  rw [Bool.and_eq_true, beq_iff_eq] at ends
  obtain ⟨heard, ends⟩ := ends
  obtain ⟨a, found, up⟩ := (Option.any_eq_true _ _).mp ends
  rw [Bool.not_eq_true'] at up
  obtain ⟨offer, member, tag, counts, -⟩ := streams_negotiated reached found up
  exact ⟨τ, a, reached, found, up, heard, offer, member, tag, counts⟩

/-- A collision is settled by the cookie of a peer that takes one stream: the association
is up with ten. -/
theorem collision_keeps_counts : ∃ τ a, Run.Reach Told.step Told.Initial (fun _ _ => True) τ
    ∧ τ.system.socket.find? Opened.key = some a ∧ a.state = .established
    ∧ ¬∃ offer ∈ τ.heard, offer.initiateTag = a.peerVerTag ∧ a.outStreams
      = minStreams localOutStreams offer.inStreams := by
  obtain ⟨τ, reached, ends⟩ := Run.Reach.exists_replay
    (.start ⟨⟨Opened.own, rfl⟩, rfl⟩ : Run.Reach Told.step Told.Initial (fun _ _ => True)
      Opened.told)
    (Opened.collision (Opened.initOf 1#16 1#16))
    (fun _ _ => trivial)
    (p := fun τ => (τ.system.socket.find? Opened.key).any fun a => a.state == .established
      && !τ.heard.any fun offer => offer.initiateTag == a.peerVerTag
        && a.outStreams == minStreams localOutStreams offer.inStreams) (by decide +kernel)
  obtain ⟨a, found, both⟩ := (Option.any_eq_true _ _).mp ends
  rw [Bool.and_eq_true, Bool.not_eq_true', List.any_eq_false] at both
  obtain ⟨state, none⟩ := both
  refine ⟨τ, a, reached, found, beq_iff_eq.mp state, ?_⟩
  rintro ⟨offer, member, tag, counts⟩
  refine none offer member ?_
  rw [beq_iff_eq.mpr tag, beq_iff_eq.mpr counts]
  rfl

end SctpStack
