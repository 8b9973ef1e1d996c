import SctpStack.Terms

/-!
# Finding associations by address

A packet is given to the association that its source address leads to: the one keyed on
it, or the one it is an alias of. An association lists an address that leads elsewhere as
soon as an INIT ACK or a cookie names an address of another association, and only then
(`addresses_lead_home`).
-/

namespace SctpStack

/-- Every address leads to the association that lists it, and every alias is listed by the
association it leads to. -/
structure AddressIndex (s : Socket) : Prop where
  listed : ∀ key a, s.find? key = some a →
    ∀ ip ∈ a.ips, s.associationKeyFor ⟨⟨ip, key.address.port⟩⟩ = key
  aliased : ∀ address owner, s.peerAddresses.get? address = some owner →
    address.address.port = owner.address.port ∧ ∃ a, s.find? owner = some a ∧ address.address.addr
      ∈ a.ips

/-- An address leads to an association other than that of `key`. -/
def Socket.ownedElsewhere (s : Socket) (key : AssociationKey) (address : SockAddr) : Bool :=
  let owner := s.associationKeyFor (peerKey address key.address.port)
  s.associations.contains owner && decide (owner ≠ key)

/-- A cookie makes, restarts or settles the association of `key`, which takes its addresses. -/
def Socket.entersBy (s : Socket) (key : AssociationKey) (cookie : StateCookie) : Bool :=
  match s.find? key with
  | none => true
  | some tcb =>
    if cookie.localVerTag = tcb.thisVerTag then decide (cookie.peerVerTag ≠ tcb.peerVerTag)
    else
      decide (cookie.peerVerTag ≠ tcb.peerVerTag ∧ cookie.localTieTag ≠ 0#32 ∧ cookie.localTieTag
        = tcb.localTieTag
        ∧ cookie.peerTieTag = tcb.peerTieTag ∧ tcb.state ≠ .shutdownAckSent)

/-- No cookie that is accepted names an address of another association... -/
def Socket.cookieApart (s : Socket) (now : Time) (packet : Packet) (src : SockAddr) : Bool :=
  match (stripUnrecognized packet.chunks).1 with
  | ⟨_, .cookieEcho cookieData⟩ :: _ =>
    match s.cookieAuthorizer.verify now cookieData packet.header src with
    | .valid cookie =>
      let key := s.associationKeyFor (cookieKey cookie)
      !s.entersBy key cookie || (cookieAddresses cookie).all fun address =>
        !s.ownedElsewhere key address
    | _ => true
  | _ => true

/-- ...and no INIT ACK does. -/
def Socket.initAckApart (s : Socket) (key : AssociationKey) (src : SockAddr) (chunk : Chunk) :
    Bool :=
  match chunk.value with
  | .initAck initAck =>
    !(s.find? key).any (fun a => a.state == .cookieWait) || (echoedCookie initAck).isNone
      || (transportAddresses src (scanInitAck initAck).recognized).all fun address =>
        !s.ownedElsewhere key address
  | _ => true

/-- What is received names no address of another association where addresses are taken. -/
def System.namesNoOther (σ : System) : Event → Bool
  | .recv now draws packet src =>
    σ.socket.cookieApart now packet src
      && match σ.socket.dispatch now draws packet src with
        | none => true
        | some (s, key, carried) => (s.handed now draws packet key src carried).all
            fun (s, chunk) => s.initAckApart key src chunk
  | _ => true

/-! ## What the index depends on -/

theorem associationKeyFor_eq (s : Socket) (peer : AssociationKey) :
    s.associationKeyFor peer = if (s.find? peer).isSome then peer
      else (s.peerAddresses.get? peer).getD peer := rfl

section Keeps

variable {s s' : Socket} {key : AssociationKey}

theorem associationKeyFor_congr (found : ∀ k, (s'.find? k).isSome = (s.find? k).isSome)
    (owners : s'.peerAddresses = s.peerAddresses) (peer : AssociationKey) :
    s'.associationKeyFor peer = s.associationKeyFor peer := by
  rw [associationKeyFor_eq, associationKeyFor_eq, found, owners]

/-- The index depends on the addresses of each association alone. -/
theorem AddressIndex.congr (index : AddressIndex s) (owners : s'.peerAddresses = s.peerAddresses)
    (ips : ∀ k, (s'.find? k).map Association.ips = (s.find? k).map Association.ips) :
    AddressIndex s' := by
  have found : ∀ k, (s'.find? k).isSome = (s.find? k).isSome := by
    intro k
    have same := congrArg Option.isSome (ips k)
    rwa [Option.isSome_map, Option.isSome_map] at same
  refine ⟨fun k b after ip member => ?_, fun address owner leads => ?_⟩
  · have same := ips k
    rw [after, Option.map_some] at same
    obtain ⟨a, before, listed⟩ := Option.map_eq_some_iff.mp same.symm
    rw [associationKeyFor_congr found owners]
    rw [← listed] at member
    exact index.listed k a before ip member
  · rw [owners] at leads
    obtain ⟨port, a, before, member⟩ := index.aliased address owner leads
    have same := ips owner
    rw [before, Option.map_some] at same
    obtain ⟨b, after, listed⟩ := Option.map_eq_some_iff.mp same
    refine ⟨port, b, after, ?_⟩
    rw [listed]
    exact member

theorem AddressIndex.lasting {R : AssociationKey → Association → Association → Prop}
    (index : AddressIndex s) (lasting : Lasting R s s') (ips : ∀ k a b, R k a b → b.ips = a.ips) :
    AddressIndex s' := by
  refine index.congr lasting.peerAddresses fun k => ?_
  cases here : s.find? k with
  | none => rw [lasting.absent k here]
  | some a =>
    obtain ⟨b, after, related⟩ := lasting.present k a here
    rw [after, Option.map_some, Option.map_some, ips k a b related]

/-- An alias is no key of its own. -/
theorem AddressIndex.alias_leads (index : AddressIndex s) {address owner : AssociationKey}
    (leads : s.peerAddresses.get? address = some owner) : s.associationKeyFor address = owner := by
  obtain ⟨port, a, found, member⟩ := index.aliased address owner leads
  have home := index.listed owner a found address.address.addr member
  rwa [← port] at home

/-- An association is found by its key, or by an alias that is no key. -/
theorem AddressIndex.leads_by (index : AddressIndex s) {a : Association}
    (found : s.find? key = some a) {ip : BitVec 32} (member : ip ∈ a.ips) :
    (⟨⟨ip, key.address.port⟩⟩ : AssociationKey) = key
      ∨ s.find? ⟨⟨ip, key.address.port⟩⟩ = none ∧ s.peerAddresses.get? ⟨⟨ip, key.address.port⟩⟩
        = some key := by
  have home := index.listed key a found ip member
  rw [associationKeyFor_eq] at home
  cases here : s.find? ⟨⟨ip, key.address.port⟩⟩ with
  | some b =>
    rw [here] at home
    exact Or.inl home
  | none =>
    rw [here] at home
    cases leads : s.peerAddresses.get? ⟨⟨ip, key.address.port⟩⟩ with
    | none =>
      rw [leads] at home
      exact Or.inl home
    | some owner =>
      rw [leads] at home
      exact Or.inr ⟨rfl, congrArg some home⟩

theorem associationKeyFor_self {a : Association} (found : s.find? key = some a) :
    s.associationKeyFor key = key := by
  rw [associationKeyFor_eq, found]
  rfl

theorem associationKeyFor_alias {peer : AssociationKey} (none : s.find? peer = none)
    (leads : s.peerAddresses.get? peer = some key) : s.associationKeyFor peer = key := by
  rw [associationKeyFor_eq, none, leads]
  rfl

theorem get?_forgetPeerAddresses (s : Socket) (key address : AssociationKey) :
    (s.forgetPeerAddresses key).peerAddresses.get? address
      = (s.peerAddresses.get? address).bind fun owner =>
        if owner = key then none else some owner := by
  simp [Socket.forgetPeerAddresses]

theorem AddressIndex.gone (index : AddressIndex s) (gone : Gone key s s') : AddressIndex s' := by
  refine ⟨fun k a after ip member => ?_, fun address owner leads => ?_⟩
  · rw [gone.find?] at after
    split at after
    · cases after
    · next apart =>
      have live : s'.find? k = some a := by rw [gone.find?, if_neg apart, after]
      rcases index.leads_by after member with self | ⟨none, leads⟩
      · rw [self]
        exact associationKeyFor_self live
      · refine associationKeyFor_alias ?_ ?_
        · rw [gone.find?]
          split
          · rfl
          · exact none
        · rw [gone.peerAddresses, get?_forgetPeerAddresses, leads]
          exact if_neg apart
  · rw [gone.peerAddresses, get?_forgetPeerAddresses] at leads
    obtain ⟨other, before, kept⟩ := Option.bind_eq_some_iff.mp leads
    split at kept
    · cases kept
    · next apart =>
      cases kept
      obtain ⟨port, a, found, member⟩ := index.aliased address owner before
      exact ⟨port, a, by rw [gone.find?, if_neg apart]; exact found, member⟩

/-! ## Addresses taken in -/

/-- An alias that is there stays, and a new one leads to `key`. -/
theorem get?_withAliases (key : AssociationKey) (owners : KeyMap AssociationKey AssociationKey)
    (addresses : List SockAddr) (peer : AssociationKey) :
    (withAliases key owners addresses).get? peer
      = match owners.get? peer with
        | some owner => some owner
        | none => if ∃ address ∈ addresses, address.addr ≠ key.address.addr
            ∧ peer = peerKey address key.address.port then some key else none := by
  unfold withAliases
  induction addresses generalizing owners with
  | nil =>
    cases leads : owners.get? peer with
    | none => simpa using leads
    | some owner => simpa using leads
  | cons address rest ih =>
    by_cases here : sameDestination address key.address = true
    · have same : address.addr = key.address.addr := beq_iff_eq.mp here
      rw [List.filter_cons_of_neg (by simp [here]), ih]
      simp [same]
    · have apart : address.addr ≠ key.address.addr := fun same => here (beq_iff_eq.mpr same)
      rw [List.filter_cons_of_pos (by simp [here]), List.foldl_cons, ih, KeyMap.get?_emplace]
      by_cases mine : peer = peerKey address key.address.port
      · rw [if_pos mine, ← mine]
        cases leads : owners.get? peer with
        | none => simp [mine, apart]
        | some owner => simp
      · rw [if_neg mine]
        simp [mine]

theorem mem_ips_withPaths {a : Association} {addresses : List SockAddr} {ip : BitVec 32} :
    ip ∈ (withPaths a addresses).ips ↔ ip ∈ a.ips ∨ ∃ address ∈ addresses, address.addr = ip := by
  unfold withPaths
  induction addresses generalizing a with
  | nil => simp
  | cons address rest ih =>
    have one : ip ∈ (withPath a address).ips ↔ ip ∈ a.ips ∨ address.addr = ip := by
      unfold withPath
      split
      · simp [Association.ips, makePath, eq_comm]
      · next listed =>
        have known : address.addr ∈ a.ips := by
          obtain ⟨i, found⟩ := Option.ne_none_iff_exists'.mp listed
          obtain ⟨bound, same, -⟩ := List.findIdx?_eq_some_iff_getElem.mp found
          exact List.mem_map.mpr ⟨_, List.getElem_mem bound, beq_iff_eq.mp same⟩
        constructor
        · exact Or.inl
        · rintro (member | rfl)
          · exact member
          · exact known
    rw [List.foldl_cons, ih, one, or_assoc]
    simp

/-- An address that does not lead elsewhere leads here or is free. -/
theorem AddressIndex.free_address (index : AddressIndex s) {address : SockAddr}
    (apart : s.ownedElsewhere key address = false)
    (other : peerKey address key.address.port ≠ key) :
    s.find? (peerKey address key.address.port) = none
      ∧ (s.peerAddresses.get? (peerKey address key.address.port) = none
        ∨ s.peerAddresses.get? (peerKey address key.address.port) = some key) := by
  have mine : ∀ owner b, s.associationKeyFor (peerKey address key.address.port) = owner →
      s.find? owner = some b → owner = key := by
    intro owner b led live
    have contained : s.associations.contains owner = true := KeyMap.contains_eq_true.mpr ⟨b, live⟩
    simpa [Socket.ownedElsewhere, led, contained] using apart
  constructor
  · cases here : s.find? (peerKey address key.address.port) with
    | none => rfl
    | some b => exact absurd (mine _ b (associationKeyFor_self here) here) other
  · cases here : s.peerAddresses.get? (peerKey address key.address.port) with
    | none => exact Or.inl rfl
    | some owner =>
      obtain ⟨-, b, live, -⟩ := index.aliased _ owner here
      exact Or.inr (congrArg some (mine owner b (index.alias_leads here) live))

/-- An association takes in addresses none of which leads to another. -/
theorem AddressIndex.gain (index : AddressIndex s) (key : AssociationKey)
    (addresses : List SockAddr) {b : Association}
    (found : ∀ k, s'.find? k = if k = key then some b else s.find? k)
    (owners : s'.peerAddresses = withAliases key s.peerAddresses addresses)
    (ips : ∀ ip, ip ∈ b.ips ↔ (∃ a, s.find? key = some a ∧ ip ∈ a.ips)
      ∨ ∃ address ∈ addresses, address.addr = ip)
        (apart : ∀ address ∈ addresses, s.ownedElsewhere key address = false)
    (free : s.find? key = none → s.peerAddresses.get? key = none) : AddressIndex s' := by
  have live : s'.find? key = some b := by rw [found, if_pos rfl]
  have absent : ∀ peer, peer ≠ key → s.find? peer = none → s'.find? peer = none := by
    intro peer other none
    rw [found, if_neg other, none]
  have stays : ∀ peer owner, s.peerAddresses.get? peer = some owner → s'.peerAddresses.get? peer
      = some owner := by
    intro peer owner here
    rw [owners, get?_withAliases, here]
  constructor
  · intro k a after ip member
    rw [found] at after
    split at after
    · next mine =>
      subst mine
      cases after
      by_cases self : (⟨⟨ip, k.address.port⟩⟩ : AssociationKey) = k
      · rw [self]
        exact associationKeyFor_self live
      · rcases (ips ip).mp member with ⟨a, before, known⟩ | ⟨address, inside, rfl⟩
        · rcases index.leads_by before known with same | ⟨none, leads⟩
          · exact absurd same self
          · exact associationKeyFor_alias (absent _ self none) (stays _ _ leads)
        · obtain ⟨none, leads⟩ := index.free_address (apart address inside) self
          refine associationKeyFor_alias (absent _ self none) ?_
          rcases leads with new | old
          · have other : address.addr ≠ k.address.addr := by
              intro same
              refine self ?_
              rw [same]
            have added := get?_withAliases k s.peerAddresses addresses
              (peerKey address k.address.port)
            rw [new] at added
            rw [owners]
            exact added.trans (if_pos ⟨address, inside, other, rfl⟩)
          · exact stays _ _ old
    · next other =>
      rcases index.leads_by after member with same | ⟨none, leads⟩
      · rw [same]
        exact associationKeyFor_self (by rw [found, if_neg other]; exact after)
      · refine associationKeyFor_alias (absent _ (fun same => ?_) none) (stays _ _ leads)
        -- An alias of another association is no key an association is made under.
        rw [same] at none leads
        rw [free none] at leads
        cases leads
  · intro address owner here
    rw [owners, get?_withAliases] at here
    cases before : s.peerAddresses.get? address with
    | some other =>
      rw [before] at here
      cases here
      obtain ⟨port, a, was, member⟩ := index.aliased address owner before
      by_cases mine : owner = key
      · rw [mine] at was port ⊢
        exact ⟨port, b, live, (ips _).mpr (Or.inl ⟨a, was, member⟩)⟩
      · exact ⟨port, a, by rw [found, if_neg mine]; exact was, member⟩
    | none =>
      rw [before] at here
      simp only at here
      split at here
      · next new =>
        cases here
        obtain ⟨added, inside, -, rfl⟩ := new
        exact ⟨rfl, b, live, (ips _).mpr (Or.inr ⟨added, inside, rfl⟩)⟩
      · cases here

end Keeps

/-! ## The ways in -/

theorem peerAddresses_addPeerAddresses (s : Socket) (key : AssociationKey)
    (addresses : List SockAddr) :
    (s.addPeerAddresses key addresses).peerAddresses
      = withAliases key s.peerAddresses addresses := by
  obtain ⟨associations, peerAddresses, same, -, owners⟩ := addPeerAddresses_eq s key addresses
  rw [same]
  exact owners

theorem peerAddresses_abandonPartialDelivery (s : Socket) (key : AssociationKey) (a : Association) :
    (s.abandonPartialDelivery key a).peerAddresses = s.peerAddresses := by
  unfold Socket.abandonPartialDelivery
  split <;> rfl

theorem peerAddresses_collidedWith (s : Socket) (key : AssociationKey) (tcb : Association)
    (cookie : StateCookie) :
    (s.collidedWith key tcb cookie).peerAddresses
      = withAliases key s.peerAddresses (cookieAddresses cookie) := by
  unfold Socket.collidedWith
  simp only
  split
  · exact (peerAddresses_abandonPartialDelivery _ key tcb).trans
      (peerAddresses_addPeerAddresses s key _)
  · exact (peerAddresses_abandonPartialDelivery _ key tcb).trans
      (peerAddresses_addPeerAddresses s key _)

/-- The addresses of an association made from a cookie. -/
theorem mem_ips_fromCookie (cookie : StateCookie) (ip : BitVec 32) :
    ip ∈ (withPaths (initNewAssociationFromCookie cookie) (cookieAddresses cookie)).ips
      ↔ ∃ address ∈ cookieAddresses cookie, address.addr = ip := by
  rw [mem_ips_withPaths]
  constructor
  · rintro (member | listed)
    · refine ⟨cookieSource cookie, List.mem_cons_self, ?_⟩
      simpa [Association.ips, initNewAssociationFromCookie, makePath, eq_comm] using member
    · exact listed
  · exact Or.inr

theorem entersBy_of_entry {s s₁ : Socket} {key : AssociationKey} {cookie : StateCookie}
    (entry : CookieEntry s key cookie s₁) : s.entersBy key cookie = true := by
  unfold Socket.entersBy
  cases entry with
  | created none => rw [none]
  | restarted tcb found local_ peer tie ours theirs closing =>
    rw [found]
    simp only [if_neg local_]
    exact decide_eq_true ⟨peer, tie, ours, theirs, closing⟩
  | collided tcb found local_ peer =>
    rw [found]
    simp only [if_pos local_]
    exact decide_eq_true peer

/-- The key a cookie is for is no alias, unless there is an association it leads to. -/
theorem AddressIndex.unaliased {s : Socket} (index : AddressIndex s) (peer : AssociationKey)
    (absent : s.find? (s.associationKeyFor peer) = none) :
    s.peerAddresses.get? (s.associationKeyFor peer) = none := by
  cases leads : s.peerAddresses.get? peer with
  | some owner =>
    obtain ⟨-, a, live, -⟩ := index.aliased peer owner leads
    rw [index.alias_leads leads, live] at absent
    cases absent
  | none =>
    have self : s.associationKeyFor peer = peer := by
      rw [associationKeyFor_eq, leads]
      split <;> rfl
    rw [self]
    exact leads

/-- What does not lead elsewhere does not when an association is gone. -/
theorem AddressIndex.gone_elsewhere {s s' : Socket} (index : AddressIndex s) {key : AssociationKey}
    (gone : Gone key s s') {address : SockAddr} (apart : s.ownedElsewhere key address = false) :
    s'.ownedElsewhere key address = false := by
  by_contra elsewhere
  rw [Bool.not_eq_false, Socket.ownedElsewhere, Bool.and_eq_true, decide_eq_true_eq] at elsewhere
  obtain ⟨contained, other⟩ := elsewhere
  obtain ⟨a, live⟩ := KeyMap.contains_eq_true.mp contained
  have before : s.find? (s'.associationKeyFor (peerKey address key.address.port)) = some a := by
    have after : s'.find? (s'.associationKeyFor (peerKey address key.address.port)) = some a := live
    rw [gone.find?, if_neg other] at after
    exact after
  have same : s.associationKeyFor (peerKey address key.address.port)
      = s'.associationKeyFor (peerKey address key.address.port) := by
    cases here : s'.find? (peerKey address key.address.port) with
    | some b =>
      rw [associationKeyFor_self here] at before ⊢
      exact associationKeyFor_self before
    | none =>
      cases leads : s'.peerAddresses.get? (peerKey address key.address.port) with
      | none =>
        have self : s'.associationKeyFor (peerKey address key.address.port)
            = peerKey address key.address.port := by
          rw [associationKeyFor_eq, here, leads]
          rfl
        rw [self] at live
        exact absurd (here.symm.trans live) nofun
      | some owner =>
        rw [associationKeyFor_alias here leads]
        rw [gone.peerAddresses, get?_forgetPeerAddresses] at leads
        obtain ⟨owner', was, kept⟩ := Option.bind_eq_some_iff.mp leads
        split at kept
        · cases kept
        · cases kept
          exact index.alias_leads was
  have owned : s.ownedElsewhere key address = true := by
    rw [Socket.ownedElsewhere, same]
    have contained : s.associations.contains
        (s'.associationKeyFor (peerKey address key.address.port)) = true :=
      KeyMap.contains_eq_true.mpr ⟨a, before⟩
    simp [contained, other]
  rw [apart] at owned
  cases owned

theorem AddressIndex.entry {s s₁ : Socket} {cookie : StateCookie} (index : AddressIndex s)
    (entry : CookieEntry s (s.associationKeyFor (cookieKey cookie)) cookie s₁)
    (apart : ∀ address ∈ cookieAddresses cookie,
      s.ownedElsewhere (s.associationKeyFor (cookieKey cookie)) address = false) :
        AddressIndex s₁ := by
  have unaliased := index.unaliased (cookieKey cookie)
  generalize s.associationKeyFor (cookieKey cookie) = key at entry apart unaliased
  cases entry with
  | created none =>
    refine index.gain key _ (find?_createdFrom s key · cookie)
      (peerAddresses_addPeerAddresses _ key _) (fun ip => ?_) apart unaliased
    rw [mem_ips_fromCookie, none]
    simp
  | restarted tcb found =>
    -- What the association was found by before is forgotten first.
    have gone : Gone key s ((s.eraseAssociation key).forgetPeerAddresses key) :=
      ⟨rfl, fun k => Socket.find?_eraseAssociation s key k, rfl⟩
    have absent : ((s.eraseAssociation key).forgetPeerAddresses key).find? key = none := by simp
    have owners : (s.clearedFor key tcb).peerAddresses
        = ((s.eraseAssociation key).forgetPeerAddresses key).peerAddresses := by
      unfold Socket.clearedFor
      exact peerAddresses_abandonPartialDelivery _ key tcb
    refine (index.gone gone).gain key (cookieAddresses cookie)
      (b := withPaths (initNewAssociationFromCookie cookie) (cookieAddresses cookie))
        (fun k => ?_) ?_ (fun ip => ?_)
      (fun address member => index.gone_elsewhere gone (apart address member)) fun _ => ?_
    · rw [Socket.restartedFrom, find?_createdFrom, find?_clearedFor, gone.find?]
      split <;> rfl
    · refine (peerAddresses_addPeerAddresses _ key _).trans ?_
      exact congrArg (withAliases key · _) owners
    · rw [mem_ips_fromCookie, absent]
      simp
    · rw [gone.peerAddresses, get?_forgetPeerAddresses]
      cases leads : s.peerAddresses.get? key with
      | none => rfl
      | some owner =>
        have mine : owner = key := (index.alias_leads leads).symm.trans
          (associationKeyFor_self found)
        simp [mine]
  | collided tcb found local_ peer =>
    have ips : ∀ a : Association, (if forming tcb.state
        then { Socket.collided cookie a with state := .established }
        else Socket.collided cookie a).ips = a.ips := by
      intro a
      split <;> rfl
    refine index.gain key _ (find?_collidedWith found cookie)
      (peerAddresses_collidedWith s key tcb cookie) (fun ip => ?_) apart unaliased
    rw [ips, mem_ips_withPaths, found]
    simp

/-! ## Steps -/

theorem AddressIndex.move {s s' : Socket} (move : Move s s') (index : AddressIndex s) :
    AddressIndex s' := by
  have same : ∀ (k : AssociationKey) (a b : Association), Stays a b → b.ips = a.ips :=
    fun _ _ _ stays => congrArg Terms.ips stays.terms
  rcases move.kept with kept | ⟨key, s₁, gone, kept⟩
  · exact index.lasting kept same
  · exact (index.gone gone).lasting kept same

theorem AddressIndex.initAck {s : Socket} (index : AddressIndex s) {key : AssociationKey}
    {a : Association} (found : s.find? key = some a) (header : CommonHeader)
    (initAck : InitChunkValue) (src : SockAddr) (cookie : Bytes)
    (apart : ∀ address ∈ transportAddresses src (scanInitAck initAck).recognized,
    s.ownedElsewhere key address = false) :
    AddressIndex (s.acceptInitAck header initAck key src cookie) := by
  obtain ⟨s₁, destination, errors, same, after, owners, -⟩ :=
    acceptInitAck_eq found header initAck src cookie
  have gained : AddressIndex s₁ := by
    refine index.gain key _ after owners (fun ip => ?_) apart fun absent => ?_
    · rw [show (initAcked initAck (withPaths a
        (transportAddresses src (scanInitAck initAck).recognized))).ips
        = (withPaths a (transportAddresses src (scanInitAck initAck).recognized)).ips from rfl,
        mem_ips_withPaths, found]
      simp
    · rw [found] at absent
      cases absent
  rw [same]
  exact gained.congr rfl fun _ => rfl

theorem AddressIndex.associate {s : Socket} (index : AddressIndex s) (draws : Draws)
    (toAddress : SockAddr) (port : Port) :
    AddressIndex (s.sctpAssociate draws toAddress port).2 := by
  unfold Socket.sctpAssociate
  split
  · exact index
  · simp only
    split
    · exact index
    · next new =>
      have absent : s.find? (s.associationKeyFor (peerKey toAddress port)) = none :=
        KeyMap.contains_eq_false.mp (Bool.eq_false_iff.mpr new)
      have unaliased := index.unaliased (peerKey toAddress port) absent
      have self : s.associationKeyFor (peerKey toAddress port) = peerKey toAddress port := by
        rw [associationKeyFor_eq]
        split
        · rfl
        · cases leads : s.peerAddresses.get? (peerKey toAddress port) with
          | none => rfl
          | some owner =>
            obtain ⟨-, a, live, -⟩ := index.aliased _ owner leads
            rw [index.alias_leads leads, live] at absent
            cases absent
      rw [self] at absent unaliased
      refine index.gain (peerKey toAddress port) [toAddress]
        (b := initNewAssociation draws toAddress) (fun k => ?_) ?_ (fun ip => ?_)
          (fun address member => ?_) fun _ => unaliased
      · refine (KeyMap.get?_emplace s.associations _ k _).trans ?_
        rw [show s.associations.get? (peerKey toAddress port) = none from absent]
        rfl
      · simp [withAliases, sameDestination, peerKey, Socket.enqueuePacket]
      · rw [absent]
        simp [Association.ips, initNewAssociation, makePath, eq_comm]
      · rcases List.mem_singleton.mp member with rfl
        rw [Socket.ownedElsewhere, show s.associationKeyFor
          (peerKey address (peerKey address port).address.port)
          = peerKey address port from self]
        simp

/-- An association whose cookies and INIT ACKs name no address of another is found by its
addresses after every step. -/
theorem AddressIndex.step {σ σ' : System} {event : Event} (stepped : σ.step event = some σ')
    (apart : σ.namesNoOther event = true) (index : AddressIndex σ.socket) :
    AddressIndex σ'.socket := by
  refine System.step_moves (fun _ _ => AddressIndex.move) stepped (fun now draws packet src here =>
    ?_) (fun now draws _ index => ?_) (fun draws toAddress port _ index =>
      index.associate draws toAddress port) index
  · rw [here, System.namesNoOther, Bool.and_eq_true] at apart
    obtain ⟨cookieApart, initAcksApart⟩ := apart
    refine ⟨?_, ?_, ?_, ?_, ?_⟩
    · rintro cookieData cookie s₁ verified ⟨flag, rest, leads⟩ entry index
      refine index.entry entry fun address member => ?_
      rw [Socket.cookieApart, leads] at cookieApart
      simp only [verified, entersBy_of_entry entry, Bool.not_true, Bool.false_or, List.all_eq_true,
        Bool.not_eq_true'] at cookieApart
      exact cookieApart address member
    · intro cookieData cookie tcb destination _ _ _ _ _ index
      exact index.congr rfl fun _ => rfl
    · intro s' key carried s₁ flag initAck a cookie dispatched member found waits echoed index
      refine index.initAck found packet.header initAck src cookie fun address inside => ?_
      rw [dispatched] at initAcksApart
      have apart := List.all_eq_true.mp initAcksApart _ member
      simp only [Socket.initAckApart, found, waits, echoed, Option.any_some, beq_self_eq_true,
        Bool.not_true, Option.isNone_some, Bool.or_self, Bool.false_or, List.all_eq_true,
        Bool.not_eq_true'] at apart
      exact apart address inside
    · intro s' key carried s₁ flag causes a staleness _ _ found _ index
      refine index.congr rfl fun k => ?_
      rw [Socket.retryHandshake, Socket.find?_enqueuePacket,
        Socket.find?_removeRetransmissionsOfType, Socket.find?_cancelExpiration,
        Socket.find?_setAssociation]
      split
      · next same =>
        rw [same, found]
        rfl
      · rfl
    · intro s' key carried s'' a _ _ found _ _ taken index
      exact index.lasting taken.lasting fun k a b related => congrArg Essence.ips related.essence
  · exact runExpire_moves (fun _ _ => AddressIndex.move) (index.congr rfl fun _ => rfl)

/-! ## Runs -/

/-- What finding associations by address promises. -/
structure AddressesAgree (s : Socket) : Prop where
  listed : ∀ key a, s.find? key = some a → ∀ path ∈ a.peerAddressList,
    s.associationKeyFor (peerKey path.address key.address.port) = key
  aliased : ∀ address owner, s.peerAddresses.get? address = some owner → ∃ a, s.find? owner = some a
    ∧ ∃ path ∈ a.peerAddressList, peerKey path.address owner.address.port = address
  /-- No transport address belongs to two associations. -/
  once : ∀ key key' a a', s.find? key = some a → s.find? key' = some a' →
    ∀ path ∈ a.peerAddressList, ∀ path' ∈ a'.peerAddressList,
      peerKey path.address key.address.port = peerKey path'.address key'.address.port → key = key'
  /-- A packet from a listed address is given to the association that lists it. -/
  dispatched : ∀ key a, s.find? key = some a → ∀ path ∈ a.peerAddressList, ∀ packet src,
    peerKey src packet.header.srcPort = peerKey path.address key.address.port →
      s.packetKey packet src = key

theorem AddressIndex.agree {s : Socket} (index : AddressIndex s) : AddressesAgree s := by
  have listed : ∀ key a, s.find? key = some a → ∀ path ∈ a.peerAddressList,
      s.associationKeyFor (peerKey path.address key.address.port) = key := by
    intro key a found path member
    exact index.listed key a found path.address.addr (List.mem_map.mpr ⟨path, member, rfl⟩)
  refine ⟨listed, fun address owner leads => ?_, ?_, ?_⟩
  · obtain ⟨port, a, found, member⟩ := index.aliased address owner leads
    obtain ⟨path, inside, same⟩ := List.mem_map.mp member
    refine ⟨a, found, path, inside, ?_⟩
    rw [peerKey, same, ← port]
  · intro key key' a a' found found' path member path' member' same
    rw [← listed key a found path member, same]
    exact listed key' a' found' path' member'
  · intro key a found path member packet src same
    have led : s.associationKeyFor (peerKey src packet.header.srcPort) = key := by
      rw [same]
      exact listed key a found path member
    have contained : s.associations.contains key = true := KeyMap.contains_eq_true.mpr ⟨a, found⟩
    simp only [Socket.packetKey, led, contained, if_true]

/-- In every run in which no INIT ACK or cookie that is accepted names an address of
another association: every listed address leads to the association that lists it, every
alias is listed by the live association it leads to, and so no transport address belongs
to two associations and packets reach the one that lists their source. -/
theorem addresses_lead_home {σ : System}
    (reached : System.Reached (fun σ event => σ.namesNoOther event = true) σ) :
    AddressesAgree σ.socket := by
  have index : AddressIndex σ.socket := by
    refine reached.invariant (fun σ => AddressIndex σ.socket)
      ?_ fun σ event σ' index apart stepped => index.step stepped apart
    rintro σ ⟨address, rfl⟩
    refine ⟨fun key a found => ?_, fun address owner leads => ?_⟩
    · cases found
    · cases leads
  exact index.agree

namespace Opened

/-- An INIT ACK with a cookie of one byte that lists an address besides the one it comes from. -/
def listing (tag : Tag) (address : BitVec 32) : Chunk :=
  ⟨0#8, .initAck ⟨tag, 65535#32, 1#16, 1#16, 100#32,
    [0x00#8, 0x07#8, 0x00#8, 0x05#8, 0x01#8, 0#8, 0#8, 0#8, 0x00#8, 0x05#8, 0x00#8, 0x08#8]
      ++ append32 address⟩⟩

/-- The other address of the peer. -/
def otherPeer : SockAddr := ⟨0x0A000004#32, 5000#16⟩

end Opened

/-- A peer that lists another address of its own names no other association. -/
theorem opened_lead_home : ∃ σ, System.Reached (fun σ event => σ.namesNoOther event = true) σ
    ∧ σ.socket.associationKeyFor (peerKey Opened.otherPeer 5000#16) = Opened.key
    ∧ AddressesAgree σ.socket := by
  obtain ⟨σ, reached, ends⟩ := Opened.exists_run_while (fun σ event => σ.namesNoOther event = true)
    ([.associate Opened.draws Opened.peer 5000#16] ++ Opened.batch 1
      ++ [Opened.arrives [Opened.listing 7#32 Opened.otherPeer.addr]] ++ Opened.batch 1
        ++ [Opened.arrives [⟨0#8, .cookieAck⟩]])
    (p := fun σ => σ.socket.associationKeyFor (peerKey Opened.otherPeer 5000#16) == Opened.key)
      (by decide +kernel)
  exact ⟨σ, reached, beq_iff_eq.mp ends, addresses_lead_home reached⟩

namespace Opened

/-- Another peer, whose INIT ACK lists the address of the first. -/
def thief : SockAddr := ⟨0x0A000003#32, 5000#16⟩

def greedyInitAck : Chunk := listing 8#32 peer.addr

end Opened

/-- A second peer lists the address of the first in its INIT ACK: the address leads to the
first association, and the second lists it too. -/
theorem address_listed_twice :
    ∃ σ, System.Reached (fun _ _ => True) σ ∧ ¬AddressesAgree σ.socket := by
  obtain ⟨σ, reached, ends⟩ := Opened.exists_reached
    [.associate Opened.draws Opened.thief 5000#16,
      .recv 0 (fun _ => Opened.draws) ⟨⟨5000#16, 5000#16, 1#32⟩, [Opened.greedyInitAck]⟩
        Opened.thief]
    (p := fun σ => (σ.socket.find? (peerKey Opened.thief 5000#16)).any fun a =>
      a.peerAddressList.any fun path =>
      σ.socket.associationKeyFor (peerKey path.address 5000#16) != peerKey Opened.thief 5000#16)
        (by decide +kernel)
  obtain ⟨a, found, lists⟩ := (Option.any_eq_true _ _).mp ends
  obtain ⟨path, member, elsewhere⟩ := List.any_eq_true.mp lists
  exact ⟨σ, reached, fun agree => bne_iff_ne.mp elsewhere (agree.listed _ a found path member)⟩

end SctpStack
