import SctpStack.HashFraming
import SctpStack.CookieCodec
import SctpStack.Lib.Run

/-!
# The life of a state cookie

A cookie is good for its lifespan, wherever the rotation of the secrets stands; after
that it is stale while its secret is held, and unknown once it is not
(`cookie_life`). Secrets are assumed distinct, and the MAC unforgeable: whatever carries
a MAC under one of the secrets was signed with it.
-/

namespace SctpStack

/-! ## The MAC -/

theorem length_hmacSha256 (key data : Bytes) : (hmacSha256 key data).length = stateCookieMacSize :=
  length_sha256 _

/-- Bytes that differ nowhere are the same. -/
theorem constantTimeEqual_iff {a b : Bytes} {n : Nat} (left : a.length = n) (right : b.length = n) :
    constantTimeEqual a b n = true ↔ a = b := by
  have fold : ∀ (l : List Nat) (d : BitVec 8),
      l.foldl (fun difference i => difference ||| (a.getD i 0 ^^^ b.getD i 0)) d = 0#8
        ↔ d = 0#8 ∧ ∀ i ∈ l, a.getD i 0 = b.getD i 0 := by
    intro l
    induction l with
    | nil => simp
    | cons i rest ih =>
      intro d
      rw [List.foldl_cons, ih, BitVec.or_eq_zero_iff, BitVec.xor_eq_zero_iff]
      simp [and_assoc]
  rw [constantTimeEqual, beq_iff_eq, fold]
  simp only [true_and, List.mem_range]
  constructor
  · intro same
    refine List.ext_getElem (left.trans right.symm) fun i inA inB => ?_
    have byte := same i (by omega)
    rwa [List.getD_eq_getElem?_getD, List.getD_eq_getElem?_getD, List.getElem?_eq_getElem inA,
      List.getElem?_eq_getElem inB] at byte
  · rintro rfl i -
    rfl

/-! ## Everything an authorizer hands out -/

/-- What `generate` is called with. -/
structure CookieRequest where
  header : CommonHeader
  init : InitChunkValue
  src : SockAddr
  localTag : Tag
  localTsn : Tsn
  localTieTag : Tag
  peerTieTag : Tag
  lifespanIncrementMs : BitVec 32
  peerAddresses : List (BitVec 32)
deriving DecidableEq

/-- The cookie for a request, before it is signed. -/
def CookieRequest.cookie (request : CookieRequest) (auth : CookieAuth) (now : Time) : StateCookie :=
  auth.unsignedCookie now request.header request.init request.src request.localTag request.localTsn
    request.localTieTag request.peerTieTag request.lifespanIncrementMs request.peerAddresses

/-- A cookie that was handed out for a request, signed with the secret drawn as number
`epoch`. -/
structure Issued where
  epoch : Nat
  key : Bytes
  time : Time
  request : CookieRequest
  cookie : StateCookie
  bytes : Bytes
deriving DecidableEq

/-- An authorizer with what it has done: the secrets it drew, oldest first, the cookies
it handed out, and when it was called last. -/
structure Ledger where
  auth : CookieAuth
  keys : List Bytes
  issued : List Issued
  clock : Time

inductive CookieCall where
  | generate (now : Time) (secret : Bytes) (request : CookieRequest)
  | verify (now : Time) (cookie : Bytes) (header : CommonHeader) (src : SockAddr)

namespace Ledger

def Initial (l : Ledger) : Prop := l.auth = .fresh ∧ l.keys = [] ∧ l.issued = [] ∧ 0 ≤ l.clock

/-- Whether a call of `generate` draws a secret. -/
def draws (auth : CookieAuth) (now : Time) : Bool :=
  !auth.initialized || decide (usec cookieSecretRotation ≤ now - auth.rotatedAt)

/-- A call of `generate` for a request, and the authorizer after it. -/
def generated (auth : CookieAuth) (now : Time) (secret : Bytes) (request : CookieRequest) :
    CookieAuth × Bytes :=
  auth.generate now secret request.header request.init request.src request.localTag request.localTsn
    request.localTieTag request.peerTieTag request.lifespanIncrementMs request.peerAddresses

def step (l : Ledger) : CookieCall → Option Ledger
  | .generate now secret request =>
    let (auth, bytes) := generated l.auth now secret request
    let keys := if draws l.auth now then l.keys ++ [secret] else l.keys
    some {
      auth := auth
      keys := keys
      issued := ⟨keys.length - 1, auth.current, now, request, request.cookie auth now, bytes⟩
        :: l.issued
      clock := now }
  | .verify now _ _ _ => some { l with clock := now }

/-- A reading of `steady_clock`: its 64-bit count of nanoseconds, which starts at zero. -/
def Reading (now : Time) : Prop := 0 ≤ now ∧ now < 2 ^ 63

/-- Time does not go back, a secret drawn is a new one, and a request lists no more
addresses than the cookie can count (an INIT in one datagram cannot). -/
def Allowed (l : Ledger) : CookieCall → Prop
  | .generate now secret request => l.clock ≤ now ∧ Reading now ∧ secret ∉ l.keys
    ∧ request.peerAddresses.length ≤ 65535
  | .verify now _ _ _ => l.clock ≤ now ∧ Reading now

abbrev Reached : Ledger → Prop := Run.Reach step Initial Allowed

end Ledger

/-- What a MAC covers, and the MAC. -/
def signedBody (bytes : Bytes) : Bytes := bytes.take (bytes.length - stateCookieMacSize)

def signedMac (bytes : Bytes) : Bytes := bytes.drop (bytes.length - stateCookieMacSize)

/-- The MAC is unforgeable: if these bytes carry one under a secret of the authorizer,
then it signed this very body with that secret. -/
def Ledger.Unforged (l : Ledger) (bytes : Bytes) : Prop :=
  ∀ key ∈ l.keys, hmacSha256 key (signedBody bytes) = signedMac bytes →
    ∃ e ∈ l.issued, e.key = key ∧ signedBody e.bytes = signedBody bytes

/-! ## What holds of every cookie handed out -/

namespace Ledger

/-- The longest lifespan, and the time between two secrets, as the clock counts. -/
def rotation : Time := usec cookieSecretRotation

structure IssuedOk (l : Ledger) (e : Issued) : Prop where
  key : l.keys[e.epoch]? = some e.key
  asked : ∀ auth, e.cookie = { e.request.cookie auth e.time
    with secretGeneration := BitVec.ofNat 8 e.epoch }
  bytes : e.bytes = CookieAuth.sign e.key e.cookie
  few : e.cookie.peerAddresses.length ≤ 65535
  lifespan : (e.cookie.lifespanUs.toNat : Int) ≤ maxCookieLife
  reading : Reading e.time
  past : e.time ≤ l.clock
  replaced : e.epoch + 1 < l.keys.length → e.time ≤ l.auth.rotatedAt
  retired : e.epoch + 2 < l.keys.length → e.time + rotation ≤ l.auth.rotatedAt

/-- The secrets held are the last two drawn, the generation counts them, and they were
drawn a rotation apart. -/
structure Ok (l : Ledger) : Prop where
  distinct : l.keys.Nodup
  started : l.auth.initialized = !l.keys.isEmpty
  current : l.keys ≠ [] → l.keys[l.keys.length - 1]? = some l.auth.current
  havePrevious : l.auth.havePrevious = decide (2 ≤ l.keys.length)
  previous : 2 ≤ l.keys.length → l.keys[l.keys.length - 2]? = some l.auth.previous
  generation : l.auth.generation = BitVec.ofNat 8 (l.keys.length - 1)
  rotated : l.keys ≠ [] → l.auth.rotatedAt ≤ l.clock
  each : ∀ e ∈ l.issued, IssuedOk l e
  apart : ∀ e ∈ l.issued, ∀ e' ∈ l.issued, e.epoch + 2 ≤ e'.epoch → e.time + rotation ≤ e'.time

theorem Ok.initial {l : Ledger} (initial : Initial l) : Ok l := by
  obtain ⟨auth, keys, issued, -⟩ := initial
  refine ⟨?_, ?_, ?_, ?_, ?_, ?_, ?_, ?_, ?_⟩ <;> simp [auth, keys, issued, CookieAuth.fresh]

/-- The authorizer once `generate` has seen to its secrets. -/
theorem rotateIfDue_cases (auth : CookieAuth) (now : Time) (secret : Bytes) :
    (draws auth now = false ∧ auth.initialized = true ∧ auth.rotateIfDue now secret = auth)
    ∨ (draws auth now = true ∧ auth.initialized = false
      ∧ auth.rotateIfDue now secret = { auth
        with current := secret, initialized := true, rotatedAt := now })
    ∨ (draws auth now = true ∧ auth.initialized = true ∧ auth.rotatedAt + rotation ≤ now
      ∧ auth.rotateIfDue now secret = { auth with
        previous := auth.current, havePrevious := true, current := secret,
        generation := auth.generation + 1#8, rotatedAt := now }) := by
  unfold draws CookieAuth.rotateIfDue rotation
  cases initialized : auth.initialized with
  | false => exact Or.inr (Or.inl ⟨rfl, rfl, rfl⟩)
  | true =>
    by_cases due : usec cookieSecretRotation ≤ now - auth.rotatedAt
    · exact Or.inr (Or.inr ⟨decide_eq_true due, rfl, Int.add_le_of_le_sub_left due,
        if_neg (Int.not_lt.mpr due)⟩)
    · exact Or.inl ⟨decide_eq_false due, rfl, if_pos (Int.not_le.mp due)⟩

/-- The secrets after a call of `generate`, before the cookie is noted. -/
def prepared (l : Ledger) (now : Time) (secret : Bytes) : Ledger where
  auth := l.auth.rotateIfDue now secret
  keys := if draws l.auth now then l.keys ++ [secret] else l.keys
  issued := l.issued
  clock := now

theorem Ok.prepared {l : Ledger} (ok : Ok l) {now : Time} {secret : Bytes} (later : l.clock ≤ now)
    (new : secret ∉ l.keys) : Ok (l.prepared now secret) ∧ (l.prepared now secret).keys ≠ [] := by
  unfold Ledger.prepared
  rcases rotateIfDue_cases l.auth now secret with ⟨drawn, initialized, same⟩ | ⟨drawn, initialized,
    same⟩
    | ⟨drawn, initialized, due, same⟩
  · -- The secrets stay.
    have some : l.keys ≠ [] := by
      have started := ok.started
      rw [initialized] at started
      simpa using started.symm
    rw [drawn, same, if_neg Bool.false_ne_true]
    refine ⟨⟨ok.distinct, ok.started, ok.current, ok.havePrevious, ok.previous, ok.generation,
      fun here => Int.le_trans (ok.rotated here) later, fun e member => ?_, ok.apart⟩, some⟩
    have old := ok.each e member
    exact ⟨old.key, old.asked, old.bytes, old.few, old.lifespan, old.reading,
      Int.le_trans old.past later, old.replaced, old.retired⟩
  · -- The first secret.
    have none : l.keys = [] := by
      have started := ok.started
      rw [initialized] at started
      simpa using started.symm
    have fresh : l.issued = [] := by
      refine List.eq_nil_iff_forall_not_mem.mpr fun e member => ?_
      have key := (ok.each e member).key
      rw [none] at key
      cases key
    have generation := ok.generation
    have previous := ok.havePrevious
    rw [none] at generation previous
    rw [drawn, same, if_pos rfl, none, fresh]
    refine ⟨⟨by simp, rfl, fun _ => rfl, previous, fun two => ?_, generation, fun _ =>
      Int.le_refl _, by simp, by simp⟩, by simp⟩
    simp at two
  · -- A secret in place of the one before.
    have some : l.keys ≠ [] := by
      have started := ok.started
      rw [initialized] at started
      simpa using started.symm
    have positive : 0 < l.keys.length := List.length_pos_iff.mpr some
    rw [drawn, same, if_pos rfl]
    refine ⟨⟨?_, ?_, fun _ => ?_, ?_, fun _ => ?_, ?_, fun _ => Int.le_refl _, fun e member => ?_,
      ok.apart⟩, by simp⟩
    · exact List.nodup_append.mpr ⟨ok.distinct, by simp, fun a inA b inB same => by
        rw [List.mem_singleton] at inB
        exact new (inB ▸ same ▸ inA)⟩
    · simp [initialized]
    · simp
    · simpa using Nat.succ_le_of_lt positive
    · rw [List.length_append, List.length_singleton, List.getElem?_append_left (by omega)]
      exact ok.current some
    · simp only [List.length_append, List.length_singleton, ok.generation]
      apply BitVec.eq_of_toNat_eq
      simp only [BitVec.toNat_add, BitVec.toNat_ofNat]
      omega
    · have old := ok.each e member
      have inside : e.epoch < l.keys.length := (List.getElem?_eq_some_iff.mp old.key).1
      refine ⟨?_, old.asked, old.bytes, old.few, old.lifespan, old.reading,
        Int.le_trans old.past later, fun _ => Int.le_trans old.past later, fun gone => ?_⟩
      · rw [List.getElem?_append_left inside]
        exact old.key
      · rw [List.length_append, List.length_singleton] at gone
        have replaced := old.replaced (by omega)
        exact Int.le_trans (Int.add_le_add_right replaced _) due

/-- The lifespan is clamped before it is narrowed to 32 bits. -/
theorem lifespan_eq (request : CookieRequest) (auth : CookieAuth) (now : Time) :
    ((request.cookie auth now).lifespanUs.toNat : Int)
      = min (validCookieLife + request.lifespanIncrementMs.toNat * 1000) maxCookieLife := by
  have low := Int.natCast_nonneg request.lifespanIncrementMs.toNat
  simp only [CookieRequest.cookie, CookieAuth.unsignedCookie, BitVec.toNat_ofInt, validCookieLife,
    maxCookieLife]
  rcases Int.le_total (60000000 + (request.lifespanIncrementMs.toNat : Int) * 1000) 120000000
    with short | long
  · rw [Int.min_eq_left short, Int.emod_eq_of_lt (by omega) (Int.lt_of_le_of_lt short (by decide)),
      Int.toNat_of_nonneg (by omega)]
  · rw [Int.min_eq_right long]
    decide

theorem lifespan_le (request : CookieRequest) (auth : CookieAuth) (now : Time) :
    ((request.cookie auth now).lifespanUs.toNat : Int) ≤ maxCookieLife := by
  rw [lifespan_eq]
  exact Int.min_le_right _ _

theorem Ok.step {l l' : Ledger} {call : CookieCall} (ok : Ok l) (allowed : Allowed l call)
    (stepped : l.step call = some l') : Ok l' := by
  cases call with
  | verify now cookie header src =>
    cases stepped
    obtain ⟨later, -⟩ := allowed
    refine ⟨ok.distinct, ok.started, ok.current, ok.havePrevious, ok.previous, ok.generation,
      fun here => Int.le_trans (ok.rotated here) later, fun e member => ?_, ok.apart⟩
    have old := ok.each e member
    exact ⟨old.key, old.asked, old.bytes, old.few, old.lifespan, old.reading,
      Int.le_trans old.past later, old.replaced, old.retired⟩
  | generate now secret request =>
    obtain ⟨later, reading, new, few⟩ := allowed
    obtain ⟨ready, some⟩ := ok.prepared later new
    have made : l' = { l.prepared now secret with
        issued := ⟨(l.prepared now secret).keys.length - 1, (l.prepared now secret).auth.current,
          now, request, request.cookie (l.prepared now secret).auth now,
          CookieAuth.sign (l.prepared now secret).auth.current
            (request.cookie (l.prepared now secret).auth now)⟩
            :: l.issued } := by
      cases stepped
      rfl
    have clock : (l.prepared now secret).clock = now := rfl
    have issued : (l.prepared now secret).issued = l.issued := rfl
    generalize l.prepared now secret = mid at *
    have positive : 0 < mid.keys.length := List.length_pos_iff.mpr some
    subst made
    refine ⟨ready.distinct, ready.started, ready.current, ready.havePrevious, ready.previous,
      ready.generation, ready.rotated, fun e member => ?_, fun e inE e' inE' between => ?_⟩
    · rcases List.mem_cons.mp member with rfl | old
      · refine ⟨ready.current some, fun auth => ?_, rfl, few, lifespan_le request _ now, reading,
          Int.le_of_eq clock.symm, fun replaced => ?_, fun retired => ?_⟩
        · simp only [CookieRequest.cookie, CookieAuth.unsignedCookie, ready.generation]
        · simp only at replaced
          omega
        · simp only at retired
          omega
      · have old := ready.each e (issued ▸ old)
        exact ⟨old.key, old.asked, old.bytes, old.few, old.lifespan, old.reading,
          old.past, old.replaced, old.retired⟩
    · rcases List.mem_cons.mp inE' with rfl | old'
      · rcases List.mem_cons.mp inE with rfl | old
        · simp only at between
          omega
        · have retired := (ready.each e (issued ▸ old)).retired (by simp only at between; omega)
          have rotated := ready.rotated some
          rw [clock] at rotated
          exact Int.le_trans retired rotated
      · rcases List.mem_cons.mp inE with rfl | old
        · have inside := (List.getElem?_eq_some_iff.mp (ready.each e' (issued ▸ old')).key).1
          simp only at between
          omega
        · exact ready.apart e (issued ▸ old) e' (issued ▸ old') between

theorem Ok.reached {l : Ledger} (reached : Reached l) : Ok l :=
  Run.Reach.invariant Ok reached (fun _ => Ok.initial) fun _ _ _ ok allowed stepped =>
    ok.step allowed stepped

/-- A secret the authorizer still verifies with. -/
def Holds (l : Ledger) (key : Bytes) : Prop :=
  key = l.auth.current ∨ l.auth.havePrevious = true ∧ key = l.auth.previous

/-- A secret is held as long as no two were drawn after it. -/
theorem Ok.holds_iff {l : Ledger} (ok : Ok l) {epoch : Nat} {key : Bytes}
    (drawn : l.keys[epoch]? = some key) :
    l.Holds key ↔ l.keys.length ≤ epoch + 2 := by
  have inside : epoch < l.keys.length := (List.getElem?_eq_some_iff.mp drawn).1
  have some : l.keys ≠ [] := List.length_pos_iff.mp (by omega)
  have same : ∀ other, l.keys[other]? = .some key → epoch = other := by
    intro other drawn'
    exact (List.getElem?_inj inside ok.distinct).mp (drawn.trans drawn'.symm)
  constructor
  · rintro (current | ⟨previous, equal⟩)
    · have := same _ ((ok.current some).trans (congrArg Option.some current.symm))
      omega
    · rw [ok.havePrevious, decide_eq_true_eq] at previous
      have := same _ ((ok.previous previous).trans (congrArg Option.some equal.symm))
      omega
  · intro recent
    rcases (by omega : epoch = l.keys.length - 1 ∨ (2 ≤ l.keys.length ∧ epoch = l.keys.length - 2))
      with rfl | ⟨two, rfl⟩
    · exact Or.inl (Option.some.inj (drawn.symm.trans (ok.current some)))
    · exact Or.inr ⟨by rw [ok.havePrevious, decide_eq_true two],
        Option.some.inj (drawn.symm.trans (ok.previous two))⟩

/-- The generation byte finds a secret that is held. -/
theorem Ok.secretFor_held {l : Ledger} (ok : Ok l) {epoch : Nat} {key : Bytes}
    (drawn : l.keys[epoch]? = some key) (recent : l.keys.length ≤ epoch + 2) :
    l.auth.secretFor (BitVec.ofNat 8 epoch) = some key := by
  have inside : epoch < l.keys.length := (List.getElem?_eq_some_iff.mp drawn).1
  have some : l.keys ≠ [] := List.length_pos_iff.mp (by omega)
  have initialized : l.auth.initialized = true := by
    rw [ok.started]
    simpa using some
  unfold CookieAuth.secretFor
  rw [initialized, if_neg (by decide), ok.generation]
  by_cases last : epoch = l.keys.length - 1
  · rw [if_pos (by rw [last]), ← ok.current some, ← last, drawn]
  · have two : 2 ≤ l.keys.length := by omega
    have other : epoch = l.keys.length - 2 := by omega
    rw [if_neg, if_pos, ← ok.previous two, ← other, drawn]
    · refine ⟨by rw [ok.havePrevious, decide_eq_true two], BitVec.eq_of_toNat_eq ?_⟩
      simp only [BitVec.toNat_sub, BitVec.toNat_ofNat]
      omega
    · intro same
      have bytes := congrArg BitVec.toNat same
      simp only [BitVec.toNat_ofNat] at bytes
      omega

/-- A secret the generation byte finds is one of the last two drawn, and the byte is its
number. -/
theorem Ok.secretFor_some {l : Ledger} (ok : Ok l) {generation : BitVec 8} {key : Bytes}
    (found : l.auth.secretFor generation = some key) :
    ∃ epoch, l.keys[epoch]? = some key ∧ l.keys.length ≤ epoch + 2
      ∧ generation = BitVec.ofNat 8 epoch := by
  unfold CookieAuth.secretFor at found
  split at found
  · cases found
  · next initialized =>
    have some : l.keys ≠ [] := by
      rw [ok.started] at initialized
      simpa using initialized
    have positive : 0 < l.keys.length := List.length_pos_iff.mpr some
    split at found
    · next same =>
      cases found
      exact ⟨l.keys.length - 1, ok.current some, by omega, same.trans ok.generation⟩
    · split at found
      · next same =>
        cases found
        obtain ⟨previous, same⟩ := same
        rw [ok.havePrevious, decide_eq_true_eq] at previous
        refine ⟨l.keys.length - 2, ok.previous previous, by omega, ?_⟩
        rw [same, ok.generation]
        apply BitVec.eq_of_toNat_eq
        simp only [BitVec.toNat_sub, BitVec.toNat_ofNat]
        omega
      · cases found

end Ledger

/-! ## Verifying -/

theorem signedBody_append (body : Bytes) {mac : Bytes} (size : mac.length = stateCookieMacSize) :
    signedBody (body ++ mac) = body ∧ signedMac (body ++ mac) = mac := by
  unfold signedBody signedMac
  rw [List.length_append, size, Nat.add_sub_cancel]
  exact ⟨List.take_left, List.drop_left⟩

theorem nowUs_toNat {now : Time} (reading : Ledger.Reading now) :
    ((CookieAuth.nowUs now).toNat : Int) = now / 1000 := by
  obtain ⟨positive, bounded⟩ := reading
  rw [CookieAuth.nowUs, BitVec.toNat_ofInt, Int.toNat_of_nonneg (Int.emod_nonneg _ (by decide))]
  exact Int.emod_eq_of_lt (Int.ediv_nonneg positive (by decide))
    (Int.lt_of_le_of_lt (Int.ediv_le_self _ positive) (Int.lt_trans bounded (by decide)))

/-- A MAC is compared in full. -/
theorem macs_equal_iff (secret : Bytes) {bytes : Bytes} (long : stateCookieMacSize ≤ bytes.length) :
    constantTimeEqual (hmacSha256 secret (signedBody bytes)) (signedMac bytes) stateCookieMacSize
      = true
      ↔ hmacSha256 secret (signedBody bytes) = signedMac bytes := by
  refine constantTimeEqual_iff (length_hmacSha256 _ _) ?_
  rw [signedMac, List.length_drop]
  omega

theorem long_of_decoded {bytes : Bytes} {cookie : StateCookie}
    (decoded : deserializeStateCookie bytes = some cookie) :
    stateCookieMacSize ≤ bytes.length := by
  unfold deserializeStateCookie at decoded
  split at decoded
  · cases decoded
  · next long =>
    have size : stateCookieMacSize ≤ stateCookieSize := by decide
    omega

/-- What `verify` comes to once the MAC is right: the endpoint, then the age. -/
def judged (now : Time) (header : CommonHeader) (src : SockAddr) (cookie : StateCookie) :
    CookieResult :=
  if cookie.sctpSrcPort ≠ header.srcPort ∨ cookie.sctpDstPort ≠ header.desPort
      ∨ cookie.localVerTag ≠ header.verificationTag
      ∨ !(src.addr == cookie.peerIpv4 || decide (src.addr ∈ cookie.peerAddresses))
        then .wrongEndpoint
  else if (CookieAuth.nowUs now).toNat < cookie.createdUs.toNat then .stale cookie 0#32
  else if (CookieAuth.nowUs now).toNat - cookie.createdUs.toNat > cookie.lifespanUs.toNat then
    .stale cookie (BitVec.ofNat 32
      (min ((CookieAuth.nowUs now).toNat - cookie.createdUs.toNat - cookie.lifespanUs.toNat)
        4294967295))
  else .valid cookie

/-- What `verify` does, in the order it does it. -/
theorem verify_cases (auth : CookieAuth) (now : Time) (bytes : Bytes) (header : CommonHeader)
    (src : SockAddr) :
    (deserializeStateCookie bytes = none ∧ auth.verify now bytes header src = .malformed)
    ∨ ∃ cookie, deserializeStateCookie bytes = some cookie
      ∧ ((auth.secretFor cookie.secretGeneration = none ∧ auth.verify now bytes header src
        = .unknownSecret)
        ∨ ∃ secret, auth.secretFor cookie.secretGeneration = some secret
          ∧ ((hmacSha256 secret (signedBody bytes) ≠ signedMac bytes
          ∧ auth.verify now bytes header src = .badMac)
            ∨ (hmacSha256 secret (signedBody bytes) = signedMac bytes
              ∧ auth.verify now bytes header src = judged now header src cookie))) := by
  unfold CookieAuth.verify
  cases decoded : deserializeStateCookie bytes with
  | none => exact Or.inl ⟨rfl, rfl⟩
  | some cookie =>
    refine Or.inr ⟨cookie, rfl, ?_⟩
    simp only
    cases found : auth.secretFor cookie.secretGeneration with
    | none => exact Or.inl ⟨rfl, rfl⟩
    | some secret =>
      refine Or.inr ⟨secret, rfl, ?_⟩
      have compare := macs_equal_iff secret (long_of_decoded decoded)
      unfold signedBody signedMac at compare ⊢
      simp only
      by_cases same : hmacSha256 secret (bytes.take (bytes.length - stateCookieMacSize))
          = bytes.drop (bytes.length - stateCookieMacSize)
      · refine Or.inr ⟨same, ?_⟩
        rw [compare.mpr same, if_neg (by simp)]
        rfl
      · refine Or.inl ⟨same, if_pos ?_⟩
        rw [Bool.not_eq_true', ← Bool.not_eq_true]
        exact fun equal => same (compare.mp equal)

/-- The cookie with its MAC. -/
def Issued.signed (e : Issued) : StateCookie :=
  { e.cookie with mac := hmacSha256 e.key (serializeStateCookie { e.cookie with mac := [] }) }

/-- What was asked for, as a cookie carries it. -/
structure Issued.Carries (e : Issued) (cookie : StateCookie) : Prop where
  version : cookie.version = stateCookieVersion
  secretGeneration : cookie.secretGeneration = BitVec.ofNat 8 e.epoch
  created : (cookie.createdUs.toNat : Int) = e.time / 1000
  lifespan : (cookie.lifespanUs.toNat : Int)
    = min (validCookieLife + e.request.lifespanIncrementMs.toNat * 1000) maxCookieLife
  ports : cookie.sctpSrcPort = e.request.header.srcPort ∧ cookie.sctpDstPort
    = e.request.header.desPort
  source : cookie.peerIpv4 = e.request.src.addr ∧ cookie.peerUdpPort = e.request.src.port
  tags : cookie.localVerTag = e.request.localTag ∧ cookie.peerVerTag = e.request.init.initiateTag
  tsns : cookie.localInitialTsn = e.request.localTsn ∧ cookie.peerInitialTsn
    = e.request.init.initialTsn
  window : cookie.peerARwnd = e.request.init.aRwnd
  localStreams : cookie.localOutStreams = localOutStreams ∧ cookie.localInStreams
    = localMaxInStreams
  peerStreams : cookie.peerOutStreams = e.request.init.outStreams ∧ cookie.peerInStreams
    = e.request.init.inStreams
  tieTags : cookie.localTieTag = e.request.localTieTag ∧ cookie.peerTieTag = e.request.peerTieTag
  peerAddresses : cookie.peerAddresses = e.request.peerAddresses

/-- An echo under the ports and the tag of the cookie, from the INIT's source or another
address it listed. -/
structure Issued.EchoedBy (e : Issued) (header : CommonHeader) (src : SockAddr) : Prop where
  srcPort : header.srcPort = e.request.header.srcPort
  desPort : header.desPort = e.request.header.desPort
  verificationTag : header.verificationTag = e.request.localTag
  listed : src.addr = e.request.src.addr ∨ src.addr ∈ e.request.peerAddresses

namespace Ledger

theorem IssuedOk.decoded {l : Ledger} {e : Issued} (ok : IssuedOk l e) :
    deserializeStateCookie e.bytes = some e.signed
      ∧ hmacSha256 e.key (signedBody e.bytes) = signedMac e.bytes := by
  have mac := length_hmacSha256 e.key (serializeStateCookie { e.cookie with mac := [] })
  obtain ⟨body, tail⟩ := signedBody_append (serializeStateCookie { e.cookie with mac := [] }) mac
  have version : e.cookie.version = stateCookieVersion := by rw [ok.asked .fresh]; rfl
  rw [ok.bytes, CookieAuth.sign]
  refine ⟨deserializeStateCookie_encoded version ok.few mac, ?_⟩
  rw [body, tail]

theorem IssuedOk.carries {l : Ledger} {e : Issued} (ok : IssuedOk l e) : e.Carries e.signed := by
  have created := nowUs_toNat ok.reading
  have lifespan := lifespan_eq e.request .fresh e.time
  rw [Issued.signed, ok.asked .fresh]
  exact ⟨rfl, rfl, created, lifespan, ⟨rfl, rfl⟩, ⟨rfl, rfl⟩, ⟨rfl, rfl⟩, ⟨rfl, rfl⟩, rfl,
    ⟨rfl, rfl⟩, ⟨rfl, rfl⟩, ⟨rfl, rfl⟩, rfl⟩

/-- An echo from where it should be is judged by its age alone. -/
theorem IssuedOk.judged {l : Ledger} {e : Issued} (ok : IssuedOk l e) {header : CommonHeader}
    {src : SockAddr} (echoed : e.EchoedBy header src) {now : Time} (reading : Reading now)
    (later : e.time ≤ now) :
    judged now header src e.signed =
      if now / 1000 ≤ e.time / 1000 + e.cookie.lifespanUs.toNat then .valid e.signed
      else .stale e.signed (BitVec.ofNat 32
        (min (now / 1000 - e.time / 1000 - e.cookie.lifespanUs.toNat).toNat 4294967295)) := by
  have asked := ok.asked .fresh
  have created : e.signed.createdUs = CookieAuth.nowUs e.time := by rw [Issued.signed, asked]; rfl
  have lifespan : e.signed.lifespanUs = e.cookie.lifespanUs := rfl
  have here : ¬(e.signed.sctpSrcPort ≠ header.srcPort ∨ e.signed.sctpDstPort ≠ header.desPort
      ∨ e.signed.localVerTag ≠ header.verificationTag
      ∨ (!(src.addr == e.signed.peerIpv4 || decide (src.addr ∈ e.signed.peerAddresses)))
        = true) := by
    rw [Issued.signed, asked]
    rintro (wrong | wrong | wrong | wrong)
    · exact wrong echoed.srcPort.symm
    · exact wrong echoed.desPort.symm
    · exact wrong echoed.verificationTag.symm
    · simp only [Bool.not_eq_true', Bool.or_eq_false_iff, beq_eq_false_iff_ne,
        decide_eq_false_iff_not] at wrong
      rcases echoed.listed with source | other
      · exact wrong.1 source
      · exact wrong.2 other
  have nowUs := nowUs_toNat reading
  have thenUs := nowUs_toNat ok.reading
  have order : LE.le (α := Int) (e.time / 1000) (now / 1000) := Int.ediv_le_ediv (by decide) later
  unfold SctpStack.judged
  rw [if_neg here, created, lifespan]
  generalize (CookieAuth.nowUs now).toNat = n at *
  generalize (CookieAuth.nowUs e.time).toNat = c at *
  rw [← nowUs, ← thenUs] at order ⊢
  rw [if_neg (by omega)]
  by_cases young : (n : Int) ≤ c + e.cookie.lifespanUs.toNat
  · rw [if_pos young, if_neg (by omega)]
  · rw [if_neg young, if_pos (by omega)]
    congr 2
    omega

/-- While a cookie lasts, its secret is held. -/
theorem Ok.recent {l : Ledger} (ok : Ok l) {e : Issued} (member : e ∈ l.issued) {now : Time}
    (later : l.clock ≤ now) (young : now / 1000 ≤ e.time / 1000 + e.cookie.lifespanUs.toNat) :
    l.keys.length ≤ e.epoch + 2 := by
  have issued := ok.each e member
  by_contra old
  have retired := issued.retired (by omega)
  have inside : e.epoch < l.keys.length := (List.getElem?_eq_some_iff.mp issued.key).1
  have rotated := ok.rotated (List.length_pos_iff.mp (by omega))
  have apart : e.time + rotation ≤ now := Int.le_trans retired (Int.le_trans rotated later)
  have hours : LE.le (α := Int) (e.time / 1000 + cookieSecretRotation) (now / 1000) := by
    have divided := Int.ediv_le_ediv (c := 1000) (by decide) apart
    rw [rotation, usec, Int.add_mul_ediv_right _ _ (by decide)] at divided
    exact divided
  have lifespan := issued.lifespan
  have young : LE.le (α := Int) (now / 1000) (e.time / 1000 + e.cookie.lifespanUs.toNat) := young
  simp only [cookieSecretRotation, maxCookieLife] at hours lifespan
  omega

/-- A body says when it was made. -/
theorem IssuedOk.created_of_body {l : Ledger} {e e' : Issued} (ok : IssuedOk l e)
    (ok' : IssuedOk l e') (body : signedBody e.bytes = signedBody e'.bytes) :
    CookieAuth.nowUs e.time = CookieAuth.nowUs e'.time := by
  have each : ∀ {e : Issued}, IssuedOk l e →
      deserializeStateCookie (signedBody e.bytes ++ List.replicate stateCookieMacSize 0#8)
        = some { e.cookie with mac := List.replicate stateCookieMacSize 0#8 }
      ∧ e.cookie.createdUs = CookieAuth.nowUs e.time := by
    intro e ok
    have asked := ok.asked .fresh
    have version : e.cookie.version = stateCookieVersion := by rw [asked]; rfl
    obtain ⟨inside, -⟩ := signedBody_append (serializeStateCookie { e.cookie with mac := [] })
      (length_hmacSha256 e.key (serializeStateCookie { e.cookie with mac := [] }))
    rw [ok.bytes, CookieAuth.sign, inside]
    exact ⟨deserializeStateCookie_encoded version ok.few List.length_replicate, by rw [asked]; rfl⟩
  obtain ⟨first, created⟩ := each ok
  obtain ⟨second, created'⟩ := each ok'
  rw [body, second, Option.some.injEq] at first
  rw [← created, ← created']
  exact (congrArg StateCookie.createdUs first).symm

/-- A cookie whose secret is gone carries no MAC under a secret that is held. -/
theorem Ok.forgotten {l : Ledger} (ok : Ok l) {e : Issued} (member : e ∈ l.issued)
    (old : e.epoch + 2 < l.keys.length) (unforged : l.Unforged e.bytes) {secret : Bytes}
    (found : l.auth.secretFor e.cookie.secretGeneration = some secret) :
    hmacSha256 secret (signedBody e.bytes) ≠ signedMac e.bytes := by
  intro same
  have issued := ok.each e member
  obtain ⟨epoch, drawn, recent, generation⟩ := ok.secretFor_some found
  obtain ⟨e', member', key, body⟩ := unforged secret (List.mem_of_getElem? drawn) same
  have issued' := ok.each e' member'
  have inside : epoch < l.keys.length := (List.getElem?_eq_some_iff.mp drawn).1
  have number : epoch = e'.epoch :=
    (List.getElem?_inj inside ok.distinct).mp (drawn.trans (key ▸ issued'.key.symm))
  have bytes : (BitVec.ofNat 8 e.epoch).toNat = (BitVec.ofNat 8 epoch).toNat := by
    rw [← generation, issued.asked .fresh]
  simp only [BitVec.toNat_ofNat] at bytes
  -- Two secrets with one generation byte are 256 apart; the body says when it was made.
  have apart := ok.apart e member e' member' (by omega)
  have created := issued.created_of_body issued' body.symm
  have clock := congrArg (fun word : BitVec 64 => (word.toNat : Int)) created
  simp only [nowUs_toNat issued.reading, nowUs_toNat issued'.reading] at clock
  have divided := Int.ediv_le_ediv (c := 1000) (by decide) apart
  rw [rotation, usec, Int.add_mul_ediv_right _ _ (by decide), ← clock] at divided
  have impossible : LE.le (α := Int) (e.time / 1000 + cookieSecretRotation) (e.time / 1000) :=
    divided
  simp only [cookieSecretRotation] at impossible
  omega

end Ledger

/-- In every run of an authorizer, at every time: a cookie it handed out, echoed from
where it should be, is valid to the end of its lifespan and carries what was asked
for; after that it is stale by what it is over, as long as its secret is held, and
unknown or with a MAC that does not match once it is not. And nothing is found valid or
stale that was not handed out. -/
theorem cookie_life {l : Ledger} (reached : Ledger.Reached l) (now : Time) (later : l.clock ≤ now)
    (reading : Ledger.Reading now) :
    (∀ e ∈ l.issued, ∀ header src, e.EchoedBy header src →
      e.Carries e.signed
      ∧ (now / 1000 ≤ e.time / 1000 + e.cookie.lifespanUs.toNat →
          l.auth.verify now e.bytes header src = .valid e.signed)
      ∧ (e.time / 1000 + e.cookie.lifespanUs.toNat < now / 1000 → l.Holds e.key →
          l.auth.verify now e.bytes header src = .stale e.signed (BitVec.ofNat 32
            (min (now / 1000 - e.time / 1000 - e.cookie.lifespanUs.toNat).toNat 4294967295)))
      ∧ (e.time / 1000 + e.cookie.lifespanUs.toNat < now / 1000 → ¬l.Holds e.key →
        l.Unforged e.bytes →
          l.auth.verify now e.bytes header src = .unknownSecret
            ∨ l.auth.verify now e.bytes header src = .badMac))
    ∧ ∀ bytes header src, l.Unforged bytes →
      ((∃ cookie, l.auth.verify now bytes header src = .valid cookie)
        ∨ ∃ cookie staleness, l.auth.verify now bytes header src = .stale cookie staleness) →
      ∃ e ∈ l.issued, e.bytes = bytes := by
  have ok := Ledger.Ok.reached reached
  constructor
  · intro e member header src echoed
    have issued := ok.each e member
    obtain ⟨decoded, mac⟩ := issued.decoded
    have asked := issued.asked l.auth
    have generation : e.signed.secretGeneration = BitVec.ofNat 8 e.epoch := by
      rw [Issued.signed, asked]
    have verdict := issued.judged echoed reading (Int.le_trans issued.past later)
    -- With its secret held, the cookie is judged by its age.
    have held : l.keys.length ≤ e.epoch + 2 →
        l.auth.verify now e.bytes header src = judged now header src e.signed := by
      intro recent
      have found := ok.secretFor_held issued.key recent
      rcases verify_cases l.auth now e.bytes header src with ⟨none, -⟩ | ⟨cookie, read, outcome⟩
      · rw [decoded] at none
        cases none
      · rw [decoded, Option.some.injEq] at read
        subst read
        rw [generation, found] at outcome
        rcases outcome with ⟨none, -⟩ | ⟨secret, here, outcome⟩
        · cases none
        · cases here
          rcases outcome with ⟨wrong, -⟩ | ⟨-, result⟩
          · exact absurd mac wrong
          · exact result
    refine ⟨issued.carries, fun young => ?_, fun old holds => ?_, fun old gone unforged => ?_⟩
    · rw [held (ok.recent member later young), verdict, if_pos young]
    · rw [held ((ok.holds_iff issued.key).mp holds), verdict, if_neg (Int.not_le.mpr old)]
    · rw [ok.holds_iff issued.key, Nat.not_le] at gone
      rcases verify_cases l.auth now e.bytes header src with ⟨none, -⟩ | ⟨cookie, read, outcome⟩
      · rw [decoded] at none
        cases none
      · rw [decoded, Option.some.injEq] at read
        subst read
        rcases outcome with ⟨-, unknown⟩ | ⟨secret, here, outcome⟩
        · exact Or.inl unknown
        · rcases outcome with ⟨-, bad⟩ | ⟨same, -⟩
          · exact Or.inr bad
          · exact absurd same (ok.forgotten member gone unforged here)
  · intro bytes header src unforged accepted
    rcases verify_cases l.auth now bytes header src with ⟨-, malformed⟩ | ⟨cookie, read, outcome⟩
    · rw [malformed] at accepted
      rcases accepted with ⟨_, impossible⟩ | ⟨_, _, impossible⟩ <;> cases impossible
    · rcases outcome with ⟨-, unknown⟩ | ⟨secret, found, outcome⟩
      · rw [unknown] at accepted
        rcases accepted with ⟨_, impossible⟩ | ⟨_, _, impossible⟩ <;> cases impossible
      · rcases outcome with ⟨-, bad⟩ | ⟨same, -⟩
        · rw [bad] at accepted
          rcases accepted with ⟨_, impossible⟩ | ⟨_, _, impossible⟩ <;> cases impossible
        · obtain ⟨epoch, drawn, -, -⟩ := ok.secretFor_some found
          obtain ⟨e, member, key, body⟩ := unforged secret (List.mem_of_getElem? drawn) same
          refine ⟨e, member, ?_⟩
          have mac := (ok.each e member).decoded.2
          rw [key, body, same] at mac
          have whole : ∀ b : Bytes, signedBody b ++ signedMac b = b :=
            fun b => List.take_append_drop _ b
          rw [← whole e.bytes, ← whole bytes, body, ← mac]

/-- A peer's INIT, and its echo from another address it listed. -/
def firstRequest : CookieRequest where
  header := ⟨5000#16, 5000#16, 0#32⟩
  init := ⟨7#32, 65535#32, 1#16, 1#16, 100#32, []⟩
  src := ⟨0x0A000002#32, 5000#16⟩
  localTag := 1#32
  localTsn := 10#32
  localTieTag := 0#32
  peerTieTag := 0#32
  lifespanIncrementMs := 0#32
  peerAddresses := [0x0A000003#32]

/-- The first cookie of an authorizer, echoed a minute later to the microsecond. -/
theorem first_cookie_valid : ∃ l e, Ledger.Reached l ∧ e ∈ l.issued ∧ e.request = firstRequest
    ∧ l.auth.verify 60000000000 e.bytes ⟨5000#16, 5000#16, 1#32⟩ ⟨0x0A000003#32, 4000#16⟩
      = .valid e.signed := by
  have start : Ledger.Reached ⟨.fresh, [], [], 0⟩ := .start ⟨rfl, rfl, rfl, Int.le_refl 0⟩
  have allowed : Ledger.Allowed ⟨.fresh, [], [], 0⟩ (.generate 0 [1#8] firstRequest) :=
    ⟨Int.le_refl 0, ⟨by decide, by decide⟩, by simp, by decide⟩
  have reached := start.next allowed rfl
  have echoed : ∀ e : Issued, e.request = firstRequest →
      e.EchoedBy ⟨5000#16, 5000#16, 1#32⟩ ⟨0x0A000003#32, 4000#16⟩ := by
    intro e asked
    refine ⟨?_, ?_, ?_, Or.inr ?_⟩ <;> rw [asked] <;> decide
  refine ⟨_, _, reached, List.mem_cons_self, rfl, ?_⟩
  obtain ⟨-, valid, -, -⟩ := (cookie_life reached 60000000000 (by decide) ⟨by decide, by decide⟩).1
    _ List.mem_cons_self _ _ (echoed _ rfl)
  exact valid (by decide)

end SctpStack
