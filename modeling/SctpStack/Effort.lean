import SctpStack.Passages

/-!
# The effort a handshake takes

T1 sends INIT and COOKIE ECHO again, and a Stale Cookie error sends the handshake back to
its start with both counts at zero. Every handler takes the exchange of an association
onward, ends it, or opens a new one where there was no association (`Onward`,
`Passage.Goes`); so from the call that opens an association until it leaves COOKIE-WAIT
and COOKIE-ECHOED, the T1 expirations handled are bounded, whatever the peer sends and
whenever (`handshake_effort_bounded`).
-/

namespace SctpStack

/-! ## The exchange goes on -/

/-- The exchange of the association under a key, if it waits for an answer. -/
def Socket.exchange (s : Socket) (key : AssociationKey) : Option Retry.Exchange :=
  (s.find? key).bind Association.exchange

/-- The association under the key waits for the answer to its INIT, or to its COOKIE ECHO. -/
def Socket.opens (s : Socket) (key : AssociationKey) : Bool :=
  (s.find? key).any fun a => forming a.state

def Socket.inState (s : Socket) (key : AssociationKey) (state : AssociationState) : Bool :=
  (s.find? key).any fun a => decide (a.state = state)

/-- The exchange is over, or goes on. -/
inductive Onward : Option Retry.Exchange → Option Retry.Exchange → Prop where
  | ended (before : Option Retry.Exchange) : Onward before none
  | on {x y : Retry.Exchange} : HandshakeCourse x y → Onward (some x) (some y)

theorem Onward.refl (before : Option Retry.Exchange) : Onward before before := by
  cases before with
  | none => exact .ended none
  | some x => exact .on .refl

theorem Onward.trans {before between after : Option Retry.Exchange} (first : Onward before between)
    (second : Onward between after) : Onward before after := by
  cases second with
  | ended => exact .ended before
  | on later =>
    cases first with
    | on earlier => exact .on (Relation.ReflTransGen.trans earlier later)

theorem Onward.of_handshakes {a b : Association} (handshakes : Handshakes a b) :
    Onward a.exchange b.exchange := by
  unfold Handshakes at handshakes
  revert handshakes
  generalize a.exchange = x, b.exchange = y
  rintro (course | _)
  · exact .on course
  · exact .ended none

section Steps

variable {heard : Evidence → Prop} {event : Event} {s s' : Socket} {key : AssociationKey}

theorem exchange_of_find? {b : Option Association} (found : s.find? key = b) :
    s.exchange key = b.bind Association.exchange :=
  congrArg (Option.bind · Association.exchange) found

theorem exchange_congr (same : s'.find? key = s.find? key) : s'.exchange key = s.exchange key :=
  exchange_of_find? same

theorem TcbStep.onward {before after : Option Association} (step : TcbStep before after) :
    Onward (before.bind Association.exchange) (after.bind Association.exchange) := by
  cases step with
  | same => exact .refl _
  | follows found follows =>
    rw [found]
    exact .of_handshakes follows.handshakes
  | tie draws found =>
    rw [found]
    refine .of_handshakes (.of_eq ?_)
    rw [withTieTags_only]
    rfl
  | credit found _ credited =>
    rw [found]
    exact .of_handshakes (.of_eq credited.exchange)
  | up => exact .ended _
  | created _ _ isUp =>
    rw [Option.bind_some, exchange_of_up isUp]
    exact .ended _
  | restarted => exact .ended _
  | ended => exact .ended _

theorem Deed.onward (deed : Deed heard key s s') (k : AssociationKey) :
    Onward (s.exchange k) (s'.exchange k) := by
  by_cases here : k = key
  · rw [here]
    exact deed.tcb.onward
  · rw [exchange_congr (deed.find?_other here)]
    exact .refl _

theorem Deeds.onward (deeds : Deeds heard key s s') (k : AssociationKey) :
    Onward (s.exchange k) (s'.exchange k) := by
  induction deeds with
  | refl => exact .refl _
  | tail _ deed ih => exact ih.trans (deed.onward k)

theorem Work.onward (work : Work heard event s s')
    (calls : ∀ draws address port, event ≠ .associate draws address port) (k : AssociationKey) :
    Onward (s.exchange k) (s'.exchange k) := by
  cases work with
  | deed key deed => exact deed.onward k
  | all f outline =>
    rw [exchange_of_find? (find?_mapVals s f k), Socket.exchange]
    cases s.find? k with
    | none => exact .ended _
    | some a => exact .of_handshakes (.of_eq (congrArg Outline.exchange (outline k a)))
  | @opened draws address port is => exact absurd is (calls draws address port)
  | @aborted key reason a =>
    rw [exchange_of_find? (find?_removeAssociation s key k)]
    split
    · exact .ended _
    · exact .refl _
  | @withdrawn now key =>
    rw [exchange_of_find? (find?_tearDown s key k)]
    split
    · exact .ended _
    · exact .refl _
  | read | sent | expired | attended => exact .refl _

theorem Works.onward (works : Works heard event s s')
    (calls : ∀ draws address port, event ≠ .associate draws address port) (k : AssociationKey) :
    Onward (s.exchange k) (s'.exchange k) := by
  induction works with
  | refl => exact .refl _
  | tail _ work ih => exact ih.trans (work.onward calls k)

theorem onward_handleT1Expiration (s : Socket) (key : AssociationKey) (isInit : Bool)
    (retry : Deliverable) (k : AssociationKey) :
    Onward (s.exchange k) ((s.handleT1Expiration key isInit retry).exchange k) := by
  rcases handleT1Expiration_cases s key isInit retry with ⟨-, same⟩ | ⟨a, found, state,
    ended | ⟨left, resent⟩⟩
  · rw [same]
    exact .refl _
  · rw [exchange_of_find? ((congrArg (Socket.find? · k) ended).trans (find?_tearDown s key k))]
    split
    · exact .ended _
    · exact .refl _
  · rw [exchange_of_find? ((congrArg (Socket.find? · k) resent).trans
      (Socket.find?_setAssociation s key k _))]
    split
    · next here =>
      obtain ⟨x, y, before, after, step, -⟩ := exchange_resent state left
      rw [here, exchange_of_find? found, Option.bind_some, Option.bind_some, before, after]
      exact .on (.single step)
    · exact .refl _

/-- What T1 sends again counts, if the exchange goes on. -/
theorem weight_handleT1Expiration {isInit : Bool} {retry : Deliverable} {x y : Retry.Exchange}
    (waits : s.inState key (openingState isInit) = true) (before : s.exchange key = some x)
    (after : (s.handleT1Expiration key isInit retry).exchange key = some y) :
    y.weight maxInitRetransmits = x.weight maxInitRetransmits + 1 := by
  obtain ⟨a, found, state⟩ := (Option.any_eq_true _ _).mp waits
  rw [decide_eq_true_eq] at state
  rcases handleT1Expiration_cases s key isInit retry with ⟨apart, -⟩ | ⟨a', found', -,
    ended | ⟨left, resent⟩⟩
  · exact absurd state (apart a found)
  · rw [exchange_of_find? ((congrArg (Socket.find? · key) ended).trans (find?_tearDown s key key)),
      if_pos rfl] at after
    cases after
  · rw [found] at found'
    cases found'
    obtain ⟨x', y', before', after', -, weight⟩ := exchange_resent state left
    rw [exchange_of_find? found, Option.bind_some, before'] at before
    rw [exchange_of_find? ((congrArg (Socket.find? · key) resent).trans
      (Socket.find?_setAssociation s key key _)), if_pos rfl, Option.bind_some, after'] at after
    cases before
    cases after
    exact weight

end Steps

/-! ## Passages of a handshake -/

/-- A T1-init expiration handled in COOKIE-WAIT, or a T1-cookie expiration in
COOKIE-ECHOED. -/
def Passage.expiresT1 (p : Passage) (key : AssociationKey) : Bool :=
  p.timer.any fun f => decide (f.key.location = key) &&
    ((decide (f.key.type = .t1Init) && p.before.inState key .cookieWait)
      || (decide (f.key.type = .t1Cookie) && p.before.inState key .cookieEchoed))

/-- The association falls back from COOKIE-ECHOED to COOKIE-WAIT. -/
def Passage.fallsBack (p : Passage) (key : AssociationKey) : Bool :=
  p.before.inState key .cookieEchoed && p.after.inState key .cookieWait

/-- What a passage does to the exchange of an association. -/
inductive Passage.Goes (p : Passage) (key : AssociationKey) : Prop where
  | opened : p.before.find? key = none → p.after.exchange key = some ⟨false, 0, 0, 0⟩ →
      Passage.Goes p key
  | onward : Onward (p.before.exchange key) (p.after.exchange key) →
      (∀ x y, p.expiresT1 key = true → p.before.exchange key = some x → p.after.exchange key
        = some y → y.weight maxInitRetransmits = x.weight maxInitRetransmits + 1) →
          Passage.Goes p key

section Passages

variable {σ σ' : System} {event : Event} {p : Passage}

/-- A passage that is no timer's. -/
theorem Passage.Goes.untimed {s s' : Socket} {key : AssociationKey}
    (onward : Onward (s.exchange key) (s'.exchange key)) :
    Passage.Goes ⟨none, s, s'⟩ key := .onward onward fun _ _ expires => by cases expires

theorem Passage.expiresT1_of {f : ExpirationFallback} {s s' : Socket} {key : AssociationKey}
    (expires : Passage.expiresT1 ⟨some f, s, s'⟩ key = true) :
    f.key.location = key ∧ ∃ isInit, f.key.type = openingTimer isInit
      ∧ s.inState key (openingState isInit) = true := by
  unfold Passage.expiresT1 at expires
  rw [Option.any_some, Bool.and_eq_true, Bool.or_eq_true, Bool.and_eq_true, Bool.and_eq_true,
    decide_eq_true_eq, decide_eq_true_eq, decide_eq_true_eq] at expires
  obtain ⟨location, ⟨type, waits⟩ | ⟨type, waits⟩⟩ := expires
  · exact ⟨location, true, type, waits⟩
  · exact ⟨location, false, type, waits⟩

theorem handleExpiration_t1 {f : ExpirationFallback} {isInit : Bool}
    (type : f.key.type = openingTimer isInit) (s : Socket) (now : Time) (draws : Draws) :
    s.handleExpiration now draws f = s.handleT1Expiration f.key.location isInit f.retry := by
  unfold Socket.handleExpiration
  cases isInit with
  | true => rw [type]; rfl
  | false => rw [type]; rfl

theorem onward_handleExpiration (s : Socket) (now : Time) (draws : Draws) (f : ExpirationFallback)
    (key : AssociationKey) :
    Onward (s.exchange key) ((s.handleExpiration now draws f).exchange key) := by
  by_cases is : isT1 f.key.type = true
  · obtain ⟨isInit, type⟩ : ∃ isInit, f.key.type = openingTimer isInit := by
      cases type : f.key.type with
      | t1Init => exact ⟨true, rfl⟩
      | t1Cookie => exact ⟨false, rfl⟩
      | _ =>
        rw [type] at is
        cases is
    rw [handleExpiration_t1 type]
    exact onward_handleT1Expiration s _ isInit _ key
  · have deeds : Deeds (fun _ => True) f.key.location s (s.handleExpiration now draws f) :=
      Deeds.handleExpiration s now draws f (fun t1 => absurd t1 is) fun _ => trivial
    exact deeds.onward key

theorem goes_handleExpiration (s : Socket) (now : Time) (draws : Draws) (f : ExpirationFallback)
    (key : AssociationKey) :
    Passage.Goes ⟨some f, s, s.handleExpiration now draws f⟩ key := by
  refine .onward (onward_handleExpiration s now draws f key) fun x y expires before after => ?_
  obtain ⟨rfl, isInit, type, waits⟩ := Passage.expiresT1_of expires
  simp only [handleExpiration_t1 type] at after
  exact weight_handleT1Expiration waits before after

theorem goes_sctpAssociate (s : Socket) (draws : Draws) (toAddress : SockAddr) (port : Port)
    (key : AssociationKey) :
    Passage.Goes ⟨none, s, (s.sctpAssociate draws toAddress port).2⟩ key := by
  unfold Socket.sctpAssociate
  split
  · exact .untimed (.refl _)
  · simp only
    split
    · exact .untimed (.refl _)
    · next unknown =>
      have absent := absent_of_unknown unknown
      by_cases here : key = peerKey toAddress port
      · rw [← here] at absent
        refine .opened absent ?_
        rw [here] at absent ⊢
        exact exchange_of_find? ((find?_emplace absent _ _).trans (if_pos rfl))
      · refine .untimed ?_
        have same : (s.associations.emplace (peerKey toAddress port)
            (initNewAssociation draws toAddress)).get? key = s.find? key :=
          (find?_emplace absent _ key).trans (if_neg here)
        exact (congrArg (fun tcb : Option Association =>
          Onward (s.exchange key) (tcb.bind Association.exchange)) same).mpr (.refl _)

/-- What a handler does to an exchange. -/
theorem System.goes_passages (standing : Standing σ.socket) (stepped : σ.step event = some σ')
    (member : p ∈ σ.passages event) (key : AssociationKey) : p.Goes key := by
  rcases step_cases stepped with ⟨now, draws, packet, src, rfl, -, -⟩ | ⟨now, draws, rfl, -,
    -⟩ | ⟨rfl, -, rfl⟩
    | ⟨now, accepted, left, rfl, -, -⟩ | ⟨s, called, rfl⟩
  · obtain ⟨turn, inside, rfl⟩ := List.mem_map.mp member
    exact .untimed ((sane_turns standing inside).deeds.onward key)
  · rcases List.mem_cons.mp member with rfl | timer
    · exact .untimed (.refl _)
    · obtain ⟨pair, -, same⟩ := mem_timerPassages timer
      rw [same]
      exact goes_handleExpiration p.before now (draws pair.2) pair.1 key
  · simp only [passages, stepped, List.mem_singleton] at member
    subst member
    have all : Work (fun _ => False) .startSending σ.socket σ.socket.startTransmissionOpportunity :=
      .all _ (fun _ _ => rfl) fun _ _ => .of_eq rfl rfl
    exact .untimed (all.onward (fun _ _ _ => Event.noConfusion) key)
  · obtain ⟨next, out⟩ : Works (fun _ => False) (.send now accepted) σ.socket _
      ∧ _ := Works.nextPacket standing now
    unfold passages at member
    simp only at member
    rcases List.mem_cons.mp member with rfl | later
    · exact .untimed (next.onward (fun _ _ _ => Event.noConfusion) key)
    · cases pending : (σ.socket.nextPacket now).pending with
      | none =>
        rw [pending] at later
        cases later
      | some picked =>
        simp only [pending, List.mem_singleton] at later
        subst later
        refine .untimed ?_
        split
        · have sent : Works (fun _ => False) (.send now accepted) _ _ :=
            Works.packetSent (out picked pending) now
          exact sent.onward (fun _ _ _ => Event.noConfusion) key
        · have refused : Works (fun _ => False) (.send now accepted) _ _ :=
            Works.packetRefused (out picked pending) now
          exact refused.onward (fun _ _ _ => Event.noConfusion) key
  · have works : Works (fun _ => True) event σ.socket s := .call called fun _ => trivial
    cases event with
    | recv | expire | startSending | send => cases called
    | associate draws toAddress port =>
      simp only [passages, stepped, List.mem_singleton] at member
      cases called
      rw [member]
      exact goes_sctpAssociate σ.socket draws toAddress port key
    | _ =>
      simp only [passages, stepped, List.mem_singleton] at member
      rw [member]
      exact .untimed (works.onward (fun _ _ _ => Event.noConfusion) key)

theorem System.History.goes {passed : List Passage} (history : History σ passed)
    (member : p ∈ passed) (key : AssociationKey) :
    p.Goes key := by
  induction history with
  | start initial => cases member
  | next before stepped ih =>
    rcases List.mem_append.mp member with old | new
    · exact ih old
    · exact goes_passages before.reached.standing stepped new key

end Passages

/-! ## Along a handshake -/

section Handshake

variable {p : Passage} {passed : List Passage} {s s' : Socket} {key : AssociationKey}
    {x : Retry.Exchange}

/-- Every exchange under the key is within its bounds. -/
def ExchangeWithin (s : Socket) (key : AssociationKey) : Prop :=
  ∀ x, s.exchange key = some x → x.Within maxInitRetransmits maxStaleCookieRetries

theorem Passage.Goes.within (goes : p.Goes key) (within : ExchangeWithin p.before key) :
    ExchangeWithin p.after key := by
  intro y after
  cases goes with
  | opened _ fresh =>
    rw [after] at fresh
    cases fresh
    exact ⟨Nat.zero_le _, Nat.zero_le _, Nat.zero_le _⟩
  | onward onward =>
    rw [after] at onward
    generalize before : p.before.exchange key = o at onward
    cases onward with
    | on course => exact Retry.Exchange.Course.within course (within _ before)

theorem Passes.within (passes : Passes s passed s') (goes : ∀ p ∈ passed, p.Goes key)
    (within : ExchangeWithin s key) :
    ExchangeWithin s' key := by
  induction passes with
  | nil => exact within
  | cons p _ ih =>
    obtain ⟨first, rest⟩ := List.forall_mem_cons.mp goes
    exact ih rest (first.within within)

theorem isSome_socketExchange (s : Socket) (key : AssociationKey) :
    (s.exchange key).isSome = s.opens key := by
  unfold Socket.exchange Socket.opens
  cases s.find? key with
  | none => rfl
  | some a => exact isSome_exchange a

/-- Falling back from one request to the other is what an exchange shows of it. -/
theorem Passage.fallsBack_of (falls : p.fallsBack key = true) :
    ∃ x y, p.before.exchange key = some x
    ∧ p.after.exchange key = some y ∧ x.second = true ∧ y.second = false := by
  unfold Passage.fallsBack Socket.inState at falls
  rw [Bool.and_eq_true, Option.any_eq_true, Option.any_eq_true] at falls
  obtain ⟨⟨a, before, echoed⟩, b, after, waits⟩ := falls
  rw [decide_eq_true_eq] at echoed waits
  exact ⟨_, _, (exchange_of_find? before).trans (exchange_of_echoed echoed),
    (exchange_of_find? after).trans (exchange_of_waiting waits), rfl, rfl⟩

/-- While the handshake goes on, every T1 expiration handled adds to its weight, but for
the one that gives up; and every fall back is another restart. -/
theorem Passes.effort (passes : Passes s passed s') (goes : ∀ p ∈ passed, p.Goes key)
    (waits : ∀ p ∈ passed, p.before.opens key = true) (before : s.exchange key = some x)
    (within : x.Within maxInitRetransmits maxStaleCookieRetries) :
    passed.countP (fun p => p.expiresT1 key) + x.weight maxInitRetransmits
        ≤ 2 * maxInitRetransmits * (maxStaleCookieRetries + 1) + 1
      ∧ passed.countP (fun p => p.fallsBack key) + x.restarts ≤ maxStaleCookieRetries := by
  induction passes generalizing x with
  | nil => exact ⟨by simpa using Nat.le_succ_of_le within.weight_le, by simpa using within.restarts⟩
  | @cons p rest s' linked ih =>
    obtain ⟨first, others⟩ := List.forall_mem_cons.mp goes
    rw [List.countP_cons, List.countP_cons]
    cases first with
    | opened absent =>
      rw [exchange_of_find? absent] at before
      cases before
    | onward onward counts =>
      rw [before] at onward
      generalize after : p.after.exchange key = o at onward
      cases onward with
      | ended =>
        -- What comes after it would wait for an answer.
        have last : rest = [] := by
          cases rest with
          | nil => rfl
          | cons q _ =>
            have opens := waits q (by simp)
            rw [← isSome_socketExchange, linked.head, after] at opens
            cases opens
        have stays : ¬p.fallsBack key = true := by
          intro falls
          obtain ⟨_, y, -, after', -⟩ := Passage.fallsBack_of falls
          rw [after] at after'
          cases after'
        rw [last, List.countP_nil, List.countP_nil, if_neg stays]
        refine ⟨?_, by simpa using within.restarts⟩
        have bounded := within.weight_le
        split <;> omega
      | @on _ y course =>
        have bounded := Retry.Exchange.Course.within course within
        obtain ⟨total, restarts⟩ := ih others (fun q member =>
          waits q (List.mem_cons_of_mem p member)) after bounded
        constructor
        · split
          · next expires =>
            have more := counts x y expires before after
            omega
          · have more := Retry.Exchange.Course.weight_le course within
            omega
        · split
          · next falls =>
            obtain ⟨x', y', before', after', second, first⟩ := Passage.fallsBack_of falls
            rw [before] at before'
            rw [after] at after'
            cases before'
            cases after'
            have more := Retry.Exchange.Course.restarts_lt course second first
            omega
          · have more := Retry.Exchange.Course.restarts_le course
            omega

end Handshake

/-- However the packets of the peer and the timers come: while an association is in
COOKIE-WAIT or COOKIE-ECHOED, all the T1-init expirations handled in the first and the
T1-cookie expirations handled in the second are at most
`2 * (maxStaleCookieRetries + 1) * (maxInitRetransmits + 1)`, and it falls back from the
second to the first at most `maxStaleCookieRetries` times. -/
theorem handshake_effort_bounded {σ : System} {passed earlier effort later : List Passage}
    {key : AssociationKey} (history : System.History σ passed)
    (split : passed = earlier ++ effort ++ later)
    (waits : ∀ p ∈ effort, p.before.opens key = true) :
    effort.countP (fun p => p.expiresT1 key)
      ≤ 2 * (maxStaleCookieRetries + 1) * (maxInitRetransmits + 1)
      ∧ effort.countP (fun p => p.fallsBack key) ≤ maxStaleCookieRetries := by
  subst split
  have goes : ∀ p ∈ earlier ++ effort ++ later, p.Goes key := fun p member =>
    history.goes member key
  obtain ⟨σ₀, ⟨address, rfl⟩, passes⟩ := history.passes
  obtain ⟨s₁, front, -⟩ := passes.split
  obtain ⟨s, first, during⟩ := front.split
  have within : ExchangeWithin s key := by
    refine Passes.within first (fun p member => goes p (by simp [member])) fun x before => ?_
    cases before
  cases before : s.exchange key with
  | none =>
    -- The attempt has not begun: no passage of it is there.
    cases effort with
    | nil => exact ⟨Nat.zero_le _, Nat.zero_le _⟩
    | cons p _ =>
      have opens := waits p List.mem_cons_self
      rw [← isSome_socketExchange, during.head, before] at opens
      cases opens
  | some x =>
    obtain ⟨total, restarts⟩ := Passes.effort during (fun p member => goes p (by simp [member]))
      waits before (within x before)
    refine ⟨?_, (Nat.le_add_right _ _).trans restarts⟩
    calc effort.countP (fun p => p.expiresT1 key)
      ≤ 2 * maxInitRetransmits * (maxStaleCookieRetries + 1) + 1 :=
        (Nat.le_add_right _ _).trans total
      _ ≤ 2 * (maxStaleCookieRetries + 1) * (maxInitRetransmits + 1) := by decide

namespace Opened

/-- INIT and COOKIE ECHO are each sent again, and the cookie is stale. -/
def sentBack : List Event :=
  [.associate draws peer 5000#16] ++ batch 1 ++ [.expire 1000000000 fun _ => draws] ++ batch 1
    ++ [arrives [initAck]] ++ batch 1 ++ [.expire 3000000000 fun _ => draws] ++ batch 1
    ++ [arrives [⟨0#8, .opError [⟨causeStaleCookie, [0#8, 0#8, 0#8, 0#8]⟩]⟩]]

end Opened

/-- A handshake that tries both its packets again and falls back once. -/
theorem effort_of_sent_back : ∃ (σ : System) (passed earlier effort : List Passage),
    System.History σ passed
    ∧ passed = earlier ++ effort ++ [] ∧ (∀ p ∈ effort, p.before.opens Opened.key = true)
    ∧ effort.countP (fun p => p.expiresT1 Opened.key) = 2
    ∧ effort.countP (fun p => p.fallsBack Opened.key) = 1
    ∧ effort.countP (fun p => p.expiresT1 Opened.key)
      ≤ 2 * (maxStaleCookieRetries + 1) * (maxInitRetransmits + 1) := by
  obtain ⟨σ, passed, history, ends⟩ := Opened.exists_history Opened.sentBack
    (p := fun w : System × List Passage =>
      ((w.2.drop 1).all fun p : Passage => p.before.opens Opened.key)
        && (w.2.drop 1).countP (fun p : Passage => p.expiresT1 Opened.key) == 2
      && (w.2.drop 1).countP (fun p : Passage => p.fallsBack Opened.key) == 1) (by decide +kernel)
  rw [Bool.and_eq_true, Bool.and_eq_true, List.all_eq_true, beq_iff_eq, beq_iff_eq] at ends
  obtain ⟨⟨waits, expirations⟩, falls⟩ := ends
  have split : passed = passed.take 1 ++ passed.drop 1 ++ [] := by
    rw [List.append_nil, List.take_append_drop]
  exact ⟨σ, passed, passed.take 1, passed.drop 1, history, split, waits, expirations, falls,
    (handshake_effort_bounded history split waits).1⟩

end SctpStack
