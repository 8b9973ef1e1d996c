import SctpStack.MoveEffects

/-!
# The terms of an association

The tags, the streams and the addresses of an association are agreed on the ways into it.
A move leaves them alone, with what was received, or removes the association (`Move.kept`).
-/

namespace SctpStack

/-- What the two ends agreed on. -/
structure Terms where
  thisVerTag : Tag
  peerVerTag : Tag
  inStreams : BitVec 16
  outStreams : BitVec 16
  ssns : Nat
  pmdcs : Nat
  ips : List (BitVec 32)

def Essence.terms (e : Essence) : Terms where
  thisVerTag := e.thisVerTag
  peerVerTag := e.peerVerTag
  inStreams := e.inStreams
  outStreams := e.outStreams
  ssns := e.ssns
  pmdcs := e.pmdcs
  ips := e.ips

def Association.terms (a : Association) : Terms := a.essence.terms

/-! ## Moves -/

/-- The terms and what was received are as they were, COOKIE-WAIT is not left, and nothing
that is up begins to form again. -/
structure Stays (a b : Association) : Prop where
  terms : b.terms = a.terms
  holds : StillHolds a b
  waits : a.state = .cookieWait → b.state = .cookieWait
  forms : forming b.state = true → forming a.state = true

theorem Stays.trans {a b c : Association} (first : Stays a b) (second : Stays b c) : Stays a c :=
  ⟨second.terms.trans first.terms, first.holds.trans second.holds, fun waits =>
    second.waits (first.waits waits),
    fun forms => first.forms (second.forms forms)⟩

theorem Same.stays {a b : Association} (same : Same a b) : Stays a b := by
  have state : b.state = a.state := congrArg Essence.state same.essence
  refine ⟨congrArg Essence.terms same.essence, same.holds, state.trans, fun forms => ?_⟩
  rwa [state] at forms

/-- A state past COOKIE-WAIT. -/
theorem not_waiting {state : AssociationState} (other : state ≠ .cookieWait) {p : Prop} :
    state = .cookieWait → p :=
  fun same => absurd same other

/-- A state past the handshake. -/
theorem not_forming {state : AssociationState} (up : forming state = false) {p : Prop} :
    forming state = true → p :=
  fun forms => absurd (up.symm.trans forms) Bool.false_ne_true

theorem ne_cookieWait_of_transmits {state : AssociationState}
    (transmits : transmitsData state = true) :
    state ≠ .cookieWait := by
  rintro rfl
  cases transmits

theorem forming_of_transmits {state : AssociationState} (transmits : transmitsData state = true) :
    forming state = false := by
  cases state <;> first | rfl | cases transmits

theorem Shift.up {a b : Association} (shift : Shift a b) : forming b.state = false := by
  cases shift with
  | queued essence _ state =>
    have same : b.state = a.state := congrArg Essence.state essence
    rw [same, state]
    rfl
  | cut n essence _ state =>
    have same : b.state = a.state := congrArg Essence.state essence
    rw [same]
    exact forming_of_transmits state
  | answered _ _ _ state =>
    rw [state]
    rfl

theorem Stepped.up {a b : Association} (stepped : Stepped a b) : forming b.state = false := by
  rcases stepped.state with ⟨-, state⟩ | ⟨-, state⟩
  · rw [state]
    rfl
  · rw [state]
    rfl

theorem Closing.stays {a b : Association} (closing : Closing a b) : Stays a b :=
  ⟨(congrArg Essence.terms closing.essence :), closing.holds,
    not_waiting (ne_cookieWait_of_transmits closing.before),
    not_forming (forming_of_transmits closing.after)⟩

theorem Shift.stays {a b : Association} (shift : Shift a b) : Stays a b := by
  have up := shift.up
  cases shift with
  | queued essence holds state =>
    refine ⟨(congrArg Essence.terms essence :), holds, not_waiting ?_, not_forming up⟩
    rw [state]
    exact nofun
  | cut n essence holds state _ _ =>
    exact ⟨(congrArg Essence.terms essence :), holds,
      not_waiting (ne_cookieWait_of_transmits state), not_forming up⟩
  | answered essence holds state _ =>
    refine ⟨(congrArg Essence.terms essence :), holds, not_waiting ?_, not_forming up⟩
    rcases state with sent | ackSent
    · rw [sent]
      exact nofun
    · rw [ackSent]
      exact nofun

theorem Stepped.stays {a b : Association} (stepped : Stepped a b) : Stays a b := by
  refine ⟨(congrArg Essence.terms stepped.essence :), stepped.holds, not_waiting ?_,
    not_forming stepped.up⟩
  rcases stepped.state with ⟨pending, -⟩ | ⟨received, -⟩
  · rw [pending]
    exact nofun
  · rw [received]
    exact nofun

theorem at_stays {R : Association → Association → Prop} {key k : AssociationKey} {a b : Association}
    (each : ∀ a b, R a b → Stays a b) (related : At key R k a b) : Stays a b := by
  unfold At at related
  split at related
  · exact each a b related
  · exact related.stays

/-- One association is gone, and with it the addresses it was found by. -/
structure Gone (key : AssociationKey) (s s' : Socket) : Prop where
  localAddress : s'.localAddress = s.localAddress
  find? : ∀ k, s'.find? k = if k = key then none else s.find? k
  peerAddresses : s'.peerAddresses = (s.forgetPeerAddresses key).peerAddresses

theorem Removed.gone {key : AssociationKey} {s s' : Socket} (removed : Removed key s s') :
    Gone key s s' :=
  ⟨removed.localAddress, removed.find?, removed.peerAddresses⟩

/-- A move keeps the terms of every association and what it received, after one is removed
if one is. -/
theorem Move.kept {s s' : Socket} (move : Move s s') :
    Lasting (fun _ => Stays) s s' ∨ ∃ key s₁, Gone key s s₁ ∧ Lasting (fun _ => Stays) s₁ s' := by
  have stays : ∀ key a, (fun _ => Stays : AssociationKey → _) key a a := fun _ a =>
    (Same.refl a).stays
  cases move with
  | quiet quiet => exact Or.inl (quiet.lasting.mono fun _ _ _ => Same.stays)
  | shift key shifted => exact Or.inl (shifted.lasting.mono fun _ _ _ => at_stays fun _ _ =>
      Shift.stays)
  | removed key removed => exact Or.inr ⟨key, _, removed.gone, .of_same stays rfl rfl fun _ => rfl⟩
  | completed key a found closing removed quiet =>
    exact Or.inr ⟨key, _, removed.gone, ⟨quiet.localAddress, quiet.peerAddresses, quiet.absent,
      fun k b here => by
      obtain ⟨c, after, same⟩ := quiet.present k b here
      exact ⟨c, after, same.stays⟩⟩⟩
  | up key a found echoed =>
    refine Or.inl (Keeping.update (R := fun _ => Stays) _ (fun k a _ => stays k a) fun b here =>
      ?_).lasting
    rw [found] at here
    cases here
    refine ⟨rfl, ⟨rfl, rfl, Or.inl rfl⟩, not_waiting ?_, not_forming rfl⟩
    rw [echoed]
    exact nofun
  | settled key isInit none => exact Or.inl (.of_same stays rfl rfl fun _ => rfl)
  | dropped key isInit none => exact Or.inl (.of_same stays rfl rfl fun _ => rfl)
  | closed key now closing =>
    refine Or.inl (closing.lasting.comp (lasting_doNextShutdownStep _ now key)
      fun k a b c first second => ?_)
    refine (at_stays (fun _ _ => Closing.stays) first).trans (at_stays (fun a b step => ?_) second)
    split at step
    · exact step.stays
    · rw [step]
      exact (Same.refl a).stays
  | sent p now leaves => exact Or.inl ((steady_packetSent s now p).mono fun _ _ _ => Same.stays)

end SctpStack
