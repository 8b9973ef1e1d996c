import SctpStack.SentOut

/-!
# What a step of the socket is made of

Every step is a sequence of calm steps, of acknowledgements, of retransmissions being
scheduled, of packets being cut and of packets going out. What each of these keeps, a
step keeps (`System.step_keeps`), and an invariant of the sender is proved by one lemma
for each of them.
-/

namespace SctpStack

/-- Every timer counts as waiting for its handler: what is left of `Orderly` then does
not depend on the timers. -/
def everyDue : AssociationKey → BitVec 32 → Prop := fun _ _ => True

theorem Orderly.everyDue {s : Socket} {due : AssociationKey → BitVec 32 → Prop}
    (ok : Orderly s due) :
    Orderly s everyDue :=
  ⟨ok.queues, fun k => (ok.keys k).handled fun _ _ _ _ _ _ _ _ => trivial⟩

theorem Orderly.drained {s : Socket} (ok : Orderly s SctpStack.everyDue) (now : Time) :
    Orderly { s with expirations := (s.expirations.drainExpired now).2 } SctpStack.everyDue := by
  obtain ⟨-, left, -⟩ := ExpirationQueue.drainExpiredFrom_spec now s.expirations.queue.length
    s.expirations
  refine ⟨⟨ok.queues.control, ok.queues.retransmission, ok.queues.newData, ok.queues.distinct,
    ok.queues.known,
    fun f member => ok.queues.retries f (left member)⟩, fun key =>
      ⟨(ok.keys key).absent, fun a found => ?_⟩⟩
  have old := (ok.keys key).assoc a found
  refine ⟨old.paths, old.forming, fun transmits => ?_⟩
  have covered := old.covered transmits
  exact ⟨covered.named, covered.placed, covered.newTo, covered.rtxTo,
    fun _ _ _ _ => Or.inr (Or.inr (Or.inr trivial))⟩

theorem Orderly.handleT3Expiration {s : Socket} (ok : Orderly s SctpStack.everyDue)
    (key : AssociationKey) (destination : SockAddr) :
    Orderly (s.handleT3Expiration key destination) SctpStack.everyDue := by
  obtain ⟨here, aside, queues⟩ := handleT3Expiration_keyOk (ok.keys key) destination (fun _ => True)
    fun _ _ => Or.inr trivial
  exact ok.aside aside (queues ok.queues) here

/-- A step that sends on from where it was: nothing is acknowledged. -/
structure ResendStep (key : AssociationKey) (s s' : Socket) (a b : Association) : Prop where
  found : s.find? key = some a
  step : SenderStep key keepAll s s' a b
  state : b.state = a.state
  cumulativeTsnAck : b.cumulativeTsnAck = a.cumulativeTsnAck
  gaps : SameGaps a b

/-- A packet of DATA that went out, for an association that may have stopped sending. -/
structure OutStep (p : Pending) (sentAt : Time) (s s' : Socket) (a : Association) : Prop where
  found : s.find? p.deliverable.location = some a
  picked : DataPicked s p
  step : SentStep p sentAt s s' a

/-- What an invariant of the sender has to be kept by, for `post` to hold after a step.
The list is what was cut since the step began; a packet goes out last. -/
structure Keeps (inv post : Socket → List (AssociationKey × DataChunkValue) → Prop) : Prop where
  calm : ∀ {s s' cut}, Orderly s everyDue → Calm False s s' → inv s cut → inv s' cut
  drain : ∀ {s} now, inv s [] → inv { s with expirations := (s.expirations.drainExpired now).2 } []
  opportunity : ∀ {s}, inv s [] → inv s.startTransmissionOpportunity []
  resend : ∀ {s s' key a b}, Orderly s everyDue → ResendStep key s s' a b → inv s [] → inv s' []
  cuts : ∀ {s s' key a b cut chunks}, Orderly s everyDue → s.find? key = some a →
    transmitsData a.state = true → CutStep key chunks s s' a b → inv s cut →
      inv s' (cut ++ chunks.map (Prod.mk key))
  sent : ∀ {s s' p sentAt a cut}, Orderly s everyDue → OutStep p sentAt s s' a → inv s cut →
    post s' cut
  done : ∀ {s cut}, inv s cut → post s cut

section Steps

variable {inv post : Socket → List (AssociationKey × DataChunkValue) → Prop} {s : Socket}

/-- An invariant and what it may rely on. -/
abbrev Along (inv : Socket → List (AssociationKey × DataChunkValue) → Prop) (s : Socket)
    (cut : List (AssociationKey × DataChunkValue)) : Prop := inv s cut ∧ Orderly s everyDue

theorem Keeps.calmAlong (keeps : Keeps inv post) {strict : Prop} {s s' : Socket}
    {cut : List (AssociationKey × DataChunkValue)} (calm : Calm strict s s')
    (holds : Along inv s cut) :
    Along inv s' cut :=
  ⟨keeps.calm holds.2 calm.weaken holds.1, holds.2.calm calm.weaken⟩

theorem Keeps.handlePacket (keeps : Keeps inv post) (now : Time) (draws : Nat → Draws)
    (packet : Packet) (src : SockAddr)
    (acks : ∀ s' key carried, s.dispatch now draws packet src = some (s', key, carried) → ∀ chunk,
      chunk ∈ Socket.chunksToHandle packet carried → ∀ s₁ s₂ a b, Orderly s₁ everyDue →
      AckStep key chunk s₁ s₂ a b → inv s₁ [] → inv s₂ [])
    (holds : Along inv s []) : Along inv (s.handlePacket now draws packet src) [] := by
  refine handlePacket_keeps (fun s => Along inv s []) (fun s s' (calm : Calm False s s') =>
    keeps.calmAlong calm) (fun _ holds => holds.2.empty)
      (fun s' key carried dispatched chunk member acking s₁ draws₁ holds => ?_)
    (fun _ key _ s'' _ _ holds => keeps.calmAlong (.handleDataPacket s'' key now _ src _) holds)
      holds
  rcases handleAck_cases s₁ now draws₁ packet.header key src acking with calm | ⟨s₂, a, b, step,
    closes⟩
  · exact keeps.calmAlong calm holds
  · rw [closes]
    have closing : Calm False s₂ (s₂.doNextShutdownStep now key) := .doNextShutdownStep s₂ key now
    refine keeps.calmAlong closing ⟨?_, step.orderly _ holds.2⟩
    exact acks s' key carried dispatched chunk member s₁ s₂ a b holds.2 step holds.1

theorem Keeps.runExpire (keeps : Keeps inv post) (now : Time) (draws : Nat → Draws)
    (holds : Along inv s []) :
    Along inv (s.runExpire now draws) [] := by
  refine runExpire_keeps (fun s => Along inv s []) now draws
    (fun s s' (calm : Calm True s s') => keeps.calmAlong calm)
    (fun s₁ key destination holds => ?_) holds.2.queues.retries ⟨keeps.drain now holds.1,
    holds.2.drained now⟩
  rcases handleT3Expiration_cases s₁ key destination with calm | ⟨a, b, found, -, step, state,
    cumulative, gaps⟩
  · exact keeps.calmAlong calm holds
  · exact ⟨keeps.resend holds.2 ⟨found, step, state, cumulative, gaps⟩ holds.1,
      holds.2.handleT3Expiration key destination⟩

theorem Keeps.schedulePending (keeps : Keeps inv post) (key : AssociationKey) (gated : Bool)
    (holds : Along inv s []) :
    Along inv (s.schedulePendingRetransmission key gated) [] := by
  refine ⟨?_, holds.2.schedulePending key gated⟩
  cases found : s.find? key with
  | none =>
    unfold Socket.schedulePendingRetransmission
    simpa only [found] using holds.1
  | some a =>
    obtain ⟨b, step, state, cumulative, -, gaps⟩ := schedulePendingRetransmission_step found gated
    exact keeps.resend holds.2 ⟨found, step, state, cumulative, gaps⟩ holds.1

theorem Keeps.nextPacket (keeps : Keeps inv post) (now : Time) (holds : Along inv s []) :
    Along inv (s.nextPacket now).socket (s.nextPacket now).cut :=
  nextPacket_keeps (Along inv) now holds (fun _ _ _ holds calm => keeps.calmAlong calm holds)
    (fun _ key holds => keeps.schedulePending key true holds)
    fun _ _ _ _ _ _ _ holds found transmits step =>
      ⟨keeps.cuts holds.2 found transmits step holds.1, holds.2.cut found transmits step⟩

/-- A packet that goes out is calm, or carries DATA of an association. -/
theorem Keeps.packetSent (keeps : Keeps inv post) {p : Pending}
    {cut : List (AssociationKey × DataChunkValue)} (picked : Picked s.sends p) (sentAt : Time)
    (holds : Along inv s cut) : post (s.packetSent sentAt p) cut := by
  rcases packetSent_cases holds.2.queues picked sentAt with ⟨-, calm⟩ | picked
  · exact keeps.done (keeps.calm holds.2 calm.weaken holds.1)
  · cases found : s.find? p.deliverable.location with
    | none => exact absurd (holds.2.empty _ found) picked.not_nothing
    | some a =>
      exact keeps.sent holds.2 ⟨found, picked,
        packetSent_step sentAt picked.committed picked.carries found⟩ holds.1

theorem Keeps.sendOne (keeps : Keeps inv post) {σ : System} (now : Time) (accepted : Bool)
    (left : Nat) (holds : Along inv σ.socket []) :
    post (σ.sendOne now accepted left).socket (σ.socket.nextPacket now).cut := by
  have next := keeps.nextPacket now holds
  have refilled := (holds.2.nextPacket now).1
  unfold System.sendOne
  simp only
  cases pending : (σ.socket.nextPacket now).pending with
  | none => exact keeps.done next.1
  | some p =>
    simp only
    split
    · exact keeps.packetSent (picked_nextPacket refilled.queues pending) now next
    · exact keeps.done (keeps.calm next.2 (.packetRefused _ now p) next.1)

end Steps

theorem System.cutAs_sendOne (σ : System) (now : Time) (accepted : Bool) (left : Nat) :
    (σ.sendOne now accepted left).cutAs = (σ.socket.nextPacket now).cut.foldl recordCut
      σ.cutAs := by
  unfold System.sendOne
  simp only
  split
  · rfl
  · split <;> rfl

/-- What each kind of step keeps, and each acknowledgement the packet at hand may
carry, a step of the socket keeps. -/
theorem System.step_keeps {inv post : Socket → List (AssociationKey × DataChunkValue) → Prop}
    (keeps : Keeps inv post) {σ σ' : System} {event : Event} (ok : Orderly σ.socket noneDue)
    (acks : ∀ now draws packet src, event = .recv now draws packet src → ∀ s' key carried,
      σ.socket.dispatch now draws packet src = some (s', key, carried) → ∀ chunk,
      chunk ∈ Socket.chunksToHandle packet carried → ∀ s₁ s₂ a b, Orderly s₁ everyDue →
      AckStep key chunk s₁ s₂ a b → inv s₁ [] → inv s₂ [])
    (holds : inv σ.socket []) (stepped : σ.step event = some σ') :
    ∃ cut, post σ'.socket cut ∧ σ'.cutAs = cut.foldl recordCut σ.cutAs := by
  have along : Along inv σ.socket [] := ⟨holds, ok.everyDue⟩
  rcases step_cases stepped with ⟨now, draws, packet, src, rfl, -, rfl⟩ | ⟨now, draws, -, -,
    rfl⟩ | ⟨-, -, rfl⟩
    | ⟨now, accepted, left, -, -, rfl⟩ | ⟨s, called, rfl⟩
  · exact ⟨[], keeps.done (keeps.handlePacket now draws packet src (acks now draws packet src rfl)
      along).1, rfl⟩
  · exact ⟨[], keeps.done (keeps.runExpire now draws along).1, rfl⟩
  · exact ⟨[], keeps.done (keeps.opportunity holds), rfl⟩
  · exact ⟨_, keeps.sendOne now accepted left along, cutAs_sendOne σ now accepted left⟩
  · exact ⟨[], keeps.done (keeps.calm along.2 (Calm.call called ok.empty) holds), rfl⟩

/-! ## Properties of the associations that send -/

/-- A property of every association that sends. -/
def Sends (P : Socket → AssociationKey → Association → Prop) (s : Socket) : Prop :=
  ∀ key a, s.find? key = some a → transmitsData a.state = true → P s key a

/-- A property that holds of an association that has sent nothing, and that calm steps
keep. -/
structure SenderProp (P : Socket → AssociationKey → Association → Prop) : Prop where
  fresh : ∀ {s key a}, FreshAssoc False a → NothingQueued s key → P s key a
  same : ∀ {s s' key a b}, SameCore False a b → SameQueued s s' key →
    (∀ ip, t3Active s' key ip = t3Active s key ip) → P s key a → P s' key b

section SenderProp

variable {P : Socket → AssociationKey → Association → Prop} {s s' : Socket}
  {due : AssociationKey → BitVec 32 → Prop} {key : AssociationKey}

theorem SenderProp.keyStep (prop : SenderProp P) (ok : KeyOk s (due key) key)
    (step : KeyStep False s s' key) (holds : ∀ a, s.find? key = some a → transmitsData a.state
      = true → P s key a) :
    ∀ b, s'.find? key = some b → transmitsData b.state = true → P s' key b := by
  intro b after transmits
  cases step with
  | absent _ gone => rw [after] at gone; cases gone
  | gone gone => rw [after] at gone; cases gone
  | fresh b' here new empty =>
    rw [after] at here
    cases here
    exact prop.fresh new empty
  | same a b' before here core queued timers =>
    rw [after] at here
    cases here
    rcases core.transmits transmits with did | forms
    · exact prop.same core queued (timers did transmits) (holds a before did)
    -- It has come up just now, and has sent nothing.
    · obtain ⟨new, empty⟩ := (ok.assoc a before).forming forms
      exact prop.fresh (core.fresh new) (queued.nothing empty)

theorem SenderProp.calm (prop : SenderProp P) (ok : Orderly s due) (calm : Calm False s s')
    (holds : Sends P s) :
    Sends P s' :=
  fun k => prop.keyStep (ok.keys k) (calm.keys k) (holds k)

/-- A step on one association, the others left alone. -/
theorem SenderProp.aside (prop : SenderProp P) (ok : Orderly s due) (aside : Aside True key s s')
    {b : Association} (found : s'.find? key = some b)
    (here : transmitsData b.state = true → P s' key b) (holds : Sends P s) :
    Sends P s' := by
  intro k c after transmits
  by_cases same : k = key
  · subst same
    rw [found] at after
    cases after
    exact here transmits
  · exact prop.keyStep (ok.keys k) (aside k same).weaken (holds k) c after transmits

end SenderProp

end SctpStack
