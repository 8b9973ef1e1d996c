import SctpStack.Covered

/-!
# What an acknowledgement does

SACK and SHUTDOWN are the two chunks that acknowledge. Either is calm, or it moves the
cumulative point of one association forward, not past what was assigned, and drops what
lies at or below it.
-/

namespace SctpStack

/-- Whether a chunk acknowledges a TSN. -/
def acknowledges (chunk : Chunk) (tsn : Tsn) : Bool :=
  match chunk.value with
  | .sack sack => sackAcknowledges sack tsn
  | .shutdown cumulativeTsnAck => tsnLte tsn cumulativeTsnAck
  | _ => false

/-- The cumulative point of `a` moved: what lies at or below it is dropped. -/
structure AckStep (key : AssociationKey) (chunk : Chunk) (s s' : Socket) (a b : Association) :
    Prop where
  found : s.find? key = some a
  transmits : transmitsData a.state = true
  state : b.state = a.state ∨ b.state = .shutdownReceived
  orderly : ∀ due, Orderly s due → Orderly s' due
  moved : (SenderStep key keepAll s s' a b ∧ b.cumulativeTsnAck = a.cumulativeTsnAck)
    ∨ (SenderStep key (fun tsn => tsnLte tsn b.cumulativeTsnAck) s s' a b
      ∧ tsnLt b.cumulativeTsnAck a.cumulativeTsnAck = false ∧ tsnLt b.cumulativeTsnAck a.nextTsn
        = true
      ∧ ∀ tsn, tsnLte tsn b.cumulativeTsnAck = true → acknowledges chunk tsn = true)

/-- The step on the sender, whatever is dropped. -/
theorem AckStep.sender {key : AssociationKey} {chunk : Chunk} {s s' : Socket} {a b : Association}
    (step : AckStep key chunk s s' a b) : ∃ gone, SenderStep key gone s s' a b := by
  rcases step.moved with ⟨kept, -⟩ | ⟨dropped, -⟩
  · exact ⟨_, kept⟩
  · exact ⟨_, dropped⟩

section Handlers

variable {s : Socket} {due : AssociationKey → BitVec 32 → Prop}

/-- A step on a sender that sends on. -/
theorem Orderly.sender {gone : Tsn → Bool} {s' : Socket} {key : AssociationKey} {a b : Association}
    (ok : Orderly s due) (found : s.find? key = some a) (transmits : transmitsData a.state = true)
    (step : SenderStep key gone s s' a b) (covered : Covered s' (due key) key b) : Orderly s' due :=
  ok.aside step.aside (step.queues ok.queues) (.sending step.found
    (step.paths ((ok.keys key).assoc a found).paths) (step.transmits transmits) covered)

/-- What is left of the states a SHUTDOWN is accepted in. -/
theorem transmitsData_of_open {state : AssociationState} (up : forming state = false)
    (open_ : ¬(state = .shutdownSent ∨ state = .shutdownAckSent)) : transmitsData state = true := by
  cases state <;> simp_all [forming, transmitsData]

/-- A SHUTDOWN for an association that is closing from this side. -/
theorem Calm.answerShutdown {strict : Prop} {a : Association} {key : AssociationKey}
    (found : s.find? key = some a) (now : Time) (header : CommonHeader) (src : SockAddr) :
    Calm strict s (((s.setAssociation key { a with state := .shutdownAckSent }).reply key
      (replyDestination a src) (buildShutdownAck header.desPort header.srcPort
        a.peerVerTag)).restartT2 now key) := by
  have closed : SameCore strict a { a with state := .shutdownAckSent } :=
    .of_eq rfl rfl rfl rfl rfl rfl rfl rfl (fun forms => by cases forms) (fun sends => by
      cases sends) fun _ => Nat.le_refl _
  refine Calm.trans ?_ (Calm.restartT2 _ key now)
  refine Calm.trans (Calm.set s key found closed) ?_
  exact Calm.reply _ key rfl

end Handlers

/-- A chunk that acknowledges is calm, or it acknowledges and then, perhaps, closes. -/
theorem handleAck_cases (s : Socket) (now : Time) (draws : Draws) (header : CommonHeader)
    (key : AssociationKey) (src : SockAddr) {chunk : Chunk}
    (acking : chunk.type = .sack ∨ chunk.type = .shutdown) :
    Calm True s (s.handleChunk now draws header key src chunk)
    ∨ ∃ s₁ a b, AckStep key chunk s s₁ a b
      ∧ s.handleChunk now draws header key src chunk = s₁.doNextShutdownStep now key := by
  unfold Socket.handleChunk
  cases value : chunk.value with
  | sack sack =>
    simp only [Socket.handleSack]
    cases found : s.find? key with
    | none => exact Or.inl (.refl s)
    | some a =>
      simp only
      split
      · exact Or.inl (.refl s)
      · next sends =>
        split
        · exact Or.inl (.abortAssociation s key _ _ _)
        · next sent =>
          split
          · exact Or.inl (.refl s)
          · next new =>
            rw [acceptSack_eq]
            obtain ⟨b, step, state, cumulative⟩ := settleSack_step s key a now sack
            rw [Bool.not_eq_true, acksUnsent, Bool.or_eq_false_iff, Bool.not_eq_false'] at sent
            have transmits : transmitsData a.state = true := by simpa using sends
            refine Or.inr ⟨_, a, b, ⟨found, transmits, Or.inl state, fun due ok => ?_,
              Or.inr ⟨?_, ?_, ?_, fun tsn below => ?_⟩⟩, rfl⟩
            · have old := (ok.keys key).assoc a found
              exact ok.sender found transmits step
                ((old.covered transmits).settleSack old.paths now sack step.found)
            · rw [cumulative]
              exact step
            · rw [cumulative]
              simpa using new
            · rw [cumulative]
              exact sent.1
            · rw [cumulative] at below
              simp only [acknowledges, value]
              exact sackAcknowledges_of_below below
  | shutdown cumulativeTsnAck =>
    simp only [Socket.handleShutdown]
    cases found : s.find? key with
    | none => exact Or.inl (.refl s)
    | some a =>
      simp only
      split
      · exact Or.inl (.refl s)
      · next up =>
        rw [Bool.not_eq_true] at up
        split
        · exact Or.inl (.answerShutdown found now header src)
        · next open_ =>
          have transmits := transmitsData_of_open up open_
          split
          · exact Or.inl (.abortAssociation s key _ _ _)
          · next sent =>
            rw [acceptShutdown_eq]
            obtain ⟨b, step, state, cumulative⟩ := settleShutdown_step now found cumulativeTsnAck
            refine Or.inr ⟨_, a, b, ⟨found, transmits, Or.inr state, fun due ok => ?_, ?_⟩, rfl⟩
            · have old := (ok.keys key).assoc a found
              exact ok.sender found transmits step
                ((old.covered transmits).settleShutdown found old.paths now cumulativeTsnAck
                  step.found)
            unfold shutdownDrops at step
            cases advanced : tsnGt cumulativeTsnAck a.cumulativeTsnAck with
            | false =>
              simp only [advanced, Bool.false_and, Bool.false_eq_true, if_false] at step cumulative
              exact Or.inl ⟨step, cumulative⟩
            | true =>
              simp only [advanced, Bool.true_and, if_true] at step cumulative
              refine Or.inr ⟨?_, ?_, ?_, fun tsn below => ?_⟩
              · rw [cumulative]
                exact step
              · rw [cumulative]
                exact tsnLt_asymm advanced
              · rw [cumulative]
                simpa using sent
              · simp only [acknowledges, value]
                rw [← cumulative]
                exact below
  | _ => simp [Chunk.type, value] at acking

end SctpStack
