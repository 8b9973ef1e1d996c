import SctpStack.Acknowledging
import SctpStack.Dispatch

/-!
# Packets and timers keep the sender in order

Every packet, every timer and every call of the application leaves the socket
`Orderly`.
-/

namespace SctpStack

section Handlers

variable {s : Socket} {due : AssociationKey → BitVec 32 → Prop}

theorem Orderly.empty (ok : Orderly s due) (k : AssociationKey) (absent : s.find? k = none) :
    NothingQueued s k :=
  (ok.keys k).absent absent

theorem Orderly.handlePacket (ok : Orderly s due) (now : Time) (draws : Nat → Draws)
    (packet : Packet) (src : SockAddr) : Orderly (s.handlePacket now draws packet src) due := by
  refine handlePacket_keeps (fun s => Orderly s due) (fun _ _ calm ok => ok.calm calm)
    (fun _ ok => ok.empty) ?_ (fun _ key _ s'' _ _ ok =>
      ok.calm (.handleDataPacket s'' key now _ src _)) ok
  intro _ key _ _ chunk _ acking s draws ok
  rcases handleAck_cases s now draws packet.header key src acking with calm | ⟨s₁, a, b, step,
    closes⟩
  · exact ok.calm calm.weaken
  · rw [closes]
    exact (step.orderly due ok).calm (.doNextShutdownStep s₁ key now)

/-! ## Expiry -/

/-- The addresses of T3-rtx timers that went off. -/
def dueOf (expired : List ExpirationFallback) (key : AssociationKey) (ip : BitVec 32) : Prop :=
  ∃ f ∈ expired, f.key = ⟨key, .t3Rtx, ⟨⟨ip, 0#16⟩⟩⟩

/-- Timers are taken out to be handled. -/
theorem Orderly.drain (ok : Orderly s noneDue) (now : Time) :
    Orderly { s with expirations := (s.expirations.drainExpired now).2 }
      (dueOf (s.expirations.drainExpired now).1) := by
  obtain ⟨-, left, running⟩ := ExpirationQueue.drainExpiredFrom_spec now s.expirations.queue.length
    s.expirations
  refine ⟨⟨ok.queues.control, ok.queues.retransmission, ok.queues.newData, ok.queues.distinct,
    ok.queues.known,
    fun f member => ok.queues.retries f (left member)⟩, fun key =>
      ⟨(ok.keys key).absent, fun a found => ?_⟩⟩
  have old := (ok.keys key).assoc a found
  refine ⟨old.paths, old.forming, fun transmits => ?_⟩
  have covered := old.covered transmits
  refine ⟨covered.named, covered.placed, covered.newTo, covered.rtxTo, fun tsn o entry unacked =>
    ?_⟩
  rcases covered.cover tsn o entry unacked with marked | queued | active | impossible
  · exact Or.inl marked
  · exact Or.inr (Or.inl queued)
  · exact Or.inr (Or.inr (running _ active))
  · exact impossible.elim

theorem Orderly.handleExpiration {f : ExpirationFallback} {rest : List ExpirationFallback}
    (ok : Orderly s (dueOf (f :: rest))) (none : NoData f.retry.packet) (now : Time)
    (draws : Draws) :
    Orderly (s.handleExpiration now draws f) (dueOf rest) := by
  by_cases t3 : f.key.type = .t3Rtx
  · -- Another association's timers are still those of the rest.
    have others : ∀ k, k ≠ f.key.location → KeyOk s (dueOf rest k) k := by
      intro k apart
      refine (ok.keys k).handled fun a _ _ tsn o _ _ waiting => ?_
      obtain ⟨f', member, off⟩ := waiting
      rcases List.mem_cons.mp member with rfl | later
      · rw [off] at apart
        exact absurd rfl apart
      · exact ⟨f', later, off⟩
    obtain ⟨here, aside, queues⟩ :=
      handleT3Expiration_keyOk (ok.keys f.key.location) f.key.path.address
        (dueOf rest f.key.location) fun ip waiting => by
        obtain ⟨f', member, off⟩ := waiting
        rcases List.mem_cons.mp member with rfl | later
        · left
          rw [off]
        · exact Or.inr ⟨f', later, off⟩
    unfold Socket.handleExpiration
    simp only [t3]
    refine ⟨queues ok.queues, fun k => ?_⟩
    by_cases same : k = f.key.location
    · rw [same]
      exact here
    · exact (others k same).calm (aside k same)
  · refine Orderly.calm ⟨ok.queues, fun k => (ok.keys k).handled fun a _ _ tsn o _ _ waiting => ?_⟩
      (.handleExpiration s now draws t3 none)
    obtain ⟨f', member, off⟩ := waiting
    rcases List.mem_cons.mp member with rfl | later
    · rw [off] at t3
      exact absurd rfl t3
    · exact ⟨f', later, off⟩

theorem Orderly.handleExpirations (now : Time) (draws : Nat → Draws)
    (expired : List (ExpirationFallback × Nat))
    (none : ∀ pair ∈ expired, NoData pair.1.retry.packet)
    (ok : Orderly s (dueOf (expired.map Prod.fst))) :
    Orderly (expired.foldl (fun s (pair : ExpirationFallback × Nat) =>
      s.handleExpiration now (draws pair.2) pair.1) s)
      noneDue := by
  induction expired generalizing s with
  | nil =>
    refine ⟨ok.queues, fun k => (ok.keys k).handled fun a _ _ tsn o _ _ waiting => ?_⟩
    obtain ⟨f, member, -⟩ := waiting
    cases member
  | cons pair rest ih =>
    rw [List.map_cons] at ok
    exact ih (fun other member => none other (List.mem_cons_of_mem _ member))
      (ok.handleExpiration (none pair List.mem_cons_self) now _)

theorem Orderly.runExpire (ok : Orderly s noneDue) (now : Time) (draws : Nat → Draws) :
    Orderly (s.runExpire now draws) noneDue := by
  have queued := (ExpirationQueue.drainExpiredFrom_spec now s.expirations.queue.length
    s.expirations).1
  unfold Socket.runExpire
  refine Orderly.handleExpirations now draws _ (fun pair member => ?_) ?_
  · exact ok.queues.retries _ (queued _ (List.fst_mem_of_mem_zipIdx member))
  · rw [List.zipIdx_map_fst]
    exact ok.drain now

end Handlers

end SctpStack
