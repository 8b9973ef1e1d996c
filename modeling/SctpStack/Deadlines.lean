import SctpStack.Works
import SctpStack.Expirations

/-!
# The deadlines of a socket

Whatever a handler does to the timers is one of the operations of the heap, so the heap
of every reachable socket is sound (`System.Reached.timers`): what goes off is what is due
by the map of latest deadlines.
-/

namespace SctpStack

variable {heard : Evidence → Prop}

/-- A deed keeps the heap sound. -/
theorem Deed.timers {key : AssociationKey} {s s' : Socket} (deed : Deed heard key s s')
    (sound : s.expirations.Sound) :
    s'.expirations.Sound := by
  have stopped : (s.expirations.cancelAll key).Sound := sound.unset rfl rfl fun _ _ here =>
    (active_cancelAll here).2
  cases deed with
  | credit notes found _ _ _ _ =>
    obtain ⟨q, same⟩ := notes_only (s.setAssociation key _) key notes
    rw [same]
    exact sound
  | @restarted a cookie =>
    show (s.clearedFor key a).expirations.Sound
    rw [(cleared_clearedFor s key a).expirations]
    exact stopped
  | @collided a b =>
    show (s.abandonPartialDelivery key a).expirations.Sound
    rw [(undisturbed_abandonPartialDelivery s key a).expirations]
    exact sound
  | ended told found ends =>
    show (s.removeAssociation key).expirations.Sound
    rw [(cleared_removeAssociation s key).expirations]
    exact stopped
  | @violated a b =>
    show ((s.setAssociation key b).removeAssociation key).expirations.Sound
    rw [(cleared_removeAssociation (s.setAssociation key b) key).expirations]
    exact stopped
  | gaveUp => exact stopped
  | schedule timer expiration retry => exact sound.schedule timer expiration retry
  | stop q queue next active =>
    refine sound.unset queue next fun timer generation here => ?_
    rcases active timer with same | ⟨-, none, -⟩
    · rw [← same]
      exact here
    · rw [none] at here
      cases here
  | _ => exact sound

theorem Deeds.timers {key : AssociationKey} {s s' : Socket} (deeds : Deeds heard key s s')
    (sound : s.expirations.Sound) :
    s'.expirations.Sound := by
  induction deeds with
  | refl => exact sound
  | tail _ deed ih => exact deed.timers ih

/-- So does any other work, but for what goes off. -/
theorem Work.timers {event : Event} {s s' : Socket} (work : Work heard event s s')
    (other : ∀ now draws, event ≠ .expire now draws) (sound : s.expirations.Sound) :
    s'.expirations.Sound := by
  cases work with
  | deed key deed => exact deed.timers sound
  | @aborted key reason a is found =>
    rw [(cleared_removeAssociation s key).expirations]
    exact sound.unset rfl rfl fun _ _ here => (active_cancelAll here).2
  | @withdrawn now key => exact sound.unset rfl rfl fun _ _ here => (active_cancelAll here).2
  | expired q is => exact absurd is (other _ _)
  | _ => exact sound

/-- What the handlers of the timers that went off keep. -/
theorem runExpire_deeds {inv : Socket → Prop} {s : Socket} (standing : Standing s)
    (probed : heard .probed) {now : Time} {draws : Nat → Draws}
    (each : ∀ {key s s'}, Deeds heard key s s' → inv s → inv s')
    (drained : inv { s with expirations := (s.expirations.drainExpired now).2 }) :
    inv (s.runExpire now draws) := by
  obtain ⟨queued, -, -⟩ := ExpirationQueue.drainExpiredFrom_spec now s.expirations.queue.length
    s.expirations
  obtain ⟨off, -, -⟩ := ExpirationQueue.drainExpiredFrom_live now s.expirations.queue.length
    s.expirations
  -- What is handled later still finds every handshake that goes on as it was when the heap
  -- was drained.
  refine (@runExpire_fires (fun due s₁ =>
    (Formed { s with expirations := (s.expirations.drainExpired now).2 } s₁
      ∧ ∀ f ∈ due, isT1 f.key.type = true →
        Retries { s with expirations := (s.expirations.drainExpired now).2 } f) ∧ inv s₁)
    s now draws (fun f due s₁ draws holds => ?_) ⟨⟨.refl _, fun f member is => ?_⟩, drained⟩).2
  · obtain ⟨⟨formed, retries⟩, holds⟩ := holds
    have handled : Deeds heard f.key.location s₁ (s₁.handleExpiration now draws f) :=
      .expires formed (retries f List.mem_cons_self) (fun _ => probed) now draws
    exact ⟨⟨formed.trans handled.formed, fun g later => retries g (List.mem_cons_of_mem _ later)⟩,
      each handled holds⟩
  · exact (standing.retries f (queued f member) (off f member) is).of_find? fun _ => rfl

theorem System.Reached.timers {ok : System → Event → Prop} {σ : System}
    (reached : System.Reached ok σ) :
    σ.socket.expirations.Sound := by
  refine (reached.invariant (fun σ => Standing σ.socket ∧ σ.socket.expirations.Sound) ?_ ?_).2
  · rintro σ ⟨address, rfl⟩
    exact ⟨standing_fresh address, .fresh⟩
  · rintro σ event σ' ⟨standing, sound⟩ - stepped
    refine ⟨(System.step_works standing stepped).standing standing, ?_⟩
    by_cases expires : ∃ now draws, event = .expire now draws
    · obtain ⟨now, draws, rfl⟩ := expires
      rcases System.step_cases stepped with ⟨_, _, _, _, here, -⟩ | ⟨now', draws', here, -,
        rfl⟩ | ⟨here, -⟩ | ⟨_, _, _, here, -⟩
        | ⟨s, called, -⟩
      · cases here
      · cases here
        exact @runExpire_deeds (fun _ => True) _ _ standing trivial now draws (fun deeds =>
          deeds.timers) (ExpirationQueue.drainExpired_fires sound now).1
      · cases here
      · cases here
      · cases called
    · have works := System.step_works standing stepped
      refine works.head_induction_on (motive := fun s _ => s.expirations.Sound →
        σ'.socket.expirations.Sound) id (fun work _ ih sound =>
          ih (work.timers (fun now draws is => expires ⟨now, draws, is⟩) sound)) sound

end SctpStack
