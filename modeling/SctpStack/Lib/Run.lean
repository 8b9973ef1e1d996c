/-!
# Runs of a machine

A machine is a step function that may refuse an event. `Reach` are the states it
gets to, from the initial ones, by events a side condition allows; what holds at the
start and is kept by every allowed step holds in all of them (`Reach.invariant`).
-/

universe u v

namespace Run

variable {σ : Type u} {ε : Type v} {step : σ → ε → Option σ} {init : σ → Prop}
    {ok ok' : σ → ε → Prop}

/-- The states reached from an initial one by steps that `ok` allows. -/
inductive Reach (step : σ → ε → Option σ) (init : σ → Prop) (ok : σ → ε → Prop) : σ → Prop where
  | start {s : σ} : init s → Reach step init ok s
  | next {s s' : σ} {e : ε} : Reach step init ok s → ok s e → step s e = some s' →
      Reach step init ok s'

namespace Reach

/-- What holds at the start and is kept by every allowed step holds throughout. -/
theorem invariant (inv : σ → Prop) {s : σ} (reach : Reach step init ok s)
    (base : ∀ s, init s → inv s) (keeps : ∀ s e s', inv s → ok s e → step s e = some s' → inv s') :
    inv s := by
  induction reach with
  | start initial => exact base _ initial
  | next _ allowed stepped ih => exact keeps _ _ _ ih allowed stepped

/-- Allowing more steps reaches no fewer states. -/
theorem mono {s : σ} (weaker : ∀ s e, ok s e → ok' s e) (reach : Reach step init ok s) :
    Reach step init ok' s := by
  induction reach with
  | start initial => exact .start initial
  | next _ allowed stepped ih => exact .next ih (weaker _ _ allowed) stepped

end Reach

/-- The state after a list of events. -/
def replay (step : σ → ε → Option σ) : σ → List ε → Option σ
  | s, [] => some s
  | s, e :: rest => (step s e).bind fun s' => replay step s' rest

theorem Reach.replay {s s' : σ} (reach : Reach step init ok s) (events : List ε)
    (free : ∀ s e, ok s e) (played : replay step s events = some s') : Reach step init ok s' := by
  induction events generalizing s with
  | nil =>
    cases played
    exact reach
  | cons e rest ih =>
    obtain ⟨s₁, stepped, later⟩ := Option.bind_eq_some_iff.mp played
    exact ih (reach.next (free s e) stepped) later

/-- A run that ends in a state with a property. -/
theorem Reach.exists_replay {s : σ} (reach : Reach step init ok s) (events : List ε)
    (free : ∀ s e, ok s e) {p : σ → Bool} (ends : (Run.replay step s events).any p = true) :
    ∃ s', Reach step init ok s' ∧ p s' = true := by
  cases played : Run.replay step s events with
  | none =>
    rw [played] at ends
    cases ends
  | some s' =>
    rw [played] at ends
    exact ⟨s', reach.replay events free played, ends⟩

/-- The state after a list of events, each of them allowed where it comes. -/
def replayWhile (step : σ → ε → Option σ) (allowed : σ → ε → Bool) : σ → List ε → Option σ
  | s, [] => some s
  | s, e :: rest => if allowed s e then (step s e).bind fun s' => replayWhile step allowed s' rest
      else none

theorem Reach.replayWhile {s s' : σ} (reach : Reach step init ok s) (events : List ε)
    {allowed : σ → ε → Bool} (sound : ∀ s e, allowed s e = true → ok s e)
    (played : Run.replayWhile step allowed s events = some s') :
    Reach step init ok s' := by
  induction events generalizing s with
  | nil =>
    cases played
    exact reach
  | cons e rest ih =>
    unfold Run.replayWhile at played
    cases permitted : allowed s e with
    | false =>
      rw [permitted, if_neg Bool.false_ne_true] at played
      cases played
    | true =>
      rw [permitted, if_pos rfl] at played
      obtain ⟨s₁, stepped, later⟩ := Option.bind_eq_some_iff.mp played
      exact ih (reach.next (sound s e permitted) stepped) later

theorem Reach.exists_replayWhile {s : σ} (reach : Reach step init ok s) (events : List ε)
    {allowed : σ → ε → Bool} (sound : ∀ s e, allowed s e = true → ok s e) {p : σ → Bool}
    (ends : (Run.replayWhile step allowed s events).any p = true) :
    ∃ s', Reach step init ok s' ∧ p s' = true := by
  obtain ⟨s', played, holds⟩ := (Option.any_eq_true _ _).mp ends
  exact ⟨s', reach.replayWhile events sound played, holds⟩

end Run
