import Mathlib.Order.Defs.PartialOrder

/-!
# Polled updates

An update that is called at some times, and each time catches up with everything since
the last call. If one later call absorbs an earlier one, it absorbs any number of them:
how often the update is polled does not show.
-/

universe u v

namespace Polled

variable {τ : Type u} {σ : Type v}

/-- A later call does all that an earlier one did. -/
def Absorbs [LE τ] (update : τ → σ → σ) : Prop :=
  ∀ (early late : τ) (s : σ), early ≤ late → update late (update early s) = update late s

/-- The state after a call at each of the times. -/
def polled (update : τ → σ → σ) (times : List τ) (s : σ) : σ :=
  times.foldl (fun s now => update now s) s

/-- What every call keeps is kept by all of them. -/
theorem polled_keeps {update : τ → σ → σ} {inv : σ → Prop}
    (keeps : ∀ now s, inv s → inv (update now s)) (times : List τ) {s : σ} (holds : inv s) :
    inv (polled update times s) := by
  induction times generalizing s with
  | nil => exact holds
  | cons now times ih => exact ih (keeps now s holds)

/-- One call at the end does what all the calls up to then do. -/
theorem Absorbs.polled [LE τ] {update : τ → σ → σ} (absorbs : Absorbs update) {times : List τ}
    {last : τ} (before : ∀ now ∈ times, now ≤ last) (s : σ) :
    update last (polled update times s) = update last s := by
  induction times generalizing s with
  | nil => rfl
  | cons now times ih =>
    have later : ∀ t ∈ times, t ≤ last := fun t member => before t (List.mem_cons_of_mem _ member)
    calc update last (Polled.polled update (now :: times) s)
        = update last (update now s) := ih later (update now s)
      _ = update last s := absorbs now last s (before now List.mem_cons_self)

end Polled
