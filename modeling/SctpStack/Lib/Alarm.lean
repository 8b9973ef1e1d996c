import Mathlib.Data.List.Basic
import Mathlib.Data.List.Nodup
import Mathlib.Logic.Function.Basic
import Mathlib.Order.Lattice

/-!
# Alarms

A map from keys to the deadline last set for each and what is to be done then. What
goes off by a time is every key whose deadline has passed, once, by deadline
(`Fires`); what is left is `after`. `Fires.nil` and `Fires.cons` are the rules for a
loop that takes them off one by one.
-/

universe u v w

/-- For every key that is set, its deadline and what is to be done then. -/
abbrev Alarms (κ : Type u) (τ : Type v) (ν : Type w) := κ → Option (τ × ν)

namespace Alarms

variable {κ : Type u} {τ : Type v} {ν : Type w}

/-- The keys of a kind unset. -/
def without (m : Alarms κ τ ν) (p : κ → Prop) [DecidablePred p] : Alarms κ τ ν :=
  fun k => if p k then none else m k

@[simp] theorem without_apply (m : Alarms κ τ ν) (p : κ → Prop) [DecidablePred p] (k : κ) :
    m.without p k = if p k then none else m k := rfl

theorem without_eq_some {m : Alarms κ τ ν} {p : κ → Prop} [DecidablePred p] {k : κ} {x : τ × ν} :
    m.without p k = some x ↔ ¬p k ∧ m k = some x := by
  by_cases h : p k <;> simp [h]

variable [LinearOrder τ]

/-- What is still to come at a time. -/
def after (m : Alarms κ τ ν) (now : τ) : Alarms κ τ ν :=
  fun k => (m k).filter fun x => decide (now < x.1)

theorem after_eq_some {m : Alarms κ τ ν} {now : τ} {k : κ} {x : τ × ν} :
    m.after now k = some x ↔ m k = some x ∧ now < x.1 := by
  simp [after, Option.filter_eq_some_iff]

/-- Taking off a key that is due changes nothing about what is still to come. -/
theorem after_without [DecidableEq κ] {m : Alarms κ τ ν} {now : τ} {k : κ} {x : τ × ν}
    (set : m k = some x) (due : x.1 ≤ now) : (m.without (· = k)).after now = m.after now := by
  funext k'
  by_cases same : k' = k
  · subst same
    simp [after, set, Option.filter, due.not_gt]
  · simp [after, same]

theorem after_of_not_due {m : Alarms κ τ ν} {now : τ} (later : ∀ k x, m k = some x → now < x.1) :
    m.after now = m := by
  funext k
  cases set : m k with
  | none => simp [after, set]
  | some x => simp [after, set, Option.filter, later k x set]

/-- `fired` is what goes off by `now`: each alarm that is due, once, by deadline. -/
structure Fires (m : Alarms κ τ ν) (now : τ) (fired : List (κ × τ × ν)) : Prop where
  due : ∀ k x, (k, x) ∈ fired ↔ m k = some x ∧ x.1 ≤ now
  once : (fired.map Prod.fst).Nodup
  ordered : fired.Pairwise fun a b => a.2.1 ≤ b.2.1

namespace Fires

variable {m : Alarms κ τ ν} {now : τ}

theorem nil (later : ∀ k x, m k = some x → now < x.1) : Fires m now [] where
  due k x := ⟨fun inside => absurd inside List.not_mem_nil,
    fun h => absurd h.2 (not_le_of_gt (later k x h.1))⟩
  once := List.nodup_nil
  ordered := List.Pairwise.nil

/-- The first to go off, then the rest. -/
theorem cons [DecidableEq κ] {k : κ} {x : τ × ν} {rest : List (κ × τ × ν)} (set : m k = some x)
    (due : x.1 ≤ now) (first : ∀ k' y, m k' = some y → x.1 ≤ y.1)
    (others : Fires (m.without (· = k)) now rest) :
    Fires m now ((k, x) :: rest) where
  due k' y := by
    rw [List.mem_cons, others.due, without_eq_some]
    constructor
    · rintro (same | ⟨⟨-, set'⟩, due'⟩)
      · cases same
        exact ⟨set, due⟩
      · exact ⟨set', due'⟩
    · rintro ⟨set', due'⟩
      by_cases same : k' = k
      · subst same
        rw [set] at set'
        cases set'
        exact Or.inl rfl
      · exact Or.inr ⟨⟨same, set'⟩, due'⟩
  once := by
    rw [List.map_cons, List.nodup_cons]
    refine ⟨fun again => ?_, others.once⟩
    obtain ⟨⟨k', y⟩, inside, same⟩ := List.mem_map.mp again
    exact (without_eq_some.mp ((others.due k' y).mp inside).1).1 same
  ordered := by
    refine List.Pairwise.cons (fun later inside => ?_) others.ordered
    exact first later.1 later.2 (without_eq_some.mp ((others.due later.1 later.2).mp inside).1).2

end Fires

/-- The earliest deadline of all, if anything is set. -/
def Earliest (m : Alarms κ τ ν) : Option τ → Prop
  | none => ∀ k, m k = none
  | some t => (∃ k x, m k = some x ∧ x.1 = t) ∧ ∀ k x, m k = some x → t ≤ x.1

theorem Earliest.unique {m : Alarms κ τ ν} {d d' : Option τ} (first : Earliest m d)
    (first' : Earliest m d') : d = d' := by
  cases d with
  | none =>
    cases d' with
    | none => rfl
    | some t' =>
      obtain ⟨⟨k, x, set, -⟩, -⟩ := first'
      exact absurd ((first k).symm.trans set) (by simp)
  | some t =>
    obtain ⟨⟨k, x, set, rfl⟩, least⟩ := first
    cases d' with
    | none => exact absurd ((first' k).symm.trans set) (by simp)
    | some t' =>
      obtain ⟨⟨k', y, set', rfl⟩, least'⟩ := first'
      exact congrArg some (le_antisymm (least k' y set') (least' k x set))

/-- Something goes off by a time exactly when the earliest deadline has passed. -/
theorem Fires.ne_nil_iff {m : Alarms κ τ ν} {now : τ} {fired : List (κ × τ × ν)} {d : Option τ}
    (fires : Fires m now fired) (earliest : Earliest m d) :
    fired ≠ [] ↔ ∃ t, d = some t ∧ t ≤ now := by
  cases d with
  | none =>
    constructor
    · intro nonempty
      obtain ⟨⟨k, x⟩, inside⟩ := List.exists_mem_of_ne_nil fired nonempty
      have set := ((fires.due k x).mp inside).1
      rw [earliest k] at set
      cases set
    · rintro ⟨t, none, -⟩
      cases none
  | some t =>
    obtain ⟨⟨k, x, set, same⟩, first⟩ := earliest
    constructor
    · intro nonempty
      obtain ⟨⟨k', y⟩, inside⟩ := List.exists_mem_of_ne_nil fired nonempty
      obtain ⟨set', due⟩ := (fires.due k' y).mp inside
      exact ⟨t, rfl, (first k' y set').trans due⟩
    · rintro ⟨t', rfl', due⟩
      cases rfl'
      exact List.ne_nil_of_mem ((fires.due k x).mpr ⟨set, same ▸ due⟩)

end Alarms
