import Mathlib.Logic.Relation

/-!
# An exchange that is tried again

Two requests are made one after the other. Each is sent again while no answer comes, no
more than `limit` times, and the answer to the second may send the exchange back to its
start with both counts at zero, no more than `rounds` times. However the answers come, the
weight of an exchange (`Exchange.weight`) never falls, rises with every request sent
again, and is bounded: so is the effort of the whole (`Exchange.Within.weight_le`).
-/

namespace Retry

/-- Which of the two requests waits for an answer, how often each was sent again, and how
often the exchange went back to its start. -/
structure Exchange where
  second : Bool
  firstRetries : Nat
  secondRetries : Nat
  restarts : Nat

namespace Exchange

variable {limit rounds : Nat} {x y : Exchange}

inductive Step (limit rounds : Nat) (x : Exchange) : Exchange → Prop where
  | firstAgain : x.second = false → x.firstRetries < limit →
      Step limit rounds x { x with firstRetries := x.firstRetries + 1 }
  | secondAgain : x.second = true → x.secondRetries < limit →
      Step limit rounds x { x with secondRetries := x.secondRetries + 1 }
  | answered : x.second = false → Step limit rounds x { x with second := true }
  | back : x.second = true → x.restarts < rounds → Step limit rounds x ⟨false, 0, 0, x.restarts + 1⟩

/-- An exchange as it goes on. -/
abbrev Course (limit rounds : Nat) : Exchange → Exchange → Prop :=
  Relation.ReflTransGen (Step limit rounds)

/-- The counts are within their bounds. -/
structure Within (limit rounds : Nat) (x : Exchange) : Prop where
  firstRetries : x.firstRetries ≤ limit
  secondRetries : x.secondRetries ≤ limit
  restarts : x.restarts ≤ rounds

/-- A round weighs as much as all the requests that may be sent again in it. -/
def weight (limit : Nat) (x : Exchange) :
    Nat := 2 * limit * x.restarts + (x.firstRetries + x.secondRetries)

theorem Step.within (step : Step limit rounds x y) (within : Within limit rounds x) :
    Within limit rounds y := by
  cases step with
  | firstAgain _ left => exact ⟨left, within.secondRetries, within.restarts⟩
  | secondAgain _ left => exact ⟨within.firstRetries, left, within.restarts⟩
  | answered => exact ⟨within.firstRetries, within.secondRetries, within.restarts⟩
  | back _ left => exact ⟨Nat.zero_le _, Nat.zero_le _, left⟩

/-- Going back loses the counts of a round, which a round outweighs. -/
theorem Step.weight_le (step : Step limit rounds x y) (within : Within limit rounds x) :
    x.weight limit ≤ y.weight limit := by
  cases step with
  | firstAgain => exact Nat.add_le_add_left (Nat.add_le_add_right (Nat.le_succ _) _) _
  | secondAgain => exact Nat.add_le_add_left (Nat.add_le_add_left (Nat.le_succ _) _) _
  | answered => exact Nat.le_refl _
  | back =>
    have lost : x.firstRetries + x.secondRetries ≤ 2 * limit := by
      have first := within.firstRetries
      have second := within.secondRetries
      omega
    calc x.weight limit ≤ 2 * limit * x.restarts + 2 * limit := Nat.add_le_add_left lost _
      _ = 2 * limit * (x.restarts + 1) := (Nat.mul_succ _ _).symm

theorem Step.restarts_le (step : Step limit rounds x y) : x.restarts ≤ y.restarts := by
  cases step with
  | back => exact Nat.le_succ _
  | _ => exact Nat.le_refl _

theorem Course.within (course : Course limit rounds x y) (within : Within limit rounds x) :
    Within limit rounds y := by
  induction course with
  | refl => exact within
  | tail _ step ih => exact step.within ih

theorem Course.weight_le (course : Course limit rounds x y) (within : Within limit rounds x) :
    x.weight limit ≤ y.weight limit := by
  induction course with
  | refl => exact Nat.le_refl _
  | tail before step ih => exact Nat.le_trans ih (step.weight_le (Course.within before within))

theorem Course.restarts_le (course : Course limit rounds x y) : x.restarts ≤ y.restarts := by
  induction course with
  | refl => exact Nat.le_refl _
  | tail _ step ih => exact Nat.le_trans ih step.restarts_le

/-- From the second request there is no way to the first but back to the start. -/
theorem Course.restarts_lt (course : Course limit rounds x y) (second : x.second = true)
    (first : y.second = false) :
    x.restarts < y.restarts := by
  induction course with
  | refl =>
    rw [second] at first
    cases first
  | @tail y z before step ih =>
    cases step with
    | firstAgain waits => exact ih waits
    | secondAgain waits =>
      rw [show y.second = false from first] at waits
      cases waits
    | answered => cases first
    | back => exact Nat.lt_succ_of_le (Course.restarts_le before)

theorem Within.weight_le (within : Within limit rounds x) :
    x.weight limit ≤ 2 * limit * (rounds + 1) := by
  have first := within.firstRetries
  have second := within.secondRetries
  calc x.weight limit ≤ 2 * limit * x.restarts + 2 * limit := Nat.add_le_add_left (by omega) _
    _ = 2 * limit * (x.restarts + 1) := (Nat.mul_succ _ _).symm
    _ ≤ 2 * limit * (rounds + 1) := Nat.mul_le_mul_left _ (Nat.succ_le_succ within.restarts)

end Exchange

end Retry
