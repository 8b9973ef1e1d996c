import Mathlib.Data.Nat.Basic
import Mathlib.Tactic.Ring

/-!
# Serial numbers

Sequence numbers of a fixed width wrap around, so they are compared by the
distance from one to the other: `a` precedes `b` when `b` is fewer than half the
number space ahead of it.

The comparison is no order on the whole space. It is one on every window
narrower than half of it: `serialLt_offset` turns a comparison of two members of
such a window into the comparison of their offsets.
-/

namespace Serial

variable {w : Nat}

/-- `a` precedes `b` in serial-number order. -/
def serialLt (a b : BitVec w) : Bool :=
  let distance := b - a
  distance != 0#w && decide (distance.toNat < 2 ^ (w - 1))

/-- `a` precedes `b` or is `b`. -/
def serialLe (a b : BitVec w) : Bool := a == b || serialLt a b

theorem serialLt_iff {a b : BitVec w} :
    serialLt a b = true ↔ 0 < (b - a).toNat ∧ (b - a).toNat < 2 ^ (w - 1) := by
  have hz : b - a = 0#w ↔ (b - a).toNat = 0 := by
    rw [← BitVec.toNat_inj]
    simp
  simp only [serialLt, Bool.and_eq_true, bne_iff_ne, ne_eq, decide_eq_true_eq, hz]
  omega

theorem serialLt_irrefl (a : BitVec w) : serialLt a a = false := by
  simp [serialLt]

/-! ## Numbers at an offset from a base -/

/-- The number `i` places after `base`. -/
def ahead (base : BitVec w) (i : Nat) : BitVec w := base + BitVec.ofNat w i

@[simp] theorem ahead_zero (base : BitVec w) : ahead base 0 = base := by
  simp [ahead]

theorem ahead_add (base : BitVec w) (i j : Nat) :
    ahead base (i + j) = ahead base i + BitVec.ofNat w j := by
  simp only [ahead, BitVec.ofNat_add]
  ac_rfl

theorem ahead_succ (base : BitVec w) (i : Nat) : ahead base (i + 1) = ahead base i + 1#w :=
  ahead_add base i 1

theorem ahead_sub_one (base : BitVec w) (i : Nat) : ahead (base - 1#w) i = ahead base i - 1#w := by
  unfold ahead
  rw [BitVec.sub_eq_add_neg, BitVec.sub_eq_add_neg, BitVec.add_assoc, BitVec.add_comm (-1#w),
    ← BitVec.add_assoc]

theorem ahead_succ_sub_one (base : BitVec w) (i : Nat) :
    ahead base (i + 1) - 1#w = ahead base i := by
  rw [ahead_succ]
  exact BitVec.add_sub_cancel _ _

/-- The distance between two members of a window is the difference of their offsets. -/
theorem sub_ahead (base : BitVec w) {i j : Nat} (hij : i ≤ j) :
    (ahead base j - ahead base i).toNat = (j - i) % 2 ^ w := by
  obtain ⟨d, rfl⟩ := Nat.exists_eq_add_of_le hij
  have h : ahead base (i + d) - ahead base i = BitVec.ofNat w d := by
    rw [ahead_add, BitVec.add_comm]
    exact BitVec.add_sub_cancel _ _
  rw [h, BitVec.toNat_ofNat, Nat.add_sub_cancel_left]

theorem sub_ahead_of_lt (base : BitVec w) {i j : Nat} (hij : i ≤ j) (h : j - i < 2 ^ w) :
    (ahead base j - ahead base i).toNat = j - i := by
  rw [sub_ahead base hij, Nat.mod_eq_of_lt h]

/-- Two numbers fewer than the whole space apart are equal only at the same offset. -/
theorem ahead_inj (base : BitVec w) {i j : Nat} (hi : i < j + 2 ^ w) (hj : j < i + 2 ^ w)
    (h : ahead base i = ahead base j) : i = j := by
  have key : ∀ {a b : Nat}, a ≤ b → b < a + 2 ^ w → ahead base a = ahead base b → a = b := by
    intro a b hab hb he
    have hd := sub_ahead_of_lt base hab (by omega)
    rw [he, BitVec.sub_self] at hd
    simp at hd
    omega
  rcases Nat.le_total i j with hij | hij
  · exact key hij hj h
  · exact (key hij hi h.symm).symm

/-- The distance backwards is what the whole space leaves of the distance forwards. -/
theorem toNat_sub_comm {a b : BitVec w} (h : a ≠ b) :
    (a - b).toNat = 2 ^ w - (b - a).toNat := by
  have hne : (b - a).toNat ≠ 0 := by
    intro hz
    apply h
    have h0 : b - a = 0#w := BitVec.eq_of_toNat_eq (by simpa using hz)
    have hb : b - a + a = 0#w + a := by rw [h0]
    rw [BitVec.sub_add_cancel, BitVec.zero_add] at hb
    exact hb.symm
  have ha := a.isLt
  have hb := b.isLt
  have hp : 2 ^ w - a.toNat + b.toNat ≠ 2 ^ w := by
    intro he
    apply hne
    rw [BitVec.toNat_sub, he]
    exact Nat.mod_self _
  rw [BitVec.toNat_sub, BitVec.toNat_sub]
  rcases Nat.lt_trichotomy a.toNat b.toNat with hlt | heq | hgt
  · rw [Nat.mod_eq_of_lt (by omega : 2 ^ w - b.toNat + a.toNat < 2 ^ w),
      show 2 ^ w - a.toNat + b.toNat = (b.toNat - a.toNat) + 2 ^ w by omega,
      Nat.add_mod_right, Nat.mod_eq_of_lt (by omega)]
    omega
  · omega
  · rw [Nat.mod_eq_of_lt (by omega : 2 ^ w - a.toNat + b.toNat < 2 ^ w),
      show 2 ^ w - b.toNat + a.toNat = (a.toNat - b.toNat) + 2 ^ w by omega,
      Nat.add_mod_right, Nat.mod_eq_of_lt (by omega)]
    omega

theorem serialLt_asymm {a b : BitVec w} (before : serialLt a b = true) : serialLt b a = false := by
  rw [Bool.eq_false_iff]
  intro after
  have forward := serialLt_iff.mp before
  have backward := serialLt_iff.mp after
  have whole := toNat_sub_comm (a := a) (b := b) fun same => by
    rw [same, serialLt_irrefl] at before
    cases before
  cases w with
  | zero => omega
  | succ n =>
    rw [Nat.pow_succ] at whole
    simp only [Nat.add_sub_cancel] at forward backward
    omega

/-- On a window narrower than half the space, serial order is the order of offsets. -/
theorem serialLt_offset (base : BitVec (w + 1)) {i j : Nat} (hi : i < j + 2 ^ w)
    (hj : j < i + 2 ^ w) : serialLt (ahead base i) (ahead base j) = true ↔ i < j := by
  have hp : 2 ^ (w + 1) = 2 ^ w + 2 ^ w := by rw [Nat.pow_succ]; omega
  rw [serialLt_iff, Nat.add_sub_cancel]
  rcases Nat.lt_trichotomy i j with hlt | heq | hgt
  · rw [sub_ahead_of_lt base (by omega) (by omega)]
    omega
  · subst heq
    simp
  · have hne : ahead base i ≠ ahead base j := by
      intro he
      exact absurd (ahead_inj base (by omega) (by omega) he) (by omega)
    have hd := sub_ahead_of_lt base (Nat.le_of_lt hgt) (by omega)
    have hc := toNat_sub_comm hne.symm
    rw [hd] at hc
    omega

theorem serialLe_offset (base : BitVec (w + 1)) {i j : Nat} (hi : i < j + 2 ^ w)
    (hj : j < i + 2 ^ w) : serialLe (ahead base i) (ahead base j) = true ↔ i ≤ j := by
  have hp : 2 ^ (w + 1) = 2 ^ w + 2 ^ w := by rw [Nat.pow_succ]; omega
  simp only [serialLe, Bool.or_eq_true, beq_iff_eq, serialLt_offset base hi hj]
  constructor
  · rintro (he | hlt)
    · exact Nat.le_of_eq (ahead_inj base (by omega) (by omega) he)
    · omega
  · intro hle
    rcases Nat.lt_or_eq_of_le hle with hlt | heq
    · exact Or.inr hlt
    · exact Or.inl (by rw [heq])

/-- Every number is at its distance from any base. -/
theorem ahead_distance (base a : BitVec w) : ahead base (a - base).toNat = a := by
  unfold ahead
  rw [BitVec.ofNat_toNat, BitVec.setWidth_eq, BitVec.add_comm, BitVec.sub_add_cancel]

end Serial
