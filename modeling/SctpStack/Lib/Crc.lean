import Mathlib.Logic.Function.Iterate
import Mathlib.Data.List.GetD

/-!
# Cyclic redundancy checks

The register of a reflected CRC: it moves down a place for every bit of the message, and
takes in the polynomial when a one falls out. Nothing here depends on its width.

* `shifts_split`: the places of a register that fall out over several shifts are all that
  a table has to know.
* `feed_eq_shifts`: a message no longer than the register might as well have been loaded
  into it at once.
* `burst_detected`: so no two messages that differ only within a window the width of the
  register leave it alike.
-/

namespace Crc

variable {w : Nat} (poly : BitVec w)

/-! ## The register -/

/-- The register moved down one place. -/
def shift (crc : BitVec w) : BitVec w := if crc.getLsbD 0 then (crc >>> 1) ^^^ poly else crc >>> 1

def shifts (n : Nat) (crc : BitVec w) : BitVec w := (shift poly)^[n] crc

@[simp] theorem shifts_zero (crc : BitVec w) : shifts poly 0 crc = crc := rfl

theorem shifts_succ (n : Nat) (crc : BitVec w) :
    shifts poly (n + 1) crc = shifts poly n (shift poly crc) := rfl

theorem shift_xor (x y : BitVec w) : shift poly (x ^^^ y) = shift poly x ^^^ shift poly y := by
  unfold shift
  rw [BitVec.getLsbD_xor, BitVec.ushiftRight_xor_distrib]
  cases x.getLsbD 0 <;> cases y.getLsbD 0
  · rfl
  · exact BitVec.xor_assoc _ _ _
  · simp only [Bool.xor_false, if_true, Bool.false_eq_true, if_false]
    ac_rfl
  · -- the polynomial comes in twice and cancels
    simp only [Bool.xor_true, Bool.not_true, Bool.false_eq_true, if_false, if_true]
    rw [BitVec.xor_assoc, BitVec.xor_comm poly, BitVec.xor_assoc (y >>> 1), BitVec.xor_self,
      BitVec.xor_zero]

theorem shifts_xor (n : Nat) (x y : BitVec w) :
    shifts poly n (x ^^^ y) = shifts poly n x ^^^ shifts poly n y := by
  induction n generalizing x y with
  | zero => rfl
  | succ n ih => rw [shifts_succ, shift_xor, ih, shifts_succ, shifts_succ]

theorem shift_eq_of_even {x : BitVec w} (even : x.getLsbD 0 = false) : shift poly x = x >>> 1 := by
  rw [shift, if_neg (by rw [even]; exact Bool.false_ne_true)]

/-- Zeros falling out, the register only moves down. -/
theorem shifts_of_low_zero {n : Nat} {x : BitVec w} (low : ∀ i, i < n → x.getLsbD i = false) :
    shifts poly n x = x >>> n := by
  induction n generalizing x with
  | zero => simp
  | succ n ih =>
    have next : ∀ i, i < n → (x >>> 1).getLsbD i = false := by
      intro i bound
      rw [BitVec.getLsbD_ushiftRight]
      exact low (1 + i) (by omega)
    rw [shifts_succ, shift_eq_of_even poly (low 0 (Nat.zero_lt_succ n)), ih next,
      ← BitVec.shiftRight_add, Nat.add_comm]

/-- What several shifts do is known from the places that fall out. -/
theorem shifts_split {n : Nat} {mask : BitVec w}
    (masks : ∀ i, i < w → mask.getLsbD i = decide (i < n)) (x : BitVec w) :
    shifts poly n x = shifts poly n (x &&& mask) ^^^ (x >>> n) := by
  have parts : x = (x &&& mask) ^^^ (x &&& ~~~mask) := by
    apply BitVec.eq_of_getLsbD_eq
    intro i bound
    simp only [BitVec.getLsbD_xor, BitVec.getLsbD_and, BitVec.getLsbD_not, bound, decide_true,
      Bool.true_and]
    cases x.getLsbD i <;> cases mask.getLsbD i <;> rfl
  have low : ∀ i, i < n → (x &&& ~~~mask).getLsbD i = false := by
    intro i inside
    by_cases bound : i < w
    · simp [BitVec.getLsbD_and, BitVec.getLsbD_not, masks i bound, inside]
    · exact BitVec.getLsbD_of_ge _ _ (Nat.le_of_not_lt bound)
  have high : (x &&& ~~~mask) >>> n = x >>> n := by
    apply BitVec.eq_of_getLsbD_eq
    intro i _
    rw [BitVec.getLsbD_ushiftRight, BitVec.getLsbD_ushiftRight, BitVec.getLsbD_and,
      BitVec.getLsbD_not]
    by_cases bound : n + i < w
    · have kept : mask.getLsbD (n + i) = false := by simp [masks _ bound]
      rw [kept, decide_eq_true bound, Bool.not_false, Bool.and_true, Bool.and_true]
    · simp [BitVec.getLsbD_of_ge x _ (Nat.le_of_not_lt bound)]
  conv => lhs; rw [parts]
  rw [shifts_xor, shifts_of_low_zero poly low, high]

/-! ## Messages -/

/-- A bit at the bottom of the register. -/
def bit (w : Nat) (b : Bool) : BitVec w := (BitVec.ofBool b).setWidth w

/-- A message fed in bit by bit, each meeting the bit that falls out. -/
def feed (crc : BitVec w) (bits : List Bool) :
    BitVec w := bits.foldl (fun crc b => shift poly (crc ^^^ bit w b)) crc

@[simp] theorem feed_nil (crc : BitVec w) : feed poly crc [] = crc := rfl

theorem feed_append (crc : BitVec w) (bits more : List Bool) :
    feed poly crc (bits ++ more) = feed poly (feed poly crc bits) more := List.foldl_append

/-- A message loaded into the register, its first bit at the bottom. -/
def pack (w : Nat) : List Bool → BitVec w
  | [] => 0#w
  | b :: bits => bit w b ^^^ (pack w bits <<< 1)

theorem getLsbD_pack (bits : List Bool) (i : Nat) :
    (pack w bits).getLsbD i = (decide (i < w) && bits.getD i false) := by
  induction bits generalizing i with
  | nil => simp [pack]
  | cons b bits ih =>
    cases i with
    | zero => cases b <;> simp [pack, bit]
    | succ i =>
      by_cases bound : i + 1 < w
      · have here := ih i
        rw [decide_eq_true (Nat.lt_of_succ_lt bound), Bool.true_and] at here
        rw [pack, bit, BitVec.getLsbD_xor, BitVec.getLsbD_shiftLeft, decide_eq_true bound]
        simp [here]
      · simp [BitVec.getLsbD_of_ge _ _ (Nat.le_of_not_lt bound), bound]

/-- A register with its top place empty, moved up and down again. -/
theorem shift_shiftLeft {x : BitVec w} (top : ∀ i, w ≤ i + 1 → x.getLsbD i = false) :
    shift poly (x <<< 1) = x := by
  have even : (x <<< 1).getLsbD 0 = false := by simp
  rw [shift_eq_of_even poly even]
  apply BitVec.eq_of_getLsbD_eq
  intro i bound
  rw [BitVec.getLsbD_ushiftRight, BitVec.getLsbD_shiftLeft]
  by_cases inside : 1 + i < w
  · simp [inside]
  · rw [top i (by omega), decide_eq_false inside, Bool.false_and, Bool.false_and]

theorem feed_eq_shifts {bits : List Bool} (short : bits.length ≤ w) (crc : BitVec w) :
    feed poly crc bits = shifts poly bits.length (crc ^^^ pack w bits) := by
  induction bits generalizing crc with
  | nil => simp [pack]
  | cons b bits ih =>
    have top : ∀ i, w ≤ i + 1 → (pack w bits).getLsbD i = false := by
      intro i reach
      have outside : bits.length ≤ i := Nat.le_of_succ_le_succ (Nat.le_trans short reach)
      rw [getLsbD_pack, List.getD_eq_default _ _ outside, Bool.and_false]
    calc feed poly crc (b :: bits)
        = shifts poly bits.length (shift poly (crc ^^^ bit w b) ^^^ pack w bits) :=
          ih (Nat.le_of_succ_le short) _
      _ = shifts poly bits.length (shift poly (crc ^^^ pack w (b :: bits))) := by
          rw [pack, ← BitVec.xor_assoc, shift_xor poly (crc ^^^ bit w b), shift_shiftLeft poly top]
      _ = shifts poly (b :: bits).length (crc ^^^ pack w (b :: bits)) := rfl

theorem pack_injective {bits bits' : List Bool} (same : bits.length = bits'.length)
    (short : bits.length ≤ w) (packed : pack w bits = pack w bits') : bits = bits' := by
  apply List.ext_getElem same
  intro i here here'
  have bit := congrArg (fun x : BitVec w => x.getLsbD i) packed
  simp only [getLsbD_pack, decide_eq_true (Nat.lt_of_lt_of_le here short), Bool.true_and] at bit
  rwa [List.getD_eq_getElem _ _ here, List.getD_eq_getElem _ _ here'] at bit

/-! ## Bursts -/

/-- Two messages of one length that differ only within `width` places from `start` on. -/
def Burst (start width : Nat) (bits bits' : List Bool) : Prop :=
  ∀ i, bits[i]? ≠ bits'[i]? → start ≤ i ∧ i < start + width

/-- Beyond the end of two messages of one length nothing differs. -/
theorem Burst.of_lt {start width : Nat} {bits bits' : List Bool} (same : bits.length = bits'.length)
    (inside : ∀ i, i < bits.length → bits[i]? ≠ bits'[i]? → start ≤ i ∧ i < start + width) :
    Burst start width bits bits' := by
  intro i differ
  refine inside i (Nat.lt_of_not_le fun past => differ ?_) differ
  rw [List.getElem?_eq_none past, List.getElem?_eq_none (same ▸ past)]

/-- What the messages have in common in the middle may be exchanged. -/
theorem Burst.exchange {start width : Nat} {front front' common other back back' : List Bool}
    (same : front.length = front'.length) (length : other.length = common.length)
    (burst : Burst start width (front ++ (common ++ back)) (front' ++ (common ++ back'))) :
    Burst start width (front ++ (other ++ back)) (front' ++ (other ++ back')) := by
  intro i differ
  apply burst i
  simp only [List.getElem?_append, same, length] at differ ⊢
  by_cases before : i < front'.length
  · simpa only [if_pos before] using differ
  · by_cases within : i - front'.length < common.length
    · -- here both have the same bit of `other`
      simp only [if_neg before, if_pos within] at differ
      exact absurd rfl differ
    · simpa only [if_neg before, if_neg within] using differ

theorem Burst.before {start width : Nat} {bits bits' : List Bool}
    (burst : Burst start width bits bits') :
    bits.take start = bits'.take start := by
  apply List.ext_getElem?
  intro i
  rw [List.getElem?_take, List.getElem?_take]
  by_cases inside : i < start
  · rw [if_pos inside, if_pos inside]
    by_contra differ
    exact absurd (burst i differ).1 (Nat.not_le.mpr inside)
  · rw [if_neg inside, if_neg inside]

theorem Burst.behind {start width : Nat} {bits bits' : List Bool}
    (burst : Burst start width bits bits') :
    bits.drop (start + width) = bits'.drop (start + width) := by
  apply List.ext_getElem?
  intro i
  rw [List.getElem?_drop, List.getElem?_drop]
  by_contra differ
  exact absurd (burst _ differ).2 (Nat.not_lt.mpr (Nat.le_add_right _ _))

section Bursts

variable {poly} (monic : poly.msb = true)

include monic

/-- A polynomial with its top coefficient in the top place: what came in tells what fell out. -/
theorem shift_eq_zero {x : BitVec w} (zero : shift poly x = 0#w) : x = 0#w := by
  unfold shift at zero
  cases odd : x.getLsbD 0 with
  | true =>
    rw [odd, if_pos rfl] at zero
    have moved : x >>> 1 = poly := BitVec.xor_eq_zero_iff.mp zero
    have top : (x >>> 1).msb = false := by
      rw [BitVec.msb_ushiftRight]
      simp
    rw [moved, monic] at top
    cases top
  | false =>
    rw [odd, if_neg Bool.false_ne_true] at zero
    apply BitVec.eq_of_getLsbD_eq
    intro i _
    cases i with
    | zero => rw [odd, BitVec.getLsbD_zero]
    | succ i =>
      have place := congrArg (fun y : BitVec w => y.getLsbD i) zero
      simpa [BitVec.getLsbD_ushiftRight, Nat.add_comm 1 i] using place

theorem shift_injective : Function.Injective (shift poly) := by
  intro x y same
  have zero : shift poly (x ^^^ y) = 0#w := by rw [shift_xor, same, BitVec.xor_self]
  exact BitVec.xor_eq_zero_iff.mp (shift_eq_zero monic zero)

theorem shifts_injective (n : Nat) : Function.Injective (shifts poly n) :=
  (shift_injective monic).iterate n

/-- Two registers that differ still do after any message. -/
theorem feed_injective (bits : List Bool) : Function.Injective fun crc => feed poly crc bits := by
  induction bits with
  | nil => exact fun _ _ same => same
  | cons b bits ih =>
    intro x y same
    exact (BitVec.xor_left_inj _).mp (shift_injective monic (ih same))

/-- Two short messages fed into one register leave it different. -/
theorem feed_short {bits bits' : List Bool} (same : bits.length = bits'.length)
    (short : bits.length ≤ w) {crc : BitVec w} (fed : feed poly crc bits = feed poly crc bits') :
    bits = bits' := by
  rw [feed_eq_shifts poly short, feed_eq_shifts poly (same ▸ short), same] at fed
  have loaded := shifts_injective monic _ fed
  exact pack_injective same short ((BitVec.xor_right_inj crc).mp loaded)

/-- A burst no wider than the register shows in it. -/
theorem burst_detected {bits bits' : List Bool} (same : bits.length = bits'.length)
    (differ : bits ≠ bits') {start : Nat} (burst : Burst start w bits bits') (crc : BitVec w) :
    feed poly crc bits ≠ feed poly crc bits' := by
  intro fed
  have parts : ∀ l : List Bool, l = l.take start
      ++ ((l.drop start).take w ++ l.drop (start + w)) := by
    intro l
    rw [← List.drop_drop, List.take_append_drop, List.take_append_drop]
  -- the messages agree before the window and behind it, so what is fed in between decides
  rw [parts bits, parts bits', ← burst.before, ← burst.behind, feed_append, feed_append,
    feed_append, feed_append] at fed
  have window := feed_injective monic _ fed
  have length : ((bits.drop start).take w).length = ((bits'.drop start).take w).length := by
    rw [List.length_take, List.length_take, List.length_drop, List.length_drop, same]
  have inside := feed_short monic length (List.length_take_le _ _) window
  apply differ
  rw [parts bits, parts bits', inside, burst.before, burst.behind]

end Bursts

end Crc
