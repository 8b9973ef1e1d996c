import Mathlib.Data.List.Basic
import Mathlib.Data.List.Induction

/-!
# Iterated hash functions

What a hash of the Merkle–Damgård kind folds over: the blocks of the message, padded with
a one bit, as few zero bytes as make the blocks whole, and its length in bits. A
`Padding` is such a list of blocks; a message has at most one (`Padding.unique`). The MAC
made from a hash is `hmac`.
-/

namespace IteratedHash

abbrev Octets := List (BitVec 8)

/-! ## Numbers in octets -/

/-- The number that octets write, most significant first. -/
def bigEndian (octets : Octets) : Nat := octets.foldl (fun n octet => 256 * n + octet.toNat) 0

theorem bigEndian_snoc (octets : Octets) (octet : BitVec 8) :
    bigEndian (octets ++ [octet]) = 256 * bigEndian octets + octet.toNat := by
  rw [bigEndian, List.foldl_append]
  rfl

theorem bigEndian_injective {a b : Octets} (same : a.length = b.length)
    (value : bigEndian a = bigEndian b) :
    a = b := by
  induction a using List.reverseRec generalizing b with
  | nil => exact (List.length_eq_zero_iff.mp same.symm).symm
  | append_singleton a x ih =>
    rcases List.eq_nil_or_concat' b with rfl | ⟨b, y, rfl⟩
    · rw [List.length_append] at same
      cases same
    · rw [List.length_append, List.length_append] at same
      rw [bigEndian_snoc, bigEndian_snoc] at value
      have last : x.toNat = y.toNat := by omega
      have rest : bigEndian a = bigEndian b := by omega
      rw [ih (Nat.add_right_cancel same) rest, BitVec.eq_of_toNat_eq last]

/-! ## Blocks -/

/-- Whole blocks are known from what they make up together. -/
theorem blocks_unique {α : Type*} {size : Nat} (some : 0 < size) {a b : List (List α)}
    (wholeA : ∀ block ∈ a, block.length = size) (wholeB : ∀ block ∈ b, block.length = size)
    (same : a.flatten = b.flatten) : a = b := by
  induction a generalizing b with
  | nil =>
    cases b with
    | nil => rfl
    | cons block rest =>
      have empty := congrArg List.length same
      rw [List.flatten_nil, List.flatten_cons, List.length_append, wholeB block List.mem_cons_self,
        List.length_nil] at empty
      omega
  | cons block rest ih =>
    cases b with
    | nil =>
      have empty := congrArg List.length same
      rw [List.flatten_nil, List.flatten_cons, List.length_append, wholeA block List.mem_cons_self,
        List.length_nil] at empty
      omega
    | cons block' rest' =>
      rw [List.flatten_cons, List.flatten_cons] at same
      obtain ⟨first, others⟩ := List.append_inj same
        ((wholeA block List.mem_cons_self).trans (wholeB block' List.mem_cons_self).symm)
      rw [first, ih (fun c member => wholeA c (List.mem_cons_of_mem _ member))
        (fun c member => wholeB c (List.mem_cons_of_mem _ member)) others]

theorem length_flatten_of_whole {α : Type*} {size : Nat} {blocks : List (List α)}
    (whole : ∀ block ∈ blocks, block.length = size) :
    blocks.flatten.length = blocks.length * size := by
  induction blocks with
  | nil => rw [List.flatten_nil, List.length_nil, List.length_nil, Nat.zero_mul]
  | cons block rest ih =>
    rw [List.flatten_cons, List.length_append, whole block List.mem_cons_self,
      ih fun c member => whole c (List.mem_cons_of_mem _ member), List.length_cons, Nat.succ_mul,
      Nat.add_comm]

/-! ## Padding -/

/-- The blocks of a padded message. -/
structure Padding (blockSize fieldSize : Nat) (message : Octets) where
  zeros : Nat
  field : Octets
  blocks : List Octets
  padded : blocks.flatten = message ++ 0x80#8 :: (List.replicate zeros 0#8 ++ field)
  whole : ∀ block ∈ blocks, block.length = blockSize
  least : ∀ fewer < zeros, ¬blockSize ∣ message.length + 1 + fewer + fieldSize
  sized : field.length = fieldSize
  bits : bigEndian field = 8 * message.length

namespace Padding

variable {blockSize fieldSize : Nat} {message : Octets}

theorem divides (padding : Padding blockSize fieldSize message) :
    blockSize ∣ message.length + 1 + padding.zeros + fieldSize := by
  have length := congrArg List.length padding.padded
  rw [length_flatten_of_whole padding.whole, List.length_append, List.length_cons,
    List.length_append, List.length_replicate, padding.sized] at length
  refine ⟨padding.blocks.length, ?_⟩
  rw [Nat.mul_comm, length]
  omega

/-- A message is padded in one way. -/
theorem unique (some : 0 < blockSize) (p q : Padding blockSize fieldSize message) :
    p.blocks = q.blocks := by
  have zeros : p.zeros = q.zeros := by
    rcases Nat.lt_trichotomy p.zeros q.zeros with fewer | same | fewer
    · exact absurd p.divides (q.least _ fewer)
    · exact same
    · exact absurd q.divides (p.least _ fewer)
  have field : p.field = q.field :=
    bigEndian_injective (p.sized.trans q.sized.symm) (p.bits.trans q.bits.symm)
  refine blocks_unique some p.whole q.whole ?_
  rw [p.padded, q.padded, zeros, field]

end Padding

/-! ## Keyed hashing -/

/-- The octets of `octets`, and zeros after them, `size` in all. -/
def zeroExtended (size : Nat) (octets : Octets) : Octets :=
  (List.range size).map fun i => octets.getD i 0#8

/-- Every octet of a key combined with the same one. -/
def xorPad (key : Octets) (pad : BitVec 8) : Octets :=
  List.zipWith (· ^^^ ·) key (List.replicate key.length pad)

def ipad : BitVec 8 := 0x36#8
def opad : BitVec 8 := 0x5c#8

/-- The key as one block: itself, or its hash when it is longer than a block, with zeros
after it. -/
def blockKey (hash : Octets → Octets) (blockSize : Nat) (key : Octets) : Octets :=
  zeroExtended blockSize (if key.length > blockSize then hash key else key)

/-- `H((K xor opad) ‖ H((K xor ipad) ‖ m))`. -/
def hmac (hash : Octets → Octets) (blockSize : Nat) (key message : Octets) : Octets :=
  let k := blockKey hash blockSize key
  hash (xorPad k opad ++ hash (xorPad k ipad ++ message))

theorem zeroExtended_eq {size : Nat} {octets : Octets} (short : octets.length ≤ size) :
    zeroExtended size octets = octets ++ List.replicate (size - octets.length) 0#8 := by
  have length : (octets ++ List.replicate (size - octets.length) 0#8).length = size := by
    rw [List.length_append, List.length_replicate, Nat.add_sub_cancel' short]
  apply List.ext_getElem
  · rw [zeroExtended, List.length_map, List.length_range, length]
  · intro i _ _
    simp only [zeroExtended, List.getElem_map, List.getElem_range, List.getElem_append,
      List.getD_eq_getElem?_getD]
    split
    · next inside => rw [List.getElem?_eq_getElem inside, Option.getD_some]
    · next past => rw [List.getElem?_eq_none (Nat.le_of_not_lt past), List.getElem_replicate,
        Option.getD_none]

theorem xorPad_eq (key : Octets) (pad : BitVec 8) : xorPad key pad = key.map (· ^^^ pad) := by
  induction key with
  | nil => rfl
  | cons octet key ih =>
    rw [xorPad, List.length_cons, List.replicate_succ, List.zipWith_cons_cons, List.map_cons, ← ih]
    rfl

end IteratedHash
