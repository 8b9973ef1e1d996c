import SctpStack.Hmac
import SctpStack.Wire
import SctpStack.Lib.IteratedHash

/-!
# The framing of SHA-256 and HMAC

`sha256` hashes the whole blocks of a message where they are and builds the last one or
two by hand, in a buffer of two blocks. Together they are the blocks of the padded message
(`sha256Padding`), whatever its length leaves over. `hmac_sha256` is the MAC made from it.
-/

namespace SctpStack

open IteratedHash

/-! ## The tail buffer -/

/-- Bytes written one by one, backwards from `top`. -/
def writeBackwards (f : Nat → BitVec 8) (top n : Nat) (buffer : Bytes) : Bytes :=
  (List.range n).foldl (fun buffer i => buffer.set (top - 1 - i) (f i)) buffer

theorem length_writeBackwards (f : Nat → BitVec 8) (top n : Nat) (buffer : Bytes) :
    (writeBackwards f top n buffer).length = buffer.length := by
  induction n with
  | zero => rfl
  | succ n ih => rw [writeBackwards, List.range_succ, List.foldl_append, List.foldl_cons,
      List.foldl_nil, List.length_set, ← writeBackwards, ih]

theorem getElem?_writeBackwards (f : Nat → BitVec 8) {top n : Nat} (room : n ≤ top) {buffer : Bytes}
    (inside : top ≤ buffer.length) (i : Nat) :
    (writeBackwards f top n buffer)[i]? = if top - n ≤ i ∧ i < top then some (f (top - 1 - i))
      else buffer[i]? := by
  induction n with
  | zero => rw [if_neg (by omega)]; rfl
  | succ n ih =>
    have before := ih (Nat.le_of_succ_le room)
    rw [writeBackwards, List.range_succ, List.foldl_append, List.foldl_cons, List.foldl_nil,
      ← writeBackwards, List.getElem?_set, length_writeBackwards, before]
    by_cases here : top - 1 - n = i
    · rw [if_pos here, if_pos (by omega), if_pos (by omega)]
      congr 2
      omega
    · rw [if_neg here]
      congr 1
      apply propext
      omega

/-- The tail as `sha256` writes it: what is left of the message copied to the front of two
zeroed blocks, `0x80` behind it, and the bit length written backwards from the end. -/
def writtenTail (data : Bytes) : Bytes :=
  let fullBlocks := data.length / sha256BlockSize
  let remainder := data.length - fullBlocks * sha256BlockSize
  let tail := data.drop (fullBlocks * sha256BlockSize)
    ++ (List.replicate (2 * sha256BlockSize) 0#8).drop remainder
  let tail := tail.set remainder 0x80#8
  let tailLen := if remainder < 56 then sha256BlockSize else 2 * sha256BlockSize
  let bits := BitVec.ofNat 64 (data.length * 8)
  (writeBackwards (fun i => (bits >>> (8 * i)).setWidth 8) tailLen 8 tail).take tailLen

/-- How long the tail is, by what the whole blocks leave over. -/
def tailLength (remainder : Nat) :
    Nat := if remainder < 56 then sha256BlockSize else 2 * sha256BlockSize

/-- Behind the message there is room in the tail for `0x80` and the bit length. -/
theorem tailLength_bounds {remainder : Nat} (short : remainder < sha256BlockSize) :
    remainder + 9 ≤ tailLength remainder ∧ tailLength remainder ≤ 2 * sha256BlockSize := by
  unfold tailLength sha256BlockSize at *
  split <;> omega

theorem tail_ext {rest : Bytes} (f : Nat → BitVec 8) {top : Nat} (room : rest.length + 9 ≤ top)
    (inside : top ≤ 2 * sha256BlockSize) :
    (writeBackwards f top 8 (rest ++ 0x80#8 :: List.replicate
      (2 * sha256BlockSize - rest.length - 1) 0#8)).take top
      = rest ++ [0x80#8] ++ List.replicate (top - 9 - rest.length) 0#8
        ++ (List.range 8).map fun i => f (7 - i) := by
  have size : (rest ++ 0x80#8 :: List.replicate (2 * sha256BlockSize - rest.length - 1) 0#8).length
      = 2 * sha256BlockSize := by
    rw [List.length_append, List.length_cons, List.length_replicate]
    omega
  apply List.ext_getElem?
  intro i
  rw [List.getElem?_take, getElem?_writeBackwards f (by omega) (by rw [size]; exact inside)]
  simp only [List.getElem?_append, List.length_append, List.length_singleton, List.length_replicate]
  by_cases outside : top ≤ i
  · rw [if_neg (Nat.not_lt.mpr outside), if_neg (by omega), List.getElem?_eq_none]
    rw [List.length_map, List.length_range]
    omega
  · rw [if_pos (Nat.lt_of_not_le outside)]
    by_cases field : top - 8 ≤ i
    · -- the last eight bytes are the bit length
      rw [if_pos ⟨field, Nat.lt_of_not_le outside⟩, if_neg (by omega), List.getElem?_map,
        List.getElem?_range (by omega), Option.map_some]
      congr 2
      omega
    · have before : i < rest.length + 1 + (top - 9 - rest.length) := by omega
      rw [if_neg fun both => field both.1, if_pos before]
      by_cases copied : i < rest.length
      · rw [if_pos copied, if_pos (Nat.lt_succ_of_lt copied), if_pos copied]
      · rw [if_neg copied]
        by_cases marker : i = rest.length
        · rw [marker, Nat.sub_self, if_pos (Nat.lt_succ_self _), if_neg (Nat.lt_irrefl _)]
          rfl
        · -- between `0x80` and the bit length the buffer is as it was
          have past : ¬i < rest.length + 1 := by omega
          rw [if_neg past, show i - rest.length = (i - (rest.length + 1)) + 1 by omega,
            List.getElem?_cons_succ, List.getElem?_replicate, List.getElem?_replicate,
            if_pos (by omega), if_pos (by omega)]

/-- What the whole blocks leave over of the message. -/
def leftOver (data : Bytes) : Bytes := data.drop (data.length / sha256BlockSize * sha256BlockSize)

theorem length_leftOver (data : Bytes) :
    (leftOver data).length = data.length % sha256BlockSize := by
  rw [leftOver, List.length_drop, Nat.mod_eq_sub_div_mul]

theorem leftOver_short (data : Bytes) : (leftOver data).length < sha256BlockSize := by
  rw [length_leftOver]
  exact Nat.mod_lt _ (by decide)

theorem sha256Tail_eq (data : Bytes) : sha256Tail data = leftOver data ++ [0x80#8]
    ++ List.replicate (tailLength (leftOver data).length - 9 - (leftOver data).length) 0#8
    ++ (List.range 8).map fun i => (BitVec.ofNat 64 (data.length * 8) >>> (8 * (7 - i))).setWidth
      8 := rfl

/-- The tail is what the writes leave in the buffer. -/
theorem writtenTail_eq (data : Bytes) : writtenTail data = sha256Tail data := by
  obtain ⟨room, inside⟩ := tailLength_bounds (leftOver_short data)
  have remainder : data.length - data.length / sha256BlockSize * sha256BlockSize
      = (leftOver data).length :=
    List.length_drop.symm
  have marked : (leftOver data ++ (List.replicate (2 * sha256BlockSize) 0#8).drop
      (leftOver data).length).set (leftOver data).length 0x80#8
        = leftOver data ++ 0x80#8 :: List.replicate
          (2 * sha256BlockSize - (leftOver data).length - 1) 0#8 := by
    have left : 2 * sha256BlockSize - (leftOver data).length
        = (2 * sha256BlockSize - (leftOver data).length - 1) + 1 := by omega
    rw [List.set_append_right _ _ (Nat.le_refl _), Nat.sub_self, List.drop_replicate, left,
      List.replicate_succ, List.set_cons_zero, ← left]
  have written := tail_ext (fun i => (BitVec.ofNat 64 (data.length * 8) >>> (8 * i)).setWidth 8)
    room inside
  rw [← marked] at written
  rw [sha256Tail_eq, ← written, writtenTail, remainder]
  rfl

/-! ## Blocks -/

theorem flatten_blockAt (data : Bytes) (n : Nat) :
    ((List.range n).map (blockAt data)).flatten = data.take (n * sha256BlockSize) := by
  induction n with
  | zero => rw [Nat.zero_mul, List.take_zero]; rfl
  | succ n ih =>
    rw [List.range_succ, List.map_append, List.flatten_append, ih, Nat.succ_mul, List.take_add]
    simp [blockAt]

theorem length_blockAt {data : Bytes} {i : Nat} (inside : (i + 1) * sha256BlockSize ≤ data.length) :
    (blockAt data i).length = sha256BlockSize := by
  rw [blockAt, List.length_take, List.length_drop]
  rw [Nat.succ_mul] at inside
  omega

theorem whole_blockAt {data : Bytes} {n : Nat} (inside : n * sha256BlockSize ≤ data.length) :
    ∀ block ∈ (List.range n).map (blockAt data), block.length = sha256BlockSize := by
  intro block member
  obtain ⟨i, bound, rfl⟩ := List.mem_map.mp member
  exact length_blockAt (Nat.le_trans (Nat.mul_le_mul_right _ (List.mem_range.mp bound)) inside)

/-! ## Padding -/

/-- The bit length as the tail holds it. -/
def lengthField (bits : BitVec 64) : Bytes :=
  (List.range 8).map fun i => (bits >>> (8 * (7 - i))).setWidth 8

theorem bigEndian_lengthField (bits : BitVec 64) : bigEndian (lengthField bits) = bits.toNat := by
  have bound := bits.isLt
  have indices : List.range 8 = [0, 1, 2, 3, 4, 5, 6, 7] := by decide
  rw [lengthField, bigEndian, indices]
  simp only [List.map_cons, List.map_nil, List.foldl_cons, List.foldl_nil, BitVec.toNat_setWidth,
    BitVec.toNat_ushiftRight, Nat.shiftRight_eq_div_pow]
  omega

section Padding

variable (message : Bytes)

/-- The blocks `sha256` folds over. -/
def hashedBlocks : List Bytes :=
  (List.range (message.length / sha256BlockSize)).map (blockAt message)
    ++ (List.range ((sha256Tail message).length / sha256BlockSize)).map
      (blockAt (sha256Tail message))

theorem length_sha256Tail : (sha256Tail message).length = tailLength (leftOver message).length := by
  obtain ⟨room, -⟩ := tailLength_bounds (leftOver_short message)
  rw [sha256Tail_eq]
  simp only [List.length_append, List.length_singleton, List.length_replicate, List.length_map,
    List.length_range]
  omega

/-- The tail is a whole number of blocks. -/
theorem tail_whole : (sha256Tail message).length / sha256BlockSize * sha256BlockSize
    = (sha256Tail message).length := by
  rw [length_sha256Tail, tailLength]
  split <;> rfl

theorem flatten_hashedBlocks : (hashedBlocks message).flatten = message ++ 0x80#8 ::
    (List.replicate (tailLength (leftOver message).length - 9 - (leftOver message).length) 0#8
      ++ lengthField (BitVec.ofNat 64 (message.length * 8))) := by
  rw [hashedBlocks, List.flatten_append, flatten_blockAt, flatten_blockAt, tail_whole,
    List.take_length, sha256Tail_eq, leftOver, List.append_assoc, List.append_assoc,
    ← List.append_assoc (message.take _), List.take_append_drop]
  rfl

theorem whole_hashedBlocks : ∀ block ∈ hashedBlocks message, block.length = sha256BlockSize := by
  intro block member
  rcases List.mem_append.mp member with whole | tail
  · exact whole_blockAt (Nat.div_mul_le_self _ _) block whole
  · exact whole_blockAt (Nat.le_of_eq (tail_whole message)) block tail

/-- Fewer zeros leave the last block unfinished: the boundary is at 56 bytes left over. -/
theorem fewer_zeros {fewer : Nat}
    (less : fewer < tailLength (leftOver message).length - 9 - (leftOver message).length) :
    ¬sha256BlockSize ∣ message.length + 1 + fewer + 8 := by
  have short := leftOver_short message
  have whole := Nat.div_add_mod message.length sha256BlockSize
  rw [← length_leftOver] at whole
  rintro ⟨blocks, total⟩
  unfold tailLength sha256BlockSize at *
  split at less <;> omega

/-- The padding of FIPS 180-4, as `sha256` builds it. -/
def sha256Padding (short : message.length < 2 ^ 61) : Padding sha256BlockSize 8 message where
  zeros := tailLength (leftOver message).length - 9 - (leftOver message).length
  field := lengthField (BitVec.ofNat 64 (message.length * 8))
  blocks := hashedBlocks message
  padded := flatten_hashedBlocks message
  whole := whole_hashedBlocks message
  least := fun _ => fewer_zeros message
  sized := rfl
  bits := by
    rw [bigEndian_lengthField, BitVec.toNat_ofNat, Nat.mod_eq_of_lt (by omega), Nat.mul_comm]

/-! ## The hash and the MAC -/

/-- The state as bytes, big-endian. -/
def digestBytes (h : List (BitVec 32)) : Bytes := h.flatMap append32

theorem sha256_eq_hashedBlocks :
    sha256 message = digestBytes ((hashedBlocks message).foldl compress initialHash) := by
  have word : ∀ word : BitVec 32,
      [(word >>> 24).setWidth 8, (word >>> 16).setWidth 8, (word >>> 8).setWidth 8, word.setWidth 8]
        = append32 word := by
    intro word
    rw [append32, BitVec.setWidth_ushiftRight_eq_extractLsb,
      BitVec.setWidth_ushiftRight_eq_extractLsb, BitVec.setWidth_ushiftRight_eq_extractLsb,
      BitVec.setWidth_eq_extractLsb' (by decide)]
  rw [hashedBlocks, List.foldl_append, List.foldl_map, List.foldl_map, digestBytes, sha256]
  simp only [word]

theorem length_compress (h : List (BitVec 32)) (block : Bytes) : (compress h block).length = 8 :=
  rfl

theorem length_foldl_compress {h : List (BitVec 32)} (start : h.length = 8) (blocks : List Bytes) :
    (blocks.foldl compress h).length = 8 := by
  induction blocks generalizing h with
  | nil => exact start
  | cons block rest ih => exact ih (length_compress h block)

theorem length_digestBytes (h : List (BitVec 32)) : (digestBytes h).length = 4 * h.length := by
  induction h with
  | nil => rfl
  | cons word rest ih =>
    rw [digestBytes, List.flatMap_cons, List.length_append, ← digestBytes, ih, List.length_cons,
      Nat.mul_succ, Nat.add_comm]
    rfl

theorem length_sha256 : (sha256 message).length = sha256DigestSize := by
  rw [sha256_eq_hashedBlocks, length_digestBytes, length_foldl_compress rfl]
  rfl

theorem hmacSha256_eq (key : Bytes) :
    hmacSha256 key message = hmac sha256 sha256BlockSize key message := by
  have short : (if key.length > sha256BlockSize then sha256 key else key).length
      ≤ sha256BlockSize := by
    split
    · rw [length_sha256]
      decide
    · next fits => exact Nat.le_of_not_lt fits
  rw [hmac, blockKey, zeroExtended_eq short, xorPad_eq, xorPad_eq]
  rfl

end Padding

/-- `sha256` folds `compress` over the blocks of the padded message, for every length the
bit length can hold, and `hmac_sha256` is the MAC made from it, for every key. -/
theorem sha256_hmac_framing :
    (∀ message : Bytes, message.length < 2 ^ 61 →
      Nonempty (Padding sha256BlockSize 8 message)
        ∧ ∀ padding : Padding sha256BlockSize 8 message,
          sha256 message = digestBytes (padding.blocks.foldl compress initialHash))
      ∧ ∀ key message : Bytes, hmacSha256 key message
        = hmac sha256 sha256BlockSize key message := by
  refine ⟨fun message short => ⟨⟨sha256Padding message short⟩, fun padding => ?_⟩,
    fun key message => ?_⟩
  · have same : padding.blocks = hashedBlocks message :=
      padding.unique (by decide) (sha256Padding message short)
    rw [same]
    exact sha256_eq_hashedBlocks message
  · exact hmacSha256_eq message key

/-- 56 bytes, the fewest that leave no room for their length. -/
theorem boundary_message_framing : ∃ padding : Padding sha256BlockSize 8 (List.replicate 56 0#8),
    sha256 (List.replicate 56 0#8) = digestBytes (padding.blocks.foldl compress initialHash) := by
  obtain ⟨⟨padding⟩, framed⟩ := sha256_hmac_framing.1 (List.replicate 56 0#8) (by decide)
  exact ⟨padding, framed padding⟩

end SctpStack
