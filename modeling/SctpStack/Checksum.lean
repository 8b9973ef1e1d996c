import SctpStack.RecvPacket
import SctpStack.Lib.Crc

/-!
# The checksum of a packet

`calculate_sctp_checksum` takes a byte at a time from a table. It computes the CRC-32C
bit by bit (`calculateSctpChecksum_eq`), so it tells apart any two byte strings of one
length that differ within 32 bits only (`checksum_crc32c`), and `handle_recv_packet` drops
a packet hit by such a burst (`decodePacket_burst`).
-/

namespace SctpStack

/-! ## Bit by bit -/

def crc32cPolynomial : BitVec 32 := 0x82F63B78#32

/-- The bits of a byte, the least significant first. -/
def byteBits (byte : BitVec 8) : List Bool := (List.range 8).map byte.getLsbD

def bitsOf (data : Bytes) : List Bool := data.flatMap byteBits

/-- The CRC-32C, reflected: a register of ones, the message fed in bit by bit, and the
register inverted at the end. -/
def crc32c (data : Bytes) : BitVec 32 :=
  Crc.feed crc32cPolynomial 0xFFFFFFFF#32 (bitsOf data) ^^^ 0xFFFFFFFF#32

theorem crc32cPolynomial_monic : crc32cPolynomial.msb = true := by decide

@[simp] theorem length_byteBits (byte : BitVec 8) : (byteBits byte).length = 8 := by simp [byteBits]

theorem getD_byteBits (byte : BitVec 8) (i : Nat) :
    (byteBits byte).getD i false = byte.getLsbD i := by
  by_cases inside : i < 8
  · simp [byteBits, inside]
  · rw [List.getD_eq_default _ _ (by simpa using inside),
      BitVec.getLsbD_of_ge _ _ (Nat.le_of_not_lt inside)]

theorem byteBits_injective : Function.Injective byteBits := by
  intro x y same
  apply BitVec.eq_of_getLsbD_eq
  intro i _
  rw [← getD_byteBits, ← getD_byteBits, same]

@[simp] theorem bitsOf_append (data more : Bytes) :
    bitsOf (data ++ more) = bitsOf data ++ bitsOf more :=
  List.flatMap_append

@[simp] theorem length_bitsOf (data : Bytes) : (bitsOf data).length = 8 * data.length := by
  induction data with
  | nil => rfl
  | cons byte data ih =>
    rw [bitsOf, List.flatMap_cons, List.length_append, length_byteBits, ← bitsOf,
      ih, List.length_cons]
    omega

theorem bitsOf_injective : Function.Injective bitsOf := by
  intro a
  induction a with
  | nil =>
    intro b same
    have := congrArg List.length same
    rw [length_bitsOf, length_bitsOf] at this
    exact (List.length_eq_zero_iff.mp (by simpa using this.symm)).symm
  | cons byte data ih =>
    intro b same
    cases b with
    | nil => cases same
    | cons byte' data' =>
      obtain ⟨first, rest⟩ := List.append_inj same (by rw [length_byteBits, length_byteBits])
      rw [byteBits_injective first, ih rest]

/-! ## The table -/

theorem crcBit_eq : crcBit = Crc.shift crc32cPolynomial := by
  funext crc
  have lowest : (crc &&& 1#32 != 0#32) = crc.getLsbD 0 := by
    rw [BitVec.and_one_eq_setWidth_ofBool_getLsbD]
    cases crc.getLsbD 0 <;> rfl
  rw [crcBit, Crc.shift, lowest]
  rfl

theorem crc32cTable_eq (i : BitVec 32) : crc32cTable i = Crc.shifts crc32cPolynomial 8 i := by
  rw [crc32cTable, crcBit_eq]
  rfl

theorem pack_byteBits (byte : BitVec 8) : Crc.pack 32 (byteBits byte) = byte.setWidth 32 := by
  apply BitVec.eq_of_getLsbD_eq
  intro i bound
  rw [Crc.getLsbD_pack, getD_byteBits, BitVec.getLsbD_setWidth]

/-- One step of the loop feeds in the eight bits of a byte. -/
theorem crc32cTable_step (crc : BitVec 32) (byte : BitVec 8) :
    crc32cTable ((crc ^^^ byte.setWidth 32) &&& 0xFF#32) ^^^ (crc >>> 8) =
      Crc.feed crc32cPolynomial crc (byteBits byte) := by
  have masks : ∀ i, i < 32 → (0xFF#32).getLsbD i = decide (i < 8) := by decide
  have above : (byte.setWidth 32) >>> 8 = 0#32 := by
    apply BitVec.eq_of_getLsbD_eq
    intro i _
    rw [BitVec.getLsbD_ushiftRight, BitVec.getLsbD_setWidth,
      BitVec.getLsbD_of_ge byte _ (Nat.le_add_right 8 i), Bool.and_false, BitVec.getLsbD_zero]
  calc crc32cTable ((crc ^^^ byte.setWidth 32) &&& 0xFF#32) ^^^ (crc >>> 8)
      = Crc.shifts crc32cPolynomial 8 ((crc ^^^ byte.setWidth 32) &&& 0xFF#32)
          ^^^ ((crc ^^^ byte.setWidth 32) >>> 8) := by
        rw [crc32cTable_eq, BitVec.ushiftRight_xor_distrib, above, BitVec.xor_zero]
    _ = Crc.shifts crc32cPolynomial 8 (crc ^^^ byte.setWidth 32) :=
      (Crc.shifts_split _ masks _).symm
    _ = Crc.feed crc32cPolynomial crc (byteBits byte) := by
        rw [Crc.feed_eq_shifts _ (by simp), length_byteBits, pack_byteBits]

theorem calculateSctpChecksum_eq (data : Bytes) : calculateSctpChecksum data = crc32c data := by
  have loop : ∀ crc, data.foldl
      (fun crc byte => crc32cTable ((crc ^^^ byte.setWidth 32) &&& 0xFF#32) ^^^ (crc >>> 8)) crc
        = Crc.feed crc32cPolynomial crc (bitsOf data) := by
    induction data with
    | nil => exact fun crc => rfl
    | cons byte data ih =>
      intro crc
      rw [List.foldl_cons, ih, crc32cTable_step, ← Crc.feed_append]
      rfl
  rw [calculateSctpChecksum, loop, crc32c]

/-! ## Bursts -/

theorem calculateSctpChecksum_ne {a b : Bytes} {start : Nat} (same : a.length = b.length)
    (differ : a ≠ b) (burst : Crc.Burst start 32 (bitsOf a) (bitsOf b)) :
    calculateSctpChecksum a ≠ calculateSctpChecksum b := by
  intro equal
  have length : (bitsOf a).length = (bitsOf b).length := by rw [length_bitsOf, length_bitsOf, same]
  have fed := Crc.burst_detected crc32cPolynomial_monic length (bitsOf_injective.ne differ)
    burst 0xFFFFFFFF#32
  rw [calculateSctpChecksum_eq, calculateSctpChecksum_eq, crc32c, crc32c] at equal
  exact fed ((BitVec.xor_left_inj _).mp equal)

/-- The table-driven checksum is the CRC-32C, and byte strings of one length that differ
within 32 consecutive bits have different ones. -/
theorem checksum_crc32c :
    (∀ data : Bytes, calculateSctpChecksum data = crc32c data)
      ∧ ∀ (a b : Bytes) (start : Nat), a.length = b.length → a ≠ b →
        Crc.Burst start 32 (bitsOf a) (bitsOf b) → calculateSctpChecksum a
          ≠ calculateSctpChecksum b :=
  ⟨calculateSctpChecksum_eq, fun _ _ _ => calculateSctpChecksum_ne⟩

/-- Eight bytes, and the same with 32 bits from the fifth on inverted. -/
theorem inverted_bits_detected :
    calculateSctpChecksum [0x13#8, 0x88#8, 0x13#8, 0x89#8, 0x00#8, 0x00#8, 0x00#8, 0x00#8]
      ≠ calculateSctpChecksum [0xE3#8, 0x77#8, 0xEC#8, 0x76#8, 0x0F#8, 0x00#8, 0x00#8, 0x00#8] :=
  checksum_crc32c.2 _ _ 4 rfl (by decide) (Crc.Burst.of_lt rfl (by decide))

/-! ## Packets -/

section Packets

variable {a b : Bytes} (field : (a.drop sctpChecksumOffset).take 4
    = (b.drop sctpChecksumOffset).take 4)

/-- A datagram around its checksum field. -/
theorem around_checksum (data : Bytes) :
    data.take sctpChecksumOffset ++ ((data.drop sctpChecksumOffset).take 4
      ++ data.drop (sctpChecksumOffset + 4))
      = data := by
  rw [← List.drop_drop, List.take_append_drop, List.take_append_drop]

include field

theorem sctpReadWireChecksum_of_field : sctpReadWireChecksum a = sctpReadWireChecksum b := by
  have byte : ∀ (data : Bytes) (i : Nat), i < 4 →
      data.getD (sctpChecksumOffset + i) 0 = ((data.drop sctpChecksumOffset).take 4).getD i 0 := by
    intro data i bound
    rw [List.getD_eq_getElem?_getD, List.getD_eq_getElem?_getD, List.getElem?_take_of_lt bound,
      List.getElem?_drop]
  have each : ∀ i, i < 4 → a.getD (sctpChecksumOffset + i) 0 = b.getD (sctpChecksumOffset + i)
      0 := by
    intro i bound
    rw [byte a i bound, byte b i bound, field]
  have first := each 0 (by decide)
  rw [Nat.add_zero] at first
  rw [sctpReadWireChecksum, sctpReadWireChecksum, readChecksumLe, readChecksumLe, first,
    each 1 (by decide), each 2 (by decide), each 3 (by decide)]

theorem sctpClearWireChecksum_ne (same : a.length = b.length) (differ : a ≠ b) :
    sctpClearWireChecksum a ≠ sctpClearWireChecksum b := by
  intro equal
  apply differ
  have front : (a.take sctpChecksumOffset).length = (b.take sctpChecksumOffset).length := by
    rw [List.length_take, List.length_take, same]
  simp only [sctpClearWireChecksum, setChecksumField, List.append_assoc] at equal
  obtain ⟨before, rest⟩ := List.append_inj equal front
  have behind := List.append_cancel_left rest
  rw [← around_checksum a, ← around_checksum b, before, field, behind]

theorem burst_cleared {start : Nat} (same : a.length = b.length)
    (long : sctpCommonHeaderSize ≤ a.length) (burst : Crc.Burst start 32 (bitsOf a) (bitsOf b)) :
    Crc.Burst start 32 (bitsOf (sctpClearWireChecksum a)) (bitsOf (sctpClearWireChecksum b)) := by
  have cleared : ∀ data : Bytes, bitsOf (sctpClearWireChecksum data)
      = bitsOf (data.take sctpChecksumOffset)
        ++ (bitsOf [0#8, 0#8, 0#8, 0#8] ++ bitsOf (data.drop (sctpChecksumOffset + 4))) := by
    intro data
    rw [sctpClearWireChecksum, setChecksumField, List.append_assoc, bitsOf_append, bitsOf_append]
  have front : (bitsOf (a.take sctpChecksumOffset)).length
      = (bitsOf (b.take sctpChecksumOffset)).length := by
    rw [length_bitsOf, length_bitsOf, List.length_take, List.length_take, same]
  have width : (bitsOf [0#8, 0#8, 0#8, 0#8]).length
      = (bitsOf ((b.drop sctpChecksumOffset).take 4)).length := by
    rw [length_bitsOf, length_bitsOf, List.length_take, List.length_drop, ← same,
      Nat.min_eq_left (Nat.le_sub_of_add_le long)]
    rfl
  rw [← around_checksum a, ← around_checksum b, field, bitsOf_append, bitsOf_append, bitsOf_append,
    bitsOf_append] at burst
  rw [cleared a, cleared b]
  exact burst.exchange front width

end Packets

/-- A packet hit by a burst outside its checksum field is dropped. -/
theorem decodePacket_burst {a b : Bytes} {packet : Packet} {start : Nat}
    (read : decodePacket a = some packet) (same : a.length = b.length) (differ : a ≠ b)
    (burst : Crc.Burst start 32 (bitsOf a) (bitsOf b))
    (field : (a.drop sctpChecksumOffset).take 4 = (b.drop sctpChecksumOffset).take 4) :
    decodePacket b = none := by
  unfold decodePacket at read
  split at read
  · cases read
  · next long =>
    split at read
    · cases read
    · next valid =>
      have long := Nat.le_of_not_lt long
      have length : (sctpClearWireChecksum a).length = (sctpClearWireChecksum b).length := by
        simp only [sctpClearWireChecksum, setChecksumField, List.length_append, List.length_take,
          List.length_drop, same]
      have detected := calculateSctpChecksum_ne length (sctpClearWireChecksum_ne field same differ)
        (burst_cleared field same long burst)
      have wrong : calculateSctpChecksum (sctpClearWireChecksum b) ≠ sctpReadWireChecksum b := by
        rw [← sctpReadWireChecksum_of_field field, ← Decidable.not_not.mp valid]
        exact detected.symm
      rw [decodePacket, if_neg (Nat.not_lt.mpr (same ▸ long)), if_pos wrong]

end SctpStack
