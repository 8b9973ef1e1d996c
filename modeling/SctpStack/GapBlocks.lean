import SctpStack.Reporting
import SctpStack.Codec
import SctpStack.Lib.Intervals

/-!
# The Gap Ack Blocks of a SACK

`make_sack` turns the TSNs that are held into blocks of 16-bit offsets. Where they can be
reported the blocks are in order and apart, their number fits its field, and the sender
that reads the SACK takes it to acknowledge exactly what is held (`makeSack_exact`).
-/

namespace SctpStack

/-- A block as an interval of offsets. -/
def SackGapAckBlock.interval (block : SackGapAckBlock) : Nat × Nat :=
  (block.start.toNat, block.stop.toNat)

/-- The blocks are those of the offsets as they come. -/
theorem intervals_gapAckBlocks (blocks : List SackGapAckBlock) (offsets : List (BitVec 16)) :
    (gapAckBlocks blocks offsets).map SackGapAckBlock.interval
      = ((offsets.map BitVec.toNat).foldl Intervals.add
        (blocks.map SackGapAckBlock.interval)).reverse := by
  induction offsets generalizing blocks with
  | nil => simp [gapAckBlocks]
  | cons offset rest ih =>
    cases blocks with
    | nil => exact ih [⟨offset, offset⟩]
    | cons last before =>
      unfold gapAckBlocks
      simp only
      split
      · next parted =>
        have begun : Intervals.add ((last :: before).map SackGapAckBlock.interval) offset.toNat
            = (⟨offset, offset⟩ :: last :: before).map SackGapAckBlock.interval := if_neg parted
        rw [ih, ← begun]
        rfl
      · next touches =>
        have longer : Intervals.add ((last :: before).map SackGapAckBlock.interval) offset.toNat
            = ({ last with stop := offset } :: before).map SackGapAckBlock.interval :=
              if_pos (not_not.mp touches)
        rw [ih, ← longer]
        rfl

/-- The offsets of what is held, as `make_sack` goes over them. -/
def Association.heldOffsets (a : Association) : List (BitVec 16) :=
  a.tsnOooBuffer.keys.map fun tsn => (tsn - a.lastPeerTsn).setWidth 16

section Held

variable {a : Association}

/-- What is held lies at an offset from 2 to 65535. -/
theorem PastGap.offset (past : PastGap a) {tsn : Tsn} (held : tsn ∈ a.tsnOooBuffer.keys) :
    2 ≤ (tsn - a.lastPeerTsn).toNat ∧ (tsn - a.lastPeerTsn).toNat ≤ 65535 := by
  have near := past.reach.near tsn held
  have apart : tsn ≠ a.lastPeerTsn + 1#32 := by
    rintro rfl
    exact KeyMap.get?_eq_none.mp past.gap held
  bv_omega

theorem toNat_heldOffsets (past : PastGap a) :
    a.heldOffsets.map BitVec.toNat = a.tsnOooBuffer.keys.map fun tsn =>
      (tsn - a.lastPeerTsn).toNat := by
  rw [Association.heldOffsets, List.map_map]
  refine List.map_congr_left fun tsn held => ?_
  have bound := (past.offset held).2
  rw [Function.comp_apply, BitVec.toNat_setWidth]
  exact Nat.mod_eq_of_lt (by omega)

theorem rising_heldOffsets (past : PastGap a) :
    (a.heldOffsets.map BitVec.toNat).Pairwise (· < ·) := by
  rw [toNat_heldOffsets past, List.pairwise_map]
  refine past.reach.sorted.imp_of_mem fun {s t} first second before => ?_
  rw [tsnLt_iff_of_near (past.reach.near s first) (past.reach.near t second)] at before
  have := past.offset first
  have := past.offset second
  bv_omega

/-- The blocks of what is held. -/
theorem blocks_heldOffsets (past : PastGap a) :
    (∀ block ∈ gapAckBlocks [] a.heldOffsets, block.start.toNat ≤ block.stop.toNat)
    ∧ (gapAckBlocks [] a.heldOffsets).Pairwise (fun earlier later => earlier.stop.toNat + 1
      < later.start.toNat)
    ∧ (∀ n, (∃ block ∈ gapAckBlocks [] a.heldOffsets, block.start.toNat ≤ n ∧ n ≤ block.stop.toNat)
      ↔ ∃ tsn ∈ a.tsnOooBuffer.keys, (tsn - a.lastPeerTsn).toNat = n)
    ∧ (gapAckBlocks [] a.heldOffsets).length ≤ 65534 := by
  have intervals := intervals_gapAckBlocks [] a.heldOffsets
  obtain ⟨⟨nonempty, falling⟩, covers⟩ :=
    Intervals.foldl_add Intervals.Apart.nil (rising_heldOffsets past)
    fun n _ m covered => absurd covered (Intervals.not_covers_nil m)
  rw [List.map_nil] at intervals
  generalize (a.heldOffsets.map BitVec.toNat).foldl Intervals.add []
    = made at intervals nonempty falling covers
  have members : ∀ block, block ∈ gapAckBlocks [] a.heldOffsets → block.interval ∈ made := by
    intro block member
    rw [← List.mem_reverse, ← intervals]
    exact List.mem_map_of_mem member
  have held : ∀ n, n ∈ a.heldOffsets.map BitVec.toNat ↔
      ∃ tsn ∈ a.tsnOooBuffer.keys, (tsn - a.lastPeerTsn).toNat = n := by
    intro n
    rw [toNat_heldOffsets past, List.mem_map]
  refine ⟨fun block member => nonempty block.interval (members block member), ?_, fun n => ?_, ?_⟩
  · rw [← List.pairwise_reverse, ← intervals, List.pairwise_map] at falling
    exact falling
  · rw [← held, ← or_false (n ∈ _), ← iff_false_intro (Intervals.not_covers_nil n), ← covers]
    constructor
    · rintro ⟨block, member, inside⟩
      exact ⟨block.interval, members block member, inside⟩
    · rintro ⟨interval, member, inside⟩
      rw [← List.mem_reverse, ← intervals] at member
      obtain ⟨block, here, rfl⟩ := List.mem_map.mp member
      exact ⟨block, here, inside⟩
  · have length := congrArg List.length intervals
    rw [List.length_map, List.length_reverse] at length
    have shape : Intervals.Apart made := ⟨nonempty, falling⟩
    rw [length]
    refine shape.length_le 2 fun n covered => ?_
    obtain ⟨tsn, member, rfl⟩ := (held n).mp
      (((covers n).mp covered).resolve_right (Intervals.not_covers_nil n))
    have := past.offset member
    omega

/-- A SACK says of every TSN whether it was received, in blocks that are in order and
apart, and its counts are those of its lists. -/
structure ExactSack (a : Association) (sack : SackChunkValue) : Prop where
  cumulative : sack.cumulativeTsnAck = a.lastPeerTsn
  ordered : ∀ block ∈ sack.gapAckBlocks, block.start.toNat ≤ block.stop.toNat
  apart : sack.gapAckBlocks.Pairwise fun earlier later => earlier.stop.toNat + 1 < later.start.toNat
  past : ∀ block ∈ sack.gapAckBlocks, 2 ≤ block.start.toNat
  gapCount : sack.numberOfGapAckBlocks.toNat = sack.gapAckBlocks.length
  duplicateCount : sack.numberOfDuplicateTsns.toNat = sack.duplicateTsns.length
  acknowledges : ∀ tsn, sackAcknowledges sack tsn = true
    ↔ tsnLte tsn a.lastPeerTsn = true ∨ a.tsnOooBuffer.contains tsn = true

/-- The serializer takes it. -/
theorem ExactSack.accepted {sack : SackChunkValue} (exact_ : ExactSack a sack) :
    ¬(ChunkValue.sack sack).Refused := by
  rintro (gaps | duplicates | ⟨block, member, zero | reversed⟩)
  · exact gaps exact_.gapCount
  · exact duplicates exact_.duplicateCount
  · have := exact_.past block member
    simp [zero] at this
  · exact absurd (exact_.ordered block member) (Nat.not_le.mpr reversed)

theorem makeSack_exact (s : Socket) (key : AssociationKey) (past : PastGap a)
    (few : a.duplicateTsns.length ≤ 65535) :
    ∃ sack, (s.makeSack key a).1.chunks = [⟨0#8, .sack sack⟩] ∧ ExactSack a sack := by
  obtain ⟨ordered, apart, covers, length⟩ := blocks_heldOffsets past
  refine ⟨_, rfl, rfl, ordered, apart, fun block member => ?_,
    toNat_length (Nat.le_succ_of_le length), toNat_length few,
    fun tsn => ?_⟩
  · obtain ⟨tsn, held, same⟩ := (covers block.start.toNat).mp ⟨block, member, Nat.le_refl _,
      ordered block member⟩
    rw [← same]
    exact (past.offset held).1
  · have member : a.tsnOooBuffer.contains tsn = true ↔ tsn ∈ a.tsnOooBuffer.keys :=
      KeyMap.mem_keys.symm
    rw [member]
    unfold sackAcknowledges
    simp only
    split
    · next below => simp [below]
    · next above =>
      rw [or_iff_right above]
      split
      · next far =>
        refine iff_of_false Bool.false_ne_true fun held => ?_
        exact absurd (past.offset held).2 (Nat.not_le.mpr far)
      · rw [List.any_eq_true]
        simp only [Bool.and_eq_true, decide_eq_true_eq]
        rw [show (gapAckBlocks [] (a.tsnOooBuffer.keys.map fun tsn =>
          (tsn - a.lastPeerTsn).setWidth 16))
          = gapAckBlocks [] a.heldOffsets from rfl, covers]
        constructor
        · rintro ⟨t, held, same⟩
          have : t = tsn := by
            rw [← BitVec.sub_add_cancel t a.lastPeerTsn, BitVec.eq_of_toNat_eq same,
              BitVec.sub_add_cancel]
          exact this ▸ held
        · exact fun held => ⟨tsn, held, rfl⟩

end Held

end SctpStack
