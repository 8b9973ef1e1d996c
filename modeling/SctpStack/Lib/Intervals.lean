import Mathlib.Data.List.Nodup
import Mathlib.Data.List.Perm.Subperm

/-!
# Runs of consecutive numbers

Numbers that come in increasing order are kept as the intervals they fill, the last one
first. A number just past the last interval makes it longer, any other begins a new one
(`add`). The intervals stay apart, and cover the numbers that came and no others.
-/

namespace Intervals

/-- One number more, past all that came before. -/
def add : List (Nat × Nat) → Nat → List (Nat × Nat)
  | [], n => [(n, n)]
  | (lo, hi) :: rest, n => if hi + 1 = n then (lo, n) :: rest else (n, n) :: (lo, hi) :: rest

/-- A number lies in one of the intervals. -/
def Covers (blocks : List (Nat × Nat)) (n : Nat) :
    Prop := ∃ block ∈ blocks, block.1 ≤ n ∧ n ≤ block.2

/-- Intervals in falling order, no two of which touch. -/
structure Apart (blocks : List (Nat × Nat)) : Prop where
  nonempty : ∀ block ∈ blocks, block.1 ≤ block.2
  falling : blocks.Pairwise fun later earlier => earlier.2 + 1 < later.1

theorem Apart.nil : Apart [] := ⟨fun _ member => absurd member List.not_mem_nil, .nil⟩

theorem covers_cons {block : Nat × Nat} {rest : List (Nat × Nat)} {n : Nat} :
    Covers (block :: rest) n ↔ (block.1 ≤ n ∧ n ≤ block.2) ∨ Covers rest n := by
  simp [Covers]

theorem not_covers_nil (n : Nat) : ¬Covers [] n := by
  simp [Covers]

/-- The number is covered, and what was. -/
theorem covers_add {blocks : List (Nat × Nat)} {n m : Nat} (apart : Apart blocks) :
    Covers (add blocks n) m ↔ m = n ∨ Covers blocks m := by
  cases blocks with
  | nil => simp [add, Covers, Nat.le_antisymm_iff, and_comm]
  | cons block rest =>
    obtain ⟨lo, hi⟩ := block
    have ordered : lo ≤ hi := apart.nonempty (lo, hi) List.mem_cons_self
    rw [add]
    split
    · next touches =>
      rw [covers_cons, covers_cons]
      constructor
      · rintro (⟨low, high⟩ | before)
        · rcases Nat.eq_or_lt_of_le high with last | inside
          · exact Or.inl last
          · exact Or.inr (Or.inl ⟨low, by omega⟩)
        · exact Or.inr (Or.inr before)
      · rintro (rfl | ⟨low, high⟩ | before)
        · exact Or.inl ⟨by omega, Nat.le_refl _⟩
        · exact Or.inl ⟨low, by omega⟩
        · exact Or.inr before
    · rw [covers_cons, ← Nat.le_antisymm_iff, eq_comm]

theorem Apart.add {blocks : List (Nat × Nat)} {n : Nat} (apart : Apart blocks)
    (past : ∀ m, Covers blocks m → m < n) :
    Apart (add blocks n) := by
  have below : ∀ block ∈ blocks, block.2 < n := fun block member =>
    past block.2 ⟨block, member, apart.nonempty block member, Nat.le_refl _⟩
  cases blocks with
  | nil => exact ⟨by simp [Intervals.add], List.pairwise_singleton _ _⟩
  | cons block rest =>
    obtain ⟨lo, hi⟩ := block
    obtain ⟨first, others⟩ := List.forall_mem_cons.mp apart.nonempty
    obtain ⟨under, pairs⟩ := List.pairwise_cons.mp apart.falling
    rw [Intervals.add]
    split
    · next touches =>
      have longer : lo ≤ n := by
        have : lo ≤ hi := first
        omega
      exact ⟨List.forall_mem_cons.mpr ⟨longer, others⟩, List.pairwise_cons.mpr ⟨under, pairs⟩⟩
    · next parted =>
      refine ⟨List.forall_mem_cons.mpr ⟨Nat.le_refl _, apart.nonempty⟩,
        List.pairwise_cons.mpr ⟨?_, apart.falling⟩⟩
      intro earlier member
      have top : hi < n := below (lo, hi) List.mem_cons_self
      rcases List.mem_cons.mp member with rfl | deeper
      · exact Nat.lt_of_le_of_ne top parted
      · have gap : earlier.2 + 1 < lo := under earlier deeper
        have : lo ≤ hi := first
        show earlier.2 + 1 < n
        omega

/-- Increasing numbers as intervals. -/
theorem foldl_add {blocks : List (Nat × Nat)} {numbers : List Nat} (apart : Apart blocks)
    (rising : numbers.Pairwise (· < ·)) (past : ∀ n ∈ numbers, ∀ m, Covers blocks m → m < n) :
    Apart (numbers.foldl add blocks) ∧ ∀ m, Covers (numbers.foldl add blocks) m ↔ m ∈ numbers
      ∨ Covers blocks m := by
  induction numbers generalizing blocks with
  | nil => exact ⟨apart, fun m => by simp⟩
  | cons n rest ih =>
    obtain ⟨above, rising'⟩ := List.pairwise_cons.mp rising
    have here := past n List.mem_cons_self
    obtain ⟨apart', covers⟩ := ih (apart.add here) rising' fun k member m covered => by
      rcases (covers_add apart).mp covered with rfl | before
      · exact above k member
      · exact Nat.lt_trans (here m before) (above k member)
    refine ⟨apart', fun m => ?_⟩
    rw [List.foldl_cons, covers, covers_add apart, List.mem_cons]
    constructor
    · rintro (later | same | before)
      · exact Or.inl (Or.inr later)
      · exact Or.inl (Or.inl same)
      · exact Or.inr before
    · rintro ((same | later) | before)
      · exact Or.inr (Or.inl same)
      · exact Or.inl later
      · exact Or.inr (Or.inr before)

/-- Among so many numbers there is room for no more intervals. -/
theorem Apart.length_le {blocks : List (Nat × Nat)} {size : Nat} (apart : Apart blocks) (low : Nat)
    (inside : ∀ n, Covers blocks n → low ≤ n ∧ n < low + size) : blocks.length ≤ size := by
  have starts : (blocks.map Prod.fst).Nodup := by
    rw [List.Nodup, List.pairwise_map]
    refine apart.falling.imp_of_mem fun {later earlier} _ member below => ?_
    have := apart.nonempty earlier member
    omega
  have within : blocks.map Prod.fst ⊆ List.range' low size := by
    intro n member
    obtain ⟨block, here, rfl⟩ := List.mem_map.mp member
    exact List.mem_range'_1.mpr (inside block.1 ⟨block, here, Nat.le_refl _,
      apart.nonempty block here⟩)
  have length := (List.subperm_of_subset starts within).length_le
  rwa [List.length_map, List.length_range'] at length

end Intervals
