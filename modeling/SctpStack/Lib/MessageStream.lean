import Mathlib.Data.List.Basic

/-!
# A byte stream with message boundaries

What a reader has taken off a stream and what its writer has given it, with the places
where a message ends. A buffer holds the part in between (`Holds`), as the rests of its
messages; giving, taking and abandoning are done to the rests.
-/

universe u

structure MessageStream (α : Type u) where
  /-- What has been taken. -/
  taken : List α
  /-- What has been given, less what was abandoned. -/
  given : List α
  /-- Where the messages end whose last piece has been given. -/
  ends : List Nat
  /-- Where the message that is open began. -/
  start : Nat
  /-- How much had been given when the stream was last detached. -/
  mark : Nat
deriving DecidableEq

namespace MessageStream

variable {α : Type u}

def fresh : MessageStream α := ⟨[], [], [], 0, 0⟩

/-- A piece is given, the last of its message or not. -/
def give (s : MessageStream α) (piece : List α) (complete : Bool) : MessageStream α :=
  let given := s.given ++ piece
  { s with
    given := given
    ends := if complete then s.ends ++ [given.length] else s.ends
    start := if complete then given.length else s.start }

@[simp] theorem taken_give (s : MessageStream α) (piece : List α) (complete : Bool) :
    (s.give piece complete).taken = s.taken := rfl

def take (s : MessageStream α) (piece : List α) : MessageStream α :=
  { s with taken := s.taken ++ piece }

/-- What has not been taken of the open message is dropped. -/
def abandon (s : MessageStream α) : MessageStream α :=
  let given := s.given.take (max s.start s.taken.length)
  { s with given := given, start := given.length, mark := min s.mark given.length }

def detach (s : MessageStream α) : MessageStream α := { s with mark := s.given.length }

/-- How much has not been taken. -/
def waiting (s : MessageStream α) : Nat := s.given.length - s.taken.length

/-- How much of it was given since the stream was last detached. -/
def attached (s : MessageStream α) : Nat := s.given.length - max s.mark s.taken.length

/-! ## The rests of messages -/

/-- Where the complete messages end, the first of them from `pos` on. -/
def endsFrom : Nat → List (List α × Bool) → List Nat
  | _, [] => []
  | pos, (bytes, complete) :: rest =>
    if complete then (pos + bytes.length) :: endsFrom (pos + bytes.length) rest
    else endsFrom (pos + bytes.length) rest

/-- The rests one after another. -/
def joined (rests : List (List α × Bool)) : List α := (rests.map Prod.fst).flatten

@[simp] theorem joined_nil : joined ([] : List (List α × Bool)) = [] := rfl

@[simp] theorem joined_cons (r : List α × Bool) (rests : List (List α × Bool)) :
    joined (r :: rests) = r.1 ++ joined rests := rfl

@[simp] theorem joined_append (rests rests' : List (List α × Bool)) :
    joined (rests ++ rests') = joined rests ++ joined rests' := by
  simp [joined]

theorem endsFrom_append (pos : Nat) (rests rests' : List (List α × Bool)) :
    endsFrom pos (rests ++ rests') = endsFrom pos rests ++ endsFrom (pos + (joined rests).length)
      rests' := by
  induction rests generalizing pos with
  | nil => simp [endsFrom]
  | cons r rests ih =>
    obtain ⟨bytes, complete⟩ := r
    cases complete <;> simp [endsFrom, ih, Nat.add_assoc]

/-- An end lies past the rest of its message. -/
theorem lt_of_mem_endsFrom {pos e : Nat} {rests : List (List α × Bool)}
    (nonempty : ∀ r ∈ rests, r.1 ≠ []) (inside : e ∈ endsFrom pos rests) : pos < e := by
  induction rests generalizing pos with
  | nil => cases inside
  | cons r rests ih =>
    obtain ⟨bytes, complete⟩ := r
    obtain ⟨some, others⟩ := List.forall_mem_cons.mp nonempty
    have long : 0 < bytes.length := List.length_pos_iff.mpr some
    have later : e ∈ endsFrom (pos + bytes.length) rests → pos < e := fun h => by
      have beyond := ih others h
      omega
    cases complete with
    | false => exact later inside
    | true =>
      rcases List.mem_cons.mp inside with rfl | h
      · omega
      · exact later h

/-- How much of the rests is of a message that is open. -/
def openLength (rests : List (List α × Bool)) : Nat :=
  match rests.getLast? with
  | some (bytes, false) => bytes.length
  | _ => 0

theorem openLength_concat (rests : List (List α × Bool)) (bytes : List α) (complete : Bool) :
    openLength (rests ++ [(bytes, complete)]) = if complete then 0 else bytes.length := by
  rw [openLength, List.getLast?_concat]
  cases complete <;> rfl

theorem openLength_le (rests : List (List α × Bool)) :
    openLength rests ≤ (joined rests).length := by
  rcases List.eq_nil_or_concat rests with rfl | ⟨front, ⟨bytes, complete⟩, rfl⟩
  · exact Nat.le_refl _
  · rw [List.concat_eq_append, openLength_concat]
    cases complete <;> simp

theorem openLength_cons {r : List α × Bool} {rests : List (List α × Bool)} (some : rests ≠ []) :
    openLength (r :: rests) = openLength rests := by
  obtain ⟨r', rests', rfl⟩ := List.exists_cons_of_ne_nil some
  rfl

theorem openLength_of_whole {rests : List (List α × Bool)} (whole : ∀ r ∈ rests, r.2 = true) :
    openLength rests = 0 := by
  rcases List.eq_nil_or_concat rests with rfl | ⟨front, ⟨bytes, complete⟩, rfl⟩
  · rfl
  · rw [List.concat_eq_append] at whole ⊢
    have last : complete = true := whole (bytes, complete) (by simp)
    rw [openLength_concat, last]
    rfl

/-! ## Buffers -/

/-- What has been given and not taken is in the rests of the messages, of which only the
last may be open. -/
structure Holds (s : MessageStream α) (rests : List (List α × Bool)) : Prop where
  given : s.given = s.taken ++ joined rests
  ends : s.ends.filter (fun e => decide (s.taken.length < e)) = endsFrom s.taken.length rests
  nonempty : ∀ r ∈ rests, r.1 ≠ []
  whole : ∀ r ∈ rests.dropLast, r.2 = true
  start : max s.start s.taken.length = s.given.length - openLength rests
  mark : s.mark ≤ s.given.length

namespace Holds

variable {s : MessageStream α} {rests : List (List α × Bool)}

theorem fresh : Holds (fresh : MessageStream α) [] :=
  ⟨rfl, rfl, fun _ inside => absurd inside List.not_mem_nil, fun _ inside =>
    absurd inside List.not_mem_nil, rfl, Nat.le_refl _⟩

theorem length_given (holds : Holds s rests) :
    s.given.length = s.taken.length + (joined rests).length := by
  rw [holds.given, List.length_append]

theorem waiting (holds : Holds s rests) : s.waiting = (joined rests).length := by
  rw [MessageStream.waiting, holds.length_given, Nat.add_sub_cancel_left]

/-- The ends still to come. -/
theorem mem_ends (holds : Holds s rests) {e : Nat} (ahead : s.taken.length < e) :
    e ∈ s.ends ↔ e ∈ endsFrom s.taken.length rests := by
  rw [← holds.ends, List.mem_filter, decide_eq_true ahead]
  exact (and_iff_left rfl).symm

/-- A piece begins a message when every message is whole. -/
theorem give_new (holds : Holds s rests) (whole : ∀ r ∈ rests, r.2 = true) {piece : List α}
    (some : piece ≠ []) (complete : Bool) :
    Holds (s.give piece complete) (rests ++ [(piece, complete)]) where
  given := by simp [give, holds.given]
  ends := by
    have long : 0 < piece.length := List.length_pos_iff.mpr some
    have total := holds.length_given
    have ahead : s.taken.length < s.given.length + piece.length := by omega
    rw [taken_give, endsFrom_append, ← holds.ends]
    cases complete with
    | false => simp [give, endsFrom]
    | true =>
      simp only [give, endsFrom, if_true, List.filter_append, List.length_append]
      rw [total] at ahead ⊢
      simp [ahead]
  nonempty := by
    rw [List.forall_mem_append]
    exact ⟨holds.nonempty, by simpa using some⟩
  whole := by rwa [List.dropLast_concat]
  start := by
    have before := holds.start
    have total := holds.length_given
    rw [openLength_of_whole whole] at before
    rw [openLength_concat]
    simp only [give, List.length_append]
    cases complete with
    | false =>
      simp only [Bool.false_eq_true, if_false]
      omega
    | true =>
      simp only [if_true]
      omega
  mark := by
    simp only [give, List.length_append]
    exact Nat.le_trans holds.mark (Nat.le_add_right _ _)

/-- A piece continues the message that is open. -/
theorem give_more {front : List (List α × Bool)} {bytes : List α}
    (holds : Holds s (front ++ [(bytes, false)])) (piece : List α) (complete : Bool) :
    Holds (s.give piece complete) (front ++ [(bytes ++ piece, complete)]) where
  given := by simp [give, holds.given]
  ends := by
    have some : bytes ≠ [] := holds.nonempty (bytes, false) (by simp)
    have long : 0 < bytes.length := List.length_pos_iff.mpr some
    have total := holds.length_given
    have before := holds.ends
    simp only [joined_append, joined_cons, joined_nil, List.append_nil, List.length_append] at total
    have ahead : s.taken.length < s.given.length + piece.length := by omega
    simp only [endsFrom_append, endsFrom, Bool.false_eq_true, if_false, List.append_nil] at before ⊢
    rw [taken_give, ← before]
    cases complete with
    | false => simp [give]
    | true =>
      simp only [give, if_true, List.filter_append, List.length_append]
      have past : s.taken.length < s.given.length + piece.length := ahead
      have length : s.given.length + piece.length
          = s.taken.length + (joined front).length + (bytes.length + piece.length) := by
        omega
      rw [← length]
      simp [past]
  nonempty := by
    have each := holds.nonempty
    rw [List.forall_mem_append] at each ⊢
    refine ⟨each.1, fun r last => ?_⟩
    rw [List.mem_singleton.mp last]
    exact List.append_ne_nil_of_left_ne_nil (each.2 (bytes, false) (List.mem_singleton_self _))
      piece
  whole := by
    have each := holds.whole
    rwa [List.dropLast_concat] at each ⊢
  start := by
    have before := holds.start
    have total := holds.length_given
    simp only [joined_append, joined_cons, joined_nil, List.append_nil, List.length_append] at total
    rw [openLength_concat] at before ⊢
    simp only [give, List.length_append, Bool.false_eq_true, if_false] at before ⊢
    cases complete with
    | false =>
      simp only [Bool.false_eq_true, if_false]
      omega
    | true =>
      simp only [if_true]
      omega
  mark := by
    simp only [give, List.length_append]
    exact Nat.le_trans holds.mark (Nat.le_add_right _ _)

/-- A read of the first message does not go past its end, and ends there if it takes the
rest of a message that is complete. -/
theorem take_ends {bytes : List α} {complete : Bool} {rest : List (List α × Bool)}
    (holds : Holds s ((bytes, complete) :: rest)) {n : Nat} (some : 0 < n)
    (fits : n ≤ bytes.length) :
    (∀ e ∈ s.ends, s.taken.length < e → s.taken.length + n ≤ e)
      ∧ (s.taken.length + n ∈ s.ends ↔ complete = true ∧ n = bytes.length) := by
  obtain ⟨-, others⟩ := List.forall_mem_cons.mp holds.nonempty
  have past : ∀ e ∈ endsFrom (s.taken.length + bytes.length) rest, s.taken.length + bytes.length
      < e :=
    fun e inside => lt_of_mem_endsFrom others inside
  constructor
  · intro e inside ahead
    rw [holds.mem_ends ahead] at inside
    cases complete with
    | false =>
      have beyond := past e inside
      omega
    | true =>
      rcases List.mem_cons.mp inside with rfl | later
      · omega
      · have beyond := past e later
        omega
  · rw [holds.mem_ends (by omega)]
    cases complete with
    | false =>
      refine ⟨fun inside => ?_, fun h => absurd h.1 Bool.false_ne_true⟩
      have beyond := past _ inside
      omega
    | true =>
      rw [endsFrom, if_pos rfl, List.mem_cons]
      constructor
      · rintro (here | later)
        · exact ⟨rfl, by omega⟩
        · have beyond := past _ later
          omega
      · rintro ⟨-, rfl⟩
        exact Or.inl rfl

/-- A read takes from the first message, which goes when nothing of it is left. -/
theorem take {bytes : List α} {complete : Bool} {rest : List (List α × Bool)}
    (holds : Holds s ((bytes, complete) :: rest)) {n : Nat} (fits : n ≤ bytes.length) :
    Holds (s.take (bytes.take n)) (if n = bytes.length then rest else (bytes.drop n, complete)
      :: rest) where
  given := by
    have before := holds.given
    rw [MessageStream.take, before, joined_cons, List.append_assoc, List.append_cancel_left_eq]
    split
    · next all => rw [all, List.take_length]
    · rw [joined_cons, ← List.append_assoc, List.take_append_drop]
  ends := by
    obtain ⟨-, others⟩ := List.forall_mem_cons.mp holds.nonempty
    have past : ∀ e ∈ endsFrom (s.taken.length + bytes.length) rest, s.taken.length + bytes.length
        < e :=
      fun e inside => lt_of_mem_endsFrom others inside
    have length : (s.taken ++ bytes.take n).length = s.taken.length + n := by
      rw [List.length_append, List.length_take, Nat.min_eq_left fits]
    have further : s.ends.filter (fun e => decide (s.taken.length + n < e))
        = (endsFrom s.taken.length ((bytes, complete) :: rest)).filter fun e =>
          decide (s.taken.length + n < e) := by
      rw [← holds.ends, List.filter_filter]
      refine List.filter_congr fun e _ => ?_
      rw [← Bool.decide_and, decide_eq_decide]
      omega
    have later : (endsFrom (s.taken.length + bytes.length) rest).filter (fun e =>
        decide (s.taken.length + n < e))
        = endsFrom (s.taken.length + bytes.length) rest :=
      List.filter_eq_self.mpr fun e inside =>
        decide_eq_true (by have beyond := past e inside; omega)
    simp only [MessageStream.take, length, further]
    split
    · next all =>
      subst all
      cases complete with
      | false => exact later
      | true =>
        rw [endsFrom, if_pos rfl, List.filter_cons_of_neg (by simp)]
        exact later
    · next short =>
      have left : s.taken.length + n + (bytes.drop n).length = s.taken.length + bytes.length := by
        rw [List.length_drop]
        omega
      simp only [endsFrom, left]
      cases complete with
      | false => exact later
      | true =>
        simp only [if_true]
        have beyond : s.taken.length + n < s.taken.length + bytes.length := by omega
        rw [List.filter_cons_of_pos (by exact decide_eq_true beyond), later]
  nonempty := by
    obtain ⟨some, others⟩ := List.forall_mem_cons.mp holds.nonempty
    split
    · exact others
    · next short =>
      refine List.forall_mem_cons.mpr ⟨fun none => short ?_, others⟩
      exact Nat.le_antisymm fits (List.drop_eq_nil_iff.mp none)
  whole := by
    have each := holds.whole
    split
    · cases rest with
      | nil => exact fun r inside => absurd inside List.not_mem_nil
      | cons r rest => exact (List.forall_mem_cons.mp each).2
    · cases rest with
      | nil => exact fun r inside => absurd inside List.not_mem_nil
      | cons r rest => exact List.forall_mem_cons.mpr (List.forall_mem_cons.mp each)
  start := by
    have before := holds.start
    have total := holds.length_given
    have length : (s.taken ++ bytes.take n).length = s.taken.length + n := by
      rw [List.length_append, List.length_take, Nat.min_eq_left fits]
    have long : 0 < bytes.length := List.length_pos_iff.mpr (holds.nonempty _ List.mem_cons_self)
    have least := openLength_le rest
    simp only [MessageStream.take, length]
    simp only [joined_cons, List.length_append] at total
    cases rest with
    | nil =>
      have alone : ∀ bytes' : List α, openLength [(bytes', complete)]
          = if complete then 0 else bytes'.length :=
        fun bytes' => openLength_concat [] bytes' complete
      rw [alone] at before
      simp only [joined_nil, List.length_nil, Nat.add_zero] at total
      split
      · cases complete <;> simp [openLength] at before ⊢ <;> omega
      · rw [alone, List.length_drop]
        cases complete <;> simp at before ⊢ <;> omega
    | cons r rest =>
      rw [openLength_cons (List.cons_ne_nil r rest)] at before
      split
      · omega
      · rw [openLength_cons (List.cons_ne_nil r rest)]
        omega
  mark := holds.mark

/-- What is abandoned is the rest of the message that is open. -/
theorem abandon_open {front : List (List α × Bool)} {bytes : List α}
    (holds : Holds s (front ++ [(bytes, false)])) :
    Holds s.abandon front ∧ s.abandon.given = s.taken ++ joined front := by
  have total := holds.length_given
  have before := holds.start
  have given : s.given = s.taken ++ joined front ++ bytes := by simp [holds.given]
  rw [openLength_concat] at before
  simp only [joined_append, joined_cons, joined_nil, List.append_nil, List.length_append,
    Bool.false_eq_true, if_false] at total before
  have kept : max s.start s.taken.length = (s.taken ++ joined front).length := by
    rw [List.length_append]
    omega
  have left : s.abandon.given = s.taken ++ joined front := by
    simp only [abandon, kept]
    rw [given, List.take_left]
  refine ⟨⟨left, ?_, ?_, ?_, ?_, ?_⟩, left⟩
  · have ends := holds.ends
    simp only [endsFrom_append, endsFrom, Bool.false_eq_true, if_false, List.append_nil] at ends
    exact ends
  · exact fun r inside => holds.nonempty r (List.mem_append_left _ inside)
  · have whole := holds.whole
    rw [List.dropLast_concat] at whole
    exact fun r inside => whole r (List.dropLast_subset _ inside)
  · have whole := holds.whole
    rw [List.dropLast_concat] at whole
    rw [openLength_of_whole whole, left]
    show max (s.given.take _).length s.taken.length = _
    rw [kept, given, List.take_left, List.length_append]
    omega
  · exact Nat.min_le_right _ _

/-- With every message whole there is nothing to abandon. -/
theorem abandon_whole (holds : Holds s rests) (whole : ∀ r ∈ rests, r.2 = true) :
    Holds s.abandon rests ∧ s.abandon.given = s.given := by
  have before := holds.start
  rw [openLength_of_whole whole, Nat.sub_zero] at before
  have left : s.abandon.given = s.given := by
    simp only [abandon, before]
    exact List.take_length
  refine ⟨⟨left.trans holds.given, holds.ends, holds.nonempty, holds.whole, ?_,
    Nat.min_le_right _ _⟩, left⟩
  rw [openLength_of_whole whole, left]
  show max (s.given.take _).length s.taken.length = _
  rw [before, List.take_length]
  have total := holds.length_given
  omega

theorem detach (holds : Holds s rests) : Holds s.detach rests :=
  ⟨holds.given, holds.ends, holds.nonempty, holds.whole, holds.start, Nat.le_refl _⟩

end Holds

end MessageStream
