import SctpStack.Works

/-!
# What waits to be read

The messages of an association in the receive queue are whole but for the last one, and
that one is unfinished only while its delivery is under way. What an association that
ended left there is not counted against the next one (`Work.inbox`).
-/

namespace SctpStack

/-! ## The receive queue -/

/-- The bytes of a message not read yet. -/
def ReceivedMessage.unread (m : ReceivedMessage) : Nat := m.bytes.length - m.offset

/-- Only the last message may be unfinished, and the bytes are counted right. -/
structure PendingMessages.Sane (p : PendingMessages) : Prop where
  whole : ∀ m ∈ p.messages.dropLast, m.complete = true
  within : ∀ m ∈ p.messages, m.offset ≤ m.bytes.length
  bytes : p.bytes = (p.messages.map ReceivedMessage.unread).sum
  detached : p.detached ≤ p.bytes

theorem PendingMessages.Sane.nil : PendingMessages.Sane ⟨[], 0, 0⟩ :=
  ⟨fun _ member => absurd member List.not_mem_nil, fun _ member => absurd member List.not_mem_nil,
    rfl, Nat.le_refl _⟩

/-- Every association with messages is ready to be read from, once. -/
structure ReceiveQueue.Sane (q : ReceiveQueue) : Prop where
  nonempty : ∀ k p, q.pending.get? k = some p → p.messages ≠ []
  entries : ∀ k p, q.pending.get? k = some p → p.Sane
  ready : ∀ k, k ∈ q.ready ↔ (q.pending.get? k).isSome = true
  once : q.ready.Nodup

/-- The messages that wait to be read. -/
def ReceiveQueue.waiting (q : ReceiveQueue) (key : AssociationKey) : List ReceivedMessage :=
  ((q.pending.get? key).getD ⟨[], 0, 0⟩).messages

/-- The last of these messages. -/
def unfinished (messages : List ReceivedMessage) : Bool :=
  messages.getLast?.any fun m => !m.complete

theorem unfinished_concat (front : List ReceivedMessage) (tail : ReceivedMessage) :
    unfinished (front ++ [tail]) = !tail.complete := by
  rw [unfinished, List.getLast?_concat]
  rfl

theorem appendPiece_concat (bytes : Bytes) (complete : Bool) (stream : StreamId)
    (front : List ReceivedMessage) (tail : ReceivedMessage) :
    appendPiece bytes complete stream (front ++ [tail])
      = if tail.complete then front ++ [tail] ++ [⟨bytes, 0, complete, stream⟩]
        else front ++ [{ tail with bytes := tail.bytes ++ bytes, complete := complete }] := by
  induction front with
  | nil => rfl
  | cons m front ih =>
    have step : appendPiece bytes complete stream (m :: (front ++ [tail]))
        = m :: appendPiece bytes complete stream (front ++ [tail]) := by
      cases front <;> rfl
    rw [List.cons_append, step, ih]
    split <;> rfl

/-- A piece goes to the end of the messages, which it finishes or leaves unfinished. -/
theorem unfinished_appendPiece (bytes : Bytes) (complete : Bool) (stream : StreamId)
    (messages : List ReceivedMessage) :
    unfinished (appendPiece bytes complete stream messages) = !complete := by
  rcases List.eq_nil_or_concat messages with rfl | ⟨front, tail, rfl⟩
  · rfl
  · rw [List.concat_eq_append, appendPiece_concat]
    split
    · exact unfinished_concat _ _
    · exact unfinished_concat _ _

theorem appendPiece_ne_nil (bytes : Bytes) (complete : Bool) (stream : StreamId)
    (messages : List ReceivedMessage) :
    appendPiece bytes complete stream messages ≠ [] := by
  rcases List.eq_nil_or_concat messages with rfl | ⟨front, tail, rfl⟩
  · exact List.cons_ne_nil _ _
  · rw [List.concat_eq_append, appendPiece_concat]
    split <;> simp

theorem PendingMessages.Sane.append {p : PendingMessages} (sane : p.Sane) (bytes : Bytes)
    (complete : Bool) (stream : StreamId) :
    PendingMessages.Sane { p with
      messages := appendPiece bytes complete stream p.messages, bytes :=
        p.bytes + bytes.length } := by
  obtain ⟨messages, count, detached⟩ := p
  obtain ⟨whole, within, counted, below⟩ := sane
  rcases List.eq_nil_or_concat messages with rfl | ⟨front, tail, rfl⟩
  · refine ⟨by simp [appendPiece], by simp [appendPiece], ?_,
      Nat.le_trans below (Nat.le_add_right _ _)⟩
    simp only [List.map_nil, List.sum_nil] at counted
    simp [appendPiece, ReceivedMessage.unread, counted]
  · simp only [List.concat_eq_append, List.dropLast_concat, List.map_append, List.sum_append,
      List.map_cons, List.map_nil, List.sum_cons, List.sum_nil] at whole within counted
    have last := within tail (List.mem_append_right _ List.mem_cons_self)
    refine ⟨?_, ?_, ?_, Nat.le_trans below (Nat.le_add_right _ _)⟩ <;>
      simp only [List.concat_eq_append, appendPiece_concat] <;> split
    · next done =>
      rw [List.dropLast_concat]
      intro m member
      rcases List.mem_append.mp member with early | late
      · exact whole m early
      · rw [List.mem_singleton.mp late]
        exact done
    · rw [List.dropLast_concat]
      exact whole
    · intro m member
      rcases List.mem_append.mp member with early | late
      · exact within m early
      · rw [List.mem_singleton.mp late]
        exact Nat.zero_le _
    · intro m member
      rcases List.mem_append.mp member with early | late
      · exact within m (List.mem_append_left _ early)
      · rw [List.mem_singleton.mp late, List.length_append]
        exact Nat.le_trans last (Nat.le_add_right _ _)
    · simp [counted, ReceivedMessage.unread]
      omega
    · simp [counted, ReceivedMessage.unread]
      omega

namespace ReceiveQueue

variable {q : ReceiveQueue} {key : AssociationKey}

theorem Sane.entry (sane : q.Sane) (key : AssociationKey) :
    ((q.pending.get? key).getD ⟨[], 0, 0⟩).Sane := by
  cases found : q.pending.get? key with
  | none => exact .nil
  | some p => exact sane.entries key p found

theorem Sane.ready_push (sane : q.Sane) (bytes : Bytes) (complete : Bool) (stream : StreamId) :
    (q.push key bytes complete stream).ready = if (q.pending.get? key).isSome then q.ready
      else q.ready ++ [key] := by
  unfold ReceiveQueue.push
  cases found : q.pending.get? key with
  | none => rfl
  | some p =>
    have some := sane.nonempty key p found
    simp only [Option.getD_some, List.isEmpty_iff, some, if_false, Option.isSome_some, if_true]

theorem Sane.push (sane : q.Sane) (bytes : Bytes) (complete : Bool) (stream : StreamId) :
    (q.push key bytes complete stream).Sane := by
  have found : ∀ k, (q.push key bytes complete stream).pending.get? k = if k = key then
      some { (q.pending.get? key).getD ⟨[], 0, 0⟩ with
        messages := appendPiece bytes complete stream (q.waiting key)
        bytes := ((q.pending.get? key).getD ⟨[], 0, 0⟩).bytes + bytes.length }
      else q.pending.get? k := fun k => KeyMap.get?_put _ _ _ _
  refine ⟨fun k p here => ?_, fun k p here => ?_, fun k => ?_, ?_⟩
  · rw [found] at here
    split at here
    · cases here
      exact appendPiece_ne_nil _ _ _ _
    · exact sane.nonempty k p here
  · rw [found] at here
    split at here
    · cases here
      exact (sane.entry key).append bytes complete stream
    · exact sane.entries k p here
  · rw [found, sane.ready_push]
    by_cases same : k = key
    · subst same
      have before := sane.ready k
      split
      · next there => simp [before, there]
      · simp
    · rw [if_neg same, ← sane.ready k]
      split
      · exact Iff.rfl
      · simp [same]
  · rw [sane.ready_push]
    split
    · exact sane.once
    · next absent =>
      refine List.nodup_append.mpr ⟨sane.once, List.nodup_singleton _, fun k member k' last same =>
        ?_⟩
      rw [same, List.mem_singleton.mp last, sane.ready] at member
      exact absent member

theorem waiting_push (q : ReceiveQueue) (key k : AssociationKey) (bytes : Bytes) (complete : Bool)
    (stream : StreamId) :
    (q.push key bytes complete stream).waiting k
      = if k = key then appendPiece bytes complete stream (q.waiting key) else q.waiting k := by
  rw [waiting, ReceiveQueue.push, KeyMap.get?_put]
  split <;> rfl

theorem bufferedBytes_push_other (q : ReceiveQueue) {key k : AssociationKey} (apart : k ≠ key)
    (bytes : Bytes) (complete : Bool) (stream : StreamId) :
    (q.push key bytes complete stream).bufferedBytes k = q.bufferedBytes k := by
  rw [bufferedBytes, ReceiveQueue.push, KeyMap.get?_put, if_neg apart]
  rfl

/-- Nothing is added to the queue. -/
structure Shrinks (q q' : ReceiveQueue) : Prop where
  sane : q'.Sane
  unfinished : ∀ k, unfinished (q'.waiting k) = true → unfinished (q.waiting k) = true

theorem Shrinks.refl (sane : q.Sane) : Shrinks q q := ⟨sane, fun _ => id⟩

/-- The entry of a key is replaced, or goes. -/
theorem Sane.replaced (sane : q.Sane) {order : List AssociationKey} {p : PendingMessages}
    (some : p.messages ≠ []) (is : p.Sane) (ready : ∀ k, k ∈ order ↔ k ∈ q.ready)
    (once : order.Nodup) (there : (q.pending.get? key).isSome = true) :
    Sane ⟨q.pending.put key p, order⟩ := by
  refine ⟨fun k p' found => ?_, fun k p' found => ?_, fun k => ?_, once⟩
  · rw [KeyMap.get?_put] at found
    split at found
    · cases found
      exact some
    · exact sane.nonempty k p' found
  · rw [KeyMap.get?_put] at found
    split at found
    · cases found
      exact is
    · exact sane.entries k p' found
  · rw [ready, sane.ready, KeyMap.get?_put]
    split
    · next same => simp [same, there]
    · exact Iff.rfl

theorem Sane.erased (sane : q.Sane) {order : List AssociationKey}
    (ready : ∀ k, k ∈ order ↔ k ∈ q.ready ∧ k ≠ key) (once : order.Nodup) :
    Sane ⟨q.pending.erase key, order⟩ := by
  refine ⟨fun k p found => ?_, fun k p found => ?_, fun k => ?_, once⟩
  · rw [KeyMap.get?_erase] at found
    split at found
    · cases found
    · exact sane.nonempty k p found
  · rw [KeyMap.get?_erase] at found
    split at found
    · cases found
    · exact sane.entries k p found
  · rw [ready, sane.ready, KeyMap.get?_erase]
    split
    · next same => simp [same]
    · next apart => simp [apart]

theorem waiting_of_get? {p : PendingMessages} (found : q.pending.get? key = some p) :
    q.waiting key = p.messages := by
  rw [waiting, found]
  rfl

/-- Only the entry of one key differs. -/
theorem Shrinks.of_entry {q' : ReceiveQueue} (key : AssociationKey) (sane : q'.Sane)
    (others : ∀ k, k ≠ key → q'.pending.get? k = q.pending.get? k)
    (here : ∀ p, q'.pending.get? key = some p → SctpStack.unfinished p.messages = true →
      SctpStack.unfinished (q.waiting key) = true) :
    Shrinks q q' := by
  refine ⟨sane, fun k is => ?_⟩
  by_cases same : k = key
  · subst same
    cases after : q'.pending.get? k with
    | none =>
      rw [waiting, after] at is
      cases is
    | some p =>
      rw [waiting_of_get? after] at is
      exact here p after is
  · rw [waiting, others k same] at is
    exact is

theorem Shrinks.erased (sane : q.Sane) {order : List AssociationKey}
    (ready : ∀ k, k ∈ order ↔ k ∈ q.ready ∧ k ≠ key) (once : order.Nodup) :
    Shrinks q ⟨q.pending.erase key, order⟩ := by
  refine .of_entry key (sane.erased ready once) (fun k apart => ?_) fun p here => ?_
  · exact (KeyMap.get?_erase _ _ _).trans (if_neg apart)
  · rw [KeyMap.get?_erase, if_pos rfl] at here
    cases here

theorem Shrinks.replaced (sane : q.Sane) {order : List AssociationKey} {p p' : PendingMessages}
    (found : q.pending.get? key = some p) (some : p'.messages ≠ []) (is : p'.Sane)
    (lasts : SctpStack.unfinished p'.messages = true → SctpStack.unfinished p.messages = true)
    (ready : ∀ k, k ∈ order ↔ k ∈ q.ready) (once : order.Nodup) :
    Shrinks q ⟨q.pending.put key p', order⟩ := by
  have there : (q.pending.get? key).isSome = true := by rw [found]; rfl
  refine .of_entry key (sane.replaced some is ready once there) (fun k apart => ?_)
    fun p'' here is => ?_
  · exact (KeyMap.get?_put _ _ _ _).trans (if_neg apart)
  · rw [KeyMap.get?_put, if_pos rfl] at here
    cases here
    rw [waiting_of_get? found]
    exact lasts is

theorem shrinks_detach (sane : q.Sane) (key : AssociationKey) : Shrinks q (q.detach key) := by
  cases found : q.pending.get? key with
  | none =>
    rw [detach, KeyMap.modify_of_none found]
    exact .refl sane
  | some p =>
    have entry := sane.entries key p found
    have after : ∀ k, (q.detach key).pending.get? k
        = if k = key then some { p with detached := p.bytes } else q.pending.get? k := by
      intro k
      rw [detach, KeyMap.get?_modify]
      split
      · rw [found]
        rfl
      · rfl
    refine .of_entry key ⟨fun k p' here => ?_, fun k p' here => ?_, fun k => ?_, sane.once⟩
      (fun k apart => ?_) fun p' here is => ?_
    · rw [after] at here
      split at here
      · cases here
        exact sane.nonempty key p found
      · exact sane.nonempty k p' here
    · rw [after] at here
      split at here
      · cases here
        exact ⟨entry.whole, entry.within, entry.bytes, Nat.le_refl _⟩
      · exact sane.entries k p' here
    · rw [after]
      refine (sane.ready k).trans ?_
      split
      · next same => simp [same, found]
      · exact Iff.rfl
    · rw [after, if_neg apart]
    · rw [after, if_pos rfl] at here
      cases here
      rw [waiting_of_get? found]
      exact is

theorem bufferedBytes_detach (q : ReceiveQueue) (key : AssociationKey) :
    (q.detach key).bufferedBytes key = 0 := by
  rw [bufferedBytes, detach, KeyMap.get?_modify, if_pos rfl]
  cases q.pending.get? key with
  | none => rfl
  | some p => exact Nat.sub_self _

theorem waiting_detach (q : ReceiveQueue) (key k : AssociationKey) :
    (q.detach key).waiting k = q.waiting k := by
  rw [waiting, waiting, detach, KeyMap.get?_modify]
  split
  · next same =>
    subst same
    cases q.pending.get? k <;> rfl
  · rfl

theorem get?_abandonOpen_other (q : ReceiveQueue) {key k : AssociationKey} (apart : k ≠ key) :
    (q.abandonOpen key).pending.get? k = q.pending.get? k := by
  unfold abandonOpen
  split
  · rfl
  · split
    · rfl
    · split
      · rfl
      · simp only
        split
        · rw [KeyMap.get?_erase, if_neg apart]
        · rw [KeyMap.get?_put, if_neg apart]

theorem mem_erase_ready {l : List AssociationKey} (once : l.Nodup) (key k : AssociationKey) :
    k ∈ l.erase key ↔ k ∈ l ∧ k ≠ key := by
  rw [once.mem_erase_iff, and_comm]

/-- The unfinished message at the end is dropped, and the others stay. -/
theorem Sane.abandonOpen (sane : q.Sane) (key : AssociationKey) :
    (q.abandonOpen key).Sane ∧ (q.abandonOpen key).waiting key
      = (q.waiting key).filter ReceivedMessage.complete := by
  unfold ReceiveQueue.abandonOpen
  cases found : q.pending.get? key with
  | none => exact ⟨sane, by rw [waiting, found]; rfl⟩
  | some p =>
    have entry := sane.entries key p found
    have there : (q.pending.get? key).isSome = true := by rw [found]; rfl
    rw [waiting_of_get? found]
    obtain ⟨messages, bytes, detached⟩ := p
    rcases List.eq_nil_or_concat messages with rfl | ⟨front, tail, rfl⟩
    · exact absurd rfl (sane.nonempty key _ found)
    · obtain ⟨whole, within, counted, below⟩ := entry
      simp only [List.concat_eq_append, List.dropLast_concat, List.getLast?_concat, List.map_append,
        List.sum_append, List.map_cons, List.map_nil, List.sum_cons, List.sum_nil, Nat.add_zero]
          at whole within counted ⊢
      have kept : front.filter ReceivedMessage.complete = front := List.filter_eq_self.mpr whole
      split
      · next done =>
        refine ⟨sane, ?_⟩
        rw [waiting_of_get? found, List.filter_append, kept]
        simp [done]
      · next lasts =>
        have dropped : (front ++ [tail]).filter ReceivedMessage.complete = front := by
          rw [List.filter_append, kept]
          simp [lasts]
        rw [dropped]
        have count : bytes - (tail.bytes.length - tail.offset)
            = (front.map ReceivedMessage.unread).sum := by
          rw [counted, ReceivedMessage.unread]
          exact Nat.add_sub_cancel _ _
        split
        · next none =>
          rw [List.isEmpty_iff] at none
          refine ⟨sane.erased (fun k => ?_) (sane.once.erase key), ?_⟩
          · exact mem_erase_ready sane.once key k
          · rw [waiting, KeyMap.get?_erase, if_pos rfl, none]
            rfl
        · next some =>
          rw [List.isEmpty_iff] at some
          refine ⟨sane.replaced some ⟨?_, ?_, count, Nat.min_le_right _ _⟩ (fun k => Iff.rfl)
            sane.once there, ?_⟩
          · exact fun m member => whole m (List.dropLast_subset _ member)
          · exact fun m member => within m (List.mem_append_left _ member)
          · rw [waiting, KeyMap.get?_put, if_pos rfl]
            rfl

theorem unfinished_filter (messages : List ReceivedMessage) :
    SctpStack.unfinished (messages.filter ReceivedMessage.complete) = false := by
  rw [SctpStack.unfinished]
  cases last : (messages.filter ReceivedMessage.complete).getLast? with
  | none => rfl
  | some m =>
    have member := List.mem_of_getLast? last
    simp [(List.mem_filter.mp member).2]

/-- Without an unfinished message, every message is whole. -/
theorem Sane.filter_complete (sane : q.Sane)
    (finished : SctpStack.unfinished (q.waiting key) = false) :
    (q.waiting key).filter ReceivedMessage.complete = q.waiting key := by
  have entry := sane.entry key
  rw [List.filter_eq_self]
  unfold waiting at finished ⊢
  generalize (q.pending.get? key).getD ⟨[], 0, 0⟩ = p at entry finished
  obtain ⟨messages, bytes, detached⟩ := p
  rcases List.eq_nil_or_concat messages with rfl | ⟨front, tail, rfl⟩
  · exact fun m member => absurd member List.not_mem_nil
  · have whole := entry.whole
    simp only [List.concat_eq_append, List.dropLast_concat] at whole finished ⊢
    rw [unfinished_concat, Bool.not_eq_false'] at finished
    intro m member
    rcases List.mem_append.mp member with early | late
    · exact whole m early
    · rw [List.mem_singleton.mp late]
      exact finished

/-- What a read leaves of the messages of an association. -/
theorem readLocked_cases {p : PendingMessages} {capacity : Nat} {read : Read} {q' : ReceiveQueue}
    (sane : p.Sane) (reads : q.readLocked key p capacity = some (read, q')) :
    q' = { q with pending := q.pending.erase key }
      ∨ ∃ p', p'.messages ≠ [] ∧ p'.Sane
      ∧ (SctpStack.unfinished p'.messages = true → SctpStack.unfinished p.messages = true)
        ∧ q' = { q with pending := q.pending.put key p' } := by
  obtain ⟨messages, bytes, detached⟩ := p
  cases messages with
  | nil => cases reads
  | cons front rest =>
    obtain ⟨whole, within, counted, below⟩ := sane
    obtain ⟨front_within, rest_within⟩ := List.forall_mem_cons.mp within
    simp only [readLocked, Option.some.injEq, Prod.mk.injEq] at reads
    obtain ⟨-, rfl⟩ := reads
    generalize count : min capacity (front.bytes.length - front.offset) = n
    have few : n ≤ front.unread := by
      rw [← count]
      exact Nat.min_le_right _ _
    have last : ∀ m : ReceivedMessage, rest ≠ [] → SctpStack.unfinished (m :: rest)
        = SctpStack.unfinished rest := by
      intro m some
      obtain ⟨r, rest', rfl⟩ := List.exists_cons_of_ne_nil some
      rfl
    rw [List.map_cons, List.sum_cons] at counted
    by_cases done : front.offset + n = front.bytes.length
    · simp only [if_pos done]
      cases rest with
      | nil => exact Or.inl rfl
      | cons r rest =>
        refine Or.inr ⟨_, List.cons_ne_nil r rest, ⟨?_, rest_within, ?_, ?_⟩, fun is => ?_, rfl⟩
        · exact fun m member => whole m (List.mem_cons_of_mem _ member)
        · have all : n = front.unread := by
            rw [ReceivedMessage.unread]
            omega
          simp only at counted ⊢
          omega
        · simp only at below ⊢
          omega
        · rw [last front (List.cons_ne_nil _ _)]
          exact is
    · simp only [if_neg done]
      refine Or.inr ⟨_, List.cons_ne_nil _ rest, ⟨?_, ?_, ?_, ?_⟩, fun is => ?_, rfl⟩
      · cases rest with
        | nil => exact fun m member => absurd member List.not_mem_nil
        | cons r rest =>
          obtain ⟨first, others⟩ := List.forall_mem_cons.mp whole
          exact List.forall_mem_cons.mpr ⟨first, others⟩
      · refine List.forall_mem_cons.mpr ⟨?_, rest_within⟩
        simp only [ReceivedMessage.unread] at few ⊢
        omega
      · simp only [List.map_cons, List.sum_cons, ReceivedMessage.unread] at few counted ⊢
        omega
      · simp only at below ⊢
        omega
      · cases rest with
        | nil => exact is
        | cons r rest =>
          rw [last front (List.cons_ne_nil _ _)]
          exact is

theorem shrinks_readAny (sane : q.Sane) (capacity : Nat) : Shrinks q (q.readAny capacity).2 := by
  unfold readAny
  cases order : q.ready with
  | nil => exact .refl sane
  | cons key ready =>
    simp only
    have once := sane.once
    rw [order] at once
    obtain ⟨fresh, once⟩ := List.nodup_cons.mp once
    have there : (q.pending.get? key).isSome = true :=
      (sane.ready key).mp (by rw [order]; exact List.mem_cons_self)
    obtain ⟨p, found⟩ := Option.isSome_iff_exists.mp there
    rw [found, Option.bind_some]
    cases reads : readLocked { q with ready := ready } key p capacity with
    | none => exact .refl sane
    | some pair =>
      obtain ⟨read, q'⟩ := pair
      simp only
      rcases readLocked_cases (sane.entries key p found) reads with rfl | ⟨p', some, sane', lasts,
        rfl⟩
      · have gone : (q.pending.erase key).contains key = false := by
          rw [KeyMap.contains_eq_false, KeyMap.get?_erase, if_pos rfl]
        simp only [gone, Bool.false_eq_true, if_false]
        refine .erased sane (fun k => ?_) once
        rw [order, List.mem_cons]
        refine ⟨fun member => ⟨Or.inr member, fun same => fresh (same ▸ member)⟩, fun both => ?_⟩
        exact both.1.resolve_left both.2
      · have stays : (q.pending.put key p').contains key = true := by
          rw [KeyMap.contains_put, decide_eq_true rfl, Bool.true_or]
        simp only [stays, if_true]
        refine .replaced sane found some sane' lasts (fun k => ?_) ?_
        · rw [order]
          split
          · exact Iff.rfl
          · rw [List.mem_append, List.mem_singleton, List.mem_cons, or_comm]
        · split
          · exact List.nodup_cons.mpr ⟨fresh, once⟩
          · refine List.nodup_append.mpr ⟨once, List.nodup_singleton _, fun k member k' last same =>
              fresh ?_⟩
            rw [← List.mem_singleton.mp last, ← same]
            exact member

theorem shrinks_readFrom (sane : q.Sane) (key : AssociationKey) (capacity : Nat) :
    Shrinks q (q.readFrom key capacity).2 := by
  unfold readFrom
  cases found : q.pending.get? key with
  | none => exact .refl sane
  | some p =>
    rw [Option.bind_some]
    cases reads : readLocked q key p capacity with
    | none => exact .refl sane
    | some pair =>
      obtain ⟨read, q'⟩ := pair
      simp only
      rcases readLocked_cases (sane.entries key p found) reads with rfl | ⟨p', some, sane', lasts,
        rfl⟩
      · have gone : (q.pending.erase key).contains key = false := by
          rw [KeyMap.contains_eq_false, KeyMap.get?_erase, if_pos rfl]
        simp only [gone, Bool.false_eq_true, if_false]
        exact .erased sane (mem_erase_ready sane.once key) (sane.once.erase key)
      · have stays : (q.pending.put key p').contains key = true := by
          rw [KeyMap.contains_put, decide_eq_true rfl, Bool.true_or]
        simp only [stays, if_true]
        exact .replaced sane found some sane' lasts (fun k => Iff.rfl) sane.once

end ReceiveQueue

/-! ## The inbox of a socket -/

/-- A message is unfinished only while it is handed up, nothing counts as received before
an association is up, and what associations hold is tidy. -/
structure Inbox (s : Socket) : Prop where
  queue : s.receives.Sane
  opened : ∀ k, unfinished (s.receives.waiting k) = true → ∃ a, s.find? k = some a
    ∧ partialDeliveryOpen a = true
  counted : ∀ k, (∀ a, s.find? k = some a → forming a.state = true) → s.receives.bufferedBytes k = 0
  tidy : ∀ k a, s.find? k = some a → Tidy a

theorem inbox_fresh (address : SockAddr) : Inbox (.fresh address) where
  queue := ⟨by simp [Socket.fresh, ReceiveQueue.fresh], by simp [Socket.fresh, ReceiveQueue.fresh],
    by simp [Socket.fresh, ReceiveQueue.fresh], List.nodup_nil⟩
  opened _ is := by cases is
  counted _ _ := rfl
  tidy := by simp [Socket.fresh, Socket.find?]

namespace Inbox

variable {s s' : Socket} {key : AssociationKey}

/-- Nothing waits unfinished for an association that is not being handed up a message. -/
theorem finished (inbox : Inbox s) (closed : ∀ a, s.find? key = some a → partialDeliveryOpen a
    = false) :
    unfinished (s.receives.waiting key) = false := by
  cases is : unfinished (s.receives.waiting key) with
  | false => rfl
  | true =>
    obtain ⟨a, found, opened⟩ := inbox.opened key is
    rw [closed a found] at opened
    cases opened

/-- The association under a key changes, and the queue shrinks. -/
theorem shrunk (inbox : Inbox s) (key : AssociationKey)
    (shrinks : ReceiveQueue.Shrinks s.receives s'.receives)
    (fewer : ∀ k, s'.receives.bufferedBytes k ≤ s.receives.bufferedBytes k)
    (others : ∀ k, k ≠ key → s'.find? k = s.find? k) (tidy : ∀ a, s'.find? key = some a → Tidy a)
    (opened : unfinished (s'.receives.waiting key) = true → ∃ a, s'.find? key = some a
      ∧ partialDeliveryOpen a = true)
        (counted : (∀ a, s'.find? key = some a → forming a.state = true) →
          s'.receives.bufferedBytes key = 0) : Inbox s' where
  queue := shrinks.sane
  opened k is := by
    by_cases same : k = key
    · subst same
      exact opened is
    · obtain ⟨a, found, partly⟩ := inbox.opened k (shrinks.unfinished k is)
      exact ⟨a, (others k same).trans found, partly⟩
  counted k unborn := by
    by_cases same : k = key
    · subst same
      exact counted unborn
    · refine Nat.le_zero.mp (Nat.le_trans (fewer k)
        (Nat.le_of_eq (inbox.counted k fun a found => unborn a ?_)))
      rw [others k same]
      exact found
  tidy k a found := by
    by_cases same : k = key
    · subst same
      exact tidy a found
    · rw [others k same] at found
      exact inbox.tidy k a found

/-- A TCB changes, and what it holds part way through stays that way. -/
theorem kept {a b : Association} (inbox : Inbox s) (receives : s'.receives = s.receives)
    (others : ∀ k, k ≠ key → s'.find? k = s.find? k) (tidy : ∀ a, s'.find? key = some a → Tidy a)
    (before : s.find? key = some a) (after : s'.find? key = some b)
    (partially : partialDeliveryOpen b = partialDeliveryOpen a)
    (forms : forming b.state = true → forming a.state = true) : Inbox s' := by
  refine inbox.shrunk key (by rw [receives]; exact .refl inbox.queue) (fun k => by rw [receives])
    others tidy (fun is => ?_)
    fun unborn => ?_
  · rw [receives] at is
    obtain ⟨a', found, opened⟩ := inbox.opened key is
    rw [before] at found
    cases found
    exact ⟨b, after, partially.trans opened⟩
  · rw [receives]
    refine inbox.counted key fun a' found => ?_
    rw [before] at found
    cases found
    exact forms (unborn b after)

theorem of_same (inbox : Inbox s) (receives : s'.receives = s.receives)
    (same : ∀ k, s'.find? k = s.find? k) : Inbox s' where
  queue := by
    rw [receives]
    exact inbox.queue
  opened k is := by
    rw [same]
    rw [receives] at is
    exact inbox.opened k is
  counted k unborn := by
    rw [receives]
    refine inbox.counted k fun a found => unborn a ?_
    rw [same]
    exact found
  tidy k a found := by
    rw [same] at found
    exact inbox.tidy k a found

end Inbox

end SctpStack
