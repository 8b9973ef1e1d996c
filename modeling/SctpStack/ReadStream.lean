import SctpStack.Inbox
import SctpStack.Lib.MessageStream

/-!
# The streams an application reads

The receive queue refines one message stream for each association: whatever is pushed,
read, abandoned and detached, and in whatever order, what has been read and what is
still queued are what was pushed (`refines_message_streams`).
-/

namespace SctpStack

/-- What is left to read of a message, and whether its end has come. -/
def ReceivedMessage.rest (m : ReceivedMessage) : Bytes × Bool := (m.bytes.drop m.offset, m.complete)

theorem ReceivedMessage.length_rest (m : ReceivedMessage) : m.rest.1.length = m.unread :=
  List.length_drop

/-! ## The entry of an association -/

/-- The entry holds what its stream has been given and not taken, only its first message
is partly read, and what was left when the stream was detached is told apart. -/
structure PendingMessages.Follows (p : PendingMessages) (stream : MessageStream Byte) : Prop where
  holds : stream.Holds (p.messages.map ReceivedMessage.rest)
  fronts : ∀ m ∈ p.messages.tail, m.offset = 0
  detached : p.detached = stream.mark - stream.taken.length

/-- An entry without messages is as good as none. -/
theorem PendingMessages.Follows.none {p : PendingMessages} {stream : MessageStream Byte}
    (follows : p.Follows stream) (empty : p.messages = []) :
    PendingMessages.Follows ⟨[], 0, 0⟩ stream := by
  have holds := follows.holds
  rw [empty] at holds
  refine ⟨holds, fun m inside => absurd inside List.not_mem_nil, ?_⟩
  have total := holds.length_given
  have mark := holds.mark
  simp only [List.map_nil, MessageStream.joined_nil, List.length_nil] at total
  show 0 = _
  omega

/-- `n` bytes of the first message read. -/
def PendingMessages.readFront (p : PendingMessages) (front : ReceivedMessage)
    (rest : List ReceivedMessage) (n : Nat) :
    PendingMessages where
  messages := if front.offset + n = front.bytes.length then rest
    else { front with offset := front.offset + n } :: rest
  bytes := p.bytes - n
  detached := p.detached - min p.detached n

namespace PendingMessages.Follows

variable {p : PendingMessages} {stream : MessageStream Byte}

theorem append (follows : p.Follows stream) {bytes : Bytes} (some : bytes ≠ []) (complete : Bool)
    (id : StreamId) :
    PendingMessages.Follows { p with
      messages := appendPiece bytes complete id p.messages, bytes := p.bytes + bytes.length }
        (stream.give bytes complete) := by
  obtain ⟨messages, count, detached⟩ := p
  obtain ⟨holds, fronts, counted⟩ := follows
  rcases List.eq_nil_or_concat messages with rfl | ⟨front, tail, rfl⟩
  · exact ⟨holds.give_new (fun r inside => absurd inside List.not_mem_nil) some complete,
      fun m inside => absurd inside List.not_mem_nil, counted⟩
  · simp only [List.concat_eq_append, List.map_append, List.map_cons, List.map_nil]
      at holds fronts ⊢
    have whole := holds.whole
    rw [List.dropLast_concat] at whole
    rw [appendPiece_concat]
    split
    · next done =>
      -- a message of its own
      refine ⟨?_, fun m inside => ?_, counted⟩
      · have each : ∀ r ∈ front.map ReceivedMessage.rest ++ [tail.rest], r.2 = true := by
          refine List.forall_mem_append.mpr ⟨whole, fun r last => ?_⟩
          rw [List.mem_singleton.mp last]
          exact done
        have given := holds.give_new each some complete
        simpa [ReceivedMessage.rest] using given
      · rw [List.tail_append_of_ne_nil (by simp)] at inside
        rcases List.mem_append.mp inside with before | new
        · exact fronts m before
        · rw [List.mem_singleton.mp new]
    · next lasts =>
      -- more of the message at the back
      have unfinished : tail.complete = false := Bool.eq_false_iff.mpr lasts
      have is : tail.rest = (tail.bytes.drop tail.offset, false) := by
        rw [ReceivedMessage.rest, unfinished]
      rw [is] at holds
      have within : tail.offset < tail.bytes.length := by
        have some := holds.nonempty (tail.bytes.drop tail.offset, false) (by simp)
        exact Nat.lt_of_not_le fun beyond => some (List.drop_eq_nil_of_le beyond)
      have given := holds.give_more bytes complete
      refine ⟨?_, fun m inside => ?_, counted⟩
      · simpa [ReceivedMessage.rest, List.drop_append_of_le_length (Nat.le_of_lt within)]
          using given
      · cases front with
        | nil => exact absurd inside List.not_mem_nil
        | cons m' front =>
          simp only [List.cons_append, List.tail_cons] at inside fronts
          rcases List.mem_append.mp inside with before | new
          · exact fronts m (List.mem_append_left _ before)
          · rw [List.mem_singleton.mp new]
            exact fronts tail (List.mem_append_right _ (List.mem_singleton_self _))

theorem readFront {front : ReceivedMessage} {rest : List ReceivedMessage}
    (follows : p.Follows stream) (messages : p.messages = front :: rest) {n : Nat}
    (few : n ≤ front.unread) :
    (p.readFront front rest n).Follows (stream.take (front.rest.1.take n)) := by
  obtain ⟨holds, fronts, counted⟩ := follows
  rw [messages] at holds fronts
  have within : front.offset < front.bytes.length := by
    have some := holds.nonempty front.rest List.mem_cons_self
    exact Nat.lt_of_not_le fun beyond => some (List.drop_eq_nil_of_le beyond)
  have fits : n ≤ front.rest.1.length := by rwa [ReceivedMessage.length_rest]
  have taken := MessageStream.Holds.take holds fits
  refine ⟨?_, ?_, ?_⟩
  · rw [List.length_drop] at taken
    unfold PendingMessages.readFront
    simp only
    by_cases all : front.offset + n = front.bytes.length
    · rw [if_pos (by omega)] at taken
      rwa [if_pos all]
    · rw [if_neg (by omega)] at taken
      rw [if_neg all]
      simpa [ReceivedMessage.rest, List.drop_drop] using taken
  · intro m inside
    unfold PendingMessages.readFront at inside
    simp only at inside
    split at inside
    · exact fronts m (List.mem_of_mem_tail inside)
    · exact fronts m inside
  · simp only [PendingMessages.readFront, MessageStream.take, List.length_append, List.length_take,
      counted]
    omega

theorem length_joined (messages : List ReceivedMessage) :
    (MessageStream.joined (messages.map ReceivedMessage.rest)).length
      = (messages.map ReceivedMessage.unread).sum := by
  induction messages with
  | nil => rfl
  | cons m messages ih =>
    rw [List.map_cons, MessageStream.joined_cons, List.length_append, ih,
      ReceivedMessage.length_rest]
    rfl

/-- The bytes counter is what waits in the stream. -/
theorem bytes_eq (follows : p.Follows stream) (sane : p.Sane) : p.bytes = stream.waiting := by
  rw [follows.holds.waiting, length_joined, sane.bytes]

theorem abandon {front : List ReceivedMessage} {tail : ReceivedMessage} (follows : p.Follows stream)
    (sane : p.Sane) (messages : p.messages = front ++ [tail]) (lasts : tail.complete = false)
    {bytes : Nat} (left : bytes = p.bytes - (tail.bytes.length - tail.offset)) :
    PendingMessages.Follows ⟨front, bytes, min p.detached bytes⟩ stream.abandon := by
  have counted := follows.bytes_eq sane
  obtain ⟨holds, fronts, detached⟩ := follows
  rw [messages] at holds fronts
  have is : tail.rest = (tail.bytes.drop tail.offset, false) := by rw [ReceivedMessage.rest, lasts]
  simp only [List.map_append, List.map_cons, List.map_nil, is] at holds
  obtain ⟨kept, given⟩ := holds.abandon_open
  refine ⟨kept, fun m inside => ?_, ?_⟩
  · cases front with
    | nil => exact absurd inside List.not_mem_nil
    | cons m' front => exact fronts m (List.mem_append_left _ inside)
  · have before := holds.length_given
    have after := congrArg List.length given
    have mark := holds.mark
    have same : stream.abandon.mark = min stream.mark stream.abandon.given.length := rfl
    have taken : stream.abandon.taken = stream.taken := rfl
    simp only [MessageStream.joined_append, MessageStream.joined_cons, MessageStream.joined_nil,
      List.append_nil, List.length_append, List.length_drop] at before after
    rw [MessageStream.waiting] at counted
    show min p.detached bytes = _
    rw [same, taken]
    omega

/-- There is nothing to abandon when every message is whole. -/
theorem abandon_whole (follows : p.Follows stream) (whole : ∀ m ∈ p.messages, m.complete = true) :
    p.Follows stream.abandon := by
  obtain ⟨holds, fronts, detached⟩ := follows
  have each : ∀ r ∈ p.messages.map ReceivedMessage.rest, r.2 = true := by
    intro r inside
    obtain ⟨m, member, rfl⟩ := List.mem_map.mp inside
    exact whole m member
  obtain ⟨kept, given⟩ := holds.abandon_whole each
  have mark := holds.mark
  refine ⟨kept, fronts, ?_⟩
  show _ = min stream.mark stream.abandon.given.length - stream.taken.length
  rw [given, Nat.min_eq_left mark, detached]

theorem detach (follows : p.Follows stream) (sane : p.Sane) :
    PendingMessages.Follows { p with detached := p.bytes } stream.detach :=
  ⟨follows.holds.detach, follows.fronts, follows.bytes_eq sane⟩

end PendingMessages.Follows

namespace ReceiveQueue

/-- What is queued for an association, or an entry without messages. -/
def entry (q : ReceiveQueue) (key : AssociationKey) : PendingMessages :=
  (q.pending.get? key).getD ⟨[], 0, 0⟩

/-- The bytes that wait to be read. -/
def unread (q : ReceiveQueue) (key : AssociationKey) : Bytes :=
  MessageStream.joined ((q.waiting key).map ReceivedMessage.rest)

/-- Each association's entry follows its stream. -/
structure Follows (q : ReceiveQueue) (streams : AssociationKey → MessageStream Byte) : Prop where
  sane : q.Sane
  entries : ∀ key, (q.entry key).Follows (streams key)

variable {q : ReceiveQueue} {streams : AssociationKey → MessageStream Byte} {key : AssociationKey}

theorem entry_of_get? {p : PendingMessages} (found : q.pending.get? key = some p) :
    q.entry key = p := by
  rw [entry, found]
  rfl

/-- An entry put in its place, or erased when it has no messages. -/
def store (pending : KeyMap AssociationKey PendingMessages) (key : AssociationKey)
    (p : PendingMessages) :
    KeyMap AssociationKey PendingMessages := if p.messages.isEmpty then pending.erase key
      else pending.put key p

theorem waiting_of_stored {q' : ReceiveQueue} {p : PendingMessages}
    (stored : q'.pending = ReceiveQueue.store q.pending key p) :
    q'.waiting key = p.messages := by
  rw [waiting, stored, ReceiveQueue.store]
  split
  · next empty =>
    rw [KeyMap.get?_erase, if_pos rfl, List.isEmpty_iff.mp empty]
    rfl
  · rw [KeyMap.get?_put, if_pos rfl]
    rfl

theorem Follows.store {q' : ReceiveQueue} {p : PendingMessages} {stream : MessageStream Byte}
    (follows : q.Follows streams) (sane : q'.Sane)
    (stored : q'.pending = ReceiveQueue.store q.pending key p) (new : p.Follows stream) :
    q'.Follows (Function.update streams key stream) := by
  refine ⟨sane, fun k => ?_⟩
  have before := follows.entries k
  rw [entry, stored, ReceiveQueue.store]
  split
  · next empty =>
    rw [KeyMap.get?_erase]
    by_cases same : k = key
    · subst same
      rw [if_pos rfl, Function.update_self]
      exact new.none (List.isEmpty_iff.mp empty)
    · rwa [if_neg same, Function.update_of_ne same]
  · rw [KeyMap.get?_put]
    by_cases same : k = key
    · subst same
      rw [if_pos rfl, Function.update_self]
      exact new
    · rwa [if_neg same, Function.update_of_ne same]

/-! ## One operation -/

theorem Follows.push (follows : q.Follows streams) {bytes : Bytes} (some : bytes ≠ [])
    (complete : Bool) (id : StreamId) :
    (q.push key bytes complete id).Follows
      (Function.update streams key ((streams key).give bytes complete)) := by
  refine follows.store (follows.sane.push bytes complete id)
    ?_ ((follows.entries key).append some complete id)
  rw [ReceiveQueue.store, if_neg]
  · rfl
  · rw [List.isEmpty_iff]
    exact appendPiece_ne_nil _ _ _ _

theorem Follows.unchanged (follows : q.Follows streams) {stream : MessageStream Byte}
    (same : (q.entry key).Follows stream) :
    q.Follows (Function.update streams key stream) := by
  refine ⟨follows.sane, fun k => ?_⟩
  by_cases here : k = key
  · subst here
    rwa [Function.update_self]
  · rw [Function.update_of_ne here]
    exact follows.entries k

theorem Follows.detach (follows : q.Follows streams) (key : AssociationKey) :
    (q.detach key).Follows (Function.update streams key (streams key).detach) := by
  have sane := (shrinks_detach follows.sane key).sane
  have before := (follows.entries key).detach (follows.sane.entry key)
  cases found : q.pending.get? key with
  | none =>
    have unchanged : q.detach key = q := by rw [ReceiveQueue.detach, KeyMap.modify_of_none found]
    rw [unchanged]
    refine follows.unchanged ?_
    rw [entry, found] at before ⊢
    exact before
  | some p =>
    rw [entry, found, Option.getD_some] at before
    refine follows.store sane ?_ before
    rw [ReceiveQueue.store, if_neg]
    · exact (KeyMap.put_of_some found fun p => { p with detached := p.bytes }).symm
    · rw [List.isEmpty_iff]
      exact follows.sane.nonempty key p found

theorem Follows.abandonOpen (follows : q.Follows streams) (key : AssociationKey) :
    (q.abandonOpen key).Follows (Function.update streams key (streams key).abandon) := by
  have sane := (follows.sane.abandonOpen key).1
  have here := follows.entries key
  have is := follows.sane.entry key
  cases found : q.pending.get? key with
  | none =>
    have unchanged : q.abandonOpen key = q := by rw [ReceiveQueue.abandonOpen, found]
    rw [unchanged]
    refine follows.unchanged (here.abandon_whole fun m inside => ?_)
    rw [entry, found] at inside
    exact absurd inside List.not_mem_nil
  | some p =>
    rw [entry_of_get? found] at here
    rw [found, Option.getD_some] at is
    obtain ⟨front, tail, messages⟩ :=
      (List.eq_nil_or_concat p.messages).resolve_left (follows.sane.nonempty key p found)
    rw [List.concat_eq_append] at messages
    have whole := is.whole
    rw [messages, List.dropLast_concat] at whole
    have opens : q.abandonOpen key = if tail.complete then q else
        { pending := ReceiveQueue.store q.pending key ⟨front,
        p.bytes - (tail.bytes.length - tail.offset),
            min p.detached (p.bytes - (tail.bytes.length - tail.offset))⟩
          ready := if front.isEmpty then q.ready.erase key else q.ready } := by
      rw [ReceiveQueue.abandonOpen, found]
      simp only [messages, List.getLast?_concat, List.dropLast_concat, ReceiveQueue.store]
      split
      · rfl
      · split <;> rfl
    cases done : tail.complete with
    | true =>
      rw [opens, done, if_pos rfl]
      refine follows.unchanged ?_
      rw [entry_of_get? found]
      refine here.abandon_whole ?_
      rw [messages]
      refine List.forall_mem_append.mpr ⟨whole, fun m last => ?_⟩
      rw [List.mem_singleton.mp last]
      exact done
    | false =>
      rw [opens, done, if_neg Bool.false_ne_true] at sane ⊢
      exact follows.store sane rfl (here.abandon is messages done rfl)

/-! ## Reads -/

/-- How much of the first message a read takes. -/
def readCount (front : ReceivedMessage) (capacity : Nat) : Nat :=
  min capacity (front.bytes.length - front.offset)

theorem readLocked_eq {p : PendingMessages} {front : ReceivedMessage} {rest : List ReceivedMessage}
    (messages : p.messages = front :: rest) (capacity : Nat) : q.readLocked key p capacity
      = some (⟨key, front.rest.1.take (readCount front capacity),
          decide (front.offset + readCount front capacity < front.bytes.length) || !front.complete,
            front.stream⟩,
        { q with pending := store q.pending key (p.readFront front rest
          (readCount front capacity)) }) := by
  rw [readLocked, messages]
  rfl

/-- What a read does: it takes from the first message of its association. -/
structure Takes (q : ReceiveQueue) (capacity : Nat) (read : Read) (q' : ReceiveQueue)
    (front : ReceivedMessage) (rest : List ReceivedMessage) : Prop where
  messages : q.waiting read.key = front :: rest
  out : read.out = front.rest.1.take (readCount front capacity)
  more : read.more = (decide (front.offset + readCount front capacity < front.bytes.length)
    || !front.complete)
  stored : q'.pending = store q.pending read.key
    ((q.entry read.key).readFront front rest (readCount front capacity))

variable {capacity : Nat} {read : Read} {q' : ReceiveQueue} {front : ReceivedMessage}
    {rest : List ReceivedMessage}

/-- The first message of an association in the queue. -/
theorem Follows.first (follows : q.Follows streams) {p : PendingMessages}
    (found : q.pending.get? key = some p) :
    ∃ front rest, p.messages = front :: rest ∧ front.offset < front.bytes.length := by
  have here := (follows.entries key).holds.nonempty
  rw [entry_of_get? found] at here
  cases messages : p.messages with
  | nil => exact absurd messages (follows.sane.nonempty key p found)
  | cons front rest =>
    refine ⟨front, rest, rfl, Nat.lt_of_not_le fun beyond => ?_⟩
    rw [messages] at here
    exact here front.rest List.mem_cons_self (List.drop_eq_nil_of_le beyond)

/-- Some of the message is read, if there is room for it. -/
theorem readCount_pos (within : front.offset < front.bytes.length) (room : 0 < capacity) :
    0 < readCount front capacity := by
  unfold readCount
  omega

theorem Takes.follows (takes : Takes q capacity read q' front rest) (follows : q.Follows streams)
    (sane : q'.Sane) :
    q'.Follows (Function.update streams read.key ((streams read.key).take read.out)) := by
  refine follows.store sane takes.stored ?_
  rw [takes.out]
  exact (follows.entries read.key).readFront takes.messages (Nat.min_le_right _ _)

theorem Takes.begun (takes : Takes q capacity read q' front rest) (follows : q.Follows streams) :
    front.offset < front.bytes.length := by
  have nonempty := (follows.entries read.key).holds.nonempty
  rw [show (q.entry read.key).messages = front :: rest from takes.messages] at nonempty
  exact Nat.lt_of_not_le fun beyond =>
    nonempty front.rest List.mem_cons_self (List.drop_eq_nil_of_le beyond)

/-- A read stays within a message, and is the last of it when the message is complete
and none of it is left. -/
theorem Takes.within (takes : Takes q capacity read q' front rest) (follows : q.Follows streams)
    (room : 0 < capacity) :
    read.out ≠ []
      ∧ (∀ e ∈ (streams read.key).ends, (streams read.key).taken.length < e →
          (streams read.key).taken.length + read.out.length ≤ e)
      ∧ (read.more = false ↔ (streams read.key).taken.length + read.out.length
        ∈ (streams read.key).ends) := by
  have holds := (follows.entries read.key).holds
  rw [show (q.entry read.key).messages = front :: rest from takes.messages] at holds
  have some := readCount_pos (takes.begun follows) room
  have fits : readCount front capacity ≤ front.rest.1.length := by
    rw [ReceivedMessage.length_rest]
    exact Nat.min_le_right _ _
  have length : read.out.length = readCount front capacity := by
    rw [takes.out, List.length_take, Nat.min_eq_left fits]
  obtain ⟨stays, last⟩ := holds.take_ends some fits
  rw [length]
  refine ⟨fun none => ?_, stays, ?_⟩
  · rw [none] at length
    exact absurd length.symm (Nat.ne_of_gt some)
  · refine Iff.trans ?_ last.symm
    rw [takes.more, List.length_drop, Bool.or_eq_false_iff, decide_eq_false_iff_not,
      Bool.not_eq_false', and_comm]
    refine and_congr_right fun _ => ?_
    have least : readCount front capacity ≤ front.bytes.length - front.offset :=
      Nat.min_le_right _ _
    omega

theorem readAny_takes (follows : q.Follows streams) (reads : q.readAny capacity = (some read, q')) :
    ∃ front rest, Takes q capacity read q' front rest
      ∧ ∃ ready, q.ready = read.key :: ready
        ∧ q'.ready = if q'.pending.contains read.key
          then (if read.more then read.key :: ready else ready ++ [read.key])
            else ready := by
  cases order : q.ready with
  | nil =>
    rw [readAny, order] at reads
    cases reads
  | cons key ready =>
    obtain ⟨p, found⟩ := Option.isSome_iff_exists.mp
      ((follows.sane.ready key).mp (by rw [order]; exact List.mem_cons_self))
    obtain ⟨front, rest, messages, -⟩ := follows.first found
    rw [readAny, order] at reads
    simp only [found, Option.bind_some, readLocked_eq messages] at reads
    split at reads
    · next stays =>
      cases reads
      exact ⟨front, rest, ⟨(waiting_of_get? found).trans messages, rfl, rfl, by
        rw [entry_of_get? found]⟩, ready, rfl, (if_pos stays).symm⟩
    · next gone =>
      cases reads
      exact ⟨front, rest, ⟨(waiting_of_get? found).trans messages, rfl, rfl, by
        rw [entry_of_get? found]⟩, ready, rfl, (if_neg gone).symm⟩

theorem readAny_none (follows : q.Follows streams) (reads : q.readAny capacity = (none, q')) :
    q' = q := by
  cases order : q.ready with
  | nil =>
    rw [readAny, order] at reads
    cases reads
    rfl
  | cons key ready =>
    obtain ⟨p, found⟩ := Option.isSome_iff_exists.mp
      ((follows.sane.ready key).mp (by rw [order]; exact List.mem_cons_self))
    obtain ⟨front, rest, messages, -⟩ := follows.first found
    rw [readAny, order] at reads
    simp only [found, Option.bind_some, readLocked_eq messages] at reads
    split at reads <;> cases reads

theorem readFrom_none (follows : q.Follows streams) (reads : q.readFrom key capacity = (none, q')) :
    q' = q := by
  rw [readFrom] at reads
  cases found : q.pending.get? key with
  | none =>
    rw [found] at reads
    cases reads
    rfl
  | some p =>
    obtain ⟨front, rest, messages, -⟩ := follows.first found
    simp only [found, Option.bind_some, readLocked_eq messages] at reads
    split at reads <;> cases reads

theorem readFrom_takes (follows : q.Follows streams)
    (reads : q.readFrom key capacity = (some read, q')) :
    read.key = key ∧ (∃ front rest, Takes q capacity read q' front rest)
      ∧ q'.ready = if q'.pending.contains key then q.ready else q.ready.erase key := by
  rw [readFrom] at reads
  cases found : q.pending.get? key with
  | none =>
    rw [found] at reads
    cases reads
  | some p =>
    obtain ⟨front, rest, messages, -⟩ := follows.first found
    simp only [found, Option.bind_some, readLocked_eq messages] at reads
    split at reads
    · next stays =>
      cases reads
      exact ⟨rfl, ⟨front, rest, (waiting_of_get? found).trans messages, rfl, rfl, by
        rw [entry_of_get? found]⟩, (if_pos stays).symm⟩
    · next gone =>
      cases reads
      exact ⟨rfl, ⟨front, rest, (waiting_of_get? found).trans messages, rfl, rfl, by
        rw [entry_of_get? found]⟩, (if_neg gone).symm⟩

end ReceiveQueue

/-! ## Runs -/

inductive ReceiveOp where
  | push (key : AssociationKey) (bytes : Bytes) (complete : Bool) (stream : StreamId)
  | readAny (capacity : Nat)
  | readFrom (key : AssociationKey) (capacity : Nat)
  | abandonOpen (key : AssociationKey)
  | detach (key : AssociationKey)
deriving DecidableEq

/-- Pieces are not empty, and neither are the buffers read into. -/
def ReceiveOp.Proper : ReceiveOp → Prop
  | .push _ bytes _ _ => bytes ≠ []
  | .readAny capacity => 0 < capacity
  | .readFrom _ capacity => 0 < capacity
  | .abandonOpen _ => True
  | .detach _ => True

/-- What a read took is taken from the stream of its association. -/
def takeRead (streams : AssociationKey → MessageStream Byte) :
    Option Read → AssociationKey → MessageStream Byte
  | none => streams
  | some read => Function.update streams read.key ((streams read.key).take read.out)

namespace ReceiveQueue

/-- One operation on the queue, recorded in the streams. -/
def perform (st : ReceiveQueue × (AssociationKey → MessageStream Byte)) :
    ReceiveOp → ReceiveQueue × (AssociationKey → MessageStream Byte)
  | .push key bytes complete stream =>
    (st.1.push key bytes complete stream, Function.update st.2 key ((st.2 key).give bytes complete))
  | .readAny capacity => ((st.1.readAny capacity).2, takeRead st.2 (st.1.readAny capacity).1)
  | .readFrom key capacity => ((st.1.readFrom key capacity).2,
      takeRead st.2 (st.1.readFrom key capacity).1)
  | .abandonOpen key => (st.1.abandonOpen key, Function.update st.2 key (st.2 key).abandon)
  | .detach key => (st.1.detach key, Function.update st.2 key (st.2 key).detach)

/-- The queue and the streams after any operations, in any order. -/
def performAll (ops : List ReceiveOp) : ReceiveQueue × (AssociationKey → MessageStream Byte) :=
  ops.foldl perform (fresh, fun _ => .fresh)

theorem performAll_append (ops later : List ReceiveOp) :
    performAll (ops ++ later) = later.foldl perform (performAll ops) := by
  simp [performAll]

theorem performAll_snoc (ops : List ReceiveOp) (op : ReceiveOp) :
    performAll (ops ++ [op]) = perform (performAll ops) op :=
  performAll_append ops [op]

theorem Follows.fresh : ReceiveQueue.fresh.Follows fun _ => .fresh where
  sane := (inbox_fresh ⟨0#32, 0#16⟩).queue
  entries _ := ⟨.fresh, fun _ inside => absurd inside List.not_mem_nil, rfl⟩

theorem Follows.perform {st : ReceiveQueue × (AssociationKey → MessageStream Byte)}
    (follows : st.1.Follows st.2) {op : ReceiveOp} (proper : op.Proper) :
    (perform st op).1.Follows (perform st op).2 := by
  obtain ⟨q, streams⟩ := st
  cases op with
  | push key bytes complete stream => exact follows.push proper complete stream
  | abandonOpen key => exact follows.abandonOpen key
  | detach key => exact follows.detach key
  | readAny capacity =>
    have sane := (shrinks_readAny follows.sane capacity).sane
    simp only [ReceiveQueue.perform]
    cases reads : q.readAny capacity with
    | mk read q' =>
      rw [reads] at sane
      cases read with
      | none =>
        have unchanged : q' = q := readAny_none follows reads
        rw [unchanged]
        exact follows
      | some read =>
        obtain ⟨front, rest, takes, -⟩ := readAny_takes follows reads
        exact takes.follows follows sane
  | readFrom key capacity =>
    have sane := (shrinks_readFrom follows.sane key capacity).sane
    simp only [ReceiveQueue.perform]
    cases reads : q.readFrom key capacity with
    | mk read q' =>
      rw [reads] at sane
      cases read with
      | none =>
        have unchanged : q' = q := readFrom_none follows reads
        rw [unchanged]
        exact follows
      | some read =>
        obtain ⟨-, ⟨front, rest, takes⟩, -⟩ := readFrom_takes follows reads
        exact takes.follows follows sane

theorem follows_performAll {ops : List ReceiveOp} (proper : ∀ op ∈ ops, op.Proper) :
    (performAll ops).1.Follows (performAll ops).2 := by
  induction ops using List.reverseRecOn with
  | nil => exact .fresh
  | append_singleton ops op ih =>
    rw [List.forall_mem_append] at proper
    rw [performAll_snoc]
    exact (ih proper.1).perform (proper.2 op (List.mem_singleton_self _))

/-! ## The association served next -/

variable {q q' : ReceiveQueue} {streams : AssociationKey → MessageStream Byte}
    {key : AssociationKey} {capacity : Nat}
  {read : Read}

/-- A message of an association is partly read. -/
def PartlyRead (q : ReceiveQueue) (key : AssociationKey) : Prop := ∃ m ∈ q.waiting key, 0 < m.offset

theorem unread_eq_nil (follows : q.Follows streams) : q.unread key = [] ↔ key ∉ q.ready := by
  rw [follows.sane.ready, Option.not_isSome_iff_eq_none]
  cases found : q.pending.get? key with
  | none => simp [unread, waiting, found]
  | some p =>
    obtain ⟨front, rest, messages, within⟩ := follows.first found
    rw [unread, waiting_of_get? found, messages]
    simp only [List.map_cons, MessageStream.joined_cons, List.append_eq_nil_iff, reduceCtorEq,
      iff_false, not_and]
    intro none
    exact absurd (List.drop_eq_nil_iff.mp none) (Nat.not_le_of_lt within)

/-- A read that leaves its message partly read leaves its association first in line. -/
theorem readAny_stays (follows : q.Follows streams) (reads : q.readAny capacity = (some read, q'))
    (part : PartlyRead q' read.key) : q'.ready.head? = some read.key := by
  obtain ⟨front, rest, takes, ready, -, after⟩ := readAny_takes follows reads
  obtain ⟨m, inside, begun⟩ := part
  have others : ∀ m ∈ rest, m.offset = 0 := by
    have fronts := (follows.entries read.key).fronts
    rw [show (q.entry read.key).messages = front :: rest from takes.messages] at fronts
    exact fronts
  rw [waiting_of_stored takes.stored, PendingMessages.readFront] at inside
  by_cases done : front.offset + readCount front capacity = front.bytes.length
  · simp only [if_pos done] at inside
    exact absurd (others m inside) (Nat.ne_of_gt begun)
  · have stays : q'.pending.contains read.key = true := by
      rw [takes.stored, store, PendingMessages.readFront, if_neg (by simp [done]),
        KeyMap.contains_put, decide_eq_true rfl, Bool.true_or]
    have within := takes.begun follows
    have least : readCount front capacity ≤ front.bytes.length - front.offset :=
      Nat.min_le_right _ _
    have more : read.more = true := by
      rw [takes.more, decide_eq_true (by omega), Bool.true_or]
    rw [after, if_pos stays, if_pos more]
    rfl

theorem ready_abandonOpen (q : ReceiveQueue) (k : AssociationKey) :
    (q.abandonOpen k).ready = q.ready ∨ (q.abandonOpen k).ready = q.ready.erase k := by
  unfold abandonOpen
  split
  · exact Or.inl rfl
  · split
    · exact Or.inl rfl
    · split
      · exact Or.inl rfl
      · simp only
        split
        · exact Or.inr rfl
        · exact Or.inl rfl

/-- The association first in line stays there until it is read from or has nothing left. -/
theorem perform_stays {st : ReceiveQueue × (AssociationKey → MessageStream Byte)}
    (follows : st.1.Follows st.2) {op : ReceiveOp} (other : ∀ capacity, op ≠ .readAny capacity)
    (first : st.1.ready.head? = some key) (still : key ∈ (perform st op).1.ready) :
    (perform st op).1.ready.head? = some key := by
  obtain ⟨q, streams⟩ := st
  obtain ⟨ready, order⟩ : ∃ ready, q.ready = key :: ready := List.head?_eq_some_iff.mp first
  have erased : ∀ k, key ∈ q.ready.erase k → (q.ready.erase k).head? = some key := by
    intro k inside
    have apart : key ≠ k := ((mem_erase_ready follows.sane.once k key).mp inside).2
    rw [order, List.erase_cons_tail (by simpa using apart)]
    rfl
  cases op with
  | push k bytes complete stream =>
    simp only [ReceiveQueue.perform]
    rw [follows.sane.ready_push]
    split
    · exact first
    · rw [order]
      rfl
  | readAny capacity => exact absurd rfl (other capacity)
  | readFrom k capacity =>
    simp only [ReceiveQueue.perform] at still ⊢
    cases reads : q.readFrom k capacity with
    | mk read q' =>
      rw [reads] at still
      cases read with
      | none =>
        rw [readFrom_none follows reads]
        exact first
      | some read =>
        obtain ⟨-, -, after⟩ := readFrom_takes follows reads
        simp only [after] at still ⊢
        split
        · exact first
        · next gone =>
          rw [if_neg gone] at still
          exact erased k still
  | abandonOpen k =>
    simp only [ReceiveQueue.perform] at still ⊢
    rcases ready_abandonOpen q k with same | less
    · rw [same]
      exact first
    · rw [less] at still ⊢
      exact erased k still
  | detach k => exact first

/-- The first in line is served. -/
theorem readAny_head (follows : q.Follows streams) (first : q.ready.head? = some key)
    (capacity : Nat) :
    ∃ read, (q.readAny capacity).1 = some read ∧ read.key = key := by
  obtain ⟨ready, order⟩ := List.head?_eq_some_iff.mp first
  cases reads : q.readAny capacity with
  | mk read q' =>
    cases read with
    | none =>
      obtain ⟨p, found⟩ := Option.isSome_iff_exists.mp
        ((follows.sane.ready key).mp (by rw [order]; exact List.mem_cons_self))
      obtain ⟨front, rest, messages, -⟩ := follows.first found
      rw [readAny, order] at reads
      simp only [found, Option.bind_some, readLocked_eq messages] at reads
      split at reads <;> cases reads
    | some read =>
      obtain ⟨-, -, -, ready', order', -⟩ := readAny_takes follows reads
      rw [order] at order'
      cases order'
      exact ⟨read, rfl, rfl⟩

theorem stays_performAll {ops later : List ReceiveOp} (proper : ∀ op ∈ ops ++ later, op.Proper)
    (first : (performAll ops).1.ready.head? = some key)
    (others : ∀ op ∈ later, ∀ capacity, op ≠ .readAny capacity)
    (still : ∀ middle, middle <+: later → (performAll (ops ++ middle)).1.unread key ≠ []) :
    (performAll (ops ++ later)).1.ready.head? = some key := by
  induction later using List.reverseRecOn with
  | nil => rwa [List.append_nil]
  | append_singleton later op ih =>
    rw [← List.append_assoc] at proper ⊢
    have before : ∀ op ∈ ops ++ later, op.Proper := fun op inside =>
      proper op (List.mem_append_left _ inside)
    have follows := follows_performAll before
    have after := follows_performAll proper
    have here := ih before (fun op inside => others op (List.mem_append_left _ inside))
      fun middle early => still middle (early.trans (List.prefix_append _ _))
    have left := still _ (List.prefix_refl _)
    rw [← List.append_assoc, Ne, unread_eq_nil after, not_not] at left
    rw [performAll_snoc] at left ⊢
    exact perform_stays follows (others op (by simp)) here left

/-! ## The whole queue -/

/-- Whatever is pushed, read, abandoned and detached, in whatever order, every
association's messages are a stream: what has been read and what waits are what was
pushed and not abandoned, a read stays within a message and reports its end, what waits
is in line once and counted right, and a message that is partly read is gone on with. -/
theorem refines_message_streams (ops : List ReceiveOp) (proper : ∀ op ∈ ops, op.Proper)
    (q : ReceiveQueue) (streams : AssociationKey → MessageStream Byte)
    (performed : performAll ops = (q, streams)) :
    (∀ key, (streams key).taken ++ q.unread key = (streams key).given)
      ∧ (∀ capacity read, 0 < capacity →
          ((q.readAny capacity).1 = some read ∨ ∃ key, (q.readFrom key capacity).1 = some read) →
          read.out ≠ []
            ∧ (∀ e ∈ (streams read.key).ends, (streams read.key).taken.length < e →
                (streams read.key).taken.length + read.out.length ≤ e)
            ∧ (read.more = false ↔ (streams read.key).taken.length + read.out.length
              ∈ (streams read.key).ends))
      ∧ (∀ key capacity read, (q.readFrom key capacity).1 = some read → read.key = key)
      ∧ (∀ key, key ∈ q.ready ↔ q.unread key ≠ []) ∧ q.ready.Nodup
      ∧ (∀ earlier capacity later read, ops = earlier ++ .readAny capacity :: later →
          ((performAll earlier).1.readAny capacity).1 = some read →
          PartlyRead (performAll (earlier ++ [.readAny capacity])).1 read.key →
          (∀ op ∈ later, ∀ capacity, op ≠ .readAny capacity) →
          (∀ middle, middle <+: later → (performAll (earlier
            ++ .readAny capacity :: middle)).1.unread read.key ≠ []) →
          ∀ capacity, ∃ next, (q.readAny capacity).1 = some next ∧ next.key = read.key)
      ∧ (∀ key, (q.entry key).bytes = (q.unread key).length)
      ∧ ∀ key, q.bufferedBytes key = (streams key).attached := by
  have follows : q.Follows streams := by
    have after := follows_performAll proper
    rwa [performed] at after
  refine ⟨fun key => (follows.entries key).holds.given.symm, fun capacity read room served => ?_,
    fun key capacity read reads => (readFrom_takes follows (Prod.ext reads rfl)).1,
    fun key => by rw [Ne, unread_eq_nil follows, not_not], follows.sane.once, ?_, fun key => ?_,
      fun key => ?_⟩
  · rcases served with reads | ⟨key, reads⟩
    · obtain ⟨front, rest, takes, -⟩ := readAny_takes follows (Prod.ext reads rfl)
      exact takes.within follows room
    · obtain ⟨-, ⟨front, rest, takes⟩, -⟩ := readFrom_takes follows (Prod.ext reads rfl)
      exact takes.within follows room
  · rintro earlier capacity later read rfl reads part others still
    have whole : earlier ++ .readAny capacity :: later = earlier ++ [.readAny capacity]
        ++ later := by simp
    have before := follows_performAll fun op inside => proper op (List.mem_append_left _ inside)
    rw [performAll_snoc] at part
    have first : (performAll (earlier ++ [.readAny capacity])).1.ready.head? = some read.key := by
      rw [performAll_snoc]
      exact readAny_stays before (Prod.ext reads rfl) part
    rw [whole] at proper performed
    have stays := stays_performAll proper first others fun middle early => by
      rw [List.append_assoc]
      exact still middle early
    rw [performed] at stays
    exact readAny_head follows stays
  · rw [(follows.entries key).bytes_eq (follows.sane.entry key),
      (follows.entries key).holds.waiting]
    rfl
  · have counted := (follows.entries key).bytes_eq (follows.sane.entry key)
    have detached := (follows.entries key).detached
    have buffered : q.bufferedBytes key = (q.entry key).bytes - (q.entry key).detached := by
      rw [bufferedBytes, entry]
      cases q.pending.get? key <;> rfl
    rw [buffered, counted, detached, MessageStream.waiting, MessageStream.attached]
    omega

/-- A message of each of two associations, both read in part, one by its key; then the first
association ends, and of what comes after it one message is abandoned. -/
def pieces : List ReceiveOp :=
  [.push ⟨⟨1#32, 1#16⟩⟩ [1#8, 2#8] false 0, .readAny 1, .push ⟨⟨1#32, 1#16⟩⟩ [3#8] true 0,
    .push ⟨⟨2#32, 1#16⟩⟩ [7#8, 8#8] true 0, .readFrom ⟨⟨2#32, 1#16⟩⟩ 1, .detach ⟨⟨1#32, 1#16⟩⟩,
    .push ⟨⟨1#32, 1#16⟩⟩ [4#8] true 0, .push ⟨⟨1#32, 1#16⟩⟩ [9#8] false 0,
    .abandonOpen ⟨⟨1#32, 1#16⟩⟩]

theorem pieces_stream :
    ((performAll pieces).2 ⟨⟨1#32, 1#16⟩⟩).taken ++ (performAll pieces).1.unread ⟨⟨1#32, 1#16⟩⟩
      = [1#8, 2#8, 3#8, 4#8]
      ∧ (performAll pieces).1.bufferedBytes ⟨⟨1#32, 1#16⟩⟩ = 1
      ∧ ((performAll pieces).2 ⟨⟨2#32, 1#16⟩⟩).taken = [7#8]
      ∧ ∃ read, ((performAll pieces).1.readFrom ⟨⟨2#32, 1#16⟩⟩ 5).1 = some read
      ∧ read.key = ⟨⟨2#32, 1#16⟩⟩
        ∧ read.out = [8#8] ∧ read.more = false := by
  have proper : ∀ op ∈ pieces, op.Proper := by simp [pieces, ReceiveOp.Proper]
  obtain ⟨stream, served, keys, -, -, -, -, counted⟩ :=
    refines_message_streams pieces proper (performAll pieces).1 (performAll pieces).2 rfl
  have reads : ((performAll pieces).1.readFrom ⟨⟨2#32, 1#16⟩⟩ 5).1
      = some ⟨⟨⟨2#32, 1#16⟩⟩, [8#8], false, 0⟩ := by
    decide +kernel
  obtain ⟨-, -, ends⟩ := served 5 _ (by decide) (Or.inr ⟨_, reads⟩)
  exact ⟨(stream _).trans (by decide +kernel), (counted _).trans (by decide +kernel), by
    decide +kernel, _, reads, keys _ _ _ reads, rfl, ends.mpr (by decide +kernel)⟩

end ReceiveQueue

end SctpStack
