import Mathlib.Data.List.Induction
import SctpStack.SendPass

/-!
# What the send queue sends, and when

Every operation on the queue says which packets it takes off, which chunks it drops
from the others and what it adds (`queueFor_perform`); the order of the rest never
changes. From that, and from what `peek` skips, follow the properties of a run
(`schedules_in_order`).
-/

namespace SctpStack

/-! ## Operations -/

inductive SendOp where
  | enqueue (deliverable : Deliverable) (priority : SendPriority)
  | peek (now : Time) (allowances : SendAllowances)
  | commit (pending : Pending)
  | defer (retryAt : Time)
  | purge (location : AssociationKey)
  | removeAckedRetransmissions (location : AssociationKey) (sack : SackChunkValue)
  | removeRetransmissionsOfType (location : AssociationKey) (type : ChunkType)
      (destination : Option SockAddr)
  | clear

namespace SendQueue

def queueFor (q : SendQueue) : SendPriority → List Queued
  | .control => q.control
  | .retransmission => q.retransmission
  | .newData => q.newData

def perform (q : SendQueue) : SendOp → SendQueue
  | .enqueue deliverable priority => q.enqueue deliverable priority
  | .peek now allowances => (q.peek now allowances).2.1
  | .commit pending => q.commit pending
  | .defer retryAt => q.defer retryAt
  | .purge location => q.purge location
  | .removeAckedRetransmissions location sack => q.removeAckedRetransmissions location sack
  | .removeRetransmissionsOfType location type destination =>
      q.removeRetransmissionsOfType location type destination
  | .clear => q.clear

/-- The queue after any operations, in any order. -/
def performAll (ops : List SendOp) : SendQueue := ops.foldl perform fresh

theorem performAll_snoc (ops : List SendOp) (op : SendOp) :
    performAll (ops ++ [op]) = (performAll ops).perform op := by
  simp [performAll]

end SendQueue

namespace SendOp

/-- Whether a removal drops a chunk of a queued packet. -/
def drops (op : SendOp) (priority : SendPriority) (queued : Queued) (chunk : Chunk) : Bool :=
  match op, priority with
  | .removeAckedRetransmissions location sack, .retransmission =>
    decide (queued.deliverable.location = location) && chunkAcked sack chunk
  | .removeRetransmissionsOfType location type destination, .retransmission =>
    (decide (queued.deliverable.location = location)
        && destination.all fun d => d.addr == queued.deliverable.destination.addr)
      && (containsChunk queued.deliverable.packet type
        && (decide (chunk.type = type) || decide (chunk.type = .opError)))
  | _, _ => false

/-- The packet with the chunks that are not dropped. -/
def leaves (op : SendOp) (priority : SendPriority) (queued : Queued) : Queued :=
  { queued with deliverable := { queued.deliverable with packet := { queued.deliverable.packet with
      chunks := queued.deliverable.packet.chunks.filter fun chunk =>
        !op.drops priority queued chunk } } }

/-- Whether an operation takes a packet off the queue: its commit, a purge of its
association, a removal that leaves it without a chunk, or a clear. -/
def takes (op : SendOp) (priority : SendPriority) (queued : Queued) : Bool :=
  match op with
  | .commit pending => decide (pending.priority = priority) && pending.id == queued.id
  | .purge location => decide (queued.deliverable.location = location)
  | .removeAckedRetransmissions _ _ =>
    decide (priority = .retransmission)
      && (op.leaves priority queued).deliverable.packet.chunks.isEmpty
  | .removeRetransmissionsOfType _ _ _ =>
    decide (priority = .retransmission)
      && (op.leaves priority queued).deliverable.packet.chunks.isEmpty
  | .clear => true
  | _ => false

/-- What an operation adds at the back: control packets only up to a limit. -/
def adds (op : SendOp) (q : SendQueue) (priority : SendPriority) : List Queued :=
  match op with
  | .enqueue deliverable rank =>
    if rank = priority ∧ ¬(rank = .control ∧ q.control.length ≥ maxQueuedControl)
      then [⟨q.nextId, deliverable⟩] else []
  | _ => []

@[simp] theorem leaves_id (op : SendOp) (priority : SendPriority) (queued : Queued) :
    (op.leaves priority queued).id = queued.id := rfl

theorem leaves_of_drops_nothing {op : SendOp} {priority : SendPriority}
    (none : ∀ queued chunk, op.drops priority queued chunk = false) :
    op.leaves priority = id := by
  funext queued
  simp [leaves, none]

end SendOp

namespace SendQueue

/-- The packets of each priority stand in the order they were queued in. -/
structure Ranked (q : SendQueue) : Prop where
  ordered : ∀ priority, (q.queueFor priority).Pairwise fun x y => x.id < y.id
  below : ∀ priority, ∀ x ∈ q.queueFor priority, x.id < q.nextId
  apart : ∀ priority priority', priority ≠ priority' →
    ∀ x ∈ q.queueFor priority, ∀ y ∈ q.queueFor priority', x.id ≠ y.id

variable {q : SendQueue}

theorem Ranked.fresh : Ranked SendQueue.fresh := by
  have empty : ∀ priority, SendQueue.fresh.queueFor priority = [] := fun priority => by
    cases priority <;> rfl
  refine ⟨fun priority => ?_, fun priority x inside => ?_, fun priority _ _ x inside => ?_⟩
  · rw [empty]
    exact List.Pairwise.nil
  · rw [empty] at inside
    cases inside
  · rw [empty] at inside
    cases inside

/-- Among packets with different ids, erasing the one with an id leaves the others. -/
theorem eraseP_id {queue : List Queued} (ordered : queue.Pairwise fun x y => x.id < y.id)
    (id : Nat) :
    (queue.eraseP fun queued => queued.id == id) = queue.filter fun queued =>
      !(id == queued.id) := by
  induction queue with
  | nil => rfl
  | cons x rest ih =>
    obtain ⟨first, others⟩ := List.pairwise_cons.mp ordered
    by_cases here : x.id = id
    · subst here
      have kept : (rest.filter fun queued => !(x.id == queued.id)) = rest := by
        refine List.filter_eq_self.mpr fun y inside => ?_
        simpa using Nat.ne_of_lt (first y inside)
      rw [List.eraseP_cons_of_pos (by simp), List.filter_cons_of_neg (by simp), kept]
    · rw [List.eraseP_cons_of_neg (by simpa using here), ih others,
        List.filter_cons_of_pos (by simpa using Ne.symm here)]

/-- Dropping chunks keeps the packets that have any left, in their order. -/
theorem dropChunks_eq (sel : Queued → Bool) (drop : Queued → Chunk → Bool) (queue : List Queued)
    {op : SendOp} {priority : SendPriority}
    (same : ∀ queued chunk, op.drops priority queued chunk = (sel queued && drop queued chunk)) :
    dropChunks sel drop queue
      = (queue.filter fun queued => !(op.leaves priority
        queued).deliverable.packet.chunks.isEmpty).map (op.leaves priority) := by
  have kept : ∀ queued, (if sel queued then queued.deliverable.packet.chunks.filter fun c =>
      !drop queued c
      else queued.deliverable.packet.chunks)
        = (op.leaves priority queued).deliverable.packet.chunks := by
    intro queued
    simp only [SendOp.leaves, same]
    cases sel queued <;> simp
  rw [dropChunks]
  simp only [kept]
  induction queue with
  | nil => rfl
  | cons x rest ih =>
    cases empty : (op.leaves priority x).deliverable.packet.chunks.isEmpty with
    | true =>
      rw [List.filterMap_cons_none (by rw [empty]; rfl),
        List.filter_cons_of_neg (by rw [empty]; decide), ih]
    | false =>
      rw [List.filterMap_cons_some (by rw [empty]; rfl),
        List.filter_cons_of_pos (by rw [empty]; rfl), List.map_cons, ih]
      rfl

theorem queueFor_enqueue (q : SendQueue) (deliverable : Deliverable)
    (rank priority : SendPriority) :
    (q.enqueue deliverable rank).queueFor priority
      = q.queueFor priority ++ (SendOp.enqueue deliverable rank).adds q priority := by
  cases rank with
  | control =>
    unfold enqueue
    by_cases full : q.control.length ≥ maxQueuedControl
    · cases priority <;> simp [SendOp.adds, full]
    · cases priority <;> simp [queueFor, SendOp.adds, full]
  | retransmission => cases priority <;> simp [enqueue, queueFor, SendOp.adds]
  | newData => cases priority <;> simp [enqueue, queueFor, SendOp.adds]

theorem queueFor_peek (q : SendQueue) (now : Time) (allowances : SendAllowances)
    (priority : SendPriority) :
    (q.peek now allowances).2.1.queueFor priority = q.queueFor priority := by
  obtain ⟨blocked, same⟩ := peek_queues q now allowances
  rw [same]
  cases priority <;> rfl

theorem queueFor_commit (ranked : Ranked q) (pending : Pending) (priority : SendPriority) :
    (q.commit pending).queueFor priority
      = (q.queueFor priority).filter fun queued =>
        !(SendOp.commit pending).takes priority queued := by
  by_cases here : pending.priority = priority
  · have erased : (q.commit pending).queueFor priority = (q.queueFor priority).eraseP fun queued =>
      queued.id == pending.id := by
      subst here
      unfold commit
      cases pending.priority <;> rfl
    rw [erased, eraseP_id (ranked.ordered priority)]
    simp [SendOp.takes, here]
  · have kept : (q.commit pending).queueFor priority = q.queueFor priority := by
      unfold commit
      cases rank : pending.priority <;> rw [rank] at here <;> cases priority <;>
        first | rfl | exact absurd rfl here
    rw [kept, eq_comm, List.filter_eq_self]
    simp [SendOp.takes, here]

/-- What an operation does to the packets of a priority: some are taken off, the others
keep their order and what is not dropped of them, and new ones go to the back. -/
theorem queueFor_perform (ranked : Ranked q) (op : SendOp) (priority : SendPriority) :
    (q.perform op).queueFor priority
      = ((q.queueFor priority).filter fun queued => !op.takes priority queued).map
        (op.leaves priority) ++ op.adds q priority := by
  have kept : (∀ queued chunk, op.drops priority queued chunk = false) →
      (∀ queued, op.takes priority queued = false) →
      ((q.queueFor priority).filter fun queued => !op.takes priority queued).map
        (op.leaves priority) = q.queueFor priority := by
    intro drops takes
    rw [SendOp.leaves_of_drops_nothing drops, List.map_id, List.filter_eq_self]
    intro queued _
    rw [takes]
    rfl
  cases op with
  | enqueue deliverable rank =>
    rw [kept (fun _ _ => rfl) fun _ => rfl]
    exact queueFor_enqueue q deliverable rank priority
  | peek now allowances =>
    rw [kept (fun _ _ => rfl) fun _ => rfl]
    refine .trans ?_ (List.append_nil _).symm
    exact queueFor_peek q now allowances priority
  | commit pending =>
    rw [SendOp.leaves_of_drops_nothing fun _ _ => rfl, List.map_id]
    refine .trans ?_ (List.append_nil _).symm
    exact queueFor_commit ranked pending priority
  | defer retryAt =>
    rw [kept (fun _ _ => rfl) fun _ => rfl]
    refine .trans ?_ (List.append_nil _).symm
    cases priority <;> rfl
  | purge location =>
    rw [SendOp.leaves_of_drops_nothing fun _ _ => rfl, List.map_id]
    refine .trans ?_ (List.append_nil _).symm
    cases priority <;> simp [perform, purge, queueFor, SendOp.takes]
  | removeAckedRetransmissions location sack =>
    refine .trans ?_ (List.append_nil _).symm
    cases priority with
    | control => exact (kept (fun _ _ => rfl) fun _ => rfl).symm
    | newData => exact (kept (fun _ _ => rfl) fun _ => rfl).symm
    | retransmission => exact dropChunks_eq _ _ _ fun _ _ => rfl
  | removeRetransmissionsOfType location type destination =>
    refine .trans ?_ (List.append_nil _).symm
    cases priority with
    | control => exact (kept (fun _ _ => rfl) fun _ => rfl).symm
    | newData => exact (kept (fun _ _ => rfl) fun _ => rfl).symm
    | retransmission => exact dropChunks_eq _ _ _ fun _ _ => rfl
  | clear =>
    refine .trans ?_ (List.append_nil _).symm
    cases priority <;> simp [perform, clear, queueFor, SendOp.takes]

/-! ## Order -/

/-- Packets are numbered as they are queued. -/
theorem nextId_perform (q : SendQueue) (op : SendOp) :
    q.nextId ≤ (q.perform op).nextId
      ∧ ∀ priority, ∀ x ∈ op.adds q priority, x.id = q.nextId
      ∧ q.nextId < (q.perform op).nextId := by
  cases op with
  | enqueue deliverable rank =>
    have moved : (q.enqueue deliverable rank).nextId
        = if rank = .control ∧ q.control.length ≥ maxQueuedControl then q.nextId
          else q.nextId + 1 := by
      unfold enqueue
      cases rank <;> simp
      split <;> rfl
    refine ⟨?_, fun priority x inside => ?_⟩
    · simp only [perform, moved]
      split <;> omega
    · simp only [SendOp.adds] at inside
      split at inside
      · next room =>
        rw [List.mem_singleton.mp inside]
        refine ⟨rfl, ?_⟩
        simp only [perform, moved, if_neg room.2]
        omega
      · cases inside
  | peek now allowances =>
    obtain ⟨blocked, same⟩ := peek_queues q now allowances
    refine ⟨?_, fun priority x inside => absurd inside List.not_mem_nil⟩
    rw [perform, same]
  | commit pending =>
    refine ⟨?_, fun priority x inside => absurd inside List.not_mem_nil⟩
    simp only [perform, commit]
    cases pending.priority <;> exact Nat.le_refl _
  | defer retryAt => exact ⟨Nat.le_refl _, fun priority x inside => absurd inside List.not_mem_nil⟩
  | purge location => exact ⟨Nat.le_refl _, fun priority x inside => absurd inside List.not_mem_nil⟩
  | removeAckedRetransmissions location sack =>
      exact ⟨Nat.le_refl _, fun priority x inside => absurd inside List.not_mem_nil⟩
  | removeRetransmissionsOfType location type destination =>
    exact ⟨Nat.le_refl _, fun priority x inside => absurd inside List.not_mem_nil⟩
  | clear => exact ⟨Nat.le_refl _, fun priority x inside => absurd inside List.not_mem_nil⟩

/-- A packet in the queue after an operation was there before, with its number, or is new. -/
theorem mem_perform (ranked : Ranked q) {op : SendOp} {priority : SendPriority} {x : Queued}
    (inside : x ∈ (q.perform op).queueFor priority) :
    (∃ y ∈ q.queueFor priority, op.takes priority y = false ∧ op.leaves priority y = x)
      ∨ x ∈ op.adds q priority := by
  rw [queueFor_perform ranked, List.mem_append, List.mem_map] at inside
  rcases inside with ⟨y, kept, same⟩ | new
  · obtain ⟨there, stays⟩ := List.mem_filter.mp kept
    exact Or.inl ⟨y, there, by simpa using stays, same⟩
  · exact Or.inr new

theorem mem_adds {op : SendOp} {priority priority' : SendPriority} {x y : Queued}
    (first : x ∈ op.adds q priority) (second : y ∈ op.adds q priority') :
    priority = priority' ∧ x = y := by
  cases op with
  | enqueue deliverable rank =>
    simp only [SendOp.adds] at first second
    split at first
    · next here =>
      split at second
      · next there => exact ⟨here.1.symm.trans there.1,
          (List.mem_singleton.mp first).trans (List.mem_singleton.mp second).symm⟩
      · cases second
    · cases first
  | _ => cases first

theorem pairwise_adds (q : SendQueue) (op : SendOp) (priority : SendPriority) :
    (op.adds q priority).Pairwise fun x y => x.id < y.id := by
  cases op with
  | enqueue deliverable rank =>
    simp only [SendOp.adds]
    split
    · exact List.pairwise_singleton _ _
    · exact List.Pairwise.nil
  | _ => exact List.Pairwise.nil

theorem Ranked.perform (ranked : Ranked q) (op : SendOp) : Ranked (q.perform op) := by
  obtain ⟨later, new⟩ := nextId_perform q op
  refine ⟨fun priority => ?_, fun priority x inside => ?_,
    fun priority priority' other x here y there => ?_⟩
  · rw [queueFor_perform ranked, List.pairwise_append]
    refine ⟨?_, ?_, fun x before y added => ?_⟩
    · rw [List.pairwise_map]
      exact (ranked.ordered priority).filter _
    · exact pairwise_adds q op priority
    · obtain ⟨z, kept, rfl⟩ := List.mem_map.mp before
      rw [(new priority y added).1]
      exact ranked.below priority z (List.mem_of_mem_filter kept)
  · rcases mem_perform ranked inside with ⟨y, there, -, rfl⟩ | added
    · exact Nat.lt_of_lt_of_le (ranked.below priority y there) later
    · obtain ⟨is, more⟩ := new priority x added
      rw [is]
      exact more
  · rcases mem_perform ranked here with ⟨x', before, -, rfl⟩ | added
    · rcases mem_perform ranked there with ⟨y', before', -, rfl⟩ | added'
      · exact ranked.apart priority priority' other x' before y' before'
      · rw [(new priority' y added').1]
        exact Nat.ne_of_lt (ranked.below priority x' before)
    · rcases mem_perform ranked there with ⟨y', before', -, rfl⟩ | added'
      · rw [(new priority x added).1]
        exact Nat.ne_of_gt (ranked.below priority' y' before')
      · exact absurd (mem_adds added added').1 other

theorem ranked_performAll (ops : List SendOp) : Ranked (performAll ops) := by
  induction ops using List.reverseRecOn with
  | nil => exact .fresh
  | append_singleton ops op ih =>
    rw [performAll_snoc]
    exact ih.perform op

/-! ## Leaving -/

/-- A number given out under which nothing is queued any more. -/
def Gone (q : SendQueue) (id : Nat) : Prop :=
  id < q.nextId ∧ ∀ priority, ∀ x ∈ q.queueFor priority, x.id ≠ id

/-- What has left does not come back. -/
theorem Gone.perform {id : Nat} (gone : Gone q id) (ranked : Ranked q) (op : SendOp) :
    Gone (q.perform op) id := by
  obtain ⟨later, new⟩ := nextId_perform q op
  refine ⟨Nat.lt_of_lt_of_le gone.1 later, fun priority x inside => ?_⟩
  rcases mem_perform ranked inside with ⟨y, there, -, rfl⟩ | added
  · exact gone.2 priority y there
  · rw [(new priority x added).1]
    exact Nat.ne_of_gt gone.1

theorem Gone.performAll {id : Nat} {ops : List SendOp} (gone : Gone (performAll ops) id)
    (later : List SendOp) :
    Gone (SendQueue.performAll (ops ++ later)) id := by
  induction later using List.reverseRecOn with
  | nil => rwa [List.append_nil]
  | append_singleton later op ih =>
    rw [← List.append_assoc, performAll_snoc]
    exact ih.perform (ranked_performAll _) op

/-- Whether a commit finds its packet in the queue. -/
def Commits (q : SendQueue) (pending : Pending) :
    Prop := ∃ x ∈ q.queueFor pending.priority, x.id = pending.id

theorem Commits.gone {pending : Pending} (commits : Commits q pending) (ranked : Ranked q) :
    Gone (q.perform (.commit pending)) pending.id := by
  obtain ⟨x, inside, same⟩ := commits
  refine ⟨?_, fun priority y there is => ?_⟩
  · rw [← same]
    exact Nat.lt_of_lt_of_le (ranked.below _ x inside) (nextId_perform q _).1
  · rcases mem_perform ranked there with ⟨z, before, stays, rfl⟩ | added
    · simp only [SendOp.takes] at stays
      by_cases here : pending.priority = priority
      · rw [SendOp.leaves_id] at is
        simp [here, is] at stays
      · exact ranked.apart _ _ here x inside z before (same.trans is.symm)
    · cases added

/-- A packet that is no longer queued was taken off by an operation since. -/
theorem left_performAll {ops later : List SendOp} {priority : SendPriority} {x : Queued}
    (inside : x ∈ (performAll ops).queueFor priority)
    (gone : ∀ y ∈ (performAll (ops ++ later)).queueFor priority, y.id ≠ x.id) :
    ∃ middle op rest, later = middle ++ op :: rest
      ∧ ∃ y ∈ (performAll (ops ++ middle)).queueFor priority, y.id = x.id
        ∧ y.deliverable.location = x.deliverable.location ∧ op.takes priority y = true := by
  have kept : ∀ later, (∃ y ∈ (performAll (ops ++ later)).queueFor priority, y.id = x.id
        ∧ y.deliverable.location = x.deliverable.location)
      ∨ ∃ middle op rest, later = middle ++ op :: rest
        ∧ ∃ y ∈ (performAll (ops ++ middle)).queueFor priority, y.id = x.id
          ∧ y.deliverable.location = x.deliverable.location ∧ op.takes priority y = true := by
    intro later
    induction later using List.reverseRecOn with
    | nil => exact Or.inl ⟨x, by rwa [List.append_nil], rfl, rfl⟩
    | append_singleton later op ih =>
      rcases ih with ⟨y, there, same, location⟩ | ⟨middle, op', rest, rfl, taken⟩
      · cases takes : op.takes priority y with
        | true => exact Or.inr ⟨later, op, [], rfl, y, there, same, location, takes⟩
        | false =>
          refine Or.inl ⟨op.leaves priority y, ?_, same, location⟩
          rw [← List.append_assoc, performAll_snoc, queueFor_perform (ranked_performAll _)]
          exact List.mem_append_left _ (List.mem_map.mpr ⟨y,
            List.mem_filter.mpr ⟨there, by rw [takes]; rfl⟩, rfl⟩)
      · exact Or.inr ⟨middle, op', rest ++ [op], by simp, taken⟩
  rcases kept later with ⟨y, there, same, -⟩ | taken
  · exact absurd same (gone y there)
  · exact taken

/-! ## What is sent -/

/-- An allowance for its association admits a packet of new DATA. -/
def Admitted (allowances : SendAllowances) (queued : Queued) : Prop :=
  ∃ allowance, allowances.get? queued.deliverable.location = some allowance
    ∧ (admits allowance queued.deliverable.packet).1 = true

/-- The first packet of an association in a queue is not admitted. -/
def Refused (allowances : SendAllowances) (queue : List Queued) (key : AssociationKey) : Prop :=
  ∀ x, (queue.find? fun queued => decide (queued.deliverable.location = key)) = some x →
    ¬Admitted allowances x

/-- What a scan comes to: the first packet of its association that is admitted, every
association before it being refused. -/
def Scanned (allowances : SendAllowances) (refused : List AssociationKey) (queue : List Queued) :
    Option Pending → Prop
  | none => ∀ y ∈ queue, y.deliverable.location ∈ refused
      ∨ Refused allowances queue y.deliverable.location
  | some pending => ∃ front x rest, queue = front ++ x :: rest
      ∧ pending = ⟨.newData, x.deliverable, x.id⟩
      ∧ x.deliverable.location ∉ refused ∧ Admitted allowances x
      ∧ ∀ y ∈ front, y.deliverable.location ≠ x.deliverable.location
        ∧ (y.deliverable.location ∈ refused ∨ Refused allowances queue y.deliverable.location)

theorem Refused.cons {allowances : SendAllowances} {queue : List Queued} {key : AssociationKey}
    (refused : Refused allowances queue key) {x : Queued} (apart : x.deliverable.location ≠ key) :
    Refused allowances (x :: queue) key := by
  intro y found
  rw [List.find?_cons_of_neg (by simpa using apart)] at found
  exact refused y found

theorem Refused.here {allowances : SendAllowances} {x : Queued} (refused : ¬Admitted allowances x)
    (queue : List Queued) :
    Refused allowances (x :: queue) x.deliverable.location := by
  intro y found
  rw [List.find?_cons_of_pos (by simp)] at found
  cases found
  exact refused

theorem Refused.congr {allowances allowances' : SendAllowances} {queue : List Queued}
    {key : AssociationKey} (refused : Refused allowances' queue key)
    (same : allowances'.get? key = allowances.get? key) :
    Refused allowances queue key := by
  intro x found
  have location := List.find?_some found
  rw [decide_eq_true_eq] at location
  have admitted := refused x found
  rw [Admitted, location] at admitted ⊢
  rwa [same] at admitted

/-- A packet of an association that was refused is passed over. -/
theorem Scanned.skip {allowances : SendAllowances} {refused : List AssociationKey} {x : Queued}
    {queue : List Queued} {found : Option Pending}
    (scanned : Scanned allowances refused queue found) (passed : x.deliverable.location ∈ refused) :
    Scanned allowances refused (x :: queue) found := by
  have step : ∀ y : Queued, y.deliverable.location ∈ refused
      ∨ Refused allowances queue y.deliverable.location → y.deliverable.location ∈ refused
      ∨ Refused allowances (x :: queue) y.deliverable.location := by
    rintro y (before | first)
    · exact Or.inl before
    · by_cases same : x.deliverable.location = y.deliverable.location
      · exact Or.inl (same ▸ passed)
      · exact Or.inr (first.cons same)
  cases found with
  | none =>
    intro y inside
    rcases List.mem_cons.mp inside with rfl | later
    · exact Or.inl passed
    · exact step y (scanned y later)
  | some pending =>
    obtain ⟨front, z, rest, rfl, is, fresh, admitted, others⟩ := scanned
    refine ⟨x :: front, z, rest, rfl, is, fresh, admitted, fun y inside => ?_⟩
    rcases List.mem_cons.mp inside with rfl | later
    · exact ⟨fun same => fresh (same ▸ passed), Or.inl passed⟩
    · exact ⟨(others y later).1, step y (others y later).2⟩

/-- A packet that is not admitted holds back the others of its association. -/
theorem Scanned.refuse {allowances allowances' : SendAllowances} {refused : List AssociationKey}
    {x : Queued} {queue : List Queued} {found : Option Pending}
    (scanned : Scanned allowances' (refused ++ [x.deliverable.location]) queue found)
    (not : ¬Admitted allowances x) (same : ∀ key, key ≠ x.deliverable.location →
      allowances'.get? key = allowances.get? key) :
    Scanned allowances refused (x :: queue) found := by
  have step : ∀ y : Queued, y.deliverable.location ∈ refused ++ [x.deliverable.location]
        ∨ Refused allowances' queue y.deliverable.location →
      y.deliverable.location ∈ refused
        ∨ Refused allowances (x :: queue) y.deliverable.location := by
    intro y either
    by_cases here : y.deliverable.location = x.deliverable.location
    · rw [here]
      exact Or.inr (.here not queue)
    · rcases either with before | first
      · rw [List.mem_append, List.mem_singleton] at before
        exact Or.inl (before.resolve_right here)
      · exact Or.inr ((first.congr (same _ here)).cons (Ne.symm here))
  cases found with
  | none =>
    intro y inside
    rcases List.mem_cons.mp inside with rfl | later
    · exact Or.inr (.here not queue)
    · exact step y (scanned y later)
  | some pending =>
    obtain ⟨front, z, rest, rfl, is, fresh, admitted, others⟩ := scanned
    rw [List.mem_append, List.mem_singleton, not_or] at fresh
    refine ⟨x :: front, z, rest, rfl, is, fresh.1, ?_, fun y inside => ?_⟩
    · rw [Admitted] at admitted ⊢
      rwa [same _ fresh.2] at admitted
    · rcases List.mem_cons.mp inside with rfl | later
      · exact ⟨fun here => fresh.2 here.symm, Or.inr (.here not _)⟩
      · exact ⟨(others y later).1, step y (others y later).2⟩

theorem peekNewData_scanned (allowances : SendAllowances) (refused : List AssociationKey)
    (queue : List Queued) :
    Scanned allowances refused queue (peekNewData allowances refused queue).1 := by
  induction queue generalizing allowances refused with
  | nil => exact fun y inside => absurd inside List.not_mem_nil
  | cons x rest ih =>
    unfold peekNewData
    simp only
    split
    · next passed => exact (ih allowances refused).skip passed
    · next fresh =>
      cases here : allowances.get? x.deliverable.location with
      | none =>
        refine (ih allowances (refused ++ [x.deliverable.location])).refuse ?_ fun key _ => rfl
        rintro ⟨allowance, found, -⟩
        rw [here] at found
        cases found
      | some allowance =>
        cases admitted : (admits allowance x.deliverable.packet).1 with
        | true =>
          simp only [admitted, if_true]
          exact ⟨[], x, rest, rfl, rfl, fresh, ⟨allowance, here, admitted⟩, fun y inside =>
            absurd inside List.not_mem_nil⟩
        | false =>
          simp only [admitted, Bool.false_eq_true, if_false]
          refine (ih _ _).refuse ?_ fun key apart => ?_
          · rintro ⟨allowance', found, is⟩
            rw [here] at found
            cases found
            rw [admitted] at is
            cases is
          · rw [KeyMap.get?_put, if_neg apart]

/-- What `peek` finds when it is not put off: the first control packet, else the first
retransmission, else the first packet of new DATA that is admitted. -/
theorem peek_eq {now : Time} {allowances : SendAllowances} (due : ¬now < q.nextSendAttempt) :
    (q.peek now allowances).1 = match q.control, q.retransmission with
      | queued :: _, _ => some ⟨.control, queued.deliverable, queued.id⟩
      | [], queued :: _ => some ⟨.retransmission, queued.deliverable, queued.id⟩
      | [], [] => (peekNewData allowances [] q.newData).1 := by
  rw [peek, if_neg due]
  cases q.control with
  | cons queued rest => rfl
  | nil =>
    cases q.retransmission with
    | cons queued rest => rfl
    | nil =>
      simp only
      split
      · next found => rw [found]
      · next found => rw [found]

theorem peek_deferred {now : Time} {allowances : SendAllowances} (early : now < q.nextSendAttempt) :
    (q.peek now allowances).1 = none := by
  rw [peek, if_pos early]

/-- The first packet with a property is the one with the least number. -/
theorem le_of_first {queue front rest : List Queued} {x : Queued}
    (ordered : queue.Pairwise fun x y => x.id < y.id) (here : queue = front ++ x :: rest)
    (p : Queued → Prop) (before : ∀ y ∈ front, ¬p y) :
    ∀ y ∈ queue, p y → x.id ≤ y.id := by
  intro y inside is
  rw [here] at ordered inside
  rcases List.mem_append.mp inside with early | late
  · exact absurd is (before y early)
  · rcases List.mem_cons.mp late with rfl | after
    · exact Nat.le_refl _
    · exact Nat.le_of_lt ((List.pairwise_cons.mp (List.pairwise_append.mp ordered).2.1).1 y after)

/-- What a packet that `peek` returns is. -/
structure Peeked (q : SendQueue) (allowances : SendAllowances) (pending : Pending) : Prop where
  queued : ∃ x ∈ q.queueFor pending.priority, x.id = pending.id
    ∧ x.deliverable = pending.deliverable
  first : ∀ x ∈ q.queueFor pending.priority, x.deliverable.location = pending.deliverable.location →
    pending.id ≤ x.id
  control : pending.priority ≠ .control → q.control = []
  retransmission : pending.priority = .newData → q.retransmission = []
  admitted : pending.priority = .newData → Admitted allowances ⟨pending.id, pending.deliverable⟩
  passed : pending.priority = .newData → ∀ x ∈ q.newData, x.id < pending.id →
    Refused allowances q.newData x.deliverable.location

theorem peeked {now : Time} {allowances : SendAllowances} {pending : Pending} (ranked : Ranked q)
    (found : (q.peek now allowances).1 = some pending) : Peeked q allowances pending := by
  by_cases early : now < q.nextSendAttempt
  · rw [peek_deferred early] at found
    cases found
  rw [peek_eq early] at found
  cases control : q.control with
  | cons queued rest =>
    rw [control] at found
    cases found
    have here : q.queueFor .control = [] ++ queued :: rest := control
    exact
      { queued := ⟨queued, by rw [here]; exact List.mem_cons_self, rfl, rfl⟩
        first := fun x inside _ => le_of_first (ranked.ordered .control) here (fun _ => True)
          (fun y none => absurd none List.not_mem_nil) x inside trivial
        control := fun other => absurd rfl other
        retransmission := fun new => by cases new
        admitted := fun new => by cases new
        passed := fun new => by cases new }
  | nil =>
    cases retransmission : q.retransmission with
    | cons queued rest =>
      rw [control, retransmission] at found
      cases found
      have here : q.queueFor .retransmission = [] ++ queued :: rest := retransmission
      exact
        { queued := ⟨queued, by rw [here]; exact List.mem_cons_self, rfl, rfl⟩
          first := fun x inside _ => le_of_first (ranked.ordered .retransmission)
            here (fun _ => True) (fun y none => absurd none List.not_mem_nil) x inside trivial
          control := fun _ => control
          retransmission := fun new => by cases new
          admitted := fun new => by cases new
          passed := fun new => by cases new }
    | nil =>
      rw [control, retransmission] at found
      have scanned := peekNewData_scanned allowances [] q.newData
      simp only at found
      rw [found] at scanned
      obtain ⟨front, x, rest, here, rfl, -, admitted, others⟩ := scanned
      have ordered := ranked.ordered .newData
      have least : ∀ y ∈ q.newData, y ∉ front → x.id ≤ y.id := fun y inside after =>
        le_of_first ordered here (· ∉ front) (fun y early late => late early) y inside after
      refine
        { queued := ⟨x, ?_, rfl, rfl⟩
          first := le_of_first ordered here (fun y => y.deliverable.location
            = x.deliverable.location)
            fun y early => (others y early).1
          control := fun _ => control
          retransmission := fun _ => retransmission
          admitted := fun _ => admitted
          passed := fun _ y inside earlier => ?_ }
      · show x ∈ q.newData
        rw [here]
        exact List.mem_append_right _ List.mem_cons_self
      · by_cases early : y ∈ front
        · exact ((others y early).2).resolve_left List.not_mem_nil
        · exact absurd earlier (Nat.not_lt_of_le (least y inside early))

/-- Nothing is found only if the queue is put off, or nothing waits but new DATA of
associations that are refused. -/
theorem peek_eq_none {now : Time} {allowances : SendAllowances} :
    (q.peek now allowances).1 = none ↔ now < q.nextSendAttempt
      ∨ (q.control = [] ∧ q.retransmission = []
      ∧ ∀ x ∈ q.newData, Refused allowances q.newData x.deliverable.location) := by
  by_cases early : now < q.nextSendAttempt
  · simp [peek_deferred early, early]
  rw [peek_eq early]
  cases control : q.control with
  | cons queued rest => simp [early]
  | nil =>
    cases retransmission : q.retransmission with
    | cons queued rest => simp [early]
    | nil =>
      have scanned := peekNewData_scanned allowances [] q.newData
      simp only [early, false_or, true_and]
      constructor
      · intro found
        rw [found] at scanned
        exact fun x inside => (scanned x inside).resolve_left List.not_mem_nil
      · intro refused
        cases found : (peekNewData allowances [] q.newData).1 with
        | none => rfl
        | some pending =>
          rw [found] at scanned
          obtain ⟨front, x, rest, here, -, -, admitted, others⟩ := scanned
          have inside : x ∈ q.newData := by
            rw [here]
            exact List.mem_append_right _ List.mem_cons_self
          have first : (q.newData.find? fun queued =>
              decide (queued.deliverable.location = x.deliverable.location)) = some x := by
            rw [here, List.find?_append, List.find?_eq_none.mpr fun y early => by
              simpa using (others y early).1]
            simp
          exact absurd admitted (refused x inside x first)

/-- What is queued later is numbered later, or was there before. -/
theorem mem_performAll {ops later : List SendOp} {priority : SendPriority} {x : Queued}
    (inside : x ∈ (performAll (ops ++ later)).queueFor priority) :
    (∃ y ∈ (performAll ops).queueFor priority, y.id = x.id ∧ y.deliverable.location
      = x.deliverable.location)
      ∨ (performAll ops).nextId ≤ x.id := by
  induction later using List.reverseRecOn generalizing x with
  | nil => exact Or.inl ⟨x, by rwa [List.append_nil] at inside, rfl, rfl⟩
  | append_singleton later op ih =>
    rw [← List.append_assoc, performAll_snoc] at inside
    rcases mem_perform (ranked_performAll _) inside with ⟨y, there, -, rfl⟩ | added
    · have before := ih there
      exact before
    · refine Or.inr ?_
      rw [((nextId_perform _ op).2 priority x added).1]
      clear ih inside added
      induction later using List.reverseRecOn with
      | nil => rw [List.append_nil]
      | append_singleton later op' ih =>
        rw [← List.append_assoc, performAll_snoc]
        exact Nat.le_trans ih (nextId_perform _ op').1

/-- Whatever is done to the queue, and in whatever order: operations take off, drop and
add what they should and nothing else; a packet that is gone was taken off, and only one
commit finds it; `peek` returns the first packet of its association and priority, of the
most urgent priority there is, and passes over associations that are refused and over no
others; and it returns nothing only if it is put off or all that waits is refused. -/
theorem schedules_in_order (ops : List SendOp) :
    (∀ op priority, ((performAll ops).perform op).queueFor priority
        = (((performAll ops).queueFor priority).filter fun queued => !op.takes priority queued).map
          (op.leaves priority) ++ op.adds (performAll ops) priority)
      ∧ (∀ earlier later priority x, ops = earlier ++ later →
        x ∈ (performAll earlier).queueFor priority →
          (∀ y ∈ (performAll ops).queueFor priority, y.id ≠ x.id) →
          ∃ middle op rest, later = middle ++ op :: rest
            ∧ ∃ y ∈ (performAll (earlier ++ middle)).queueFor priority, y.id = x.id
              ∧ y.deliverable.location = x.deliverable.location ∧ op.takes priority y = true)
      ∧ (∀ earlier pending later, ops = earlier ++ .commit pending :: later →
        Commits (performAll earlier) pending →
          ∀ again, Commits (performAll ops) again → again.id ≠ pending.id)
      ∧ (∀ now allowances pending, ((performAll ops).peek now allowances).1 = some pending →
        Peeked (performAll ops) allowances pending)
      ∧ (∀ earlier later now allowances pending now' allowances' pending', ops = earlier ++ later →
          ((performAll earlier).peek now allowances).1 = some pending →
            ((performAll ops).peek now' allowances').1 = some pending' →
          pending'.priority = pending.priority → pending'.deliverable.location
            = pending.deliverable.location →
          pending.id ≤ pending'.id)
      ∧ ∀ now allowances, ((performAll ops).peek now allowances).1 = none →
        now < (performAll ops).nextSendAttempt
          ∨ ((performAll ops).control = [] ∧ (performAll ops).retransmission = []
            ∧ ∀ x ∈ (performAll ops).newData, Refused allowances (performAll ops).newData
              x.deliverable.location) := by
  refine ⟨queueFor_perform (ranked_performAll ops), ?_, ?_, fun now allowances pending =>
    peeked (ranked_performAll ops), ?_,
    fun now allowances => peek_eq_none.mp⟩
  · rintro earlier later priority x rfl inside gone
    exact left_performAll inside gone
  · rintro earlier pending later rfl commits again ⟨x, inside, same⟩ is
    have gone := commits.gone (ranked_performAll earlier)
    rw [← performAll_snoc] at gone
    have still := Gone.performAll gone later
    rw [List.append_assoc] at still
    exact still.2 _ x inside (same.trans is)
  · rintro earlier later now allowances pending now' allowances' pending' rfl found found' priority
      location
    have before := peeked (ranked_performAll earlier) found
    have after := peeked (ranked_performAll _) found'
    obtain ⟨x, inside, same, is⟩ := after.queued
    rw [← same]
    rw [priority] at inside
    rcases mem_performAll inside with ⟨y, there, number, site⟩ | later
    · rw [← number]
      refine before.first y there (site.trans ?_)
      rw [is, location]
    · obtain ⟨z, there, number, -⟩ := before.queued
      rw [← number]
      exact Nat.le_of_lt (Nat.lt_of_lt_of_le ((ranked_performAll earlier).below _ z there) later)

end SendQueue

end SctpStack
