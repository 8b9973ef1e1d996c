import SctpStack.Types

/-!
# Timer heap

`expiration_queue.cpp`: cancellation stamps each entry with a generation and keeps
the live one in `active`; entries whose generation no longer matches are discarded
when they surface.
-/

namespace SctpStack

structure ExpirationFallback where
  key : ExpirationKey
  expiration : Time
  generation : Nat
  retry : Deliverable
deriving DecidableEq, Repr

structure ExpirationQueue where
  queue : List ExpirationFallback
  active : KeyMap ExpirationKey Nat
  nextGeneration : Nat
deriving DecidableEq

namespace ExpirationQueue

def fresh : ExpirationQueue := ⟨[], ∅, 1⟩

def schedule (q : ExpirationQueue) (key : ExpirationKey) (expiration : Time) (retry : Deliverable) :
    ExpirationQueue :=
  { queue := q.queue ++ [⟨key, expiration, q.nextGeneration, retry⟩]
    active := q.active.put key q.nextGeneration
    nextGeneration := q.nextGeneration + 1 }

def cancel (q : ExpirationQueue) (key : ExpirationKey) : ExpirationQueue :=
  { q with active := q.active.erase key }

def cancelAll (q : ExpirationQueue) (location : AssociationKey) : ExpirationQueue :=
  { q with active := q.active.filterMap fun key generation =>
      if key.location = location then none else some generation }

def cancelAllOfType (q : ExpirationQueue) (location : AssociationKey) (type : ExpirationTimerType) :
    ExpirationQueue :=
  { q with active := q.active.filterMap fun key generation =>
      if key.location = location ∧ key.type = type then none else some generation }

def isActive (q : ExpirationQueue) (key : ExpirationKey) : Bool := q.active.contains key

def clear (q : ExpirationQueue) : ExpirationQueue := { q with queue := [], active := ∅ }

/-- The entry of the heap with the earliest deadline, and the rest. Among equal deadlines a
`std::priority_queue` may pop any: here it is the one scheduled first, and the proofs rest on
`popTop_perm` alone. -/
def popTop : List ExpirationFallback → Option (ExpirationFallback × List ExpirationFallback)
  | [] => none
  | entry :: rest =>
    match popTop rest with
    | none => some (entry, [])
    | some (top, others) =>
      if entry.expiration ≤ top.expiration then some (entry, rest) else some (top, entry :: others)

/-- The loop of `drain_expired`; every pass pops one entry of the heap. -/
def drainExpiredFrom (now : Time) :
    Nat → ExpirationQueue → List ExpirationFallback × ExpirationQueue
  | 0, q => ([], q)
  | fuel + 1, q =>
    match popTop q.queue with
    | none => ([], q)
    | some (top, rest) =>
      if top.expiration ≤ now then
        let q := { q with queue := rest }
        if q.active.get? top.key = some top.generation then
          let (expired, q) := drainExpiredFrom now fuel (q.cancel top.key)
          (top :: expired, q)
        else drainExpiredFrom now fuel q
      else ([], q)

def drainExpired (q : ExpirationQueue) (now : Time) : List ExpirationFallback × ExpirationQueue :=
  drainExpiredFrom now q.queue.length q

/-- The loop of `next_deadline`, which pops the dead entries above the first live one. -/
def nextDeadlineFrom : Nat → ExpirationQueue → Option Time × ExpirationQueue
  | 0, q => (none, q)
  | fuel + 1, q =>
    match popTop q.queue with
    | none => (none, q)
    | some (top, rest) =>
      if q.active.get? top.key = some top.generation then (some top.expiration, q)
      else nextDeadlineFrom fuel { q with queue := rest }

def nextDeadline (q : ExpirationQueue) : Option Time × ExpirationQueue :=
  nextDeadlineFrom q.queue.length q

end ExpirationQueue

end SctpStack
