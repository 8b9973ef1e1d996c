import SctpStack.Paths

/-!
# Send queue

`send_queue.cpp`: control traffic, then retransmissions, then new DATA, the last
admitted per association against a snapshot of its windows.
-/

namespace SctpStack

inductive SendPriority where
  | control
  | retransmission
  | newData
deriving DecidableEq, Repr

structure SendAllowance where
  flightSize : Nat
  cwndOpen : Bool
  burstSpent : Bool
  rwnd : Nat
  zeroWindowProbe : Bool
  /-- Set when this association's next packet was refused by rwnd alone. -/
  rwndBlocked : Bool
deriving DecidableEq, Repr

abbrev SendAllowances := KeyMap AssociationKey SendAllowance

structure Queued where
  id : Nat
  deliverable : Deliverable
deriving DecidableEq, Repr

structure Pending where
  priority : SendPriority
  deliverable : Deliverable
  id : Nat
deriving DecidableEq, Repr

structure SendQueue where
  control : List Queued
  retransmission : List Queued
  newData : List Queued
  nextId : Nat
  newDataBlocked : Bool
  nextSendAttempt : Time
deriving DecidableEq, Repr

def dataBytes (packet : Packet) : Nat := (packet.dataChunks.map dataChunkWireSize).sum

/-- Whether an allowance admits a packet, and the allowance with `rwnd_blocked` noted. -/
def admits (allowance : SendAllowance) (packet : Packet) : Bool × SendAllowance :=
  if !allowance.cwndOpen || allowance.burstSpent then (false, allowance)
  else if allowance.zeroWindowProbe || dataBytes packet ≤ allowance.rwnd then (true, allowance)
  else (false, { allowance with rwndBlocked := true })

/-- Drops the chunks `drop` selects from the packets `sel` selects, and the packets left empty. -/
def dropChunks (sel : Queued → Bool) (drop : Queued → Chunk → Bool) (queue : List Queued) :
    List Queued :=
  queue.filterMap fun queued =>
    let chunks := if sel queued then queued.deliverable.packet.chunks.filter fun c => !drop queued c
      else queued.deliverable.packet.chunks
    if chunks.isEmpty then none
    else some { queued with deliverable :=
      { queued.deliverable with packet := { queued.deliverable.packet with chunks := chunks } } }

/-- Whether a chunk is DATA a SACK acknowledges. -/
def chunkAcked (sack : SackChunkValue) (chunk : Chunk) : Bool :=
  match chunk.value with
  | .data data => sackAcknowledges sack data.tsn
  | _ => false

namespace SendQueue

def fresh : SendQueue := ⟨[], [], [], 0, false, 0⟩

def enqueue (q : SendQueue) (deliverable : Deliverable) (priority : SendPriority) : SendQueue :=
  match priority with
  | .control =>
    if q.control.length ≥ maxQueuedControl then q
    else
      { q with
        control := q.control ++ [⟨q.nextId, deliverable⟩]
        nextId := q.nextId + 1
        newDataBlocked := false }
  | .retransmission =>
    { q with
      retransmission := q.retransmission ++ [⟨q.nextId, deliverable⟩]
      nextId := q.nextId + 1
      newDataBlocked := false }
  | .newData =>
    { q with
      newData := q.newData ++ [⟨q.nextId, deliverable⟩]
      nextId := q.nextId + 1
      newDataBlocked := false }

/-- The scan of `peek_locked` over the new DATA, with the associations refused so far. -/
def peekNewData (allowances : SendAllowances) (refused : List AssociationKey) :
    List Queued → Option Pending × SendAllowances
  | [] => (none, allowances)
  | queued :: rest =>
    let location := queued.deliverable.location
    if location ∈ refused then peekNewData allowances refused rest
    else
      match allowances.get? location with
      | none => peekNewData allowances (refused ++ [location]) rest
      | some allowance =>
        let (admitted, allowance) := admits allowance queued.deliverable.packet
        let allowances := allowances.put location allowance
        if admitted then (some ⟨.newData, queued.deliverable, queued.id⟩, allowances)
        else peekNewData allowances (refused ++ [location]) rest

/-- Highest-priority sendable packet, if there is one and the queue is not backing off. -/
def peek (q : SendQueue) (now : Time) (allowances : SendAllowances) :
    Option Pending × SendQueue × SendAllowances :=
  if now < q.nextSendAttempt then (none, q, allowances)
  else
    match q.control, q.retransmission with
    | queued :: _, _ => (some ⟨.control, queued.deliverable, queued.id⟩, q, allowances)
    | [], queued :: _ => (some ⟨.retransmission, queued.deliverable, queued.id⟩, q, allowances)
    | [], [] =>
      match peekNewData allowances [] q.newData with
      | (some pending, allowances) => (some pending, q, allowances)
      | (none, allowances) => (none, { q with newDataBlocked := !q.newData.isEmpty }, allowances)

def commit (q : SendQueue) (pending : Pending) : SendQueue :=
  let drop (queue : List Queued) := queue.eraseP fun queued => queued.id == pending.id
  match pending.priority with
  | .control => { q with control := drop q.control, nextSendAttempt := 0 }
  | .retransmission => { q with retransmission := drop q.retransmission, nextSendAttempt := 0 }
  | .newData => { q with newData := drop q.newData, nextSendAttempt := 0 }

def defer (q : SendQueue) (retryAt : Time) : SendQueue := { q with nextSendAttempt := retryAt }

def purge (q : SendQueue) (location : AssociationKey) : SendQueue :=
  let purgeOne (queue : List Queued) := queue.filter fun queued =>
    decide (queued.deliverable.location ≠ location)
  { q with
    control := purgeOne q.control
    retransmission := purgeOne q.retransmission
    newData := purgeOne q.newData }

/-- Drops acked DATA from pending retransmissions, and empty packets. -/
def removeAckedRetransmissions (q : SendQueue) (location : AssociationKey) (sack : SackChunkValue) :
    SendQueue :=
  { q with
    retransmission := dropChunks (fun queued => decide (queued.deliverable.location = location))
      (fun _ chunk => chunkAcked sack chunk) q.retransmission }

/-- Drops the chunks of a type from pending retransmissions, with a destination only
from packets bound there. An ERROR goes with the COOKIE ECHO it is bundled behind. -/
def removeRetransmissionsOfType (q : SendQueue) (location : AssociationKey) (type : ChunkType)
    (destination : Option SockAddr) : SendQueue :=
  { q with
    retransmission := dropChunks
      (fun queued => decide (queued.deliverable.location = location)
        && destination.all fun d => d.addr == queued.deliverable.destination.addr)
      (fun queued chunk => containsChunk queued.deliverable.packet type
        && (decide (chunk.type = type) || decide (chunk.type = .opError)))
      q.retransmission }

def clear (q : SendQueue) : SendQueue :=
  { q with control := [], retransmission := [], newData := [], newDataBlocked :=
    false, nextSendAttempt := 0 }

def nextDeadline (q : SendQueue) : Option Time :=
  if q.control.isEmpty && q.retransmission.isEmpty && (q.newData.isEmpty || q.newDataBlocked)
    then none
  else some q.nextSendAttempt

def hasRetransmissionFor (q : SendQueue) (location : AssociationKey) : Bool :=
  q.retransmission.any fun queued => decide (queued.deliverable.location = location)

def hasNewDataFor (q : SendQueue) (location : AssociationKey) : Bool :=
  q.newData.any fun queued => decide (queued.deliverable.location = location)

end SendQueue

end SctpStack
