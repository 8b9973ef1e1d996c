import SctpStack.Types

/-!
# Receive queue

`receive_queue.cpp`: messages delivered to the ULP but not yet read, per
association. A message may be pushed in pieces before it has fully arrived.
-/

namespace SctpStack

structure ReceivedMessage where
  bytes : Bytes
  offset : Nat
  complete : Bool
  stream : StreamId
deriving DecidableEq, Repr

structure PendingMessages where
  messages : List ReceivedMessage
  bytes : Nat
  /-- Of `bytes`, those at the front left by an ended association. -/
  detached : Nat
deriving DecidableEq, Repr

structure ReceiveQueue where
  pending : KeyMap AssociationKey PendingMessages
  ready : List AssociationKey
deriving DecidableEq

/-- What one read returns. -/
structure Read where
  key : AssociationKey
  out : Bytes
  /-- More of this message remains, queued or yet to arrive. -/
  more : Bool
  stream : StreamId
deriving DecidableEq, Repr

/-- A piece appended: to the message at the back while that one is incomplete. -/
def appendPiece (bytes : Bytes) (complete : Bool) (stream : StreamId) :
    List ReceivedMessage → List ReceivedMessage
  | [] => [⟨bytes, 0, complete, stream⟩]
  | [tail] =>
    if tail.complete then [tail, ⟨bytes, 0, complete, stream⟩]
    else [{ tail with bytes := tail.bytes ++ bytes, complete := complete }]
  | message :: rest => message :: appendPiece bytes complete stream rest

namespace ReceiveQueue

def fresh : ReceiveQueue := ⟨∅, []⟩

def push (q : ReceiveQueue) (key : AssociationKey) (bytes : Bytes) (complete : Bool)
    (stream : StreamId) :
    ReceiveQueue :=
  let entry := (q.pending.get? key).getD ⟨[], 0, 0⟩
  { pending := q.pending.put key { entry with
      messages := appendPiece bytes complete stream entry.messages, bytes :=
        entry.bytes + bytes.length }
    ready := if entry.messages.isEmpty then q.ready ++ [key] else q.ready }

/-- Takes at most one message off the front; the entry goes once it is empty. -/
def readLocked (q : ReceiveQueue) (key : AssociationKey) (entry : PendingMessages)
    (capacity : Nat) :
    Option (Read × ReceiveQueue) :=
  match entry.messages with
  | [] => none
  | front :: rest =>
    let count := min capacity (front.bytes.length - front.offset)
    let out := (front.bytes.drop front.offset).take count
    let front := { front with offset := front.offset + count }
    let read : Read := ⟨key, out, decide (front.offset < front.bytes.length) || !front.complete,
      front.stream⟩
    let messages := if front.offset = front.bytes.length then rest else front :: rest
    let entry : PendingMessages :=
      ⟨messages, entry.bytes - count, entry.detached - min entry.detached count⟩
    some (read, { q with pending :=
      if messages.isEmpty then q.pending.erase key else q.pending.put key entry })

/-- `read_any` with something ready, or after its timeout. -/
def readAny (q : ReceiveQueue) (capacity : Nat) : Option Read × ReceiveQueue :=
  match q.ready with
  | [] => (none, q)
  | key :: ready =>
    match (q.pending.get? key).bind fun entry =>
      readLocked { q with ready := ready } key entry capacity with
    | none => (none, q)
    | some (read, q) =>
      if q.pending.contains key then
        (some read, { q with ready := if read.more then key :: q.ready else q.ready ++ [key] })
      else (some read, q)

def readFrom (q : ReceiveQueue) (key : AssociationKey) (capacity : Nat) :
    Option Read × ReceiveQueue :=
  match (q.pending.get? key).bind fun entry => readLocked q key entry capacity with
  | none => (none, q)
  | some (read, q) =>
    if q.pending.contains key then (some read, q) else (some read,
      { q with ready := q.ready.erase key })

/-- Drops a message whose end will never arrive. -/
def abandonOpen (q : ReceiveQueue) (key : AssociationKey) : ReceiveQueue :=
  match q.pending.get? key with
  | none => q
  | some entry =>
    match entry.messages.getLast? with
    | none => q
    | some tail =>
      if tail.complete then q
      else
        let bytes := entry.bytes - (tail.bytes.length - tail.offset)
        let messages := entry.messages.dropLast
        if messages.isEmpty then { pending := q.pending.erase key, ready := q.ready.erase key }
        else { q with pending := q.pending.put key ⟨messages, bytes, min entry.detached bytes⟩ }

/-- What an ended association left stays readable, but no longer counts. -/
def detach (q : ReceiveQueue) (key : AssociationKey) : ReceiveQueue :=
  { q with pending := q.pending.modify key fun entry => { entry with detached := entry.bytes } }

def bufferedBytes (q : ReceiveQueue) (key : AssociationKey) : Nat :=
  match q.pending.get? key with
  | none => 0
  | some entry => entry.bytes - entry.detached

end ReceiveQueue

end SctpStack
