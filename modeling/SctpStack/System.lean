import SctpStack.RecvPacket
import SctpStack.Lib.Run

/-!
# The socket as a whole

Everything that happens to a socket, as a machine: the event loop receives a packet,
runs the timers that are due, or sends; the application calls in between. Packets are
taken as decoded. Receiving and expiring alternate with batches of sending, and a call
of the application may come at any time.
-/

namespace SctpStack

/-- A socket with what the event loop is doing: `batch` counts the packets it may still
send in the batch under way, and is `none` while it polls. `cutAs` remembers each TSN
as `cut_new_data` last cut it. -/
structure System where
  socket : Socket
  batch : Option Nat
  cutAs : AssociationKey → Tsn → Option DataChunkValue

inductive Event where
  /-- A datagram that decodes to this packet. -/
  | recv (now : Time) (draws : Nat → Draws) (packet : Packet) (src : SockAddr)
  | expire (now : Time) (draws : Nat → Draws)
  | startSending
  /-- One pass of `run_sending`; `accepted` says whether the UDP socket took the packet. -/
  | send (now : Time) (accepted : Bool)
  | associate (draws : Draws) (toAddress : SockAddr) (port : Port)
  | sendData (key : AssociationKey) (data : Bytes) (stream : StreamId) (unordered : Bool)
  | abort (key : AssociationKey) (reason : Bytes)
  | recvData (capacity : Nat)
  | recvDataFrom (key : AssociationKey) (capacity : Nat)
  | shutdown (now : Time) (key : AssociationKey)
  | changeHeartbeat (now : Time) (draws : Draws) (key : AssociationKey) (destination : SockAddr)
      (enabled : Bool) (interval : Option Int)
  | requestHeartbeat (now : Time) (draws : Draws) (key : AssociationKey) (destination : SockAddr)
  | setPrimary (key : AssociationKey) (destination : SockAddr)
  | subscribe (type : NotificationType) (on : Bool)
  | recvNotification

namespace System

/-- A socket that has just started polling. -/
def Initial (σ : System) : Prop :=
  ∃ address, σ = ⟨.fresh address, none, fun _ _ => none⟩

def recordCut (cutAs : AssociationKey → Tsn → Option DataChunkValue)
    (cut : AssociationKey × DataChunkValue) :
    AssociationKey → Tsn → Option DataChunkValue :=
  fun key tsn => if key = cut.1 ∧ tsn = cut.2.tsn then some cut.2 else cutAs key tsn

/-- One pass of `run_sending` with `left` packets left of the batch. -/
def sendOne (σ : System) (now : Time) (accepted : Bool) (left : Nat) : System :=
  let next := σ.socket.nextPacket now
  let cutAs := next.cut.foldl recordCut σ.cutAs
  match next.pending with
  | none => ⟨next.socket, none, cutAs⟩
  | some pending =>
    if accepted then ⟨next.socket.packetSent now pending, if left = 0 then none else some left,
      cutAs⟩
    else ⟨next.socket.packetRefused now pending, none, cutAs⟩

/-- A call of the application; `none` for what only the event loop does. -/
def call (s : Socket) : Event → Option Socket
  | .associate draws toAddress port => some (s.sctpAssociate draws toAddress port).2
  | .sendData key data stream unordered => some (s.sctpSendData key data stream unordered).2
  | .abort key reason => some (s.sctpAbort key reason).2
  | .recvData capacity => some (s.sctpRecvData capacity).2
  | .recvDataFrom key capacity => some (s.sctpRecvDataFrom key capacity).2
  | .shutdown now key => some (s.sctpShutdown now key).2
  | .changeHeartbeat now draws key destination enabled interval =>
    some (s.sctpChangeHeartbeat now draws key destination enabled interval).2
  | .requestHeartbeat now draws key destination =>
      some (s.sctpRequestHeartbeat now draws key destination).2
  | .setPrimary key destination => some (s.sctpSetPrimary key destination).2
  | .subscribe type on => some (s.sctpSubscribe type on)
  | .recvNotification => some s.sctpRecvNotification.2
  | _ => none

def step (σ : System) (event : Event) : Option System :=
  match event, σ.batch with
  | .recv now draws packet src, none =>
      some { σ with socket := σ.socket.handlePacket now draws packet src }
  | .expire now draws, none => some { σ with socket := σ.socket.runExpire now draws }
  | .startSending, none =>
    some { σ with socket := σ.socket.startTransmissionOpportunity, batch := some maxSendBatch }
  | .send now accepted, some (left + 1) => some (σ.sendOne now accepted left)
  | event, _ => (call σ.socket event).map fun s => { σ with socket := s }

/-- The states of a socket's life, every step of which `ok` allows. -/
abbrev Reached (ok : System → Event → Prop) : System → Prop := Run.Reach step Initial ok

/-- What a step is: the event loop at work while it polls or sends, or a call. -/
theorem step_cases {σ σ' : System} {event : Event} (stepped : σ.step event = some σ') :
    (∃ now draws packet src, event = .recv now draws packet src ∧ σ.batch = none
      ∧ σ' = { σ with socket := σ.socket.handlePacket now draws packet src })
    ∨ (∃ now draws, event = .expire now draws ∧ σ.batch = none
      ∧ σ' = { σ with socket := σ.socket.runExpire now draws })
    ∨ (event = .startSending ∧ σ.batch = none
      ∧ σ' = { σ with socket := σ.socket.startTransmissionOpportunity, batch := some maxSendBatch })
    ∨ (∃ now accepted left, event = .send now accepted ∧ σ.batch = some (left + 1)
      ∧ σ' = σ.sendOne now accepted left)
    ∨ ∃ s, call σ.socket event = some s ∧ σ' = { σ with socket := s } := by
  cases event with
  | recv now draws packet src =>
    cases batch : σ.batch with
    | none =>
      simp only [step, batch, Option.some.injEq] at stepped
      exact Or.inl ⟨now, draws, packet, src, rfl, rfl, by rw [← stepped]⟩
    | some n => simp [step, batch, call] at stepped
  | expire now draws =>
    cases batch : σ.batch with
    | none =>
      simp only [step, batch, Option.some.injEq] at stepped
      exact Or.inr (Or.inl ⟨now, draws, rfl, rfl, by rw [← stepped]⟩)
    | some n => simp [step, batch, call] at stepped
  | startSending =>
    cases batch : σ.batch with
    | none =>
      simp only [step, batch, Option.some.injEq] at stepped
      exact Or.inr (Or.inr (Or.inl ⟨rfl, rfl, by rw [← stepped]⟩))
    | some n => simp [step, batch, call] at stepped
  | send now accepted =>
    cases batch : σ.batch with
    | none => simp [step, batch, call] at stepped
    | some n =>
      cases n with
      | zero => simp [step, batch, call] at stepped
      | succ left =>
        simp only [step, batch, Option.some.injEq] at stepped
        exact Or.inr (Or.inr (Or.inr (Or.inl ⟨now, accepted, left, rfl, rfl, stepped.symm⟩)))
  | _ =>
    exact Or.inr (Or.inr (Or.inr (Or.inr ⟨_, rfl, (Option.some.inj stepped).symm⟩)))

end System

/-! ## A run -/

namespace Opened

/-- A socket and its peer, and what the socket draws. -/
def own : SockAddr := ⟨0x0A000001#32, 5000#16⟩

def peer : SockAddr := ⟨0x0A000002#32, 5000#16⟩

def key : AssociationKey := peerKey peer 5000#16

def draws : Draws where
  tag := ⟨1#32, by decide⟩
  tsn := 10#32
  localTieTag := ⟨2#32, by decide⟩
  peerTieTag := ⟨3#32, by decide⟩
  jitter := fun _ => 0#32
  nonce := fun _ => 0#64
  secret := []

/-- A packet from the peer arrives, under the tag the socket drew. -/
def arrives (chunks : List Chunk) :
    Event := .recv 0 (fun _ => draws) ⟨⟨5000#16, 5000#16, 1#32⟩, chunks⟩ peer

/-- The peer's answer to INIT: its tag is 7, its first TSN 100, its window as large as
it can be, and the cookie one byte. -/
def initAck : Chunk :=
  ⟨0#8, .initAck ⟨7#32, 65535#32, 1#16, 1#16, 100#32,
    [0x00#8, 0x07#8, 0x00#8, 0x05#8, 0x01#8, 0#8, 0#8, 0#8]⟩⟩

/-- A batch of `n` packets, and the pass that finds nothing more to send. -/
def batch (n : Nat) : List Event := .startSending :: List.replicate (n + 1) (.send 0 true)

/-- An association opened from this side. -/
def events : List Event :=
  [.associate draws peer 5000#16] ++ batch 1 ++ [arrives [initAck]] ++ batch 1
    ++ [arrives [⟨0#8, .cookieAck⟩]]

def start : System := ⟨.fresh own, none, fun _ _ => none⟩

/-- Whatever a run from the start ends with, some reachable state has. -/
theorem exists_run (run : List Event) {p : System → Bool}
    (ends : (Run.replay System.step start run).any p = true) :
    ∃ σ, System.Reached (fun _ _ => True) σ ∧ p σ = true :=
  Run.Reach.exists_replay (.start ⟨own, rfl⟩) run (fun _ _ => trivial) ends

/-- The same for a run whose steps all have to be allowed. -/
theorem exists_run_while (ok : System → Event → Prop) [∀ σ event, Decidable (ok σ event)]
    (run : List Event) {p : System → Bool}
    (ends : (Run.replayWhile System.step (fun σ event => decide (ok σ event)) start run).any p
      = true) :
    ∃ σ, System.Reached ok σ ∧ p σ = true :=
  Run.Reach.exists_replayWhile (.start ⟨own, rfl⟩) run (fun _ _ => of_decide_eq_true) ends

/-- A run that goes on from the opened association. -/
theorem exists_reached (more : List Event) {p : System → Bool}
    (ends : (Run.replay System.step start (events ++ more)).any p = true) :
    ∃ σ, System.Reached (fun _ _ => True) σ ∧ p σ = true :=
  exists_run (events ++ more) ends

theorem exists_reached_while (ok : System → Event → Prop) [∀ σ event, Decidable (ok σ event)]
    (more : List Event) {p : System → Bool}
    (ends : (Run.replayWhile System.step (fun σ event => decide (ok σ event)) start
      (events ++ more)).any p = true) :
    ∃ σ, System.Reached ok σ ∧ p σ = true :=
  exists_run_while ok (events ++ more) ends

end Opened

end SctpStack
