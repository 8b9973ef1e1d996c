import SctpStack.Continuity
import SctpStack.SendStream

/-!
# One end of a conversation

What a socket does for one of its associations, as its peer and the two applications can
tell: the messages it accepts, the DATA it cuts from them, the packets it puts out, and what
it hands up of the DATA it is sent. While the association goes on, the first two are a run
of a sender (`senderRun_step`), and the last answers to what the peer sent
(`receiverInv_step`).
-/

namespace SctpStack

/-! ## What a step does for one association -/

/-- What was cut for one key. -/
def cutFor (key : AssociationKey) (cut : List (AssociationKey × DataChunkValue)) :
    List DataChunkValue :=
  (cut.filter fun c => decide (c.1 = key)).map Prod.snd

namespace System

variable (σ : System) (key : AssociationKey)

/-- The message that is accepted for the association. -/
def accepts (event : Event) : List SentMessage :=
  match event with
  | .sendData k data stream unordered =>
    match σ.socket.find? key with
    | some assoc =>
      if k = key ∧ sendStatus assoc data stream = .ok then
        [⟨stream, if unordered then 0#16 else assoc.nextSsn.getD stream.toNat 0#16, unordered,
        data⟩]
      else []
    | none => []
  | _ => []

/-- The DATA that is cut for it. -/
def cuts (event : Event) : List DataChunkValue :=
  match event with
  | .send now _ => cutFor key (σ.socket.nextPacket now).cut
  | _ => []

/-- The packet that is put out for it. -/
def puts (event : Event) : List Packet :=
  match event with
  | .send now true =>
    match (σ.socket.nextPacket now).pending with
    | some pending => if pending.deliverable.location = key then [pending.deliverable.packet]
        else []
    | none => []
  | _ => []

/-- What the DATA of a packet for it finds: the socket once the other chunks are handled, and
the packet without the chunks nobody recognized; the flag says that a COOKIE ECHO led. -/
def meets (now : Time) (draws : Nat → Draws) (packet : Packet) (src : SockAddr) :
    Option (Socket × Packet × Bool) :=
  match σ.socket.dispatch now draws packet src with
  | some (s, k, carriedCookieEcho) =>
    if k = key then
      match s.afterChunks now draws packet k src carriedCookieEcho with
      | (false, s) => some (s, ⟨packet.header, (stripUnrecognized packet.chunks).1⟩,
          carriedCookieEcho)
      | (true, _) => none
    else none
  | none => none

end System

/-- One end of a conversation: the socket, the messages it accepted and the DATA it cut from
them, the packets it put out, how many ordered messages of a stream it passed on, and what it
handed up. -/
structure End where
  system : System
  messages : List SentMessage
  chunks : List DataChunkValue
  wire : List Packet
  passed : StreamId → Nat
  log : List Delivery

namespace End

/-- Its receiving side, while the socket is in some state. -/
def receiver (e : End) (s : Socket) : Receiver := ⟨s, e.passed, e.log, false⟩

/-- The receiving side once the DATA of an event was taken in. -/
def taken (e : End) (key : AssociationKey) (event : Event) : Receiver :=
  match event with
  | .recv now draws packet src =>
    match e.system.meets key now draws packet src with
    | some (s, packet, carriedCookieEcho) =>
        (e.receiver s).packet key now packet src carriedCookieEcho
    | none => e.receiver e.system.socket
  | _ => e.receiver e.system.socket

def step (key : AssociationKey) (e : End) (event : Event) : Option End :=
  (e.system.step event).map fun σ =>
    { system := σ
      messages := e.messages ++ e.system.accepts key event
      chunks := e.chunks ++ e.system.cuts key event
      wire := e.wire ++ e.system.puts key event
      passed := (e.taken key event).passed
      log := (e.taken key event).log }

end End

/-! ## The sender -/

section Sender

variable {cause : Cause → Prop} {start was a b : Association} {messages : List SentMessage}
    {chunks : List DataChunkValue}
  {key : AssociationKey} {s : Socket}

theorem cutFor_append (key : AssociationKey) (cut more : List (AssociationKey × DataChunkValue)) :
    cutFor key (cut ++ more) = cutFor key cut ++ cutFor key more := by
  rw [cutFor, List.filter_append, List.map_append]
  rfl

theorem cutFor_self (key : AssociationKey) (chunks : List DataChunkValue) :
    cutFor key (chunks.map (Prod.mk key)) = chunks := by
  unfold cutFor
  rw [List.filter_eq_self.mpr, List.map_map]
  · exact List.map_id chunks
  · intro c member
    obtain ⟨data, -, rfl⟩ := List.mem_map.mp member
    exact decide_eq_true rfl

theorem cutFor_other {k : AssociationKey} (other : k ≠ key) (chunks : List DataChunkValue) :
    cutFor key (chunks.map (Prod.mk k)) = [] := by
  unfold cutFor
  rw [List.filter_eq_nil_iff.mpr, List.map_nil]
  intro c member
  obtain ⟨data, -, rfl⟩ := List.mem_map.mp member
  simpa using other

/-- The association is where a run of the sender leads. -/
abbrev Sending (start was : Association) (messages : List SentMessage)
    (chunks : List DataChunkValue) (_ : Prop) :
    Association → Prop :=
  Enduring was fun a => SenderRun start ⟨a, messages, chunks⟩

theorem upkeep_sending (start was : Association) (messages : List SentMessage)
    (chunks : List DataChunkValue) (unasked : ¬cause .message) (uncut : ¬cause .cut) :
    Upkeep (some was) cause (Sending start was messages chunks) :=
  upkeep_enduring was fun continued run => .other _ run (continued.outbound unasked uncut)

/-- What is cut for the association while the queues are refilled. -/
theorem sending_refilled (now : Time) (held : Held (Sending start was messages chunks) [] key s) :
    Held (Sending start was messages (chunks ++ cutFor key (s.refilled now).cut)) [] key
      (s.refilled now).socket := by
  have upkeep : Upkeep (some was) (fun _ => False) (Sending start was messages chunks) :=
    upkeep_sending start was messages chunks id id
  have queued := upkeep.refillRetransmissions (s.sendAllowances now).2
    (upkeep.sendAllowances now held)
  refine List.foldlRecOn (motive := fun r : Socket.Refill =>
    Held (Sending start was messages (chunks ++ cutFor key r.cut)) [] key r.socket)
      (s.sendAllowances now).2.keys
    Socket.refillNewDataFor ?_ fun r holds k _ => ?_
  · rw [show cutFor key [] = [] from rfl, List.append_nil]
    exact queued
  · rcases refillNewDataFor_cases r k with same | ⟨allowance, a, -, found, -, -, -, -, done⟩
    · rw [same]
      exact holds
    · have cut : (Socket.refillNewDataFor r k).cut = r.cut
        ++ (cutNewData a allowance).chunks.map (Prod.mk k) := by
        rcases done with ⟨none, -, same⟩ | ⟨-, -, more⟩
        · rw [none, List.map_nil, List.append_nil]
          exact same
        · exact more
      have tcb : ∀ c, (Socket.refillNewDataFor r k).socket.find? c
          = (r.socket.setAssociation k (cutNewData a allowance).assoc).find? c := by
        intro c
        rcases done with ⟨-, socket, -⟩ | ⟨-, socket, -⟩
        · rw [socket]
        · rw [socket]
          rfl
      rw [cut, cutFor_append, ← List.append_assoc]
      intro c here
      rw [tcb, Socket.find?_setAssociation] at here
      split at here
      · next mine =>
        subst mine
        cases here
        rw [cutFor_self, cutNewData_only a allowance]
        intro same
        obtain ⟨up, run⟩ := holds a found same
        exact ⟨up, fun peer => by rw [← cutNewData_only a allowance]; exact .cut allowance (run
          peer)⟩
      · next other =>
        rw [cutFor_other (Ne.symm other), List.append_nil]
        exact holds c here

/-- It holds before the step. -/
theorem enduring_start {P : Association → Prop} {due : List ExpirationFallback}
    (found : s.find? key = some a) (up : forming a.state = false) (holds : P a) :
    Held (fun _ => Enduring a P) due key s := by
  intro b here
  cases found.symm.trans here
  exact fun _ => ⟨up, fun _ => holds⟩

/-- While an association goes on, the messages it accepts and the DATA it cuts from them are
a run of a sender. -/
theorem senderRun_step {σ σ' : System} {event : Event} (standing : Standing σ.socket)
    (stepped : σ.step event = some σ') (found : σ.socket.find? key = some a)
    (up : forming a.state = false) (after : σ'.socket.find? key = some b)
    (thisVerTag : b.thisVerTag = a.thisVerTag) (peerVerTag : b.peerVerTag = a.peerVerTag)
    (run : SenderRun start ⟨a, messages, chunks⟩) :
    SenderRun start ⟨b, messages ++ σ.accepts key event, chunks ++ σ.cuts key event⟩ := by
  have held : Held (Sending start a messages chunks) [] key σ.socket := enduring_start found up run
  have other : ¬event.Causes .message → ¬event.Causes .cut →
      SenderRun start ⟨b, messages, chunks⟩ := by
    intro unasked uncut
    have upkeep := upkeep_sending start a messages chunks unasked uncut
    exact ((upkeep.step standing stepped found (fun _ => id) held) b after thisVerTag).2 peerVerTag
  cases event with
  | send now accepted =>
    rcases System.step_cases stepped with ⟨_, _, _, _, is, -⟩ | ⟨_, _, is, -⟩ | ⟨is, -⟩ | ⟨_, _,
      left, is, -, rfl⟩
      | ⟨_, called, -⟩
    · cases is
    · cases is
    · cases is
    · cases is
      -- What is cut is cut before the packet is picked; the rest of the pass leaves the queue
      -- alone.
      have cut := sending_refilled now held
      have upkeep : Upkeep (some a) (fun c => c = .sent)
          (Sending start a messages (chunks ++ cutFor key (σ.socket.refilled now).cut)) :=
        upkeep_sending start a messages _ nofun nofun
      have done := upkeep.putOut rfl now accepted left (upkeep.prepared now cut)
      rw [← cut_nextPacket] at done
      rw [show σ.accepts key (.send now accepted) = [] from rfl, List.append_nil]
      exact (done b after thisVerTag).2 peerVerTag
    · cases called
  | sendData k data stream unordered =>
    have same : SenderRun start ⟨b, messages ++ σ.accepts key (.sendData k data stream unordered),
        chunks⟩ := by
      rcases System.step_cases stepped with ⟨_, _, _, _, is, -⟩ | ⟨_, _, is, -⟩ | ⟨is, -⟩ | ⟨_,
        _, _, is, -⟩
        | ⟨_, called, rfl⟩
      · cases is
      · cases is
      · cases is
      · cases is
      · cases called
        unfold System.accepts
        unfold Socket.sctpSendData at after
        simp only [found] at after ⊢
        by_cases mine : k = key
        · subst mine
          simp only [found] at after
          by_cases ok : sendStatus a data stream = .ok
          · rw [if_pos ok, Socket.find?_setAssociation, if_pos rfl] at after
            cases after
            rw [if_pos ⟨rfl, ok⟩]
            exact .accept data stream unordered run ok
          · rw [if_neg ok] at after
            cases found.symm.trans after
            rw [if_neg fun both => ok both.2, List.append_nil]
            exact run
        · have untouched : σ.socket.find? key = some b := by
            rw [← after]
            split
            · rfl
            · split
              · rw [Socket.find?_setAssociation, if_neg (Ne.symm mine)]
              · rfl
          cases found.symm.trans untouched
          rw [if_neg fun both => mine both.1, List.append_nil]
          exact run
    rw [show σ.cuts key (.sendData k data stream unordered) = [] from rfl, List.append_nil]
    exact same
  | _ =>
    have same : SenderRun start ⟨b, messages, chunks⟩ := by
      refine other (fun told => ?_) fun told => ?_
      · cases told
      · cases told
    rw [← List.append_nil messages, ← List.append_nil chunks] at same
    exact same

theorem System.step_recv {σ σ' : System} {now : Time} {draws : Nat → Draws} {packet : Packet}
    {src : SockAddr} (stepped : σ.step (.recv now draws packet src) = some σ') :
    σ'.socket = σ.socket.handlePacket now draws packet src := by
  rcases step_cases stepped with ⟨_, _, _, _, is, -, rfl⟩ | ⟨_, _, is, -⟩ | ⟨is, -⟩ | ⟨_, _, _,
    is, -⟩
    | ⟨_, called, -⟩
  · cases is
    rfl
  · cases is
  · cases is
  · cases is
  · cases called

/-- Nothing is done for the association unless the packet passes for one of its own. -/
theorem continued_unmatched {σ : System} (standing : Standing σ.socket) {now : Time}
    {draws : Nat → Draws} {packet : Packet} {src : SockAddr}
    (unmatched : ∀ s carried, σ.socket.dispatch now draws packet src ≠ some (s, key, carried))
    (found : σ.socket.find? key = some a) (up : forming a.state = false)
    (after : (σ.socket.handlePacket now draws packet src).find? key = some b)
    (thisVerTag : b.thisVerTag = a.thisVerTag) (peerVerTag : b.peerVerTag = a.peerVerTag) :
    Continued (fun _ => False) a b := by
  by_cases here : σ.socket.resolvedKey now packet src = key
  · cases gone : σ.socket.dispatch now draws packet src with
    | none =>
      have upkeep : Upkeep (some a) (fun _ => False) fun _ =>
          Enduring a (Continued (fun _ => False) a) :=
        upkeep_enduring a fun next before => before.trans next
      have held : Held (fun _ => Enduring a (Continued (fun _ => False) a)) [] key σ.socket :=
        enduring_start found up (.refl a)
      exact (upkeep.refused found now draws packet src here gone held b after thisVerTag).2
        peerVerTag
    | some entry =>
      obtain ⟨s, k, carried⟩ := entry
      obtain rfl : k = key := (Socket.resolvedKey_of_dispatch gone).symm.trans here
      exact absurd gone (unmatched s carried)
  · have deeds : Deeds (fun _ => True) _ σ.socket (σ.socket.handlePacket now draws packet src) :=
      (Deeds.handlePacket σ.socket now draws packet src (.all ..)).deeds of_unechoed
    have alone := (deeds.isolated standing).tcbs key (Ne.symm here)
    cases found.symm.trans (alone.symm.trans after)
    exact .refl a

/-- The Cumulative TSN Ack Point only goes where a packet of the peer says. -/
theorem acked_step {σ σ' : System} {event : Event} (standing : Standing σ.socket)
    (stepped : σ.step event = some σ') (found : σ.socket.find? key = some a)
    (up : forming a.state = false) (after : σ'.socket.find? key = some b)
    (thisVerTag : b.thisVerTag = a.thisVerTag) (peerVerTag : b.peerVerTag = a.peerVerTag) :
    b.cumulativeTsnAck = a.cumulativeTsnAck ∨ ∃ now draws packet src s carried, event
      = .recv now draws packet src
      ∧ σ.socket.dispatch now draws packet src = some (s, key, carried) ∧ b.cumulativeTsnAck
        ∈ packet.acks := by
  have upkeep : Upkeep (some a) event.Causes fun _ => Enduring a (Continued event.Causes a) :=
    upkeep_enduring a fun next before => before.trans next
  have goes := upkeep.step standing stepped found (fun _ => id) (enduring_start found up (.refl a))
    b after thisVerTag
  rcases (goes.2 peerVerTag).acked with same | ⟨chunk, told, acked⟩
  · exact Or.inl same
  · generalize is : Cause.chunk chunk.value = c at told
    cases told with
    | @chunk now draws packet src heard member =>
      by_cases matched : ∃ s carried, σ.socket.dispatch now draws packet src
        = some (s, key, carried)
      · obtain ⟨s, carried, gone⟩ := matched
        refine Or.inr ⟨now, draws, packet, src, s, carried, rfl, gone,
          List.mem_filterMap.mpr ⟨heard, member, ?_⟩⟩
        rw [← acked, Chunk.acked, Chunk.acked, Cause.chunk.inj is]
      · rw [System.step_recv stepped] at after
        have kept := continued_unmatched standing (fun s carried gone => matched ⟨s, carried, gone⟩)
          found up after thisVerTag peerVerTag
        rcases kept.acked with same | ⟨_, untold, -⟩
        · exact Or.inl same
        · exact untold.elim
    | data => cases is
    | message => cases is
    | cut => cases is
    | sent => cases is

end Sender

/-! ## The receiver -/

section Receiver

variable {a b : Association} {key : AssociationKey} {σ : System}

theorem upkeep_sameInbound {cause : Cause → Prop} (a : Association) (none : ¬cause .data) :
    Upkeep (some a) cause fun _ => Enduring a (SameInbound a) :=
  upkeep_enduring a fun continued same => same.trans (continued.inbound none)

/-- The packet is for the association: the chunks before its DATA leave alone what was
received. -/
theorem sameInbound_afterChunks {now : Time} {draws : Nat → Draws} {packet : Packet}
    {src : SockAddr} {s : Socket} {carried : Bool}
    (gone : σ.socket.dispatch now draws packet src = some (s, key, carried))
    (found : σ.socket.find? key = some a) (up : forming a.state = false)
    (after : (σ.socket.handlePacket now draws packet src).find? key = some b)
    (thisVerTag : b.thisVerTag = a.thisVerTag) (peerVerTag : b.peerVerTag = a.peerVerTag) :
    ∃ m, (s.afterChunks now draws packet key src carried).2.find? key = some m
      ∧ SameInbound a m := by
  have upkeep : Upkeep (some a) (fun c => c ≠ .data) fun _ => Enduring a (SameInbound a) :=
    upkeep_sameInbound a fun told => told rfl
  have held : Held (fun _ => Enduring a (SameInbound a)) [] key σ.socket :=
    enduring_start found up (.refl a)
  have handled : Held (fun _ => Enduring a (SameInbound a)) []
      key (s.afterChunks now draws packet key src carried).2 :=
    upkeep.afterChunks now draws src carried (fun _ _ told => by cases told)
      (upkeep.dispatched found now draws packet src gone held)
  generalize outcome : s.afterChunks now draws packet key src carried = chunks at handled ⊢
  obtain ⟨ended, s₁⟩ := chunks
  -- Had it other tags by then, it would have them to the end.
  have upkeep' : Upkeep (some a) (fun _ => True) fun _ => Enduring a fun _ => ∃ m, s₁.find? key
      = some m ∧ SameInbound a m :=
    upkeep_enduring a fun _ here => here
  have met : Held (fun _ => Enduring a fun _ => ∃ m, s₁.find? key = some m ∧ SameInbound a m) []
      key s₁ := by
    intro m here same
    exact ⟨(handled m here same).1, fun peer => ⟨m, here, (handled m here same).2 peer⟩⟩
  have ends : Held (fun _ => Enduring a fun _ => ∃ m, s₁.find? key = some m ∧ SameInbound a m)
      [] key (σ.socket.handlePacket now draws packet src) := by
    rcases handlePacket_dispatch σ.socket now draws packet src with ⟨none, -⟩ | ⟨s', k, carried',
      gone', -, same⟩
    · cases gone.symm.trans none
    · cases gone.symm.trans gone'
      rw [same, handleRest_eq, outcome]
      cases ended with
      | true => exact met
      | false =>
        have taken := upkeep'.handleDataPacket now ⟨packet.header,
          (stripUnrecognized packet.chunks).1⟩ src carried trivial met
        simp only
        split
        · exact taken
        · exact taken.reportUnrecognizedChunks packet.header src _
  exact (ends b after thisVerTag).2 peerVerTag

/-- No DATA of the packet is taken in for the association. -/
theorem sameInbound_unmet (standing : Standing σ.socket) {now : Time} {draws : Nat → Draws}
    {packet : Packet} {src : SockAddr} (unmet : σ.meets key now draws packet src = none)
    (found : σ.socket.find? key = some a) (up : forming a.state = false)
    (after : (σ.socket.handlePacket now draws packet src).find? key = some b)
    (thisVerTag : b.thisVerTag = a.thisVerTag) (peerVerTag : b.peerVerTag = a.peerVerTag) :
    SameInbound a b := by
  by_cases matched : ∃ s carried, σ.socket.dispatch now draws packet src = some (s, key, carried)
  · obtain ⟨s, carried, gone⟩ := matched
    obtain ⟨m, left, kept⟩ := sameInbound_afterChunks gone found up after thisVerTag peerVerTag
    rw [System.meets, gone] at unmet
    simp only [if_true] at unmet
    rcases handlePacket_dispatch σ.socket now draws packet src with ⟨none, -⟩ | ⟨s', k, carried',
      gone', -, same⟩
    · cases gone.symm.trans none
    · cases gone.symm.trans gone'
      rw [same, handleRest_eq] at after
      generalize s.afterChunks now draws packet key src carried = outcome at unmet after left
      obtain ⟨ended, s₁⟩ := outcome
      cases ended with
      | true =>
        cases left.symm.trans after
        exact kept
      | false => cases unmet
  · have kept := continued_unmatched standing (fun s carried gone => matched ⟨s, carried, gone⟩)
      found up after thisVerTag peerVerTag
    exact kept.inbound id

/-- The DATA of a packet for it is the sender's, and near. -/
def Heeding (sent : Sent) (key : AssociationKey) (e : End) (event : Event) : Prop :=
  ∀ now draws packet src s p carried, event = .recv now draws packet src →
    e.system.meets key now draws packet src = some (s, p, carried) →
    FromSender sent p.chunks ∧ PacketWithinReach sent key (e.receiver s) p carried

theorem find?_reportUnrecognizedChunks (s : Socket) (header : CommonHeader) (k : AssociationKey)
    (src : SockAddr) (causes : List ErrorCause) :
    (s.reportUnrecognizedChunks header k src causes).find? key = s.find? key := by
  unfold Socket.reportUnrecognizedChunks
  split
  · rfl
  · split
    · rfl
    · simp only
      split
      · rfl
      · rfl

theorem meets_spec {now : Time} {draws : Nat → Draws} {packet : Packet} {src : SockAddr}
    {s : Socket} {p : Packet} {carried : Bool}
    (met : σ.meets key now draws packet src = some (s, p, carried)) :
    ∃ s', σ.socket.dispatch now draws packet src = some (s', key, carried)
      ∧ s'.afterChunks now draws packet key src carried = (false, s)
      ∧ p = ⟨packet.header, (stripUnrecognized packet.chunks).1⟩
      ∧ (σ.socket.handlePacket now draws packet src).find? key
        = (s.handleDataPacket now p key src carried).find? key := by
  unfold System.meets at met
  rcases handlePacket_dispatch σ.socket now draws packet src with ⟨none, -⟩ | ⟨s', k, carried',
    gone, -, same⟩
  · rw [none] at met
    cases met
  · rw [gone] at met
    simp only at met
    split at met
    · next mine =>
      subst mine
      rw [same, handleRest_eq]
      generalize outcome : s'.afterChunks now draws packet k src carried' = chunks at met
      obtain ⟨ended, s₁⟩ := chunks
      cases ended with
      | true => cases met
      | false =>
        cases met
        refine ⟨s', gone, outcome, rfl, ?_⟩
        simp only
        split
        · rfl
        · exact find?_reportUnrecognizedChunks _ _ _ _ _
    · cases met

/-- While an association goes on, and its peer sends it nothing but its DATA, what it hands up
answers to what the peer sent. -/
theorem receiverInv_step {sent : Sent} {e : End} {event : Event} {σ' : System}
    (standing : Standing e.system.socket) (stepped : e.system.step event = some σ')
    (found : e.system.socket.find? key = some a) (up : forming a.state = false)
    (after : σ'.socket.find? key = some b) (thisVerTag : b.thisVerTag = a.thisVerTag)
    (peerVerTag : b.peerVerTag = a.peerVerTag)
    (inv : ReceiverInv sent key (e.receiver e.system.socket)) (heeding : Heeding sent key e event) :
    ReceiverInv sent key ⟨σ'.socket, (e.taken key event).passed, (e.taken key event).log,
      false⟩ := by
  have keeps : ∀ {s : Socket} {m : Association}, SameInbound a m → s.find? key = some m →
      KeepsInbound key e.system.socket s := by
    intro s m same here c there
    cases found.symm.trans there
    exact ⟨m, here, same⟩
  by_cases recv : ∃ now draws packet src, event = .recv now draws packet src
  · obtain ⟨now, draws, packet, src, rfl⟩ := recv
    rw [System.step_recv stepped] at after ⊢
    cases met : e.system.meets key now draws packet src with
    | none =>
      have taken : e.taken key (.recv now draws packet src) = e.receiver e.system.socket := by
        simp only [End.taken, met]
      rw [taken]
      exact receiverInv_keep inv (keeps
        (sameInbound_unmet standing met found up after thisVerTag peerVerTag) after)
    | some entry =>
      obtain ⟨s, p, carried⟩ := entry
      have taken : e.taken key (.recv now draws packet src)
          = (e.receiver s).packet key now p src carried := by
        simp only [End.taken, met]
      rw [taken]
      obtain ⟨ours, within⟩ := heeding now draws packet src s p carried rfl met
      obtain ⟨s', gone, chunks, -, same⟩ := meets_spec met
      -- The chunks before the DATA leave alone what was received, and so does what follows it.
      obtain ⟨m, here, kept⟩ := sameInbound_afterChunks gone found up after thisVerTag peerVerTag
      rw [chunks] at here
      have before : ReceiverInv sent key (e.receiver s) := receiverInv_keep inv (keeps kept here)
      have left := receiverInv_keep (receiverInv_packet before now src ours within)
        (KeepsInbound.of_same same)
      exact ⟨rfl, left.tracks⟩
  · have taken : e.taken key event = e.receiver e.system.socket := by
      unfold End.taken
      split
      · next now draws packet src => exact absurd ⟨now, draws, packet, src, rfl⟩ recv
      · rfl
    have none : ¬event.Causes .data := by
      intro told
      cases told
      exact recv ⟨_, _, _, _, rfl⟩
    have upkeep := upkeep_sameInbound a none
    have same := upkeep.step standing stepped found (fun _ => id)
      (enduring_start found up (.refl a)) b after thisVerTag
    rw [taken]
    exact receiverInv_keep inv (keeps (same.2 peerVerTag) after)

end Receiver

end SctpStack
