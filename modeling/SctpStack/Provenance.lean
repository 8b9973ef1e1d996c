import SctpStack.Partition
import SctpStack.Ends

/-!
# Where DATA comes from

Every chunk of DATA that is queued for an association, is outstanding or goes out for it was
cut for it, however often it is sent again (`System.puts_from_cuts`).
-/

namespace SctpStack

/-- What is on its way for an association is among the chunks. -/
structure StemsFrom (chunks : List DataChunkValue) (s : Socket) (key : AssociationKey)
    (a : Association) : Prop where
  sent : ∀ tsn data, sentData a tsn = some data → data ∈ chunks
  queued : ∀ data ∈ queuedData s key, data ∈ chunks
  resent : ∀ p ∈ rtxData s key, p.2 ∈ chunks

/-- It is, once some more DATA was cut. -/
def Stems (key : AssociationKey) (chunks : List DataChunkValue) (s : Socket)
    (cut : List (AssociationKey × DataChunkValue)) :
    Prop :=
  ∀ a, s.find? key = some a → StemsFrom (chunks ++ cutFor key cut) s key a

section Stems

variable {chunks more : List DataChunkValue} {s s' : Socket} {key k : AssociationKey}
    {a b : Association}
  {cut : List (AssociationKey × DataChunkValue)}

namespace StemsFrom

theorem nothing (outstanding : ∀ tsn, sentData a tsn = none) (empty : NothingQueued s key) :
    StemsFrom chunks s key a where
  sent tsn data sent := by
    rw [outstanding] at sent
    cases sent
  queued data member := by
    rw [queuedData, empty.1] at member
    cases member
  resent p member := by
    rw [empty.2] at member
    cases member

/-- Nothing new is on its way. -/
theorem fewer (stems : StemsFrom chunks s key a)
    (sent : ∀ tsn data, sentData b tsn = some data → ∃ tsn, sentData a tsn = some data)
    (queued : newDataFor s' key = newDataFor s key)
    (resent : ∀ p ∈ rtxData s' key, p ∈ rtxData s key ∨ ∃ tsn, sentData b tsn = some p.2) :
    StemsFrom chunks s' key b := by
  have outstanding : ∀ tsn data, sentData b tsn = some data → data ∈ chunks := by
    intro tsn data here
    obtain ⟨tsn', before⟩ := sent tsn data here
    exact stems.sent tsn' data before
  refine ⟨outstanding, ?_, fun p member => ?_⟩
  · rw [queuedData_congr queued]
    exact stems.queued
  · rcases resent p member with before | ⟨tsn, here⟩
    · exact stems.resent p before
    · exact outstanding tsn p.2 here

theorem same (stems : StemsFrom chunks s key a)
    (outstanding : b.outstandingData = a.outstandingData) (queued : SameQueued s s' key) :
    StemsFrom chunks s' key b := by
  refine stems.fewer (fun tsn data sent => ⟨tsn, ?_⟩) queued.1 fun p member =>
    Or.inl (queued.2 ▸ member)
  rw [← sentData_congr outstanding]
  exact sent

theorem wider (stems : StemsFrom chunks s key a) (more : List DataChunkValue) :
    StemsFrom (chunks ++ more) s key a where
  sent tsn data sent := List.mem_append_left _ (stems.sent tsn data sent)
  queued data member := List.mem_append_left _ (stems.queued data member)
  resent p member := List.mem_append_left _ (stems.resent p member)

theorem sender (stems : StemsFrom chunks s key a) {gone : Tsn → Bool}
    (step : SenderStep key gone s s' a b) :
    StemsFrom chunks s' key b := by
  refine stems.fewer (fun tsn data sent => ⟨tsn, ?_⟩) step.newData fun p member => ?_
  · rw [step.sent] at sent
    split at sent
    · cases sent
    · exact sent
  · exact (step.rtx p member).imp And.left id

theorem cutMore (stems : StemsFrom chunks s key a) (step : CutStep key more s s' a b) :
    StemsFrom (chunks ++ more) s' key b := by
  have wide := stems.wider more
  have outstanding : b.outstandingData = a.outstandingData := by rw [step.only]
  -- Nothing is cut, or all that is queued is what was cut now.
  rcases step.newData with ⟨-, same⟩ | ⟨-, -, q, queue, carried, -⟩
  · exact wide.same outstanding ⟨same, step.rtx⟩
  · refine ⟨?_, fun data member => ?_, ?_⟩
    · intro tsn data sent
      rw [sentData_congr outstanding] at sent
      exact wide.sent tsn data sent
    · rw [queuedData, queue, List.flatMap_singleton, carried] at member
      exact List.mem_append_right _ member
    · rw [step.rtx]
      exact wide.resent

/-- What is picked is queued. -/
theorem picked {p : Pending} (stems : StemsFrom chunks s p.deliverable.location a)
    (picked : DataPicked s p) :
    ∀ data ∈ p.deliverable.packet.dataChunks, data ∈ chunks := by
  intro data inside
  rcases picked.queued with ⟨priority, -⟩ | ⟨q, -, member, as⟩
  · refine stems.resent (p.deliverable.destination.addr, data) ?_
    rw [picked.committed.rtx, if_pos priority]
    exact List.mem_append_left _ (List.mem_map_of_mem inside)
  · refine stems.queued data (List.mem_flatMap.mpr ⟨q, member, ?_⟩)
    rw [← as.dataChunks]
    exact inside

theorem wentOut {p : Pending} {sentAt : Time} (stems : StemsFrom chunks s p.deliverable.location a)
    (picked : DataPicked s p) (step : SentStep p sentAt s s' a)
    (placed : transmitsData a.state = true → p.deliverable.destination.addr ∈ a.ips) :
    StemsFrom chunks s' p.deliverable.location (afterSent a p sentAt) := by
  refine ⟨fun tsn data sent => ?_, fun data member => ?_, fun q member => ?_⟩
  · by_cases transmits : transmitsData a.state = true
    · rw [(afterSent_recorded sentAt transmits (placed transmits)).sent, Option.or_eq_some_iff]
        at sent
      rcases sent with before | ⟨-, here⟩
      · exact stems.sent tsn data before
      · exact stems.picked picked data (List.mem_of_find?_eq_some here)
    · have same : (afterSent a p sentAt).outstandingData = a.outstandingData := by
        unfold afterSent
        rw [if_neg transmits]
      rw [sentData_congr same] at sent
      exact stems.sent tsn data sent
  · refine stems.queued data ?_
    obtain ⟨q, inside, carried⟩ := List.mem_flatMap.mp member
    rw [step.newData] at inside
    refine List.mem_flatMap.mpr ⟨q, ?_, carried⟩
    split at inside
    · exact (List.mem_filter.mp inside).1
    · exact inside
  · refine stems.resent q ?_
    rw [step.rtx]
    exact List.mem_append_right _ member

end StemsFrom

/-- Nothing is done for the association, or only what is calm. -/
theorem Stems.keyStep (stems : Stems key chunks s cut) (step : KeyStep False s s' key) :
    Stems key chunks s' cut := by
  intro b after
  cases step with
  | absent _ gone => cases gone.symm.trans after
  | gone gone => cases gone.symm.trans after
  | fresh b' here new empty =>
    cases here.symm.trans after
    refine .nothing (fun tsn => ?_) empty
    rw [sentData, new.outstandingData]
    rfl
  | same a b' before here core queued _ =>
    cases here.symm.trans after
    exact (stems a before).same core.outstandingData queued

theorem Stems.aside (stems : Stems key chunks s cut) (aside : Aside True k s s') (other : key ≠ k) :
    Stems key chunks s' cut :=
  stems.keyStep (aside key other).weaken

theorem stems_keeps (key : AssociationKey) (chunks : List DataChunkValue) :
    Keeps (Stems key chunks) (Stems key chunks) where
  calm _ calm stems := stems.keyStep (calm.keys key)
  drain _ stems a found := (stems a found).same rfl ⟨rfl, rfl⟩
  opportunity {s} stems b found := by
    rw [Socket.startTransmissionOpportunity, Socket.find?, KeyMap.get?_mapVals,
      Option.map_eq_some_iff] at found
    obtain ⟨a, before, rfl⟩ := found
    exact (stems a before).same rfl ⟨rfl, rfl⟩
  resend {s s' k a b} _ step stems := by
    by_cases mine : key = k
    · subst mine
      intro c after
      cases step.step.found.symm.trans after
      exact (stems a step.found).sender step.step
    · exact stems.aside step.step.aside mine
  cuts {s s' k a b cut more} _ found _ step stems := by
    intro c after
    rw [cutFor_append, ← List.append_assoc]
    by_cases mine : key = k
    · subst mine
      cases step.found.symm.trans after
      rw [cutFor_self]
      exact (stems a found).cutMore step
    · rw [cutFor_other (Ne.symm mine), List.append_nil]
      exact stems.aside step.aside mine c after
  sent {s s' p sentAt a cut} ok out stems := by
    by_cases mine : key = p.deliverable.location
    · subst mine
      intro c after
      cases out.step.found.symm.trans after
      refine (stems a out.found).wentOut out.picked out.step fun transmits => ?_
      exact out.picked.placed (((ok.keys _).assoc a out.found).covered transmits)
    · exact stems.aside out.step.aside mine
  done stems := stems

theorem Stems.acked {chunk : Chunk} (stems : Stems key chunks s cut)
    (step : AckStep k chunk s s' a b) :
    Stems key chunks s' cut := by
  obtain ⟨gone, sender⟩ := step.sender
  by_cases mine : key = k
  · subst mine
    intro c after
    cases sender.found.symm.trans after
    exact (stems a step.found).sender sender
  · exact stems.aside sender.aside mine

theorem Stems.recorded (stems : Stems key chunks s cut) :
    Stems key (chunks ++ cutFor key cut) s [] := by
  intro a found
  rw [show cutFor key [] = [] from rfl, List.append_nil]
  exact stems a found

/-- A packet that goes out carries what was queued. -/
theorem Stems.picked {p : Pending} (stems : Stems p.deliverable.location chunks s cut)
    (ok : Orderly s everyDue) (picked : Picked s.sends p) :
    ∀ data ∈ p.deliverable.packet.dataChunks, data ∈ chunks
      ++ cutFor p.deliverable.location cut := by
  intro data inside
  have carries : DataPicked s p := by
    rcases packetSent_cases ok.queues picked 0 with ⟨old, -⟩ | carries
    · cases id picked with
      | control _ none =>
        rw [none] at inside
        cases inside
      | retransmission q rest priority head as kinds =>
        have some : p.deliverable.packet.dataChunks ≠ [] := List.ne_nil_of_mem inside
        exact ⟨kinds.resolve_left some, committed_retransmission priority head as,
          Or.inl ⟨priority, some⟩⟩
      | newData q priority => exact absurd priority old
    · exact carries
  cases found : s.find? p.deliverable.location with
  | none => exact absurd (ok.empty _ found) carries.not_nothing
  | some a => exact (stems a found).picked carries data inside

end Stems

/-- What is on its way for an association was cut for it, and so is what goes out. -/
theorem System.puts_from_cuts {σ σ' : System} {event : Event} {key : AssociationKey}
    {chunks : List DataChunkValue} (ok : Orderly σ.socket noneDue)
    (stepped : σ.step event = some σ') (stems : Stems key chunks σ.socket []) :
    Stems key (chunks ++ σ.cuts key event) σ'.socket []
      ∧ ∀ packet ∈ σ.puts key event, ∀ data ∈ packet.dataChunks, data ∈ chunks
        ++ σ.cuts key event := by
  have keeps := stems_keeps key chunks
  have along : Along (Stems key chunks) σ.socket [] := ⟨stems, ok.everyDue⟩
  have still : ∀ {s : Socket}, Stems key chunks s [] → Stems key (chunks ++ []) s [] := by
    intro s stems
    rw [List.append_nil]
    exact stems
  rcases System.step_cases stepped with ⟨now, draws, packet, src, rfl, -, rfl⟩ | ⟨now, draws, rfl,
    -, rfl⟩ | ⟨rfl, -, rfl⟩
    | ⟨now, accepted, left, rfl, -, rfl⟩ | ⟨s, called, rfl⟩
  · refine ⟨still (keeps.handlePacket now draws packet src ?_ along).1, fun _ none =>
      absurd none List.not_mem_nil⟩
    exact fun _ _ _ _ _ _ _ _ _ _ _ step stems => stems.acked step
  · exact ⟨still (keeps.runExpire now draws along).1, fun _ none => absurd none List.not_mem_nil⟩
  · exact ⟨still (keeps.opportunity stems), fun _ none => absurd none List.not_mem_nil⟩
  · refine ⟨Stems.recorded (keeps.sendOne now accepted left along), fun packet member data inside =>
      ?_⟩
    unfold System.puts at member
    cases accepted with
    | false => cases member
    | true =>
      simp only at member
      cases pending : (σ.socket.nextPacket now).pending with
      | none =>
        rw [pending] at member
        cases member
      | some p =>
        simp only [pending] at member
        split at member
        · next mine =>
          subst mine
          rw [List.mem_singleton.mp member] at inside
          -- The packet is picked after the cutting, so what it carries may be new.
          have next := Keeps.nextPacket (stems_keeps p.deliverable.location chunks) now along
          have refilled := (along.2.nextPacket now).1
          exact Stems.picked next.1 next.2 (picked_nextPacket refilled.queues pending) data inside
        · cases member
  · have calm := still (keeps.calm along.2 (Calm.call called ok.empty) stems)
    cases event with
    | recv | expire | startSending | send => cases called
    | _ => exact ⟨calm, fun _ none => absurd none List.not_mem_nil⟩

end SctpStack
