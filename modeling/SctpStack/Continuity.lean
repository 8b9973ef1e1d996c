import SctpStack.UpkeepSteps
import SctpStack.Receiver

/-!
# An association that goes on

While an association keeps its tags it is the same association: a step changes what it
sends only with a message of the application or by cutting DATA, what it received only with
DATA, and its Cumulative TSN Ack Point only with a chunk that acknowledges (`Continued`).
Whatever such changes keep, every step keeps, and so does every part of a step
(`upkeep_enduring`).
-/

namespace SctpStack

/-- What becomes of an association in what `cause` tells of. -/
structure Continued (cause : Cause → Prop) (a b : Association) : Prop where
  outbound : ¬cause .message → ¬cause .cut → SameOutbound a b
  inbound : ¬cause .data → SameInbound a b
  acked : b.cumulativeTsnAck = a.cumulativeTsnAck
    ∨ ∃ chunk : Chunk, cause (.chunk chunk.value) ∧ chunk.acked = some b.cumulativeTsnAck

/-- The association is up under its tag, and `P` holds of it while the peer's tag is the same. -/
def Enduring (start : Association) (P : Association → Prop) (a : Association) : Prop :=
  a.thisVerTag = start.thisVerTag → forming a.state = false
    ∧ (a.peerVerTag = start.peerVerTag → P a)

section Continued

variable {cause : Cause → Prop} {start a b c : Association} {P : Association → Prop}

theorem SameOutbound.refl (a : Association) : SameOutbound a a := ⟨rfl, rfl, rfl, rfl, rfl⟩

theorem SameOutbound.trans (first : SameOutbound a b) (second : SameOutbound b c) :
    SameOutbound a c := by
  obtain ⟨outbound, nextTsn, nextSsn, outStreams, pmdcs⟩ := first
  obtain ⟨outbound', nextTsn', nextSsn', outStreams', pmdcs'⟩ := second
  exact ⟨outbound'.trans outbound, nextTsn'.trans nextTsn, nextSsn'.trans nextSsn,
    outStreams'.trans outStreams, pmdcs'.trans pmdcs⟩

theorem Continued.of_same (outbound : SameOutbound a b) (inbound : SameInbound a b)
    (acked : b.cumulativeTsnAck = a.cumulativeTsnAck) : Continued cause a b :=
  ⟨fun _ _ => outbound, fun _ => inbound, Or.inl acked⟩

theorem Continued.refl (a : Association) : Continued cause a a := .of_same (.refl a) (.refl a) rfl

theorem Continued.trans (first : Continued cause a b) (second : Continued cause b c) :
    Continued cause a c where
  outbound none uncut := (first.outbound none uncut).trans (second.outbound none uncut)
  inbound none := (first.inbound none).trans (second.inbound none)
  acked := by
    rcases second.acked with same | told
    · rw [same]
      exact first.acked
    · exact Or.inr told

theorem Continued.of_figures (figures : b.figures = a.figures) : Continued cause a b := by
  refine .of_same ⟨?_, ?_, ?_, ?_, ?_⟩ ⟨?_, ?_, ?_, ?_, ?_, ?_⟩
    (congrArg Figures.cumulativeTsnAck figures)
  · exact congrArg Figures.outbound figures
  · exact congrArg Figures.nextTsn figures
  · exact congrArg Figures.nextSsn figures
  · exact congrArg Figures.outStreams figures
  · exact congrArg Figures.pmdcs figures
  · exact congrArg Figures.reassembly figures
  · exact congrArg Figures.inboundStreams figures
  · exact congrArg Figures.heldDeliveries figures
  · exact congrArg Figures.tsnOooBuffer figures
  · exact congrArg Figures.lastPeerTsn figures
  · exact congrArg Figures.inStreams figures

theorem Continued.sent (a : Association) (destination : SockAddr) (data : DataChunkValue)
    (sentAt : Time) :
    Continued cause a (recordDataSentIn a destination data sentAt) := by
  unfold recordDataSentIn
  simp only
  split
  · exact .of_same ⟨rfl, rfl, rfl, rfl, rfl⟩ ⟨rfl, rfl, rfl, rfl, rfl, rfl⟩ rfl
  · exact .of_same ⟨rfl, rfl, rfl, rfl, rfl⟩ ⟨rfl, rfl, rfl, rfl, rfl, rfl⟩ rfl

theorem Continued.acknowledged (a : Association) (sack : SackChunkValue) (now : Time)
    (told : cause (.chunk (.sack sack))) :
    Continued cause a (acknowledgeEntries a sack now) := by
  have acked : ∃ chunk : Chunk, cause (.chunk chunk.value)
      ∧ chunk.acked = some sack.cumulativeTsnAck :=
    ⟨⟨0#8, .sack sack⟩, told, rfl⟩
  unfold acknowledgeEntries
  simp only
  split
  · exact ⟨fun _ _ => ⟨rfl, rfl, rfl, rfl, rfl⟩, fun _ => ⟨rfl, rfl, rfl, rfl, rfl, rfl⟩,
      Or.inr acked⟩
  · exact ⟨fun _ _ => ⟨rfl, rfl, rfl, rfl, rfl⟩, fun _ => ⟨rfl, rfl, rfl, rfl, rfl, rfl⟩,
      Or.inr acked⟩

theorem tags_recordDataSentIn (a : Association) (destination : SockAddr) (data : DataChunkValue)
    (sentAt : Time) :
    (recordDataSentIn a destination data sentAt).thisVerTag = a.thisVerTag
      ∧ (recordDataSentIn a destination data sentAt).peerVerTag = a.peerVerTag
      ∧ (recordDataSentIn a destination data sentAt).state = a.state := by
  unfold recordDataSentIn
  simp only
  split
  · exact ⟨rfl, rfl, rfl⟩
  · exact ⟨rfl, rfl, rfl⟩

theorem tags_acknowledgeEntries (a : Association) (sack : SackChunkValue) (now : Time) :
    (acknowledgeEntries a sack now).thisVerTag = a.thisVerTag
      ∧ (acknowledgeEntries a sack now).peerVerTag = a.peerVerTag
      ∧ (acknowledgeEntries a sack now).state = a.state := by
  unfold acknowledgeEntries
  simp only
  split
  · exact ⟨rfl, rfl, rfl⟩
  · exact ⟨rfl, rfl, rfl⟩

theorem Enduring.of_other (other : a.thisVerTag ≠ start.thisVerTag) : Enduring start P a :=
  fun same => absurd same other

/-- An association that is forming has another tag by now. -/
theorem Enduring.forms (enduring : Enduring start P a) (forms : forming a.state = true) :
    a.thisVerTag ≠ start.thisVerTag := by
  intro same
  have up := (enduring same).1
  rw [forms] at up
  cases up

theorem Enduring.goesOn (enduring : Enduring start P a)
    (keeps : ∀ {x y}, Continued cause x y → P x → P y) (thisVerTag : b.thisVerTag = a.thisVerTag)
    (peerVerTag : b.peerVerTag = a.peerVerTag)
    (up : forming b.state = true → forming a.state = true) (continued : Continued cause a b) :
    Enduring start P b := by
  intro same
  obtain ⟨isUp, holds⟩ := enduring (thisVerTag.symm.trans same)
  refine ⟨?_, fun peer => keeps continued (holds (peerVerTag.symm.trans peer))⟩
  cases forms : forming b.state with
  | false => rfl
  | true =>
    rw [up forms] at isUp
    cases isUp

/-- What is kept while an association goes on is kept by all that is done to it. -/
theorem upkeep_enduring (start : Association) (keeps : ∀ {x y}, Continued cause x y → P x → P y) :
    Upkeep (some start) cause fun _ => Enduring start P where
  opened _ _ _ none := absurd none (Option.some_ne_none start)
  created _ _ none := absurd none (Option.some_ne_none start)
  restarted _ cookie was other := by
    cases was
    exact .of_other other
  collided {r a b} cookie was other enduring := by
    cases was
    exact fun same => ⟨(enduring same).1, fun peer => absurd peer other⟩
  answered {r a} initAck waits enduring := .of_other (enduring.forms (by rw [waits]; rfl))
  retried forms enduring := .of_other (enduring.forms forms)
  adjusted figures _ _ enduring := by
    have state := congrArg (forming ∘ Figures.state) figures
    exact enduring.goesOn keeps (congrArg Figures.thisVerTag figures)
      (congrArg Figures.peerVerTag figures) state.symm.trans (.of_figures figures)
  listed address enduring := by
    rw [withPath_only]
    exact enduring.goesOn keeps rfl rfl id
      (.of_same ⟨rfl, rfl, rfl, rfl, rfl⟩ ⟨rfl, rfl, rfl, rfl, rfl, rfl⟩ rfl)
  onward state proceeds enduring :=
    enduring.goesOn keeps rfl rfl proceeds.2
      (.of_same ⟨rfl, rfl, rfl, rfl, rfl⟩ ⟨rfl, rfl, rfl, rfl, rfl, rfl⟩ rfl)
  undelayed _ enduring := enduring
  heard enduring := enduring.goesOn keeps rfl rfl id
    (.of_same ⟨rfl, rfl, rfl, rfl, rfl⟩ ⟨rfl, rfl, rfl, rfl, rfl, rfl⟩ rfl)
  missed _ enduring := enduring.goesOn keeps rfl rfl
    id (.of_same ⟨rfl, rfl, rfl, rfl, rfl⟩ ⟨rfl, rfl, rfl, rfl, rfl, rfl⟩ rfl)
  queued data stream unordered told enduring := by
    refine enduring.goesOn keeps rfl rfl id ⟨fun none => absurd told none, fun _ => ?_, Or.inl rfl⟩
    exact ⟨rfl, rfl, rfl, rfl, rfl, rfl⟩
  cut {r a} allowance told enduring := by
    rw [cutNewData_only a allowance]
    refine enduring.goesOn keeps rfl rfl id ⟨fun _ uncut => absurd told uncut, fun _ => ?_,
      Or.inl rfl⟩
    exact ⟨rfl, rfl, rfl, rfl, rfl, rfl⟩
  sent {r a} destination data sentAt _ enduring := by
    obtain ⟨thisVerTag, peerVerTag, state⟩ := tags_recordDataSentIn a destination data sentAt
    exact enduring.goesOn keeps thisVerTag peerVerTag (congrArg forming state).symm.trans
      (.sent a destination data sentAt)
  marked f _ enduring :=
    enduring.goesOn keeps rfl rfl id (.of_same ⟨rfl, rfl, rfl, rfl, rfl⟩ ⟨rfl, rfl, rfl, rfl, rfl,
      rfl⟩ rfl)
  acked {r a} sack now told enduring := by
    obtain ⟨thisVerTag, peerVerTag, state⟩ := tags_acknowledgeEntries a sack now
    exact enduring.goesOn keeps thisVerTag peerVerTag (congrArg forming state).symm.trans
      (.acknowledged a sack now told)
  ackedByShutdown cumulativeTsnAck told enduring := by
    refine enduring.goesOn keeps rfl rfl id ⟨fun _ _ => ⟨rfl, rfl, rfl, rfl, rfl⟩,
      fun _ => ⟨rfl, rfl, rfl, rfl, rfl, rfl⟩, ?_⟩
    exact Or.inr ⟨⟨0#8, .shutdown cumulativeTsnAck⟩, told, rfl⟩
  timed tsn _ enduring :=
    enduring.goesOn keeps rfl rfl id (.of_same ⟨rfl, rfl, rfl, rfl, rfl⟩ ⟨rfl, rfl, rfl, rfl, rfl,
      rfl⟩ rfl)
  received told only enduring := by
    rw [only]
    exact enduring.goesOn keeps rfl rfl id ⟨fun _ _ => ⟨rfl, rfl, rfl, rfl, rfl⟩,
      fun none => absurd told none, Or.inl rfl⟩
  reported enduring := enduring.goesOn keeps rfl rfl
    id (.of_same ⟨rfl, rfl, rfl, rfl, rfl⟩ ⟨rfl, rfl, rfl, rfl, rfl, rfl⟩ rfl)
  delayed _ _ enduring := enduring.goesOn keeps rfl rfl id
    (.of_same ⟨rfl, rfl, rfl, rfl, rfl⟩ ⟨rfl, rfl, rfl, rfl, rfl, rfl⟩ rfl)

end Continued

end SctpStack
