import SctpStack.GapBlocks
import SctpStack.Kept
import SctpStack.Codec

/-!
# DATA and the path MTU

Whatever was cut, bundled again or left over when chunks were acknowledged, a packet in
the queues carries no more DATA than the path takes (`QueuesFit`), and so does every
chunk that may be bundled again (`LightData`): together `Sized`, which every step keeps.
A SACK goes in front of DATA only where the encoded packet has room for it.

`data_packets_fit` is about the bytes of the packet themselves.
-/

namespace SctpStack

/-! ## Runs -/

/-- What is queued and what is outstanding fits. -/
structure Sized (s : Socket) : Prop where
  fit : QueuesFit s
  light : ∀ key a, s.find? key = some a → LightData a

namespace Sized

variable {s s' : Socket} {key : AssociationKey}

theorem light_same {a b : Association} (light : LightData a)
    (same : b.outstandingData = a.outstandingData) :
    LightData b := by
  refine light.of_sentData fun tsn data sent => ?_
  rwa [sentData, same] at sent

theorem light_fresh {strict : Prop} {a : Association} (fresh : FreshAssoc strict a) :
    LightData a := by
  intro tsn data sent
  rw [sentData, fresh.outstandingData] at sent
  cases sent

/-- A calm step leaves the DATA of an association as it was, or there is none. -/
theorem light_keyStep {strict : Prop} (step : KeyStep strict s s' key)
    (light : ∀ a, s.find? key = some a → LightData a) :
    ∀ b, s'.find? key = some b → LightData b := by
  intro b found
  cases step with
  | absent _ gone => rw [found] at gone; cases gone
  | gone gone => rw [found] at gone; cases gone
  | fresh b' here new =>
    rw [found] at here
    cases here
    exact light_fresh new
  | same a b' before here core =>
    rw [found] at here
    cases here
    exact light_same (light a before) core.outstandingData

theorem calm {strict : Prop} (calm : Calm strict s s') (sized : Sized s) : Sized s' :=
  ⟨sized.fit.of_background calm.background, fun k => light_keyStep (calm.keys k) (sized.light k)⟩

/-- A step on one association, the others left alone. -/
theorem aside {strict : Prop} {b : Association} (sized : Sized s) (aside : Aside strict key s s')
    (found : s'.find? key = some b) (fit : QueuesFit s') (light : LightData b) : Sized s' := by
  refine ⟨fit, fun k c here => ?_⟩
  by_cases mine : k = key
  · rw [mine, found] at here
    cases here
    exact light
  · exact light_keyStep (aside k mine) (sized.light k) c here

theorem sender {gone : Tsn → Bool} {a b : Association} (sized : Sized s) (ok : PathsOk a)
    (found : s.find? key = some a) (step : SenderStep key gone s s' a b) : Sized s' := by
  have light := sized.light key a found
  exact sized.aside step.aside step.found (step.fit ok light sized.fit) (step.light light)

theorem cut {chunks : List DataChunkValue} {a b : Association} (sized : Sized s) (ok : PathsOk a)
    (found : s.find? key = some a) (step : CutStep key chunks s s' a b) : Sized s' := by
  refine sized.aside step.aside step.found (step.fit ok sized.fit) ?_
  exact light_same (sized.light key a found) (by rw [step.only])

/-- The DATA of a packet picked from the queues. -/
theorem picked {p : Pending} (sized : Sized s) (picked : DataPicked s p) {data : DataChunkValue}
    (member : data ∈ p.deliverable.packet.dataChunks) : dataChunkWireSize data ≤ defaultPmdcs := by
  rcases picked.queued with ⟨priority, -⟩ | ⟨q, -, queued, as⟩
  · have here : (p.deliverable.destination.addr, data) ∈ rtxData s p.deliverable.location := by
      rw [picked.committed.rtx, if_pos priority]
      exact List.mem_append_left _ (List.mem_map_of_mem member)
    exact sized.fit.rtx here
  · rw [as.dataChunks] at member
    exact (sized.fit.newData q (List.mem_of_mem_filter queued)).chunk member

theorem sent {p : Pending} {sentAt : Time} {a : Association} (sized : Sized s)
    (ok : Orderly s everyDue) (out : OutStep p sentAt s s' a) : Sized s' := by
  have light := sized.light _ a out.found
  refine sized.aside out.step.aside out.step.found (out.step.fit sized.fit) ?_
  cases transmits : transmitsData a.state with
  | false =>
    rw [afterSent_silent p sentAt transmits]
    exact light_same light rfl
  | true =>
    have covered := ((ok.keys _).assoc a out.found).covered transmits
    have recorded := afterSent_recorded sentAt transmits (out.picked.placed covered)
    intro tsn data here
    rw [recorded.sent, Option.or_eq_some_iff] at here
    rcases here with before | ⟨-, new⟩
    · exact light tsn data before
    · exact sized.picked out.picked (List.mem_of_find?_eq_some new)

end Sized

theorem keeps_sized : Keeps (fun s _ => Sized s) (fun s _ => Sized s) where
  calm := fun _ calm sized => sized.calm calm
  drain := fun _ sized => ⟨sized.fit.of_sends rfl, sized.light⟩
  opportunity := by
    intro s sized
    refine ⟨sized.fit.of_sends rfl, fun key b found => ?_⟩
    obtain ⟨a, before, rfl⟩ := Option.map_eq_some_iff.mp
      ((KeyMap.get?_mapVals _ _ _).symm.trans found)
    exact Sized.light_same (sized.light key a before) rfl
  resend := fun ok resend sized => sized.sender ((ok.keys _).assoc _ resend.found).paths
    resend.found resend.step
  cuts := fun ok found _ step sized => sized.cut ((ok.keys _).assoc _ found).paths found step
  sent := fun ok out sized => sized.sent ok out
  done := id

theorem sized_reached {allowed : System → Event → Prop} {σ : System}
    (reached : System.Reached allowed σ) :
    Sized σ.socket := by
  refine (reached.invariant (fun σ => Orderly σ.socket noneDue ∧ Sized σ.socket)
    ?_ fun σ event σ' holds _ stepped => ?_).2
  · rintro _ ⟨address, rfl⟩
    refine ⟨.fresh address, ⟨?_, ?_⟩, fun key a found => ?_⟩
    · simp [Socket.fresh, SendQueue.fresh]
    · simp [Socket.fresh, SendQueue.fresh]
    · cases found
  · refine ⟨holds.1.step stepped, ?_⟩
    obtain ⟨cut, sized, -⟩ := System.step_keeps keeps_sized holds.1
      (fun _ _ _ _ _ _ _ _ _ _ _ _ _ a b ok step sized => by
        obtain ⟨gone, sender⟩ := step.sender
        exact sized.sender ((ok.keys _).assoc a step.found).paths step.found sender) holds.2 stepped
    exact sized

/-! ## Bytes -/

/-- What chunks take on the wire. -/
def encodedSize (chunks : List Chunk) :
    Nat := (chunks.map fun chunk => pad4 (chunk.wireLength % 65536)).sum

theorem encodedSize_append (first rest : List Chunk) :
    encodedSize (first ++ rest) = encodedSize first + encodedSize rest := by
  unfold encodedSize
  rw [List.map_append, List.sum_append]

/-- A DATA chunk takes what it is charged for. -/
theorem encodedSize_data {data : DataChunkValue} (light : dataChunkWireSize data ≤ defaultPmdcs)
    {chunk : Chunk} (value : chunk.value = .data data) :
    pad4 (chunk.wireLength % 65536) = dataChunkWireSize data := by
  simp only [Chunk.wireLength, value, ChunkValue.bodySize, sctpChunkHeaderSize]
  unfold dataChunkWireSize dataChunkHeaderSize defaultPmdcs pad4 at *
  omega

/-- So does a packet of nothing else. -/
theorem encodedSize_dataChunks {header : CommonHeader} {chunks : List Chunk}
    (only : ∀ chunk ∈ chunks, chunk.type = .data)
    (light : ∀ data ∈ Packet.dataChunks ⟨header, chunks⟩, dataChunkWireSize data ≤ defaultPmdcs) :
    encodedSize chunks = dataBytes ⟨header, chunks⟩ := by
  induction chunks with
  | nil => rfl
  | cons chunk rest ih =>
    rw [dataChunks_cons] at light
    have later := ih (fun c member => only c (List.mem_cons_of_mem _ member))
      fun data member => light data (List.mem_append_right _ member)
    have kind := only chunk List.mem_cons_self
    rw [dataBytes, dataChunks_cons, List.map_append, List.sum_append]
    rw [encodedSize, List.map_cons, List.sum_cons]
    change _ + encodedSize rest = _ + dataBytes _
    rw [later]
    cases value : chunk.value with
    | data data =>
      rw [value] at light
      rw [encodedSize_data (light data (List.mem_append_left _ List.mem_cons_self)) value]
      rfl
    | _ => simp [Chunk.type, value] at kind

/-- What the DATA chunks among others take of their parts. -/
def dataPartsSize (chunks : List Chunk) (parts : List Bytes) : Nat :=
  ((chunks.zip parts).map fun entry => if entry.1.type = .data then entry.2.length else 0).sum

theorem dataBytes_eq {header : CommonHeader} {chunks : List Chunk} {parts : List Bytes}
    (each : List.Forall₂ (fun chunk part => ∀ data, chunk.value = .data data → part.length
      = dataChunkWireSize data) chunks parts) : dataBytes ⟨header, chunks⟩
        = dataPartsSize chunks parts := by
  induction each with
  | nil => rfl
  | @cons chunk part chunks parts charged _ ih =>
    rw [dataBytes, dataChunks_cons, List.map_append, List.sum_append]
    change _ + dataBytes ⟨header, chunks⟩
      = (if chunk.type = .data then part.length else 0) + dataPartsSize chunks parts
    rw [ih]
    cases value : chunk.value with
    | data data => simp [Chunk.type, value, charged data value]
    | _ => simp [Chunk.type, value]

/-- The bytes of a packet and the part of each chunk in them, a DATA chunk's as long as
what it is charged for. -/
structure OnPath (pmdcs : Nat) (packet : Packet) (bytes : Bytes) (parts : List Bytes) : Prop where
  encoded : serializeSctpPacket packet = some bytes
  short : bytes.length ≤ sctpCommonHeaderSize + pmdcs
  body : bytes.drop sctpCommonHeaderSize = parts.flatten
  chunks : List.Forall₂ (fun chunk part => serializeChunk chunk = some part
    ∧ ∀ data, chunk.value = .data data → part.length = dataChunkWireSize data) packet.chunks parts
  charged : dataBytes packet = dataPartsSize packet.chunks parts

theorem OnPath.of_size {pmdcs : Nat} {packet : Packet}
    (accepted : ∀ chunk ∈ packet.chunks, ¬chunk.value.Refused)
    (light : ∀ data ∈ packet.dataChunks, dataChunkWireSize data ≤ defaultPmdcs)
    (room : encodedSize packet.chunks ≤ pmdcs) :
    ∃ bytes parts, OnPath pmdcs packet bytes parts := by
  cases encoded : serializeSctpPacket packet with
  | none =>
    obtain ⟨chunk, member, refused⟩ := serializeSctpPacket_eq_none.mp encoded
    exact absurd refused (accepted chunk member)
  | some bytes =>
    obtain ⟨out, written, layout⟩ := serializeSctpPacket_layout encoded
    obtain ⟨parts, each, whole⟩ := serializeChunks_parts written
    have sized : List.Forall₂ (fun chunk part => serializeChunk chunk = some part
        ∧ ∀ data, chunk.value = .data data → part.length = dataChunkWireSize data) packet.chunks
          parts := by
      rw [List.forall₂_iff_zip] at each ⊢
      refine ⟨each.1, fun {chunk part} member => ⟨each.2 member, fun data value => ?_⟩⟩
      have inside : data ∈ packet.dataChunks :=
        List.mem_filterMap.mpr ⟨chunk, (List.of_mem_zip member).1, by simp [value]⟩
      rw [length_serializeChunk (each.2 member), encodedSize_data (light data inside) value]
    refine ⟨bytes, parts, encoded, ?_, ?_, sized, dataBytes_eq (sized.imp fun _ _ both => both.2)⟩
    · rw [length_serializeSctpPacket encoded]
      exact Nat.add_le_add_left room _
    · rw [layout, ← whole]
      rfl

/-! ## On the way out -/

theorem accepted_of_data {chunk : Chunk} (kind : chunk.type = .data) : ¬chunk.value.Refused := by
  intro refused
  cases value : chunk.value with
  | data data =>
    rw [value] at refused
    exact refused
  | _ => simp [Chunk.type, value] at kind

theorem packetSize_eq {packet : Packet} (accepted : ∀ chunk ∈ packet.chunks, ¬chunk.value.Refused) :
    packetSize packet = sctpCommonHeaderSize + encodedSize packet.chunks := by
  unfold packetSize
  cases encoded : serializeSctpPacket packet with
  | none =>
    obtain ⟨chunk, member, refused⟩ := serializeSctpPacket_eq_none.mp encoded
    exact absurd refused (accepted chunk member)
  | some bytes =>
    rw [Option.getD_some]
    exact length_serializeSctpPacket encoded

/-- A packet of DATA on its way, and a SACK in front of it where that fits. -/
theorem onPath_bundled {packet : Packet} (only : OnlyData packet) (fits : FitsPath packet)
    {a : Association} (reportable : Reportable a) (s : Socket) (key : AssociationKey) :
    (∃ bytes parts, OnPath defaultPmdcs packet bytes parts)
    ∧ (packetSize packet + (packetSize (s.makeSack key a).1 - sctpCommonHeaderSize)
      ≤ sctpCommonHeaderSize + defaultPmdcs →
        ∃ bytes parts, OnPath defaultPmdcs
          { packet with chunks := (s.makeSack key a).1.chunks.take 1 ++ packet.chunks }
            bytes parts) := by
  have light : ∀ data ∈ packet.dataChunks, dataChunkWireSize data ≤ defaultPmdcs :=
    fun data member => fits.chunk member
  have accepted : ∀ chunk ∈ packet.chunks, ¬chunk.value.Refused := fun chunk member =>
    accepted_of_data (only chunk member)
  have size : encodedSize packet.chunks = dataBytes packet := encodedSize_dataChunks only light
  refine ⟨OnPath.of_size accepted light (size.le.trans fits), fun room => ?_⟩
  have few : a.duplicateTsns.length ≤ 65535 := by
    rw [reportable.duplicates]
    exact Nat.zero_le _
  obtain ⟨sack, alone, exact_⟩ := makeSack_exact s key reportable.toPastGap few
  have sackAccepted : ∀ chunk ∈ [(⟨0#8, .sack sack⟩ : Chunk)], ¬chunk.value.Refused := by
    intro chunk member
    rw [List.mem_singleton.mp member]
    exact exact_.accepted
  rw [packetSize_eq accepted, packetSize_eq (alone ▸ sackAccepted), alone] at room
  rw [alone]
  refine OnPath.of_size ?_ (fun data member => light data ?_) ?_
  · intro chunk member
    rcases List.mem_append.mp member with first | rest
    · exact sackAccepted chunk first
    · exact accepted chunk rest
  · change data ∈ Packet.dataChunks ⟨packet.header, ⟨0#8, .sack sack⟩ :: packet.chunks⟩ at member
    rw [dataChunks_cons] at member
    exact member
  · rw [encodedSize_append, List.take_succ_cons, List.take_zero]
    omega

theorem prepareDataPacket_onPath {s : Socket} {d : Deliverable} {a : Association}
    (found : s.find? d.location = some a) (ok : PathsOk a) (only : OnlyData d.packet)
    (fits : FitsPath d.packet) (reportable : Reportable a) (newData : Bool) :
    ∃ bytes parts, OnPath defaultPmdcs (s.prepareDataPacket d newData).2.packet bytes parts := by
  -- the I bit changes neither the kinds of the chunks nor their sizes
  have flagged : ∀ immediate : Bool,
      OnlyData ⟨d.packet.header, if immediate then setImmediate d.packet.chunks
        else d.packet.chunks⟩
        ∧ FitsPath ⟨d.packet.header, if immediate then setImmediate d.packet.chunks
          else d.packet.chunks⟩ := by
    intro immediate
    have values : (if immediate then setImmediate d.packet.chunks else d.packet.chunks).map
        Chunk.value
        = d.packet.chunks.map Chunk.value := by
      rw [apply_ite (List.map Chunk.value), values_setImmediate, ite_self]
    refine ⟨fun chunk member => ?_, ?_⟩
    · obtain ⟨c, inside, type⟩ := type_of_values values member
      rw [← type]
      exact only c inside
    · rw [FitsPath, dataBytes, dataChunks_of_values values]
      exact fits
  unfold Socket.prepareDataPacket
  simp only [found, ok.pmdcs]
  split
  · exact (onPath_bundled only fits reportable s d.location).1
  · generalize (_ || _ || decide (a.state = .shutdownPending)) = immediate
    obtain ⟨only', fits'⟩ := flagged immediate
    obtain ⟨plain, bundled⟩ := onPath_bundled only' fits' reportable s d.location
    revert plain bundled
    generalize (if immediate then setImmediate d.packet.chunks else d.packet.chunks) = chunks
    intro plain bundled
    split
    · exact plain
    · split
      · next room => exact bundled room
      · exact plain

/-- What is looked at next is the packet of one in a queue. -/
theorem peek_queued {q : SendQueue} {now : Time} {allowances : SendAllowances} {p : Pending}
    (picked : (q.peek now allowances).1 = some p) : ∃ x, p.deliverable = x.deliverable
      ∧ ((p.priority = .control ∧ x ∈ q.control)
      ∨ (p.priority ≠ .control ∧ (x ∈ q.retransmission ∨ x ∈ q.newData))) := by
  unfold SendQueue.peek at picked
  split at picked
  · cases picked
  · cases control : q.control with
    | cons x rest =>
      simp only [control] at picked
      cases picked
      exact ⟨x, rfl, Or.inl ⟨rfl, List.mem_cons_self⟩⟩
    | nil =>
      cases retransmission : q.retransmission with
      | cons x rest =>
        simp only [control, retransmission] at picked
        cases picked
        exact ⟨x, rfl, Or.inr ⟨by simp, Or.inl List.mem_cons_self⟩⟩
      | nil =>
        simp only [control, retransmission] at picked
        split at picked
        · next p' allowances' found =>
          have first : (SendQueue.peekNewData allowances [] q.newData).1 = some p' := by rw [found]
          obtain ⟨x, member, rfl⟩ := mem_peekNewData first
          cases picked
          exact ⟨x, rfl, Or.inr ⟨by simp, Or.inr member⟩⟩
        · cases picked

/-- DATA is queued for associations there are. -/
theorem Orderly.queued_for {s : Socket} {due : AssociationKey → BitVec 32 → Prop}
    (ok : Orderly s due) {x : Queued} (queued : x ∈ s.sends.retransmission ∨ x ∈ s.sends.newData)
    (loaded : x.deliverable.packet.dataChunks ≠ []) :
    ∃ a, s.find? x.deliverable.location = some a := by
  cases found : s.find? x.deliverable.location with
  | some a => exact ⟨a, rfl⟩
  | none =>
    obtain ⟨newData, rtx⟩ := (ok.keys _).absent found
    rcases queued with old | new
    · obtain ⟨data, inside⟩ := List.exists_mem_of_ne_nil _ loaded
      have here : (x.deliverable.destination.addr, data) ∈ rtxData s x.deliverable.location := by
        refine List.mem_flatMap.mpr ⟨x, old, ?_⟩
        rw [if_pos rfl]
        exact List.mem_map_of_mem inside
      rw [rtx] at here
      cases here
    · have here : x ∈ newDataFor s x.deliverable.location := List.mem_filter.mpr ⟨new, by simp⟩
      rw [newData] at here
      cases here

/-- A packet picked for sending is one that was queued, prepared. -/
theorem onPath_nextPacket {s : Socket} {now : Time} {p : Pending}
    (ok : Orderly s SctpStack.everyDue) (sized : Sized s) (reports : Reports s)
    (picked : (s.nextPacket now).pending = some p)
    (carries : containsChunk p.deliverable.packet .data = true) :
    (∃ bytes parts, OnPath defaultPmdcs p.deliverable.packet bytes parts)
      ∧ ∃ a, (s.nextPacket now).socket.find? p.deliverable.location = some a
      ∧ a.pmdcs = defaultPmdcs := by
  have refilled : Sized (s.refilled now).socket ∧ Orderly (s.refilled now).socket everyDue := by
    refine refilled_keeps (fun s _ => Sized s ∧ Orderly s everyDue) now ⟨sized, ok⟩ ?_ ?_ ?_
    · exact fun _ _ _ holds calm => ⟨holds.1.calm calm, holds.2.calm calm.weaken⟩
    · exact fun _ key holds => keeps_sized.schedulePending key true holds
    · exact fun _ _ _ _ _ _ _ holds found transmits step =>
        ⟨holds.1.cut ((holds.2.keys _).assoc _ found).paths found step,
          holds.2.cut found transmits step⟩
  have reportable : Reports (s.armed now) :=
    ((Acts.refilled s now).thenQuiet (.armed s now)).keeps (fun _ _ => Reports.move) reports
  have armed : Orderly (s.armed now) everyDue := refilled.2.calm (Calm.armed s now)
  obtain ⟨retransmission, newData⟩ := armed_queues s now
  rw [nextPacket_eq] at picked ⊢
  cases peeked : (s.peeked now).1 with
  | none =>
    rw [peeked] at picked
    cases picked
  | some p' =>
    obtain ⟨x, deliverable, queued⟩ := peek_queued peeked
    simp only [peeked] at picked ⊢
    rcases queued with ⟨control, member⟩ | ⟨other, queued⟩
    · rw [if_pos control] at picked
      cases picked
      rw [deliverable, containsData_of_noData (refilled.2.queues.control x member)] at carries
      cases carries
    · rw [if_neg other] at picked ⊢
      cases picked
      rw [deliverable] at carries ⊢
      generalize decide (p'.priority = .newData) = fresh at carries ⊢
      have made := prepareDataPacket_spec (s.armed now) x.deliverable fresh
      have loaded : x.deliverable.packet.dataChunks ≠ [] := by
        intro none
        rw [containsData_of_noData (made.dataChunks.trans none)] at carries
        cases carries
      have only : OnlyData x.deliverable.packet := by
        rcases queued with old | new
        · exact (refilled.2.queues.retransmission x old).resolve_left loaded
        · exact refilled.2.queues.newData x new
      have fits : FitsPath x.deliverable.packet := by
        rcases queued with old | new
        · exact refilled.1.fit.retransmission x old
        · exact refilled.1.fit.newData x new
      have waiting : x ∈ (s.armed now).sends.retransmission ∨ x ∈ (s.armed now).sends.newData := by
        rw [retransmission, newData]
        exact queued
      obtain ⟨a, found⟩ := armed.queued_for waiting loaded
      refine ⟨prepareDataPacket_onPath found ((armed.keys _).assoc a found).paths only fits
        (reportable.reportable _ a found) fresh, ?_⟩
      have after : Orderly ((s.armed now).prepareDataPacket x.deliverable fresh).1
          SctpStack.everyDue :=
        armed.calm (made.calm False)
      have still : x ∈ ((s.armed now).prepareDataPacket x.deliverable fresh).1.sends.retransmission
          ∨ x ∈ ((s.armed now).prepareDataPacket x.deliverable fresh).1.sends.newData := by
        rw [made.retransmission, made.newData]
        exact waiting
      obtain ⟨b, here⟩ := after.queued_for still loaded
      rw [made.location]
      exact ⟨b, here, ((after.keys _).assoc b here).paths.pmdcs⟩

/-- Every packet with DATA that is sent fits the path once encoded, and each of its DATA
chunks takes the bytes it is charged for. -/
theorem data_packets_fit {allowed : System → Event → Prop} {σ : System}
    (reached : System.Reached allowed σ) {now : Time} {p : Pending}
    (picked : (σ.socket.nextPacket now).pending = some p)
    (carries : containsChunk p.deliverable.packet .data = true) :
    ∃ a bytes parts, (σ.socket.nextPacket now).socket.find? p.deliverable.location = some a
      ∧ OnPath a.pmdcs p.deliverable.packet bytes parts := by
  obtain ⟨⟨bytes, parts, onPath⟩, a, found, pmdcs⟩ :=
    onPath_nextPacket (orderly_reached reached).everyDue (sized_reached reached)
      (reports_reached reached) picked carries
  rw [← pmdcs] at onPath
  exact ⟨a, bytes, parts, found, onPath⟩

/-- A chunk from the peer is not acknowledged yet when a message goes out. -/
theorem bundled_sack_fits : ∃ σ p a bytes parts, System.Reached (fun _ _ => True) σ
    ∧ (σ.socket.nextPacket 0).pending = some p ∧ p.deliverable.packet.chunks.map Chunk.type
      = [.sack, .data]
    ∧ (σ.socket.nextPacket 0).socket.find? p.deliverable.location = some a
    ∧ OnPath a.pmdcs p.deliverable.packet bytes parts := by
  obtain ⟨σ, reached, ends⟩ := Opened.exists_reached
    [Opened.arrives [⟨3#8, .data ⟨100#32, 0#16, 0#16, 0#32, [9#8], 3#8⟩⟩],
      .sendData Opened.key [1#8, 2#8] 0#16 false, .startSending]
    (p := fun σ => (σ.socket.nextPacket 0).pending.any fun p =>
      p.deliverable.packet.chunks.map Chunk.type == [.sack, .data]
        && containsChunk p.deliverable.packet .data) (by decide +kernel)
  obtain ⟨p, picked, holds⟩ := (Option.any_eq_true _ _).mp ends
  simp only [Bool.and_eq_true, beq_iff_eq] at holds
  obtain ⟨a, bytes, parts, found, onPath⟩ := data_packets_fit reached picked holds.2
  exact ⟨σ, p, a, bytes, parts, reached, picked, holds.1, found, onPath⟩

end SctpStack
