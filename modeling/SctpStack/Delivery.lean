import SctpStack.Consume

/-!
# Receiving the chunks of one sender

The invariant of a receiver that is sent the chunks of one sender, in whatever order
and as often as the network likes (`Tracks`), and that every chunk keeps it
(`receiveChunk_tracks`): no arrival is a protocol violation while every ordered
chunk that arrives is fewer than 2^15 messages ahead of its stream.
-/

namespace SctpStack

open Serial

/-- Only what receiving DATA changes of an association changed. -/
def ReceiveOnly (before after : Association) : Prop :=
  after = { before with
    reassembly := after.reassembly
    inboundStreams := after.inboundStreams
    heldDeliveries := after.heldDeliveries
    tsnOooBuffer := after.tsnOooBuffer
    lastPeerTsn := after.lastPeerTsn
    duplicateTsns := after.duplicateTsns
    receivedSinceSack := after.receivedSinceSack }

theorem ReceiveOnly.refl (a : Association) : ReceiveOnly a a := rfl

theorem ReceiveOnly.trans {a b c : Association} (first : ReceiveOnly a b)
    (second : ReceiveOnly b c) :
    ReceiveOnly a c := by
  unfold ReceiveOnly at *
  rw [first] at second
  exact second

/-- The receiver's state answers to what it was sent. -/
structure Tracks (sent : Sent) (top : StreamId → Nat) (g : Progress) (past : List Delivery)
    (st : Receiving) : Prop where
  handed : Handed sent g past st
  streams : Streams sent top g st.assoc
  lower : Lower sent top g st.assoc.tsnOooBuffer.get? st.assoc.reassembly
  last : st.assoc.lastPeerTsn + 1#32 = ahead sent.base g.next
  settled : Settled st.assoc

/-- A state reached from one that answers to `g`. -/
structure TracksFrom (sent : Sent) (top : StreamId → Nat) (g : Progress) (past : List Delivery)
    (st st' : Receiving) : Prop where
  tracks : ∃ g', Tracks sent top g' past st' ∧ (∀ stream, g.ssn stream ≤ g'.ssn stream)
  only : ReceiveOnly st.assoc st'.assoc

section Receiving

variable {sent : Sent} {top : StreamId → Nat} {g : Progress} {past : List Delivery} {st : Receiving}
  {buf : Tsn → Option HeldChunk} {message : Reassembly} {data : DataChunkValue}

/-! ## In TSN order -/

/-- The Cumulative TSN Ack moves up to the last chunk consumed. -/
theorem stop_tracks (handed : Handed sent g past st) (streams : Streams sent top g st.assoc)
    (low : Lower sent top g st.assoc.tsnOooBuffer.get? st.assoc.reassembly)
    (settled : Settled st.assoc) :
    TracksFrom sent top g past st
      { st with assoc := { st.assoc with lastPeerTsn := ahead sent.base g.next - 1#32 } } where
  tracks := by
    refine ⟨g, ⟨?_, streams_congr streams rfl, low, ?_, settled⟩, fun _ => Nat.le_refl _⟩
    · exact ⟨handed.isOpen, handed.held, handed.free, handed.log, handed.nodup, handed.known⟩
    · exact BitVec.sub_add_cancel _ _
  only := rfl

/-- Everything that follows in the buffer is consumed. -/
theorem readOooFrom_tracks (fuel : Nat) (handed : Handed sent g past st)
    (streams : Streams sent top g st.assoc)
    (low : Lower sent top g st.assoc.tsnOooBuffer.get? st.assoc.reassembly)
    (settled : Settled st.assoc) :
    ∃ st', st.readOooFrom fuel (ahead sent.base g.next) = (true, st')
      ∧ TracksFrom sent top g past st st' := by
  induction fuel generalizing st g with
  | zero => exact ⟨_, rfl, stop_tracks handed streams low settled⟩
  | succ fuel ih =>
    unfold Receiving.readOooFrom
    cases lookup : st.assoc.tsnOooBuffer.get? (ahead sent.base g.next) with
    | none => exact ⟨_, rfl, stop_tracks handed streams low settled⟩
    | some held =>
      obtain ⟨i, data, le, found, tsn, holds, window⟩ := low.buffer _ _ lookup
      have bound := (List.getElem?_eq_some_iff.mp found).1
      have same : g.next = i := Sent.index_of_tsn (by omega) (by omega) tsn
      subst same
      obtain ⟨m, -, frag⟩ := Sent.fragment found
      have given : Offered g (sent.cursor g.next).message data held.data
          (!held.assembled && !held.data.userData.isEmpty) := by
        obtain ⟨new, rfl⟩ | ⟨hasIt, rfl⟩ := holds
        · exact Or.inl ⟨new, rfl, by simp [frag.nonempty]⟩
        · exact Or.inr ⟨hasIt, rfl, rfl⟩
      obtain ⟨st₁, g₁, done, step⟩ := reassemble_consumes handed streams low found window given
      simp only [done, Bool.not_true, Bool.false_eq_true, if_false]
      let st₂ : Receiving := { st₁ with assoc :=
        { st₁.assoc with tsnOooBuffer := st₁.assoc.tsnOooBuffer.erase (ahead sent.base g.next) } }
      have erased : st₂.assoc.tsnOooBuffer.get?
          = without st.assoc.tsnOooBuffer.get? (ahead sent.base g.next) := by
        funext t
        have buffer : st₁.assoc.tsnOooBuffer = st.assoc.tsnOooBuffer := by rw [step.same]
        simp only [st₂, KeyMap.get?_erase, buffer, without]
      have handed₂ : Handed sent g₁ past st₂ :=
        ⟨step.handed.isOpen, step.handed.held, step.handed.free, step.handed.log, step.handed.nodup,
          step.handed.known⟩
      have low₂ : Lower sent top g₁ st₂.assoc.tsnOooBuffer.get? st₂.assoc.reassembly := by
        rw [erased]
        exact step.lower
      have first : ReceiveOnly st.assoc st₂.assoc := by
        unfold ReceiveOnly
        simp only [st₂]
        rw [step.same]
      rw [← ahead_succ, ← step.next]
      obtain ⟨st', more, ⟨g', tracks, mono⟩, only⟩ :=
        ih handed₂ (streams_congr step.streams rfl) low₂ (step.settled settled)
      exact ⟨st', more, ⟨g', tracks, fun stream => Nat.le_trans (step.ssn stream) (mono stream)⟩,
        first.trans only⟩

/-! ## Ahead of the cumulative point -/

/-- The chunks of a message before its first are of earlier ones. -/
theorem message_lt_first {f i j : Nat} (first : sent.cursor f = ⟨j, 0⟩)
    (bound : f ≤ sent.chunks.length) (before : i < f) : (sent.cursor i).message < j := by
  cases f with
  | zero => omega
  | succ k =>
    have found := List.getElem?_eq_getElem (show k < sent.chunks.length from bound)
    have mono := sent.message_mono (Nat.le_of_lt_succ before)
    cases ends : sent.chunks[k].ends with
    | true =>
      rw [Sent.cursor_succ_of_ends found ends, Cursor.mk.injEq] at first
      omega
    | false =>
      obtain ⟨m, -, frag⟩ := Sent.fragment found
      rw [Sent.cursor_succ_of_not_ends found ends, Cursor.mk.injEq] at first
      have := List.length_pos_iff.mpr frag.nonempty
      omega

/-- A usable chunk of the buffer is one of those sent. -/
theorem usable_spec {assoc : Association} (low : Lower sent top g assoc.tsnOooBuffer.get? message)
    {i : Nat} (bound : i ≤ sent.chunks.length)
    (found : Receiving.usable assoc (ahead sent.base i) = some data) :
    g.next ≤ i ∧ sent.chunks[i]? = some data
      ∧ assoc.tsnOooBuffer.get? (ahead sent.base i) = some ⟨data, false⟩ := by
  unfold Receiving.usable at found
  cases lookup : assoc.tsnOooBuffer.get? (ahead sent.base i) with
  | none => simp [lookup] at found
  | some held =>
    simp only [lookup] at found
    obtain ⟨k, d, le, here, tsn, holds, -⟩ := low.buffer _ _ lookup
    have same : i = k := Sent.index_of_tsn bound
      (Nat.le_of_lt (List.getElem?_eq_some_iff.mp here).1) tsn
    subst same
    obtain ⟨-, rfl⟩ | ⟨-, rfl⟩ := holds
    · split at found
      · cases found
      · cases found
        exact ⟨le, here, rfl⟩
    · simp at found

/-- The chunks from one index to another are all in the buffer, of one message. -/
def Buffered (sent : Sent) (assoc : Association) (j lo hi : Nat) : Prop :=
  ∀ k, lo ≤ k → k ≤ hi → (sent.cursor k).message = j ∧ ∃ d, sent.chunks[k]? = some d
    ∧ assoc.tsnOooBuffer.get? (ahead sent.base k) = some ⟨d, false⟩

/-- The walk down ends at the first chunk of the message. -/
theorem firstFragment_spec {assoc : Association}
    (low : Lower sent top g assoc.tsnOooBuffer.get? message) {arrived : DataChunkValue}
    {first : Tsn} (fuel : Nat) {i : Nat} (le : g.next ≤ i) (found : sent.chunks[i]? = some data)
    (held : assoc.tsnOooBuffer.get? (ahead sent.base i) = some ⟨data, false⟩)
    (walk : Receiving.firstFragment assoc arrived fuel (ahead sent.base i) data = some first) :
    ∃ f, g.next ≤ f ∧ f ≤ i ∧ first = ahead sent.base f
      ∧ sent.cursor f = ⟨(sent.cursor i).message, 0⟩
      ∧ Buffered sent assoc (sent.cursor i).message f i := by
  induction fuel generalizing i data with
  | zero => cases walk
  | succ fuel ih =>
    have bound := (List.getElem?_eq_some_iff.mp found).1
    unfold Receiving.firstFragment at walk
    cases begins : data.begins with
    | true =>
      rw [begins] at walk
      cases walk
      have zero := (Sent.begins_iff found).mp begins
      refine ⟨i, le, Nat.le_refl i, rfl, by rw [← zero], ?_⟩
      intro k lo hi
      have same : k = i := by omega
      subst same
      exact ⟨rfl, data, found, held⟩
    | false =>
      have inside : (sent.cursor i).offset ≠ 0 := by
        intro zero
        rw [(Sent.begins_iff found).mpr zero] at begins
        cases begins
      obtain ⟨k, d, rfl, here, -, same, -⟩ := Sent.previous inside (Nat.le_of_lt bound)
      rw [begins, ahead_succ_sub_one] at walk
      simp only [Bool.false_eq_true, if_false] at walk
      cases use : Receiving.usable assoc (ahead sent.base k) with
      | none => simp [use] at walk
      | some previous =>
        obtain ⟨le', here', held'⟩ := usable_spec low (by omega) use
        simp only [use] at walk
        split at walk
        · obtain ⟨f, lo, hi, eq, start, run⟩ := ih le' here' held' walk
          rw [same] at start run
          refine ⟨f, lo, Nat.le_succ_of_le hi, eq, start, ?_⟩
          intro n low' high
          rcases Nat.eq_or_lt_of_le high with rfl | lt
          · exact ⟨rfl, data, found, held⟩
          · exact run n low' (Nat.le_of_lt_succ lt)
        · cases walk

/-- The walk up ends at the last chunk of the message. -/
theorem lastFragment_spec {assoc : Association}
    (low : Lower sent top g assoc.tsnOooBuffer.get? message) {arrived : DataChunkValue} {last : Tsn}
    (fuel : Nat) {i : Nat} (found : sent.chunks[i]? = some data)
    (held : assoc.tsnOooBuffer.get? (ahead sent.base i) = some ⟨data, false⟩)
    (walk : Receiving.lastFragment assoc arrived fuel (ahead sent.base i) data = some last) :
    ∃ l d, i ≤ l ∧ last = ahead sent.base l ∧ sent.chunks[l]? = some d ∧ d.ends = true
      ∧ Buffered sent assoc (sent.cursor i).message i l := by
  induction fuel generalizing i data with
  | zero => cases walk
  | succ fuel ih =>
    have bound := (List.getElem?_eq_some_iff.mp found).1
    unfold Receiving.lastFragment at walk
    cases ends : data.ends with
    | true =>
      rw [ends] at walk
      cases walk
      refine ⟨i, data, Nat.le_refl i, rfl, found, ends, ?_⟩
      intro k lo hi
      have same : k = i := by omega
      subst same
      exact ⟨rfl, data, found, held⟩
    | false =>
      rw [ends, ← ahead_succ] at walk
      simp only [Bool.false_eq_true, if_false] at walk
      have same : (sent.cursor (i + 1)).message = (sent.cursor i).message := by
        rw [Sent.cursor_succ_of_not_ends found ends]
      cases use : Receiving.usable assoc (ahead sent.base (i + 1)) with
      | none => simp [use] at walk
      | some following =>
        obtain ⟨-, here', held'⟩ := usable_spec low bound use
        simp only [use] at walk
        split at walk
        · obtain ⟨l, d, lo, eq, here, last', run⟩ := ih here' held' walk
          rw [same] at run
          refine ⟨l, d, by omega, eq, here, last', ?_⟩
          intro n low' high
          rcases Nat.eq_or_lt_of_le low' with rfl | lt
          · exact ⟨rfl, data, found, held⟩
          · exact run n lt high
        · cases walk

/-- The bytes gathered from the first chunk of a message on. -/
theorem fragmentBytes_take {assoc : Association} {f l j : Nat} {m : SentMessage}
    (here : sent.messages[j]? = some m) (first : sent.cursor f = ⟨j, 0⟩)
    (run : Buffered sent assoc j f l) (n : Nat) (inside : f + n ≤ l) :
    Receiving.fragmentBytes assoc (ahead sent.base f) n
      = m.bytes.take (sent.cursor (f + n)).offset := by
  induction n with
  | zero => simp [Receiving.fragmentBytes, first]
  | succ n ih =>
    obtain ⟨same, d, found, held⟩ := run (f + n) (by omega) (by omega)
    obtain ⟨next, -⟩ := run (f + n + 1) (by omega) (by omega)
    have more : d.ends = false := by
      cases ends : d.ends with
      | false => rfl
      | true =>
        rw [Sent.cursor_succ_of_ends found ends] at next
        simp only at next
        omega
    obtain ⟨m', here', frag⟩ := Sent.fragment found
    rw [same, here] at here'
    cases here'
    have before := ih (by omega)
    unfold Receiving.fragmentBytes at before ⊢
    rw [List.range_succ, List.flatMap_append, before]
    simp only [List.flatMap_cons, List.flatMap_nil, List.append_nil, ← ahead_add, held]
    rw [show f + (n + 1) = f + n + 1 from rfl, Sent.cursor_succ_of_not_ends found more,
      List.take_add, ← frag.bytes]

/-- All the chunks of a message together are the message. -/
theorem fragmentBytes_whole {assoc : Association} {f l j : Nat} {m : SentMessage}
    {d : DataChunkValue} (here : sent.messages[j]? = some m) (first : sent.cursor f = ⟨j, 0⟩)
    (run : Buffered sent assoc j f l) (le : f ≤ l) (found : sent.chunks[l]? = some d)
    (ends : d.ends = true) :
    Receiving.fragmentBytes assoc (ahead sent.base f) (l - f + 1) = m.bytes := by
  have before := fragmentBytes_take here first run (l - f) (by omega)
  obtain ⟨same, d', found', held⟩ := run l le (Nat.le_refl l)
  rw [found] at found'
  cases found'
  obtain ⟨m', here', frag⟩ := Sent.fragment found
  rw [same, here] at here'
  cases here'
  have length := frag.ends
  rw [ends, eq_comm, decide_eq_true_eq] at length
  rw [show f + (l - f) = l by omega] at before
  unfold Receiving.fragmentBytes at before ⊢
  rw [List.range_succ, List.flatMap_append, before]
  simp only [List.flatMap_cons, List.flatMap_nil, List.append_nil, ← ahead_add, show f + (l - f)
    = l by omega, held]
  conv_lhs => rw [frag.bytes, ← List.take_add, length, List.take_length]

/-- The chunks of a message are those from its first to its last. -/
theorem message_eq_iff {f l i j : Nat} {d : DataChunkValue} (first : sent.cursor f = ⟨j, 0⟩)
    (bound : f ≤ sent.chunks.length) (run : ∀ k, f ≤ k → k ≤ l → (sent.cursor k).message = j)
    (le : f ≤ l) (found : sent.chunks[l]? = some d) (ends : d.ends = true) :
    (sent.cursor i).message = j ↔ f ≤ i ∧ i ≤ l := by
  constructor
  · intro same
    constructor
    · by_contra before
      have := message_lt_first first bound (Nat.lt_of_not_ge before)
      omega
    · by_contra after
      have mono := sent.message_mono (Nat.lt_of_not_ge after)
      have last := run l le (Nat.le_refl l)
      rw [Nat.succ_eq_add_one, Sent.cursor_succ_of_ends found ends] at mono
      simp only at mono
      omega
  · rintro ⟨lo, hi⟩
    exact run i lo hi

/-- The TSNs `count` from the first on are those of the chunks there. -/
theorem tsn_in_range {f l i : Nat} (hf : f ≤ l) (hl : l < sent.chunks.length)
    (hi : i ≤ sent.chunks.length) :
    (ahead sent.base i - ahead sent.base f).toNat < l - f + 1 ↔ f ≤ i ∧ i ≤ l := by
  have few := sent.few
  rcases Nat.lt_or_ge i f with before | after
  · have apart : ahead sent.base i ≠ ahead sent.base f := fun same =>
      absurd (Sent.index_of_tsn hi (by omega) same) (by omega)
    rw [toNat_sub_comm apart, sub_ahead_of_lt _ (Nat.le_of_lt before) (by omega)]
    omega
  · rw [sub_ahead_of_lt _ after (by omega)]
    omega

/-- Nothing of a message that begins past the consumed chunks is open. -/
theorem underway_ne {f j : Nat} (first : sent.cursor f = ⟨j, 0⟩) (le : g.next ≤ f)
    (bound : f ≤ sent.chunks.length) (inside : (sent.cursor g.next).offset ≠ 0) :
    (sent.cursor g.next).message ≠ j := by
  rcases Nat.eq_or_lt_of_le le with same | lt
  · rw [same, first] at inside
    exact absurd rfl inside
  · exact Nat.ne_of_lt (message_lt_first first bound lt)

/-- With a message completed, its chunks in the buffer are marked. -/
theorem lower_assembled {assoc : Association} {g' : Progress} {f l j : Nat} {d : DataChunkValue}
    (low : Lower sent top g assoc.tsnOooBuffer.get? message) (advance : Advance g g' fun k => k = j)
    (first : sent.cursor f = ⟨j, 0⟩) (start : g.next ≤ f) (le : f ≤ l)
    (run : Buffered sent assoc j f l) (found : sent.chunks[l]? = some d) (ends : d.ends = true) :
    Lower sent top g'
      (Receiving.markAssembled assoc (ahead sent.base f) (l - f + 1)).tsnOooBuffer.get?
        message := by
  have bound := (List.getElem?_eq_some_iff.mp found).1
  have member := fun i => message_eq_iff (i := i) first (by omega) (fun k lo hi => (run k lo hi).1)
    le found ends
  have other : (sent.cursor g.next).offset ≠ 0 → (g'.Has (sent.cursor g.next).message ↔
      g.Has (sent.cursor g.next).message) := by
    intro inside
    have apart := underway_ne first start (by omega) inside
    rw [advance.has]
    exact or_iff_left apart
  refine ⟨?_, ?_, ?_, ?_, ?_, ?_, ?_⟩
  · rw [advance.next]
    exact low.bound
  · intro tsn held lookup
    simp only [Receiving.markAssembled, KeyMap.get?_mapVals, Option.map_eq_some_iff] at lookup
    obtain ⟨old, lookup, rfl⟩ := lookup
    obtain ⟨i, data, lo, here, rfl, holds, window⟩ := low.buffer tsn old lookup
    have inside := (List.getElem?_eq_some_iff.mp here).1
    refine ⟨i, data, by rw [advance.next]; exact lo, here, rfl, ?_, window⟩
    have range : (ahead sent.base i - ahead sent.base f).toNat < l - f + 1 ↔ f ≤ i ∧ i ≤ l :=
      tsn_in_range le bound (Nat.le_of_lt inside)
    unfold Holds
    rw [advance.has]
    by_cases within : f ≤ i ∧ i ≤ l
    · rw [if_pos (range.mpr within)]
      obtain ⟨same, d', here', held'⟩ := run i within.1 within.2
      rw [here] at here'
      cases here'
      rw [lookup] at held'
      cases held'
      exact Or.inr ⟨Or.inr same, rfl⟩
    · rw [if_neg fun lt => within (range.mp lt), or_iff_left fun same =>
        within ((member i).mp same)]
      exact holds
  · intro i lo hi hasIt
    rw [advance.next] at lo
    simp only [Receiving.markAssembled, KeyMap.get?_mapVals, Option.isSome_map]
    rcases (advance.has _).mp hasIt with old | same
    · exact low.kept i lo hi old
    · obtain ⟨lo', hi'⟩ := (member i).mp same
      obtain ⟨-, d', -, held⟩ := run i lo' hi'
      rw [held]
      rfl
  · intro k lt
    rw [advance.next] at lt
    exact (advance.has k).mpr (Or.inl (low.finished k lt))
  · rw [advance.next]
    exact low.near
  · rw [advance.next]
    intro zero
    have idle := low.straddles.1 zero
    exact ⟨idle.isOpen, idle.bytes, advance.underway.trans idle.underway⟩
  · rw [advance.next]
    intro inside
    obtain ⟨isOpen, m, here, stream, ssn, unordered, gathered⟩ := low.straddles.2 inside
    refine ⟨isOpen, m, here, stream, ssn, unordered, ?_⟩
    unfold Gathered at *
    rwa [other inside, advance.underway, advance.sentUp]

/-- A message that begins past the consumed chunks and is not complete was not handed up. -/
theorem not_ordered_ahead {f j : Nat} (low : Lower sent top g buf message)
    (first : sent.cursor f = ⟨j, 0⟩) (start : g.next ≤ f) (bound : f ≤ sent.chunks.length)
    (new : ¬ g.Has j) : j ∉ g.order := by
  by_cases zero : (sent.cursor g.next).offset = 0
  · exact not_mem_order new (low.straddles.1 zero).underway
  · obtain ⟨-, m, -, -, -, -, gathered⟩ := low.straddles.2 zero
    obtain ⟨-, -, -, idle⟩ | ⟨-, -, -, idle⟩ | ⟨-, -, -, busy, -⟩ := gathered
    · exact not_mem_order new idle
    · exact not_mem_order new idle
    · intro member
      simp only [Progress.order, busy, List.mem_append, Option.toList_some, List.mem_singleton]
        at member
      obtain (inHanded | same) | inHeld := member
      · exact new (Or.inl inHanded)
      · exact underway_ne first start bound zero same.symm
      · exact new (Or.inr (Or.inl inHeld))

/-- A message found complete in the buffer is handed to its stream. -/
theorem assembleEarly_tracks (tracks : Tracks sent top g past st) {i : Nat}
    (bound : i ≤ sent.chunks.length) :
    ∃ st', st.assembleEarly (ahead sent.base i) = (true, st')
      ∧ TracksFrom sent top g past st st' := by
  have stay : TracksFrom sent top g past st st := ⟨⟨g, tracks, fun _ => Nat.le_refl _⟩, rfl⟩
  have low := tracks.lower
  unfold Receiving.assembleEarly
  cases use : Receiving.usable st.assoc (ahead sent.base i) with
  | none => exact ⟨st, rfl, stay⟩
  | some arrived =>
    obtain ⟨after, found, held⟩ := usable_spec low bound use
    simp only
    cases down : Receiving.firstFragment st.assoc arrived st.assoc.tsnOooBuffer.entries.length
        (ahead sent.base i) arrived with
    | none => exact ⟨st, rfl, stay⟩
    | some firstTsn =>
      cases up : Receiving.lastFragment st.assoc arrived st.assoc.tsnOooBuffer.entries.length
          (ahead sent.base i) arrived with
      | none => exact ⟨st, rfl, stay⟩
      | some lastTsn =>
        obtain ⟨f, start, fi, rfl, first, below⟩ := firstFragment_spec low _ after found held down
        obtain ⟨l, d, il, rfl, foundLast, ends, above⟩ := lastFragment_spec low _ found held up
        have inside := (List.getElem?_eq_some_iff.mp foundLast).1
        have few := sent.few
        have run : Buffered sent st.assoc (sent.cursor i).message f l := by
          intro k lo hi
          rcases Nat.le_total k i with le | ge
          · exact below k lo le
          · exact above k ge hi
        obtain ⟨m, here, frag⟩ := Sent.fragment found
        have bytes := fragmentBytes_whole here first run (by omega) foundLast ends
        obtain ⟨k, d', -, found', tsn, holds, window⟩ := low.buffer _ _ held
        have same : i = k := Sent.index_of_tsn bound
          (Nat.le_of_lt (List.getElem?_eq_some_iff.mp found').1) tsn
        subst same
        have new : ¬ g.Has (sent.cursor i).message := by
          obtain ⟨new, -⟩ | ⟨-, eq⟩ := holds
          · exact new
          · cases eq
        have notOrdered := not_ordered_ahead low first start (by omega) new
        let st₁ : Receiving :=
          { st with assoc := Receiving.markAssembled st.assoc (ahead sent.base f) (l - f + 1) }
        have handed₁ : Handed sent g past st₁ :=
          ⟨tracks.handed.isOpen, tracks.handed.held, tracks.handed.free, tracks.handed.log,
            tracks.handed.nodup, tracks.handed.known⟩
        obtain ⟨st', g', done, handsUp, settled⟩ := orderMessage_handsUp handed₁
          (streams_congr tracks.streams rfl) here notOrdered (fun waiting =>
            new (Or.inr (Or.inr waiting)))
          (window m here)
        have only := handsUp.only
        have lower := lower_assembled low handsUp.advance first start (by omega) run foundLast ends
        refine ⟨st', ?_, ⟨g', ⟨handsUp.handed, handsUp.streams, ?_, ?_, settled tracks.settled⟩,
          handsUp.advance.ssn⟩, ?_⟩
        · simp only [sub_ahead_of_lt sent.base (show f ≤ l by omega) (show l - f < 2 ^ 32 by omega),
            bytes, frag.stream, frag.ssn, frag.unordered]
          exact done
        · rw [only]
          exact lower
        · rw [handsUp.advance.next, only]
          exact tracks.last
        · unfold ReceiveOnly
          rw [only]
          rfl

/-! ## One chunk -/

/-- A chunk past the consumed ones enters the buffer. -/
theorem lower_insert {i : Nat} (low : Lower sent top g buf message) (after : g.next ≤ i)
    (found : sent.chunks[i]? = some data) (absent : buf (ahead sent.base i) = none)
    (window : InWindow sent top (sent.cursor i).message) :
    Lower sent top g (fun t => if t = ahead sent.base i then some ⟨data, false⟩ else buf t)
      message where
  bound := low.bound
  buffer := by
    intro tsn held lookup
    split at lookup
    · next same =>
      cases lookup
      refine ⟨i, data, after, found, same, Or.inl ⟨fun hasIt => ?_, rfl⟩, window⟩
      have kept := low.kept i after (List.getElem?_eq_some_iff.mp found).1 hasIt
      rw [absent] at kept
      cases kept
    · exact low.buffer tsn held lookup
  kept := by
    intro k le lt hasIt
    split
    · rfl
    · exact low.kept k le lt hasIt
  finished := low.finished
  near := low.near
  straddles := low.straddles

/-- A chunk whose message is not complete may leave the buffer again. -/
theorem lower_evict {tsn : Tsn} {held : HeldChunk} (low : Lower sent top g buf message)
    (present : buf tsn = some held) (loose : held.assembled = false) :
    Lower sent top g (without buf tsn) message where
  bound := low.bound
  buffer := by
    intro t other lookup
    unfold without at lookup
    split at lookup
    · cases lookup
    · exact low.buffer t other lookup
  kept := by
    intro k le lt hasIt
    have apart : ahead sent.base k ≠ tsn := by
      rintro rfl
      obtain ⟨i, d, -, found, same, holds, -⟩ := low.buffer _ _ present
      have eq : k = i := Sent.index_of_tsn (Nat.le_of_lt lt)
        (Nat.le_of_lt (List.getElem?_eq_some_iff.mp found).1) same
      subst eq
      obtain ⟨new, -⟩ | ⟨-, rfl⟩ := holds
      · exact new hasIt
      · cases loose
    simp only [without, apart, if_false]
    exact low.kept k le lt hasIt
  finished := low.finished
  near := low.near
  straddles := low.straddles

/-- Making room drops a chunk of the buffer whose message is not complete. -/
theorem makeRoom_spec {assoc after : Association} {tsn : Tsn} {used left : Nat}
    (room : makeRoom assoc tsn used = some (after, left)) :
    ∃ highest held, assoc.tsnOooBuffer.get? highest = some held ∧ held.assembled = false
      ∧ after = { assoc with tsnOooBuffer := assoc.tsnOooBuffer.erase highest }
      ∧ left = used - held.data.userData.length := by
  unfold makeRoom at room
  split at room
  · cases room
  · next highest held last =>
    split at room
    · cases room
    · cases room
      have member := List.mem_of_find?_eq_some last
      have loose := List.find?_some last
      rw [List.mem_reverse] at member
      exact ⟨highest, held, KeyMap.mem_entries.mp member, by simpa using loose, rfl, rfl⟩

theorem admitChunk_spec {assoc after : Association} {tsn : Tsn} {used left : Nat}
    (admitted : admitChunk assoc tsn used = some (after, left)) :
    (after = assoc ∧ left = used) ∨ ∃ highest held, assoc.tsnOooBuffer.get? highest = some held
      ∧ held.assembled = false ∧ after
        = { assoc with tsnOooBuffer := assoc.tsnOooBuffer.erase highest }
      ∧ left = used - held.data.userData.length := by
  unfold admitChunk at admitted
  split at admitted
  · cases admitted
    exact Or.inl ⟨rfl, rfl⟩
  · split at admitted
    · next room =>
      cases admitted
      exact Or.inr (makeRoom_spec room)
    · split at admitted
      · cases admitted
        exact Or.inl ⟨rfl, rfl⟩
      · cases admitted

/-- Admitting a chunk keeps the invariant and every entry it needs. -/
theorem admitChunk_tracks {after : Association} {tsn : Tsn} {used left : Nat}
    (tracks : Tracks sent top g past st)
    (admitted : admitChunk st.assoc tsn used = some (after, left)) :
    Tracks sent top g past { st with assoc := after } ∧ ReceiveOnly st.assoc after
      ∧ (st.assoc.tsnOooBuffer.get? tsn = none → after.tsnOooBuffer.get? tsn = none)
      ∧ after.lastPeerTsn = st.assoc.lastPeerTsn := by
  obtain ⟨rfl, -⟩ | ⟨highest, held, present, loose, rfl, -⟩ := admitChunk_spec admitted
  · exact ⟨tracks, rfl, id, rfl⟩
  · refine ⟨⟨?_, streams_congr tracks.streams rfl, ?_, tracks.last, tracks.settled⟩, rfl, ?_, rfl⟩
    · exact ⟨tracks.handed.isOpen, tracks.handed.held, tracks.handed.free, tracks.handed.log,
        tracks.handed.nodup, tracks.handed.known⟩
    · have erased : (st.assoc.tsnOooBuffer.erase highest).get?
        = without st.assoc.tsnOooBuffer.get? highest := by
        funext t
        rw [KeyMap.get?_erase, without]
      simp only [erased]
      exact lower_evict tracks.lower present loose
    · intro absent
      simp only [KeyMap.get?_erase, absent, ite_self]

/-- A chunk past the admission test is consumed or held. -/
theorem storeChunk_tracks (tracks : Tracks sent top g past st) {i : Nat} (after : g.next ≤ i)
    (found : sent.chunks[i]? = some data)
    (absent : st.assoc.tsnOooBuffer.get? (ahead sent.base i) = none)
    (window : InWindow sent top (sent.cursor i).message) :
    ∃ st', storeChunk st data true = (true, st') ∧ TracksFrom sent top g past st st' := by
  obtain ⟨m, -, frag⟩ := Sent.fragment found
  have bound := (List.getElem?_eq_some_iff.mp found).1
  unfold storeChunk
  rw [tracks.last, frag.tsn]
  by_cases isNext : ahead sent.base i = ahead sent.base g.next
  · have same : i = g.next := Sent.index_of_tsn (Nat.le_of_lt bound) tracks.lower.bound isNext
    subst same
    have new : ¬ g.Has (sent.cursor g.next).message := by
      intro hasIt
      have kept := tracks.lower.kept g.next (Nat.le_refl _) bound hasIt
      rw [absent] at kept
      cases kept
    let st₀ : Receiving := { st with assoc := { st.assoc
      with lastPeerTsn := ahead sent.base g.next } }
    have handed₀ : Handed sent g past st₀ :=
      ⟨tracks.handed.isOpen, tracks.handed.held, tracks.handed.free, tracks.handed.log,
        tracks.handed.nodup, tracks.handed.known⟩
    obtain ⟨st₁, g₁, done, step⟩ := reassemble_consumes handed₀ (streams_congr tracks.streams rfl)
      tracks.lower found window (Or.inl ⟨new, rfl, rfl⟩)
    have same₁ := step.same
    have buffer : st₁.assoc.tsnOooBuffer = st.assoc.tsnOooBuffer := by rw [same₁]
    have last : st₁.assoc.lastPeerTsn = ahead sent.base g.next := by rw [same₁]
    have lower₁ : Lower sent top g₁ st₁.assoc.tsnOooBuffer.get? st₁.assoc.reassembly := by
      have low := step.lower
      have untouched : without st.assoc.tsnOooBuffer.get? (ahead sent.base g.next)
          = st.assoc.tsnOooBuffer.get? := by
        funext t
        unfold without
        split
        · next here => rw [here, absent]
        · rfl
      rwa [untouched, ← buffer] at low
    obtain ⟨st', more, ⟨g', tracks', mono⟩, only⟩ :=
      readOooFrom_tracks st₁.assoc.tsnOooBuffer.entries.length step.handed step.streams lower₁
        (step.settled tracks.settled)
    refine ⟨st', ?_, ⟨g', tracks', fun stream => Nat.le_trans (step.ssn stream) (mono stream)⟩, ?_⟩
    · simp only [if_true]
      rw [done]
      simp only [Bool.not_true, Bool.false_eq_true, if_false, Receiving.readOooBuffer, last]
      rwa [← ahead_succ, ← step.next]
    · have first : ReceiveOnly st.assoc st₁.assoc := by
        unfold ReceiveOnly
        rw [same₁]
      exact first.trans only
  · simp only [isNext, if_false, Bool.not_true, Bool.false_eq_true, if_true]
    let st₁ : Receiving := { st with assoc := { st.assoc with
      tsnOooBuffer := st.assoc.tsnOooBuffer.emplaceBy tsnLt (ahead sent.base i) ⟨data, false⟩ } }
    have lower₁ : Lower sent top g st₁.assoc.tsnOooBuffer.get? st₁.assoc.reassembly := by
      have low := lower_insert tracks.lower after found absent window
      have lookup : st₁.assoc.tsnOooBuffer.get? = fun t =>
          if t = ahead sent.base i then some ⟨data, false⟩ else st.assoc.tsnOooBuffer.get? t := by
        funext t
        simp only [st₁, KeyMap.get?_emplaceBy, absent, Option.getD_none]
      rw [lookup]
      exact low
    have tracks₁ : Tracks sent top g past st₁ := by
      refine ⟨?_, streams_congr tracks.streams rfl, lower₁, tracks.last, tracks.settled⟩
      exact ⟨tracks.handed.isOpen, tracks.handed.held, tracks.handed.free, tracks.handed.log,
        tracks.handed.nodup, tracks.handed.known⟩
    obtain ⟨st', done, from₁⟩ := assembleEarly_tracks tracks₁ (Nat.le_of_lt bound)
    have enter : ReceiveOnly st.assoc st₁.assoc := rfl
    exact ⟨st', done, from₁.tracks, enter.trans from₁.only⟩

/-! ## Partial delivery -/

/-- Handing up what waited leaves the buffer and the open message as they are. -/
theorem lower_advance {g' : Progress} (low : Lower sent top g buf message)
    (advance : Advance g g' fun _ => False) : Lower sent top g' buf message := by
  have has : ∀ j, g'.Has j ↔ g.Has j := fun j => (advance.has j).trans (or_iff_left id)
  refine ⟨?_, ?_, ?_, ?_, ?_, ?_, ?_⟩
  · rw [advance.next]
    exact low.bound
  · intro tsn held lookup
    obtain ⟨i, data, le, found, eq, holds, window⟩ := low.buffer tsn held lookup
    refine ⟨i, data, by rwa [advance.next], found, eq, ?_, window⟩
    unfold Holds at *
    rwa [has]
  · intro i le lt hasIt
    rw [advance.next] at le
    exact low.kept i le lt ((has _).mp hasIt)
  · intro j lt
    rw [advance.next] at lt
    exact (has j).mpr (low.finished j lt)
  · rw [advance.next]
    exact low.near
  · rw [advance.next]
    intro zero
    have idle := low.straddles.1 zero
    exact ⟨idle.isOpen, idle.bytes, advance.underway.trans idle.underway⟩
  · rw [advance.next]
    intro inside
    obtain ⟨isOpen, m, here, stream, ssn, unordered, gathered⟩ := low.straddles.2 inside
    refine ⟨isOpen, m, here, stream, ssn, unordered, ?_⟩
    unfold Gathered at *
    rwa [has, advance.underway, advance.sentUp]

theorem advance_bump (g : Progress) (stream : StreamId) :
    Advance g (g.bump stream) fun _ => False where
  next := rfl
  underway := rfl
  sentUp := rfl
  has k := (or_iff_left id).symm
  ssn other := by
    simp only [Progress.bump]
    split <;> omega

/-- The progress once the first `n` bytes of an incomplete message went up. -/
def Progress.begin (g : Progress) (j n : Nat) : Progress :=
  { g with underway := some j, sentUp := n, waiting := fun k => g.waiting k ∧ k ≠ j }

theorem Progress.has_begin {j n k : Nat} (idle : ¬ g.waiting j) :
    (g.begin j n).Has k ↔ g.Has k := by
  unfold Progress.begin Progress.Has
  refine or_congr_right (or_congr_right ⟨And.left, fun waiting => ⟨waiting, ?_⟩⟩)
  rintro rfl
  exact idle waiting

theorem Progress.order_begin {j n : Nat} (quiet : g.underway = none) (free : g.held = []) :
    (g.begin j n).order = (g.give j).order := by
  simp [Progress.order, Progress.begin, Progress.give, quiet, free]

/-- What was gathered of the open message is handed up. -/
def Receiving.partlyUp (st : Receiving) : Receiving where
  assoc := { st.assoc with reassembly := { st.assoc.reassembly
    with bytes := [], partiallyDelivered := true } }
  delivered := st.delivered ++ [⟨st.assoc.reassembly.bytes, false, st.assoc.reassembly.stream⟩]

/-- A message of which something was gathered and nothing handed up. -/
structure Partial (sent : Sent) (g : Progress) (m : SentMessage) (message : Reassembly) : Prop where
  inside : (sent.cursor g.next).offset ≠ 0
  here : sent.messages[(sent.cursor g.next).message]? = some m
  stream : message.stream = m.stream
  ssn : message.ssn = m.ssn
  unordered : message.unordered = m.unordered
  isOpen : message.isOpen = true
  new : ¬ g.Has (sent.cursor g.next).message
  bytes : message.bytes = m.bytes.take (sent.cursor g.next).offset
  quiet : g.underway = none

/-- The progress once what was gathered of the open message went up. -/
def Progress.partlyUp (sent : Sent) (g : Progress) : Progress :=
  g.begin (sent.cursor g.next).message (sent.cursor g.next).offset

section PartlyUp

variable {m : SentMessage} (tracks : Tracks sent top g past st)
    (part : Partial sent g m st.assoc.reassembly)

include part in
theorem Partial.idle : ¬ g.waiting (sent.cursor g.next).message :=
  fun waiting => part.new (Or.inr (Or.inr waiting))

include part in
theorem Partial.has (k : Nat) : (g.partlyUp sent).Has k ↔ g.Has k := Progress.has_begin part.idle

include tracks part

theorem partlyUp_order : (g.partlyUp sent).order = g.order ++ [(sent.cursor g.next).message] := by
  rw [← Progress.order_give tracks.handed.free]
  exact Progress.order_begin part.quiet (tracks.handed.free part.quiet)

theorem partlyUp_handed : Handed sent (g.partlyUp sent) past st.partlyUp := by
  obtain ⟨groups, tail, log, whole, closed, -⟩ := tracks.handed.log
  refine ⟨?_, tracks.handed.held,
    ?_, ⟨groups, [⟨st.assoc.reassembly.bytes, false, st.assoc.reassembly.stream⟩], ?_, whole, ?_,
    ?_⟩, ?_, tracks.handed.known⟩
  · simp [partialDeliveryOpen, Receiving.partlyUp, part.isOpen, Progress.partlyUp, Progress.begin]
  · intro none
    cases none
  · simp only [Receiving.partlyUp]
    rw [← List.append_assoc, log, closed part.quiet, List.append_nil]
  · intro none
    cases none
  · rintro p ⟨⟩
    refine ⟨m, part.here, by simp [part.stream], ?_⟩
    simp only [List.flatMap_cons, List.flatMap_nil, List.append_nil, part.bytes]
    rfl
  · rw [partlyUp_order tracks part]
    exact List.nodup_append.mpr ⟨tracks.handed.nodup, by simp, by
      intro a member b eq
      rw [List.mem_singleton.mp eq]
      exact fun same => not_mem_order part.new part.quiet (same ▸ member)⟩

theorem partlyUp_lower :
    Lower sent top (g.partlyUp sent) st.partlyUp.assoc.tsnOooBuffer.get?
      st.partlyUp.assoc.reassembly := by
  have low := tracks.lower
  refine ⟨low.bound, ?_, ?_, ?_, low.near, ?_, ?_⟩
  · intro tsn held lookup
    obtain ⟨i, data, le, found, eq, holds, window⟩ := low.buffer tsn held lookup
    refine ⟨i, data, le, found, eq, ?_, window⟩
    unfold Holds at *
    rwa [part.has]
  · intro i le lt hasIt
    exact low.kept i le lt ((part.has _).mp hasIt)
  · intro j lt
    exact (part.has j).mpr (low.finished j lt)
  · intro zero
    exact absurd zero part.inside
  · intro _
    refine ⟨part.isOpen, m, part.here, part.stream, part.ssn, part.unordered,
      Or.inr (Or.inr ⟨?_, rfl, rfl, rfl, rfl⟩)⟩
    exact fun hasIt => part.new ((part.has _).mp hasIt)

/-- An unordered message in part does not concern the streams. -/
theorem partlyUp_tracks_unordered (kind : m.unordered = true) :
    TracksFrom sent top g past st st.partlyUp := by
  have given : Streams sent top _ st.assoc :=
    streams_give tracks.streams tracks.handed.free part.here kind rfl
  refine ⟨⟨g.partlyUp sent, ⟨partlyUp_handed tracks part, ?_, partlyUp_lower tracks part,
    tracks.last, tracks.settled⟩, fun _ => Nat.le_refl _⟩, rfl⟩
  have moved : Streams sent top (g.partlyUp sent) st.assoc := by
    refine ⟨given.ssn, ?_, given.early, given.waits, given.top⟩
    rw [partlyUp_order tracks part, ← Progress.order_give tracks.handed.free]
    exact given.order
  exact streams_congr moved rfl

/-- The open message is the next of its stream if its SSN says so. -/
theorem partlyUp_turn (kind : m.unordered = false)
    (isNext : m.ssn = (st.assoc.inboundStream m.stream).nextSsn) :
    ordinal sent.messages m.stream (sent.cursor g.next).message = g.ssn m.stream := by
  have below := tracks.lower.near part.inside m part.here kind
  have window := tracks.streams.top m.stream
  have le := tracks.streams.ssn_le_ordinal (Sent.orderedAt_iff.mpr ⟨m, part.here, kind, rfl⟩)
    (not_mem_order part.new part.quiet)
  rw [tracks.streams.ssn, sent.numbered _ m part.here kind] at isNext
  exact ssn_inj le (Nat.le_refl _) (by omega) (by omega) isNext

/-- An ordered message in part moves its stream on: what waits goes behind it. -/
theorem partlyUp_tracks_ordered (kind : m.unordered = false)
    (isNext : m.ssn = (st.assoc.inboundStream m.stream).nextSsn) :
    TracksFrom sent top g past st (st.partlyUp.advanceStream m.stream) := by
  have handed := partlyUp_handed tracks part
  have lower := partlyUp_lower tracks part
  let st₁ := st.partlyUp.setStream m.stream
    ⟨(st.assoc.inboundStream m.stream).nextSsn + 1#16, (st.assoc.inboundStream m.stream).early⟩
  let g₁ := (g.partlyUp sent).bump m.stream
  have taken := streams_take tracks.streams tracks.handed.free part.here kind
    (not_mem_order part.new part.quiet) (partlyUp_turn tracks part kind isNext)
    (tracks.lower.near part.inside m part.here kind)
    (st.assoc.inboundStream m.stream).early (fun k => by
      split
      · next same => rw [same, tracks.settled m.stream]
      · rfl) (streamSet_setStream st m.stream _)
  have handed₁ : Handed sent g₁ past st₁ :=
    ⟨handed.isOpen, handed.held, handed.free, handed.log, handed.nodup, handed.known⟩
  have streams₁ : Streams sent top g₁ st₁.assoc := by
    refine streams_congr ⟨taken.ssn, ?_, taken.early, taken.waits, taken.top⟩ rfl
    have order : g₁.order = ((g.give (sent.cursor g.next).message).bump m.stream).order :=
      Progress.order_begin (n := (sent.cursor g.next).offset)
        part.quiet (tracks.handed.free part.quiet)
    rw [order]
    exact taken.order
  have lower₁ : Lower sent top g₁ st₁.assoc.tsnOooBuffer.get? st₁.assoc.reassembly :=
    lower_advance lower (advance_bump _ m.stream)
  obtain ⟨g', more⟩ := drainEarly_handsUp m.stream
    (st.assoc.inboundStream m.stream).early.entries.length handed₁ streams₁
  have others : SettledBut st₁.assoc m.stream := by
    intro other apart
    rw [(streamSet_setStream st.partlyUp m.stream _).others other apart]
    exact tracks.settled other
  have settled := drainEarly_settled m.stream (st.assoc.inboundStream m.stream).early.entries.length
    others (by rw [(streamSet_setStream st.partlyUp m.stream _).here])
  have drained : st.partlyUp.advanceStream m.stream
      = st₁.drainEarly m.stream (st.assoc.inboundStream m.stream).early.entries.length := rfl
  have only := more.only
  rw [drained]
  refine ⟨⟨g', ⟨more.handed, more.streams, ?_, ?_, settled⟩, fun other => ?_⟩, ?_⟩
  · rw [only]
    exact lower_advance lower₁ more.advance
  · rw [more.advance.next, only]
    exact tracks.last
  · exact Nat.le_trans ((advance_bump (g.partlyUp sent) m.stream).ssn other)
      (more.advance.ssn other)
  · unfold ReceiveOnly
    rw [only]
    rfl

end PartlyUp

/-- With little window left, the message next in its stream may go up in part. -/
theorem startPartialDelivery_tracks (tracks : Tracks sent top g past st) (used : Nat) :
    TracksFrom sent top g past st (st.startPartialDelivery used) := by
  unfold Receiving.startPartialDelivery
  simp only
  split
  · next test =>
    simp only [Bool.and_eq_true, Bool.or_eq_true, beq_iff_eq, Bool.not_eq_true',
      List.isEmpty_eq_false_iff] at test
    obtain ⟨⟨⟨isOpen, some⟩, -⟩, turn⟩ := test
    have inside : (sent.cursor g.next).offset ≠ 0 := fun zero =>
      some (tracks.lower.straddles.1 zero).bytes
    obtain ⟨-, m, here, stream, ssn, unordered, gathered⟩ := tracks.lower.straddles.2 inside
    obtain ⟨-, none, -⟩ | ⟨new, bytes, -, quiet⟩ | ⟨-, none, -⟩ := gathered
    · exact absurd none some
    · have part : Partial sent g m st.assoc.reassembly :=
        ⟨inside, here, stream, ssn, unordered, isOpen, new, bytes, quiet⟩
      cases kind : m.unordered with
      | true =>
        rw [if_neg (by simp [unordered, kind])]
        exact partlyUp_tracks_unordered tracks part kind
      | false =>
        rw [if_pos (by simp [unordered, kind])]
        rw [unordered, kind, ssn, stream] at turn
        have moved := partlyUp_tracks_ordered tracks part kind (turn.resolve_left (by simp))
        rw [← stream] at moved
        exact moved
    · exact absurd none some
  · exact ⟨⟨g, tracks, fun _ => Nat.le_refl _⟩, rfl⟩

end Receiving

end SctpStack
