import SctpStack.Tidy
import SctpStack.Terms
import SctpStack.Receiver

/-!
# What is held for reordering

A SACK reports what is held for reordering by 16-bit offsets from the Cumulative TSN Ack.
Whatever the peer sends, every TSN that is held is within their reach, the TSNs come in
order, and the one after the Cumulative TSN Ack is not among them (`Reportable`). Nor is a
duplicate left unreported once a packet is handled. The Cumulative TSN Ack itself only
advances, by no more TSNs than were held or came.
-/

namespace SctpStack

/-! ## The out-of-order buffer -/

/-- The TSNs that are held, `next` being the one consumed next. -/
structure InReach (next : Tsn) (buffer : KeyMap Tsn HeldChunk) : Prop where
  near : ∀ tsn ∈ buffer.keys, (tsn - next).toNat < 65535
  sorted : buffer.keys.Pairwise fun s t => tsnLt s t = true

/-- Among TSNs within reach, serial order is that of their offsets. -/
theorem tsnLt_iff_of_near {next s t : Tsn} (first : (s - next).toNat < 65535)
    (second : (t - next).toNat < 65535) :
    tsnLt s t = true ↔ (s - next).toNat < (t - next).toNat := by
  rw [tsnLt_iff]
  bv_omega

namespace InReach

variable {next tsn : Tsn} {buffer buffer' : KeyMap Tsn HeldChunk}

theorem empty (next : Tsn) : InReach next ∅ :=
  ⟨fun _ member => absurd member List.not_mem_nil, .nil⟩

theorem sublist (reach : InReach next buffer) (fewer : buffer'.keys.Sublist buffer.keys) :
    InReach next buffer' :=
  ⟨fun t member => reach.near t (fewer.subset member), reach.sorted.sublist fewer⟩

theorem erase (reach : InReach next buffer) (tsn : Tsn) : InReach next (buffer.erase tsn) :=
  reach.sublist (KeyMap.keys_filterMap _ _)

/-- The TSN consumed next is not held, and is passed over. -/
theorem advance (reach : InReach next buffer) (gap : buffer.get? next = none) :
    InReach (next + 1#32) buffer := by
  refine ⟨fun t member => ?_, reach.sorted⟩
  have near := reach.near t member
  have apart : t ≠ next := by
    rintro rfl
    exact KeyMap.get?_eq_none.mp gap member
  bv_omega

/-- A TSN within reach that is not held yet is put where it belongs. -/
theorem hold (reach : InReach next buffer) (near : (tsn - next).toNat < 65535)
    (absent : buffer.get? tsn = none) (held : HeldChunk) :
    InReach next (buffer.emplaceBy tsnLt tsn held) := by
  have entries : (buffer.emplaceBy tsnLt tsn held).entries
      = KeyMap.place tsnLt tsn held buffer.entries :=
    KeyMap.entries_emplaceBy absent
  have keys : (buffer.emplaceBy tsnLt tsn held).keys
      = (KeyMap.place tsnLt tsn held buffer.entries).map Prod.fst :=
    congrArg (List.map Prod.fst) entries
  have all : ∀ t ∈ tsn :: buffer.keys, (t - next).toNat < 65535 :=
    List.forall_mem_cons.mpr ⟨near, reach.near⟩
  refine ⟨fun t member => ?_, ?_⟩
  · rw [keys] at member
    exact all t (((KeyMap.perm_place tsnLt tsn held buffer.entries).map Prod.fst).mem_iff.mp member)
  · rw [keys]
    refine KeyMap.pairwise_place (fun t => (t - next).toNat)
      (fun s first t second => tsnLt_iff_of_near (all s first) (all t second))
      (fun t member same => ?_) reach.sorted
    -- Two TSNs at one offset are one, and this one is not held.
    have same : t - next = tsn - next := BitVec.eq_of_toNat_eq same
    have : t = tsn := by
      rw [← BitVec.sub_add_cancel t next, same, BitVec.sub_add_cancel]
    exact KeyMap.get?_eq_none.mp absent (this ▸ member)

end InReach

/-! ## The chunks of a packet -/

/-- From `a` to `b` the Cumulative TSN Ack advanced, over no more TSNs than were held and
`came`. -/
def Advanced (came : Nat) (a b : Association) : Prop :=
  ∃ n, b.lastPeerTsn = Serial.ahead a.lastPeerTsn n
    ∧ n + b.tsnOooBuffer.entries.length ≤ a.tsnOooBuffer.entries.length + came

theorem Advanced.of_same {a b : Association} (last : b.lastPeerTsn = a.lastPeerTsn)
    (fewer : b.tsnOooBuffer.entries.length ≤ a.tsnOooBuffer.entries.length) : Advanced 0 a b :=
  ⟨0, by rw [last, Serial.ahead_zero], by omega⟩

theorem Advanced.trans {a b c : Association} {came more : Nat} (first : Advanced came a b)
    (second : Advanced more b c) :
    Advanced (came + more) a c := by
  obtain ⟨n, last, fewer⟩ := first
  obtain ⟨m, last', fewer'⟩ := second
  refine ⟨n + m, ?_, by omega⟩
  rw [last', last, Serial.ahead_add]
  rfl

theorem Advanced.mono {a b : Association} {came more : Nat} (advanced : Advanced came a b)
    (le : came ≤ more) :
    Advanced more a b := by
  obtain ⟨n, last, fewer⟩ := advanced
  exact ⟨n, last, by omega⟩

/-- What is held lies past a gap at the Cumulative TSN Ack, within reach of it. -/
structure PastGap (a : Association) : Prop where
  reach : InReach (a.lastPeerTsn + 1#32) a.tsnOooBuffer
  gap : a.tsnOooBuffer.get? (a.lastPeerTsn + 1#32) = none

theorem PastGap.congr {a b : Association} (past : PastGap a) (last : b.lastPeerTsn = a.lastPeerTsn)
    (buffer : b.tsnOooBuffer = a.tsnOooBuffer) : PastGap b := by
  obtain ⟨reach, gap⟩ := past
  exact ⟨by rw [last, buffer]; exact reach, by rw [last, buffer]; exact gap⟩

/-- The loop of `read_ooo_buffer` ends at a gap. -/
theorem readOooFrom_pastGap {fuel : Nat} {tsn : Tsn} {st st' : Receiving}
    (read : Receiving.readOooFrom fuel tsn st = (true, st'))
    (reach : InReach tsn st.assoc.tsnOooBuffer)
    (enough : st.assoc.tsnOooBuffer.entries.length ≤ fuel) :
    PastGap st'.assoc ∧ st'.assoc.duplicateTsns = st.assoc.duplicateTsns
      ∧ ∃ n, st'.assoc.lastPeerTsn + 1#32 = Serial.ahead tsn n
        ∧ n + st'.assoc.tsnOooBuffer.entries.length = st.assoc.tsnOooBuffer.entries.length := by
  have done : ∀ {tsn : Tsn} {st : Receiving}, InReach tsn st.assoc.tsnOooBuffer →
      st.assoc.tsnOooBuffer.get? tsn = none → PastGap { st.assoc with lastPeerTsn := tsn - 1#32 }
      ∧ tsn - 1#32 + 1#32 = Serial.ahead tsn 0 := by
    intro tsn st reach gap
    have same : tsn - 1#32 + 1#32 = tsn := BitVec.sub_add_cancel _ _
    refine ⟨⟨?_, ?_⟩, by rw [same, Serial.ahead_zero]⟩
    · rw [same]
      exact reach
    · rw [same]
      exact gap
  induction fuel generalizing tsn st with
  | zero =>
    cases read
    have none : st.assoc.tsnOooBuffer.get? tsn = none := by
      have empty := List.length_eq_zero_iff.mp (Nat.le_zero.mp enough)
      rw [KeyMap.get?, empty]
      rfl
    exact ⟨(done reach none).1, rfl, 0, (done reach none).2, Nat.zero_add _⟩
  | succ fuel ih =>
    unfold Receiving.readOooFrom at read
    cases found : st.assoc.tsnOooBuffer.get? tsn with
    | none =>
      rw [found] at read
      cases read
      exact ⟨(done reach found).1, rfl, 0, (done reach found).2, Nat.zero_add _⟩
    | some h =>
      rw [found] at read
      simp only at read
      have gains := st.reassemble_gains h.data (!h.assembled && !h.data.userData.isEmpty)
      split at read
      · cases read
      · have fewer := KeyMap.length_erase found
        have next : InReach (tsn + 1#32) (st.assoc.tsnOooBuffer.erase tsn) :=
          (reach.erase tsn).advance (by simp)
        rw [← gains.buffer] at fewer next found
        obtain ⟨past, duplicates, n, last, count⟩ := ih read next (by
          rw [gains.buffer] at fewer
          simp only [gains.buffer]
          omega)
        refine ⟨past, duplicates.trans ?_, n + 1, ?_, ?_⟩
        · rw [gains.same]
        · rw [last, Nat.add_comm, Serial.ahead_add]
          simp only [Serial.ahead]
        · simp only [gains.buffer] at count fewer
          omega

/-- Assembling a message ahead of time empties its chunks where they are. -/
theorem assembleEarly_keys (st : Receiving) (tsn : Tsn) :
    (st.assembleEarly tsn).2.assoc.lastPeerTsn = st.assoc.lastPeerTsn
      ∧ (st.assembleEarly tsn).2.assoc.duplicateTsns = st.assoc.duplicateTsns
      ∧ (st.assembleEarly tsn).2.assoc.tsnOooBuffer.keys = st.assoc.tsnOooBuffer.keys := by
  unfold Receiving.assembleEarly
  split
  · exact ⟨rfl, rfl, rfl⟩
  · next arrived _ =>
    simp only
    split
    · next first last _ _ =>
      have ordered := Ordered.orderMessage
        { st with assoc := Receiving.markAssembled st.assoc first ((last - first).toNat + 1) }
          arrived.streamIdentifier
        arrived.streamSeqNum arrived.unordered
          (Receiving.fragmentBytes st.assoc first ((last - first).toNat + 1))
      rw [ordered.same]
      refine ⟨rfl, rfl, ?_⟩
      simp only [Receiving.markAssembled, KeyMap.keys, KeyMap.entries_mapVals, List.map_map]
      rfl
    · exact ⟨rfl, rfl, rfl⟩

theorem length_keys (buffer : KeyMap Tsn HeldChunk) : buffer.keys.length = buffer.entries.length :=
  List.length_map _

/-- Other chunks under the same TSNs. -/
theorem PastGap.of_keys {a b : Association} (past : PastGap a)
    (last : b.lastPeerTsn = a.lastPeerTsn) (keys : b.tsnOooBuffer.keys = a.tsnOooBuffer.keys) :
    PastGap b := by
  obtain ⟨⟨near, sorted⟩, gap⟩ := past
  rw [KeyMap.get?_eq_none] at gap
  rw [← last, ← keys] at gap near
  exact ⟨⟨near, by rw [keys]; exact sorted⟩, KeyMap.get?_eq_none.mpr gap⟩

/-- The next TSN is consumed, and those held that follow it without a gap. -/
theorem readOooBuffer_pastGap {a : Association} {st st' : Receiving} (past : PastGap a)
    (last : st.assoc.lastPeerTsn = a.lastPeerTsn + 1#32)
    (buffer : st.assoc.tsnOooBuffer = a.tsnOooBuffer) (read : st.readOooBuffer = (true, st')) :
    PastGap st'.assoc ∧ st'.assoc.duplicateTsns = st.assoc.duplicateTsns
      ∧ Advanced 1 a st'.assoc := by
  have reach : InReach (st.assoc.lastPeerTsn + 1#32) st.assoc.tsnOooBuffer := by
    rw [last, buffer]
    exact past.reach.advance past.gap
  obtain ⟨past', duplicates, n, ahead, count⟩ := readOooFrom_pastGap read reach (Nat.le_refl _)
  rw [buffer] at count
  refine ⟨past', duplicates, n + 1, ?_, by omega⟩
  have next : st'.assoc.lastPeerTsn + 1#32 = Serial.ahead a.lastPeerTsn (n + 1) + 1#32 := by
    rw [ahead, last, Nat.add_comm n 1, Serial.ahead_add]
    simp only [Serial.ahead]
    ac_rfl
  rw [← BitVec.add_sub_cancel st'.assoc.lastPeerTsn 1#32, next, BitVec.add_sub_cancel]

/-- A chunk that is new and within reach is consumed or held. -/
theorem storeChunk_pastGap (st : Receiving) {data : DataChunkValue} {validStream : Bool}
    (past : PastGap st.assoc) (apart : data.tsn ≠ st.assoc.lastPeerTsn)
    (near : (data.tsn - st.assoc.lastPeerTsn).toNat ≤ 65535)
    (absent : st.assoc.tsnOooBuffer.get? data.tsn = none)
    (ok : (storeChunk st data validStream).1 = true) :
    PastGap (storeChunk st data validStream).2.assoc
      ∧ (storeChunk st data validStream).2.assoc.duplicateTsns = st.assoc.duplicateTsns
      ∧ Advanced 1 st.assoc (storeChunk st data validStream).2.assoc := by
  unfold storeChunk at ok ⊢
  split
  · next next_ =>
    rw [if_pos next_] at ok
    simp only at ok ⊢
    have gains := Receiving.reassemble_gains
        { st with assoc := { st.assoc with lastPeerTsn := data.tsn } } data validStream
    revert ok gains
    generalize Receiving.reassemble _ data validStream = taken
    intro ok gains
    split at ok
    · cases ok
    · next goes =>
      rw [if_neg goes]
      obtain ⟨past', duplicates, advanced⟩ :=
        readOooBuffer_pastGap past (by rw [gains.same]; exact next_) gains.buffer (Prod.ext ok rfl)
      exact ⟨past', duplicates.trans (by rw [gains.same]), advanced⟩
  · next later =>
    rw [if_neg later] at ok
    simp only at ok ⊢
    generalize HeldChunk.mk (if validStream then data else { data with userData := [] }) false
      = held at ok ⊢
    have kept : PastGap { st.assoc
        with tsnOooBuffer := st.assoc.tsnOooBuffer.emplaceBy tsnLt data.tsn held } := by
      refine ⟨past.reach.hold (by bv_omega) absent held, ?_⟩
      rw [KeyMap.get?_emplaceBy, if_neg (Ne.symm later)]
      exact past.gap
    have one : (st.assoc.tsnOooBuffer.emplaceBy tsnLt data.tsn held).entries.length
        = st.assoc.tsnOooBuffer.entries.length + 1 := (KeyMap.perm_emplaceBy absent).length_eq
    split
    · refine ⟨kept, rfl, 0, (Serial.ahead_zero _).symm, ?_⟩
      rw [Nat.zero_add]
      exact Nat.le_of_eq one
    · obtain ⟨last, duplicates, keys⟩ := assembleEarly_keys { st with assoc := { st.assoc with
        tsnOooBuffer := st.assoc.tsnOooBuffer.emplaceBy tsnLt data.tsn held } } data.tsn
      refine ⟨kept.of_keys last keys, duplicates, 0, last.trans (Serial.ahead_zero _).symm, ?_⟩
      rw [← length_keys, keys, length_keys, Nat.zero_add]
      exact Nat.le_of_eq one

/-- What a packet's chunks leave of the association `a` they found: `came` of them were
DATA. -/
structure TakesIn (came : Nat) (a : Association) (loop : DataLoop) : Prop where
  past : PastGap loop.st.assoc
  fresh : loop.sawDuplicate = false → loop.st.assoc.duplicateTsns = a.duplicateTsns
  few : loop.st.assoc.duplicateTsns.length ≤ a.duplicateTsns.length + came
  advanced : Advanced came a loop.st.assoc

theorem receiveChunk_takesIn {came : Nat} {a : Association} {loop : DataLoop} {flag : BitVec 8}
    {data : DataChunkValue} (takes : TakesIn came a loop)
    (ok : (receiveChunk loop flag data).violation = false) :
    TakesIn (came + 1) a (receiveChunk loop flag data) := by
  obtain ⟨past, fresh, few, advanced⟩ := takes
  have more : Advanced (came + 1) a loop.st.assoc := advanced.mono (Nat.le_succ _)
  unfold receiveChunk at ok ⊢
  simp only at ok ⊢
  split
  · refine ⟨past.congr rfl rfl, fun none => absurd none.symm Bool.false_ne_true, ?_, more⟩
    simp only [List.length_append, List.length_singleton]
    omega
  · next new =>
    rw [if_neg new] at ok
    rw [Bool.or_eq_true, not_or, Bool.not_eq_true, Bool.not_eq_true] at new
    obtain ⟨later, absent⟩ := new
    have apart : data.tsn ≠ loop.st.assoc.lastPeerTsn := by
      intro same
      rw [same] at later
      simp [tsnLte] at later
    split
    · exact ⟨past.congr rfl rfl, fresh, Nat.le_succ_of_le few, more⟩
    · next near =>
      rw [if_neg near] at ok
      split
      · exact ⟨past.congr rfl rfl, fresh, Nat.le_succ_of_le few, more⟩
      · next b used admitted =>
        rw [admitted] at ok
        -- Room was made by giving up a chunk that was held, if at all.
        obtain ⟨past', last, duplicates, fewer, gone⟩ : PastGap b
            ∧ b.lastPeerTsn = loop.st.assoc.lastPeerTsn
            ∧ b.duplicateTsns = loop.st.assoc.duplicateTsns
            ∧ b.tsnOooBuffer.entries.length ≤ loop.st.assoc.tsnOooBuffer.entries.length
            ∧ b.tsnOooBuffer.get? data.tsn = none := by
          have none := KeyMap.contains_eq_false.mp absent
          rcases admitChunk_spec admitted with ⟨rfl, -⟩ | ⟨highest, held, -, -, rfl, -⟩
          · exact ⟨past.congr rfl rfl, rfl, rfl, Nat.le_refl _, none⟩
          · refine ⟨⟨past.reach.erase highest, ?_⟩, rfl, rfl, ?_, ?_⟩
            · rw [KeyMap.get?_erase]
              split
              · rfl
              · exact past.gap
            · have keys := (KeyMap.keys_filterMap _
                _ : (loop.st.assoc.tsnOooBuffer.erase highest).keys.Sublist _).length_le
              rwa [length_keys, length_keys] at keys
            · rw [KeyMap.get?_erase]
              split
              · rfl
              · exact none
        obtain ⟨past'', duplicates', step⟩ := storeChunk_pastGap { loop.st with assoc := b } past'
          (by rw [last]; exact apart) (by rw [last]; exact Nat.not_lt.mp near) gone
            (by simpa using ok)
        have admitted' : Advanced came a b := by
          refine (advanced.trans (Advanced.of_same last fewer)).mono ?_
          exact Nat.le_refl _
        exact ⟨past'', fun none => (duplicates'.trans duplicates).trans (fresh none),
          by simp only [duplicates', duplicates]; omega, admitted'.trans step⟩

theorem receiveChunks_takesIn {came : Nat} {a : Association} {chunks : List Chunk} {loop : DataLoop}
    (takes : TakesIn came a loop) (ok : (receiveChunks chunks loop).violation = false) :
    TakesIn (came + chunks.length) a (receiveChunks chunks loop) := by
  induction chunks generalizing came loop with
  | nil => exact takes
  | cons chunk rest ih =>
    unfold receiveChunks at ok ⊢
    split
    · next data value =>
      rw [value] at ok
      simp only at ok ⊢
      split at ok
      · next stopped =>
        rw [stopped] at ok
        cases ok
      · next goes =>
        rw [if_neg goes]
        rw [Bool.not_eq_true] at goes
        have later := ih (receiveChunk_takesIn takes goes) ok
        rwa [Nat.add_assoc, Nat.add_comm 1] at later
    · next other =>
      split at ok
      · next data value => exact absurd value (other data)
      · obtain ⟨past, fresh, few, advanced⟩ := ih takes ok
        rw [List.length_cons]
        exact ⟨past, fresh, by omega, advanced.mono (by omega)⟩

theorem TakesIn.start (s : Socket) (key : AssociationKey) {a : Association} (immediately : Bool)
    (past : PastGap a) :
    TakesIn 0 a (Socket.DataLoop.start s key a immediately) :=
  ⟨past, fun _ => rfl, Nat.le_refl _, .of_same rfl (Nat.le_refl _)⟩

/-- The DATA of a packet that is no violation. -/
theorem takeData_takesIn (s : Socket) (key : AssociationKey) {a : Association} {chunks : List Chunk}
    (immediately : Bool) (past : PastGap a)
    (ok : (takeData chunks (Socket.DataLoop.start s key a immediately)).violation = false) :
    TakesIn chunks.length a (takeData chunks (Socket.DataLoop.start s key a immediately)) := by
  have start := TakesIn.start s key immediately past
  unfold takeData at ok ⊢
  simp only at ok ⊢
  split
  · next have_ =>
    rw [if_pos have_] at ok
    obtain ⟨past', fresh, few, advanced⟩ := receiveChunks_takesIn start ok
    have gains := Receiving.startPartialDelivery_gains
      (receiveChunks chunks (Socket.DataLoop.start s key a immediately)).st
      (receiveChunks chunks (Socket.DataLoop.start s key a immediately)).used
    rw [Nat.zero_add] at few advanced
    refine ⟨past'.congr (by rw [gains.same]) gains.buffer, fun none => ?_, ?_, ?_⟩
    · rw [gains.same]
      exact fresh none
    · rw [gains.same]
      exact few
    · obtain ⟨n, last, fewer⟩ := advanced
      exact ⟨n, by rw [gains.same]; exact last, by rw [gains.buffer]; exact fewer⟩
  · next none =>
    rw [if_neg none] at ok
    rw [← Nat.zero_add chunks.length]
    exact receiveChunks_takesIn start ok

/-! ## The reply -/

/-- What is held can be reported, and every duplicate was. -/
structure Reportable (a : Association) : Prop extends PastGap a where
  duplicates : a.duplicateTsns = []

theorem Reportable.of_holds {a b : Association} (reportable : Reportable a)
    (holds : StillHolds a b) : Reportable b where
  toPastGap := reportable.toPastGap.congr holds.lastPeerTsn holds.tsnOooBuffer
  duplicates := by
    rcases holds.duplicateTsns with same | none
    · rw [same]
      exact reportable.duplicates
    · exact none

/-- An association that holds nothing. -/
theorem Reportable.of_empty {a : Association} (buffer : a.tsnOooBuffer = ∅)
    (duplicates : a.duplicateTsns = []) :
    Reportable a where
  reach := by
    rw [buffer]
    exact .empty _
  gap := by
    rw [buffer]
    rfl
  duplicates := duplicates

/-- The duplicates go out with what is decided under the lock, unless a SACK is to follow. -/
theorem acknowledgeData_duplicates (s : Socket) (key : AssociationKey) {a : Association}
    {loop : DataLoop} (hole : Bool) (fresh : loop.sawDuplicate = false → a.duplicateTsns = []) :
    (s.acknowledgeData key a hole loop).2 = .sack
      ∨ (s.acknowledgeData key a hole loop).1.duplicateTsns = [] := by
  unfold Socket.acknowledgeData
  simp only
  split
  · split
    · exact Or.inr rfl
    · next none =>
      simp only [Bool.or_eq_true, Bool.not_eq_true', not_or, Bool.not_eq_false, List.isEmpty_iff]
        at none
      exact Or.inr none.1.2
  · split
    · exact Or.inl rfl
    · next delays =>
      simp only [Bool.or_eq_true, not_or, Bool.not_eq_true] at delays
      split
      · exact Or.inl rfl
      · exact Or.inr (fresh delays.1.1.1.2)

theorem sendSack_duplicates {s : Socket} {key : AssociationKey} {a : Association}
    (found : s.find? key = some a) (receives : receivesData a.state = true) :
    ∃ b, (s.sendSack key).find? key = some b ∧ b.duplicateTsns = [] := by
  unfold Socket.sendSack
  simp only [found, receives, Bool.not_true, Bool.false_eq_true, if_false]
  exact ⟨(s.makeSack key a).2, by
    refine (Socket.find?_setAssociation s key key _).trans ?_
    rw [if_pos rfl], rfl⟩

theorem sendDataReply_duplicates {s : Socket} {key : AssociationKey} {a b : Association}
    (found : s.find? key = some a) (receives : receivesData a.state = true) {now : Time}
    {destination : SockAddr} {reply : Socket.DataReply}
    (either : reply = .sack ∨ a.duplicateTsns = [])
    (after : (s.sendDataReply now key destination reply).find? key = some b) :
    b.duplicateTsns = [] := by
  cases reply with
  | sack =>
    obtain ⟨b', found', none⟩ := sendSack_duplicates found receives
    cases found'.symm.trans after
    exact none
  | shutdown packet =>
    have same : (s.sendDataReply now key destination (.shutdown packet)).find? key
        = s.find? key := by
      simp only [Socket.sendDataReply, Socket.restartT2]
      split <;> rfl
    cases found.symm.trans (same.symm.trans after)
    exact either.resolve_left (by simp)
  | delayedSack =>
    cases found.symm.trans after
    exact either.resolve_left (by simp)

/-- The DATA of a packet that is no violation is taken in and reported. -/
theorem receiveData_reportable {s : Socket} {key : AssociationKey} {a : Association}
    (found : s.find? key = some a) (receives : receivesData a.state = true) (now : Time)
    (packet : Packet) (src : SockAddr) {immediately : Bool}
    (ok : (takeData packet.chunks (Socket.DataLoop.start s key a immediately)).violation = false)
    (reportable : Reportable a) :
    ∃ b, (s.receiveData now packet key src immediately a).find? key = some b ∧ Reportable b
      ∧ Advanced packet.chunks.length a b := by
  obtain ⟨b, after, same⟩ := receiveData_spec now src found ok
  obtain ⟨past, fresh, -, n, last, fewer⟩ :=
    takeData_takesIn s key immediately reportable.toPastGap ok
  have state : (takeData packet.chunks (Socket.DataLoop.start s key a immediately)).st.assoc.state
      = a.state := by
    rw [takeData_only packet.chunks (Socket.DataLoop.start s key a immediately)]
    rfl
  refine ⟨b, after, ⟨past.congr same.lastPeerTsn same.tsnOooBuffer, ?_⟩, n, by
    rw [same.lastPeerTsn, last], by rw [same.tsnOooBuffer]; exact fewer⟩
  rw [reportable.duplicates] at fresh
  revert after
  unfold Socket.receiveData
  simp only [ok]
  split
  · rw [found]
    rintro ⟨rfl⟩
    exact reportable.duplicates
  · intro after
    have updated : ∀ s₁ : Socket, (∀ k, s₁.find? k = (s.setAssociation key (s.acknowledgeData key
        (takeData packet.chunks (Socket.DataLoop.start s key a immediately)).st.assoc
          (!a.tsnOooBuffer.isEmpty)
        (takeData packet.chunks (Socket.DataLoop.start s key a immediately))).1).find? k) →
        s₁.find? key = some (s.acknowledgeData key
          (takeData packet.chunks (Socket.DataLoop.start s key a immediately)).st.assoc
            (!a.tsnOooBuffer.isEmpty)
          (takeData packet.chunks (Socket.DataLoop.start s key a immediately))).1 := by
      intro s₁ same
      rw [same, Socket.find?_setAssociation, if_pos rfl]
    refine sendDataReply_duplicates (updated _ ?_) ?_ (acknowledgeData_duplicates s key _ fresh)
      after
    · intro k
      split <;> rfl
    · have same := congrArg Essence.state (essence_acknowledgeData s key
        (takeData packet.chunks (Socket.DataLoop.start s key a immediately)).st.assoc
          (!a.tsnOooBuffer.isEmpty)
        (takeData packet.chunks (Socket.DataLoop.start s key a immediately)))
      rw [show (s.acknowledgeData key _ _ _).1.state = _ from same.trans state]
      exact receives

/-! ## Runs -/

/-- What every association holds can be reported, and one that forms holds nothing. -/
structure Reports (s : Socket) : Prop where
  reportable : ∀ key a, s.find? key = some a → Reportable a
  unborn : ∀ key a, s.find? key = some a → forming a.state = true → a.tsnOooBuffer = ∅

namespace Reports

variable {s s' : Socket}

theorem lasting (reports : Reports s) (lasting : Lasting (fun _ => Stays) s s') : Reports s' where
  reportable := by
    intro key b found
    obtain ⟨a, before, stays⟩ := lasting.before found
    exact (reports.reportable key a before).of_holds stays.holds
  unborn := by
    intro key b found forms
    obtain ⟨a, before, stays⟩ := lasting.before found
    rw [stays.holds.tsnOooBuffer]
    exact reports.unborn key a before (stays.forms forms)

/-- One association is entered or goes, the others are as they were. -/
theorem entered (reports : Reports s) (key : AssociationKey)
    (others : ∀ k, k ≠ key → s'.find? k = s.find? k)
    (here : ∀ a, s'.find? key = some a → Reportable a
      ∧ (forming a.state = true → a.tsnOooBuffer = ∅)) : Reports s' where
  reportable := by
    intro k a found
    by_cases mine : k = key
    · rw [mine] at found
      exact (here a found).1
    · rw [others k mine] at found
      exact reports.reportable k a found
  unborn := by
    intro k a found
    by_cases mine : k = key
    · rw [mine] at found
      exact (here a found).2
    · rw [others k mine] at found
      exact reports.unborn k a found

theorem move (move : Move s s') (reports : Reports s) : Reports s' := by
  rcases move.kept with kept | ⟨key, s₁, gone, kept⟩
  · exact reports.lasting kept
  · have left : Reports s₁ := by
      refine reports.entered key (fun k apart => (gone.find? k).trans (if_neg apart)) fun a found =>
        ?_
      rw [gone.find?, if_pos rfl] at found
      cases found
    exact left.lasting kept

/-- An association that was entered by a cookie holds nothing. -/
theorem entry {key : AssociationKey} {cookie : StateCookie} (reports : Reports s)
    (entry : CookieEntry s key cookie s') :
    Reports s' := by
  refine reports.entered key entry.up.1 fun a found => ?_
  have up := entry.up.2 a found
  suffices empty : a.tsnOooBuffer = ∅ ∧ a.duplicateTsns = [] from
    ⟨.of_empty empty.1 empty.2, fun _ => empty.1⟩
  cases entry with
  | created absent =>
    rw [find?_createdFrom, if_pos rfl] at found
    cases found
    rw [withPaths_only]
    exact ⟨rfl, rfl⟩
  | restarted tcb was =>
    rw [Socket.restartedFrom, find?_createdFrom, if_pos rfl] at found
    cases found
    rw [withPaths_only]
    exact ⟨rfl, rfl⟩
  | collided tcb was local_ peer =>
    rw [find?_collidedWith was, if_pos rfl] at found
    cases found
    split <;> exact ⟨rfl, rfl⟩

theorem initAck {key : AssociationKey} {a : Association} (reports : Reports s)
    (found : s.find? key = some a) (waits : a.state = .cookieWait) (header : CommonHeader)
    (initAck : InitChunkValue) (src : SockAddr) (cookie : Bytes) :
    Reports (s.acceptInitAck header initAck key src cookie) := by
  obtain ⟨s₁, destination, errors, same, after, -⟩ :=
    acceptInitAck_eq found header initAck src cookie
  rw [same]
  refine reports.entered key (fun k apart => (after k).trans (if_neg apart)) fun b here => ?_
  have here : s₁.find? key = some b := here
  rw [after, if_pos rfl] at here
  cases here
  have empty := reports.unborn key a found (by rw [waits]; rfl)
  have duplicates := (reports.reportable key a found).duplicates
  rw [withPaths_only]
  exact ⟨.of_empty empty duplicates, fun _ => empty⟩

theorem associate (reports : Reports s) (draws : Draws) (toAddress : SockAddr) (port : Port) :
    Reports (s.sctpAssociate draws toAddress port).2 := by
  unfold Socket.sctpAssociate
  split
  · exact reports
  · simp only
    split
    · exact reports
    · have found : ∀ k, (s.associations.emplace (peerKey toAddress port)
        (initNewAssociation draws toAddress)).get? k
          = if k = peerKey toAddress port
            then some ((s.find? (peerKey toAddress port)).getD (initNewAssociation draws toAddress))
            else s.find? k :=
        fun k => KeyMap.get?_emplace s.associations _ k _
      refine reports.entered (peerKey toAddress port)
        (fun k apart => (found k).trans (if_neg apart)) fun a here => ?_
      have here : (s.associations.emplace (peerKey toAddress port)
          (initNewAssociation draws toAddress)).get?
        (peerKey toAddress port) = some a := here
      rw [found, if_pos rfl] at here
      cases was : s.find? (peerKey toAddress port) with
      | none =>
        rw [was] at here
        cases here
        exact ⟨.of_empty rfl rfl, fun _ => rfl⟩
      | some b =>
        rw [was] at here
        cases here
        exact ⟨reports.reportable _ b was, reports.unborn _ b was⟩

theorem doors (s : Socket) (now : Time) (draws : Nat → Draws) (packet : Packet) (src : SockAddr) :
    PacketDoors Reports s now draws packet src := by
  refine ⟨?_, ?_, ?_, ?_, ?_⟩
  · exact fun cookieData cookie s₁ _ _ entry reports => reports.entry entry
  · exact fun cookieData cookie tcb destination _ _ _ _ _ reports =>
      ⟨reports.reportable, reports.unborn⟩
  · exact fun s' key carried s₁ flag initAck a cookie _ _ found waits _ reports =>
      reports.initAck found waits packet.header initAck src cookie
  · intro s' key carried s₁ flag causes a staleness _ _ found outcome reports
    refine reports.entered key (fun k apart =>
      (Socket.find?_setAssociation s₁ key k _).trans (if_neg apart))
      fun b here => ?_
    have after := (Socket.find?_setAssociation s₁ key key _).symm.trans here
    rw [if_pos rfl] at after
    cases after
    have echoed : a.state = .cookieEchoed := by
      by_contra other
      rw [Socket.staleCookieOutcome, if_pos other] at outcome
      cases outcome
    have empty := reports.unborn key a found (by rw [echoed]; rfl)
    exact ⟨.of_empty empty (reports.reportable key a found).duplicates, fun _ => empty⟩
  · intro s' key carried s₁ a _ _ found receives ok taken reports
    obtain ⟨b, after, reportable, -⟩ := receiveData_reportable found receives now
      ⟨packet.header, (stripUnrecognized packet.chunks).1⟩ src ok (reports.reportable key a found)
    have each : ∀ k c, (s₁.receiveData now ⟨packet.header, (stripUnrecognized packet.chunks).1⟩
        key src carried a).find? k
        = some c → Reportable c ∧ (forming c.state = true → c.tsnOooBuffer = ∅) := by
      intro k c here
      obtain ⟨a', before, related⟩ := taken.before here
      by_cases mine : k = key
      · subst mine
        cases after.symm.trans here
        cases found.symm.trans before
        refine ⟨reportable, not_forming ?_⟩
        rw [show b.state = a.state from congrArg Essence.state related.essence]
        exact up_of_receivesData receives
      · rw [Taken, At, if_neg mine] at related
        refine ⟨(reports.reportable k a' before).of_holds related.holds, fun forms => ?_⟩
        rw [related.holds.tsnOooBuffer]
        exact reports.unborn k a' before (related.stays.forms forms)
    exact ⟨fun k c here => (each k c here).1, fun k c here => (each k c here).2⟩

theorem step {σ σ' : System} {event : Event} (stepped : σ.step event = some σ')
    (reports : Reports σ.socket) :
    Reports σ'.socket := by
  refine System.step_moves (fun _ _ => Reports.move) stepped (fun now draws packet src _ =>
    doors σ.socket now draws packet src) (fun now draws _ reports => ?_)
      (fun draws toAddress port _ reports => reports.associate draws toAddress port) reports
  exact runExpire_moves (fun _ _ => Reports.move) ⟨reports.reportable, reports.unborn⟩

/-- Before the DATA of a packet is taken. -/
theorem afterChunks {s s' s'' : Socket} {now : Time} {draws : Nat → Draws} {packet : Packet}
    {src : SockAddr} {key : AssociationKey} {carried stopped : Bool} (reports : Reports s)
    (dispatched : s.dispatch now draws packet src = some (s', key, carried))
    (after : s'.afterChunks now draws packet key src carried = (stopped, s'')) : Reports s'' := by
  have moves : ∀ s s', Move s s' → Reports s → Reports s' := fun _ _ => Reports.move
  have handled := afterChunks_moves moves (doors s now draws packet src) dispatched
    (dispatch_moves moves (doors s now draws packet src) reports dispatched)
  rw [after] at handled
  exact handled

end Reports

/-- In every state a socket reaches. -/
theorem reports_reached {ok : System → Event → Prop} {σ : System} (reached : System.Reached ok σ) :
    Reports σ.socket := by
  refine reached.invariant (fun σ => Reports σ.socket) ?_ fun _ _ _ reports _ stepped =>
    Reports.step stepped reports
  rintro _ ⟨address, rfl⟩
  refine ⟨fun key a found => ?_, fun key a found => ?_⟩
  · cases found
  · cases found

end SctpStack
