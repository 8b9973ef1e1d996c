import SctpStack.RecvPacket
import Mathlib.Algebra.Order.BigOperators.Group.List

/-!
# Encoding and decoding

What `serialize_sctp_packet` writes, `deserialize_sctp_packet` reads back, as long as the
length of every chunk fits its 16 bits (`encode_decode_iff`); the serializer does not
check that it does. What was decoded from a datagram always fits, so a packet can be
encoded again, and once is enough (`reencode_stable`).
-/

namespace SctpStack

/-! ## Words -/

theorem bytes16 (v : BitVec 16) : v.extractLsb' 8 8 ++ v.extractLsb' 0 8 = v := by
  ext i h
  simp only [BitVec.getElem_append, BitVec.getElem_extractLsb']
  split <;> simp <;> grind

theorem bytes32 (v : BitVec 32) :
    v.extractLsb' 24 8 ++ v.extractLsb' 16 8 ++ v.extractLsb' 8 8 ++ v.extractLsb' 0 8 = v := by
  ext i h
  simp only [BitVec.getElem_append, BitVec.getElem_extractLsb']
  repeat' split
  all_goals grind

@[simp] theorem length_append16 (v : BitVec 16) : (append16 v).length = 2 := rfl

@[simp] theorem length_append32 (v : BitVec 32) : (append32 v).length = 4 := rfl

theorem read16_append16 (v : BitVec 16) (rest : Bytes) : read16 (append16 v ++ rest) 0 = v :=
  bytes16 v

theorem read32_append32 (v : BitVec 32) (rest : Bytes) : read32 (append32 v ++ rest) 0 = v :=
  bytes32 v

theorem getD_drop (data : Bytes) (i j : Nat) : (data.drop i).getD j 0 = data.getD (i + j) 0 := by
  simp [List.getD_eq_getElem?_getD, List.getElem?_drop]

theorem read16_drop (data : Bytes) (i j : Nat) : read16 (data.drop i) j = read16 data (i + j) := by
  simp only [read16, getD_drop, Nat.add_assoc]

theorem read32_drop (data : Bytes) (i j : Nat) : read32 (data.drop i) j = read32 data (i + j) := by
  simp only [read32, getD_drop, Nat.add_assoc]

/-- The word that the bytes from `offset` on start with. -/
theorem read16_of_drop {data rest : Bytes} {offset : Nat} {v : BitVec 16}
    (layout : data.drop offset = append16 v ++ rest) : read16 data offset = v := by
  have word := read16_drop data offset 0
  rw [layout, read16_append16] at word
  exact word.symm

theorem read32_of_drop {data rest : Bytes} {offset : Nat} {v : BitVec 32}
    (layout : data.drop offset = append32 v ++ rest) : read32 data offset = v := by
  have word := read32_drop data offset 0
  rw [layout, read32_append32] at word
  exact word.symm

/-- What follows the first bytes of a layout. -/
theorem drop_of_drop {data pre rest : Bytes} {offset n : Nat}
    (layout : data.drop offset = pre ++ rest) (size : pre.length = n) :
    data.drop (offset + n) = rest := by
  rw [← List.drop_drop, layout, ← size, List.drop_left]

theorem toNat_length {n : Nat} (fits : n ≤ 65535) : (BitVec.ofNat 16 n).toNat = n := by
  rw [BitVec.toNat_ofNat]
  omega

theorem pad4_mono {m n : Nat} (le : m ≤ n) : pad4 m ≤ pad4 n := by
  unfold pad4
  omega

/-! ## The size of a chunk -/

/-- What one parameter or error cause takes. -/
def parameterSize (value : Bytes) : Nat := pad4 (sctpChunkHeaderSize + value.length)

/-- The bytes of a chunk's body. -/
def ChunkValue.bodySize : ChunkValue → Nat
  | .data v => 12 + v.userData.length
  | .init v | .initAck v => 16 + v.optionalParameters.length
  | .sack v => 12 + v.gapAckBlocks.length * 4 + v.duplicateTsns.length * 4
  | .heartbeat info | .heartbeatAck info => parameterSize info
  | .abort causes | .opError causes => (causes.map fun cause => parameterSize cause.info).sum
  | .shutdown _ => 4
  | .shutdownAck | .cookieAck | .shutdownComplete => 0
  | .cookieEcho cookieData => cookieData.length
  | .unknown _ body => body.length

/-- What Chunk Length has to say. -/
def Chunk.wireLength (chunk : Chunk) : Nat := sctpChunkHeaderSize + chunk.value.bodySize

/-- A value too long to be a parameter. -/
def tooLong (value : Bytes) : Prop := 65535 < sctpChunkHeaderSize + value.length

/-- What the serializer throws on: a parameter or cause too long for its length field,
and a SACK with wrong counts or a Gap Ack Block that is none. -/
def ChunkValue.Refused : ChunkValue → Prop
  | .heartbeat info | .heartbeatAck info => tooLong info
  | .abort causes | .opError causes => ∃ cause ∈ causes, tooLong cause.info
  | .sack v => v.numberOfGapAckBlocks.toNat ≠ v.gapAckBlocks.length
      ∨ v.numberOfDuplicateTsns.toNat ≠ v.duplicateTsns.length
      ∨ ∃ block ∈ v.gapAckBlocks, block.start = 0#16 ∨ block.stop.toNat < block.start.toNat
  | _ => False

theorem appendParameter_cases (type : BitVec 16) (value : Bytes) :
    (tooLong value ∧ appendParameter type value = none)
    ∨ (¬tooLong value ∧ ∃ padding : Bytes, (padding.length + (sctpChunkHeaderSize + value.length)
      = parameterSize value)
      ∧ appendParameter type value = some (append16 type
        ++ (append16 (BitVec.ofNat 16 (sctpChunkHeaderSize + value.length))
          ++ (value ++ padding)))) := by
  unfold appendParameter tooLong
  simp only
  by_cases long : sctpChunkHeaderSize + value.length > 65535
  · exact Or.inl ⟨long, if_pos long⟩
  · refine Or.inr ⟨long, List.replicate ((4 - (sctpChunkHeaderSize + value.length) % 4) % 4) 0#8,
      ?_, ?_⟩
    · rw [List.length_replicate, parameterSize, pad4]
      omega
    · rw [if_neg long]
      simp only [List.append_assoc]

theorem serializeErrorChunk_eq_none {causes : List ErrorCause} :
    serializeErrorChunk causes = none ↔ ∃ cause ∈ causes, tooLong cause.info := by
  induction causes with
  | nil => simp [serializeErrorChunk]
  | cons cause rest ih =>
    rw [serializeErrorChunk]
    rcases appendParameter_cases cause.code cause.info with ⟨long, none⟩ | ⟨fits, padding,
      -, encoded⟩
    · simp [none, long]
    · cases later : serializeErrorChunk rest with
      | none =>
        rw [later] at ih
        simpa [encoded, fits] using ih
      | some tail =>
        rw [later] at ih
        simpa [encoded, fits] using ih

/-- The serializer throws on exactly these. -/
theorem serializeChunkBody_eq_none {value : ChunkValue} :
    serializeChunkBody value = none ↔ value.Refused := by
  have parameter : ∀ (type : BitVec 16) (info : Bytes), appendParameter type info = none ↔
      tooLong info := by
    intro type info
    rcases appendParameter_cases type info with ⟨long, none⟩ | ⟨fits, padding, -, encoded⟩
    · simp [none, long]
    · simp [encoded, fits]
  cases value with
  | heartbeat info => exact parameter _ info
  | heartbeatAck info => exact parameter _ info
  | abort causes => exact serializeErrorChunk_eq_none
  | opError causes => exact serializeErrorChunk_eq_none
  | sack v =>
    simp only [serializeChunkBody, serializeSackChunk, ChunkValue.Refused]
    have gaps := v.numberOfGapAckBlocks.isLt
    have duplicates := v.numberOfDuplicateTsns.isLt
    by_cases many : v.gapAckBlocks.length > 65535 ∨ v.duplicateTsns.length > 65535
    · rw [if_pos many]
      simp only [true_iff]
      omega
    · rw [if_neg many]
      by_cases counts : v.numberOfGapAckBlocks.toNat ≠ v.gapAckBlocks.length
          ∨ v.numberOfDuplicateTsns.toNat ≠ v.duplicateTsns.length
      · rw [if_pos counts]
        simp only [true_iff]
        rcases counts with wrong | wrong
        · exact Or.inl wrong
        · exact Or.inr (Or.inl wrong)
      · rw [if_neg counts]
        rw [not_or, not_not, not_not] at counts
        simp [counts.1, counts.2, or_iff_not_imp_left]
  | _ => simp [serializeChunkBody, ChunkValue.Refused]

/-- A body that was written has the size its value says. -/
theorem length_serializeErrorChunk {causes : List ErrorCause} {body : Bytes}
    (encoded : serializeErrorChunk causes = some body) :
    body.length = (causes.map fun cause => parameterSize cause.info).sum := by
  induction causes generalizing body with
  | nil =>
    cases encoded
    rfl
  | cons cause rest ih =>
    rw [serializeErrorChunk] at encoded
    rcases appendParameter_cases cause.code cause.info with ⟨-, none⟩ | ⟨-, padding, size, head⟩
    · simp [none] at encoded
    · cases later : serializeErrorChunk rest with
      | none => simp [head, later] at encoded
      | some tail =>
        simp only [head, later, Option.some.injEq] at encoded
        rw [← encoded, List.map_cons, List.sum_cons, ← ih later, ← size]
        simp only [List.length_append, length_append16, sctpChunkHeaderSize]
        omega

theorem length_flatMap_const {α : Type} {f : α → Bytes} {n : Nat} (each : ∀ a, (f a).length = n)
    (l : List α) :
    (l.flatMap f).length = l.length * n := by
  induction l with
  | nil => simp
  | cons head tail ih =>
    rw [List.flatMap_cons, List.length_append, each, ih, List.length_cons, Nat.succ_mul,
      Nat.add_comm]

theorem length_serializeChunkBody {value : ChunkValue} {body : Bytes}
    (encoded : serializeChunkBody value = some body) :
    body.length = value.bodySize := by
  have parameter : ∀ {type : BitVec 16} {info out : Bytes}, appendParameter type info = some out →
      out.length = parameterSize info := by
    intro type info out some
    rcases appendParameter_cases type info with ⟨-, none⟩ | ⟨-, padding, size, head⟩
    · rw [none] at some
      cases some
    · rw [head, Option.some.injEq] at some
      rw [← some, ← size]
      simp only [List.length_append, length_append16, sctpChunkHeaderSize]
      omega
  cases value with
  | heartbeat info => exact parameter encoded
  | heartbeatAck info => exact parameter encoded
  | abort causes => exact length_serializeErrorChunk encoded
  | opError causes => exact length_serializeErrorChunk encoded
  | sack v =>
    simp only [serializeChunkBody, serializeSackChunk] at encoded
    split at encoded
    · cases encoded
    · split at encoded
      · cases encoded
      · split at encoded
        · cases encoded
        · rw [Option.some.injEq] at encoded
          rw [← encoded]
          simp only [List.length_append, length_append16, length_append32, ChunkValue.bodySize,
            length_flatMap_const length_append32,
            length_flatMap_const (f := fun block : SackGapAckBlock => append16 block.start
              ++ append16 block.stop)
              (n := 4) (fun _ => rfl)]
  | data v =>
    cases encoded
    simp only [serializeDataChunk, List.length_append, length_append16, length_append32,
      ChunkValue.bodySize]
  | init v =>
    cases encoded
    simp only [serializeInitChunk, List.length_append, length_append16, length_append32,
      ChunkValue.bodySize]
  | initAck v =>
    cases encoded
    simp only [serializeInitChunk, List.length_append, length_append16, length_append32,
      ChunkValue.bodySize]
  | _ =>
    cases encoded
    rfl

/-! ## Reading a body back -/

/-- The walk over the causes finds those that were written. -/
theorem deserializeErrorCauses_encoded {data : Bytes} {causes : List ErrorCause} {fuel offset : Nat}
    {body : Bytes} (encoded : serializeErrorChunk causes = some body)
    (layout : data.drop offset = body) (enough : causes.length ≤ fuel) :
    deserializeErrorCausesFrom data fuel offset = some causes := by
  induction causes generalizing fuel offset body with
  | nil =>
    cases encoded
    have size : data.length - offset = 0 := by rw [← List.length_drop, layout]; rfl
    cases fuel with
    | zero => rfl
    | succ fuel =>
      rw [deserializeErrorCausesFrom, if_neg (by simp only [sctpChunkHeaderSize]; omega)]
  | cons cause rest ih =>
    rw [serializeErrorChunk] at encoded
    rcases appendParameter_cases cause.code cause.info with ⟨-, none⟩ | ⟨fits, padding, size, head⟩
    · simp [none] at encoded
    · cases later : serializeErrorChunk rest with
      | none => simp [head, later] at encoded
      | some tail =>
        simp only [head, later, Option.some.injEq] at encoded
        rw [← encoded] at layout
        simp only [List.append_assoc] at layout
        obtain ⟨fuel, rfl⟩ : ∃ n, fuel = n + 1 :=
          ⟨fuel - 1, by rw [List.length_cons] at enough; omega⟩
        have long : data.length - offset = parameterSize cause.info + tail.length := by
          rw [← List.length_drop, layout, ← size]
          simp only [List.length_append, length_append16, sctpChunkHeaderSize]
          omega
        have padded := le_pad4 (sctpChunkHeaderSize + cause.info.length)
        unfold parameterSize at long size
        have positive : 4 ≤ sctpChunkHeaderSize + cause.info.length := Nat.le_add_right _ _
        have room : offset + (sctpChunkHeaderSize + cause.info.length) ≤ data.length := by omega
        have afterCode := drop_of_drop layout (length_append16 _)
        have afterLength := drop_of_drop afterCode (length_append16 _)
        have afterInfo := drop_of_drop afterLength rfl
        have afterPadding := drop_of_drop afterInfo rfl
        have length : (read16 data (offset + 2)).toNat
            = sctpChunkHeaderSize + cause.info.length := by
          rw [read16_of_drop afterCode]
          exact toNat_length (Nat.not_lt.mp fits)
        have info : (data.drop (offset + sctpChunkHeaderSize)).take cause.info.length
            = cause.info := by
          rw [show offset + sctpChunkHeaderSize = offset + 2 + 2 from rfl, afterLength,
            List.take_left]
        have next : data.drop (offset + pad4 (sctpChunkHeaderSize + cause.info.length)) = tail := by
          rw [← afterPadding, ← size]
          congr 1
          simp only [sctpChunkHeaderSize]
          omega
        rw [deserializeErrorCausesFrom, if_pos (by simp only [sctpChunkHeaderSize] at *; omega)]
        simp only [length]
        rw [if_neg (by omega), if_neg (by omega),
          ih later next (by rw [List.length_cons] at enough; omega), Nat.add_sub_cancel_left, info,
          read16_of_drop layout]
        rfl

theorem deserializeErrorChunk_encoded {causes : List ErrorCause} {body : Bytes}
    (encoded : serializeErrorChunk causes = some body) :
    deserializeErrorChunk body = some causes := by
  refine deserializeErrorCauses_encoded encoded rfl ?_
  rw [length_serializeErrorChunk encoded]
  clear encoded
  induction causes with
  | nil => exact Nat.le_refl _
  | cons cause rest ih =>
    have padded := le_pad4 (sctpChunkHeaderSize + cause.info.length)
    rw [List.map_cons, List.sum_cons, List.length_cons, parameterSize]
    simp only [sctpChunkHeaderSize] at padded ⊢
    omega

theorem deserializeHeartbeatChunk_encoded {info body : Bytes}
    (encoded : appendParameter paramHeartbeatInfo info = some body) :
    deserializeHeartbeatChunk body = some info := by
  rcases appendParameter_cases paramHeartbeatInfo info with ⟨-, none⟩ | ⟨fits, padding, size, head⟩
  · rw [none] at encoded
    cases encoded
  · rw [head, Option.some.injEq] at encoded
    have layout : body.drop 0 = _ := encoded.symm
    have afterType := drop_of_drop layout (length_append16 _)
    have afterLength := drop_of_drop afterType (length_append16 _)
    have length : (read16 body 2).toNat = sctpChunkHeaderSize + info.length := by
      rw [show read16 body 2 = _ from read16_of_drop afterType]
      exact toNat_length (Nat.not_lt.mp fits)
    have long : body.length = sctpChunkHeaderSize + info.length + padding.length := by
      rw [← encoded]
      simp only [List.length_append, length_append16, sctpChunkHeaderSize]
      omega
    obtain ⟨fuel, enough⟩ : ∃ n, body.length = n + 1 :=
      ⟨body.length - 1, by simp only [sctpChunkHeaderSize] at long; omega⟩
    have here : parameterAt body 0
        = some (paramHeartbeatInfo, sctpChunkHeaderSize + info.length) := by
      simp only [parameterAt, Nat.zero_add, length]
      rw [if_pos (by omega), if_neg (by simp; omega), read16_of_drop layout]
    rw [deserializeHeartbeatChunk, findParameter, enough, findParameterFrom, here]
    simp only [↓reduceIte, Nat.zero_add, Nat.add_sub_cancel_left]
    rw [show body.drop sctpChunkHeaderSize = _ from afterLength, List.take_left]

/-- Blocks in ascending order, apart, past the block that ends at `previous`. -/
def Ascending (previous : Option Nat) (blocks : List SackGapAckBlock) : Prop :=
  (∀ block ∈ blocks, block.start ≠ 0#16 ∧ block.start.toNat ≤ block.stop.toNat)
  ∧ (∀ block ∈ blocks, ∀ p, previous = some p → p < block.start.toNat)
  ∧ blocks.Pairwise fun a b => a.stop.toNat < b.start.toNat

theorem deserializeGapAckBlocks_encoded {data rest : Bytes} {blocks : List SackGapAckBlock}
    {offset : Nat} {previous : Option Nat} (ascending : Ascending previous blocks)
    (layout : data.drop offset = blocks.flatMap (fun block => append16 block.start
      ++ append16 block.stop) ++ rest) :
    deserializeGapAckBlocks data blocks.length offset previous = some blocks := by
  induction blocks generalizing offset previous with
  | nil => rfl
  | cons block later ih =>
    obtain ⟨valid, past, apart⟩ := ascending
    rw [List.flatMap_cons, List.append_assoc, List.append_assoc] at layout
    have afterStart := drop_of_drop layout (length_append16 _)
    have afterStop := drop_of_drop afterStart (length_append16 _)
    obtain ⟨nonzero, ordered⟩ := valid block List.mem_cons_self
    have next : Ascending (some block.stop.toNat) later := by
      refine ⟨fun b member => valid b (List.mem_cons_of_mem _ member), ?_,
        (List.pairwise_cons.mp apart).2⟩
      rintro b member p ⟨⟩
      exact (List.pairwise_cons.mp apart).1 b member
    have accepted : ¬(block.start = 0#16 ∨ block.stop.toNat < block.start.toNat
        ∨ previous.any (fun p => block.start.toNat ≤ p) = true) := by
      rintro (zero | wrong | overlaps)
      · exact nonzero zero
      · omega
      · obtain ⟨p, here, le⟩ := (Option.any_eq_true _ _).mp overlaps
        have := past block List.mem_cons_self p here
        simp only [decide_eq_true_eq] at le
        omega
    rw [List.length_cons, deserializeGapAckBlocks]
    simp only [read16_of_drop layout, read16_of_drop afterStart]
    rw [if_neg accepted, ih next afterStop]
    rfl

/-- Words written one behind the other are read back. -/
theorem readWords_encoded {data rest : Bytes} {words : List (BitVec 32)} {offset : Nat}
    (layout : data.drop offset = words.flatMap append32 ++ rest) :
    (List.range words.length).map (fun i => read32 data (offset + 4 * i)) = words := by
  induction words generalizing offset with
  | nil => rfl
  | cons word later ih =>
    rw [List.flatMap_cons, List.append_assoc] at layout
    have next := ih (drop_of_drop layout (length_append32 _))
    rw [List.length_cons, List.range_succ_eq_map, List.map_cons, List.map_map]
    congr 1
    · exact read32_of_drop layout
    · refine Eq.trans (List.map_congr_left fun i _ => ?_) next
      simp only [Function.comp_apply]
      congr 1
      omega

/-! ## Reading a chunk back -/

/-- The type octets with a chunk layout of their own. -/
def knownCodes : List (BitVec 8) :=
  [0#8, 1#8, 2#8, 3#8, 4#8, 5#8, 6#8, 7#8, 8#8, 9#8, 10#8, 11#8, 14#8]

/-- A chunk as the stack builds and decodes them: the body of an unknown chunk is that of
no known type, DATA has the flags of its header, and Gap Ack Blocks are in ascending
order. -/
def Chunk.WellFormed (chunk : Chunk) : Prop :=
  match chunk.value with
  | .data v => v.flags = chunk.flag &&& (dataFlagU ||| dataFlagB ||| dataFlagE)
  | .sack v => v.gapAckBlocks.Pairwise fun a b => a.stop.toNat < b.start.toNat
  | .unknown code _ => code ∉ knownCodes
  | _ => True

theorem deserializeInitChunk_encoded (v : InitChunkValue) :
    deserializeInitChunk (serializeInitChunk v) = some v := by
  have long : ¬(serializeInitChunk v).length < 16 := by
    simp only [serializeInitChunk, List.length_append, length_append16, length_append32]
    omega
  rw [deserializeInitChunk, if_neg long]
  simp only [serializeInitChunk, List.append_assoc]
  congr 1
  cases v
  simp only [InitChunkValue.mk.injEq]
  exact ⟨bytes32 _, bytes32 _, bytes16 _, bytes16 _, bytes32 _, rfl⟩

theorem deserializeDataChunk_encoded (v : DataChunkValue) {flag : BitVec 8}
    (flags : v.flags = flag &&& (dataFlagU ||| dataFlagB ||| dataFlagE)) :
    deserializeDataChunk (serializeDataChunk v) flag = some v := by
  have long : ¬(serializeDataChunk v).length < 12 := by
    simp only [serializeDataChunk, List.length_append, length_append16, length_append32]
    omega
  rw [deserializeDataChunk, if_neg long, ← flags]
  simp only [serializeDataChunk, List.append_assoc]
  congr 1
  cases v
  simp only [DataChunkValue.mk.injEq, and_true]
  exact ⟨bytes32 _, bytes16 _, bytes16 _, bytes32 _, rfl⟩

theorem deserializeSackChunk_encoded {v : SackChunkValue} {body : Bytes}
    (encoded : serializeSackChunk v = some body)
    (apart : v.gapAckBlocks.Pairwise fun a b => a.stop.toNat < b.start.toNat) :
    deserializeSackChunk body = some v := by
  have size : body.length = 12 + v.gapAckBlocks.length * 4 + v.duplicateTsns.length * 4 :=
    length_serializeChunkBody (show serializeChunkBody (.sack v) = some body from encoded)
  have accepted : ¬(ChunkValue.sack v).Refused := by
    rw [← serializeChunkBody_eq_none]
    intro none
    rw [serializeChunkBody, encoded] at none
    cases none
  simp only [ChunkValue.Refused, not_or, not_not, not_exists, not_and] at accepted
  obtain ⟨gaps, duplicates, valid⟩ := accepted
  simp only [serializeSackChunk] at encoded
  split at encoded
  · cases encoded
  · split at encoded
    · cases encoded
    · split at encoded
      · cases encoded
      · simp only [Option.some.injEq, List.append_assoc] at encoded
        have layout : body.drop 0 = _ := encoded.symm
        have afterAck := drop_of_drop layout (length_append32 _)
        have afterRwnd := drop_of_drop afterAck (length_append32 _)
        have afterGaps := drop_of_drop afterRwnd (length_append16 _)
        have afterDuplicates := drop_of_drop afterGaps (length_append16 _)
        have tsns := drop_of_drop afterDuplicates
          (length_flatMap_const (f := fun block : SackGapAckBlock => append16 block.start
            ++ append16 block.stop)
            (n := 4) (fun _ => rfl) _)
        rw [← List.append_nil (v.duplicateTsns.flatMap append32)] at tsns
        have blocks : deserializeGapAckBlocks body v.gapAckBlocks.length 12 none
            = some v.gapAckBlocks := by
          refine deserializeGapAckBlocks_encoded ⟨fun block member => ?_, fun _ _ _ absent =>
            (nomatch absent), apart⟩ afterDuplicates
          obtain ⟨nonzero, ordered⟩ := valid block member
          exact ⟨nonzero, Nat.not_lt.mp ordered⟩
        have gapCount : read16 body 8 = v.numberOfGapAckBlocks := read16_of_drop afterRwnd
        have duplicateCount : read16 body 10 = v.numberOfDuplicateTsns := read16_of_drop afterGaps
        rw [deserializeSackChunk, if_neg (by omega)]
        simp only [gapCount, duplicateCount, gaps, duplicates]
        rw [if_neg (by omega), blocks, Option.map_some, readWords_encoded tsns]
        congr 1
        cases v
        simp only [SackChunkValue.mk.injEq, and_true]
        exact ⟨read32_of_drop layout, read32_of_drop afterAck⟩

/-- The body of a chunk is read back as the value it was written from. -/
theorem deserializeChunkValue_encoded {chunk : Chunk} {body : Bytes} (formed : chunk.WellFormed)
    (encoded : serializeChunkBody chunk.value = some body) :
    deserializeChunkValue chunk.type.code chunk.flag body = some chunk.value := by
  obtain ⟨flag, value⟩ := chunk
  cases value with
  | data v =>
    cases encoded
    exact congrArg (Option.map ChunkValue.data) (deserializeDataChunk_encoded v formed)
  | init v =>
    cases encoded
    exact congrArg (Option.map ChunkValue.init) (deserializeInitChunk_encoded v)
  | initAck v =>
    cases encoded
    exact congrArg (Option.map ChunkValue.initAck) (deserializeInitChunk_encoded v)
  | sack v => exact congrArg (Option.map ChunkValue.sack) (deserializeSackChunk_encoded encoded
      formed)
  | heartbeat info => exact congrArg (Option.map
      ChunkValue.heartbeat) (deserializeHeartbeatChunk_encoded encoded)
  | heartbeatAck info => exact congrArg (Option.map
      ChunkValue.heartbeatAck) (deserializeHeartbeatChunk_encoded encoded)
  | abort causes => exact congrArg (Option.map ChunkValue.abort) (deserializeErrorChunk_encoded
      encoded)
  | opError causes => exact congrArg (Option.map ChunkValue.opError) (deserializeErrorChunk_encoded
      encoded)
  | shutdown tsn =>
    cases encoded
    have word : read32 (append32 tsn) 0 = tsn := bytes32 tsn
    simp [deserializeChunkValue, Chunk.type, ChunkType.code, deserializeShutdownChunk, word]
  | unknown code known =>
    cases encoded
    have other : ∀ n, code.toNat = n → BitVec.ofNat 8 n ∉ knownCodes := by
      rintro n rfl
      rw [BitVec.ofNat_toNat, BitVec.setWidth_eq]
      exact formed
    simp only [Chunk.type, ChunkType.code, deserializeChunkValue]
    split
    case h_14 => rfl
    all_goals
      next number => exact absurd (by decide) (other _ number)
  | _ =>
    cases encoded
    rfl

/-! ## Reading a packet back -/

theorem length_resize (data : Bytes) (n : Nat) : (resize data n).length = n := by
  rw [resize, List.length_append, List.length_take, List.length_replicate]
  omega

theorem length_serializeChunk {chunk : Chunk} {out : Bytes}
    (encoded : serializeChunk chunk = some out) :
    out.length = pad4 (chunk.wireLength % 65536) := by
  obtain ⟨body, written, rfl⟩ := Option.map_eq_some_iff.mp encoded
  simp only
  rw [length_resize, BitVec.toNat_ofNat, length_serializeChunkBody written]
  rfl

/-- A chunk whose length fits is its header, its body and padding. -/
theorem serializeChunk_fits {chunk : Chunk} {out : Bytes}
    (encoded : serializeChunk chunk = some out) (fits : chunk.wireLength ≤ 65535) :
    ∃ body padding : Bytes, serializeChunkBody chunk.value = some body
      ∧ padding.length + chunk.wireLength = pad4 chunk.wireLength
      ∧ out = chunk.type.code :: chunk.flag :: (append16 (BitVec.ofNat 16 chunk.wireLength)
        ++ (body ++ padding)) := by
  obtain ⟨body, written, rfl⟩ := Option.map_eq_some_iff.mp encoded
  have size : sctpChunkHeaderSize + body.length = chunk.wireLength := by
    rw [length_serializeChunkBody written]
    rfl
  have padded := le_pad4 chunk.wireLength
  refine ⟨body, List.replicate (pad4 chunk.wireLength - chunk.wireLength) 0#8, written, ?_, ?_⟩
  · rw [List.length_replicate]
    omega
  · simp only [size, toNat_length fits, resize]
    have long : ([chunk.type.code, chunk.flag] ++ append16 (BitVec.ofNat 16 chunk.wireLength)
        ++ body).length
        = chunk.wireLength := by
      rw [← size]
      simp only [List.length_append, length_append16, List.length_cons, List.length_nil,
        sctpChunkHeaderSize]
    rw [long, List.take_of_length_le (by rw [long]; exact padded)]
    simp only [List.append_assoc, List.cons_append, List.nil_append]

/-- The walk over the chunks finds those that were written. -/
theorem deserializeChunks_encoded {data : Bytes} {chunks : List Chunk} {fuel offset : Nat}
    {out : Bytes} (formed : ∀ chunk ∈ chunks, chunk.WellFormed)
    (fits : ∀ chunk ∈ chunks, chunk.wireLength ≤ 65535)
    (encoded : serializeChunks chunks = some out) (layout : data.drop offset = out)
    (enough : chunks.length ≤ fuel) :
    deserializeChunksFrom data fuel offset = some chunks := by
  induction chunks generalizing fuel offset out with
  | nil =>
    cases encoded
    have size : data.length - offset = 0 := by rw [← List.length_drop, layout]; rfl
    cases fuel with
    | zero => rfl
    | succ fuel => rw [deserializeChunksFrom, if_neg (by omega)]
  | cons chunk rest ih =>
    rw [serializeChunks] at encoded
    cases here : serializeChunk chunk with
    | none => simp [here] at encoded
    | some head =>
      cases later : serializeChunks rest with
      | none => simp [here, later] at encoded
      | some tail =>
        simp only [here, later, Option.some.injEq] at encoded
        have short := fits chunk List.mem_cons_self
        obtain ⟨body, padding, written, size, rfl⟩ := serializeChunk_fits here short
        rw [← encoded] at layout
        simp only [List.append_assoc, List.cons_append] at layout
        obtain ⟨fuel, rfl⟩ : ∃ n, fuel = n + 1 :=
          ⟨fuel - 1, by rw [List.length_cons] at enough; omega⟩
        have bodySize : sctpChunkHeaderSize + body.length = chunk.wireLength := by
          rw [length_serializeChunkBody written]
          rfl
        have long : data.length - offset = pad4 chunk.wireLength + tail.length := by
          rw [← List.length_drop, layout, ← size]
          simp only [List.length_append, List.length_cons, length_append16, sctpChunkHeaderSize]
            at bodySize ⊢
          omega
        have type : data.getD offset 0 = chunk.type.code := by
          have byte := getD_drop data offset 0
          rw [layout] at byte
          exact byte.symm
        have flag : data.getD (offset + 1) 0 = chunk.flag := by
          have byte := getD_drop data offset 1
          rw [layout] at byte
          exact byte.symm
        have afterFlag : data.drop (offset + 2) = _ :=
          drop_of_drop (show data.drop offset = [chunk.type.code, chunk.flag] ++ _ from layout) rfl
        have afterLength := drop_of_drop afterFlag (length_append16 _)
        have afterPadding : data.drop (offset + pad4 chunk.wireLength) = tail := by
          have next := drop_of_drop (drop_of_drop afterLength rfl) rfl
          rw [← next, ← size, ← bodySize]
          congr 1
          simp only [sctpChunkHeaderSize]
          omega
        have length : (read16 data (offset + 2)).toNat = chunk.wireLength := by
          rw [read16_of_drop afterFlag]
          exact toNat_length short
        have padded := le_pad4 chunk.wireLength
        have positive : 4 ≤ chunk.wireLength := Nat.le_add_right _ _
        have value : (data.drop (offset + sctpChunkHeaderSize)).take
            (chunk.wireLength - sctpChunkHeaderSize) = body := by
          rw [show offset + sctpChunkHeaderSize = offset + 2 + 2 from rfl, afterLength, ← bodySize,
            Nat.add_sub_cancel_left, List.take_left]
        have next : min (offset + pad4 chunk.wireLength) data.length
            = offset + pad4 chunk.wireLength :=
          Nat.min_eq_left (by omega)
        rw [deserializeChunksFrom, if_pos (by omega),
          if_neg (by simp only [sctpChunkHeaderSize]; omega)]
        simp only [length]
        rw [if_neg (by simp only [sctpChunkHeaderSize]; omega), if_neg (by omega), value, type,
          flag, deserializeChunkValue_encoded (formed chunk List.mem_cons_self) written]
        simp only [next]
        rw [ih (fun c member => formed c (List.mem_cons_of_mem _ member))
          (fun c member => fits c (List.mem_cons_of_mem _ member)) later afterPadding
          (by rw [List.length_cons] at enough; omega)]
        rfl

/-- The chunks of a packet on the wire take as many bytes as their length fields say. -/
theorem length_serializeChunks {chunks : List Chunk} {out : Bytes}
    (encoded : serializeChunks chunks = some out) :
    out.length = (chunks.map fun chunk => pad4 (chunk.wireLength % 65536)).sum := by
  induction chunks generalizing out with
  | nil =>
    cases encoded
    rfl
  | cons chunk rest ih =>
    rw [serializeChunks] at encoded
    cases here : serializeChunk chunk with
    | none => simp [here] at encoded
    | some head =>
      cases later : serializeChunks rest with
      | none => simp [here, later] at encoded
      | some tail =>
        simp only [here, later, Option.some.injEq] at encoded
        rw [← encoded, List.length_append, length_serializeChunk here, ih later, List.map_cons,
          List.sum_cons]

/-- Each chunk of a packet on the wire has a part of its own. -/
theorem serializeChunks_parts {chunks : List Chunk} {out : Bytes}
    (encoded : serializeChunks chunks = some out) :
    ∃ parts : List Bytes, List.Forall₂ (fun chunk part => serializeChunk chunk = some part)
      chunks parts
      ∧ out = parts.flatten := by
  induction chunks generalizing out with
  | nil =>
    cases encoded
    exact ⟨[], .nil, rfl⟩
  | cons chunk rest ih =>
    rw [serializeChunks] at encoded
    cases here : serializeChunk chunk with
    | none => simp [here] at encoded
    | some head =>
      cases later : serializeChunks rest with
      | none => simp [here, later] at encoded
      | some tail =>
        simp only [here, later, Option.some.injEq] at encoded
        obtain ⟨parts, each, rfl⟩ := ih later
        exact ⟨head :: parts, .cons here each, encoded.symm⟩

theorem readChecksumLe_writeChecksumLe (v : BitVec 32) (pre rest : Bytes) (offset : Nat)
    (size : pre.length = offset) :
    readChecksumLe (pre ++ writeChecksumLe v ++ rest) offset = v := by
  have byte : ∀ i, (pre ++ writeChecksumLe v ++ rest).getD (offset + i) 0
      = (writeChecksumLe v ++ rest).getD i 0 := by
    intro i
    rw [List.append_assoc, ← getD_drop, ← size, List.drop_left]
  have first := byte 0
  rw [Nat.add_zero] at first
  simp only [readChecksumLe, byte, first]
  exact bytes32 v

/-- A packet on the wire: the header with its checksum, and the chunks. -/
theorem serializeSctpPacket_layout {packet : Packet} {out : Bytes}
    (encoded : serializeSctpPacket packet = some out) :
    ∃ chunks, serializeChunks packet.chunks = some chunks
      ∧ out = append16 packet.header.srcPort ++ (append16 packet.header.desPort
          ++ (append32 packet.header.verificationTag
          ++ (writeChecksumLe (calculateSctpChecksum (sctpClearWireChecksum out)) ++ chunks))) := by
  obtain ⟨chunks, written, rfl⟩ := Option.map_eq_some_iff.mp encoded
  refine ⟨chunks, written, ?_⟩
  simp only [sctpClearWireChecksum, setChecksumField, List.append_assoc]
  rfl

theorem sctpReadWireChecksum_encoded {packet : Packet} {out : Bytes}
    (encoded : serializeSctpPacket packet = some out) :
    sctpReadWireChecksum out = calculateSctpChecksum (sctpClearWireChecksum out) := by
  obtain ⟨chunks, -, layout⟩ := serializeSctpPacket_layout encoded
  generalize calculateSctpChecksum (sctpClearWireChecksum out) = checksum at layout
  rw [layout, ← List.append_assoc, ← List.append_assoc, ← List.append_assoc]
  exact readChecksumLe_writeChecksumLe checksum _ chunks sctpChecksumOffset rfl

theorem length_serializeSctpPacket {packet : Packet} {out : Bytes}
    (encoded : serializeSctpPacket packet = some out) :
    out.length = sctpCommonHeaderSize + (packet.chunks.map fun chunk =>
      pad4 (chunk.wireLength % 65536)).sum := by
  obtain ⟨chunks, written, layout⟩ := serializeSctpPacket_layout encoded
  have size : out.length = 12 + chunks.length := by
    rw [layout]
    simp only [List.length_append, length_append16, length_append32, writeChecksumLe,
      List.length_cons, List.length_nil]
    omega
  rw [size, length_serializeChunks written]
  rfl

theorem length_le_sum_pad4 (chunks : List Chunk)
    (fits : ∀ chunk ∈ chunks, chunk.wireLength ≤ 65535) :
    chunks.length ≤ (chunks.map fun chunk => pad4 (chunk.wireLength % 65536)).sum := by
  induction chunks with
  | nil => exact Nat.le_refl _
  | cons chunk rest ih =>
    have later := ih fun c member => fits c (List.mem_cons_of_mem _ member)
    have short := fits chunk List.mem_cons_self
    have positive : 4 ≤ chunk.wireLength := Nat.le_add_right _ _
    have padded := le_pad4 (chunk.wireLength % 65536)
    rw [List.map_cons, List.sum_cons, List.length_cons]
    omega

/-- A packet whose chunks all fit is read back as it was written. -/
theorem deserializeSctpPacket_encoded {packet : Packet} {out : Bytes}
    (encoded : serializeSctpPacket packet = some out)
    (formed : ∀ chunk ∈ packet.chunks, chunk.WellFormed)
    (fits : ∀ chunk ∈ packet.chunks, chunk.wireLength ≤ 65535) :
    deserializeSctpPacket out = some packet := by
  have size := length_serializeSctpPacket encoded
  obtain ⟨chunks, written, layout⟩ := serializeSctpPacket_layout encoded
  have start : out.drop 0 = _ := layout
  have afterSource := drop_of_drop start (length_append16 _)
  have afterDestination := drop_of_drop afterSource (length_append16 _)
  have afterTag := drop_of_drop afterDestination (length_append32 _)
  have afterChecksum := drop_of_drop (n := 4) afterTag rfl
  have read : deserializeChunksFrom out out.length sctpCommonHeaderSize = some packet.chunks := by
    refine deserializeChunks_encoded formed fits written afterChecksum ?_
    have few := length_le_sum_pad4 packet.chunks fits
    omega
  rw [deserializeSctpPacket, if_neg (by omega), read, Option.map_some, read16_of_drop start,
    show read16 out 2 = _ from read16_of_drop afterSource, show read32 out 4
        = _ from read32_of_drop afterDestination]

/-! ## What decoding accepts -/

theorem deserializeErrorCauses_size {data : Bytes} {causes : List ErrorCause} {fuel offset : Nat}
    (decoded : deserializeErrorCausesFrom data fuel offset = some causes) :
    (causes.map fun cause => parameterSize cause.info).sum ≤ pad4 (data.length - offset)
      ∧ ∀ cause ∈ causes, ¬tooLong cause.info := by
  induction fuel generalizing causes offset with
  | zero =>
    cases decoded
    exact ⟨Nat.zero_le _, by simp⟩
  | succ fuel ih =>
    rw [deserializeErrorCausesFrom] at decoded
    split at decoded
    · simp only at decoded
      split at decoded
      · cases decoded
      · split at decoded
        · cases decoded
        · next long room =>
          obtain ⟨rest, later, rfl⟩ := Option.map_eq_some_iff.mp decoded
          obtain ⟨size, short⟩ := ih later
          have bound := (read16 data (offset + 2)).isLt
          generalize (read16 data (offset + 2)).toNat = length at *
          have info : ((data.drop (offset + sctpChunkHeaderSize)).take
              (length - sctpChunkHeaderSize)).length
              = length - sctpChunkHeaderSize := by
            rw [List.length_take, List.length_drop]
            omega
          constructor
          · rw [List.map_cons, List.sum_cons, parameterSize, info]
            unfold pad4 at *
            simp only [sctpChunkHeaderSize] at *
            omega
          · intro cause member
            rcases List.mem_cons.mp member with rfl | member
            · rw [tooLong, info]
              simp only [sctpChunkHeaderSize] at *
              omega
            · exact short cause member
    · cases decoded
      exact ⟨Nat.zero_le _, by simp⟩

theorem findParameter_size {params info : Bytes} {type : BitVec 16} {fuel offset : Nat}
    (found : findParameterFrom params type fuel offset = some info) :
    sctpChunkHeaderSize + info.length ≤ params.length ∧ ¬tooLong info := by
  induction fuel generalizing offset with
  | zero => cases found
  | succ fuel ih =>
    rw [findParameterFrom] at found
    cases here : parameterAt params offset with
    | none => simp [here] at found
    | some parameter =>
      obtain ⟨parameterType, length⟩ := parameter
      simp only [here] at found
      split at found
      · rw [Option.some.injEq] at found
        simp only [parameterAt] at here
        split at here
        · split at here
          · cases here
          · next room valid =>
            simp only [Option.some.injEq, Prod.mk.injEq] at here
            have bound := (read16 params (offset + 2)).isLt
            simp only [Bool.or_eq_true, decide_eq_true_eq, not_or] at valid
            rw [here.2] at valid bound
            rw [← found, tooLong, List.length_take, List.length_drop]
            simp only [sctpChunkHeaderSize] at *
            omega
        · cases here
      · exact ih found

theorem deserializeGapAckBlocks_spec {data : Bytes} {blocks : List SackGapAckBlock}
    {count offset : Nat} {previous : Option Nat}
    (decoded : deserializeGapAckBlocks data count offset previous = some blocks) :
    blocks.length = count ∧ Ascending previous blocks := by
  induction count generalizing blocks offset previous with
  | zero =>
    cases decoded
    exact ⟨rfl, by simp, by simp, List.Pairwise.nil⟩
  | succ count ih =>
    rw [deserializeGapAckBlocks] at decoded
    split at decoded
    · cases decoded
    · next valid =>
      obtain ⟨rest, later, rfl⟩ := Option.map_eq_some_iff.mp decoded
      obtain ⟨few, inside, past, apart⟩ := ih later
      simp only [not_or] at valid
      obtain ⟨nonzero, ordered, after⟩ := valid
      have beyond : ∀ p, previous = some p → p < (read16 data offset).toNat := by
        rintro p rfl
        simpa using after
      refine ⟨by rw [List.length_cons, few], ?_, ?_,
        List.pairwise_cons.mpr ⟨fun block member => ?_, apart⟩⟩
      · intro block member
        rcases List.mem_cons.mp member with rfl | member
        · exact ⟨nonzero, Nat.not_lt.mp ordered⟩
        · exact inside block member
      · intro block member p here
        rcases List.mem_cons.mp member with rfl | member
        · exact beyond p here
        · have first := beyond p here
          have second := past block member _ rfl
          omega
      · exact past block member _ rfl

/-- What is known of a value decoded from `body` under the type octet `code`. -/
structure Decoded (code flag : BitVec 8) (body : Bytes) (value : ChunkValue) : Prop where
  formed : Chunk.WellFormed ⟨flag, value⟩
  code : (Chunk.type ⟨flag, value⟩).code = code
  accepted : ¬value.Refused
  size : value.bodySize ≤ pad4 body.length

theorem decoded_data {flag : BitVec 8} {body : Bytes} {value : ChunkValue}
    (decoded : (deserializeDataChunk body flag).map ChunkValue.data = some value) :
    Decoded 0#8 flag body value := by
  obtain ⟨v, read, rfl⟩ := Option.map_eq_some_iff.mp decoded
  unfold deserializeDataChunk at read
  split at read
  · cases read
  · cases read
    refine ⟨rfl, rfl, id, ?_⟩
    have padded := le_pad4 body.length
    simp only [ChunkValue.bodySize, List.length_drop]
    omega

theorem decoded_init {body : Bytes} {v : InitChunkValue}
    (read : deserializeInitChunk body = some v) :
    16 + v.optionalParameters.length ≤ pad4 body.length := by
  unfold deserializeInitChunk at read
  split at read
  · cases read
  · cases read
    have padded := le_pad4 body.length
    simp only [List.length_drop]
    omega

theorem decoded_sack {flag : BitVec 8} {body : Bytes} {value : ChunkValue}
    (decoded : (deserializeSackChunk body).map ChunkValue.sack = some value) :
    Decoded 3#8 flag body value := by
  obtain ⟨v, read, rfl⟩ := Option.map_eq_some_iff.mp decoded
  unfold deserializeSackChunk at read
  split at read
  · cases read
  · simp only at read
    split at read
    · cases read
    · next size =>
      obtain ⟨gaps, blocks, rfl⟩ := Option.map_eq_some_iff.mp read
      obtain ⟨count, valid, -, apart⟩ := deserializeGapAckBlocks_spec blocks
      have padded := le_pad4 body.length
      refine ⟨apart, rfl, ?_, ?_⟩
      · simp only [ChunkValue.Refused, not_or, not_not, not_exists, not_and]
        refine ⟨count.symm, by simp, fun block member => ?_⟩
        obtain ⟨nonzero, ordered⟩ := valid block member
        exact ⟨nonzero, Nat.not_lt.mpr ordered⟩
      · simp only [ChunkValue.bodySize, count, List.length_map, List.length_range]
        omega

theorem decoded_causes {body : Bytes} {causes : List ErrorCause}
    (read : deserializeErrorChunk body = some causes) :
    (¬∃ cause ∈ causes, tooLong cause.info)
      ∧ (causes.map fun cause => parameterSize cause.info).sum ≤ pad4 body.length := by
  obtain ⟨size, short⟩ := deserializeErrorCauses_size read
  refine ⟨?_, size⟩
  rintro ⟨cause, member, long⟩
  exact short cause member long

theorem decoded_heartbeat {body info : Bytes} (read : deserializeHeartbeatChunk body = some info) :
    ¬tooLong info ∧ parameterSize info ≤ pad4 body.length := by
  obtain ⟨size, short⟩ := findParameter_size read
  exact ⟨short, pad4_mono size⟩

/-- What decoding accepts, it could have encoded. -/
theorem decoded_of_some {code flag : BitVec 8} {body : Bytes} {value : ChunkValue}
    (decoded : deserializeChunkValue code flag body = some value) :
    Decoded code flag body value := by
  have octet : ∀ {n : Nat}, code.toNat = n → BitVec.ofNat 8 n = code := by
    rintro n rfl
    rw [BitVec.ofNat_toNat, BitVec.setWidth_eq]
  unfold deserializeChunkValue at decoded
  split at decoded
  case h_1 number =>
    rw [← octet number]
    exact decoded_data decoded
  case h_2 number =>
    rw [← octet number]
    obtain ⟨v, read, rfl⟩ := Option.map_eq_some_iff.mp decoded
    exact ⟨trivial, rfl, id, decoded_init read⟩
  case h_3 number =>
    rw [← octet number]
    obtain ⟨v, read, rfl⟩ := Option.map_eq_some_iff.mp decoded
    exact ⟨trivial, rfl, id, decoded_init read⟩
  case h_4 number =>
    rw [← octet number]
    exact decoded_sack decoded
  case h_5 number =>
    rw [← octet number]
    obtain ⟨info, read, rfl⟩ := Option.map_eq_some_iff.mp decoded
    obtain ⟨short, size⟩ := decoded_heartbeat read
    exact ⟨trivial, rfl, short, size⟩
  case h_6 number =>
    rw [← octet number]
    obtain ⟨info, read, rfl⟩ := Option.map_eq_some_iff.mp decoded
    obtain ⟨short, size⟩ := decoded_heartbeat read
    exact ⟨trivial, rfl, short, size⟩
  case h_7 number =>
    rw [← octet number]
    obtain ⟨causes, read, rfl⟩ := Option.map_eq_some_iff.mp decoded
    obtain ⟨short, size⟩ := decoded_causes read
    exact ⟨trivial, rfl, short, size⟩
  case h_8 number =>
    rw [← octet number]
    obtain ⟨tsn, read, rfl⟩ := Option.map_eq_some_iff.mp decoded
    unfold deserializeShutdownChunk at read
    split at read
    · cases read
    · next size =>
      have padded := le_pad4 body.length
      exact ⟨trivial, rfl, id, by simp only [ChunkValue.bodySize]; omega⟩
  case h_10 number =>
    rw [← octet number]
    obtain ⟨causes, read, rfl⟩ := Option.map_eq_some_iff.mp decoded
    obtain ⟨short, size⟩ := decoded_causes read
    exact ⟨trivial, rfl, short, size⟩
  case h_14 =>
    cases decoded
    refine ⟨?_, rfl, id, le_pad4 _⟩
    simp only [Chunk.WellFormed, knownCodes, List.mem_cons, List.not_mem_nil, or_false, not_or]
    simp only [BitVec.toNat_eq, BitVec.toNat_ofNat]
    grind
  all_goals
    next number =>
      cases decoded
      rw [← octet number]
      first
        | exact ⟨trivial, rfl, id, Nat.zero_le _⟩
        | exact ⟨trivial, rfl, id, le_pad4 _⟩

/-- The chunks a walk over a packet finds could have been encoded. Where the packet ends
on a multiple of four, they take up no more than what the walk went over. -/
theorem deserializeChunks_spec {data : Bytes} {chunks : List Chunk} {fuel offset : Nat}
    (decoded : deserializeChunksFrom data fuel offset = some chunks) :
    (∀ chunk ∈ chunks, chunk.WellFormed ∧ ¬chunk.value.Refused ∧ chunk.wireLength
      ≤ pad4 (data.length - offset))
    ∧ (data.length % 4 = 0 → offset % 4 = 0 →
      (chunks.map fun chunk => pad4 chunk.wireLength).sum ≤ data.length - offset) := by
  induction fuel generalizing chunks offset with
  | zero =>
    cases decoded
    exact ⟨by simp, fun _ _ => Nat.zero_le _⟩
  | succ fuel ih =>
    rw [deserializeChunksFrom] at decoded
    split at decoded
    · split at decoded
      · cases decoded
      · simp only at decoded
        split at decoded
        · cases decoded
        · split at decoded
          · cases decoded
          · next header long room =>
            generalize (read16 data (offset + 2)).toNat = length at *
            split at decoded
            · cases decoded
            · next value read =>
              obtain ⟨rest, later, rfl⟩ := Option.map_eq_some_iff.mp decoded
              obtain ⟨formed, -, accepted, size⟩ := decoded_of_some read
              obtain ⟨each, total⟩ := ih later
              rw [List.length_take, List.length_drop] at size
              have first : (Chunk.mk (data.getD (offset + 1) 0) value).wireLength
                  ≤ pad4 length := by
                unfold Chunk.wireLength pad4 at *
                simp only [sctpChunkHeaderSize] at *
                omega
              constructor
              · intro chunk member
                rcases List.mem_cons.mp member with rfl | member
                · exact ⟨formed, accepted, Nat.le_trans first (pad4_mono (by omega))⟩
                · obtain ⟨formed', accepted', size'⟩ := each chunk member
                  exact ⟨formed', accepted', Nat.le_trans size' (pad4_mono (by omega))⟩
              · intro whole aligned
                have sum := total whole (by unfold pad4; omega)
                rw [List.map_cons, List.sum_cons]
                unfold pad4 at *
                omega
    · cases decoded
      exact ⟨by simp, fun _ _ => Nat.zero_le _⟩

/-! ## The two round trips -/

theorem serializeChunks_eq_none {chunks : List Chunk} :
    serializeChunks chunks = none ↔ ∃ chunk ∈ chunks, chunk.value.Refused := by
  induction chunks with
  | nil => simp [serializeChunks]
  | cons chunk rest ih =>
    rw [serializeChunks]
    cases here : serializeChunk chunk with
    | none =>
      have refused := serializeChunkBody_eq_none.mp (Option.map_eq_none_iff.mp here)
      simp [refused]
    | some head =>
      have accepted : ¬chunk.value.Refused := by
        rw [← serializeChunkBody_eq_none]
        intro none
        rw [serializeChunk, none] at here
        cases here
      cases later : serializeChunks rest with
      | none => simpa [later, accepted] using ih
      | some tail => simpa [later, accepted] using ih

theorem serializeSctpPacket_eq_none {packet : Packet} :
    serializeSctpPacket packet = none ↔ ∃ chunk ∈ packet.chunks, chunk.value.Refused := by
  rw [serializeSctpPacket, Option.map_eq_none_iff, serializeChunks_eq_none]

/-- The bytes a length field loses are missed somewhere. -/
theorem fits_of_sum_le {chunks : List Chunk}
    (enough : (chunks.map fun chunk => pad4 chunk.wireLength).sum
      ≤ (chunks.map fun chunk => pad4 (chunk.wireLength % 65536)).sum) :
    ∀ chunk ∈ chunks, chunk.wireLength ≤ 65535 := by
  have less : ∀ rest : List Chunk, (rest.map fun chunk => pad4 (chunk.wireLength % 65536)).sum
      ≤ (rest.map fun chunk => pad4 chunk.wireLength).sum :=
    fun rest => List.sum_le_sum fun chunk _ => pad4_mono (Nat.mod_le _ _)
  induction chunks with
  | nil => simp
  | cons chunk rest ih =>
    rw [List.map_cons, List.sum_cons, List.map_cons, List.sum_cons] at enough
    have others := less rest
    have short : chunk.wireLength ≤ 65535 := by
      unfold pad4 at *
      omega
    intro c member
    rcases List.mem_cons.mp member with rfl | member
    · exact short
    · refine ih ?_ c member
      rw [Nat.mod_eq_of_lt (by omega)] at enough
      omega

/-- What is read back as it was written had lengths that fit. -/
theorem fits_of_round_trip {packet : Packet} {out : Bytes}
    (encoded : serializeSctpPacket packet = some out)
    (decoded : deserializeSctpPacket out = some packet) :
    ∀ chunk ∈ packet.chunks, chunk.wireLength ≤ 65535 := by
  have size := length_serializeSctpPacket encoded
  have whole : (packet.chunks.map fun chunk => pad4 (chunk.wireLength % 65536)).sum % 4 = 0 := by
    generalize packet.chunks = chunks
    induction chunks with
    | nil => rfl
    | cons chunk rest ih =>
      rw [List.map_cons, List.sum_cons]
      unfold pad4 at *
      omega
  unfold deserializeSctpPacket at decoded
  split at decoded
  · cases decoded
  · obtain ⟨chunks, read, same⟩ := Option.map_eq_some_iff.mp decoded
    obtain ⟨-, total⟩ := deserializeChunks_spec read
    have chunks : chunks = packet.chunks := by rw [← same]
    rw [chunks, size, Nat.add_sub_cancel_left] at total
    simp only [sctpCommonHeaderSize] at total
    exact fits_of_sum_le (total (by omega) (by decide))

theorem decodePacket_encoded {packet : Packet} {out : Bytes}
    (encoded : serializeSctpPacket packet = some out) :
    decodePacket out = deserializeSctpPacket out := by
  have size := length_serializeSctpPacket encoded
  rw [decodePacket, if_neg (by omega), if_neg (by rw [sctpReadWireChecksum_encoded encoded]; simp)]

/-- A well-formed packet is refused, or encoded to bytes that are received as the same
packet, exactly if some chunk of it is one the serializer refuses, or every chunk's
length fits the 16 bits of its field. -/
theorem encode_decode_iff {packet : Packet} (formed : ∀ chunk ∈ packet.chunks, chunk.WellFormed) :
    (serializeSctpPacket packet = none
      ∨ ∃ bytes, serializeSctpPacket packet = some bytes ∧ decodePacket bytes = some packet)
    ↔ (∃ chunk ∈ packet.chunks, chunk.value.Refused) ∨ ∀ chunk ∈ packet.chunks, chunk.wireLength
      ≤ 65535 := by
  rw [serializeSctpPacket_eq_none]
  constructor
  · rintro (refused | ⟨bytes, encoded, decoded⟩)
    · exact Or.inl refused
    · rw [decodePacket_encoded encoded] at decoded
      exact Or.inr (fits_of_round_trip encoded decoded)
  · rintro (refused | fits)
    · exact Or.inl refused
    · cases encoded : serializeSctpPacket packet with
      | none => exact Or.inl (serializeSctpPacket_eq_none.mp encoded)
      | some bytes =>
        refine Or.inr ⟨bytes, rfl, ?_⟩
        rw [decodePacket_encoded encoded]
        exact deserializeSctpPacket_encoded encoded formed fits

/-- A SACK with two Gap Ack Blocks and a duplicate, and a fragment of three bytes behind it. -/
def sackAndData : Packet :=
  ⟨⟨5000#16, 5001#16, 7#32⟩,
    [⟨0#8, .sack ⟨100#32, 65535#32, 2#16, 1#16, [⟨2#16, 3#16⟩, ⟨5#16, 5#16⟩], [99#32]⟩⟩,
      ⟨0x02#8, .data ⟨200#32, 1#16, 9#16, 0#32, [1#8, 2#8, 3#8], 0x02#8⟩⟩]⟩

theorem sackAndData_round_trip :
    ∃ bytes, serializeSctpPacket sackAndData = some bytes ∧ decodePacket bytes
      = some sackAndData := by
  have formed : ∀ chunk ∈ sackAndData.chunks, chunk.WellFormed := by
    intro chunk member
    rcases List.mem_cons.mp member with rfl | member
    · exact List.pairwise_pair.mpr (by decide)
    · rcases List.mem_singleton.mp member with rfl
      exact rfl
  have fits : ∀ chunk ∈ sackAndData.chunks, chunk.wireLength ≤ 65535 := by decide
  have written : (serializeSctpPacket sackAndData).isSome = true := by decide +kernel
  rcases (encode_decode_iff formed).mpr (Or.inr fits) with none | some
  · rw [none] at written
    cases written
  · exact some

/-- A SACK for `n` TSNs, every other one. -/
def everyOther (n : Nat) : Chunk :=
  ⟨0#8, .sack {
    cumulativeTsnAck := 0#32
    aRwnd := 0#32
    numberOfGapAckBlocks := BitVec.ofNat 16 n
    numberOfDuplicateTsns := 0#16
    gapAckBlocks := (List.range n).map fun i =>
      ⟨BitVec.ofNat 16 (2 * i + 2), BitVec.ofNat 16 (2 * i + 2)⟩
    duplicateTsns := [] }⟩

theorem wireLength_everyOther (n : Nat) : (everyOther n).wireLength = 16 + n * 4 := by
  simp only [everyOther, Chunk.wireLength, ChunkValue.bodySize, List.length_map, List.length_range,
    List.length_nil, sctpChunkHeaderSize]
  omega

/-- Its blocks are in order and its counts right. -/
theorem formed_everyOther {n : Nat} (few : n ≤ 32766) :
    (everyOther n).WellFormed ∧ ¬(everyOther n).value.Refused := by
  have value : ∀ i < n, (BitVec.ofNat 16 (2 * i + 2)).toNat = 2 * i + 2 := fun i below =>
    toNat_length (by omega)
  constructor
  · refine List.pairwise_map.mpr (List.Pairwise.imp_of_mem ?_ List.pairwise_lt_range)
    intro i j inI inJ before
    rw [value i (List.mem_range.mp inI), value j (List.mem_range.mp inJ)]
    omega
  · simp only [everyOther, ChunkValue.Refused, not_or, not_not, not_exists, not_and,
      List.length_map, List.length_range]
    refine ⟨toNat_length (by omega), rfl, fun block member => ?_⟩
    obtain ⟨i, below, rfl⟩ := List.mem_map.mp member
    refine ⟨fun zero => ?_, Nat.lt_irrefl _⟩
    have number := value i (List.mem_range.mp below)
    simp only at zero
    rw [zero, BitVec.toNat_zero] at number
    omega

/-- A SACK of 16382 Gap Ack Blocks in order is taken by the serializer, and what it writes
is not received as that SACK. -/
theorem long_sack_garbled :
    (everyOther 16382).WellFormed
    ∧ ∃ bytes, serializeSctpPacket (packetWithHeader 5000#16 5000#16 7#32 [everyOther 16382])
      = some bytes
      ∧ decodePacket bytes ≠ some (packetWithHeader 5000#16 5000#16 7#32 [everyOther 16382]) := by
  obtain ⟨formed, accepted⟩ := formed_everyOther (n := 16382) (by decide)
  have length := wireLength_everyOther 16382
  generalize everyOther 16382 = sack at *
  refine ⟨formed, ?_⟩
  cases encoded : serializeSctpPacket (packetWithHeader 5000#16 5000#16 7#32 [sack]) with
  | none =>
    obtain ⟨chunk, member, refused⟩ := serializeSctpPacket_eq_none.mp encoded
    rcases List.mem_singleton.mp member with rfl
    exact absurd refused accepted
  | some bytes =>
    refine ⟨bytes, rfl, fun decoded => ?_⟩
    rw [decodePacket_encoded encoded] at decoded
    have fits := fits_of_round_trip encoded decoded sack (List.mem_singleton.mpr rfl)
    omega

/-- Every packet decoded from a datagram is encoded without a throw, under the checksum of
its bytes, and decoded to itself; so encoding it once more changes no byte. -/
theorem reencode_stable {data : Bytes} {packet : Packet} (short : data.length ≤ maxUdpDatagram)
    (decoded : deserializeSctpPacket data = some packet) :
    ∃ bytes, serializeSctpPacket packet = some bytes
      ∧ sctpReadWireChecksum bytes = calculateSctpChecksum (sctpClearWireChecksum bytes)
      ∧ deserializeSctpPacket bytes = some packet
      ∧ ∀ again, deserializeSctpPacket bytes = some again → serializeSctpPacket again
        = some bytes := by
  have each : ∀ chunk ∈ packet.chunks, chunk.WellFormed ∧ ¬chunk.value.Refused ∧ chunk.wireLength
      ≤ 65535 := by
    unfold deserializeSctpPacket at decoded
    split at decoded
    · cases decoded
    · obtain ⟨chunks, read, rfl⟩ := Option.map_eq_some_iff.mp decoded
      intro chunk member
      obtain ⟨formed, accepted, size⟩ := (deserializeChunks_spec read).1 chunk member
      refine ⟨formed, accepted, ?_⟩
      unfold pad4 at size
      simp only [sctpCommonHeaderSize, maxUdpDatagram] at *
      omega
  cases encoded : serializeSctpPacket packet with
  | none =>
    obtain ⟨chunk, member, refused⟩ := serializeSctpPacket_eq_none.mp encoded
    exact absurd refused (each chunk member).2.1
  | some bytes =>
    have same : deserializeSctpPacket bytes = some packet :=
      deserializeSctpPacket_encoded encoded (fun chunk member => (each chunk member).1)
        fun chunk member => (each chunk member).2.2
    refine ⟨bytes, rfl, sctpReadWireChecksum_encoded encoded, same, fun again read => ?_⟩
    rw [same, Option.some.injEq] at read
    rw [← read, encoded]

/-- A SHUTDOWN ACK with a byte behind it that its padding drops. -/
theorem shutdownAck_reencoded :
    ∃ packet bytes, deserializeSctpPacket [0x13#8, 0x88#8, 0x13#8, 0x88#8, 0#8, 0#8, 0#8, 7#8,
      0#8, 0#8, 0#8, 0#8,
        8#8, 0#8, 0#8, 5#8, 1#8] = some packet
      ∧ serializeSctpPacket packet = some bytes ∧ deserializeSctpPacket bytes = some packet := by
  have decoded : deserializeSctpPacket [0x13#8, 0x88#8, 0x13#8, 0x88#8, 0#8, 0#8, 0#8, 7#8, 0#8,
      0#8, 0#8, 0#8, 8#8, 0#8, 0#8, 5#8, 1#8]
        = some ⟨⟨5000#16, 5000#16, 7#32⟩, [⟨0#8, .shutdownAck⟩]⟩ := by decide
  obtain ⟨bytes, encoded, -, same, -⟩ := reencode_stable (by decide) decoded
  exact ⟨_, bytes, decoded, encoded, same⟩

end SctpStack
