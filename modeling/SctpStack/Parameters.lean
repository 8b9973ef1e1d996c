import SctpStack.CookieCodec

/-!
# What is found among the parameters

Three loops of `serialize.cpp` go over the parameters of an INIT or INIT ACK. They agree
on where a parameter ends and where to stop: they all follow the walk of its TLVs
(`Walk`), and what one of them copies the others read (`Encodes`).
-/

namespace SctpStack

/-! ## TLVs -/

/-- A parameter: a type and a value that its length field can count. -/
structure Tlv where
  type : BitVec 16
  value : Bytes
  fits : sctpChunkHeaderSize + value.length ≤ 65535
deriving DecidableEq

namespace Tlv

/-- What the length field says, which does not count the padding. -/
def length (t : Tlv) : Nat := sctpChunkHeaderSize + t.value.length

def encoded (t : Tlv) : Bytes := append16 t.type ++ (append16 (BitVec.ofNat 16 t.length) ++ t.value)

/-- The whole parameter, zero-padded to a multiple of 4. -/
def padded (t : Tlv) : Bytes := resize t.encoded (pad4 t.length)

/-- The address of an IPv4 Address parameter. -/
def ipv4 (t : Tlv) : Option (BitVec 32) :=
  if t.type = paramIpv4Address ∧ t.length = 8 then some (readBe32 t.value) else none

/-- The parameter lies within `params`, from `offset` on. -/
def Lies (t : Tlv) (params : Bytes) (offset : Nat) :
    Prop := ∃ rest, params.drop offset = t.encoded ++ rest

theorem length_encoded (t : Tlv) : t.encoded.length = t.length := by
  simp [encoded, length, sctpChunkHeaderSize]
  omega

theorem four_le_length (t : Tlv) : 4 ≤ t.length := Nat.le_add_right _ _

variable {t : Tlv} {params : Bytes} {offset : Nat}

theorem Lies.within (lies : t.Lies params offset) : offset + t.length ≤ params.length := by
  obtain ⟨rest, layout⟩ := lies
  have size := congrArg List.length layout
  rw [List.length_drop, List.length_append, length_encoded] at size
  have least := t.four_le_length
  omega

theorem Lies.parameterAt (lies : t.Lies params offset) :
    parameterAt params offset = some (t.type, t.length) := by
  have within := lies.within
  have least := t.four_le_length
  obtain ⟨rest, layout⟩ := lies
  rw [encoded, List.append_assoc] at layout
  have afterType := drop_of_drop layout (length_append16 _)
  rw [List.append_assoc] at afterType
  have length : (read16 params (offset + 2)).toNat = t.length := by
    rw [read16_of_drop afterType]
    exact toNat_length t.fits
  simp only [SctpStack.parameterAt, length, read16_of_drop layout, sctpChunkHeaderSize]
  rw [if_pos (by omega), if_neg (by simp; omega)]

theorem Lies.after (lies : t.Lies params offset) :
    ∃ rest, params.drop (offset + sctpChunkHeaderSize) = t.value ++ rest := by
  obtain ⟨rest, layout⟩ := lies
  have layout' : params.drop offset = (append16 t.type ++ append16 (BitVec.ofNat 16 t.length))
      ++ (t.value ++ rest) := by
    rw [layout, encoded]
    simp only [List.append_assoc]
  exact ⟨rest, drop_of_drop layout' rfl⟩

theorem Lies.value (lies : t.Lies params offset) :
    (params.drop (offset + sctpChunkHeaderSize)).take (t.length - sctpChunkHeaderSize)
      = t.value := by
  obtain ⟨rest, after⟩ := lies.after
  rw [after, length, Nat.add_sub_cancel_left, List.take_left]

/-- The address is read where it lies. -/
theorem Lies.read32 (lies : t.Lies params offset) (eight : t.length = 8) :
    SctpStack.read32 params (offset + 4) = readBe32 t.value := by
  obtain ⟨rest, after⟩ := lies.after
  have size : t.value.length = 4 := by
    simp only [length, sctpChunkHeaderSize] at eight
    omega
  have written : append32 (SctpStack.read32 t.value 0) ++ t.value.drop (0 + 4) = t.value.drop 0 :=
    append32_read32 (by omega)
  rw [List.drop_eq_nil_of_le (by omega), List.append_nil, List.drop_zero] at written
  rw [← written] at after
  exact read32_of_drop after

/-- What stands at an offset is one parameter at most. -/
theorem Lies.unique {t' : Tlv} (lies : t.Lies params offset) (lies' : t'.Lies params offset) :
    t = t' := by
  have same := lies.parameterAt.symm.trans lies'.parameterAt
  rw [Option.some.injEq, Prod.mk.injEq] at same
  have value := lies.value
  rw [same.2, lies'.value] at value
  obtain ⟨type, bytes, fits⟩ := t
  obtain ⟨type', bytes', fits'⟩ := t'
  cases same.1
  cases value
  rfl

/-- What the loops take for a parameter is one. -/
theorem lies_of_parameterAt {type : BitVec 16} {length : Nat}
    (found : SctpStack.parameterAt params offset = some (type, length)) :
    ∃ t : Tlv, t.Lies params offset ∧ t.type = type ∧ t.length = length := by
  unfold SctpStack.parameterAt at found
  split at found
  · next room =>
    simp only at found
    split at found
    · cases found
    · next valid =>
      simp only [Option.some.injEq, Prod.mk.injEq] at found
      obtain ⟨rfl, rfl⟩ := found
      have least : sctpChunkHeaderSize ≤ (read16 params (offset + 2)).toNat
          ∧ offset + (read16 params (offset + 2)).toNat ≤ params.length := by
        simpa [not_or] using valid
      have most := (read16 params (offset + 2)).isLt
      have size : ((params.drop (offset + sctpChunkHeaderSize)).take
          ((read16 params (offset + 2)).toNat - sctpChunkHeaderSize)).length
          = (read16 params (offset + 2)).toNat - sctpChunkHeaderSize := by
        rw [List.length_take, List.length_drop]
        omega
      have length : sctpChunkHeaderSize + ((params.drop (offset + sctpChunkHeaderSize)).take
          ((read16 params (offset + 2)).toNat - sctpChunkHeaderSize)).length
            = (read16 params (offset + 2)).toNat := by
        rw [size]
        omega
      refine ⟨⟨read16 params offset, _, by rw [length]; omega⟩,
        ⟨(params.drop (offset + sctpChunkHeaderSize)).drop
          ((read16 params (offset + 2)).toNat - sctpChunkHeaderSize), ?_⟩, rfl, length⟩
      -- the header is what was read, and the value the bytes after it
      have written : BitVec.ofNat 16 (read16 params (offset + 2)).toNat
          = read16 params (offset + 2) := by simp
      rw [encoded, Tlv.length]
      simp only [length, written]
      rw [List.append_assoc, List.append_assoc, List.take_append_drop]
      have second : append16 (read16 params (offset + 2))
          ++ params.drop (offset + sctpChunkHeaderSize) = params.drop (offset + 2) :=
        append16_read16 (by simp only [sctpChunkHeaderSize] at room; omega)
      rw [second, append16_read16 (by simp only [sctpChunkHeaderSize] at room; omega)]
  · cases found

theorem parameterAt_eq_none : SctpStack.parameterAt params offset = none ↔
    ∀ t : Tlv, ¬t.Lies params offset := by
  constructor
  · intro none t lies
    rw [lies.parameterAt] at none
    cases none
  · intro none
    cases found : SctpStack.parameterAt params offset with
    | none => rfl
    | some pair =>
      obtain ⟨t, lies, -⟩ := lies_of_parameterAt found
      exact absurd lies (none t)

end Tlv

/-- The parameters from an offset on: each advances by its length rounded up to 4, and
the walk ends where no parameter lies, or just after one that is not known and does not
ask to be skipped. -/
inductive Walk (known : BitVec 16 → Prop) (params : Bytes) : Nat → List Tlv → Prop where
  | malformed {offset : Nat} : (∀ t : Tlv, ¬t.Lies params offset) → Walk known params offset []
  | stops {offset : Nat} {t : Tlv} :
      t.Lies params offset → ¬known t.type → t.type &&& 0x8000#16 = 0#16 →
        Walk known params offset [t]
  | goesOn {offset : Nat} {t : Tlv} {rest : List Tlv} : t.Lies params offset →
      (known t.type ∨ t.type &&& 0x8000#16 ≠ 0#16) →
        Walk known params (offset + pad4 t.length) rest →
      Walk known params offset (t :: rest)

namespace Walk

variable {known : BitVec 16 → Prop} {params : Bytes}

/-- Every walk comes to an end. -/
theorem exists_walk (known : BitVec 16 → Prop) (params : Bytes) (offset : Nat) :
    ∃ walk, Walk known params offset walk := by
  generalize left : params.length - offset = n
  induction n using Nat.strongRecOn generalizing offset with
  | ind n ih =>
    by_cases some : ∃ t : Tlv, t.Lies params offset
    · obtain ⟨t, lies⟩ := some
      by_cases stop : ¬known t.type ∧ t.type &&& 0x8000#16 = 0#16
      · exact ⟨[t], .stops lies stop.1 stop.2⟩
      · have within := lies.within
        have least := t.four_le_length
        have padded := le_pad4 t.length
        obtain ⟨rest, walk⟩ := ih (params.length - (offset + pad4 t.length)) (by omega) _ rfl
        rw [not_and_or, not_not] at stop
        exact ⟨t :: rest, .goesOn lies stop walk⟩
    · exact ⟨[], .malformed (not_exists.mp some)⟩

/-- There is one walk from an offset. -/
theorem unique {offset : Nat} {walk walk' : List Tlv} (first : Walk known params offset walk)
    (second : Walk known params offset walk') : walk = walk' := by
  induction first generalizing walk' with
  | malformed none =>
    cases second with
    | malformed _ => rfl
    | stops lies _ _ => exact absurd lies (none _)
    | goesOn lies _ _ => exact absurd lies (none _)
  | stops lies foreign stop =>
    cases second with
    | malformed none => exact absurd lies (none _)
    | stops lies' _ _ => rw [lies.unique lies']
    | goesOn lies' further _ =>
      rw [← lies.unique lies'] at further
      rcases further with knows | skip
      · exact absurd knows foreign
      · exact absurd stop skip
  | goesOn lies further _ ih =>
    cases second with
    | malformed none => exact absurd lies (none _)
    | stops lies' foreign stop =>
      rw [lies.unique lies'] at further
      rcases further with knows | skip
      · exact absurd knows foreign
      · exact absurd stop skip
    | goesOn lies' _ walk =>
      cases lies.unique lies'
      rw [ih walk]

variable {offset fuel : Nat} {walk : List Tlv}

/-- `find_parameter` finds the first of its type in a walk on which every type is known. -/
theorem find (follows : Walk known params offset walk) (all : ∀ t ∈ walk, known t.type)
    (type : BitVec 16) (enough : params.length ≤ offset + fuel) :
    findParameterFrom params type fuel offset = (walk.find? fun t => decide (t.type = type)).map
      Tlv.value := by
  induction follows generalizing fuel with
  | malformed none =>
    cases fuel with
    | zero => rfl
    | succ fuel =>
      rw [findParameterFrom, Tlv.parameterAt_eq_none.mpr none]
      rfl
  | stops lies foreign _ => exact absurd (all _ (List.mem_singleton_self _)) foreign
  | @goesOn offset t rest lies _ _ ih =>
    have within := lies.within
    have least := t.four_le_length
    have padded := le_pad4 t.length
    cases fuel with
    | zero => omega
    | succ fuel =>
      rw [findParameterFrom, lies.parameterAt]
      simp only
      by_cases here : t.type = type
      · rw [if_pos here, List.find?_cons_of_pos (by simpa using here), lies.value]
        rfl
      · rw [if_neg here, List.find?_cons_of_neg (by simpa using here)]
        exact ih (fun t' inside => all t' (List.mem_cons_of_mem _ inside)) (by omega)

/-- `find_ipv4_addresses` lists the IPv4 Address parameters of such a walk. -/
theorem ipv4 (follows : Walk known params offset walk) (all : ∀ t ∈ walk, known t.type)
    (enough : params.length ≤ offset + fuel) :
    findIpv4AddressesFrom params fuel offset = walk.filterMap Tlv.ipv4 := by
  induction follows generalizing fuel with
  | malformed none =>
    cases fuel with
    | zero => rfl
    | succ fuel =>
      rw [findIpv4AddressesFrom, Tlv.parameterAt_eq_none.mpr none]
      rfl
  | stops lies foreign _ => exact absurd (all _ (List.mem_singleton_self _)) foreign
  | @goesOn offset t rest lies _ _ ih =>
    have within := lies.within
    have least := t.four_le_length
    have padded := le_pad4 t.length
    cases fuel with
    | zero => omega
    | succ fuel =>
      rw [findIpv4AddressesFrom, lies.parameterAt]
      simp only
      rw [ih (fun t' inside => all t' (List.mem_cons_of_mem _ inside)) (by omega)]
      split
      · next is =>
        have address : t.ipv4 = some (read32 params (offset + 4)) := by
          rw [Tlv.ipv4, if_pos is, lies.read32 is.2]
        rw [List.filterMap_cons_some address]
      · next other => rw [List.filterMap_cons_none (by rw [Tlv.ipv4, if_neg other])]

end Walk

/-! ## What is copied -/

/-- How much padding goes with a parameter. -/
def Tlv.padding (t : Tlv) : Nat := pad4 t.length - t.length

/-- Parameters one after another, each with its padding; only the last may lack some of it. -/
inductive Encodes : Bytes → List Tlv → Prop where
  | nil : Encodes [] []
  | last {t : Tlv} {padding : Bytes} :
      padding.length ≤ t.padding → Encodes (t.encoded ++ padding) [t]
  | cons {t : Tlv} {padding rest : Bytes} {later : List Tlv} :
      padding.length = t.padding → Encodes rest later →
        Encodes (t.encoded ++ padding ++ rest) (t :: later)

namespace Encodes

variable {bytes : Bytes} {tlvs : List Tlv}

/-- What encodes parameters is walked as these parameters. -/
theorem walk (encodes : Encodes bytes tlvs) {known : BitVec 16 → Prop}
    (all : ∀ t ∈ tlvs, known t.type) (front : Bytes) :
    Walk known (front ++ bytes) front.length tlvs := by
  induction encodes generalizing front with
  | nil =>
    refine .malformed fun t lies => ?_
    have within := lies.within
    have least := t.four_le_length
    rw [List.append_nil] at within
    omega
  | @last t padding short =>
    have lies : t.Lies (front ++ (t.encoded ++ padding)) front.length := ⟨padding, List.drop_left⟩
    refine .goesOn lies (Or.inl (all t (List.mem_singleton_self _))) (.malformed fun t' lies' => ?_)
    have within := lies'.within
    have least := t'.four_le_length
    have padded := le_pad4 t.length
    simp only [List.length_append, Tlv.length_encoded, Tlv.padding] at within short
    omega
  | @cons t padding rest later full _ ih =>
    have lies : t.Lies (front ++ (t.encoded ++ padding ++ rest)) front.length :=
      ⟨padding ++ rest, by rw [List.drop_left, List.append_assoc]⟩
    have ahead := ih (fun t' inside => all t' (List.mem_cons_of_mem _ inside))
      (front ++ (t.encoded ++ padding))
    have moved : (front ++ (t.encoded ++ padding)).length = front.length + pad4 t.length := by
      have padded := le_pad4 t.length
      simp only [List.length_append, Tlv.length_encoded, full, Tlv.padding]
      omega
    rw [moved, List.append_assoc] at ahead
    exact .goesOn lies (Or.inl (all t List.mem_cons_self)) ahead

end Encodes

section Scanning

variable {params : Bytes} {offset : Nat} {t : Tlv} {recognized : List (BitVec 16)}

theorem scan_malformed (none : ∀ t : Tlv, ¬t.Lies params offset) (fuel : Nat)
    (scan : ParameterScan) :
    scanParametersFrom params recognized fuel offset scan = scan := by
  cases fuel with
  | zero => rfl
  | succ fuel =>
    rw [scanParametersFrom, Tlv.parameterAt_eq_none.mpr none]

/-- A recognized parameter is copied with the padding that is there. -/
theorem scan_recognized (lies : t.Lies params offset) (known : t.type ∈ recognized) (fuel : Nat)
    (scan : ParameterScan) :
    scanParametersFrom params recognized (fuel + 1) offset scan
      = scanParametersFrom params recognized fuel (offset + pad4 t.length)
          { scan with recognized := scan.recognized
            ++ (params.drop offset).take (pad4 t.length) } := by
  have all : (params.drop offset).take (min (pad4 t.length) (params.length - offset))
      = (params.drop offset).take (pad4 t.length) := by
    rw [← List.length_drop, ← List.take_take, List.take_length]
  rw [scanParametersFrom, lies.parameterAt]
  simp only [if_pos known, all]

/-- Another parameter is reported if it asks for it. -/
theorem scan_foreign (lies : t.Lies params offset) (foreign : t.type ∉ recognized) (fuel : Nat)
    (scan : ParameterScan) :
    scanParametersFrom params recognized (fuel + 1) offset scan
      = (fun scan : ParameterScan => if t.type &&& 0x8000#16 = 0#16 then scan
          else scanParametersFrom params recognized fuel (offset + pad4 t.length) scan)
        { scan with reported := scan.reported ++ if t.type &&& 0x4000#16 != 0#16 then [t.padded]
          else [] } := by
  have copied : (params.drop offset).take t.length = t.encoded := by
    obtain ⟨rest, layout⟩ := lies
    rw [layout, ← Tlv.length_encoded, List.take_left]
  rw [scanParametersFrom, lies.parameterAt]
  simp only [if_neg foreign, copied, beq_iff_eq]
  by_cases asks : t.type &&& 0x4000#16 = 0#16
  · simp [asks]
  · simp [asks, Tlv.padded]

end Scanning

namespace Encodes

variable {bytes : Bytes} {tlvs : List Tlv}

/-- Scanning it again copies it whole and reports nothing. -/
theorem rescan (encodes : Encodes bytes tlvs) {recognized : List (BitVec 16)}
    (all : ∀ t ∈ tlvs, t.type ∈ recognized) (front : Bytes) {fuel : Nat}
    (enough : bytes.length ≤ fuel) (scan : ParameterScan) :
    scanParametersFrom (front ++ bytes) recognized fuel front.length scan
      = { scan with recognized := scan.recognized ++ bytes } := by
  induction encodes generalizing front fuel scan with
  | nil =>
    rw [scan_malformed, List.append_nil]
    intro t lies
    have within := lies.within
    have least := t.four_le_length
    rw [List.append_nil] at within
    omega
  | @last t padding short =>
    have least := t.four_le_length
    have padded := le_pad4 t.length
    have lies : t.Lies (front ++ (t.encoded ++ padding)) front.length := ⟨padding, List.drop_left⟩
    simp only [List.length_append, Tlv.length_encoded] at enough
    obtain ⟨fuel, rfl⟩ : ∃ n, fuel = n + 1 := ⟨fuel - 1, by omega⟩
    have whole : (t.encoded ++ padding).take (pad4 t.length) = t.encoded ++ padding := by
      refine List.take_of_length_le ?_
      simp only [List.length_append, Tlv.length_encoded, Tlv.padding] at short ⊢
      omega
    rw [scan_recognized lies (all t (List.mem_singleton_self _)), List.drop_left, whole,
      scan_malformed]
    intro t' lies'
    have within := lies'.within
    have least := t'.four_le_length
    simp only [List.length_append, Tlv.length_encoded, Tlv.padding] at within short
    omega
  | @cons t padding rest later full _ ih =>
    have least := t.four_le_length
    have padded := le_pad4 t.length
    have lies : t.Lies (front ++ (t.encoded ++ padding ++ rest)) front.length :=
      ⟨padding ++ rest, by rw [List.drop_left, List.append_assoc]⟩
    have size : (t.encoded ++ padding).length = pad4 t.length := by
      simp only [List.length_append, Tlv.length_encoded, full, Tlv.padding]
      omega
    simp only [List.length_append, Tlv.length_encoded] at enough
    obtain ⟨fuel, rfl⟩ : ∃ n, fuel = n + 1 := ⟨fuel - 1, by omega⟩
    have ahead := @ih (fun t' inside => all t' (List.mem_cons_of_mem _ inside))
      (front ++ (t.encoded ++ padding)) fuel (by omega)
      { scan with recognized := scan.recognized ++ (t.encoded ++ padding) }
    have moved : (front ++ (t.encoded ++ padding)).length = front.length + pad4 t.length := by
      rw [List.length_append, size]
    rw [moved, List.append_assoc] at ahead
    have copied : (t.encoded ++ padding ++ rest).take (pad4 t.length) = t.encoded ++ padding := by
      rw [← size, List.take_left]
    rw [scan_recognized lies (all t List.mem_cons_self), List.drop_left, copied, ahead]
    simp only [List.append_assoc]

end Encodes

namespace Walk

variable {params : Bytes} {offset fuel : Nat} {walk : List Tlv} {recognized : List (BitVec 16)}

/-- What is reported of a walk. -/
def reports (recognized : List (BitVec 16)) (walk : List Tlv) : List Bytes :=
  (walk.filter fun t => !recognized.contains t.type && t.type &&& 0x4000#16 != 0#16).map Tlv.padded

theorem reports_cons_known {t : Tlv} (known : t.type ∈ recognized) (walk : List Tlv) :
    reports recognized (t :: walk) = reports recognized walk := by
  rw [reports, List.filter_cons_of_neg (by simp [known])]
  rfl

theorem reports_cons_foreign {t : Tlv} (foreign : t.type ∉ recognized) (walk : List Tlv) :
    reports recognized (t :: walk)
      = (if t.type &&& 0x4000#16 != 0#16 then [t.padded] else []) ++ reports recognized walk := by
  by_cases asks : t.type &&& 0x4000#16 != 0#16
  · rw [reports, List.filter_cons_of_pos (by simpa [foreign] using asks), if_pos asks]
    rfl
  · rw [reports, List.filter_cons_of_neg (by simpa [foreign] using asks), if_neg asks]
    rfl

/-- `scan_parameters` copies the recognized parameters of the walk and reports those of
the others that ask for it. -/
theorem scan (follows : Walk (· ∈ recognized) params offset walk) :
    ∃ copied, Encodes copied (walk.filter fun t => decide (t.type ∈ recognized))
      ∧ ∀ fuel scan, params.length ≤ offset + fuel →
        scanParametersFrom params recognized fuel offset scan
        = ⟨scan.recognized ++ copied, scan.reported ++ reports recognized walk⟩ := by
  induction follows with
  | malformed none =>
    refine ⟨[], .nil, fun fuel scan _ => ?_⟩
    rw [scan_malformed none]
    simp [reports]
  | @stops offset t lies foreign stop =>
    have within := lies.within
    have least := t.four_le_length
    refine ⟨[], ?_, fun fuel scan enough => ?_⟩
    · rw [List.filter_cons_of_neg (by simpa using foreign)]
      exact .nil
    · obtain ⟨fuel, rfl⟩ : ∃ n, fuel = n + 1 := ⟨fuel - 1, by omega⟩
      rw [scan_foreign lies foreign, reports_cons_foreign foreign]
      simp [stop, reports]
  | @goesOn offset t rest lies further walk ih =>
    obtain ⟨copied, encodes, scanned⟩ := ih
    have within := lies.within
    have least := t.four_le_length
    have padded := le_pad4 t.length
    by_cases known : t.type ∈ recognized
    · refine ⟨(params.drop offset).take (pad4 t.length) ++ copied, ?_, fun fuel scan enough => ?_⟩
      · rw [List.filter_cons_of_pos (by simpa using known)]
        obtain ⟨behind, layout⟩ := lies
        have piece : (params.drop offset).take (pad4 t.length) = t.encoded
            ++ behind.take t.padding := by
          rw [layout, List.take_append, Tlv.length_encoded,
            List.take_of_length_le (by rw [Tlv.length_encoded]; exact padded)]
          rfl
        rw [piece]
        by_cases full : t.padding ≤ behind.length
        · exact .cons (by rw [List.length_take, Nat.min_eq_left full]) encodes
        · -- the last parameter, without all of its padding
          have size := congrArg List.length layout
          rw [List.length_drop, List.length_append, Tlv.length_encoded] at size
          have none : ∀ t' : Tlv, ¬t'.Lies params (offset + pad4 t.length) := by
            intro t' lies'
            have within' := lies'.within
            have least' := t'.four_le_length
            simp only [Tlv.padding] at full
            omega
          cases walk with
          | malformed _ =>
            cases encodes
            rw [List.append_nil]
            exact .last (by rw [List.length_take]; exact Nat.min_le_left _ _)
          | stops lies' _ _ => exact absurd lies' (none _)
          | goesOn lies' _ _ => exact absurd lies' (none _)
      · obtain ⟨fuel, rfl⟩ : ∃ n, fuel = n + 1 := ⟨fuel - 1, by omega⟩
        rw [scan_recognized lies known, scanned fuel _ (by omega), reports_cons_known known]
        simp only [List.append_assoc]
    · have skip : t.type &&& 0x8000#16 ≠ 0#16 := further.resolve_left known
      refine ⟨copied, ?_, fun fuel scan enough => ?_⟩
      · rwa [List.filter_cons_of_neg (by simpa using known)]
      · obtain ⟨fuel, rfl⟩ : ∃ n, fuel = n + 1 := ⟨fuel - 1, by omega⟩
        rw [scan_foreign lies known, reports_cons_foreign known]
        simp only [if_neg skip, scanned fuel _ (by omega), List.append_assoc]

end Walk

/-! ## The three loops -/

/-- Every byte string has one walk, which ends, and no loop takes more steps than there
are bytes. What is recognized of the walk is copied so that it is walked again as it is,
what asks for it of the rest is reported; what the other loops find in the copy is what
is recognized in the walk; and another scan of the copy changes nothing. -/
theorem scanning_follows_walk (params : Bytes) (recognized : List (BitVec 16)) :
    (∀ fuel, params.length ≤ fuel →
        scanParametersFrom params recognized fuel 0 ⟨[], []⟩ = scanParameters params recognized
        ∧ (∀ type, findParameterFrom params type fuel 0 = findParameter params type)
        ∧ findIpv4AddressesFrom params fuel 0 = findIpv4Addresses params)
      ∧ ∃ walk, (∀ walk', Walk (· ∈ recognized) params 0 walk' ↔ walk' = walk)
        ∧ Walk (· ∈ recognized) (scanParameters params recognized).recognized 0
            (walk.filter fun t => decide (t.type ∈ recognized))
        ∧ (scanParameters params recognized).reported = Walk.reports recognized walk
        ∧ (∀ type, findParameter (scanParameters params recognized).recognized type
            = ((walk.filter fun t => decide (t.type ∈ recognized)).find? fun t =>
              decide (t.type = type)).map Tlv.value)
        ∧ findIpv4Addresses (scanParameters params recognized).recognized
            = (walk.filter fun t => decide (t.type ∈ recognized)).filterMap Tlv.ipv4
        ∧ scanParameters (scanParameters params recognized).recognized recognized
            = ⟨(scanParameters params recognized).recognized, []⟩ := by
  constructor
  · intro fuel enough
    obtain ⟨walk, follows⟩ := Walk.exists_walk (· ∈ recognized) params 0
    obtain ⟨every, all⟩ := Walk.exists_walk (fun _ => True) params 0
    refine ⟨?_, fun type => ?_, ?_⟩
    · obtain ⟨copied, -, scanned⟩ := follows.scan
      exact (scanned fuel ⟨[], []⟩ (by omega)).trans
        (scanned params.length ⟨[], []⟩ (by omega)).symm
    · exact (all.find (fun _ _ => trivial) type (by omega)).trans
        (all.find (fun _ _ => trivial) type (by omega)).symm
    · exact (all.ipv4 (fun _ _ => trivial) (by omega)).trans
        (all.ipv4 (fun _ _ => trivial) (by omega)).symm
  · obtain ⟨walk, follows⟩ := Walk.exists_walk (· ∈ recognized) params 0
    obtain ⟨copied, encodes, scanned⟩ := follows.scan
    have all : ∀ t ∈ walk.filter fun t => decide (t.type ∈ recognized), t.type ∈ recognized :=
      fun t inside => of_decide_eq_true (List.mem_filter.mp inside).2
    have whole : scanParameters params recognized = ⟨copied, Walk.reports recognized walk⟩ :=
      scanned params.length ⟨[], []⟩ (by omega)
    have again : Walk (· ∈ recognized) copied 0 (walk.filter fun t =>
        decide (t.type ∈ recognized)) := encodes.walk all []
    rw [whole]
    refine ⟨walk, fun walk' => ⟨fun other => other.unique follows, fun same => same ▸ follows⟩,
      again, rfl,
      fun type => again.find all type (Nat.le_add_left _ _), again.ipv4 all (Nat.le_add_left _ _),
        ?_⟩
    have rescanned := encodes.rescan all [] (Nat.le_refl _) ⟨[], []⟩
    exact rescanned

/-- A lone IPv4 Address parameter. -/
def loneAddress : Tlv := ⟨paramIpv4Address, [10#8, 0#8, 0#8, 1#8], by decide⟩

/-- Where IPv4 addresses are not recognized, one that is walked is not listed. -/
theorem lone_address_not_listed :
    Walk (· ∈ ([] : List (BitVec 16))) loneAddress.encoded 0 [loneAddress]
      ∧ findIpv4Addresses (scanParameters loneAddress.encoded []).recognized
        ≠ [loneAddress].filterMap Tlv.ipv4 := by
  refine ⟨.stops ⟨[], (List.append_nil _).symm⟩ List.not_mem_nil (by decide), ?_⟩
  decide +kernel

end SctpStack
