import SctpStack.Codec

/-!
# The wire format of a cookie

A cookie is read back from what it is written to, and bytes that are read as a cookie are
written back the same, but for the reserved bytes (`state_cookie_codec`).
-/

namespace SctpStack

/-! ## From the cookie to its bytes -/

theorem words64 (v : BitVec 64) : v.extractLsb' 32 32 ++ v.extractLsb' 0 32 = v := by
  ext i h
  simp only [BitVec.getElem_append, BitVec.getElem_extractLsb']
  split <;> grind

/-- What is read from the body of a cookie. -/
def bodyFields (data : Bytes) (peerAddresses : List (BitVec 32)) (mac : Bytes) : StateCookie where
  version := data.getD 0 0
  secretGeneration := data.getD 1 0
  createdUs := read32 data 4 ++ read32 data 8
  lifespanUs := read32 data 12
  sctpSrcPort := read16 data 16
  sctpDstPort := read16 data 18
  peerIpv4 := read32 data 20
  peerUdpPort := read16 data 24
  localVerTag := read32 data 28
  peerVerTag := read32 data 32
  localInitialTsn := read32 data 36
  peerInitialTsn := read32 data 40
  peerARwnd := read32 data 44
  localOutStreams := read16 data 48
  localInStreams := read16 data 50
  peerOutStreams := read16 data 52
  peerInStreams := read16 data 54
  localTieTag := read32 data 56
  peerTieTag := read32 data 60
  peerAddresses := peerAddresses
  mac := mac

/-- The fields come back from the body, whatever is behind it. -/
theorem bodyFields_stateCookieBody (cookie : StateCookie) (rest : Bytes) :
    (∀ peerAddresses mac, bodyFields (stateCookieBody cookie ++ rest) peerAddresses mac
      = { cookie with peerAddresses := peerAddresses, mac := mac })
    ∧ read16 (stateCookieBody cookie ++ rest) 26 = BitVec.ofNat 16 cookie.peerAddresses.length
    ∧ (stateCookieBody cookie ++ rest).drop stateCookieBodySize = rest := by
  generalize encoded : stateCookieBody cookie ++ rest = data
  unfold stateCookieBody at encoded
  simp only [List.append_assoc] at encoded
  have start : data.drop 0 = _ := encoded.symm
  have at2 : data.drop 2 = _ := drop_of_drop start rfl
  have at4 : data.drop 4 = _ := drop_of_drop at2 (length_append16 _)
  have at8 : data.drop 8 = _ := drop_of_drop at4 (length_append32 _)
  have at12 : data.drop 12 = _ := drop_of_drop at8 (length_append32 _)
  have at16 : data.drop 16 = _ := drop_of_drop at12 (length_append32 _)
  have at18 : data.drop 18 = _ := drop_of_drop at16 (length_append16 _)
  have at20 : data.drop 20 = _ := drop_of_drop at18 (length_append16 _)
  have at24 : data.drop 24 = _ := drop_of_drop at20 (length_append32 _)
  have at26 : data.drop 26 = _ := drop_of_drop at24 (length_append16 _)
  have at28 : data.drop 28 = _ := drop_of_drop at26 (length_append16 _)
  have at32 : data.drop 32 = _ := drop_of_drop at28 (length_append32 _)
  have at36 : data.drop 36 = _ := drop_of_drop at32 (length_append32 _)
  have at40 : data.drop 40 = _ := drop_of_drop at36 (length_append32 _)
  have at44 : data.drop 44 = _ := drop_of_drop at40 (length_append32 _)
  have at48 : data.drop 48 = _ := drop_of_drop at44 (length_append32 _)
  have at50 : data.drop 50 = _ := drop_of_drop at48 (length_append16 _)
  have at52 : data.drop 52 = _ := drop_of_drop at50 (length_append16 _)
  have at54 : data.drop 54 = _ := drop_of_drop at52 (length_append16 _)
  have at56 : data.drop 56 = _ := drop_of_drop at54 (length_append16 _)
  have at60 : data.drop 60 = _ := drop_of_drop at56 (length_append32 _)
  have at64 : data.drop 64 = _ := drop_of_drop at60 (length_append32 _)
  have first : data.getD 0 0 = cookie.version := by rw [← encoded]; rfl
  have second : data.getD 1 0 = cookie.secretGeneration := by rw [← encoded]; rfl
  refine ⟨fun peerAddresses mac => ?_, read16_of_drop at26, at64⟩
  rw [bodyFields, first, second, read32_of_drop at4, read32_of_drop at8, words64,
    read32_of_drop at12, read16_of_drop at16, read16_of_drop at18, read32_of_drop at20,
    read16_of_drop at24, read32_of_drop at28, read32_of_drop at32, read32_of_drop at36,
    read32_of_drop at40, read32_of_drop at44, read16_of_drop at48, read16_of_drop at50,
    read16_of_drop at52, read16_of_drop at54, read32_of_drop at56, read32_of_drop at60]

/-- A cookie is decoded to what it was made from, whatever MAC of the right size is
behind it. -/
theorem deserializeStateCookie_encoded {cookie : StateCookie} {mac : Bytes}
    (version : cookie.version = stateCookieVersion) (few : cookie.peerAddresses.length ≤ 65535)
    (size : mac.length = stateCookieMacSize) :
    deserializeStateCookie (serializeStateCookie { cookie with mac := [] } ++ mac)
      = some { cookie with mac := mac } := by
  have addresses := length_flatMap_const length_append32 cookie.peerAddresses
  have layout : serializeStateCookie { cookie with mac := [] } ++ mac
      = stateCookieBody cookie ++ (cookie.peerAddresses.flatMap append32 ++ mac) := by
    unfold serializeStateCookie
    rw [List.append_nil, List.append_assoc]
    rfl
  obtain ⟨fields, count, behind⟩ :=
    bodyFields_stateCookieBody cookie (cookie.peerAddresses.flatMap append32 ++ mac)
  rw [layout]
  generalize stateCookieBody cookie ++ (cookie.peerAddresses.flatMap append32 ++ mac)
    = data at fields count behind ⊢
  have long : data.length = stateCookieSize + 4 * cookie.peerAddresses.length := by
    have rest := congrArg List.length behind
    rw [List.length_drop, List.length_append, addresses, size] at rest
    simp only [stateCookieSize, stateCookieBodySize, stateCookieMacSize] at rest ⊢
    omega
  have count : (read16 data 26).toNat = cookie.peerAddresses.length := by
    rw [count]
    exact toNat_length few
  have first : data.getD 0 0 = cookie.version := congrArg StateCookie.version (fields [] [])
  have tail : data.drop (data.length - stateCookieMacSize) = mac := by
    have offset : data.length - stateCookieMacSize
        = stateCookieBodySize + 4 * cookie.peerAddresses.length := by
      rw [long, stateCookieSize]
      omega
    rw [offset, Nat.mul_comm]
    exact drop_of_drop behind addresses
  rw [deserializeStateCookie, if_neg (by rw [long]; omega)]
  simp only [count]
  rw [if_neg (by rw [first, version, long]; simp), readWords_encoded behind, tail,
    Option.some.injEq]
  exact fields cookie.peerAddresses mac

/-- What is decoded from the body of a cookie is that cookie, but for the addresses and the
MAC behind the body. -/
theorem decoded_stateCookieBody {cookie decoded : StateCookie} {rest : Bytes}
    (read : deserializeStateCookie (stateCookieBody cookie ++ rest) = some decoded) :
    decoded = { cookie with peerAddresses := decoded.peerAddresses, mac := decoded.mac } := by
  obtain ⟨fields, -, -⟩ := bodyFields_stateCookieBody cookie rest
  generalize stateCookieBody cookie ++ rest = data at read fields
  unfold deserializeStateCookie at read
  split at read
  · cases read
  · simp only at read
    split at read
    · cases read
    · cases read
      exact fields _ _

/-! ## From the bytes to the cookie -/

theorem extract_high {w v : Nat} (x : BitVec w) (y : BitVec v) (i n : Nat) :
    (x ++ y).extractLsb' (v + i) n = x.extractLsb' i n := by
  ext j h
  simp only [BitVec.getElem_extractLsb', BitVec.getLsbD_append]
  rw [if_neg (by omega), show v + i + j - v = i + j by omega]

theorem extract_low {w v : Nat} (x : BitVec w) (y : BitVec v) {i n : Nat} (inside : i + n ≤ v) :
    (x ++ y).extractLsb' i n = y.extractLsb' i n := by
  ext j h
  simp only [BitVec.getElem_extractLsb', BitVec.getLsbD_append]
  rw [if_pos (by omega)]

theorem high_append {w v : Nat} (x : BitVec w) (y : BitVec v) : (x ++ y).extractLsb' v w = x :=
  (extract_high x y 0 w).trans BitVec.extractLsb'_eq_self

theorem low_append {w v : Nat} (x : BitVec w) (y : BitVec v) : (x ++ y).extractLsb' 0 v = y :=
  (extract_low x y (by omega)).trans BitVec.extractLsb'_eq_self

theorem append16_append (a b : Byte) : append16 (a ++ b) = [a, b] := by
  rw [append16, show (a ++ b).extractLsb' 8 8 = a from high_append a b,
    show (a ++ b).extractLsb' 0 8 = b from low_append a b]

theorem append32_append (a b c d : Byte) : append32 (a ++ b ++ c ++ d) = [a, b, c, d] := by
  have first : (a ++ b ++ c ++ d).extractLsb' 24 8 = a :=
    (extract_high (a ++ b ++ c) d 16 8).trans
      ((extract_high (a ++ b) c 8 8).trans (high_append a b))
  have second : (a ++ b ++ c ++ d).extractLsb' 16 8 = b :=
    (extract_high (a ++ b ++ c) d 8 8).trans ((extract_high (a ++ b) c 0 8).trans (low_append a b))
  have third : (a ++ b ++ c ++ d).extractLsb' 8 8 = c :=
    (extract_high (a ++ b ++ c) d 0 8).trans (low_append (a ++ b) c)
  have fourth : (a ++ b ++ c ++ d).extractLsb' 0 8 = d := low_append (a ++ b ++ c) d
  rw [append32, first, second, third, fourth]

/-- A word that was read is written back to where it stood. -/
theorem append16_read16 {data : Bytes} {offset : Nat} (inside : offset + 2 ≤ data.length) :
    append16 (read16 data offset) ++ data.drop (offset + 2) = data.drop offset := by
  have long : 2 ≤ (data.drop offset).length := by rw [List.length_drop]; omega
  rw [← List.drop_drop, show read16 data offset = read16 (data.drop offset) 0
    from (read16_drop data offset 0).symm]
  match data.drop offset, long with
  | a :: b :: rest, _ => exact congrArg (· ++ rest) (append16_append a b)

theorem append32_read32 {data : Bytes} {offset : Nat} (inside : offset + 4 ≤ data.length) :
    append32 (read32 data offset) ++ data.drop (offset + 4) = data.drop offset := by
  have long : 4 ≤ (data.drop offset).length := by rw [List.length_drop]; omega
  rw [← List.drop_drop, show read32 data offset = read32 (data.drop offset) 0
    from (read32_drop data offset 0).symm]
  match data.drop offset, long with
  | a :: b :: c :: d :: rest, _ => exact congrArg (· ++ rest) (append32_append a b c d)

theorem append32_readWords {data : Bytes} {offset count : Nat}
    (inside : offset + 4 * count ≤ data.length) :
    ((List.range count).map fun i => read32 data (offset + 4 * i)).flatMap append32
      ++ data.drop (offset + 4 * count)
      = data.drop offset := by
  induction count with
  | zero => simp
  | succ count ih =>
    have last : append32 (read32 data (offset + 4 * count)) ++ data.drop (offset + 4 * count + 4)
        = data.drop (offset + 4 * count) := append32_read32 (by omega)
    rw [List.range_succ, List.map_append, List.flatMap_append, List.append_assoc]
    simp only [List.map_cons, List.map_nil, List.flatMap_cons, List.flatMap_nil, List.append_nil]
    rw [show offset + 4 * (count + 1) = offset + 4 * count + 4 by omega, last]
    exact ih (by omega)

/-- What `deserialize_state_cookie` takes for a cookie. -/
def isStateCookie (data : Bytes) : Prop :=
  data.head? = some stateCookieVersion ∧ data.length = stateCookieSize + 4 * (read16 data 26).toNat

theorem deserializeStateCookie_isSome (data : Bytes) :
    (deserializeStateCookie data).isSome = true ↔ isStateCookie data := by
  unfold deserializeStateCookie isStateCookie
  split
  · next short =>
    refine ⟨nofun, fun shape => ?_⟩
    rw [shape.2] at short
    omega
  · next long =>
    cases data with
    | nil => exact absurd (by decide) long
    | cons first rest =>
      simp only
      split
      · next other =>
        refine ⟨nofun, fun shape => ?_⟩
        rcases other with version | length
        · exact absurd (Option.some.inj shape.1) version
        · exact absurd shape.2 length
      · next same =>
        obtain ⟨version, length⟩ := not_or.mp same
        rw [not_not] at version length
        exact ⟨fun _ => ⟨congrArg some version, length⟩, fun _ => rfl⟩

/-- The bytes are rebuilt from the last field to the first, each in front of what follows it. -/
theorem serializeStateCookie_decoded {data : Bytes} {cookie : StateCookie}
    (decoded : deserializeStateCookie data = some cookie) :
    serializeStateCookie cookie = (data.set 2 0).set 3 0 := by
  unfold deserializeStateCookie at decoded
  split at decoded
  · cases decoded
  · next long =>
    simp only at decoded
    split at decoded
    · cases decoded
    · next shape =>
      obtain ⟨-, length⟩ := not_or.mp shape
      rw [not_not] at length
      cases decoded
      have body : stateCookieBodySize ≤ data.length := by
        rw [length, stateCookieSize]
        omega
      rw [stateCookieBodySize] at body
      have tail : data.length - stateCookieMacSize
          = stateCookieBodySize + 4 * (read16 data 26).toNat := by
        rw [length, stateCookieSize]
        omega
      have inside : stateCookieBodySize + 4 * (read16 data 26).toNat ≤ data.length := by
        rw [← tail]
        omega
      unfold serializeStateCookie stateCookieBody
      simp only [List.append_assoc, List.length_map, List.length_range, BitVec.ofNat_toNat,
        BitVec.setWidth_eq]
      rw [high_append, low_append, tail, append32_readWords inside, stateCookieBodySize,
        append32_read32 (by omega), append32_read32 (by omega), append16_read16 (by omega),
        append16_read16 (by omega), append16_read16 (by omega), append16_read16 (by omega),
        append32_read32 (by omega), append32_read32 (by omega), append32_read32 (by omega),
        append32_read32 (by omega), append32_read32 (by omega), append16_read16 (by omega),
        append16_read16 (by omega), append32_read32 (by omega), append16_read16 (by omega),
        append16_read16 (by omega), append32_read32 (by omega), append32_read32 (by omega),
        append32_read32 (by omega)]
      match data, body with
      | a :: b :: c :: d :: rest, _ => rfl

/-- A cookie is read back from its bytes. Bytes are read as a cookie exactly when they
start with the version and are as long as their count of addresses says, and the cookie is
then written to the same bytes, with the reserved ones zero. -/
theorem state_cookie_codec :
    (∀ cookie : StateCookie, cookie.version = stateCookieVersion → cookie.peerAddresses.length
      ≤ 65535 → cookie.mac.length = stateCookieMacSize →
        deserializeStateCookie (serializeStateCookie cookie) = some cookie)
    ∧ ∀ data : Bytes, ((deserializeStateCookie data).isSome = true ↔ isStateCookie data)
      ∧ ∀ cookie, deserializeStateCookie data = some cookie → serializeStateCookie cookie
        = (data.set 2 0).set 3 0 := by
  refine ⟨fun cookie version few size => ?_, fun data => ?_⟩
  · have read := deserializeStateCookie_encoded version few size
    have encoded : serializeStateCookie { cookie with mac := [] } ++ cookie.mac
        = serializeStateCookie cookie := by
      unfold serializeStateCookie
      rw [List.append_nil]
      rfl
    rw [encoded] at read
    exact read
  · exact ⟨deserializeStateCookie_isSome data, fun _ => serializeStateCookie_decoded⟩

/-- A cookie with two addresses. -/
def sampleCookie : StateCookie where
  version := stateCookieVersion
  secretGeneration := 3#8
  createdUs := 0x0000000112345678#64
  lifespanUs := 60000000#32
  sctpSrcPort := 5000#16
  sctpDstPort := 5001#16
  peerIpv4 := 0x0a000002#32
  peerUdpPort := 9899#16
  localVerTag := 0x01020304#32
  peerVerTag := 0x05060708#32
  localInitialTsn := 100#32
  peerInitialTsn := 200#32
  peerARwnd := 65535#32
  localOutStreams := 10#16
  localInStreams := 10#16
  peerOutStreams := 5#16
  peerInStreams := 5#16
  localTieTag := 0#32
  peerTieTag := 0#32
  peerAddresses := [0x0a000003#32, 0x0a000004#32]
  mac := List.replicate stateCookieMacSize 0xab#8

theorem sampleCookie_codec : deserializeStateCookie (serializeStateCookie sampleCookie)
    = some sampleCookie
    ∧ isStateCookie (serializeStateCookie sampleCookie)
    ∧ (serializeStateCookie sampleCookie).length = stateCookieSize + 4 * 2 := by
  have back := state_cookie_codec.1 sampleCookie rfl (by decide) (by decide)
  refine ⟨back, (state_cookie_codec.2 _).1.mp ?_, by decide⟩
  rw [back]
  rfl

end SctpStack
