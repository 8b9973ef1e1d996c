import SctpStack.Utils

/-!
# Wire format

`serialize.cpp` and `checksum.cpp`: byte order, parameters, the state cookie, and
the packet codec. A function the source lets throw returns `none`.
-/

namespace SctpStack

/-! ## Byte order -/

def append16 (v : BitVec 16) : Bytes := [v.extractLsb' 8 8, v.extractLsb' 0 8]

def append32 (v : BitVec 32) : Bytes :=
  [v.extractLsb' 24 8, v.extractLsb' 16 8, v.extractLsb' 8 8, v.extractLsb' 0 8]

def read16 (data : Bytes) (offset : Nat) : BitVec 16 :=
  data.getD offset 0 ++ data.getD (offset + 1) 0

def read32 (data : Bytes) (offset : Nat) : BitVec 32 :=
  data.getD offset 0 ++ data.getD (offset + 1) 0 ++ data.getD (offset + 2) 0
    ++ data.getD (offset + 3) 0

/-- The checksum is the one field in little-endian order. -/
def writeChecksumLe (v : BitVec 32) : Bytes :=
  [v.extractLsb' 0 8, v.extractLsb' 8 8, v.extractLsb' 16 8, v.extractLsb' 24 8]

def readChecksumLe (data : Bytes) (offset : Nat) : BitVec 32 :=
  data.getD (offset + 3) 0 ++ data.getD (offset + 2) 0 ++ data.getD (offset + 1) 0
    ++ data.getD offset 0

/-- `be32_bytes`, `read_be32`: the same order for the payload of causes and parameters. -/
def be32Bytes (v : BitVec 32) : Bytes := append32 v

def readBe32 (data : Bytes) : BitVec 32 := read32 data 0

/-- `vector::resize(n, 0)`. -/
def resize (data : Bytes) (n : Nat) : Bytes := data.take n ++ List.replicate (n - data.length) 0#8

/-! ## CRC-32C -/

def crcBit (crc : BitVec 32) : BitVec 32 :=
  if crc &&& 1#32 != 0#32 then (crc >>> 1) ^^^ 0x82F63B78#32 else crc >>> 1

/-- `crc32c_table()[i]`. -/
def crc32cTable (i : BitVec 32) : BitVec 32 := (List.range 8).foldl (fun crc _ => crcBit crc) i

def calculateSctpChecksum (data : Bytes) : BitVec 32 :=
  let crc := data.foldl
    (fun crc byte => crc32cTable ((crc ^^^ byte.setWidth 32) &&& 0xFF#32) ^^^ (crc >>> 8))
      0xFFFFFFFF#32
  crc ^^^ 0xFFFFFFFF#32

def sctpReadWireChecksum (data : Bytes) : BitVec 32 := readChecksumLe data sctpChecksumOffset

/-- The four bytes at the checksum's place set to `field`. -/
def setChecksumField (data field : Bytes) : Bytes :=
  data.take sctpChecksumOffset ++ field ++ data.drop (sctpChecksumOffset + 4)

def sctpClearWireChecksum (data : Bytes) : Bytes := setChecksumField data [0#8, 0#8, 0#8, 0#8]

/-! ## Parameters -/

/-- The bytes `append_parameter` adds. -/
def appendParameter (type : BitVec 16) (value : Bytes) : Option Bytes :=
  let total := sctpChunkHeaderSize + value.length
  if total > 65535 then none
  else some (append16 type ++ append16 (BitVec.ofNat 16 total) ++ value
    ++ List.replicate ((4 - total % 4) % 4) 0#8)

/-- The type and length of the parameter at `offset`, if one lies within `params`. -/
def parameterAt (params : Bytes) (offset : Nat) : Option (BitVec 16 × Nat) :=
  if offset + sctpChunkHeaderSize ≤ params.length then
    let length := (read16 params (offset + 2)).toNat
    if length < sctpChunkHeaderSize || offset + length > params.length then none
    else some (read16 params offset, length)
  else none

/-- The walk of `find_parameter` from `offset` on. Each parameter takes at least four
bytes, so as many steps as there are bytes are enough. -/
def findParameterFrom (params : Bytes) (type : BitVec 16) : Nat → Nat → Option Bytes
  | 0, _ => none
  | fuel + 1, offset =>
    match parameterAt params offset with
    | none => none
    | some (parameterType, length) =>
      if parameterType = type then
        some ((params.drop (offset + sctpChunkHeaderSize)).take (length - sctpChunkHeaderSize))
      else findParameterFrom params type fuel (offset + pad4 length)

def findParameter (params : Bytes) (type : BitVec 16) : Option Bytes :=
  findParameterFrom params type params.length 0

def findIpv4AddressesFrom (params : Bytes) : Nat → Nat → List (BitVec 32)
  | 0, _ => []
  | fuel + 1, offset =>
    match parameterAt params offset with
    | none => []
    | some (type, length) =>
      let rest := findIpv4AddressesFrom params fuel (offset + pad4 length)
      if type = paramIpv4Address ∧ length = 8 then read32 params (offset + 4) :: rest else rest

/-- Every IPv4 Address parameter. -/
def findIpv4Addresses (params : Bytes) : List (BitVec 32) :=
  findIpv4AddressesFrom params params.length 0

structure ParameterScan where
  recognized : Bytes
  /-- Whole TLVs, padded. -/
  reported : List Bytes
deriving DecidableEq, Repr

def scanParametersFrom (params : Bytes) (recognized : List (BitVec 16)) :
    Nat → Nat → ParameterScan → ParameterScan
  | 0, _, scan => scan
  | fuel + 1, offset, scan =>
    match parameterAt params offset with
    | none => scan
    | some (type, length) =>
      let padded := pad4 length
      if type ∈ recognized then
        let copied := (params.drop offset).take (min padded (params.length - offset))
        scanParametersFrom params recognized fuel (offset + padded)
          { scan with recognized := scan.recognized ++ copied }
      else
        let scan :=
          if type &&& 0x4000#16 != 0#16 then
            { scan with reported := scan.reported
              ++ [resize ((params.drop offset).take length) padded] }
          else scan
        if type &&& 0x8000#16 == 0#16 then scan
        else scanParametersFrom params recognized fuel (offset + padded) scan

def scanParameters (params : Bytes) (recognized : List (BitVec 16)) : ParameterScan :=
  scanParametersFrom params recognized params.length 0 ⟨[], []⟩

/-! ## State cookie -/

/-- The fixed part of the cookie, before the peer's other addresses. -/
def stateCookieBody (cookie : StateCookie) : Bytes :=
  [cookie.version, cookie.secretGeneration]
    ++ append16 0#16
    ++ append32 (cookie.createdUs.extractLsb' 32 32)
    ++ append32 (cookie.createdUs.extractLsb' 0 32)
    ++ append32 cookie.lifespanUs
    ++ append16 cookie.sctpSrcPort
    ++ append16 cookie.sctpDstPort
    ++ append32 cookie.peerIpv4
    ++ append16 cookie.peerUdpPort
    ++ append16 (BitVec.ofNat 16 cookie.peerAddresses.length)
    ++ append32 cookie.localVerTag
    ++ append32 cookie.peerVerTag
    ++ append32 cookie.localInitialTsn
    ++ append32 cookie.peerInitialTsn
    ++ append32 cookie.peerARwnd
    ++ append16 cookie.localOutStreams
    ++ append16 cookie.localInStreams
    ++ append16 cookie.peerOutStreams
    ++ append16 cookie.peerInStreams
    ++ append32 cookie.localTieTag
    ++ append32 cookie.peerTieTag

/-- The body always has `STATE_COOKIE_BODY_SIZE` bytes, so the source's size check never throws. -/
def serializeStateCookie (cookie : StateCookie) : Bytes :=
  stateCookieBody cookie ++ cookie.peerAddresses.flatMap append32 ++ cookie.mac

def deserializeStateCookie (data : Bytes) : Option StateCookie :=
  if data.length < stateCookieSize then none
  else
    let addressCount := (read16 data 26).toNat
    if data.getD 0 0 ≠ stateCookieVersion ∨ data.length ≠ stateCookieSize + 4 * addressCount
      then none
    else some {
      version := data.getD 0 0
      secretGeneration := data.getD 1 0
      createdUs := read32 data 4 ++ read32 data 8
      lifespanUs := read32 data 12
      sctpSrcPort := read16 data 16
      sctpDstPort := read16 data 18
      peerIpv4 := read32 data 20
      peerUdpPort := read16 data 24
      localVerTag := read32 data 28
      peerVerTag := read32 data 32
      localInitialTsn := read32 data 36
      peerInitialTsn := read32 data 40
      peerARwnd := read32 data 44
      localOutStreams := read16 data 48
      localInStreams := read16 data 50
      peerOutStreams := read16 data 52
      peerInStreams := read16 data 54
      localTieTag := read32 data 56
      peerTieTag := read32 data 60
      peerAddresses := (List.range addressCount).map fun i =>
        read32 data (stateCookieBodySize + 4 * i)
      mac := data.drop (data.length - stateCookieMacSize) }

/-! ## Decoding -/

def deserializeInitChunk (data : Bytes) : Option InitChunkValue :=
  if data.length < 16 then none
  else some {
    initiateTag := read32 data 0
    aRwnd := read32 data 4
    outStreams := read16 data 8
    inStreams := read16 data 10
    initialTsn := read32 data 12
    optionalParameters := data.drop 16 }

def deserializeShutdownChunk (data : Bytes) : Option Tsn :=
  if data.length ≠ 4 then none else some (read32 data 0)

def deserializeHeartbeatChunk (data : Bytes) : Option Bytes := findParameter data paramHeartbeatInfo

def deserializeErrorCausesFrom (data : Bytes) : Nat → Nat → Option (List ErrorCause)
  | 0, _ => some []
  | fuel + 1, offset =>
    if offset + sctpChunkHeaderSize ≤ data.length then
      let length := (read16 data (offset + 2)).toNat
      if length < sctpChunkHeaderSize then none
      else if offset + length > data.length then none
      else
        let info := (data.drop (offset + sctpChunkHeaderSize)).take (length - sctpChunkHeaderSize)
        (deserializeErrorCausesFrom data fuel (offset + pad4 length)).map
          (⟨read16 data offset, info⟩ :: ·)
    else some []

def deserializeErrorChunk (data : Bytes) : Option (List ErrorCause) :=
  deserializeErrorCausesFrom data data.length 0

def deserializeDataChunk (data : Bytes) (flag : BitVec 8) : Option DataChunkValue :=
  if data.length < 12 then none
  else some {
    tsn := read32 data 0
    streamIdentifier := read16 data 4
    streamSeqNum := read16 data 6
    payloadProtocol := read32 data 8
    userData := data.drop 12
    flags := flag &&& (dataFlagU ||| dataFlagB ||| dataFlagE) }

/-- The Gap Ack Blocks, ascending and apart; `previous` is the end of the block before. -/
def deserializeGapAckBlocks (data : Bytes) : Nat → Nat → Option Nat → Option (List SackGapAckBlock)
  | 0, _, _ => some []
  | count + 1, offset, previous =>
    let start := read16 data offset
    let stop := read16 data (offset + 2)
    if start = 0#16 ∨ stop.toNat < start.toNat ∨ previous.any (fun p => start.toNat ≤ p) then none
    else (deserializeGapAckBlocks data count (offset + 4) (some stop.toNat)).map
      (⟨start, stop⟩ :: ·)

def deserializeSackChunk (data : Bytes) : Option SackChunkValue :=
  if data.length < 12 then none
  else
    let gapCount := read16 data 8
    let duplicateCount := read16 data 10
    if 12 + gapCount.toNat * 4 + duplicateCount.toNat * 4 ≠ data.length then none
    else (deserializeGapAckBlocks data gapCount.toNat 12 none).map fun gaps => {
      cumulativeTsnAck := read32 data 0
      aRwnd := read32 data 4
      numberOfGapAckBlocks := gapCount
      numberOfDuplicateTsns := duplicateCount
      gapAckBlocks := gaps
      duplicateTsns := (List.range duplicateCount.toNat).map fun i =>
        read32 data (12 + gapCount.toNat * 4 + 4 * i) }

/-- `deserialize_chunk_value`, with the flags of a DATA chunk taken from its header. -/
def deserializeChunkValue (type flag : BitVec 8) (data : Bytes) : Option ChunkValue :=
  match type.toNat with
  | 0 => (deserializeDataChunk data flag).map .data
  | 1 => (deserializeInitChunk data).map .init
  | 2 => (deserializeInitChunk data).map .initAck
  | 3 => (deserializeSackChunk data).map .sack
  | 4 => (deserializeHeartbeatChunk data).map .heartbeat
  | 5 => (deserializeHeartbeatChunk data).map .heartbeatAck
  | 6 => (deserializeErrorChunk data).map .abort
  | 7 => (deserializeShutdownChunk data).map .shutdown
  | 8 => some .shutdownAck
  | 9 => (deserializeErrorChunk data).map .opError
  | 10 => some (.cookieEcho data)
  | 11 => some .cookieAck
  | 14 => some .shutdownComplete
  | _ => some (.unknown type data)

/-- The chunks from `offset` on. The last chunk may omit its padding. -/
def deserializeChunksFrom (data : Bytes) : Nat → Nat → Option (List Chunk)
  | 0, _ => some []
  | fuel + 1, offset =>
    if offset < data.length then
      if data.length < offset + sctpChunkHeaderSize then none
      else
        let length := (read16 data (offset + 2)).toNat
        if length < sctpChunkHeaderSize then none
        else if data.length < offset + length then none
        else
          let body := (data.drop (offset + sctpChunkHeaderSize)).take (length - sctpChunkHeaderSize)
          match deserializeChunkValue (data.getD offset 0) (data.getD (offset + 1) 0) body with
          | none => none
          | some value =>
            let next := min (offset + pad4 length) data.length
            (deserializeChunksFrom data fuel next).map (⟨data.getD (offset + 1) 0, value⟩ :: ·)
    else some []

def deserializeSctpPacket (data : Bytes) : Option Packet :=
  if data.length < sctpCommonHeaderSize then none
  else (deserializeChunksFrom data data.length sctpCommonHeaderSize).map fun chunks => {
    header :=
      { srcPort := read16 data 0, desPort := read16 data 2, verificationTag := read32 data 4 }
    chunks := chunks }

/-! ## Encoding -/

/-- The type octet on the wire. -/
def ChunkType.code : ChunkType → BitVec 8
  | .data => 0#8
  | .init => 1#8
  | .initAck => 2#8
  | .sack => 3#8
  | .heartbeat => 4#8
  | .heartbeatAck => 5#8
  | .abort => 6#8
  | .shutdown => 7#8
  | .shutdownAck => 8#8
  | .opError => 9#8
  | .cookieEcho => 10#8
  | .cookieAck => 11#8
  | .shutdownComplete => 14#8
  | .unknown code => code

def serializeInitChunk (v : InitChunkValue) : Bytes :=
  append32 v.initiateTag ++ append32 v.aRwnd ++ append16 v.outStreams ++ append16 v.inStreams
    ++ append32 v.initialTsn ++ v.optionalParameters

def serializeErrorChunk : List ErrorCause → Option Bytes
  | [] => some []
  | cause :: causes =>
    match appendParameter cause.code cause.info, serializeErrorChunk causes with
    | some head, some tail => some (head ++ tail)
    | _, _ => none

def serializeDataChunk (v : DataChunkValue) : Bytes :=
  append32 v.tsn ++ append16 v.streamIdentifier ++ append16 v.streamSeqNum
    ++ append32 v.payloadProtocol ++ v.userData

def serializeSackChunk (v : SackChunkValue) : Option Bytes :=
  if v.gapAckBlocks.length > 65535 ∨ v.duplicateTsns.length > 65535 then none
  else if v.numberOfGapAckBlocks.toNat ≠ v.gapAckBlocks.length
      ∨ v.numberOfDuplicateTsns.toNat ≠ v.duplicateTsns.length then none
  else if v.gapAckBlocks.any fun block => block.start == 0#16 || block.stop.toNat
    < block.start.toNat then none
  else some (append32 v.cumulativeTsnAck ++ append32 v.aRwnd ++ append16 v.numberOfGapAckBlocks
    ++ append16 v.numberOfDuplicateTsns
    ++ v.gapAckBlocks.flatMap (fun block => append16 block.start ++ append16 block.stop)
    ++ v.duplicateTsns.flatMap append32)

def serializeChunkBody : ChunkValue → Option Bytes
  | .data v => some (serializeDataChunk v)
  | .init v => some (serializeInitChunk v)
  | .initAck v => some (serializeInitChunk v)
  | .sack v => serializeSackChunk v
  | .heartbeat info => appendParameter paramHeartbeatInfo info
  | .heartbeatAck info => appendParameter paramHeartbeatInfo info
  | .abort causes => serializeErrorChunk causes
  | .shutdown cumulativeTsnAck => some (append32 cumulativeTsnAck)
  | .shutdownAck => some []
  | .opError causes => serializeErrorChunk causes
  | .cookieEcho cookieData => some cookieData
  | .cookieAck => some []
  | .shutdownComplete => some []
  | .unknown _ body => some body

/-- The length field is the low 16 bits of the size, and the padding follows it. -/
def serializeChunk (chunk : Chunk) : Option Bytes :=
  (serializeChunkBody chunk.value).map fun body =>
    let length := BitVec.ofNat 16 (sctpChunkHeaderSize + body.length)
    resize ([chunk.type.code, chunk.flag] ++ append16 length ++ body) (pad4 length.toNat)

def serializeChunks : List Chunk → Option Bytes
  | [] => some []
  | chunk :: chunks =>
    match serializeChunk chunk, serializeChunks chunks with
    | some head, some tail => some (head ++ tail)
    | _, _ => none

def serializeSctpPacket (packet : Packet) : Option Bytes :=
  (serializeChunks packet.chunks).map fun chunks =>
    let out := append16 packet.header.srcPort ++ append16 packet.header.desPort
      ++ append32 packet.header.verificationTag ++ append32 0#32 ++ chunks
    setChecksumField out (writeChecksumLe (calculateSctpChecksum out))

end SctpStack
