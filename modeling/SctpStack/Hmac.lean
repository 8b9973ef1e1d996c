import SctpStack.Types

/-!
# SHA-256 and HMAC

`hmac.cpp`: the MAC of the state cookie.
-/

namespace SctpStack

def sha256DigestSize : Nat := 32
def sha256BlockSize : Nat := 64

/-- Fractional parts of the cube roots of the first 64 primes. -/
def roundConstants : List (BitVec 32) :=
  [0x428a2f98, 0x71374491, 0xb5c0fbcf, 0xe9b5dba5, 0x3956c25b, 0x59f111f1, 0x923f82a4, 0xab1c5ed5,
   0xd807aa98, 0x12835b01, 0x243185be, 0x550c7dc3, 0x72be5d74, 0x80deb1fe, 0x9bdc06a7, 0xc19bf174,
   0xe49b69c1, 0xefbe4786, 0x0fc19dc6, 0x240ca1cc, 0x2de92c6f, 0x4a7484aa, 0x5cb0a9dc, 0x76f988da,
   0x983e5152, 0xa831c66d, 0xb00327c8, 0xbf597fc7, 0xc6e00bf3, 0xd5a79147, 0x06ca6351, 0x14292967,
   0x27b70a85, 0x2e1b2138, 0x4d2c6dfc, 0x53380d13, 0x650a7354, 0x766a0abb, 0x81c2c92e, 0x92722c85,
   0xa2bfe8a1, 0xa81a664b, 0xc24b8b70, 0xc76c51a3, 0xd192e819, 0xd6990624, 0xf40e3585, 0x106aa070,
   0x19a4c116, 0x1e376c08, 0x2748774c, 0x34b0bcb5, 0x391c0cb3, 0x4ed8aa4a, 0x5b9cca4f, 0x682e6ff3,
   0x748f82ee, 0x78a5636f, 0x84c87814, 0x8cc70208, 0x90befffa, 0xa4506ceb, 0xbef9a3f7, 0xc67178f2]

/-- Fractional parts of the square roots of the first 8 primes. -/
def initialHash : List (BitVec 32) :=
  [0x6a09e667, 0xbb67ae85, 0x3c6ef372, 0xa54ff53a, 0x510e527f, 0x9b05688c, 0x1f83d9ab, 0x5be0cd19]

def rotr (x : BitVec 32) (n : Nat) : BitVec 32 := (x >>> n) ||| (x <<< (32 - n))

/-- The four bytes from `offset` on, big-endian. -/
def wordAt (block : Bytes) (offset : Nat) : BitVec 32 :=
  block.getD offset 0 ++ block.getD (offset + 1) 0 ++ block.getD (offset + 2) 0
    ++ block.getD (offset + 3) 0

/-- One more word of the message schedule, from the words so far. -/
def nextScheduleWord (w : List (BitVec 32)) : BitVec 32 :=
  let i := w.length
  let w15 := w.getD (i - 15) 0
  let w2 := w.getD (i - 2) 0
  let s0 := rotr w15 7 ^^^ rotr w15 18 ^^^ (w15 >>> 3)
  let s1 := rotr w2 17 ^^^ rotr w2 19 ^^^ (w2 >>> 10)
  w.getD (i - 16) 0 + s0 + w.getD (i - 7) 0 + s1

/-- The 64 words the rounds of one block use. -/
def schedule (block : Bytes) : List (BitVec 32) :=
  (List.range 48).foldl (fun w _ => w ++ [nextScheduleWord w])
    ((List.range 16).map fun i => wordAt block (4 * i))

/-- The eight working variables of the rounds. -/
structure Rounds where
  a : BitVec 32
  b : BitVec 32
  c : BitVec 32
  d : BitVec 32
  e : BitVec 32
  f : BitVec 32
  g : BitVec 32
  h : BitVec 32

def compressRound (v : Rounds) (kw : BitVec 32 × BitVec 32) : Rounds :=
  let s1 := rotr v.e 6 ^^^ rotr v.e 11 ^^^ rotr v.e 25
  let ch := (v.e &&& v.f) ^^^ (~~~v.e &&& v.g)
  let t1 := v.h + s1 + ch + kw.1 + kw.2
  let s0 := rotr v.a 2 ^^^ rotr v.a 13 ^^^ rotr v.a 22
  let maj := (v.a &&& v.b) ^^^ (v.a &&& v.c) ^^^ (v.b &&& v.c)
  let t2 := s0 + maj
  { a := t1 + t2, b := v.a, c := v.b, d := v.c, e := v.d + t1, f := v.e, g := v.f, h := v.g }

/-- One 64-byte block folded into the 256-bit state. -/
def compress (h : List (BitVec 32)) (block : Bytes) : List (BitVec 32) :=
  let start : Rounds :=
    ⟨h.getD 0 0, h.getD 1 0, h.getD 2 0, h.getD 3 0, h.getD 4 0, h.getD 5 0, h.getD 6 0, h.getD 7 0⟩
  let v := (roundConstants.zip (schedule block)).foldl compressRound start
  [start.a + v.a, start.b + v.b, start.c + v.c, start.d + v.d,
   start.e + v.e, start.f + v.f, start.g + v.g, start.h + v.h]

/-- The block at index `i` of `data`. -/
def blockAt (data : Bytes) (i : Nat) : Bytes :=
  (data.drop (i * sha256BlockSize)).take sha256BlockSize

/-- The last one or two blocks: what is left of the message, `0x80`, zeros and the
bit length, big-endian. -/
def sha256Tail (data : Bytes) : Bytes :=
  let fullBlocks := data.length / sha256BlockSize
  let rest := data.drop (fullBlocks * sha256BlockSize)
  let tailLen := if rest.length < 56 then sha256BlockSize else 2 * sha256BlockSize
  let bits := BitVec.ofNat 64 (data.length * 8)
  rest ++ [0x80#8] ++ List.replicate (tailLen - 9 - rest.length) 0#8
    ++ (List.range 8).map fun i => (bits >>> (8 * (7 - i))).setWidth 8

def sha256 (data : Bytes) : Bytes :=
  let fullBlocks := data.length / sha256BlockSize
  let h := (List.range fullBlocks).foldl (fun h i => compress h (blockAt data i)) initialHash
  let tail := sha256Tail data
  let digest := (List.range (tail.length / sha256BlockSize)).foldl (fun h i =>
    compress h (blockAt tail i)) h
  digest.flatMap fun (word : BitVec 32) =>
    [(word >>> 24).setWidth 8, (word >>> 16).setWidth 8, (word >>> 8).setWidth 8, word.setWidth 8]

def hmacSha256 (key data : Bytes) : Bytes :=
  let shortKey := if key.length > sha256BlockSize then sha256 key else key
  let paddedKey := shortKey ++ List.replicate (sha256BlockSize - shortKey.length) 0#8
  let innerKey := paddedKey.map (· ^^^ 0x36#8)
  let outerKey := paddedKey.map (· ^^^ 0x5c#8)
  sha256 (outerKey ++ sha256 (innerKey ++ data))

/-- The MAC comparison: no bit of the first `len` bytes differs. -/
def constantTimeEqual (a b : Bytes) (len : Nat) : Bool :=
  (List.range len).foldl (fun difference i => difference ||| (a.getD i 0 ^^^ b.getD i 0)) 0#8 == 0#8

end SctpStack
