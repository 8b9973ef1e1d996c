import SctpStack.Wire
import SctpStack.Hmac

/-!
# State cookies

`cookie_auth.cpp`: a cookie is signed under a secret that is replaced every
`COOKIE_SECRET_ROTATION`; the one before it is kept, so a cookie inside its
lifespan always finds the key it was signed with.
-/

namespace SctpStack

structure CookieAuth where
  current : Bytes
  previous : Bytes
  generation : BitVec 8
  havePrevious : Bool
  initialized : Bool
  rotatedAt : Time
deriving DecidableEq

/-- What `verify` returns. The cookie is filled in for the results its caller acts on. -/
inductive CookieResult where
  | valid (cookie : StateCookie)
  | malformed
  | unknownSecret
  | badMac
  | wrongEndpoint
  | stale (cookie : StateCookie) (stalenessUs : BitVec 32)
deriving DecidableEq

namespace CookieAuth

def fresh : CookieAuth := ⟨[], [], 0#8, false, false, 0⟩

def nowUs (now : Time) : BitVec 64 := BitVec.ofInt 64 (now / 1000)

def rotateIfDue (auth : CookieAuth) (now : Time) (secret : Bytes) : CookieAuth :=
  if !auth.initialized then
    { auth with current := secret, initialized := true, rotatedAt := now }
  else if now - auth.rotatedAt < usec cookieSecretRotation then auth
  else { auth with
    previous := auth.current, havePrevious := true, current := secret,
    generation := auth.generation + 1#8, rotatedAt := now }

def secretFor (auth : CookieAuth) (wantedGeneration : BitVec 8) : Option Bytes :=
  if !auth.initialized then none
  else if wantedGeneration = auth.generation then some auth.current
  else if auth.havePrevious ∧ wantedGeneration = auth.generation - 1#8 then some auth.previous
  else none

/-- The cookie `generate` signs, its MAC left empty. -/
def unsignedCookie (auth : CookieAuth) (now : Time) (header : CommonHeader) (init : InitChunkValue)
    (src : SockAddr) (localTag : Tag) (localTsn : Tsn) (localTieTag peerTieTag : Tag)
    (lifespanIncrementMs : BitVec 32) (peerAddresses : List (BitVec 32)) : StateCookie where
  version := stateCookieVersion
  secretGeneration := auth.generation
  createdUs := nowUs now
  lifespanUs := BitVec.ofInt 32 (min (validCookieLife + lifespanIncrementMs.toNat * 1000)
    maxCookieLife)
  sctpSrcPort := header.srcPort
  sctpDstPort := header.desPort
  peerIpv4 := src.addr
  peerUdpPort := src.port
  localVerTag := localTag
  peerVerTag := init.initiateTag
  localInitialTsn := localTsn
  peerInitialTsn := init.initialTsn
  peerARwnd := init.aRwnd
  localOutStreams := SctpStack.localOutStreams
  localInStreams := localMaxInStreams
  peerOutStreams := init.outStreams
  peerInStreams := init.inStreams
  localTieTag := localTieTag
  peerTieTag := peerTieTag
  peerAddresses := peerAddresses
  mac := []

/-- The MAC is a plain suffix covering the body and the addresses. -/
def sign (secret : Bytes) (cookie : StateCookie) : Bytes :=
  let body := serializeStateCookie { cookie with mac := [] }
  body ++ hmacSha256 secret body

def generate (auth : CookieAuth) (now : Time) (secret : Bytes) (header : CommonHeader)
    (init : InitChunkValue) (src : SockAddr) (localTag : Tag) (localTsn : Tsn)
    (localTieTag peerTieTag : Tag) (lifespanIncrementMs : BitVec 32)
    (peerAddresses : List (BitVec 32)) :
    CookieAuth × Bytes :=
  let auth := auth.rotateIfDue now secret
  let cookie := unsignedCookie auth now header init src localTag localTsn localTieTag peerTieTag
    lifespanIncrementMs peerAddresses
  (auth, sign auth.current cookie)

def verify (auth : CookieAuth) (now : Time) (cookie : Bytes) (header : CommonHeader)
    (src : SockAddr) :
    CookieResult :=
  match deserializeStateCookie cookie with
  | none => .malformed
  | some out =>
    match auth.secretFor out.secretGeneration with
    | none => .unknownSecret
    | some secret =>
      let bodySize := cookie.length - stateCookieMacSize
      let expected := hmacSha256 secret (cookie.take bodySize)
      if !constantTimeEqual expected (cookie.drop bodySize) stateCookieMacSize then .badMac
      else
        let listed := src.addr == out.peerIpv4 || src.addr ∈ out.peerAddresses
        if out.sctpSrcPort ≠ header.srcPort ∨ out.sctpDstPort ≠ header.desPort
            ∨ out.localVerTag ≠ header.verificationTag ∨ !listed then .wrongEndpoint
        else
          let now := (nowUs now).toNat
          if now < out.createdUs.toNat then .stale out 0#32
          else
            let age := now - out.createdUs.toNat
            if age > out.lifespanUs.toNat then
              .stale out (BitVec.ofNat 32 (min (age - out.lifespanUs.toNat) 4294967295))
            else .valid out

end CookieAuth

end SctpStack
