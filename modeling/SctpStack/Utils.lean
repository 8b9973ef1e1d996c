import SctpStack.Types
import SctpStack.Lib.Serial

/-!
# Sequence comparisons

`utils.hpp`: TSNs and SSNs are compared as serial numbers, and `sackAcknowledges`
says whether a SACK reports a TSN as received.
-/

namespace SctpStack

open Serial

def tsnLt (a b : Tsn) : Bool := serialLt a b

theorem tsnLt_iff {a b : Tsn} : tsnLt a b = true ↔ 0 < (b - a).toNat ∧ (b - a).toNat < 2 ^ 31 :=
  serialLt_iff

theorem tsnLt_asymm {a b : Tsn} (before : tsnLt a b = true) : tsnLt b a = false :=
  serialLt_asymm before

def tsnLte (a b : Tsn) : Bool := a == b || tsnLt a b

def tsnGt (a b : Tsn) : Bool := tsnLt b a

def tsnGte (a b : Tsn) : Bool := a == b || tsnGt a b

def ssnGt (a b : Ssn) : Bool := serialLt b a

/-- Whether a SACK reports this TSN as received: at or below the cumulative ack
point, or inside a Gap Ack Block. -/
def sackAcknowledges (sack : SackChunkValue) (tsn : Tsn) : Bool :=
  if tsnLte tsn sack.cumulativeTsnAck then true
  else
    let offset := (tsn - sack.cumulativeTsnAck).toNat
    if offset > 65535 then false
    else sack.gapAckBlocks.any fun block => block.start.toNat ≤ offset && offset ≤ block.stop.toNat

/-- `(n + 3) & ~3`. -/
def pad4 (n : Nat) : Nat := (n + 3) / 4 * 4

theorem le_pad4 (n : Nat) : n ≤ pad4 n := by
  unfold pad4
  omega

/-- Padded wire footprint of one DATA chunk. -/
def dataChunkWireSize (data : DataChunkValue) : Nat :=
  pad4 (dataChunkHeaderSize + data.userData.length)

end SctpStack
