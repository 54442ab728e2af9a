import Mathlib
import CuckatooMiner.Solver
import CuckatooMiner.Foundation.PackedBits

/-!
# The difficulty of a proof

The nonces of a proof are packed without gaps, lowest bit first, and hashed. The
difficulty is two to the sixty-four over the first eight bytes of the hash, read
highest byte first, and always fits sixty-four bits.
-/

namespace CuckatooMiner.ProofDifficulty

open Verify Solver PackedBits

/-- Pack the bits of one nonce at its place in the proof. -/
def packNonce (edgeBits : Nat) (packed : List (BitVec 8)) (entry : Nat × Nat) :
    List (BitVec 8) :=
  let (nonce, i) := entry
  let start := i * edgeBits
  (List.range edgeBits).foldl
    (fun packed bit => if nonce.testBit bit then put packed (start + bit) else packed) packed

/-- The packed nonces of a proof. -/
def packNonces (nonces : List Nat) (edgeBits : Nat) : List (BitVec 8) :=
  let bitLen := nonces.length * edgeBits
  nonces.zipIdx.foldl (packNonce edgeBits) (List.replicate ((bitLen + 7) / 8) 0#8)

/-- The hash of a proof. The digest is a parameter, of which nothing is assumed. -/
def proofHash (blake2b : List UInt8 → Digest) (proof : Proof) (edgeBits : Nat) : Digest :=
  blake2b ((packNonces proof.nonces edgeBits).map UInt8.ofBitVec)

/-- The word of eight bytes, highest first. -/
def fromBeBytes (bytes : List UInt8) : Nat :=
  bytes.foldl (fun word byte => word * 256 + byte.toNat) 0

/-- The largest word. -/
def u64Max : Nat := 18446744073709551615

/-- The difficulty that a share is compared by. -/
def unscaledProofDifficulty (blake2b : List UInt8 → Digest) (proof : Proof) (edgeBits : Nat) :
    Nat :=
  let hash := proofHash blake2b proof edgeBits
  let denominator := max (fromBeBytes (hash.toList.take 8)) 1
  min (2 ^ 64 / denominator) u64Max

end CuckatooMiner.ProofDifficulty
