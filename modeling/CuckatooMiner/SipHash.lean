import Mathlib

/-!
# SipHash-2-4 endpoints

The graph is never stored: each endpoint of an edge is recomputed by hashing
twice the edge number plus the side under four 64-bit keys and keeping the low
`edge_bits` bits. Hash words are 64-bit vectors, so addition, multiplication and
rotation wrap exactly as the source's do. Edges and node numbers are natural
numbers; a node is always below `2 ^ edge_bits`.

The complement of a node differs from it only in the lowest bit. Complementing
is an involution without fixed points and stays inside the node range.
-/

namespace CuckatooMiner.SipHash

/-- The four SipHash keys of one graph. -/
structure SipKeys where
  k0 : BitVec 64
  k1 : BitVec 64
  k2 : BitVec 64
  k3 : BitVec 64
deriving DecidableEq, Repr

/-- The hash state, `[u64; 4]` in the source. -/
structure SipState where
  v0 : BitVec 64
  v1 : BitVec 64
  v2 : BitVec 64
  v3 : BitVec 64
deriving DecidableEq, Repr

/-- One SipHash round, assignment by assignment. -/
def sipRound (v : SipState) : SipState :=
  let v0 := v.v0 + v.v1
  let v2 := v.v2 + v.v3
  let v1 := v.v1.rotateLeft 13 ^^^ v0
  let v3 := v.v3.rotateLeft 16 ^^^ v2
  let v0 := v0.rotateLeft 32
  let v2 := v2 + v1
  let v0 := v0 + v3
  let v1 := v1.rotateLeft 17 ^^^ v2
  let v3 := v3.rotateLeft 21 ^^^ v0
  let v2 := v2.rotateLeft 32
  ⟨v0, v1, v2, v3⟩

/-- SipHash with two compression and four finalization rounds. -/
def siphash24 (keys : SipKeys) (nonce : BitVec 64) : BitVec 64 :=
  let v : SipState := ⟨keys.k0, keys.k1, keys.k2, keys.k3 ^^^ nonce⟩
  let v := sipRound (sipRound v)
  let v := { v with v0 := v.v0 ^^^ nonce, v2 := v.v2 ^^^ 0xff#64 }
  let v := sipRound (sipRound (sipRound (sipRound v)))
  v.v0 ^^^ v.v1 ^^^ v.v2 ^^^ v.v3

/-- The mask of the low `edge_bits` bits; the width 32 is a case of its own. -/
def nodeMask (edgeBits : Nat) : BitVec 64 :=
  if edgeBits = 32 then 0xffffffff#64 else (1#64 <<< edgeBits) - 1#64

/-- The endpoint of an edge on one side, truncated to a `u32`. -/
def endpoint (keys : SipKeys) (edgeBits edge side : Nat) : Nat :=
  let nonce := BitVec.ofNat 64 edge * 2#64 + BitVec.ofNat 64 (side &&& 1)
  ((siphash24 keys nonce &&& nodeMask edgeBits).setWidth 32).toNat

/-- The mask's value up to the largest graph. -/
theorem node_mask_value (edgeBits : Nat) (inRange : edgeBits ≤ 32) :
    (nodeMask edgeBits).toNat = 2 ^ edgeBits - 1 := by
  interval_cases edgeBits <;> decide

/-- Every endpoint is a node of the graph. -/
theorem endpoint_lt (keys : SipKeys) (edgeBits edge side : Nat) (inRange : edgeBits ≤ 32) :
    endpoint keys edgeBits edge side < 2 ^ edgeBits := by
  have masked : ∀ hash : BitVec 64,
      ((hash &&& nodeMask edgeBits).setWidth 32).toNat < 2 ^ edgeBits := by
    intro hash
    have below : (hash &&& nodeMask edgeBits).toNat ≤ (nodeMask edgeBits).toNat := by
      rw [BitVec.toNat_and]
      exact Nat.and_le_right
    have positive : 0 < 2 ^ edgeBits := Nat.two_pow_pos edgeBits
    rw [node_mask_value edgeBits inRange] at below
    rw [BitVec.toNat_setWidth]
    exact Nat.lt_of_le_of_lt (Nat.mod_le _ _) (by omega)
  exact masked _

/-- Complementing a node changes it. -/
theorem complement_ne (node : Nat) : node ^^^ 1 ≠ node := by
  intro same
  have cancelled := congrArg (node ^^^ ·) same
  simp at cancelled

/-- Two nodes are each other's complements or neither's. -/
theorem complement_comm (left right : Nat) : left = right ^^^ 1 ↔ right = left ^^^ 1 := by
  constructor <;> rintro rfl <;> simp

/-- The complement of an even node is the next one. -/
theorem complement_even (node : Nat) (even : node % 2 = 0) : node ^^^ 1 = node + 1 := by
  have half : (node ^^^ 1) / 2 = node / 2 := by
    rw [Nat.xor_div_two]
    exact Nat.xor_zero _
  have parity : (node ^^^ 1) % 2 = 1 := by
    rw [Nat.xor_mod_two_eq_one]
    simp [even]
  omega

/-- The complement of an odd node is the one before. -/
theorem complement_odd (node : Nat) (odd : node % 2 = 1) : node ^^^ 1 = node - 1 := by
  have below := complement_even (node - 1) (by omega)
  rw [Nat.sub_add_cancel (by omega)] at below
  exact ((complement_comm _ _).mp below.symm).symm

end CuckatooMiner.SipHash
