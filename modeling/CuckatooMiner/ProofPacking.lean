import Mathlib
import CuckatooMiner.ProofDifficulty

/-!
# The packing of a proof

The nonces of a proof are packed bit by bit, one nonce behind the other, into
bytes that were zero before. Each set bit of a nonce is written to a position of
its own and inside the bytes, so every bit of the packing is known, the rest of
the last byte stays clear, and the nonces can be read back.
-/

namespace CuckatooMiner.ProofPacking

open ProofDifficulty PackedBits

/-- The positions that one nonce writes to. -/
def nonceWrites (edgeBits : Nat) (entry : Nat × Nat) : List Nat :=
  ((List.range edgeBits).filter (entry.1.testBit ·)).map (entry.2 * edgeBits + ·)

/-- The positions that a proof writes to, in the order of the writes. -/
def writes (nonces : List Nat) (edgeBits : Nat) : List Nat :=
  nonces.zipIdx.flatMap (nonceWrites edgeBits)

/-- The bytes that are hashed. -/
def packedBytes (nonces : List Nat) (edgeBits : Nat) : List UInt8 :=
  (packNonces nonces edgeBits).map UInt8.ofBitVec

/-- One bit of the bytes, lowest first within each byte. -/
def bitOf (bytes : List UInt8) (position : Nat) : Bool :=
  (bytes.getD (position / 8) 0).toNat.testBit (position % 8)

/-- Read the nonces back. -/
def unpackNonces (count edgeBits : Nat) (bytes : List UInt8) : List Nat :=
  (List.range count).map fun i =>
    Nat.ofBits fun bit : Fin edgeBits => bitOf bytes (i * edgeBits + bit)

/-- Packing one nonce sets the bits that it writes to. -/
theorem pack_nonce_writes (edgeBits : Nat) (packed : List (BitVec 8)) (entry : Nat × Nat) :
    packNonce edgeBits packed entry = (nonceWrites edgeBits entry).foldl put packed := by
  rw [packNonce, nonceWrites, List.foldl_map, List.foldl_filter]

/-- Packing a proof sets the bits that it writes to. -/
theorem pack_nonces_writes (nonces : List Nat) (edgeBits : Nat) :
    packNonces nonces edgeBits = (writes nonces edgeBits).foldl put
      (List.replicate ((nonces.length * edgeBits + 7) / 8) 0#8) := by
  have each : packNonce edgeBits = fun packed entry =>
      (nonceWrites edgeBits entry).foldl put packed := by
    funext packed entry
    exact pack_nonce_writes edgeBits packed entry
  rw [packNonces, writes, List.foldl_flatMap, each]

/-- A bit of a nonce has a position of its own among the bits of the proof. -/
theorem position_split (edgeBits count i bit : Nat) (inside : i < count) (low : bit < edgeBits) :
    i * edgeBits + bit < count * edgeBits ∧ (i * edgeBits + bit) / edgeBits = i ∧
      (i * edgeBits + bit) % edgeBits = bit := by
  refine ⟨?_, ?_, ?_⟩
  · calc i * edgeBits + bit < i * edgeBits + edgeBits := by omega
      _ = (i + 1) * edgeBits := (Nat.succ_mul i edgeBits).symm
      _ ≤ count * edgeBits := Nat.mul_le_mul_right edgeBits inside
  · rw [Nat.mul_comm, Nat.mul_add_div (by omega), Nat.div_eq_of_lt low, Nat.add_zero]
  · rw [Nat.mul_comm, Nat.mul_add_mod, Nat.mod_eq_of_lt low]

/-- A proof writes to the positions of the set bits of its nonces. -/
theorem mem_writes (nonces : List Nat) (edgeBits position : Nat) :
    position ∈ writes nonces edgeBits ↔ position < nonces.length * edgeBits ∧
      (nonces.getD (position / edgeBits) 0).testBit (position % edgeBits) = true := by
  simp only [writes, nonceWrites, List.mem_flatMap, List.mem_map, List.mem_filter, List.mem_range]
  constructor
  · rintro ⟨⟨nonce, i⟩, member, bit, ⟨bit_bound, set_bit⟩, rfl⟩
    have stored := List.mk_mem_zipIdx_iff_getElem?.mp member
    have inside : i < nonces.length := (List.getElem?_eq_some_iff.mp stored).1
    obtain ⟨bound, index, place⟩ := position_split edgeBits nonces.length i bit inside bit_bound
    refine ⟨bound, ?_⟩
    rw [index, place, List.getD_eq_getElem?_getD, stored]
    exact set_bit
  · rintro ⟨bound, set_bit⟩
    have positive : 0 < edgeBits := Nat.pos_of_mul_pos_left (Nat.zero_lt_of_lt bound)
    have inside : position / edgeBits < nonces.length := (Nat.div_lt_iff_lt_mul positive).mpr bound
    refine ⟨(nonces[position / edgeBits], position / edgeBits), ?_, position % edgeBits,
      ⟨Nat.mod_lt _ positive, ?_⟩, ?_⟩
    · exact List.mk_mem_zipIdx_iff_getElem?.mpr (List.getElem?_eq_getElem inside)
    · rwa [List.getD_eq_getElem _ _ inside] at set_bit
    · rw [Nat.mul_comm]
      exact Nat.div_add_mod position edgeBits

/-- No write of a proof is out of range. -/
theorem writes_inside (nonces : List Nat) (edgeBits : Nat) :
    ∀ position ∈ writes nonces edgeBits,
      position / 8 < (nonces.length * edgeBits + 7) / 8 := by
  intro position member
  have bound := ((mem_writes nonces edgeBits position).mp member).1
  omega

/-- The bytes are as many as the bits need. -/
theorem packed_length (nonces : List Nat) (edgeBits : Nat) :
    (packedBytes nonces edgeBits).length = (nonces.length * edgeBits + 7) / 8 := by
  rw [packedBytes, List.length_map, pack_nonces_writes, put_all_length, List.length_replicate]

/-- The bits of the hashed bytes are the bits of the packed words. -/
theorem bit_of_packed (nonces : List Nat) (edgeBits position : Nat) :
    bitOf (packedBytes nonces edgeBits) position =
      test (packNonces nonces edgeBits) position := by
  rw [bitOf, test_eq_getLsbD _ _ (by decide), packedBytes, ← BitVec.testBit_toNat]
  congr 1
  simp only [List.getD_eq_getElem?_getD, List.getElem?_map]
  cases (packNonces nonces edgeBits)[position / 8]? <;> rfl

/-- Every bit of the packing is the bit of the nonce at its place, and clear behind
    the last nonce. -/
theorem packed_bit (nonces : List Nat) (edgeBits position : Nat) :
    bitOf (packedBytes nonces edgeBits) position =
      (decide (position < nonces.length * edgeBits) &&
        (nonces.getD (position / edgeBits) 0).testBit (position % edgeBits)) := by
  rw [bit_of_packed, pack_nonces_writes, test_put_all _ _ _ (by decide)
    (fun item member => by simpa using writes_inside nonces edgeBits item member),
    test_replicate_zero, Bool.false_or, Bool.eq_iff_iff, decide_eq_true_iff, Bool.and_eq_true,
    decide_eq_true_iff]
  exact mem_writes nonces edgeBits position

/-- Reading back what was packed gives the nonces. -/
theorem unpack_packed (nonces : List Nat) (edgeBits : Nat)
    (small : ∀ nonce ∈ nonces, nonce < 2 ^ edgeBits) :
    unpackNonces nonces.length edgeBits (packedBytes nonces edgeBits) = nonces := by
  apply List.ext_getElem (by simp [unpackNonces])
  intro i _ inside
  simp only [unpackNonces, List.getElem_map, List.getElem_range]
  apply Nat.eq_of_testBit_eq
  intro bit
  rcases Nat.lt_or_ge bit edgeBits with low | high
  · rw [Nat.testBit_ofBits_lt _ bit low, packed_bit]
    obtain ⟨bound, index, place⟩ := position_split edgeBits nonces.length i bit inside low
    rw [decide_eq_true bound, index, place, List.getD_eq_getElem _ _ inside, Bool.true_and]
  · rw [Nat.testBit_ofBits_ge _ bit high]
    exact (Nat.testBit_lt_two_pow (Nat.lt_of_lt_of_le (small _ (List.getElem_mem inside))
      (Nat.pow_le_pow_right (by decide) high))).symm

/-- The packing of a proof is lossless: the hashed bytes have the length of the bits,
    each bit is known, no write is out of range, and the nonces can be read back, so
    different proofs of one length never pack to the same bytes. -/
theorem packing_lossless (nonces : List Nat) (edgeBits : Nat)
    (small : ∀ nonce ∈ nonces, nonce < 2 ^ edgeBits) :
    (∀ blake2b, proofHash blake2b ⟨nonces⟩ edgeBits = blake2b (packedBytes nonces edgeBits)) ∧
      (packedBytes nonces edgeBits).length = (nonces.length * edgeBits + 7) / 8 ∧
      packNonces nonces edgeBits = (writes nonces edgeBits).foldl put
        (List.replicate ((nonces.length * edgeBits + 7) / 8) 0#8) ∧
      (∀ position ∈ writes nonces edgeBits,
        position / 8 < (nonces.length * edgeBits + 7) / 8) ∧
      (∀ k < nonces.length * edgeBits, bitOf (packedBytes nonces edgeBits) k =
        (nonces.getD (k / edgeBits) 0).testBit (k % edgeBits)) ∧
      (∀ k, nonces.length * edgeBits ≤ k → bitOf (packedBytes nonces edgeBits) k = false) ∧
      unpackNonces nonces.length edgeBits (packedBytes nonces edgeBits) = nonces ∧
      ∀ others : List Nat, others.length = nonces.length →
        (∀ nonce ∈ others, nonce < 2 ^ edgeBits) →
        packedBytes others edgeBits = packedBytes nonces edgeBits → others = nonces := by
  refine ⟨fun _ => rfl, packed_length nonces edgeBits, pack_nonces_writes nonces edgeBits,
    writes_inside nonces edgeBits, ?_, ?_, unpack_packed nonces edgeBits small, ?_⟩
  · intro k inside
    rw [packed_bit, decide_eq_true inside, Bool.true_and]
  · intro k padding
    rw [packed_bit, decide_eq_false (Nat.not_lt.mpr padding), Bool.false_and]
  · intro others length others_small same
    calc others = unpackNonces others.length edgeBits (packedBytes others edgeBits) :=
          (unpack_packed others edgeBits others_small).symm
      _ = unpackNonces nonces.length edgeBits (packedBytes nonces edgeBits) := by
          rw [length, same]
      _ = nonces := unpack_packed nonces edgeBits small

/-- Three nonces of eleven bits straddle two byte boundaries. -/
theorem packing_lossless_straddling :
    unpackNonces 3 11 (packedBytes [1025, 2047, 1364] 11) = [1025, 2047, 1364] :=
  (packing_lossless [1025, 2047, 1364] 11 (by decide)).2.2.2.2.2.2.1

end CuckatooMiner.ProofPacking
