import Mathlib
import CuckatooMiner.MetalRound
import CuckatooMiner.Foundation.StridedSweep

/-!
# The parts of a Metal run

A run divides the edges of a graph evenly and gives each part to the kernels as a range
of 32-bit numbers. The kernel that clears the dead edges always moves whole lists of
2^18 edges, in a range of the bitmap that starts at the part's first word. The ranges
tile the graph and the words stay inside their part as long as a part has at least one
whole list of edges and its size is below two to the thirty-two.
-/

namespace CuckatooMiner.Metal

open StridedSweep Solver

/-- What a run accepts. -/
def checkParts (edgeBits parts : Nat) : Except SolveError Unit :=
  if ¬ (18 ≤ edgeBits ∧ edgeBits ≤ 32) ∨ parts = 0 ∨ ¬ parts.isPowerOfTwo then
    .error (.invalidConfig "native Metal requires edge_bits 18..=32 and power-of-two parts")
  else .ok ()

/-- The number of dense rounds of a run. -/
def denseRounds (rounds : Nat) : Nat := min rounds 3

/-- The part that a phase takes at an offset. -/
def phasePart (parts : Nat) (trimPhase : Bool) (offset : Nat) : Nat :=
  if trimPhase then parts - 1 - offset else offset

/-- A word of the edge bitmap that the kernel loads and stores for the dead lists. -/
def applyWord (p : EndpointParams) (bucket word : Nat) : BitVec 32 :=
  (BitVec.ofNat 32 p.edgeBase >>> 5) + BitVec.ofNat 32 bucket * 8192#32 + BitVec.ofNat 32 word

/-- The words of a list, shared by the 1024 threads of a workgroup. -/
def applyWords : List Nat := visits (2 ^ 32) 1024 8192

/-- A word of the edge bitmap is inside it and all its edges are of the part. -/
def WordOfPart (edgeBits : Nat) (p : EndpointParams) (word : Nat) : Prop :=
  word < wordCount edgeBits ∧ p.edgeBase ≤ word * 32 ∧ word * 32 + 32 ≤ p.edgeBase + p.edgeCount

/-- The ranges that the kernels are given are not empty and tile the graph, in either
    phase, and every word that clearing the dead edges moves is of the part. -/
structure PartsFit (edgeBits parts : Nat) : Prop where
  some_edges : ∀ round, ∀ part < parts, 0 < (denseParams edgeBits parts round part).edgeCount
  inside : ∀ round, ∀ part < parts, (denseParams edgeBits parts round part).edgeBase +
    (denseParams edgeBits parts round part).edgeCount ≤ 2 ^ edgeBits
  tiles : ∀ round trimPhase, ∀ edge < 2 ^ edgeBits, ∃! offset, offset < parts ∧
    InPart (denseParams edgeBits parts round (phasePart parts trimPhase offset)) edge
  words : ∀ rounds, ∀ round < denseRounds rounds, ∀ offset < parts,
    ∀ bucket < deadBucketCount edgeBits parts, ∀ word ∈ applyWords,
      WordOfPart edgeBits (denseParams edgeBits parts round (phasePart parts true offset))
        (applyWord (denseParams edgeBits parts round (phasePart parts true offset)) bucket word).toNat

/-- A run accepts powers of two. -/
theorem check_parts_ok {edgeBits parts : Nat} (accepted : checkParts edgeBits parts = .ok ()) :
    (18 ≤ edgeBits ∧ edgeBits ≤ 32) ∧ ∃ power, parts = 2 ^ power := by
  unfold checkParts at accepted
  split at accepted
  · cases accepted
  · rename_i usable
    simp only [not_or, not_not] at usable
    exact ⟨usable.1, usable.2.2⟩

/-- A phase takes each part once. -/
theorem phase_part_involutive (parts : Nat) (trimPhase : Bool) (offset : Nat)
    (inside : offset < parts) :
    phasePart parts trimPhase offset < parts ∧
      phasePart parts trimPhase (phasePart parts trimPhase offset) = offset := by
  cases trimPhase <;> simp only [phasePart, if_true, if_false, Bool.false_eq_true, and_true] <;> omega

section

variable {edgeBits power : Nat}

/-- The edges of a part that has one. -/
theorem part_edges_power (fewer : power ≤ edgeBits) :
    partEdges edgeBits (2 ^ power) = 2 ^ (edgeBits - power) := by
  rw [partEdges, Nat.one_shiftLeft, Nat.pow_div fewer (by decide)]

/-- The size of a part is lost only if it is the whole graph of thirty-two bits. -/
theorem part_size_kept (range : edgeBits ≤ 32) (fewer : power ≤ edgeBits)
    (below : ¬ (edgeBits = 32 ∧ 2 ^ power = 1)) :
    asU32 (partEdges edgeBits (2 ^ power)) = 2 ^ (edgeBits - power) := by
  have small : edgeBits - power < 32 := by
    by_contra large
    have none_left : power = 0 := by omega
    exact below ⟨by omega, by rw [none_left, pow_zero]⟩
  rw [asU32, part_edges_power fewer]
  exact Nat.mod_eq_of_lt (Nat.pow_lt_pow_right (by decide) small)

/-- The lists of a part that has a whole one. -/
theorem dead_lists_power (range : 18 ≤ edgeBits) (fewer : power ≤ edgeBits - 18) :
    deadBucketCount edgeBits (2 ^ power) = 2 ^ (edgeBits - power - 18) := by
  rw [deadBucketCount, part_edges_power (by omega), Nat.shiftRight_eq_div_pow,
    Nat.pow_div (by omega) (by decide)]
  exact Nat.max_eq_left (Nat.two_pow_pos _)

end

/-- The words of a list are visited. -/
theorem mem_apply_words (word : Nat) : word ∈ applyWords ↔ word < 8192 := by
  rw [applyWords, (visits_perm (by decide) (by decide)).mem_iff, List.mem_range]

/-- The word of a list, if its numbers do not wrap. -/
theorem apply_word_toNat (p : EndpointParams) (bucket word : Nat)
    (small : p.edgeBase / 32 + bucket * 8192 + word < 2 ^ 32) (base : p.edgeBase < 2 ^ 32) :
    (applyWord p bucket word).toNat = p.edgeBase / 32 + bucket * 8192 + word := by
  have first : (BitVec.ofNat 32 p.edgeBase >>> 5).toNat = p.edgeBase / 32 := by
    rw [BitVec.toNat_ushiftRight, BitVec.toNat_ofNat, Nat.mod_eq_of_lt base,
      Nat.shiftRight_eq_div_pow]
  simp only [applyWord, BitVec.toNat_add, BitVec.toNat_mul, BitVec.toNat_ofNat, first]
  omega

section

variable {edgeBits power round part : Nat}

/-- Parts of some size end within the graph. -/
theorem part_ends (fewer : power ≤ edgeBits) (inside : part < 2 ^ power) :
    part * 2 ^ (edgeBits - power) + 2 ^ (edgeBits - power) ≤ 2 ^ edgeBits := by
  have whole : 2 ^ power * 2 ^ (edgeBits - power) = 2 ^ edgeBits := by
    rw [← pow_add, Nat.add_sub_cancel' fewer]
  rw [← Nat.succ_mul, ← whole]
  exact Nat.mul_le_mul_right _ inside

/-- An edge is in the part of its quotient alone. -/
theorem in_part_power (count : asU32 (partEdges edgeBits (2 ^ power)) = 2 ^ (edgeBits - power))
    (edge : Nat) : InPart (denseParams edgeBits (2 ^ power) round part) edge ↔
      edge / 2 ^ (edgeBits - power) = part := by
  have positive := Nat.two_pow_pos (edgeBits - power)
  simp only [InPart, denseParams, count]
  rw [Nat.div_eq_iff positive]
  omega

/-- A word of a list of a part that has a whole one is of the part. -/
theorem apply_word_of_part (range : 18 ≤ edgeBits ∧ edgeBits ≤ 32) (fewer : power ≤ edgeBits - 18)
    (count : asU32 (partEdges edgeBits (2 ^ power)) = 2 ^ (edgeBits - power))
    (inside : part < 2 ^ power) (bucket word : Nat)
    (bucket_inside : bucket < deadBucketCount edgeBits (2 ^ power)) (visited : word < 8192) :
    WordOfPart edgeBits (denseParams edgeBits (2 ^ power) round part)
      (applyWord (denseParams edgeBits (2 ^ power) round part) bucket word).toNat := by
  have low := range.1
  have most : 2 ^ edgeBits ≤ 2 ^ 32 := Nat.pow_le_pow_right (by decide) range.2
  have last := part_ends (by omega : power ≤ edgeBits) inside
  have words := word_count_bits low
  -- A part has so many lists of 2^18 edges.
  obtain ⟨lists, lists_eq⟩ : ∃ lists, lists = 2 ^ (edgeBits - power - 18) := ⟨_, rfl⟩
  have size : 2 ^ (edgeBits - power) = lists * 262144 := by
    rw [lists_eq, show 262144 = 2 ^ 18 from rfl, ← pow_add]
    congr 1
    omega
  have base : (denseParams edgeBits (2 ^ power) round part).edgeBase = part * lists * 262144 := by
    simp only [denseParams, count]
    rw [size, Nat.mul_assoc]
  rw [dead_lists_power low fewer, ← lists_eq] at bucket_inside
  rw [size, ← Nat.mul_assoc] at last
  rw [WordOfPart, apply_word_toNat _ bucket word (by rw [base]; omega) (by rw [base]; omega), base]
  simp only [denseParams, count, size]
  omega

/-- Parts of at least one whole list tile the graph and keep to their words. -/
theorem parts_fit (range : 18 ≤ edgeBits ∧ edgeBits ≤ 32)
    (fewer : power ≤ edgeBits - 18) (below : ¬ (edgeBits = 32 ∧ 2 ^ power = 1)) :
    PartsFit edgeBits (2 ^ power) := by
  have few : power ≤ edgeBits := by omega
  have count := part_size_kept range.2 few below
  constructor
  · intro round part inside
    simp only [denseParams, count]
    exact Nat.two_pow_pos _
  · intro round part inside
    simp only [denseParams, count]
    exact part_ends few inside
  · intro round trimPhase edge inside
    simp only [in_part_power count]
    have part_inside : edge / 2 ^ (edgeBits - power) < 2 ^ power := by
      rwa [Nat.div_lt_iff_lt_mul (Nat.two_pow_pos _), ← pow_add, Nat.add_sub_cancel' few]
    obtain ⟨offset_inside, back⟩ := phase_part_involutive (2 ^ power) trimPhase _ part_inside
    refine ⟨phasePart (2 ^ power) trimPhase (edge / 2 ^ (edgeBits - power)),
      ⟨offset_inside, back.symm⟩, ?_⟩
    rintro offset ⟨other_inside, here⟩
    rw [here]
    exact (phase_part_involutive (2 ^ power) trimPhase offset other_inside).2.symm
  · intro rounds round _ offset inside bucket bucket_inside word visited
    exact apply_word_of_part range fewer count (phase_part_involutive (2 ^ power) true offset inside).1
      bucket word bucket_inside ((mem_apply_words word).mp visited)

/-- A part of the whole graph of thirty-two bits is empty. -/
theorem whole_graph_empty : ¬ PartsFit 32 1 := by
  intro fits
  exact absurd (fits.some_edges 0 0 (by decide)) (by decide)

/-- Parts that are smaller than a list lose words to their neighbours. -/
theorem small_parts_overlap (range : 18 ≤ edgeBits ∧ edgeBits ≤ 32)
    (more : edgeBits - 18 < power) : ¬ PartsFit edgeBits (2 ^ power) := by
  intro fits
  have positive := fits.some_edges 0 0 (Nat.two_pow_pos power)
  have some_parts := Nat.two_pow_pos power
  have dispatched := fits.words 1 0 (by decide) (2 ^ power - 1) (by omega) 0
    (by rw [deadBucketCount]; omega) 8191 ((mem_apply_words 8191).mpr (by decide))
  have first : phasePart (2 ^ power) true (2 ^ power - 1) = 0 := by
    simp only [phasePart, if_true]
    omega
  rw [first] at dispatched
  obtain ⟨_, _, last⟩ := dispatched
  rw [apply_word_toNat _ _ _ (by simp [denseParams]) (by simp [denseParams])] at last
  have small : partEdges edgeBits (2 ^ power) < 2 ^ 18 := by
    rw [partEdges, Nat.one_shiftLeft, Nat.div_lt_iff_lt_mul (Nat.two_pow_pos power), ← pow_add]
    exact Nat.pow_lt_pow_right (by decide) (by omega)
  simp only [denseParams, asU32] at last
  rw [Nat.mod_eq_of_lt (by omega)] at last
  omega

end

/-- The ranges of the parts are not empty and tile the graph, and clearing dead edges keeps to
    the words of its part, if and only if a part has at least 2^18 edges and is not the whole
    graph of thirty-two bits. It is about ranges and words; what the rounds leave in them is
    left out. -/
theorem metal_parts_fit_iff (edgeBits parts : Nat)
    (accepted : checkParts edgeBits parts = .ok ()) : PartsFit edgeBits parts ↔
    parts ≤ 2 ^ (edgeBits - 18) ∧ ¬ (edgeBits = 32 ∧ parts = 1) := by
  obtain ⟨range, power, rfl⟩ := check_parts_ok accepted
  constructor
  · intro fits
    refine ⟨?_, ?_⟩
    · rw [Nat.pow_le_pow_iff_right (by decide)]
      by_contra more
      exact small_parts_overlap range (by omega) fits
    · rintro ⟨rfl, one⟩
      rw [one] at fits
      exact whole_graph_empty fits
  · rintro ⟨fewer, below⟩
    exact parts_fit range ((Nat.pow_le_pow_iff_right (by decide)).mp fewer) below

/-- Four parts of a graph of twenty edge bits fit. -/
theorem four_parts_fit : PartsFit 20 4 :=
  (metal_parts_fit_iff 20 4 (by decide +kernel)).mpr ⟨by decide, by decide⟩

/-- Four parts of a graph of eighteen do not. -/
theorem four_small_parts_overlap :
    ¬ ∀ edgeBits parts, checkParts edgeBits parts = .ok () → PartsFit edgeBits parts := by
  intro always
  have fits := always 18 4 (by decide +kernel)
  have dispatched := fits.words 24 0 (by decide) 3 (by decide) 0 (by decide) 8191
    ((mem_apply_words 8191).mpr (by decide))
  exact absurd dispatched.2.2 (by decide)

end CuckatooMiner.Metal
