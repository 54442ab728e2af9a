import Mathlib
import CuckatooMiner.Slean

/-!
# The shape of a slean round

Parts and buckets divide the graph by powers of two: the leading bits of a node are its
bucket, the rest its place in the bucket, and a part's edges fill whole dead lists. A
node and its complement share a bucket.
-/

namespace CuckatooMiner.Slean

/-- The nodes of a bucket, which is also the number of edges of a dead list. -/
def bucketNodes (p : Params) : Nat := sleanBucketWords p * 32

/-- Buckets divide the nodes and the part's edges evenly. -/
structure Shape (p : Params) : Prop where
  shards : 4 * sleanShardWidth p = p.bucketCount
  width : 0 < sleanShardWidth p
  words : 0 < sleanBucketWords p
  even : p.bucketCount * sleanBucketWords p = p.wordCount
  nodes : p.wordCount * 32 = 2 ^ p.edgeBits
  bucket : ∀ node, sleanBucket p node = node / bucketNodes p
  suffix : ∀ node, sleanSuffix p node = node % bucketNodes p
  count : p.chunkCount = sleanDeadBucketCount p * bucketNodes p
  lists : 0 < sleanDeadBucketCount p
  base : ∃ first, p.chunkBase = first * bucketNodes p
  inside : p.chunkBase + p.chunkCount ≤ 2 ^ p.edgeBits

/-- The mask below a power of two has as many ones as its exponent. -/
theorem count_one_bits_mask (bits : Nat) (small : bits ≤ 32) : countOneBits (2 ^ bits - 1) = bits := by
  have same : (List.range 32).filter (2 ^ bits - 1).testBit =
      (List.range bits).filter (fun _ => true) := by
    apply List.Pairwise.eq_of_mem_iff (r := (· < ·))
    · exact List.pairwise_lt_range.filter _
    · exact List.pairwise_lt_range.filter _
    · intro i
      simp only [List.mem_filter, List.mem_range, Nat.testBit_two_pow_sub_one, decide_eq_true_eq,
        and_true]
      omega
  rw [countOneBits, same, List.filter_true, List.length_range]

/-- Rounding up a multiple of a power of two. -/
theorem ceil_div_power (value divisor : Nat) (enough : divisor ≤ value) :
    2 ^ value ⌈/⌉ 2 ^ divisor = 2 ^ (value - divisor) := by
  obtain ⟨rest, rfl⟩ := Nat.exists_eq_add_of_le enough
  rw [Nat.add_sub_cancel_left, pow_add, ← smul_eq_mul, smul_ceilDiv (Nat.two_pow_pos divisor)]

/-- A whole number of ceilings can be divided by a scale. -/
theorem ceil_div_scale (value divisor scale quotient : Nat) (scaled : 0 < scale)
    (positive : 0 < divisor) (whole : value * scale ⌈/⌉ divisor = quotient * scale) :
    value ⌈/⌉ divisor = quotient := by
  apply Nat.le_antisymm
  · have most := (ceilDiv_le_iff_le_mul positive).mp (Nat.le_of_eq whole)
    rw [← Nat.mul_assoc] at most
    exact (ceilDiv_le_iff_le_mul positive).mpr (Nat.le_of_mul_le_mul_right most scaled)
  · have enough := (ceilDiv_le_iff_le_mul positive).mp (Nat.le_refl (value ⌈/⌉ divisor))
    have more := Nat.mul_le_mul_right scale enough
    rw [Nat.mul_assoc] at more
    have least := (ceilDiv_le_iff_le_mul positive).mpr more
    rw [whole] at least
    exact Nat.le_of_mul_le_mul_right least scaled

/-- The powers of two that a sizing is made of. -/
structure Powers (sizing : SleanSizing) (buckets parts : Nat) : Prop where
  bucket_count : sizing.bucketCount = 2 ^ buckets
  part_count : sizing.parts = 2 ^ parts
  four : 2 ≤ buckets
  fewer : parts ≤ buckets
  wide : buckets + 5 ≤ sizing.edgeBits
  words : sizing.wordCount = 2 ^ (sizing.edgeBits - 5)
  edges : sizing.partEdges = 2 ^ (sizing.edgeBits - parts)

/-- Every sizing is made of powers of two. -/
theorem SleanSizing.powers (sizing : SleanSizing) :
    ∃ buckets parts, Powers sizing buckets parts := by
  obtain ⟨buckets, bucket_count⟩ := sizing.buckets_power
  obtain ⟨parts, part_count⟩ := sizing.parts_power
  have some_words := sizing.words_positive
  have four := sizing.buckets_four
  have whole := sizing.parts_whole
  have limit := sizing.parts_limit
  rw [bucket_count] at some_words four whole
  rw [part_count] at whole limit
  have wide : 5 ≤ sizing.edgeBits := by
    by_contra narrow
    have few : 2 ^ sizing.edgeBits ≤ 2 ^ 4 := Nat.pow_le_pow_right (by decide) (by omega)
    have one : 2 ^ sizing.edgeBits ⌈/⌉ 32 ≤ 1 := (ceilDiv_le_iff_le_mul (by decide)).mpr (by omega)
    rw [Nat.div_eq_of_lt (by omega)] at some_words
    exact Nat.lt_irrefl 0 some_words
  have words : 2 ^ sizing.edgeBits ⌈/⌉ 32 = 2 ^ (sizing.edgeBits - 5) :=
    ceil_div_power sizing.edgeBits 5 wide
  rw [words] at some_words whole
  have fits : buckets ≤ sizing.edgeBits - 5 :=
    (Nat.pow_le_pow_iff_right (by decide)).mp ((Nat.div_pos_iff.mp some_words).2)
  have parts_fit : parts ≤ sizing.edgeBits := (Nat.pow_le_pow_iff_right (by decide)).mp limit
  have fewer : parts ≤ buckets := by
    rw [Nat.pow_div fits (by decide), Nat.pow_div parts_fit (by decide), show 32 = 2 ^ 5 from rfl,
      ← pow_add] at whole
    have order := (Nat.pow_dvd_pow_iff_le_right (by decide)).mp (Nat.dvd_of_mod_eq_zero whole)
    omega
  refine ⟨buckets, parts, bucket_count, part_count, ?_, fewer, by omega, words, ?_⟩
  · exact (Nat.pow_le_pow_iff_right (by decide)).mp (show 2 ^ 2 ≤ 2 ^ buckets from four)
  · rw [SleanSizing.partEdges, part_count, ceil_div_power _ _ parts_fit]

section

variable {sizing : SleanSizing} {buckets parts : Nat}

/-- The words of a bucket. -/
theorem Powers.bucket_words (powers : Powers sizing buckets parts) (part : Nat) :
    sleanBucketWords (sizing.params part) = 2 ^ (sizing.edgeBits - 5 - buckets) := by
  have wide := powers.wide
  show sizing.wordCount / sizing.bucketCount = _
  rw [powers.words, powers.bucket_count, Nat.pow_div (by omega) (by decide)]

/-- The nodes of a bucket. -/
theorem Powers.bucket_nodes (powers : Powers sizing buckets parts) (part : Nat) :
    bucketNodes (sizing.params part) = 2 ^ (sizing.edgeBits - buckets) := by
  have wide := powers.wide
  rw [bucketNodes, powers.bucket_words, show 32 = 2 ^ 5 from rfl, ← pow_add]
  congr 1
  omega

/-- The buckets of an arena. -/
theorem Powers.shard_width (powers : Powers sizing buckets parts) (part : Nat) :
    sleanShardWidth (sizing.params part) = 2 ^ (buckets - 2) := by
  show sizing.bucketCount / 4 = _
  rw [powers.bucket_count, show 4 = 2 ^ 2 from rfl, Nat.pow_div powers.four (by decide)]

/-- All edges of a part exist. -/
theorem Powers.part_inside (powers : Powers sizing buckets parts) (part : Nat)
    (inside : part < sizing.parts) :
    part * sizing.partEdges + sizing.partEdges ≤ 2 ^ sizing.edgeBits := by
  have fewer := powers.fewer
  have wide := powers.wide
  have total : sizing.parts * sizing.partEdges = 2 ^ sizing.edgeBits := by
    rw [powers.part_count, powers.edges, ← pow_add]
    congr 1
    omega
  have most := Nat.mul_le_mul_right sizing.partEdges (show part + 1 ≤ sizing.parts from inside)
  rwa [Nat.succ_mul, total] at most

/-- Every part has the same number of edges. -/
theorem Powers.chunk_count (powers : Powers sizing buckets parts) (part : Nat)
    (inside : part < sizing.parts) : (sizing.params part).chunkCount = sizing.partEdges := by
  have all_edges := powers.part_inside part inside
  show min sizing.partEdges (2 ^ sizing.edgeBits - part * sizing.partEdges) = sizing.partEdges
  exact Nat.min_eq_left (by omega)

/-- A part's edges fill whole dead lists. -/
theorem Powers.part_edges (powers : Powers sizing buckets parts) (part : Nat) :
    sizing.partEdges = 2 ^ (buckets - parts) * bucketNodes (sizing.params part) := by
  have fewer := powers.fewer
  have wide := powers.wide
  rw [powers.edges, powers.bucket_nodes, ← pow_add]
  congr 1
  omega

/-- The number of dead lists. -/
theorem Powers.dead_lists (powers : Powers sizing buckets parts) (part : Nat)
    (inside : part < sizing.parts) :
    sleanDeadBucketCount (sizing.params part) = 2 ^ (buckets - parts) := by
  have fewer := powers.fewer
  have wide := powers.wide
  have rounded : (sizing.partEdges + 31) >>> 5 = 2 ^ (sizing.edgeBits - parts - 5) := by
    rw [Nat.shiftRight_eq_div_pow, powers.edges, ← ceil_div_power _ 5 (by omega)]
    rfl
  rw [sleanDeadBucketCount, powers.chunk_count part inside, rounded, powers.bucket_words,
    Nat.pow_div (by omega) (by decide)]
  congr 1
  omega

end

/-- Every part has the shape that the kernels rely on. -/
theorem SleanSizing.shape (sizing : SleanSizing) (part : Nat) (inside : part < sizing.parts) :
    Shape (sizing.params part) := by
  obtain ⟨buckets, parts, powers⟩ := sizing.powers
  have narrow := sizing.edgeBits_le
  have wide := powers.wide
  have four := powers.four
  have chunk := powers.chunk_count part inside
  have bucket_nodes := powers.bucket_nodes part
  refine ⟨?_, ?_, ?_, ?_, ?_, ?_, ?_, ?_, ?_, ?_, ?_⟩
  · show 4 * sleanShardWidth (sizing.params part) = sizing.bucketCount
    rw [powers.shard_width, powers.bucket_count, show 4 = 2 ^ 2 from rfl, ← pow_add]
    congr 1
    omega
  · rw [powers.shard_width]
    exact Nat.two_pow_pos _
  · rw [powers.bucket_words]
    exact Nat.two_pow_pos _
  · show sizing.bucketCount * sleanBucketWords (sizing.params part) = sizing.wordCount
    rw [powers.bucket_words, powers.bucket_count, powers.words, ← pow_add]
    congr 1
    omega
  · show sizing.wordCount * 32 = 2 ^ sizing.edgeBits
    rw [powers.words, show 32 = 2 ^ 5 from rfl, ← pow_add]
    congr 1
    omega
  · intro node
    show node >>> (sizing.edgeBits - countOneBits (sizing.bucketCount - 1)) = _
    rw [powers.bucket_count, count_one_bits_mask _ (by omega), Nat.shiftRight_eq_div_pow,
      bucket_nodes]
  · intro node
    show node &&& (bucketNodes (sizing.params part) - 1) = _
    rw [bucket_nodes, Nat.and_two_pow_sub_one_eq_mod]
  · rw [chunk, powers.dead_lists part inside]
    exact powers.part_edges part
  · rw [powers.dead_lists part inside]
    exact Nat.two_pow_pos _
  · refine ⟨part * 2 ^ (buckets - parts), ?_⟩
    show part * sizing.partEdges = _
    rw [powers.part_edges part, Nat.mul_assoc]
  · rw [chunk]
    exact powers.part_inside part inside

/-- The host and the kernels count the dead lists alike. -/
theorem SleanSizing.dead_bucket_count_eq (sizing : SleanSizing) (part : Nat)
    (inside : part < sizing.parts) :
    sizing.deadBucketCount = sleanDeadBucketCount (sizing.params part) := by
  obtain ⟨buckets, parts, powers⟩ := sizing.powers
  have fewer := powers.fewer
  have wide := powers.wide
  have positive : 0 < sizing.localBytes := by
    by_contra none_left
    have from_local := sizing.bucketCount_eq
    rw [Nat.eq_zero_of_not_pos none_left, ceilDiv_zero] at from_local
    have four := sizing.buckets_four
    omega
  have bytes : sizing.partEdges ⌈/⌉ 8 = 2 ^ (sizing.edgeBits - parts - 3) := by
    rw [powers.edges]
    exact ceil_div_power _ 3 (by omega)
  have from_local : 2 ^ (sizing.edgeBits - parts - 3) * 2 ^ parts ⌈/⌉ sizing.localBytes =
      2 ^ (buckets - parts) * 2 ^ parts := by
    have whole := sizing.bucketCount_eq
    rw [powers.bucket_count, show 2 ^ sizing.edgeBits ⌈/⌉ 32 = _ from powers.words,
      show 4 = 2 ^ 2 from rfl, ← pow_add] at whole
    rw [← pow_add, ← pow_add, show buckets - parts + parts = buckets by omega, whole]
    congr 2
    omega
  rw [powers.dead_lists part inside, SleanSizing.deadBucketCount, bytes,
    ceil_div_scale _ _ _ _ (Nat.two_pow_pos parts) positive from_local]
  exact Nat.max_eq_left (Nat.two_pow_pos _)

section

variable {p : Params} (shape : Shape p)

include shape

/-- A bucket has nodes. -/
theorem Shape.positive : 0 < bucketNodes p :=
  Nat.mul_pos shape.words (by decide)

/-- The buckets hold all nodes. -/
theorem Shape.bucket_inside (node : Nat) (inGraph : node < 2 ^ p.edgeBits) :
    node / bucketNodes p < p.bucketCount := by
  rw [Nat.div_lt_iff_lt_mul shape.positive, bucketNodes, ← Nat.mul_assoc, shape.even, shape.nodes]
  exact inGraph

end

/-- A node and its complement share a bucket. -/
theorem mate_bucket (p : Params) (node : Nat) :
    (node ^^^ 1) / bucketNodes p = node / bucketNodes p := by
  have halves : bucketNodes p = 2 * (sleanBucketWords p * 16) := by
    rw [bucketNodes]
    omega
  have pair : (node ^^^ 1) / 2 = node / 2 := by
    have shifted := Nat.shiftRight_xor_distrib (a := node) (b := 1) (i := 1)
    simpa [Nat.shiftRight_eq_div_pow] using shifted
  calc (node ^^^ 1) / bucketNodes p
      = (node ^^^ 1) / 2 / (sleanBucketWords p * 16) := by rw [halves, Nat.div_div_eq_div_mul]
    _ = node / 2 / (sleanBucketWords p * 16) := by rw [pair]
    _ = node / bucketNodes p := by rw [halves, Nat.div_div_eq_div_mul]

end CuckatooMiner.Slean
