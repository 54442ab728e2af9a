import Mathlib
import CuckatooMiner.BucketedKernels

/-!
# A bucketed round is a direct round

Both phases scatter a chunk in the same way. When a chunk is trimmed, only edges of
earlier chunks have been removed, so the second scatter finds the live edges of the first
and fills the buckets to the same numbers. If every bucket of every chunk has room, the
first phase marks the nodes of all live edges and the second one removes exactly the edges
that a direct round removes. If some bucket is too small, the first phase has counted an
overflow before the first removal, nothing is removed, and the direct round that follows
starts from the bitmap of the beginning.
-/

namespace CuckatooMiner.Bucketed

open PackedBits Reservation
open LeanRound (Bitmap)
open GpuLean (GraphSize inOrder leanTrimRound lean_trim_round_eq)

/-- The counter of a bucket went beyond its capacity, so that an item was not stored. -/
def Overflowed (capacityOf : Nat → Nat → Nat) (edgeBits : Nat) (buffers : Buffers) (bucket : Nat) :
    Prop :=
  capacityFor capacityOf (markParams edgeBits bucket) < buffers.scratch.read bucket

/-! ## Chunks -/

section Chunks

variable {edgeBits : Nat}

/-- The edges of a chunk are a power of two, and so are the chunks. -/
theorem chunks_cover (lower : 24 ≤ edgeBits) (upper : edgeBits ≤ 32) :
    chunkCount edgeBits * chunkEdges edgeBits = 2 ^ edgeBits ∧ chunkEdges edgeBits % 32 = 0 ∧
      0 < chunkEdges edgeBits := by
  interval_cases edgeBits <;> decide

/-- The chunks of a graph fit in it, one after the other. -/
theorem chunk_inside (lower : 24 ≤ edgeBits) (upper : edgeBits ≤ 32) (chunk : Nat)
    (inside : chunk < chunkCount edgeBits) :
    chunk * chunkEdges edgeBits + chunkEdges edgeBits ≤ 2 ^ edgeBits := by
  obtain ⟨total, _, _⟩ := chunks_cover lower upper
  calc chunk * chunkEdges edgeBits + chunkEdges edgeBits = (chunk + 1) * chunkEdges edgeBits := by ring
    _ ≤ chunkCount edgeBits * chunkEdges edgeBits := Nat.mul_le_mul_right _ inside
    _ = 2 ^ edgeBits := total

/-- A chunk has no more edges than a chunk may have. -/
theorem chunk_edges_le (edgeBits : Nat) : chunkEdges edgeBits ≤ bucketChunkEdges := Nat.min_le_right ..

/-- No parameter of a chunk is cut off, and no chunk is shorter than the others. -/
theorem scatter_params_eq (lower : 24 ≤ edgeBits) (upper : edgeBits ≤ 32) (chunk : Nat)
    (inside : chunk < chunkCount edgeBits) :
    scatterParams edgeBits chunk = ⟨edgeBits, chunk * chunkEdges edgeBits, chunkEdges edgeBits,
      bucketedMarkBuckets <<< 16⟩ := by
  have fits := chunk_inside lower upper chunk inside
  have positive := (chunks_cover lower upper).2.2
  have few := chunk_edges_le edgeBits
  have largest : 2 ^ edgeBits ≤ 2 ^ 32 := Nat.pow_le_pow_right (by decide) upper
  have base : GpuLean.asU32 (chunk * chunkEdges edgeBits) = chunk * chunkEdges edgeBits :=
    Nat.mod_eq_of_lt (by omega)
  have count : GpuLean.asU32 (min (chunkEdges edgeBits) ((GraphSize.new edgeBits).edgeCount -
      chunk * chunkEdges edgeBits)) = chunkEdges edgeBits := by
    have rest : chunkEdges edgeBits ≤ (GraphSize.new edgeBits).edgeCount -
        chunk * chunkEdges edgeBits := by
      show chunkEdges edgeBits ≤ 2 ^ edgeBits - chunk * chunkEdges edgeBits
      omega
    rw [Nat.min_eq_left rest]
    simp only [bucketChunkEdges] at few
    exact Nat.mod_eq_of_lt (by omega)
  simp only [scatterParams, base, count]

/-- The number of buckets is read back from the upper half of its parameter. -/
theorem config_count : (bucketedMarkBuckets <<< 16) >>> 16 = bucketedMarkBuckets := by decide

/-- A chunk consists of whole words. -/
theorem chunk_shape (lower : 24 ≤ edgeBits) (upper : edgeBits ≤ 32) (chunk : Nat)
    (inside : chunk < chunkCount edgeBits) : ChunkShape (scatterParams edgeBits chunk) := by
  obtain ⟨_, aligned, _⟩ := chunks_cover lower upper
  rw [scatter_params_eq lower upper chunk inside]
  constructor
  · show 6 ≤ edgeBits
    omega
  · exact config_count
  · show chunk * chunkEdges edgeBits % 32 = 0
    rw [Nat.mul_mod, aligned, Nat.mul_zero, Nat.zero_mod]
  · exact chunk_edges_le edgeBits

/-- The parameters of a bucket's kernels name the bucket and the number of buckets. -/
theorem mark_params_config : ∀ bucket < bucketedMarkBuckets,
    ((bucketedMarkBuckets <<< 16) ||| bucket) &&& 65535 = bucket ∧
      ((bucketedMarkBuckets <<< 16) ||| bucket) >>> 16 = bucketedMarkBuckets := by
  decide

/-- The kernels of every bucket are given its number. -/
theorem mark_params_bucket (edgeBits : Nat) : PerBucket (markParams edgeBits) := by
  intro bucket inside
  exact (mark_params_config bucket inside).1

/-- The capacity of every bucket of every chunk. -/
def capacity (capacityOf : Nat → Nat → Nat) (edgeBits : Nat) : Nat :=
  capacityOf (chunkEdges edgeBits) bucketedMarkBuckets

/-- Scattering, marking and trimming use the same capacity. -/
theorem capacity_for_scatter (capacityOf : Nat → Nat → Nat) (lower : 24 ≤ edgeBits)
    (upper : edgeBits ≤ 32) (chunk : Nat) (inside : chunk < chunkCount edgeBits) :
    capacityFor capacityOf (scatterParams edgeBits chunk) = capacity capacityOf edgeBits := by
  rw [scatter_params_eq lower upper chunk inside]
  simp only [capacityFor, bucketConfigCount, config_count, capacity]

/-- Scattering, marking and trimming use the same capacity. -/
theorem capacity_for_mark (capacityOf : Nat → Nat → Nat) (bucket : Nat)
    (inside : bucket < bucketedMarkBuckets) :
    capacityFor capacityOf (markParams edgeBits bucket) = capacity capacityOf edgeBits := by
  have few := chunk_edges_le edgeBits
  have count : GpuLean.asU32 (chunkEdges edgeBits) = chunkEdges edgeBits := by
    simp only [bucketChunkEdges] at few
    exact Nat.mod_eq_of_lt (by omega)
  simp only [capacityFor, markParams, bucketConfigCount, count, (mark_params_config bucket inside).2,
    capacity]

end Chunks

/-! ## Both phases -/

/-- A graph of a size that is trimmed in buckets, with an endpoint of each edge. -/
structure Graph (endpoint : Nat → Nat) (edgeBits : Nat) : Prop where
  lower : 24 ≤ edgeBits
  upper : edgeBits ≤ 32
  inGraph : ∀ edge, endpoint edge < 2 ^ edgeBits

/-- Every bucket has room for the live edges of a chunk. It is a condition on the live edges and
    the capacity; the order of the threads does not enter. -/
def Fits (capacityOf : Nat → Nat → Nat) (endpoint : Nat → Nat) (edgeBits : Nat) (edges : Bitmap)
    (chunk : Nat) : Prop :=
  ∀ bucket < bucketedMarkBuckets,
    bucketSize endpoint (scatterParams edgeBits chunk) edges bucket ≤ capacity capacityOf edgeBits

/-- The edges of a chunk are all live in round zero. -/
def DenseAt (edgeBits round : Nat) (edges : Bitmap) (chunk : Nat) : Prop :=
  round = 0 → ∀ edge, chunk * chunkEdges edgeBits ≤ edge →
    edge < chunk * chunkEdges edgeBits + chunkEdges edgeBits → test edges edge = true

section Phases

variable {capacityOf : Nat → Nat → Nat} {endpoint : Nat → Nat} {edgeBits round chunk : Nat}
variable {edges nodes : Bitmap} {buffers : Buffers}

/-- An edge of a chunk. -/
theorem mem_chunk (graph : Graph endpoint edgeBits) (inside : chunk < chunkCount edgeBits) (edge : Nat) :
    edge ∈ liveIn (scatterParams edgeBits chunk) edges ↔
      (chunk * chunkEdges edgeBits ≤ edge ∧
        edge < chunk * chunkEdges edgeBits + chunkEdges edgeBits) ∧ test edges edge = true := by
  rw [mem_live_in, scatter_params_eq graph.lower graph.upper chunk inside]

/-- All edges of a dense chunk are live. -/
theorem dense_live (graph : Graph endpoint edgeBits) (inside : chunk < chunkCount edgeBits)
    (dense : DenseAt edgeBits round edges chunk) (first : round = 0) :
    List.range' (scatterParams edgeBits chunk).chunkBase (scatterParams edgeBits chunk).chunkCount =
      liveIn (scatterParams edgeBits chunk) edges := by
  rw [liveIn, eq_comm, List.filter_eq_self]
  intro edge member
  rw [List.mem_range'_1, scatter_params_eq graph.lower graph.upper chunk inside] at member
  exact dense first edge member.1 member.2

/-- Chunks with the same live edges have the same buckets. -/
theorem bucket_size_congr (graph : Graph endpoint edgeBits) (inside : chunk < chunkCount edgeBits)
    (same : ∀ edge, chunk * chunkEdges edgeBits ≤ edge → test buffers.edges edge = test edges edge)
    (bucket : Nat) :
    bucketSize endpoint (scatterParams edgeBits chunk) buffers.edges bucket =
      bucketSize endpoint (scatterParams edgeBits chunk) edges bucket := by
  rw [bucketSize, bucketSize, liveIn, liveIn]
  congr 2
  apply List.filter_congr
  intro edge member
  rw [List.mem_range'_1, scatter_params_eq graph.lower graph.upper chunk inside] at member
  exact same edge member.1

/-- The counters of the buckets are cleared before a chunk is scattered. -/
theorem counters_cleared (scratch : Memory Nat) :
    ∀ bucket < bucketedMarkBuckets,
      (Slean.clearWords bucketedMarkBuckets scratch).read bucket = 0 := by
  intro bucket inside
  simp only [Slean.clearWords, if_pos inside]

/-- An overflow counter that only grows is zero when it was and has not moved. -/
theorem still_quiet {old new : Nat} {before now : Prop} (grows : old ≤ new) (quiet : old = 0 ↔ before)
    (unmoved : new = old ↔ now) : new = 0 ↔ before ∧ now := by
  constructor
  · intro zero
    exact ⟨quiet.mp (by omega), unmoved.mp (by omega)⟩
  · rintro ⟨earlier, here⟩
    rw [unmoved.mpr here, quiet.mpr earlier]

/-- The scratch buffer after the nodes of a chunk have been scattered. -/
theorem mark_chunk_scattered (capacityOf : Nat → Nat → Nat)
    (graph : Graph endpoint edgeBits) (inside : chunk < chunkCount edgeBits)
    (dense : DenseAt edgeBits round buffers.edges chunk) (schedule : ChunkSchedule) :
    Scattered endpoint (scatterParams edgeBits chunk) buffers.edges endpoint
      (nodeSlots (capacity capacityOf edgeBits))
      (Slean.clearWords bucketedMarkBuckets buffers.scratch)
      (markChunk capacityOf endpoint edgeBits round schedule chunk buffers).scratch := by
  have shape := chunk_shape graph.lower graph.upper chunk inside
  have cleared := counters_cleared buffers.scratch
  rw [markChunk]
  simp only [capacity_for_scatter capacityOf graph.lower graph.upper chunk inside]
  by_cases first : round = 0
  · rw [if_pos first, bucketScatterDenseNodesStaged,
      scatter_staged_eq _ (node_keeps_counters _) rfl shape]
    apply scattered_nodes shape graph.inGraph _ _ cleared
    rw [← dense_live graph inside dense first]
    exact staged_order_perm shape graph.inGraph (by decide) schedule.staged
  · rw [if_neg first, bucketScatterAliveNodes, scatterAlive]
    apply scattered_nodes shape graph.inGraph _ _ cleared
    exact (schedule.alive.perm _).trans (alive_edges_perm shape buffers.edges)

/-- The scratch buffer after the pairs of a chunk have been scattered. -/
theorem trim_chunk_scattered (capacityOf : Nat → Nat → Nat)
    (graph : Graph endpoint edgeBits) (inside : chunk < chunkCount edgeBits)
    (dense : DenseAt edgeBits round buffers.edges chunk) (schedule : ChunkSchedule) :
    Scattered endpoint (scatterParams edgeBits chunk) buffers.edges
      (fun edge => Nat.pair (endpoint edge) edge) (pairSlots (capacity capacityOf edgeBits))
      (pairView diagnosticBucketHeaderWords (Slean.clearWords bucketedMarkBuckets buffers.scratch))
      (pairView diagnosticBucketHeaderWords
        (trimChunk capacityOf endpoint edgeBits round schedule chunk buffers).scratch) := by
  have shape := chunk_shape graph.lower graph.upper chunk inside
  have cleared := counters_cleared buffers.scratch
  rw [trimChunk]
  simp only [capacity_for_scatter capacityOf graph.lower graph.upper chunk inside]
  by_cases first : round = 0
  · rw [if_pos first, bucketScatterDensePairsStaged,
      scatter_staged_eq _ (pair_slots _).keeps_counters rfl shape]
    apply scattered_pairs shape graph.inGraph _ _ cleared
    rw [← dense_live graph inside dense first]
    exact staged_order_perm shape graph.inGraph (by decide) schedule.staged
  · rw [if_neg first, bucketScatterAlivePairs, scatterAlive]
    apply scattered_pairs shape graph.inGraph _ _ cleared
    exact (schedule.alive.perm _).trans (alive_edges_perm shape buffers.edges)

/-- The nodes after a chunk has been marked, with the capacity that all kernels share. -/
theorem mark_chunk_nodes (schedule : ChunkSchedule) :
    (markChunk capacityOf endpoint edgeBits round schedule chunk buffers).nodes =
      (List.range bucketedMarkBuckets).foldl (fun nodes bucket =>
        bucketMarkNodes (markParams edgeBits bucket) dispatchGroups (capacity capacityOf edgeBits)
          (schedule.bucket bucket)
          (markChunk capacityOf endpoint edgeBits round schedule chunk buffers).scratch nodes)
        buffers.nodes := by
  apply List.foldl_ext
  intro nodes bucket member
  rw [← capacity_for_mark capacityOf bucket (List.mem_range.mp member)]
  rfl

/-- The edges after a chunk has been trimmed, with the capacity that all kernels share. -/
theorem trim_chunk_edges (schedule : ChunkSchedule) :
    (trimChunk capacityOf endpoint edgeBits round schedule chunk buffers).edges =
      (List.range bucketedMarkBuckets).foldl (fun edges bucket =>
        bucketTrimPairs (markParams edgeBits bucket) dispatchGroups (capacity capacityOf edgeBits)
          (schedule.bucket bucket)
          (trimChunk capacityOf endpoint edgeBits round schedule chunk buffers).scratch
          buffers.nodes edges) buffers.edges := by
  apply List.foldl_ext
  intro edges bucket member
  rw [← capacity_for_mark capacityOf bucket (List.mem_range.mp member)]
  rfl

/-! ## The mark phase -/

/-- The buffers after the first chunks have been marked. What the nodes are after an overflow is
    left open: the round is repeated directly then. -/
structure Marked (capacityOf : Nat → Nat → Nat) (endpoint : Nat → Nat) (edgeBits : Nat)
    (edges : Bitmap) (chunks : Nat) (buffers : Buffers) : Prop where
  unchanged : buffers.edges = edges
  length : buffers.nodes.length = (GraphSize.new edgeBits).wordCount
  quiet : buffers.scratch.read diagnosticBucketOverflowWord = 0 ↔
    ∀ chunk < chunks, Fits capacityOf endpoint edgeBits edges chunk
  sizes : ∀ chunk, chunks = chunk + 1 → ∀ bucket < bucketedMarkBuckets,
    buffers.scratch.read bucket =
      bucketSize endpoint (scatterParams edgeBits chunk) edges bucket
  marks : buffers.scratch.read diagnosticBucketOverflowWord = 0 → ∀ node,
    test buffers.nodes node = true ↔ ∃ edge,
      (test edges edge = true ∧ edge < chunks * chunkEdges edgeBits) ∧ endpoint edge = node

/-- The words of a bitmap hold all nodes. -/
theorem Marked.covers {chunks : Nat}
    (marked : Marked capacityOf endpoint edgeBits edges chunks buffers) :
    2 ^ edgeBits ≤ buffers.nodes.length * 32 := by
  rw [marked.length]
  show 2 ^ edgeBits ≤ (2 ^ edgeBits + 31) / 32 * 32
  omega

/-- At first nothing is marked and nothing has overflowed. -/
theorem clear_buffers_marked (length : buffers.nodes.length = (GraphSize.new edgeBits).wordCount) :
    Marked capacityOf endpoint edgeBits buffers.edges 0 (clearBuffers buffers) := by
  constructor
  · rfl
  · rw [clearBuffers, List.length_replicate]
    exact length
  · constructor
    · intro _ chunk none_before
      cases none_before
    · intro _
      rfl
  · intro chunk impossible
    cases impossible
  · intro _ node
    rw [clearBuffers, test_replicate_zero]
    constructor
    · intro impossible
      cases impossible
    · rintro ⟨edge, ⟨_, small⟩, _⟩
      rw [Nat.zero_mul] at small
      cases small

/-- Marking one more chunk. -/
theorem mark_chunk_marked (graph : Graph endpoint edgeBits) (inside : chunk < chunkCount edgeBits)
    (dense : DenseAt edgeBits round edges chunk) (schedule : ChunkSchedule)
    (marked : Marked capacityOf endpoint edgeBits edges chunk buffers) :
    Marked capacityOf endpoint edgeBits edges (chunk + 1)
      (markChunk capacityOf endpoint edgeBits round schedule chunk buffers) := by
  obtain rfl := marked.unchanged
  have spec := mark_chunk_scattered capacityOf graph inside dense schedule
  have shape := chunk_shape graph.lower graph.upper chunk inside
  have quiet := (still_quiet spec.grows marked.quiet spec.unmoved).trans
    (Nat.forall_lt_succ_right (p := fun chunk =>
      Fits capacityOf endpoint edgeBits buffers.edges chunk)).symm
  constructor
  · rfl
  · rw [mark_chunk_nodes, mark_buckets_length]
    exact marked.length
  · exact quiet
  · intro other same bucket small
    rw [← Nat.succ.inj same]
    exact spec.size bucket small
  · intro zero node
    have old : buffers.scratch.read diagnosticBucketOverflowWord = 0 :=
      marked.quiet.mpr fun other earlier => quiet.mp zero other (Nat.lt_succ_of_lt earlier)
    have unmoved := spec.unmoved.mpr (quiet.mp zero chunk (Nat.lt_succ_self chunk))
    rw [mark_chunk_nodes, test_mark_buckets shape graph.inGraph (mark_params_bucket edgeBits) spec
      unmoved marked.covers, marked.marks old, Nat.succ_mul]
    simp only [mem_chunk graph inside]
    constructor
    · rintro (⟨edge, ⟨live, earlier⟩, same⟩ | ⟨edge, ⟨⟨_, before⟩, live⟩, same⟩)
      · exact ⟨edge, ⟨live, by omega⟩, same⟩
      · exact ⟨edge, ⟨live, before⟩, same⟩
    · rintro ⟨edge, ⟨live, before⟩, same⟩
      rcases Nat.lt_or_ge edge (chunk * chunkEdges edgeBits) with earlier | here
      · exact Or.inl ⟨edge, ⟨live, earlier⟩, same⟩
      · exact Or.inr ⟨edge, ⟨⟨here, before⟩, live⟩, same⟩

/-- Marking the first chunks. -/
theorem mark_chunks_marked (graph : Graph endpoint edgeBits)
    (length : buffers.nodes.length = (GraphSize.new edgeBits).wordCount)
    (schedules : Nat → ChunkSchedule)
    (dense : ∀ chunk < chunkCount edgeBits, DenseAt edgeBits round buffers.edges chunk)
    (chunks : Nat) (some_chunks : chunks ≤ chunkCount edgeBits) :
    Marked capacityOf endpoint edgeBits buffers.edges chunks
      (markChunks capacityOf endpoint edgeBits round schedules chunks buffers) := by
  induction chunks with
  | zero => exact clear_buffers_marked length
  | succ chunk ih =>
    rw [markChunks, List.range_succ, List.foldl_append, ← markChunks]
    exact mark_chunk_marked graph some_chunks (dense chunk some_chunks) (schedules chunk)
      (ih (Nat.le_of_lt some_chunks))

/-! ## The trim phase -/

/-- The buffers after the first chunks have been trimmed. After an overflow only that no edge
    was touched is kept, which is what the direct round needs. -/
structure Trimmed (capacityOf : Nat → Nat → Nat) (endpoint : Nat → Nat) (edgeBits : Nat)
    (edges nodes : Bitmap) (chunks : Nat) (buffers : Buffers) : Prop where
  unchanged : buffers.nodes = nodes
  length : buffers.edges.length = edges.length
  quiet : buffers.scratch.read diagnosticBucketOverflowWord = 0 ↔
    ∀ chunk < chunkCount edgeBits, Fits capacityOf endpoint edgeBits edges chunk
  sizes : ∀ chunk, chunks = chunk + 1 → ∀ bucket < bucketedMarkBuckets,
    buffers.scratch.read bucket =
      bucketSize endpoint (scatterParams edgeBits chunk) edges bucket
  untouched : buffers.scratch.read diagnosticBucketOverflowWord ≠ 0 → buffers.edges = edges
  trims : buffers.scratch.read diagnosticBucketOverflowWord = 0 → ∀ edge,
    test buffers.edges edge = true ↔ test edges edge = true ∧
      (edge < chunks * chunkEdges edgeBits → test nodes (endpoint edge ^^^ 1) = true)

/-- The edges of later chunks are as they were. -/
theorem Trimmed.later {chunks : Nat}
    (trimmed : Trimmed capacityOf endpoint edgeBits edges nodes chunks buffers) (edge : Nat)
    (later : chunks * chunkEdges edgeBits ≤ edge) : test buffers.edges edge = test edges edge := by
  by_cases quiet : buffers.scratch.read diagnosticBucketOverflowWord = 0
  · rw [Bool.eq_iff_iff, trimmed.trims quiet]
    constructor
    · exact fun both => both.1
    · intro live
      exact ⟨live, fun earlier => by omega⟩
  · rw [trimmed.untouched quiet]

/-- Trimming one more chunk: its buckets are those of the mark phase, since only edges of
    earlier chunks are gone. -/
theorem trim_chunk_trimmed (graph : Graph endpoint edgeBits) (inside : chunk < chunkCount edgeBits)
    (dense : DenseAt edgeBits round edges chunk) (schedule : ChunkSchedule)
    (trimmed : Trimmed capacityOf endpoint edgeBits edges nodes chunk buffers) :
    Trimmed capacityOf endpoint edgeBits edges nodes (chunk + 1)
      (trimChunk capacityOf endpoint edgeBits round schedule chunk buffers) := by
  obtain rfl := trimmed.unchanged
  have dense_now : DenseAt edgeBits round buffers.edges chunk := by
    intro first edge here before
    rw [trimmed.later edge here]
    exact dense first edge here before
  have spec := trim_chunk_scattered capacityOf graph inside dense_now schedule
  have shape := chunk_shape graph.lower graph.upper chunk inside
  have same_sizes := bucket_size_congr graph inside trimmed.later
  have unmoved : (trimChunk capacityOf endpoint edgeBits round schedule chunk buffers).scratch.read
        diagnosticBucketOverflowWord = buffers.scratch.read diagnosticBucketOverflowWord ↔
      Fits capacityOf endpoint edgeBits edges chunk := by
    refine spec.unmoved.trans (forall₂_congr fun bucket _ => ?_)
    rw [same_sizes]
    rfl
  have quiet := (still_quiet spec.grows trimmed.quiet unmoved).trans
    (and_iff_left_of_imp fun all => all chunk inside)
  constructor
  · rfl
  · rw [trim_chunk_edges, trim_buckets_length _ (fun _ => List.mem_range.mp)
      (mark_params_bucket edgeBits)]
    exact trimmed.length
  · exact quiet
  · intro other same bucket small
    rw [← Nat.succ.inj same, ← same_sizes, ← spec.size bucket small,
      pair_view_read _ _ (Nat.lt_trans small (by decide))]
  · intro overflow
    rw [trim_chunk_edges, trim_buckets_overflow overflow]
    exact trimmed.untouched fun zero => overflow (quiet.mpr (trimmed.quiet.mp zero))
  · intro zero edge
    have all := quiet.mp zero
    rw [trim_chunk_edges, test_trim_buckets shape graph.inGraph (mark_params_bucket edgeBits) spec
      (unmoved.mpr (all chunk inside)) zero, trimmed.trims (trimmed.quiet.mpr all), Nat.succ_mul,
      scatter_params_eq graph.lower graph.upper chunk inside]
    constructor
    · rintro ⟨⟨live, earlier⟩, here⟩
      refine ⟨live, fun before => ?_⟩
      rcases Nat.lt_or_ge edge (chunk * chunkEdges edgeBits) with small | large
      · exact earlier small
      · exact here ⟨large, before⟩
    · rintro ⟨live, marked⟩
      exact ⟨⟨live, fun small => marked (by omega)⟩, fun both => marked both.2⟩

/-- Trimming the first chunks, starting from nodes of the mark phase. -/
theorem trim_chunks_trimmed (graph : Graph endpoint edgeBits)
    (marked : Marked capacityOf endpoint edgeBits edges (chunkCount edgeBits) buffers)
    (schedules : Nat → ChunkSchedule)
    (dense : ∀ chunk < chunkCount edgeBits, DenseAt edgeBits round edges chunk)
    (chunks : Nat) (some_chunks : chunks ≤ chunkCount edgeBits) :
    Trimmed capacityOf endpoint edgeBits edges buffers.nodes chunks
      (trimChunks capacityOf endpoint edgeBits round schedules chunks buffers) := by
  induction chunks with
  | zero =>
    obtain rfl := marked.unchanged
    refine ⟨rfl, rfl, marked.quiet, fun _ impossible => (by cases impossible), fun _ => rfl, ?_⟩
    intro _ edge
    constructor
    · intro live
      refine ⟨live, fun small => ?_⟩
      rw [Nat.zero_mul] at small
      cases small
    · exact fun both => both.1
  | succ chunk ih =>
    rw [trimChunks, List.range_succ, List.foldl_append, ← trimChunks]
    exact trim_chunk_trimmed graph some_chunks (dense chunk some_chunks) (schedules chunk)
      (ih (Nat.le_of_lt some_chunks))

end Phases

/-! ## The scratch buffer -/

/-- The words of a scratch buffer for pairs. -/
def scratchWords (capacity : Nat) : Nat :=
  diagnosticBucketHeaderWords + 2 * (bucketedMarkBuckets * capacity)

/-- The words of a slot lie in the scratch buffer. -/
theorem slot_inside (words : Nat) (positive : 0 < words) (few : words ≤ 2)
    (capacity bucket slot word : Nat) (inside : bucket < bucketedMarkBuckets) (room : slot < capacity)
    (small : word < words) :
    (slots words positive capacity).entry bucket slot + word < scratchWords capacity := by
  have before : bucket * capacity + slot < bucketedMarkBuckets * capacity := by
    calc bucket * capacity + slot < bucket * capacity + capacity := Nat.add_lt_add_left room _
      _ = (bucket + 1) * capacity := by ring
      _ ≤ bucketedMarkBuckets * capacity := Nat.mul_le_mul_right _ inside
  show diagnosticBucketHeaderWords + words * (bucket * capacity + slot) + word <
    diagnosticBucketHeaderWords + 2 * (bucketedMarkBuckets * capacity)
  calc diagnosticBucketHeaderWords + words * (bucket * capacity + slot) + word
      < diagnosticBucketHeaderWords + words * (bucket * capacity + slot) + words :=
        Nat.add_lt_add_left small _
    _ = diagnosticBucketHeaderWords + words * (bucket * capacity + slot + 1) := by ring
    _ ≤ diagnosticBucketHeaderWords + 2 * (bucketedMarkBuckets * capacity) :=
        Nat.add_le_add_left (Nat.mul_le_mul few before) _

/-- Counters lie in the scratch buffer. -/
theorem counter_inside (capacity bucket : Nat) (inside : bucket < bucketedMarkBuckets) :
    bucket < scratchWords capacity ∧ diagnosticBucketOverflowWord < scratchWords capacity := by
  simp only [scratchWords, diagnosticBucketHeaderWords, diagnosticBucketOverflowWord,
    bucketedMarkBuckets] at inside ⊢
  omega

/-- Whatever its counter returns, an item is stored inside the scratch buffer. -/
theorem scatter_words_inside (words : Nat) (positive : 0 < words) (few : words ≤ 2)
    (capacity bucket slot index : Nat) (inside : bucket < bucketedMarkBuckets)
    (used : index ∈ scatterWords words (slots words positive capacity) bucket slot) :
    index < scratchWords capacity := by
  obtain ⟨counter, overflow⟩ := counter_inside capacity bucket inside
  rcases List.mem_cons.mp used with rfl | used
  · exact counter
  · split at used
    · rename_i room
      obtain ⟨word, small, rfl⟩ := List.mem_map.mp used
      exact slot_inside words positive few capacity bucket slot word inside room
        (List.mem_range.mp small)
    · rw [List.mem_singleton.mp used]
      exact overflow

/-- Whatever the scratch buffer holds, a bucket is read inside it. -/
theorem read_words_inside (words : Nat) (positive : 0 < words) (few : words ≤ 2)
    (capacity bucket index : Nat) (inside : bucket < bucketedMarkBuckets) (scratch : Memory Nat)
    (used : index ∈ readWords words (slots words positive capacity) bucket scratch) :
    index < scratchWords capacity := by
  obtain ⟨counter, overflow⟩ := counter_inside capacity bucket inside
  rcases List.mem_cons.mp used with rfl | used
  · exact overflow
  rcases List.mem_cons.mp used with rfl | used
  · exact counter
  obtain ⟨slot, visited, used⟩ := List.mem_flatMap.mp used
  obtain ⟨word, small, rfl⟩ := List.mem_map.mp used
  have room : slot < capacity := (Nat.lt_min.mp (StridedSweep.visits_inside slot visited)).2
  exact slot_inside words positive few capacity bucket slot word inside room (List.mem_range.mp small)

/-- The scratch buffer is given these words for the capacity of the program, and thirty-two
    bits number them. -/
theorem bucket_scratch_size_eq {edgeBits : Nat} (lower : 24 ≤ edgeBits) (upper : edgeBits ≤ 32)
    (adapterName : String) (limits : Limits) (modes : ScratchModes) (bytes count : Nat)
    (bucketed : modes.bucketedMark = true) (not_slean : modes.slean = false)
    (not_diagnosed : modes.bucketRound0 = false)
    (granted : bucketScratchSize adapterName limits edgeBits modes = .ok (bytes, count)) :
    bytes = scratchWords (capacity bucketConfigCapacity edgeBits) * 4 ∧
      scratchWords (capacity bucketConfigCapacity edgeBits) ≤ 2 ^ 32 ∧ count = chunkEdges edgeBits := by
  have sizes : chunkEdges edgeBits ⌈/⌉ bucketedMarkBuckets + diagnosticBucketMargin =
      capacity bucketConfigCapacity edgeBits := by
    interval_cases edgeBits <;> decide
  have fits : scratchWords (capacity bucketConfigCapacity edgeBits) ≤ 2 ^ 32 := by
    interval_cases edgeBits <;> decide
  simp only [bucketScratchSize, bucketed, not_slean, not_diagnosed, Bool.false_eq_true, if_false,
    or_true, if_true] at granted
  split at granted
  · cases granted
  · simp only [Except.ok.injEq, Prod.mk.injEq] at granted
    refine ⟨?_, fits, granted.2.symm⟩
    rw [← granted.1, scratchWords, ← sizes]
    rfl

/-! ## The whole round -/

/-- The dispatches over the words of a bitmap fit thirty-two bits. -/
theorem words_launch {edgeBits : Nat} (lower : 1 ≤ edgeBits) (upper : edgeBits ≤ 32) :
    GpuLean.Launch edgeBits (groupsForWords edgeBits) := by
  interval_cases edgeBits <;> exact ⟨by decide, by decide, by decide, by decide⟩

section Round

variable (capacityOf : Nat → Nat → Nat) (endpoint : Nat → Nat) (edgeBits round : Nat)
variable (schedule : RoundSchedule) (buffers : Buffers)

/-- The buffers after a round's mark phase and the first chunks of its trim phase. -/
def afterTrims (chunks : Nat) : Buffers :=
  trimChunks capacityOf endpoint edgeBits round schedule.trim chunks
    (markBucketRound capacityOf endpoint edgeBits round schedule.mark buffers)

/-- A bucketed round does what a direct round does: the same buckets overflow in both
    phases, an overflow is noticed before the first edge is removed, the resulting edges are
    those of the direct round, and no scratch word outside the buffer is used. -/
structure RoundExact (direct : GpuLean.RoundSchedule) : Prop where
  sameBuckets : ∀ chunk < chunkCount edgeBits, ∀ bucket < bucketedMarkBuckets,
    Overflowed capacityOf edgeBits
        (afterTrims capacityOf endpoint edgeBits round schedule buffers (chunk + 1)) bucket ↔
      Overflowed capacityOf edgeBits
        (markChunks capacityOf endpoint edgeBits round schedule.mark (chunk + 1) buffers) bucket
  noticed : ∀ chunks ≤ chunkCount edgeBits,
    ((afterTrims capacityOf endpoint edgeBits round schedule buffers chunks).scratch.read
        diagnosticBucketOverflowWord ≠ 0 ↔
      ∃ chunk < chunkCount edgeBits, ∃ bucket < bucketedMarkBuckets, Overflowed capacityOf edgeBits
        (markChunks capacityOf endpoint edgeBits round schedule.mark (chunk + 1) buffers) bucket)
  untouched : ∀ chunks ≤ chunkCount edgeBits,
    (afterTrims capacityOf endpoint edgeBits round schedule buffers chunks).scratch.read
      diagnosticBucketOverflowWord ≠ 0 →
    (afterTrims capacityOf endpoint edgeBits round schedule buffers chunks).edges = buffers.edges
  sameEdges : (runBucketRound capacityOf endpoint edgeBits (groupsForWords edgeBits) round schedule
      buffers).2.edges =
    (leanTrimRound endpoint ( GpuLean.Params.new edgeBits) (groupsForWords edgeBits) direct
      ⟨buffers.edges, buffers.nodes⟩).edges
  scattersInside : ∀ chunk < chunkCount edgeBits, ∀ edge slot index,
    let p := scatterParams edgeBits chunk
    index ∈ scatterWords 1 (nodeSlots (capacityFor capacityOf p)) (bucketOf p (endpoint edge)) slot ∨
      index ∈ scatterWords 2 (pairSlots (capacityFor capacityOf p)) (bucketOf p (endpoint edge)) slot →
    index < scratchWords (capacityFor capacityOf p)
  readsInside : ∀ bucket < bucketedMarkBuckets, ∀ scratch index,
    let p := markParams edgeBits bucket
    index ∈ readWords 1 (nodeSlots (capacityFor capacityOf p)) bucket scratch ∨
      index ∈ readWords 2 (pairSlots (capacityFor capacityOf p)) bucket scratch →
    index < scratchWords (capacityFor capacityOf p)
  size : ∀ adapterName limits modes bytes count, modes.bucketedMark = true → modes.slean = false →
    modes.bucketRound0 = false →
    bucketScratchSize adapterName limits edgeBits modes = .ok (bytes, count) →
    bytes = scratchWords (capacity bucketConfigCapacity edgeBits) * 4 ∧
      scratchWords (capacity bucketConfigCapacity edgeBits) ≤ 2 ^ 32 ∧ count = chunkEdges edgeBits

variable {capacityOf endpoint edgeBits round schedule buffers}

/-- With room in all buckets, the edges that are left are those of the abstract direct
    round. -/
theorem trims_eq_lean_round {edges nodes : Bitmap} (graph : Graph endpoint edgeBits)
    (edges_length : edges.length = (GraphSize.new edgeBits).wordCount)
    (marks : ∀ node, test nodes node = true ↔ ∃ edge,
      (test edges edge = true ∧ edge < chunkCount edgeBits * chunkEdges edgeBits) ∧
        endpoint edge = node)
    (length : buffers.edges.length = edges.length)
    (trims : ∀ edge, test buffers.edges edge = true ↔ test edges edge = true ∧
      (edge < chunkCount edgeBits * chunkEdges edgeBits →
        test nodes (endpoint edge ^^^ 1) = true)) :
    buffers.edges =
      LeanRound.leanRound endpoint edgeBits (GraphSize.new edgeBits).wordCount edges := by
  have positive := graph.lower
  have small : ∀ edge, test edges edge = true → edge < 2 ^ edgeBits := by
    intro edge live
    have word := inside_of_test edges edge live
    have whole : 2 ^ edgeBits = 2 ^ (edgeBits - 5) * 32 := by
      rw [show 32 = 2 ^ 5 by rfl, ← Nat.pow_add, Nat.sub_add_cancel (by omega)]
    rw [edges_length] at word
    simp only [GraphSize.new] at word
    omega
  have covers : 2 ^ edgeBits ≤ (GraphSize.new edgeBits).wordCount * 32 := by
    show 2 ^ edgeBits ≤ (2 ^ edgeBits + 31) / 32 * 32
    omega
  obtain ⟨total, _, _⟩ := chunks_cover graph.lower graph.upper
  apply ext_test _ _ (by decide) (by rw [length, LeanRound.lean_round_length])
  intro edge
  rw [Bool.eq_iff_iff, trims, LeanRound.test_lean_round (by omega) graph.inGraph covers, marks, total]
  constructor
  · rintro ⟨live, marked⟩
    obtain ⟨other, ⟨other_live, _⟩, mate⟩ := marked (small edge live)
    exact ⟨live, other, other_live, mate⟩
  · rintro ⟨live, other, other_live, mate⟩
    exact ⟨live, fun _ => ⟨other, ⟨other_live, small other other_live⟩, mate⟩⟩

/-- A round that starts with all edges starts with all edges of each chunk. -/
theorem dense_chunks (graph : Graph endpoint edgeBits)
    (full : round = 0 → ∀ edge < 2 ^ edgeBits, test buffers.edges edge = true) :
    ∀ chunk < chunkCount edgeBits, DenseAt edgeBits round buffers.edges chunk := by
  intro chunk inside first edge _ before
  exact full first edge (Nat.lt_of_lt_of_le before (chunk_inside graph.lower graph.upper chunk inside))

/-- A bucketed round ends with the edges of the abstract direct round: of its own trimming
    if nothing has overflowed, and of the direct round that follows otherwise. -/
theorem run_bucket_round_eq (graph : Graph endpoint edgeBits)
    (edges_length : buffers.edges.length = (GraphSize.new edgeBits).wordCount)
    (nodes_length : buffers.nodes.length = (GraphSize.new edgeBits).wordCount)
    (full : round = 0 → ∀ edge < 2 ^ edgeBits, test buffers.edges edge = true) :
    (runBucketRound capacityOf endpoint edgeBits (groupsForWords edgeBits) round schedule
        buffers).2.edges =
      LeanRound.leanRound endpoint edgeBits (GraphSize.new edgeBits).wordCount buffers.edges := by
  have dense := dense_chunks graph full
  have whole : Marked capacityOf endpoint edgeBits buffers.edges (chunkCount edgeBits) _ :=
    mark_chunks_marked graph nodes_length schedule.mark dense _ (Nat.le_refl _)
  have last := trim_chunks_trimmed graph whole schedule.trim dense _ (Nat.le_refl _)
  have launch := words_launch (Nat.le_trans (by decide) graph.lower) graph.upper
  have stored := launch.word_count
  rw [runBucketRound, markBucketRound, trimBucketRound]
  split
  · rename_i overflow
    rw [directFallback]
    simp only
    rw [last.untouched overflow, (lean_trim_round_eq launch graph.inGraph schedule.fallback
      ⟨buffers.edges, _⟩ (edges_length.trans stored.symm)
      (by rw [last.unchanged, whole.length, stored]; rfl)).1, stored]
    rfl
  · rename_i quiet
    have zero := not_not.mp quiet
    have none_overflowed := whole.quiet.mpr (last.quiet.mp zero)
    exact trims_eq_lean_round graph edges_length (whole.marks none_overflowed) last.length
      (last.trims zero)

/-- Whatever the capacity of the buckets and the order of the threads, a bucketed round is a
    direct round, and nothing is removed before an overflow is noticed. The capacity, the orders
    and what the scratch buffer holds before are arbitrary; the first round starts from all
    edges. -/
theorem bucketed_round_exact (graph : Graph endpoint edgeBits)
    (edges_length : buffers.edges.length = (GraphSize.new edgeBits).wordCount)
    (nodes_length : buffers.nodes.length = (GraphSize.new edgeBits).wordCount)
    (full : round = 0 → ∀ edge < 2 ^ edgeBits, test buffers.edges edge = true)
    (direct : GpuLean.RoundSchedule) :
    RoundExact capacityOf endpoint edgeBits round schedule buffers direct := by
  have dense := dense_chunks graph full
  have marked : ∀ chunks ≤ chunkCount edgeBits,
      Marked capacityOf endpoint edgeBits buffers.edges chunks
        (markChunks capacityOf endpoint edgeBits round schedule.mark chunks buffers) :=
    mark_chunks_marked graph nodes_length schedule.mark dense
  have whole := marked (chunkCount edgeBits) (Nat.le_refl _)
  have trimmed := trim_chunks_trimmed graph whole schedule.trim dense
  have overflowed : ∀ chunk < chunkCount edgeBits, ∀ bucket < bucketedMarkBuckets,
      (Overflowed capacityOf edgeBits
        (markChunks capacityOf endpoint edgeBits round schedule.mark (chunk + 1) buffers) bucket ↔
      capacity capacityOf edgeBits <
        bucketSize endpoint (scatterParams edgeBits chunk) buffers.edges bucket) := by
    intro chunk inside bucket small
    rw [Overflowed, capacity_for_mark capacityOf bucket small,
      (marked (chunk + 1) inside).sizes chunk rfl bucket small]
  constructor
  · intro chunk inside bucket small
    rw [overflowed chunk inside bucket small, Overflowed, capacity_for_mark capacityOf bucket small]
    rw [← (trimmed (chunk + 1) inside).sizes chunk rfl bucket small]
    rfl
  · intro chunks some_chunks
    refine (not_congr (trimmed chunks some_chunks).quiet).trans ?_
    simp only [Fits, not_forall, not_le, exists_prop]
    refine exists_congr fun chunk => and_congr_right fun inside => exists_congr fun bucket =>
      and_congr_right fun small => ?_
    exact (overflowed chunk inside bucket small).symm
  · intro chunks some_chunks
    exact (trimmed chunks some_chunks).untouched
  · have launch := words_launch (Nat.le_trans (by decide) graph.lower) graph.upper
    have stored := launch.word_count
    rw [run_bucket_round_eq graph edges_length nodes_length full, (lean_trim_round_eq launch
      graph.inGraph direct ⟨buffers.edges, buffers.nodes⟩ (edges_length.trans stored.symm)
      (nodes_length.trans stored.symm)).1, stored]
    rfl
  · intro chunk inside edge slot index p used
    have bucket := bucket_of_lt (chunk_shape graph.lower graph.upper chunk inside) _
      (graph.inGraph edge)
    rcases used with used | used
    · exact scatter_words_inside 1 _ (by decide) _ _ slot index bucket used
    · exact scatter_words_inside 2 _ (by decide) _ _ slot index bucket used
  · intro bucket inside scratch index p used
    rcases used with used | used
    · exact read_words_inside 1 _ (by decide) _ bucket index inside scratch used
    · exact read_words_inside 2 _ (by decide) _ bucket index inside scratch used
  · exact bucket_scratch_size_eq graph.lower graph.upper

end Round

/-- The dispatches of a chunk with all threads in order. -/
def chunkInOrder : ChunkSchedule :=
  ⟨⟨fun _ => inOrder, inOrder⟩, inOrder, fun _ => inOrder⟩

/-- The first round of the smallest such graph, every edge at the node of its number. -/
theorem bucketed_round_exact_first :
    RoundExact bucketConfigCapacity (fun edge => edge % 2 ^ 24) 24 0
      ⟨fun _ => chunkInOrder, fun _ => chunkInOrder,
        ⟨inOrder, inOrder, inOrder⟩⟩
      ⟨List.replicate (GraphSize.new 24).wordCount (BitVec.allOnes 32),
        List.replicate (GraphSize.new 24).wordCount 0#32, ⟨fun _ => 0⟩⟩
      ⟨inOrder, inOrder, inOrder⟩ := by
  apply bucketed_round_exact
  · exact ⟨by decide, by decide, fun edge => Nat.mod_lt _ (by decide)⟩
  · exact List.length_replicate
  · exact List.length_replicate
  · intro _ edge small
    have word : edge / 32 < (GraphSize.new 24).wordCount := by
      simp only [GraphSize.new]
      omega
    have place : edge % 32 < 32 := Nat.mod_lt _ (by decide)
    rw [test_eq_getLsbD _ _ (by decide),
      List.getD_eq_getElem _ _ (by rw [List.length_replicate]; exact word), List.getElem_replicate,
      BitVec.getLsbD_allOnes, decide_eq_true place]

end CuckatooMiner.Bucketed
