import Mathlib
import CuckatooMiner.Bucketed
import CuckatooMiner.SleanShape
import CuckatooMiner.Foundation.Segments

/-!
# The kernels of a bucketed round

Staged or not, a scatter takes each live edge of a chunk once, and reserving the slots of
a batch at once is reserving them one by one. So the counters end at the numbers of live
edges of the buckets, the overflow counter moves exactly when some of these numbers is
beyond the capacity, and as long as it has not moved each bucket holds its nodes or its
pairs. Marking and trimming the buckets then mark the nodes of the chunk's live edges and
clear those edges that miss the mark of their complementary node.
-/

namespace CuckatooMiner.Bucketed

open PackedBits StridedSweep Reservation Segments
open LeanRound (Bitmap)

/-- The parameters of a chunk of whole words, in sixty-four buckets. -/
structure ChunkShape (p : Params) : Prop where
  large : 6 ≤ p.edgeBits
  buckets : bucketConfigCount p = bucketedMarkBuckets
  aligned : p.chunkBase % 32 = 0
  small : p.chunkCount ≤ bucketChunkEdges

/-- The live edges of a chunk in ascending order. -/
def liveIn (p : Params) (edges : Bitmap) : List Nat :=
  (List.range' p.chunkBase p.chunkCount).filter (test edges)

/-- The number of live edges of a chunk in one bucket. -/
def bucketSize (endpoint : Nat → Nat) (p : Params) (edges : Bitmap) (bucket : Nat) : Nat :=
  ((liveIn p edges).filter fun edge => decide (bucketOf p (endpoint edge) = bucket)).length

variable {endpoint : Nat → Nat} {p : Params} {groups capacity : Nat} {edges : Bitmap}

/-- A live edge of a chunk is a live edge within its range. -/
theorem mem_live_in (edge : Nat) :
    edge ∈ liveIn p edges ↔
      (p.chunkBase ≤ edge ∧ edge < p.chunkBase + p.chunkCount) ∧ test edges edge = true := by
  rw [liveIn, List.mem_filter, List.mem_range'_1]

/-- The live edges of a chunk are different. -/
theorem live_in_nodup : (liveIn p edges).Nodup := (List.nodup_range' ..).filter _

/-- The bucket of a node is given by its leading six bits. -/
theorem bucket_of_eq (shape : ChunkShape p) (node : Nat) :
    bucketOf p node = node / 2 ^ (p.edgeBits - 6) := by
  have six : Slean.countOneBits (bucketedMarkBuckets - 1) = 6 :=
    Slean.count_one_bits_mask 6 (by decide)
  rw [bucketOf]
  simp only [shape.buckets, six]
  rw [Nat.shiftRight_eq_div_pow]

/-- A node of the graph has one of the buckets. -/
theorem bucket_of_lt (shape : ChunkShape p) (node : Nat) (inGraph : node < 2 ^ p.edgeBits) :
    bucketOf p node < bucketedMarkBuckets := by
  have large := shape.large
  have whole : 2 ^ p.edgeBits = bucketedMarkBuckets * 2 ^ (p.edgeBits - 6) := by
    rw [show bucketedMarkBuckets = 2 ^ 6 from rfl, ← Nat.pow_add, Nat.add_sub_cancel' large]
  rw [bucket_of_eq shape]
  exact Nat.div_lt_of_lt_mul (by rwa [Nat.mul_comm, ← whole])

/-! ## Orders of a chunk's edges -/

/-- The words of a chunk are visited once each. -/
theorem chunk_words_visits (shape : ChunkShape p) :
    (visits 4294967296 (dispatchGroups * 256) ((p.chunkCount + 31) >>> 5)).Perm
      (List.range ((p.chunkCount + 31) >>> 5)) := by
  have small := shape.small
  apply visits_perm (by decide)
  rw [Nat.shiftRight_eq_div_pow]
  simp only [bucketChunkEdges, dispatchGroups] at small ⊢
  omega

/-- The live edges of a word, restricted to a chunk. -/
theorem mem_word_edges (word edge : Nat) :
    edge ∈ (((drain 32 (edges.getD word 0#32)).map (word * 32 + ·)).filter fun edge =>
        decide (edge ≥ p.chunkBase ∧ edge - p.chunkBase < p.chunkCount)) ↔
      edge / 32 = word ∧ (p.chunkBase ≤ edge ∧ edge < p.chunkBase + p.chunkCount) ∧
        test edges edge = true := by
  simp only [List.mem_filter, List.mem_map, drain_width, ones, List.mem_range, decide_eq_true_eq]
  rw [test_eq_getLsbD _ _ (by decide)]
  constructor
  · rintro ⟨⟨place, ⟨small, live⟩, rfl⟩, after, before⟩
    have quotient : (word * 32 + place) / 32 = word := by omega
    have rest : (word * 32 + place) % 32 = place := by omega
    rw [quotient, rest]
    exact ⟨rfl, ⟨after, by omega⟩, live⟩
  · rintro ⟨rfl, ⟨after, before⟩, live⟩
    exact ⟨⟨edge % 32, ⟨Nat.mod_lt _ (by decide), live⟩, by omega⟩, after, by omega⟩

/-- A scatter of live edges takes each live edge of the chunk once. -/
theorem alive_edges_perm (shape : ChunkShape p) (edges : Bitmap) :
    (aliveEdges p dispatchGroups edges).Perm (liveIn p edges) := by
  have aligned := shape.aligned
  have words := chunk_words_visits shape
  apply (List.perm_ext_iff_of_nodup _ live_in_nodup).mpr
  · intro edge
    rw [aliveEdges, mem_live_in]
    simp only [List.mem_flatMap, mem_word_edges, words.mem_iff, List.mem_range]
    simp only [Nat.shiftRight_eq_div_pow]
    constructor
    · rintro ⟨_, _, _, inside, live⟩
      exact ⟨inside, live⟩
    · rintro ⟨inside, live⟩
      refine ⟨edge / 32 - p.chunkBase / 2 ^ 5, ?_, ?_, inside, live⟩
      · omega
      · omega
  · rw [aliveEdges]
    apply nodup_parts _ _ (fun edge => edge / 32 - p.chunkBase >>> 5)
    · exact words.nodup_iff.mpr List.nodup_range
    · intro localWord _
      simp only [drain_width]
      refine List.Nodup.filter _ (List.Nodup.map ?_ ((List.nodup_range).filter _))
      intro left right same
      exact Nat.add_left_cancel same
    · intro localWord _ edge member
      have word := ((mem_word_edges _ _).mp member).1
      omega

/-- The edges of a batch are two hundred and fifty-six successive ones, as far as the
    chunk has them. -/
theorem mem_batch_edges (batch edge : Nat) :
    edge ∈ batchEdges p groups batch ↔
      (p.chunkBase ≤ edge ∧ edge < p.chunkBase + p.chunkCount) ∧
        (edge - p.chunkBase) / 256 = batch := by
  have number : ∀ lane, batch % groups * 256 + lane + batch / groups * (groups * 256) =
      batch * 256 + lane := by
    intro lane
    calc batch % groups * 256 + lane + batch / groups * (groups * 256)
        = (groups * (batch / groups) + batch % groups) * 256 + lane := by ring
      _ = batch * 256 + lane := by rw [Nat.div_add_mod]
  simp only [batchEdges, number, List.mem_map, List.mem_filter, List.mem_range, decide_eq_true_eq]
  constructor
  · rintro ⟨_, ⟨⟨lane, small, rfl⟩, inside⟩, rfl⟩
    omega
  · rintro ⟨⟨after, before⟩, same⟩
    exact ⟨edge - p.chunkBase, ⟨⟨(edge - p.chunkBase) % 256, by omega, by omega⟩, by omega⟩,
      by omega⟩

/-- The edges of a batch are different. -/
theorem batch_edges_nodup (batch : Nat) : (batchEdges p groups batch).Nodup := by
  rw [batchEdges]
  refine List.Nodup.map ?_ (List.Nodup.filter _ (List.Nodup.map ?_ List.nodup_range))
  · intro left right same
    exact Nat.add_left_cancel same
  · intro left right same
    simp only at same
    omega

/-- The batches are enough for a chunk. -/
theorem batches_cover (some_groups : 0 < groups) : p.chunkCount ≤ batches p groups * 256 := by
  have division := Nat.div_add_mod (p.chunkCount + groups * 256 - 1) (groups * 256)
  have rest := Nat.mod_lt (p.chunkCount + groups * 256 - 1) (show 0 < groups * 256 by omega)
  have total : batches p groups * 256 =
      groups * 256 * ((p.chunkCount + groups * 256 - 1) / (groups * 256)) := by
    rw [batches]
    ring
  rw [total]
  omega

/-- The order in which a staged scatter reserves slots for edges. -/
def stagedOrder (endpoint : Nat → Nat) (p : Params) (groups : Nat) (schedule : StagedSchedule) :
    List Nat :=
  (schedule.across.order (List.range (batches p groups * bucketedMarkBuckets))).flatMap fun lane =>
    batchBucket endpoint p groups schedule (lane / bucketedMarkBuckets) (lane % bucketedMarkBuckets)

/-- An edge in a bucket of a batch. -/
theorem mem_batch_bucket (schedule : StagedSchedule) (batch bucket edge : Nat) :
    edge ∈ batchBucket endpoint p groups schedule batch bucket ↔
      edge ∈ batchEdges p groups batch ∧ bucketOf p (endpoint edge) = bucket := by
  rw [batchBucket, List.mem_filter, ((schedule.within batch).perm _).mem_iff, decide_eq_true_eq]

/-- A staged scatter takes each edge of the chunk once. -/
theorem staged_order_perm (shape : ChunkShape p) (inGraph : ∀ edge, endpoint edge < 2 ^ p.edgeBits)
    (some_groups : 0 < groups) (schedule : StagedSchedule) :
    (stagedOrder endpoint p groups schedule).Perm (List.range' p.chunkBase p.chunkCount) := by
  have enough := batches_cover (p := p) some_groups
  have lanes := schedule.across.perm (List.range (batches p groups * bucketedMarkBuckets))
  apply (List.perm_ext_iff_of_nodup _ (List.nodup_range' ..)).mpr
  · intro edge
    have bucket := bucket_of_lt shape _ (inGraph edge)
    simp only [stagedOrder, List.mem_flatMap, lanes.mem_iff, List.mem_range, mem_batch_bucket,
      mem_batch_edges, List.mem_range'_1]
    constructor
    · rintro ⟨_, _, ⟨inside, _⟩, _⟩
      exact inside
    · intro inside
      simp only [bucketedMarkBuckets] at bucket ⊢
      exact ⟨(edge - p.chunkBase) / 256 * 64 + bucketOf p (endpoint edge), by omega,
        ⟨inside, by omega⟩, by omega⟩
  · rw [stagedOrder]
    apply nodup_parts _ _ (fun edge =>
      (edge - p.chunkBase) / 256 * bucketedMarkBuckets + bucketOf p (endpoint edge))
    · exact lanes.nodup_iff.mpr List.nodup_range
    · intro lane _
      exact List.Nodup.filter _
        (((schedule.within _).perm _).nodup_iff.mpr (batch_edges_nodup _))
    · intro lane _ edge member
      obtain ⟨in_batch, bucket⟩ := (mem_batch_bucket _ _ _ _).mp member
      have batch := ((mem_batch_edges _ _).mp in_batch).2
      rw [batch, bucket, Nat.mul_comm, Nat.div_add_mod]

/-! ## What a scatter leaves -/

/-- Storing a node does not touch the counters. -/
theorem node_keeps_counters (capacity : Nat) :
    KeepsCounters Memory.write (nodeSlots capacity) := by
  intro memory bucket slot value item inside room
  exact Memory.write_comm ((nodeSlots capacity).count_ne_entry bucket inside bucket inside slot room)
    value item memory

/-- Pairs lie behind the header, two words each. -/
theorem pair_slots (capacity : Nat) : PairSlots (pairSlots capacity) diagnosticBucketHeaderWords where
  count := by
    intro b inside
    exact Nat.lt_trans inside (show bucketedMarkBuckets < diagnosticBucketHeaderWords by decide)
  overflow := by
    intro b _
    show diagnosticBucketOverflowWord < diagnosticBucketHeaderWords
    decide
  entry := by
    intro b s
    show diagnosticBucketHeaderWords ≤ diagnosticBucketHeaderWords + 2 * (b * capacity + s) ∧
      (diagnosticBucketHeaderWords + 2 * (b * capacity + s) - diagnosticBucketHeaderWords) % 2 = 0
    omega

/-- A staged scatter reserves slots for its edges one after the other, in some order. -/
theorem scatter_staged_eq {α : Type} {store : Memory Nat → Nat → α → Memory Nat} (item : Nat → α)
    {layout : Layout Nat} (keeps : KeepsCounters store layout)
    (buckets : layout.buckets = bucketedMarkBuckets) (shape : ChunkShape p)
    (schedule : StagedSchedule) (scratch : Memory Nat) :
    scatterStaged endpoint p groups store item layout schedule scratch =
      scatterEdges endpoint p store item layout (stagedOrder endpoint p groups schedule) scratch := by
  rw [scatterStaged, scatterEdges, stagedOrder, List.foldl_flatMap]
  simp only [shape.buckets]
  apply List.foldl_ext
  intro scratch lane _
  have inside : lane % bucketedMarkBuckets < layout.buckets := by
    rw [buckets]
    exact Nat.mod_lt _ (by decide)
  rw [reserve_batch_eq keeps _ inside, List.foldl_map]
  apply List.foldl_ext
  intro scratch edge member
  rw [((mem_batch_bucket _ _ _ _).mp member).2]

/-- The scratch buffer after a chunk has been scattered into slots of some words, each
    holding a value of its edge. -/
structure Scattered (endpoint : Nat → Nat) (p : Params) (edges : Bitmap) (value : Nat → Nat)
    (layout : Layout Nat) (before scratch : Memory Nat) : Prop where
  size : ∀ b < bucketedMarkBuckets, scratch.read b = bucketSize endpoint p edges b
  grows : before.read diagnosticBucketOverflowWord ≤ scratch.read diagnosticBucketOverflowWord
  unmoved : scratch.read diagnosticBucketOverflowWord = before.read diagnosticBucketOverflowWord ↔
    ∀ b < bucketedMarkBuckets, bucketSize endpoint p edges b ≤ layout.capacity
  held : scratch.read diagnosticBucketOverflowWord = before.read diagnosticBucketOverflowWord →
    ∀ b < bucketedMarkBuckets, ∀ held, held ∈ stored layout scratch b ↔
      ∃ edge ∈ liveIn p edges, bucketOf p (endpoint edge) = b ∧ value edge = held

/-- The values in a bucket are those of its edges. -/
theorem values_in_bucket (value : Nat → Nat) (order : List Nat) (bucket : Nat) :
    valuesIn bucket (order.map fun edge => (bucketOf p (endpoint edge), value edge)) =
      (order.filter fun edge => decide (bucketOf p (endpoint edge) = bucket)).map value := by
  rw [valuesIn, List.filter_map, List.map_map]
  rfl

/-- Reserving slots for the live edges of a chunk in any order. -/
theorem scattered (shape : ChunkShape p) (inGraph : ∀ edge, endpoint edge < 2 ^ p.edgeBits)
    (value : Nat → Nat) (words : Nat) (positive : 0 < words) (capacity : Nat) (before : Memory Nat)
    (order : List Nat) (cleared : ∀ b < bucketedMarkBuckets, before.read b = 0)
    (live : order.Perm (liveIn p edges)) :
    Scattered endpoint p edges value (slots words positive capacity) before
      ((order.map fun edge => (bucketOf p (endpoint edge), value edge)).foldl
        (reserve (slots words positive capacity)) before) := by
  have inside : ∀ item ∈ order.map fun edge => (bucketOf p (endpoint edge), value edge),
      item.1 < (slots words positive capacity).buckets := by
    intro item member
    obtain ⟨edge, _, rfl⟩ := List.mem_map.mp member
    exact bucket_of_lt shape _ (inGraph edge)
  have filled := reserve_cleared _ inside cleared
  have size : ∀ bucket,
      (valuesIn bucket (order.map fun edge => (bucketOf p (endpoint edge), value edge))).length =
        bucketSize endpoint p edges bucket := by
    intro bucket
    rw [values_in_bucket, List.length_map]
    exact (live.filter _).length_eq
  constructor
  · intro b inside
    exact (filled.count b inside).trans (size b)
  · exact filled.grows 0 (show 0 < bucketedMarkBuckets by decide)
  · constructor
    · intro unmoved b inside
      rw [← size b]
      exact filled.room b inside unmoved
    · intro room
      exact filled.quiet (fun b inside => by rw [size b]; exact room b inside) 0
        (show 0 < bucketedMarkBuckets by decide)
  · intro unmoved b inside held
    rw [filled.mem_stored b inside unmoved, List.mem_map]
    simp only [Prod.mk.injEq, live.mem_iff]

/-- The nodes of a chunk's live edges, scattered in any order. -/
theorem scattered_nodes (shape : ChunkShape p) (inGraph : ∀ edge, endpoint edge < 2 ^ p.edgeBits)
    (before : Memory Nat) (order : List Nat) (cleared : ∀ b < bucketedMarkBuckets, before.read b = 0)
    (live : order.Perm (liveIn p edges)) :
    Scattered endpoint p edges endpoint (nodeSlots capacity) before
      (scatterEdges endpoint p Memory.write endpoint (nodeSlots capacity) order before) := by
  have spec := scattered shape inGraph endpoint 1 (by decide) capacity before order cleared live
  rw [List.foldl_map] at spec
  exact spec

/-- The pairs of a chunk's live edges, scattered in any order, with the two words of a slot
    seen as one. -/
theorem scattered_pairs (shape : ChunkShape p) (inGraph : ∀ edge, endpoint edge < 2 ^ p.edgeBits)
    (before : Memory Nat) (order : List Nat) (cleared : ∀ b < bucketedMarkBuckets, before.read b = 0)
    (live : order.Perm (liveIn p edges)) :
    Scattered endpoint p edges (fun edge => Nat.pair (endpoint edge) edge) (pairSlots capacity)
      (pairView diagnosticBucketHeaderWords before)
      (pairView diagnosticBucketHeaderWords
        (scatterEdges endpoint p storePair (fun edge => (endpoint edge, edge)) (pairSlots capacity)
          order before)) := by
  have view : ∀ (order : List Nat) (before : Memory Nat),
      pairView diagnosticBucketHeaderWords
        (scatterEdges endpoint p storePair (fun edge => (endpoint edge, edge)) (pairSlots capacity)
          order before) =
      (order.map fun edge => (bucketOf p (endpoint edge), Nat.pair (endpoint edge) edge)).foldl
        (reserve (pairSlots capacity)) (pairView diagnosticBucketHeaderWords before) := by
    intro order
    induction order with
    | nil => exact fun _ => rfl
    | cons edge rest ih =>
      intro before
      rw [scatterEdges, List.foldl_cons, List.map_cons, List.foldl_cons, ← scatterEdges, ih,
        pair_view_reserve (pair_slots capacity) _ _ (bucket_of_lt shape _ (inGraph edge))]
  rw [view]
  apply scattered shape inGraph _ 2 (by decide) capacity _ order _ live
  intro b inside
  rw [pair_view_read _ _ (Nat.lt_trans inside (by decide))]
  exact cleared b inside

/-! ## Marking and trimming the buckets -/

/-- No bucket asks for more than the edges of the chunk. -/
theorem bucket_size_le (bucket : Nat) : bucketSize endpoint p edges bucket ≤ p.chunkCount := by
  calc bucketSize endpoint p edges bucket ≤ (liveIn p edges).length := List.length_filter_le ..
    _ ≤ (List.range' p.chunkBase p.chunkCount).length := List.length_filter_le ..
    _ = p.chunkCount := List.length_range'

section Buckets

variable {value : Nat → Nat} {layout : Layout Nat} {before scratch : Memory Nat}

/-- The threads visit each slot of a bucket once. -/
theorem bucket_visits_perm (capacity : Nat) (shape : ChunkShape p)
    (spec : Scattered endpoint p edges value layout before scratch) (bucket : Nat)
    (inside : bucket < bucketedMarkBuckets) (schedule : Schedule) :
    (schedule.order (bucketVisits dispatchGroups capacity bucket scratch)).Perm
      (List.range (min (scratch.read bucket) capacity)) := by
  have small := shape.small
  have size : bucketSize endpoint p edges bucket ≤ p.chunkCount := bucket_size_le bucket
  have count := spec.size bucket inside
  refine (schedule.perm _).trans (visits_perm (by decide) ?_)
  simp only [bucketChunkEdges, dispatchGroups] at small ⊢
  omega

/-- The parameters of the kernels that mark or trim each bucket. -/
def PerBucket (params : Nat → Params) : Prop :=
  ∀ bucket < bucketedMarkBuckets, (params bucket).bucketConfig &&& 65535 = bucket

variable {params : Nat → Params} {schedules : Nat → Schedule} {nodes : Bitmap}

/-- The nodes that a bucket's threads read are those stored in it. -/
theorem mem_bucket_nodes (shape : ChunkShape p)
    (spec : Scattered endpoint p edges value (nodeSlots capacity) before scratch) (bucket : Nat)
    (inside : bucket < bucketedMarkBuckets) (schedule : Schedule) (node : Nat) :
    node ∈ (schedule.order (bucketVisits dispatchGroups capacity bucket scratch)).map
        (fun slot => scratch.read (diagnosticBucketHeaderWords + bucket * capacity + slot)) ↔
      node ∈ stored (nodeSlots capacity) scratch bucket := by
  have visits := bucket_visits_perm capacity shape spec bucket inside schedule
  have same : stored (nodeSlots capacity) scratch bucket =
      (List.range (min (scratch.read bucket) capacity)).map
        (fun slot => scratch.read (diagnosticBucketHeaderWords + bucket * capacity + slot)) := by
    simp only [stored, nodeSlots, slots, Nat.one_mul, Nat.add_assoc]
  rw [same]
  exact (visits.map _).mem_iff

/-- As long as nothing has overflowed, marking all buckets marks the nodes of the chunk's
    live edges. -/
theorem test_mark_buckets (shape : ChunkShape p) (inGraph : ∀ edge, endpoint edge < 2 ^ p.edgeBits)
    (each : PerBucket params)
    (spec : Scattered endpoint p edges endpoint (nodeSlots capacity) before scratch)
    (unmoved : scratch.read diagnosticBucketOverflowWord = before.read diagnosticBucketOverflowWord)
    (covers : 2 ^ p.edgeBits ≤ nodes.length * 32) (node : Nat) :
    test ((List.range bucketedMarkBuckets).foldl (fun nodes bucket =>
        bucketMarkNodes (params bucket) dispatchGroups capacity (schedules bucket) scratch nodes) nodes)
        node = true ↔
      test nodes node = true ∨ ∃ edge ∈ liveIn p edges, endpoint edge = node := by
  have as_list : (List.range bucketedMarkBuckets).foldl (fun nodes bucket =>
        bucketMarkNodes (params bucket) dispatchGroups capacity (schedules bucket) scratch nodes) nodes =
      ((List.range bucketedMarkBuckets).flatMap fun bucket =>
        ((schedules bucket).order (bucketVisits dispatchGroups capacity bucket scratch)).map
          (fun slot => scratch.read (diagnosticBucketHeaderWords + bucket * capacity + slot))).foldl
        put nodes := by
    rw [List.foldl_flatMap]
    apply List.foldl_ext
    intro nodes bucket member
    rw [bucketMarkNodes, List.foldl_map]
    simp only [each bucket (List.mem_range.mp member)]
  have listed : ∀ node, (node ∈ (List.range bucketedMarkBuckets).flatMap fun bucket =>
        ((schedules bucket).order (bucketVisits dispatchGroups capacity bucket scratch)).map
          (fun slot => scratch.read (diagnosticBucketHeaderWords + bucket * capacity + slot))) ↔
      ∃ edge ∈ liveIn p edges, endpoint edge = node := by
    intro node
    rw [List.mem_flatMap]
    constructor
    · rintro ⟨bucket, member, read⟩
      have inside := List.mem_range.mp member
      rw [mem_bucket_nodes shape spec bucket inside, spec.held unmoved bucket inside] at read
      obtain ⟨edge, live, _, same⟩ := read
      exact ⟨edge, live, same⟩
    · rintro ⟨edge, live, same⟩
      have inside := bucket_of_lt shape _ (inGraph edge)
      refine ⟨bucketOf p (endpoint edge), List.mem_range.mpr inside, ?_⟩
      rw [mem_bucket_nodes shape spec _ inside, spec.held unmoved _ inside]
      exact ⟨edge, live, rfl, same⟩
  rw [as_list, test_put_all _ _ _ (by decide)]
  · rw [Bool.or_eq_true, decide_eq_true_eq, listed]
  · intro item member
    obtain ⟨edge, _, rfl⟩ := (listed item).mp member
    have small := inGraph edge
    omega

/-- Marking keeps the length of the node bitmap. -/
theorem mark_buckets_length (buckets : List Nat) (nodes : Bitmap) :
    (buckets.foldl (fun nodes bucket =>
      bucketMarkNodes (params bucket) dispatchGroups capacity (schedules bucket) scratch nodes)
      nodes).length = nodes.length := by
  induction buckets generalizing nodes with
  | nil => rfl
  | cons bucket rest ih =>
    rw [List.foldl_cons, ih, bucketMarkNodes,
      ← List.foldl_map (f := fun slot => scratch.read (_ + slot)) (g := put), put_all_length]

/-- Trimming a bucket removes nothing once something has overflowed. -/
theorem trim_buckets_overflow
    (overflow : scratch.read diagnosticBucketOverflowWord ≠ 0) (buckets : List Nat) (edges : Bitmap) :
    buckets.foldl (fun edges bucket =>
      bucketTrimPairs (params bucket) dispatchGroups capacity (schedules bucket) scratch nodes edges)
      edges = edges := by
  induction buckets with
  | nil => rfl
  | cons bucket rest ih => rw [List.foldl_cons, bucketTrimPairs, if_pos overflow, ih]

/-- The edges that a bucket's threads clear. -/
def droppedEdges (capacity : Nat) (schedule : Schedule) (scratch : Memory Nat) (nodes : Bitmap)
    (bucket : Nat) : List Nat :=
  let start := diagnosticBucketHeaderWords + 2 * bucket * capacity
  ((schedule.order (bucketVisits dispatchGroups capacity bucket scratch)).filter fun slot =>
    !test nodes (scratch.read (start + 2 * slot) ^^^ 1)).map fun slot =>
      scratch.read (start + 2 * slot + 1)

/-- Trimming a bucket clears those edges. -/
theorem bucket_trim_pairs_eq (each : PerBucket params)
    (quiet : scratch.read diagnosticBucketOverflowWord = 0) (bucket : Nat)
    (inside : bucket < bucketedMarkBuckets) (schedule : Schedule) (edges : Bitmap) :
    bucketTrimPairs (params bucket) dispatchGroups capacity schedule scratch nodes edges =
      (droppedEdges capacity schedule scratch nodes bucket).foldl clear edges := by
  rw [bucketTrimPairs, if_neg (by simp [quiet]), droppedEdges, List.foldl_map, List.foldl_filter]
  simp only [each bucket inside, Bool.not_eq_true', ← Bool.not_eq_true, ite_not]

/-- They are the live edges in the bucket that miss the mark of their complementary
    node. -/
theorem mem_dropped_edges (shape : ChunkShape p)
    (spec : Scattered endpoint p edges (fun edge => Nat.pair (endpoint edge) edge)
      (pairSlots capacity) before (pairView diagnosticBucketHeaderWords scratch))
    (unmoved : (pairView diagnosticBucketHeaderWords scratch).read diagnosticBucketOverflowWord =
      before.read diagnosticBucketOverflowWord)
    (bucket : Nat) (inside : bucket < bucketedMarkBuckets) (schedule : Schedule) (edge : Nat) :
    edge ∈ droppedEdges capacity schedule scratch nodes bucket ↔
      edge ∈ liveIn p edges ∧ bucketOf p (endpoint edge) = bucket ∧
        test nodes (endpoint edge ^^^ 1) = false := by
  have counter : (pairView diagnosticBucketHeaderWords scratch).read bucket = scratch.read bucket :=
    pair_view_read _ _ (Nat.lt_trans inside (by decide))
  have visits := bucket_visits_perm capacity shape spec bucket inside schedule
  have same_visits : bucketVisits dispatchGroups capacity bucket
      (pairView diagnosticBucketHeaderWords scratch) =
      bucketVisits dispatchGroups capacity bucket scratch := by
    rw [bucketVisits, bucketVisits, counter]
  rw [same_visits, counter] at visits
  -- A slot holds a pair exactly if its two words do.
  have pairs : ∀ node edge, (∃ slot < min (scratch.read bucket) capacity,
      scratch.read (diagnosticBucketHeaderWords + 2 * bucket * capacity + 2 * slot) = node ∧
        scratch.read (diagnosticBucketHeaderWords + 2 * bucket * capacity + 2 * slot + 1) = edge) ↔
      edge ∈ liveIn p edges ∧ bucketOf p (endpoint edge) = bucket ∧ endpoint edge = node := by
    intro node edge
    have held := spec.held unmoved bucket inside (Nat.pair node edge)
    have entry : ∀ slot, (pairView diagnosticBucketHeaderWords scratch).read
        ((pairSlots capacity).entry bucket slot) =
        Nat.pair (scratch.read (diagnosticBucketHeaderWords + 2 * bucket * capacity + 2 * slot))
          (scratch.read (diagnosticBucketHeaderWords + 2 * bucket * capacity + 2 * slot + 1)) := by
      intro slot
      obtain ⟨behind, even⟩ := (pair_slots capacity).entry bucket slot
      have addr : (pairSlots capacity).entry bucket slot =
          diagnosticBucketHeaderWords + 2 * bucket * capacity + 2 * slot := by
        simp only [pairSlots, slots]
        ring
      simp only [pairView, if_neg (Nat.not_lt.mpr behind), if_pos even]
      rw [addr]
    have in_bucket : Nat.pair node edge ∈
        stored (pairSlots capacity) (pairView diagnosticBucketHeaderWords scratch) bucket ↔
        ∃ slot < min (scratch.read bucket) capacity,
          scratch.read (diagnosticBucketHeaderWords + 2 * bucket * capacity + 2 * slot) = node ∧
            scratch.read (diagnosticBucketHeaderWords + 2 * bucket * capacity + 2 * slot + 1) =
              edge := by
      show Nat.pair node edge ∈ (List.range (min ((pairView diagnosticBucketHeaderWords
        scratch).read bucket) capacity)).map _ ↔ _
      simp only [List.mem_map, List.mem_range, counter, entry, Nat.pair_eq_pair]
    rw [← in_bucket, held]
    simp only [Nat.pair_eq_pair]
    constructor
    · rintro ⟨_, live, here, same, rfl⟩
      exact ⟨live, here, same⟩
    · rintro ⟨live, here, same⟩
      exact ⟨edge, live, here, same, rfl⟩
  simp only [droppedEdges, List.mem_map, List.mem_filter, visits.mem_iff, List.mem_range,
    Bool.not_eq_true']
  constructor
  · rintro ⟨slot, ⟨small, unmarked⟩, rfl⟩
    obtain ⟨live, here, node⟩ := (pairs _ _).mp ⟨slot, small, rfl, rfl⟩
    exact ⟨live, here, by rw [node]; exact unmarked⟩
  · rintro ⟨live, here, unmarked⟩
    obtain ⟨slot, small, node, same⟩ := (pairs _ _).mpr ⟨live, here, rfl⟩
    exact ⟨slot, ⟨small, by rw [node]; exact unmarked⟩, same⟩

/-- As long as nothing has overflowed, trimming all buckets clears the live edges of the
    chunk that miss the mark of their complementary node. -/
theorem test_trim_buckets (shape : ChunkShape p) (inGraph : ∀ edge, endpoint edge < 2 ^ p.edgeBits)
    (each : PerBucket params)
    (spec : Scattered endpoint p edges (fun edge => Nat.pair (endpoint edge) edge)
      (pairSlots capacity) before (pairView diagnosticBucketHeaderWords scratch))
    (unmoved : (pairView diagnosticBucketHeaderWords scratch).read diagnosticBucketOverflowWord =
      before.read diagnosticBucketOverflowWord)
    (quiet : scratch.read diagnosticBucketOverflowWord = 0) (edge : Nat) :
    test ((List.range bucketedMarkBuckets).foldl (fun edges bucket =>
        bucketTrimPairs (params bucket) dispatchGroups capacity (schedules bucket) scratch nodes
          edges) edges) edge = true ↔
      test edges edge = true ∧ ((p.chunkBase ≤ edge ∧ edge < p.chunkBase + p.chunkCount) →
        test nodes (endpoint edge ^^^ 1) = true) := by
  have as_list : (List.range bucketedMarkBuckets).foldl (fun edges bucket =>
        bucketTrimPairs (params bucket) dispatchGroups capacity (schedules bucket) scratch nodes
          edges) edges =
      ((List.range bucketedMarkBuckets).flatMap fun bucket =>
        droppedEdges capacity (schedules bucket) scratch nodes bucket).foldl clear edges := by
    rw [List.foldl_flatMap]
    apply List.foldl_ext
    intro edges bucket member
    exact bucket_trim_pairs_eq each quiet bucket (List.mem_range.mp member) _ edges
  have listed : ∀ edge, (edge ∈ (List.range bucketedMarkBuckets).flatMap fun bucket =>
        droppedEdges capacity (schedules bucket) scratch nodes bucket) ↔
      edge ∈ liveIn p edges ∧ test nodes (endpoint edge ^^^ 1) = false := by
    intro edge
    rw [List.mem_flatMap]
    constructor
    · rintro ⟨bucket, member, dropped⟩
      obtain ⟨live, _, unmarked⟩ :=
        (mem_dropped_edges shape spec unmoved bucket (List.mem_range.mp member) _ edge).mp dropped
      exact ⟨live, unmarked⟩
    · rintro ⟨live, unmarked⟩
      have inside := bucket_of_lt shape _ (inGraph edge)
      exact ⟨bucketOf p (endpoint edge), List.mem_range.mpr inside,
        (mem_dropped_edges shape spec unmoved _ inside _ edge).mpr ⟨live, rfl, unmarked⟩⟩
  rw [as_list, test_clear_all _ _ _ (by decide)]
  · simp only [listed, mem_live_in, Bool.and_eq_true, Bool.not_eq_true', decide_eq_false_iff_not,
      not_and, Bool.not_eq_false]
    constructor
    · rintro ⟨live, marked⟩
      exact ⟨live, fun inside => marked ⟨inside, live⟩⟩
    · rintro ⟨live, marked⟩
      exact ⟨live, fun both => marked both.1⟩
  · intro item member
    exact inside_of_test _ _ ((mem_live_in item).mp ((listed item).mp member).1).2

/-- Trimming keeps the length of the edge bitmap. -/
theorem trim_buckets_length (buckets : List Nat)
    (small : ∀ bucket ∈ buckets, bucket < bucketedMarkBuckets) (each : PerBucket params)
    (edges : Bitmap) :
    (buckets.foldl (fun edges bucket =>
      bucketTrimPairs (params bucket) dispatchGroups capacity (schedules bucket) scratch nodes edges)
      edges).length = edges.length := by
  induction buckets generalizing edges with
  | nil => rfl
  | cons bucket rest ih =>
    rw [List.foldl_cons, ih fun later member => small later (List.mem_cons_of_mem _ member)]
    by_cases quiet : scratch.read diagnosticBucketOverflowWord = 0
    · rw [bucket_trim_pairs_eq each quiet bucket (small bucket List.mem_cons_self), clear_all_length]
    · rw [bucketTrimPairs, if_pos quiet]

end Buckets

end CuckatooMiner.Bucketed
