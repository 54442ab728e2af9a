import Mathlib
import CuckatooMiner.Slean
import CuckatooMiner.Solver
import CuckatooMiner.GpuLean

/-!
# Bucketed rounds

A bucketed round trims a graph chunk by chunk with one scratch buffer. Its first phase
scatters the nodes of a chunk's edges into buckets and marks them bucket by bucket; its
second phase scatters the chunk again, now pairs of node and edge, and clears the edges
whose complementary node is not marked. A bucket that is full counts what it cannot
hold. The trimming kernel does nothing once something was counted, and the round is
then repeated directly.

Round zero scatters all edges of a chunk, a workgroup reserving the slots of a bucket
for all its threads at once; later rounds scatter the live edges. Threads take their
items in strides, and all reservations, marks and removals happen in the order of a
schedule, which is arbitrary and may differ for each dispatch.

The capacity of a bucket is a parameter, given by the number of edges of a chunk and the
number of buckets. Scratch words are numbered without a bound here; for the capacity
that the program uses, all their numbers fit thirty-two bits. Counters are unbounded as
well: the overflow counter is assumed to stay below two to the thirty-two. A cancelled
round leaves no bitmap that anyone reads and is left out.
-/

namespace CuckatooMiner.Bucketed

open PackedBits StridedSweep Reservation
open LeanRound (Bitmap)
open GpuLean (asU32 GraphSize)
open Slean (clearWords countOneBits)
open Solver (SolveError)

/-- The scratch words before the entries of the buckets. -/
def diagnosticBucketHeaderWords : Nat := 256

/-- The counter of what the buckets could not hold. -/
def diagnosticBucketOverflowWord : Nat := 128

/-- Room in a bucket beyond an even distribution. -/
def diagnosticBucketMargin : Nat := 65536

/-- The most edges of a chunk. -/
def bucketChunkEdges : Nat := 268435456

/-- The buckets of a round. -/
def bucketedMarkBuckets : Nat := 64

/-- The workgroups of a dispatch over a chunk or a bucket. -/
def dispatchGroups : Nat := 4096

/-- The uniform parameters of a chunk or of a bucket. -/
structure Params where
  edgeBits : Nat
  chunkBase : Nat
  chunkCount : Nat
  bucketConfig : Nat
deriving DecidableEq, Repr

/-- The number of buckets. -/
def bucketConfigCount (p : Params) : Nat := p.bucketConfig >>> 16

/-- The capacity that the program gives a bucket. -/
def bucketConfigCapacity (chunkCount buckets : Nat) : Nat :=
  (chunkCount + buckets - 1) / buckets + diagnosticBucketMargin

/-- The bucket of a node: its leading bits. -/
def bucketOf (p : Params) (node : Nat) : Nat :=
  let bucketBits := countOneBits (bucketConfigCount p - 1)
  node >>> (p.edgeBits - bucketBits)

/-! ## Slots -/

/-- Counters come first, then the overflow counter, then slots of some words each. -/
def slots (words : Nat) (positive : 0 < words) (capacity : Nat) : Layout Nat where
  buckets := bucketedMarkBuckets
  capacity := capacity
  count bucket := bucket
  entry bucket slot := diagnosticBucketHeaderWords + words * (bucket * capacity + slot)
  overflow _ := diagnosticBucketOverflowWord
  count_injective := fun _ _ _ _ same => same
  entry_injective := by
    intro b _ s small c _ t bound same
    exact slot_unique capacity b c s t small bound
      (Nat.eq_of_mul_eq_mul_left positive (Nat.add_left_cancel same))
  count_ne_entry := by
    simp only [bucketedMarkBuckets, diagnosticBucketHeaderWords]
    omega
  count_ne_overflow := by
    simp only [bucketedMarkBuckets, diagnosticBucketOverflowWord]
    omega
  entry_ne_overflow := by
    simp only [diagnosticBucketHeaderWords, diagnosticBucketOverflowWord]
    omega

/-- Slots for nodes. -/
def nodeSlots (capacity : Nat) : Layout Nat := slots 1 (by decide) capacity

/-- Slots for nodes with their edges. -/
def pairSlots (capacity : Nat) : Layout Nat := slots 2 (by decide) capacity

/-! ## Kernels -/

/-- The orders of a dispatch in which workgroups reserve for all their threads: within
    each batch of threads, and among the lanes of all batches. -/
structure StagedSchedule where
  within : Nat → Schedule
  across : Schedule

section Kernels

variable (endpoint : Nat → Nat) (p : Params) (groups : Nat)

section Scatter

variable {α : Type} (store : Memory Nat → Nat → α → Memory Nat) (item : Nat → α)
variable (layout : Layout Nat)

/-- Reserve slots for some edges, one after the other. -/
def scatterEdges (order : List Nat) (scratch : Memory Nat) : Memory Nat :=
  order.foldl (fun scratch edge =>
    reserveItem store layout scratch (bucketOf p (endpoint edge), item edge)) scratch

/-- The live edges of a chunk, word by word. -/
def aliveEdges (edges : Bitmap) : List Nat :=
  let firstWord := p.chunkBase >>> 5
  let chunkWords := (p.chunkCount + 31) >>> 5
  (visits 4294967296 (groups * 256) chunkWords).flatMap fun localWord =>
    let word := firstWord + localWord
    ((drain 32 (edges.getD word 0#32)).map (word * 32 + ·)).filter fun edge =>
      decide (edge ≥ p.chunkBase ∧ edge - p.chunkBase < p.chunkCount)

/-- Scatter the live edges of a chunk. -/
def scatterAlive (schedule : Schedule) (edges : Bitmap) (scratch : Memory Nat) : Memory Nat :=
  scatterEdges endpoint p store item layout (schedule.order (aliveEdges p groups edges)) scratch

/-- The edges of one batch: the threads of a workgroup in one of its iterations. -/
def batchEdges (batch : Nat) : List Nat :=
  let stride := groups * 256
  let group := batch % groups
  let iteration := batch / groups
  (((List.range 256).map fun lane => group * 256 + lane + iteration * stride).filter
    fun localEdge => decide (localEdge < p.chunkCount)).map (p.chunkBase + ·)

/-- The batches of a dispatch. -/
def batches : Nat :=
  let stride := groups * 256
  (p.chunkCount + stride - 1) / stride * groups

/-- The edges of a batch in one bucket; a thread's local slot is the number of those that
    counted themselves before it. -/
def batchBucket (schedule : StagedSchedule) (batch bucket : Nat) : List Nat :=
  ((schedule.within batch).order (batchEdges p groups batch)).filter fun edge =>
    decide (bucketOf p (endpoint edge) = bucket)

/-- Scatter all edges of a chunk, a lane of each workgroup reserving the slots of a bucket
    for the whole batch. -/
def scatterStaged (schedule : StagedSchedule) (scratch : Memory Nat) : Memory Nat :=
  let bucketCount := bucketConfigCount p
  (schedule.across.order (List.range (batches p groups * bucketCount))).foldl (fun scratch lane =>
    let batch := lane / bucketCount
    let bucket := lane % bucketCount
    reserveBatch store layout scratch bucket
      ((batchBucket endpoint p groups schedule batch bucket).map item)) scratch

end Scatter

variable (capacity : Nat)

/-- Scatter the nodes of all edges. -/
def bucketScatterDenseNodesStaged (schedule : StagedSchedule) (scratch : Memory Nat) : Memory Nat :=
  scatterStaged endpoint p groups Memory.write endpoint (nodeSlots capacity) schedule scratch

/-- Scatter the nodes of the live edges. -/
def bucketScatterAliveNodes (schedule : Schedule) (edges : Bitmap) (scratch : Memory Nat) :
    Memory Nat :=
  scatterAlive endpoint p groups Memory.write endpoint (nodeSlots capacity) schedule edges scratch

/-- Scatter all edges with their nodes. -/
def bucketScatterDensePairsStaged (schedule : StagedSchedule) (scratch : Memory Nat) : Memory Nat :=
  scatterStaged endpoint p groups storePair (fun edge => (endpoint edge, edge)) (pairSlots capacity)
    schedule scratch

/-- Scatter the live edges with their nodes. -/
def bucketScatterAlivePairs (schedule : Schedule) (edges : Bitmap) (scratch : Memory Nat) :
    Memory Nat :=
  scatterAlive endpoint p groups storePair (fun edge => (endpoint edge, edge)) (pairSlots capacity)
    schedule edges scratch

/-- The slots of a bucket that its threads visit. -/
def bucketVisits (bucket : Nat) (scratch : Memory Nat) : List Nat :=
  visits 4294967296 (groups * 256) (min (scratch.read bucket) capacity)

/-- Mark the nodes of a bucket. -/
def bucketMarkNodes (schedule : Schedule) (scratch : Memory Nat) (nodes : Bitmap) : Bitmap :=
  let bucket := p.bucketConfig &&& 65535
  let start := diagnosticBucketHeaderWords + bucket * capacity
  (schedule.order (bucketVisits groups capacity bucket scratch)).foldl
    (fun nodes slot => put nodes (scratch.read (start + slot))) nodes

/-- Clear the edges of a bucket whose complementary node is not marked, unless some bucket
    was too small. -/
def bucketTrimPairs (schedule : Schedule) (scratch : Memory Nat) (nodes edges : Bitmap) : Bitmap :=
  if scratch.read diagnosticBucketOverflowWord ≠ 0 then edges
  else
    let bucket := p.bucketConfig &&& 65535
    let start := diagnosticBucketHeaderWords + 2 * bucket * capacity
    (schedule.order (bucketVisits groups capacity bucket scratch)).foldl (fun edges slot =>
      let input := start + 2 * slot
      let node := scratch.read input
      let edge := scratch.read (input + 1)
      let mate := node ^^^ 1
      if test nodes mate then edges else clear edges edge) edges

end Kernels

/-! ## Rounds -/

/-- The buffers of a round. -/
structure Buffers where
  edges : Bitmap
  nodes : Bitmap
  scratch : Memory Nat

/-- The orders of the dispatches for one chunk: of its scatter, staged or not, and of each
    bucket. -/
structure ChunkSchedule where
  staged : StagedSchedule
  alive : Schedule
  bucket : Nat → Schedule

/-- The orders of a round's dispatches: of each chunk in both phases, and of the direct
    round. -/
structure RoundSchedule where
  mark : Nat → ChunkSchedule
  trim : Nat → ChunkSchedule
  fallback : GpuLean.RoundSchedule

/-- The edges of a chunk. -/
def chunkEdges (edgeBits : Nat) : Nat := min (GraphSize.new edgeBits).edgeCount bucketChunkEdges

/-- The chunks of a graph. -/
def chunkCount (edgeBits : Nat) : Nat := (GraphSize.new edgeBits).edgeCount ⌈/⌉ chunkEdges edgeBits

/-- The workgroups of a dispatch over the words of a bitmap. -/
def groupsForWords (edgeBits : Nat) : Nat :=
  min ((GraphSize.new edgeBits).wordCount ⌈/⌉ 256) dispatchGroups

/-- The parameters with which a chunk is scattered. -/
def scatterParams (edgeBits chunk : Nat) : Params :=
  let base := chunk * chunkEdges edgeBits
  let count := min (chunkEdges edgeBits) ((GraphSize.new edgeBits).edgeCount - base)
  ⟨edgeBits, asU32 base, asU32 count, bucketedMarkBuckets <<< 16⟩

/-- The parameters with which a bucket is marked or trimmed. -/
def markParams (edgeBits bucket : Nat) : Params :=
  ⟨edgeBits, 0, asU32 (chunkEdges edgeBits), (bucketedMarkBuckets <<< 16) ||| bucket⟩

section Rounds

variable (capacityOf : Nat → Nat → Nat) (endpoint : Nat → Nat) (edgeBits groups round : Nat)

/-- The capacity that a kernel uses. -/
def capacityFor (p : Params) : Nat := capacityOf p.chunkCount (bucketConfigCount p)

/-- Scatter the nodes of a chunk and mark them bucket by bucket. -/
def markChunk (schedule : ChunkSchedule) (chunk : Nat) (buffers : Buffers) : Buffers :=
  let p := scatterParams edgeBits chunk
  let scratch := clearWords bucketedMarkBuckets buffers.scratch
  let scratch :=
    if round = 0 then
      bucketScatterDenseNodesStaged endpoint p dispatchGroups (capacityFor capacityOf p)
        schedule.staged scratch
    else
      bucketScatterAliveNodes endpoint p dispatchGroups (capacityFor capacityOf p) schedule.alive
        buffers.edges scratch
  let nodes := (List.range bucketedMarkBuckets).foldl (fun nodes bucket =>
    let p := markParams edgeBits bucket
    bucketMarkNodes p dispatchGroups (capacityFor capacityOf p) (schedule.bucket bucket) scratch
      nodes) buffers.nodes
  { buffers with nodes := nodes, scratch := scratch }

/-- Scatter the pairs of a chunk and trim them bucket by bucket. -/
def trimChunk (schedule : ChunkSchedule) (chunk : Nat) (buffers : Buffers) : Buffers :=
  let p := scatterParams edgeBits chunk
  let scratch := clearWords bucketedMarkBuckets buffers.scratch
  let scratch :=
    if round = 0 then
      bucketScatterDensePairsStaged endpoint p dispatchGroups (capacityFor capacityOf p)
        schedule.staged scratch
    else
      bucketScatterAlivePairs endpoint p dispatchGroups (capacityFor capacityOf p) schedule.alive
        buffers.edges scratch
  let edges := (List.range bucketedMarkBuckets).foldl (fun edges bucket =>
    let p := markParams edgeBits bucket
    bucketTrimPairs p dispatchGroups (capacityFor capacityOf p) (schedule.bucket bucket) scratch
      buffers.nodes edges) buffers.edges
  { buffers with edges := edges, scratch := scratch }

/-- Clear the nodes and the counters. -/
def clearBuffers (buffers : Buffers) : Buffers :=
  { buffers with
    nodes := List.replicate buffers.nodes.length 0#32
    scratch := clearWords diagnosticBucketHeaderWords buffers.scratch }

/-- The mark phase up to some chunk. -/
def markChunks (schedules : Nat → ChunkSchedule) (chunks : Nat) (buffers : Buffers) : Buffers :=
  (List.range chunks).foldl (fun buffers chunk =>
    markChunk capacityOf endpoint edgeBits round (schedules chunk) chunk buffers)
    (clearBuffers buffers)

/-- The trim phase up to some chunk. -/
def trimChunks (schedules : Nat → ChunkSchedule) (chunks : Nat) (buffers : Buffers) : Buffers :=
  (List.range chunks).foldl (fun buffers chunk =>
    trimChunk capacityOf endpoint edgeBits round (schedules chunk) chunk buffers) buffers

/-- Mark the nodes of all chunks. -/
def markBucketRound (schedules : Nat → ChunkSchedule) (buffers : Buffers) : Buffers :=
  markChunks capacityOf endpoint edgeBits round schedules (chunkCount edgeBits) buffers

/-- Trim directly after all. -/
def directFallback (schedule : GpuLean.RoundSchedule) (buffers : Buffers) : Buffers :=
  let params := GpuLean.Params.new edgeBits
  let direct := GpuLean.leanTrimRound endpoint params groups schedule ⟨buffers.edges, buffers.nodes⟩
  { buffers with edges := direct.edges, nodes := direct.nodes }

/-- Trim all chunks, or directly when some bucket was too small. The overflow is
    returned with the buffers. -/
def trimBucketRound (schedules : Nat → ChunkSchedule) (fallback : GpuLean.RoundSchedule)
    (buffers : Buffers) : Nat × Buffers :=
  let buffers :=
    trimChunks capacityOf endpoint edgeBits round schedules (chunkCount edgeBits) buffers
  let overflow := buffers.scratch.read diagnosticBucketOverflowWord
  if overflow ≠ 0 then (overflow, directFallback endpoint edgeBits groups fallback buffers)
  else (overflow, buffers)

/-- Both phases of a round. The overflow counts what found no slot in the marks and in the
    trims. The cancel flag is left out here. -/
def runBucketRound (schedule : RoundSchedule) (buffers : Buffers) : Nat × Buffers :=
  trimBucketRound capacityOf endpoint edgeBits groups round schedule.trim schedule.fallback
    (markBucketRound capacityOf endpoint edgeBits round schedule.mark buffers)

end Rounds

/-! ## The scratch buffer -/

/-- The scratch words that a thread uses for an item: the counter of its bucket, and the
    words of the slot that the counter returned or the overflow counter. -/
def scatterWords (words : Nat) (layout : Layout Nat) (bucket slot : Nat) : List Nat :=
  bucket :: if slot < layout.capacity then
      (List.range words).map (layout.entry bucket slot + ·)
    else [diagnosticBucketOverflowWord]

/-- The scratch words that the threads of a bucket read. -/
def readWords (words : Nat) (layout : Layout Nat) (bucket : Nat) (scratch : Memory Nat) : List Nat :=
  diagnosticBucketOverflowWord :: bucket ::
    (bucketVisits dispatchGroups layout.capacity bucket scratch).flatMap fun slot =>
      (List.range words).map (layout.entry bucket slot + ·)

/-- What an adapter allows. -/
structure Limits where
  maxBufferSize : Nat
  maxStorageBufferBindingSize : Nat

/-- The diagnostics and modes that decide the size. -/
structure ScratchModes where
  bucketRound0 : Bool
  bucketCount : Nat
  bucketedMark : Bool
  slean : Bool
  sleanScratchBytes : Nat

/-- The bytes of the scratch buffer and the edges of a chunk. -/
def bucketScratchSize (adapterName : String) (limits : Limits) (edgeBits : Nat)
    (modes : ScratchModes) : Except SolveError (Nat × Nat) :=
  let bucketCount := if modes.bucketRound0 then modes.bucketCount else bucketedMarkBuckets
  let chunkEdges := min (GraphSize.new edgeBits).edgeCount bucketChunkEdges
  let capacity := chunkEdges ⌈/⌉ bucketCount + diagnosticBucketMargin
  let payloadWords := bucketCount * capacity
  let requiredBytes := (diagnosticBucketHeaderWords
    + if modes.bucketedMark then 2 * payloadWords else payloadWords) * 4
  let scratchBytes :=
    if modes.slean then modes.sleanScratchBytes
    else if modes.bucketRound0 ∨ modes.bucketedMark then requiredBytes
    else 4
  if scratchBytes > limits.maxBufferSize ∨ scratchBytes > limits.maxStorageBufferBindingSize then
    .error (.unsupported (adapterName ++ " exposes max storage buffer "
      ++ toString (limits.maxStorageBufferBindingSize / (1024 * 1024))
      ++ " MiB, but bucketed C" ++ toString edgeBits ++ " marking needs "
      ++ toString (scratchBytes / (1024 * 1024)) ++ " MiB scratch"))
  else .ok (scratchBytes, chunkEdges)

end CuckatooMiner.Bucketed
