import Mathlib
import CuckatooMiner.TrimRun
import CuckatooMiner.SleanLayout
import CuckatooMiner.Foundation.SlotRanges
import CuckatooMiner.Foundation.StridedSweep

/-!
# Fine rounds

A fine round reads live edges from the buckets of an arena, keeps those whose
complementary node occurs in the same bucket, and leaves them in an arena that is sorted
by the buckets of the other side. A fixed attempt gives all new buckets one capacity and
stores the kept edges at once; if a bucket is full, it counts what it cannot hold and the
attempt is given up. Otherwise the kept edges are counted first, and stored without gaps
in a second pass. The transition on the bucketed path sorts the live edges of the bitmap
into two shards of half the buckets each and performs a round on them.

Counters and the indices formed from them are 32-bit words that wrap. The order of the
reservations of a dispatch is that of a schedule. The threads of a workgroup take the
words of its bucket in strides of their number. New buffers are zero. The text of a number
of gibibytes is a parameter. Validation of the output, which diagnostics ask for, and times
are left out.
-/

namespace CuckatooMiner.FineRound

open PackedBits Reservation SlotRanges StridedSweep
open GpuLean (asU32)
open LeanRound (Bitmap)
open SleanLayout (Limits)
open Solver (SolveError)
open TrimRun (FineCsrArena fineBuckets fineBucket)

/-- The largest 32-bit number. -/
def maxU32 : Nat := 4294967295

/-- The numbers of thirty-two bits. -/
def u32Modulus : Nat := 4294967296

/-- The leading bits of a node that are its fine bucket. -/
def fineBucketBits : Nat := 15

/-- The threads of a workgroup. -/
def workgroupSize : Nat := 256

/-- The room of a bucket of a fixed attempt beyond the largest bucket of its input. -/
def fineFixedMinMargin : Nat := 64

/-! ## Buffers -/

/-- The buffers of an arena: the start of each bucket, the counters of the buckets and the
    edges. -/
structure FineStorage where
  offsets : List Nat
  cursors : List Nat
  arena : List Nat
deriving DecidableEq, Repr

/-- A store into an arena: the start of the bucket, the index, and the start of the next
    bucket. -/
structure Write where
  first : Nat
  index : Nat
  next : Nat
deriving DecidableEq, Repr

/-- The buffers bound for a dispatch: the arenas that are read and written, the counts and
    the overflow counter; and the stores into arenas so far. -/
structure FineBuffers where
  input : FineStorage
  output : FineStorage
  counts : List Nat
  scratch : Nat
  writes : List Write
deriving DecidableEq, Repr

/-- The index of a slot. -/
def slotIndex (offsets : List Nat) (bucket slot : Nat) : Nat := asU32 (offsets.getD bucket 0 + slot)

/-- The stores of edges to their slots. -/
def writesOf (bucketOf : Nat → Nat) (offsets : List Nat) (stores : List (Nat × Nat)) : List Write :=
  stores.map fun store =>
    let bucket := bucketOf store.1
    ⟨offsets.getD bucket 0, slotIndex offsets bucket store.2, offsets.getD (bucket + 1) 0⟩

/-- Reserve slots for edges by the cursors of an arena and store the edges there. -/
def FineStorage.scatter (bucketOf : Nat → Nat) (edges : List Nat) (storage : FineStorage) :
    FineStorage × List Write :=
  let stores := reserved bucketOf u32Modulus edges storage.cursors
  (⟨storage.offsets, tallies bucketOf u32Modulus edges storage.cursors,
      place bucketOf (slotIndex storage.offsets) stores storage.arena⟩,
    writesOf bucketOf storage.offsets stores)

/-- Set the cursors of an arena to zero. -/
def FineStorage.clearCursors (storage : FineStorage) : FineStorage :=
  { storage with cursors := List.replicate storage.cursors.length 0 }

/-- The edges that the threads of a workgroup take from a bucket, thread by thread. -/
def FineStorage.bucketSlots (storage : FineStorage) (bucket : Nat) : List Nat :=
  let start := storage.offsets.getD bucket 0
  let last := asU32 (start + storage.cursors.getD bucket 0)
  (visitsFrom u32Modulus workgroupSize start last).map (storage.arena.getD · 0)

/-! ## Kernels -/

section

variable (endpoints : Nat → Nat → Nat) (edgeBits side : Nat)

/-- The place of a node within its bucket. -/
def fineZ (node : Nat) : Nat := node &&& ((1 <<< (edgeBits - fineBucketBits)) - 1)

/-- The words of the local bitmap. -/
def fineSeenWords : Nat := 1 <<< (edgeBits - fineBucketBits - 5)

/-- The local bitmap of the nodes of some edges. -/
def fineSeen (slots : List Nat) : Bitmap :=
  slots.foldl (fun seen edge => put seen (fineZ edgeBits (endpoints side edge)))
    (List.replicate (fineSeenWords edgeBits) 0#32)

/-- The edges of a bucket whose complementary node is seen. -/
def keptSlots (slots : List Nat) : List Nat :=
  let seen := fineSeen endpoints edgeBits side slots
  slots.filter fun edge => test seen (fineZ edgeBits (endpoints side edge) ^^^ 1)

/-- The edges that the workgroups of a dispatch keep. -/
def keptEdges (groups : Nat) (input : FineStorage) : List Nat :=
  (List.range groups).flatMap fun bucket =>
    keptSlots endpoints edgeBits side (input.bucketSlots bucket)

/-- The bucket of an edge on the other side. -/
def nextBucket (edge : Nat) : Nat := fineBucket edgeBits (endpoints (side ^^^ 1) edge)

/-- Count the kept edges by their buckets on the other side. -/
def fineTrimCount (groups : Nat) (schedule : Schedule) (buffers : FineBuffers) : FineBuffers :=
  let edges := schedule.order (keptEdges endpoints edgeBits side groups buffers.input)
  { buffers with
    counts := tallies (nextBucket endpoints edgeBits side) u32Modulus edges buffers.counts }

/-- Store the kept edges in their buckets on the other side. -/
def fineTrimScatter (groups : Nat) (schedule : Schedule) (buffers : FineBuffers) : FineBuffers :=
  let edges := schedule.order (keptEdges endpoints edgeBits side groups buffers.input)
  let (output, writes) := buffers.output.scatter (nextBucket endpoints edgeBits side) edges
  { buffers with output := output, writes := buffers.writes ++ writes }

/-- Count and store the kept edges in one pass. The counts reserve the slots, and an edge
    beyond the capacity of its bucket is counted as an overflow. -/
def fineTrimFixed (schedule : Schedule) (buffers : FineBuffers) : FineBuffers :=
  let bucketOf := nextBucket endpoints edgeBits side
  let offsets := buffers.output.offsets
  let outputCapacity := asU32 (offsets.getD 1 0 + u32Modulus - offsets.getD 0 0)
  let edges := schedule.order (keptEdges endpoints edgeBits side fineBuckets buffers.input)
  let slots := reserved bucketOf u32Modulus edges buffers.counts
  let stores := slots.filter fun store => store.2 < outputCapacity
  { buffers with
    output := { buffers.output with
      arena := place bucketOf (slotIndex offsets) stores buffers.output.arena }
    counts := tallies bucketOf u32Modulus edges buffers.counts
    scratch := asU32 (buffers.scratch + (slots.length - stores.length))
    writes := buffers.writes ++ writesOf bucketOf offsets stores }

/-- Count the live edges of a bitmap by their buckets. -/
def fineHistogramAlive (schedule : Schedule) (edges : Bitmap) (counts : List Nat) : List Nat :=
  tallies (fun edge => fineBucket edgeBits (endpoints side edge)) u32Modulus
    (schedule.order (members 0 edges)) counts

/-- Whether an edge belongs to a half of the buckets. -/
def inHalf (upper : Bool) (edge : Nat) : Bool :=
  let globalBucket := fineBucket edgeBits (endpoints side edge)
  if upper then globalBucket ≥ fineBuckets / 2 else globalBucket < fineBuckets / 2

/-- The bucket of an edge within its half. -/
def halfBucket (edge : Nat) : Nat :=
  fineBucket edgeBits (endpoints side edge) &&& (fineBuckets / 2 - 1)

/-- Store the live edges of a half of the buckets. -/
def fineScatterAliveHalf (upper : Bool) (schedule : Schedule) (edges : Bitmap)
    (storage : FineStorage) : FineStorage × List Write :=
  storage.scatter (halfBucket endpoints edgeBits side)
    (schedule.order ((members 0 edges).filter (inHalf endpoints edgeBits side upper)))

end

/-! ## Storage -/

section

variable (limits : Limits) (gib : Nat → String)

/-- The starts of buckets that follow one another, and the end of the last one. -/
def fineOffsets (refusal : String) : Nat → List Nat → Except SolveError (List Nat)
  | first, [] => .ok [first]
  | first, count :: rest =>
      if first + count > maxU32 then .error (.unsupported refusal)
      else do
        let offsets ← fineOffsets refusal (first + count) rest
        return first :: offsets

/-- The bytes of an arena of some edges. -/
def arenaBytes (entries : Nat) : Nat := max (entries * 4) 4

/-- New buffers of an arena. -/
def newStorage (offsets : List Nat) (buckets bytes : Nat) : FineStorage :=
  ⟨offsets, List.replicate buckets 0, List.replicate (bytes / 4) 0⟩

/-- Allocate an arena without gaps for so many edges. -/
def allocateFineStorage (survivorCount : Nat) (counts : List Nat) : Except SolveError FineStorage := do
  let offsets ← fineOffsets "fine CSR offset exceeds the u32 arena index" 0 counts
  let bytes := arenaBytes survivorCount
  if bytes > limits.maxBufferSize ∨ bytes > limits.maxStorageBufferBindingSize then
    .error (.unsupported ("fine CSR arena needs " ++ gib bytes ++
      " GiB, adapter binding limit is " ++ gib limits.maxStorageBufferBindingSize ++ " GiB"))
  else .ok (newStorage offsets fineBuckets bytes)

/-- Allocate an arena without gaps, and the number of its edges. -/
def allocateFineTrimStorage (counts : List Nat) : Except SolveError (FineStorage × Nat) := do
  let offsets ← fineOffsets "fine trim output exceeds u32 arena indexing" 0 counts
  let survivorCount := offsets.getLastD 0
  let bytes := arenaBytes survivorCount
  if bytes > limits.maxStorageBufferBindingSize then
    .error (.unsupported ("fine trim output needs " ++ gib bytes ++
      " GiB, above the adapter binding limit"))
  else .ok (newStorage offsets fineBuckets bytes, survivorCount)

/-- Allocate an arena of one capacity for all buckets, or refuse. -/
def prepareFineFixedStorage (input : FineCsrArena) : Option FineStorage :=
  let capacity := input.counts.foldl max 0 + fineFixedMinMargin
  let arenaSlots := capacity * fineBuckets
  let bytes := arenaBytes arenaSlots
  if arenaSlots > maxU32 ∨ bytes > limits.maxBufferSize ∨
      bytes > limits.maxStorageBufferBindingSize then none
  else some (newStorage ((List.range (fineBuckets + 1)).map fun bucket => asU32 (bucket * capacity))
    1 bytes)

/-! ## Rounds -/

/-- The orders of the passes of a round without gaps. -/
structure CsrOrders where
  count : Schedule
  scatter : Schedule

/-- The orders of the passes of the sharded transition, for each shard. -/
structure ShardOrders where
  histogram : Schedule
  seed : Nat → Schedule
  count : Nat → Schedule
  scatter : Nat → Schedule

/-- The buffers of an arena with the counts that the host keeps. -/
def inputStorage (input : FineCsrArena) : FineStorage := ⟨input.offsets, input.counts, input.arena⟩

/-- Buffers before a dispatch: cleared counts and no overflow. -/
def boundBuffers (input output : FineStorage) : FineBuffers :=
  ⟨input, output, List.replicate fineBuckets 0, 0, []⟩

variable (endpoints : Nat → Nat → Nat) (edgeBits side : Nat)

/-- A round without gaps, and its stores. -/
def trimFineCsrOnce (orders : CsrOrders) (input : FineCsrArena) :
    Except SolveError (FineCsrArena × List Write) := do
  let counted := fineTrimCount endpoints edgeBits side fineBuckets orders.count
    (boundBuffers (inputStorage input) ⟨[], [], []⟩)
  let (output, survivorCount) ← allocateFineTrimStorage limits gib counted.counts
  let scattered := fineTrimScatter endpoints edgeBits side fineBuckets orders.scatter
    { counted with output := output.clearCursors }
  return (⟨counted.counts, asU32 survivorCount, output.offsets, scattered.output.arena⟩,
    scattered.writes)

/-- A fixed attempt in a prepared arena, if there is one. -/
def fixedAttempt (schedule : Schedule) (input : FineCsrArena) :
    Option FineStorage → Except SolveError (Option FineCsrArena × FineStorage × List Write)
  | none => .ok (none, inputStorage input, [])
  | some storage =>
      let buffers := fineTrimFixed endpoints edgeBits side schedule
        (boundBuffers (inputStorage input) storage)
      if buffers.scratch ≠ 0 then .ok (none, buffers.input, buffers.writes)
      else
        let survivorCount := buffers.counts.sum
        if survivorCount > input.survivorCount then
          .error (.gpu "fine fixed trim increased the survivor population")
        else
          .ok (some ⟨buffers.counts, asU32 survivorCount, storage.offsets, buffers.output.arena⟩,
            buffers.input, buffers.writes)

/-- A fixed attempt: an arena unless it was given up, the buffers of the input afterwards,
    and the stores. -/
def trimFineFixedOnce (schedule : Schedule) (input : FineCsrArena) :
    Except SolveError (Option FineCsrArena × FineStorage × List Write) :=
  fixedAttempt endpoints edgeBits side schedule input (prepareFineFixedStorage limits input)

/-- A round with a fixed attempt first. If it was given up, the same input is trimmed
    without gaps. -/
def trimFineRound (schedule : Schedule) (orders : CsrOrders) (input : FineCsrArena) :
    Except SolveError (FineCsrArena × List Write) := do
  match ← trimFineFixedOnce limits endpoints edgeBits side schedule input with
  | (some arena, _, writes) => return (arena, writes)
  | (none, kept, writes) =>
      let (arena, further) ← trimFineCsrOnce limits gib endpoints edgeBits side orders
        ⟨input.counts, input.survivorCount, kept.offsets, kept.arena⟩
      return (arena, writes ++ further)

/-- Count the live edges of the bitmap, which must be as many as expected. -/
def shardedSeedHistogram (schedule : Schedule) (survivorCount : Nat) (edges : Bitmap) :
    Except SolveError (List Nat) :=
  let counts := fineHistogramAlive endpoints edgeBits side schedule edges
    (List.replicate fineBuckets 0)
  if counts.sum ≠ survivorCount then
    .error (.gpu ("sharded fine histogram counted " ++ toString counts.sum ++ ", expected " ++
      toString survivorCount))
  else .ok counts

/-- Allocate the shard of a half of the buckets. -/
def allocateFineSeedShard (counts : List Nat) (half : Nat) :
    Except SolveError (List Nat × FineStorage) := do
  let halfBuckets := fineBuckets / 2
  let shardCounts := (counts.drop (half * halfBuckets)).take halfBuckets
  let offsets ← fineOffsets "fine seed shard exceeds u32 indexing" 0 shardCounts
  let bytes := arenaBytes (offsets.getLastD 0)
  if bytes > limits.maxStorageBufferBindingSize then
    .error (.unsupported ("fine seed shard needs " ++ gib bytes ++ " GiB"))
  else .ok (shardCounts, newStorage offsets halfBuckets bytes)

/-- Fill a shard, and count it by the counts of the host. -/
def scatterFineSeedShard (orders : ShardOrders) (edges : Bitmap) (half : Nat)
    (shard : List Nat × FineStorage) : FineStorage × List Write :=
  let (filled, writes) := fineScatterAliveHalf endpoints edgeBits side (half == 1)
    (orders.seed half) edges shard.2.clearCursors
  ({ filled with cursors := shard.1 }, writes)

/-- Sort the live edges of the bitmap into two shards and trim them without gaps. -/
def buildShardedFineSeedAndTrim (orders : ShardOrders) (survivorCount : Nat) (edges : Bitmap) :
    Except SolveError (FineCsrArena × List Write) := do
  let counts ← shardedSeedHistogram endpoints edgeBits side orders.histogram survivorCount edges
  let lowShard ← allocateFineSeedShard limits gib counts 0
  let highShard ← allocateFineSeedShard limits gib counts 1
  let (low, lowWrites) := scatterFineSeedShard endpoints edgeBits side orders edges 0 lowShard
  let (high, highWrites) := scatterFineSeedShard endpoints edgeBits side orders edges 1 highShard
  let counted := fineTrimCount endpoints edgeBits side (fineBuckets / 2) (orders.count 0)
    (boundBuffers low ⟨[], [], []⟩)
  let counted := fineTrimCount endpoints edgeBits side (fineBuckets / 2) (orders.count 1)
    { counted with input := high }
  let outputSurvivors := counted.counts.sum
  let output ← allocateFineStorage limits gib outputSurvivors counted.counts
  let scattered := fineTrimScatter endpoints edgeBits side (fineBuckets / 2) (orders.scatter 0)
    { counted with input := low, output := output.clearCursors }
  let scattered := fineTrimScatter endpoints edgeBits side (fineBuckets / 2) (orders.scatter 1)
    { scattered with input := high }
  return (⟨counted.counts, asU32 outputSurvivors, output.offsets, scattered.output.arena⟩,
    lowWrites ++ highWrites ++ scattered.writes)

end

end CuckatooMiner.FineRound
