import Mathlib
import CuckatooMiner.LeanRound
import CuckatooMiner.Foundation.BitmapWindows
import CuckatooMiner.Foundation.Reservation

/-!
# Slean rounds

A slean round trims a graph part by part. In the mark phase each part's live edges are
scattered into buckets of nearby nodes, held in four arenas, and a workgroup for each
bucket marks its nodes; the last part stays resident. The trim phase marks and trims
the last part from its resident arenas and then scatters and trims the earlier parts
again. Dead edges are collected in lists of nearby edges, and a workgroup for each
list clears them in the bitmap. An arena or a list that is full counts what it cannot
hold; nothing is trimmed after that, and the round is repeated directly from a copy of
the bitmap.

Kernels are functions of the buffers they read and write. Slots are reserved in the
order of a schedule, which is arbitrary and may differ for each dispatch. Workgroups
own disjoint windows of the bitmaps and are taken in order. Counters are unbounded
here: overflow counters are assumed to stay below two to the thirty-two. A cancelled
round leaves no bitmap that anyone reads and is left out.
-/

namespace CuckatooMiner.Slean

open PackedBits Reservation LeanRound

/-- The uniform parameters of a part, with the capacities computed from them. -/
structure Params where
  edgeBits : Nat
  wordCount : Nat
  chunkBase : Nat
  chunkCount : Nat
  bucketCount : Nat
  capacity : Nat
  deadCapacity : Nat
deriving DecidableEq, Repr

/-- The words of the four arenas, by arena and index. -/
abbrev Arenas := Memory (Nat × Nat)

/-- The words of the dead lists. -/
abbrev DeadScratch := Memory Nat

/-- Set the first words to zero. -/
def clearWords (count : Nat) (memory : Memory Nat) : Memory Nat :=
  ⟨fun index => if index < count then 0 else memory.read index⟩

/-- Set the first words of each arena to zero. -/
def clearArenas (count : Nat) (arenas : Arenas) : Arenas :=
  ⟨fun place => if place.2 < count then 0 else arenas.read place⟩

/-- The number of one bits of a 32-bit word. -/
def countOneBits (value : Nat) : Nat := ((List.range 32).filter value.testBit).length

section

variable (p : Params)

/-- The arena words before the entries. -/
def sleanHeaderWords : Nat := p.bucketCount / 4 + 1

/-- The overflow counter of an arena. -/
def sleanOverflowWord : Nat := p.bucketCount / 4

/-- The buckets of an arena. -/
def sleanShardWidth : Nat := p.bucketCount / 4

/-- The bucket of a node: its leading bits. -/
def sleanBucket (node : Nat) : Nat :=
  let bits := countOneBits (p.bucketCount - 1)
  node >>> (p.edgeBits - bits)

/-- The bitmap words of a bucket. -/
def sleanBucketWords : Nat := p.wordCount / p.bucketCount

/-- The number of dead lists. -/
def sleanDeadBucketCount : Nat := ((p.chunkCount + 31) >>> 5) / sleanBucketWords p

/-- The words before the dead edges. -/
def sleanDeadHeaderWords : Nat := sleanDeadBucketCount p + 1

/-- The overflow counter of the dead lists. -/
def sleanDeadOverflowWord : Nat := sleanDeadBucketCount p

/-- The arena of a bucket. -/
def sleanShard (bucket : Nat) : Nat := min (bucket / sleanShardWidth p) 3

/-- The place of a bucket within its arena. -/
def sleanLocalBucket (bucket : Nat) : Nat := bucket - sleanShard p bucket * sleanShardWidth p

/-- The place of a node within its bucket. -/
def sleanSuffix (node : Nat) : Nat := node &&& (sleanBucketWords p * 32 - 1)

/-- Whether some arena has overflowed. -/
def sleanHasOverflow (arenas : Arenas) : Bool :=
  let word := sleanOverflowWord p
  arenas.read (0, word) != 0 || arenas.read (1, word) != 0
    || arenas.read (2, word) != 0 || arenas.read (3, word) != 0

variable (endpoint : Nat → Nat)

/-- Reserve a slot in the bucket of an edge's node and store the edge. -/
def sleanScatterEdge (arenas : Arenas) (edge : Nat) : Arenas :=
  let bucket := sleanBucket p (endpoint edge)
  let shard := sleanShard p bucket
  let localBucket := sleanLocalBucket p bucket
  let slot := arenas.read (shard, localBucket)
  let arenas := arenas.write (shard, localBucket) (slot + 1)
  if slot < p.capacity then
    arenas.write (shard, sleanHeaderWords p + localBucket * p.capacity + slot) edge
  else
    arenas.write (shard, sleanOverflowWord p)
      (arenas.read (shard, sleanOverflowWord p) + 1)

/-- All edges of a part. -/
def denseEdges : List Nat := (List.range p.chunkCount).map (p.chunkBase + ·)

/-- The live edges of a part. -/
def aliveEdges (edges : Bitmap) : List Nat :=
  let firstWord := p.chunkBase >>> 5
  let chunkWords := (p.chunkCount + 31) >>> 5
  (members firstWord (window edges firstWord chunkWords)).filter fun edge =>
    decide (edge ≥ p.chunkBase ∧ edge - p.chunkBase < p.chunkCount)

/-- Scatter a part: all its edges in the first round, its live edges later. -/
def sleanScatter (schedule : Schedule) (dense : Bool) (edges : Bitmap) (arenas : Arenas) : Arenas :=
  (schedule.order (if dense then denseEdges p else aliveEdges p edges)).foldl
    (sleanScatterEdge p endpoint) arenas

/-- The edges that a bucket holds. -/
def sleanSlots (arenas : Arenas) (bucket : Nat) : List Nat :=
  let shard := sleanShard p bucket
  let localBucket := sleanLocalBucket p bucket
  let count := min (arenas.read (shard, localBucket)) p.capacity
  let start := sleanHeaderWords p + localBucket * p.capacity
  (List.range count).map fun slot => arenas.read (shard, start + slot)

/-- Mark the nodes of some edges in a bucket's local bitmap. -/
def markSlots (slots : List Nat) (seen : Bitmap) : Bitmap :=
  slots.foldl (fun seen edge => put seen (sleanSuffix p (endpoint edge))) seen

/-- Add the marks of every bucket to the node bitmap; words without new marks are
    left as they are. -/
def sleanMarkBuckets (arenas : Arenas) (nodes : Bitmap) : Bitmap :=
  overWindows 0 (sleanBucketWords p) p.bucketCount
    (fun bucket old => List.zipWith (· ||| ·) old
      (markSlots p endpoint (sleanSlots p arenas bucket)
        (List.replicate (sleanBucketWords p) 0#32))) nodes

/-- The edges of a bucket whose complementary node is not marked. -/
def deadSlots (slots : List Nat) (seen : Bitmap) : List Nat :=
  slots.filter fun edge => !test seen (sleanSuffix p (endpoint edge ^^^ 1))

/-- Reserve a slot in the list of a dead edge and store the edge. -/
def sleanReserveDead (dead : DeadScratch) (edge : Nat) : DeadScratch :=
  let localEdge := edge - p.chunkBase
  let deadBucket := localEdge / (sleanBucketWords p * 32)
  let deadSlot := dead.read deadBucket
  let dead := dead.write deadBucket (deadSlot + 1)
  if deadSlot < p.deadCapacity then
    dead.write (sleanDeadHeaderWords p + deadBucket * p.deadCapacity + deadSlot) edge
  else
    dead.write (sleanDeadOverflowWord p) (dead.read (sleanDeadOverflowWord p) + 1)

/-- Collect the dead edges of all buckets. Which edges are dead is settled before the
    first is collected, since the marks do not change any more. -/
def collectDead (schedule : Schedule) (arenas : Arenas) (nodes : Bitmap) (dead : DeadScratch) :
    DeadScratch :=
  (schedule.order ((List.range p.bucketCount).flatMap fun bucket =>
    deadSlots p endpoint (sleanSlots p arenas bucket)
      (window nodes (bucket * sleanBucketWords p) (sleanBucketWords p)))).foldl
    (sleanReserveDead p) dead

/-- Collect the dead edges of an earlier part. -/
def sleanTrimBuckets (schedule : Schedule) (arenas : Arenas) (nodes : Bitmap)
    (dead : DeadScratch) : DeadScratch :=
  if sleanHasOverflow p arenas then dead else collectDead p endpoint schedule arenas nodes dead

/-- Add the marks of the last part and collect its dead edges. -/
def sleanMarkAndTrimFinalPart (schedule : Schedule) (arenas : Arenas) (nodes : Bitmap)
    (dead : DeadScratch) : Bitmap × DeadScratch :=
  if sleanHasOverflow p arenas then (nodes, dead)
  else
    let nodes := overWindows 0 (sleanBucketWords p) p.bucketCount
      (fun bucket seen => markSlots p endpoint (sleanSlots p arenas bucket) seen) nodes
    (nodes, collectDead p endpoint schedule arenas nodes dead)

/-- The edges that a dead list holds. -/
def sleanDeadSlots (dead : DeadScratch) (bucket : Nat) : List Nat :=
  let count := min (dead.read bucket) p.deadCapacity
  let start := sleanDeadHeaderWords p + bucket * p.deadCapacity
  (List.range count).map fun slot => dead.read (start + slot)

/-- Clear the dead edges of a part in the edge bitmap. -/
def sleanApplyDeaths (arenas : Arenas) (dead : DeadScratch) (edges : Bitmap) : Bitmap :=
  if sleanHasOverflow p arenas || dead.read (sleanDeadOverflowWord p) != 0 then edges
  else
    overWindows (p.chunkBase >>> 5) (sleanBucketWords p) (sleanDeadBucketCount p)
      (fun bucket seen => (sleanDeadSlots p dead bucket).foldl
        (fun seen edge => clear seen (edge - p.chunkBase - bucket * sleanBucketWords p * 32)) seen)
      edges

end

/-- How the host lays out the parts and the buckets. The local memory of a workgroup sets the
    number of buckets. A power of two of parts and of buckets divides the graph; buckets span
    whole words, at most as many as the local bitmap has, and parts span whole buckets of edges.
    Nothing is said of the room in a bucket: its capacity may be too small for any edge. -/
structure SleanSizing where
  edgeBits : Nat
  parts : Nat
  localBytes : Nat
  bucketCount : Nat
  capacity : Nat
  deadCapacity : Nat
  edgeBits_le : edgeBits ≤ 32
  parts_power : ∃ bits, parts = 2 ^ bits
  parts_two : 2 ≤ parts
  parts_limit : parts ≤ 2 ^ edgeBits
  bucketCount_eq : bucketCount = 2 ^ edgeBits ⌈/⌉ 32 * 4 ⌈/⌉ localBytes
  buckets_power : ∃ bits, bucketCount = 2 ^ bits
  buckets_four : 4 ≤ bucketCount
  words_positive : 0 < 2 ^ edgeBits ⌈/⌉ 32 / bucketCount
  words_limit : 2 ^ edgeBits ⌈/⌉ 32 / bucketCount ≤ 8192
  parts_whole : 2 ^ edgeBits / parts % (32 * (2 ^ edgeBits ⌈/⌉ 32 / bucketCount)) = 0

/-- The edges of a part. -/
def SleanSizing.partEdges (sizing : SleanSizing) : Nat := 2 ^ sizing.edgeBits ⌈/⌉ sizing.parts

/-- The words of the bitmaps. -/
def SleanSizing.wordCount (sizing : SleanSizing) : Nat := 2 ^ sizing.edgeBits ⌈/⌉ 32

/-- The dead lists of a part. -/
def SleanSizing.deadBucketCount (sizing : SleanSizing) : Nat :=
  max (sizing.partEdges ⌈/⌉ 8 ⌈/⌉ sizing.localBytes) 1

/-- The parameters of a part. -/
def SleanSizing.params (sizing : SleanSizing) (part : Nat) : Params :=
  let base := part * sizing.partEdges
  ⟨sizing.edgeBits, sizing.wordCount, base, min sizing.partEdges (2 ^ sizing.edgeBits - base),
    sizing.bucketCount, sizing.capacity, sizing.deadCapacity⟩

/-- The buffers of a round. -/
structure Buffers where
  edges : Bitmap
  nodes : Bitmap
  backup : Bitmap
  arenas : Arenas
  dead : DeadScratch

/-- The orders of the reservations of a round, by part. -/
structure Orders where
  markScatter : Nat → Schedule
  trimScatter : Nat → Schedule
  deaths : Nat → Schedule

section

variable (sizing : SleanSizing) (endpoint : Nat → Nat) (orders : Orders) (dense : Bool)

/-- Scatter a part and, unless it is the last, mark its nodes. -/
def markPart (buffers : Buffers) (part : Nat) : Buffers :=
  let p := sizing.params part
  let countsWords := sizing.bucketCount / 4
  let arenas := sleanScatter p endpoint (orders.markScatter part) dense buffers.edges
    (clearArenas countsWords buffers.arenas)
  let nodes :=
    if part + 1 = sizing.parts then buffers.nodes
    else sleanMarkBuckets p endpoint arenas buffers.nodes
  { buffers with arenas := arenas, nodes := nodes }

/-- Clear the nodes, the arena headers and the dead header, and mark part by part. -/
def runSleanMarkPhase (buffers : Buffers) : Buffers :=
  let headerWords := sizing.bucketCount / 4 + 1
  let deadHeaderWords := sizing.deadBucketCount + 1
  (List.range sizing.parts).foldl (markPart sizing endpoint orders dense)
    { buffers with
      nodes := List.replicate sizing.wordCount 0#32
      arenas := clearArenas headerWords buffers.arenas
      dead := clearWords deadHeaderWords buffers.dead }

/-- Trim the resident last part. -/
def trimLastPart (buffers : Buffers) : Buffers :=
  let part := sizing.parts - 1
  let p := sizing.params part
  let (nodes, dead) := sleanMarkAndTrimFinalPart p endpoint (orders.deaths part) buffers.arenas
    buffers.nodes (clearWords sizing.deadBucketCount buffers.dead)
  { buffers with
    nodes := nodes
    dead := dead
    edges := sleanApplyDeaths p buffers.arenas dead buffers.edges }

/-- Scatter an earlier part again and trim it. -/
def trimPart (buffers : Buffers) (part : Nat) : Buffers :=
  let p := sizing.params part
  let countsWords := sizing.bucketCount / 4
  let arenas := sleanScatter p endpoint (orders.trimScatter part) dense buffers.edges
    (clearArenas countsWords buffers.arenas)
  let dead := sleanTrimBuckets p endpoint (orders.deaths part) arenas buffers.nodes
    (clearWords sizing.deadBucketCount buffers.dead)
  { buffers with
    arenas := arenas
    dead := dead
    edges := sleanApplyDeaths p arenas dead buffers.edges }

/-- Back the edges up and trim all parts, the last one first. -/
def runSleanTrimPhase (buffers : Buffers) : Buffers :=
  (List.range (sizing.parts - 1)).foldl (trimPart sizing endpoint orders dense)
    (trimLastPart sizing endpoint orders { buffers with backup := buffers.edges })

/-- The sum of two counters, held at the largest word. -/
def saturatingAdd (left right : Nat) : Nat := min (left + right) 4294967295

/-- The overflow counters read back after a round. -/
def overflowReadback (buffers : Buffers) : Nat :=
  let countsWords := sizing.bucketCount / 4
  [buffers.arenas.read (0, countsWords), buffers.arenas.read (1, countsWords),
    buffers.arenas.read (2, countsWords), buffers.arenas.read (3, countsWords),
    buffers.dead.read sizing.deadBucketCount].foldl saturatingAdd 0

/-- Repeat the round directly from the backup if anything overflowed. -/
def finishBucketRound (overflow : Nat) (buffers : Buffers) : Bitmap :=
  if overflow = 0 then buffers.edges
  else leanRound endpoint sizing.edgeBits sizing.wordCount buffers.backup

end

/-- The edge bitmap after a slean round. The endpoints are given by edge and side. The cancel
    flag, which the source reads between the parts, is left out here. -/
def runSleanDenseRound (sizing : SleanSizing) (endpoint : Nat → Nat → Nat) (orders : Orders)
    (round : Nat) (buffers : Buffers) : Bitmap :=
  let node := fun edge => endpoint edge (round &&& 1)
  let dense := decide (round = 0)
  let marked := runSleanMarkPhase sizing node orders dense buffers
  let trimmed := runSleanTrimPhase sizing node orders dense marked
  finishBucketRound sizing node (overflowReadback sizing trimmed) trimmed

end CuckatooMiner.Slean
