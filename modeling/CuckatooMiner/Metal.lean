import Mathlib
import CuckatooMiner.LeanRound
import CuckatooMiner.Solver
import CuckatooMiner.Foundation.BitmapWindows
import CuckatooMiner.Foundation.Reservation

/-!
# Native Metal trimming

Up to three dense rounds work on the bitmap, part by part: the mark phase seeds a part's
live edges into buckets of nodes and marks them; the trim phase takes the parts in
reverse, the last one without seeding it again, collects the dead edges of a part in
lists by edge and clears them. Then the live edges move into arenas of edges by bucket,
and each further round reads one arena and writes the other, sorted by the other side.
The last round writes a bitmap, from which the survivors are read.

One counter counts all edges that found no slot. It is a word of thirty-two bits, which
the host reads after each dense round, after the bitmap was handed over, and after the
last round. The loop over the batches of rounds adds in thirty-two bits as well and wraps
as a release build does; it runs on fuel. Indices into the arenas are assumed to fit.
Slots are reserved in the order of a schedule, one for each dispatch. The endpoint
function takes an edge and a side. A cancelled run is left out.
-/

namespace CuckatooMiner.Metal

open PackedBits Reservation LeanRound Solver

/-- The parameters of the kernels, besides the keys. -/
structure EndpointParams where
  edgeBits : Nat
  side : Nat
  edgeBase : Nat
  edgeCount : Nat
  capacity : Nat
  destinationCapacity : Nat
deriving DecidableEq, Repr

/-- The arenas, each with a buffer of counts. -/
inductive Region
  | seed
  | dead
  | source
  | destination
deriving DecidableEq, Repr

/-- The words of the device. -/
inductive Address
  | count (region : Region) (bucket : Nat)
  | slot (region : Region) (index : Nat)
  | overflow
deriving DecidableEq, Repr

/-- The memory of the device. -/
abbrev Device := Memory Address

/-! ## Kernels -/

section

variable (p : EndpointParams)

/-- How many bits of a node lie below its bucket. -/
def bucketShift : Nat := if p.edgeBits > 18 then 18 else p.edgeBits

/-- The words of a bucket's nodes. -/
def wordsPerBucket : Nat := 1 <<< (bucketShift p - 5)

/-- The place of a node within its bucket. -/
def suffix (node : Nat) : Nat := node &&& ((1 <<< bucketShift p) - 1)

/-- Clear the nodes of the graph. -/
def clearNodes (nodes : Bitmap) : Bitmap :=
  nodes.mapIdx fun gid word => if gid < 1 <<< (p.edgeBits - 5) then 0#32 else word

/-- Clear the first counts of an arena. -/
def clearCounts (region : Region) (count : Nat) (memory : Device) : Device :=
  ⟨fun address =>
    match address with
    | .count other bucket => if other = region ∧ bucket < count then 0 else memory.read address
    | _ => memory.read address⟩

/-- Clear the counts of all buckets. -/
def clearBucketCounts (region : Region) : Device → Device :=
  clearCounts region (1 <<< (p.edgeBits - bucketShift p))

/-- Clear the counts of all dead lists. -/
def clearDeadCounts : Device → Device := clearCounts .dead (max 1 (p.edgeCount >>> 18))

/-- Reserve a slot in a bucket and store a value there. -/
def reserveSlot (region : Region) (capacity : Nat) (memory : Device) (bucket value : Nat) : Device :=
  let slot := memory.read (.count region bucket)
  let memory := memory.write (.count region bucket) (slot + 1)
  if slot < capacity then memory.write (.slot region (bucket * capacity + slot)) value
  else memory.write .overflow (memory.read .overflow + 1)

/-- The values that a bucket holds. -/
def arenaSlots (region : Region) (capacity : Nat) (memory : Device) (bucket : Nat) : List Nat :=
  let count := min (memory.read (.count region bucket)) capacity
  (List.range count).map fun slot => memory.read (.slot region (bucket * capacity + slot))

/-- The live edges of a word of a part. -/
def wordEdges (edges : Bitmap) (gid : Nat) : List Nat :=
  let firstEdge := p.edgeBase + gid * 32
  ((drain 32 (edges.getD (firstEdge >>> 5) 0#32)).map (firstEdge + ·)).filter
    fun edge => edge - p.edgeBase < p.edgeCount

/-- The live edges of a part. -/
def aliveEdges (edges : Bitmap) : List Nat :=
  let wordCount := (p.edgeCount + 31) >>> 5
  (List.range wordCount).flatMap (wordEdges p edges)

variable (endpoint : Nat → Nat → Nat)

/-- Seed the live edges of a part by the buckets of their nodes. What is stored depends
    on the edge and its node. -/
def seedAlive (stored : Nat → Nat → Nat) (schedule : Schedule) (region : Region) (edges : Bitmap)
    (memory : Device) : Device :=
  (schedule.order (aliveEdges p edges)).foldl (fun memory edge =>
    let node := endpoint edge p.side
    reserveSlot region p.capacity memory (node >>> bucketShift p) (stored edge node)) memory

/-- Seed edges. -/
def bucketSeedAliveWords : Schedule → Region → Bitmap → Device → Device :=
  seedAlive p endpoint fun edge _ => edge

/-- Seed nodes. -/
def bucketSeedAliveNodes : Schedule → Region → Bitmap → Device → Device :=
  seedAlive p endpoint fun _ node => node

/-- The local bitmap of the nodes that a bucket's values stand for. -/
def seenNodes (nodeOf : Nat → Nat) (slots : List Nat) : Bitmap :=
  slots.foldl (fun seen value => put seen (suffix p (nodeOf value))) (List.replicate 8192 0#32)

/-- Add the nodes of each bucket to the node bitmap. -/
def markBuckets (nodeOf : Nat → Nat) (region : Region) (buckets : Nat) (memory : Device)
    (nodes : Bitmap) : Bitmap :=
  overWindows 0 (wordsPerBucket p) buckets
    (fun bucket old => List.zipWith (· ||| ·) old
      (seenNodes p nodeOf (arenaSlots region p.capacity memory bucket))) nodes

/-- Mark the nodes of seeded edges. -/
def bucketMark : Region → Nat → Device → Bitmap → Bitmap :=
  markBuckets p fun edge => endpoint edge p.side

/-- Mark seeded nodes. -/
def bucketMarkNodes : Region → Nat → Device → Bitmap → Bitmap := markBuckets p fun node => node

/-- The words of a bucket in the node bitmap. -/
def bucketWindow (nodes : Bitmap) (bucket : Nat) : Bitmap :=
  window nodes (bucket * wordsPerBucket p) (wordsPerBucket p)

/-- Whether the complement of an edge's node is seen in its bucket. -/
def mateSeen (seen : Bitmap) (edge : Nat) : Bool := test seen (suffix p (endpoint edge p.side ^^^ 1))

/-- Add the edges with a marked mate to the survivors. -/
def bucketTrimToBitmap (region : Region) (buckets : Nat) (memory : Device)
    (nodes survivors : Bitmap) : Bitmap :=
  ((List.range buckets).flatMap fun bucket =>
    (arenaSlots region p.capacity memory bucket).filter
      (mateSeen p endpoint (bucketWindow p nodes bucket))).foldl put survivors

/-- Collect the edges without a marked mate in the dead lists. -/
def bucketCollectDead (schedule : Schedule) (buckets : Nat) (memory : Device) (nodes : Bitmap) :
    Device :=
  (schedule.order ((List.range buckets).flatMap fun bucket =>
    (arenaSlots .seed p.capacity memory bucket).filter
      fun edge => !mateSeen p endpoint (bucketWindow p nodes bucket) edge)).foldl
    (fun memory edge =>
      reserveSlot .dead p.destinationCapacity memory ((edge - p.edgeBase) >>> 18) edge) memory

/-- Clear the edges of the dead lists. -/
def bucketApplyDead (lists : Nat) (memory : Device) (edges : Bitmap) : Bitmap :=
  overWindows (p.edgeBase >>> 5) 8192 lists
    (fun list alive => (arenaSlots .dead p.destinationCapacity memory list).foldl
      (fun alive edge => clear alive ((edge - p.edgeBase) &&& ((1 <<< 18) - 1))) alive) edges

/-- Mark and trim each bucket and seed its survivors by their nodes on the other side. -/
def bucketTrimToBucketsFused (schedule : Schedule) (fromArena toArena : Region) (buckets : Nat)
    (memory : Device) : Device :=
  (schedule.order ((List.range buckets).flatMap fun bucket =>
    let slots := arenaSlots fromArena p.capacity memory bucket
    slots.filter (mateSeen p endpoint (seenNodes p (fun edge => endpoint edge p.side) slots)))).foldl
    (fun memory edge =>
      let other := endpoint edge ((p.side ^^^ 1) &&& 1)
      reserveSlot toArena p.destinationCapacity memory (other >>> bucketShift p) edge) memory

end

/-! ## Dense rounds -/

/-- The buffers that outlive a round. -/
structure State where
  memory : Device
  edges : Bitmap
  nodes : Bitmap

/-- The orders of the reservations of each dispatch. -/
structure Orders where
  markSeed : Nat → Nat → Schedule
  trimSeed : Nat → Nat → Schedule
  deaths : Nat → Nat → Schedule
  handOver : Nat → Schedule
  fused : Nat → Schedule

/-- A number truncated to thirty-two bits. -/
def asU32 (value : Nat) : Nat := value % 4294967296

/-- The overflow counter as the host reads it. -/
def overflowCount (memory : Device) : Nat := asU32 (memory.read .overflow)

/-- Reset the overflow counter. -/
def resetOverflow (memory : Device) : Device := memory.write .overflow 0

section

variable (endpoint : Nat → Nat → Nat) (orders : Orders) (edgeBits parts : Nat)

/-- The buckets of nodes. -/
def buckets : Nat := 1 <<< (edgeBits - 18)

/-- The words of a bitmap. -/
def wordCount : Nat := 1 <<< edgeBits / 32

/-- The edges of a part. -/
def partEdges : Nat := 1 <<< edgeBits / parts

/-- The slots of a bucket in a dense round, a multiple of four. -/
def denseCapacity : Nat := partEdges edgeBits parts / buckets edgeBits * 105 / 100 / 4 * 4

/-- The dead lists of a part. -/
def deadBucketCount : Nat := max (partEdges edgeBits parts >>> 18) 1

/-- The slots of a dead list. -/
def deadCapacity : Nat := (1 <<< 18) * 38 / 100 / parts * parts

/-- The parameters of a part in a dense round. -/
def denseParams (round part : Nat) : EndpointParams :=
  let edgeCount := asU32 (partEdges edgeBits parts)
  ⟨edgeBits, round &&& 1, part * edgeCount, edgeCount, denseCapacity edgeBits parts,
    deadCapacity parts⟩

/-- Seed and mark a part. Only the last part is seeded with edges. -/
def denseMark (round : Nat) (state : State) (part : Nat) : State :=
  let p := denseParams edgeBits parts round part
  let memory := clearBucketCounts p .seed state.memory
  if part + 1 = parts then
    let memory := bucketSeedAliveWords p endpoint (orders.markSeed round part) .seed state.edges memory
    { state with
      memory := memory
      nodes := bucketMark p endpoint .seed (buckets edgeBits) memory state.nodes }
  else
    let memory := bucketSeedAliveNodes p endpoint (orders.markSeed round part) .seed state.edges memory
    { state with
      memory := memory
      nodes := bucketMarkNodes p .seed (buckets edgeBits) memory state.nodes }

/-- Trim a part, counted from the last one, whose seeds are still there. -/
def denseTrim (round : Nat) (state : State) (offset : Nat) : State :=
  let part := parts - 1 - offset
  let p := denseParams edgeBits parts round part
  let memory :=
    if offset = 0 then state.memory
    else bucketSeedAliveWords p endpoint (orders.trimSeed round part) .seed state.edges
      (clearBucketCounts p .seed state.memory)
  let memory := bucketCollectDead p endpoint (orders.deaths round part) (buckets edgeBits)
    (clearDeadCounts p memory) state.nodes
  { state with
    memory := memory
    edges := bucketApplyDead p (deadBucketCount edgeBits parts) memory state.edges }

/-- One dense round. The nodes of all parts are marked before any part is trimmed, and the last
    part is trimmed first, while its seeds are still there. -/
def denseRound (state : State) (round : Nat) : State :=
  let p := denseParams edgeBits parts round 0
  let state := { state with
    memory := resetOverflow state.memory
    nodes := clearNodes p state.nodes }
  let state := (List.range parts).foldl (denseMark endpoint orders edgeBits parts round) state
  (List.range parts).foldl (denseTrim endpoint orders edgeBits parts round) state

/-- One dense round, refused if any edge found no slot. -/
def checkedDenseRound (state : State) (round : Nat) : Except SolveError State :=
  let state := denseRound endpoint orders edgeBits parts state round
  let count := overflowCount state.memory
  if count ≠ 0 then
    .error (.searchLimit ("native round " ++ toString (round + 1) ++ " bucket overflowed by " ++
      toString count ++ " edges"))
  else .ok state

/-! ## Arenas of survivors -/

/-- The number of live edges. -/
def aliveCount (edges : Bitmap) : Nat := (edges.map fun word => (ones word).length).sum

/-- The slots of a bucket for some number of live edges, a multiple of four. -/
def hybridCapacity (alive : Nat) : Nat := (alive ⌈/⌉ buckets edgeBits * 115 / 100 + 1024 + 3) / 4 * 4

/-- The parameters of the source arena. -/
def sourceParams (startRound capacity edgeBase : Nat) : EndpointParams :=
  ⟨edgeBits, startRound &&& 1, edgeBase, asU32 (partEdges edgeBits parts), capacity, capacity⟩

/-- The parameters of the destination arena: those of the source on the other side. -/
def emptyPartLike (source : EndpointParams) : EndpointParams :=
  { source with side := source.side ^^^ 1, capacity := source.destinationCapacity }

/-- Seed the source arena with the live edges of all parts. -/
def handOver (startRound capacity : Nat) (edges : Bitmap) (memory : Device) : Device :=
  (List.range parts).foldl (fun memory part =>
    bucketSeedAliveWords
      (sourceParams edgeBits parts startRound capacity (part * asU32 (partEdges edgeBits parts)))
      endpoint (orders.handOver part) .source edges memory)
    (resetOverflow (clearCounts .source (buckets edgeBits) memory))

/-- One round on the arenas. The last one writes the survivors. -/
def hybridRound (source : EndpointParams) (startRound rounds : Nat) (state : State) (round : Nat) :
    State :=
  let even := (round - startRound) % 2 = 0
  let p := if even then source else emptyPartLike source
  let fromArena := if even then .source else .destination
  let toArena := if even then .destination else .source
  if round + 1 = rounds then
    let nodes := bucketMark p endpoint fromArena (buckets edgeBits) state.memory
      (clearNodes p state.nodes)
    { state with
      nodes := nodes
      edges := bucketTrimToBitmap p endpoint fromArena (buckets edgeBits) state.memory nodes
        state.edges }
  else
    { state with
      memory := bucketTrimToBucketsFused p endpoint (orders.fused round) fromArena toArena
        (buckets edgeBits) (clearBucketCounts p toArena state.memory) }

/-- Rounds in batches of sixteen, until all are done. The end of a batch is computed in
    thirty-two bits as in a release build; a debug build stops where the sum wraps. -/
def hybridLoop (source : EndpointParams) (startRound rounds : Nat) : Nat → Nat → State → Option State
  | 0, _, _ => none
  | fuel + 1, batchStart, state =>
      if batchStart < rounds then
        let batchEnd := min (asU32 (batchStart + 16)) rounds
        hybridLoop source startRound rounds fuel batchEnd
          ((List.range' batchStart (batchEnd - batchStart)).foldl
            (hybridRound endpoint orders edgeBits source startRound rounds) state)
      else some state

/-- Continue on arenas from a bitmap. Without a result the fuel has run out. -/
def continueFromBitmap (fuel startRound rounds : Nat) (state : State) :
    Option (Except SolveError (List Nat)) :=
  let capacity := hybridCapacity edgeBits (aliveCount state.edges)
  let memory := handOver endpoint orders edgeBits parts startRound capacity state.edges state.memory
  let count := overflowCount memory
  if count ≠ 0 then
    some (.error (.searchLimit ("hybrid seed overflowed by " ++ toString count ++ " edges")))
  else
    let source := sourceParams edgeBits parts startRound capacity 0
    let survivors := List.replicate (wordCount edgeBits) 0#32
    match hybridLoop endpoint orders edgeBits source startRound rounds fuel startRound
        { state with memory := resetOverflow memory, edges := survivors } with
    | none => none
    | some state =>
        let count := overflowCount state.memory
        if count ≠ 0 then
          some (.error (.searchLimit ("hybrid loop overflowed by " ++ toString count ++ " edges")))
        else some (.ok (members 0 state.edges))

/-- The buffers before the first round: all edges live, anything else arbitrary. -/
def firstState (memory : Device) (contents : Nat → BitVec 32) : State :=
  ⟨memory, List.replicate (wordCount edgeBits) (BitVec.allOnes 32),
    (List.range (wordCount edgeBits)).map contents⟩

/-- Trim all edges of a graph for some rounds. Without a result the fuel has run out. The cancel
    flag and failures of the device are left out here. Arena indices are natural numbers, so
    arenas are assumed to be small enough to be addressed. -/
def trimSurvivors (fuel rounds : Nat) (memory : Device) (contents : Nat → BitVec 32) :
    Option (Except SolveError (List Nat)) :=
  if ¬ (18 ≤ edgeBits ∧ edgeBits ≤ 32) ∨ parts = 0 ∨ ¬ 2 ^ Nat.log2 parts = parts then
    some (.error (.invalidConfig
      "native Metal requires edge_bits 18..=32 and power-of-two parts"))
  else
    let denseRounds := min rounds 3
    match (List.range denseRounds).foldlM (checkedDenseRound endpoint orders edgeBits parts)
        (firstState edgeBits memory contents) with
    | .error error => some (.error error)
    | .ok state =>
        if rounds > denseRounds then
          continueFromBitmap endpoint orders edgeBits parts fuel denseRounds rounds state
        else some (.ok (members 0 state.edges))

end

end CuckatooMiner.Metal
