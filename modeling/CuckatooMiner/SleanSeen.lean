import Mathlib
import CuckatooMiner.SleanLayout
import CuckatooMiner.SleanRound
import CuckatooMiner.Foundation.StridedSweep

/-!
# The workgroup bitmap of slean rounds

A workgroup of the mark, trim and apply kernels works on one bucket in an array of 8192
words, although the words of a bucket follow from the local memory that the host asks
for. This module lists the indices that the kernels of a round form: in the workgroup
bitmap, and in the edge and node bitmaps. They stay inside if and only if the local
memory is below 64 KiB.

The kernels of a round run on the buffers as in the model of slean rounds, here with the
host's sizes, and each step adds the indices that its kernels form. Loops over words are
shared by 256 threads. The place of a dead edge is taken in 32-bit numbers that wrap.
-/

namespace CuckatooMiner.SleanSeen

open PackedBits Reservation LeanRound StridedSweep SleanLayout
open Slean (Params Arenas DeadScratch Buffers Orders InPart Quiet Holds Shape)

/-- The words of the workgroup bitmap. -/
def sleanSeenWords : Nat := 8192

/-- The threads of a workgroup. -/
def workgroupSize : Nat := 256

/-- An index that a kernel forms: in the workgroup bitmap, the node bitmap or the edge
    bitmap. -/
inductive Access
  | seen (index : Nat)
  | nodes (index : Nat)
  | edges (index : Nat)
deriving DecidableEq, Repr

/-- Whether an index is inside its array. -/
def Access.Inside (wordCount : Nat) : Access → Prop
  | .seen index => index < sleanSeenWords
  | .nodes index => index < wordCount
  | .edges index => index < wordCount

instance (wordCount : Nat) : DecidablePred (Access.Inside wordCount)
  | .seen index => inferInstanceAs (Decidable (index < sleanSeenWords))
  | .nodes index => inferInstanceAs (Decidable (index < wordCount))
  | .edges index => inferInstanceAs (Decidable (index < wordCount))

/-! ## The kernels -/

section

variable (p : Params) (endpoint : Nat → Nat)

/-- The words that the threads of a workgroup visit. -/
def bucketWords : List Nat := visits (2 ^ 32) workgroupSize (Slean.sleanBucketWords p)

/-- Copying words of a bitmap into the workgroup bitmap or back. -/
def copyAccesses (bitmap : Nat → Access) (first : Nat) : List Access :=
  (bucketWords p).flatMap fun word => [bitmap (first + word), .seen word]

/-- Marking the nodes of some edges. -/
def markAccesses (slots : List Nat) : List Access :=
  slots.map fun edge => .seen (Slean.sleanSuffix p (endpoint edge) >>> 5)

/-- Looking up the complementary nodes of some edges. -/
def mateAccesses (slots : List Nat) : List Access :=
  slots.map fun edge => .seen (Slean.sleanSuffix p (endpoint edge ^^^ 1) >>> 5)

/-- The indices of `slean_mark_buckets`. A word of the node bitmap is touched only if it
    has new marks. -/
def sleanMarkBucketsAccesses (arenas : Arenas) : List Access :=
  (List.range p.bucketCount).flatMap fun bucket =>
    let words := Slean.sleanBucketWords p
    let slots := Slean.sleanSlots p arenas bucket
    let marked := Slean.markSlots p endpoint slots (List.replicate words 0#32)
    (bucketWords p).map .seen ++ markAccesses p endpoint slots ++
      (bucketWords p).flatMap fun word =>
        .seen word :: if marked.getD word 0#32 = 0#32 then [] else [.nodes (bucket * words + word)]

/-- The indices of `slean_trim_buckets`. -/
def sleanTrimBucketsAccesses (arenas : Arenas) : List Access :=
  if Slean.sleanHasOverflow p arenas then []
  else
    (List.range p.bucketCount).flatMap fun bucket =>
      copyAccesses p .nodes (bucket * Slean.sleanBucketWords p) ++
        mateAccesses p endpoint (Slean.sleanSlots p arenas bucket)

/-- The indices of `slean_mark_and_trim_final_part`. -/
def sleanMarkAndTrimFinalPartAccesses (arenas : Arenas) : List Access :=
  if Slean.sleanHasOverflow p arenas then []
  else
    (List.range p.bucketCount).flatMap fun bucket =>
      let slots := Slean.sleanSlots p arenas bucket
      copyAccesses p .nodes (bucket * Slean.sleanBucketWords p) ++ markAccesses p endpoint slots ++
        copyAccesses p .nodes (bucket * Slean.sleanBucketWords p) ++ mateAccesses p endpoint slots

/-- The place of a dead edge within its list. -/
def localBit (bucket edge : Nat) : BitVec 32 :=
  BitVec.ofNat 32 edge - BitVec.ofNat 32 p.chunkBase -
    BitVec.ofNat 32 (bucket * Slean.sleanBucketWords p * 32)

/-- The indices of `slean_apply_deaths`. -/
def sleanApplyDeathsAccesses (arenas : Arenas) (dead : DeadScratch) : List Access :=
  if Slean.sleanHasOverflow p arenas || dead.read (Slean.sleanDeadOverflowWord p) != 0 then []
  else
    (List.range (Slean.sleanDeadBucketCount p)).flatMap fun bucket =>
      let first := (p.chunkBase >>> 5) + bucket * Slean.sleanBucketWords p
      copyAccesses p .edges first ++
        ((Slean.sleanDeadSlots p dead bucket).map fun edge =>
          .seen (localBit p bucket edge >>> 5).toNat) ++
        copyAccesses p .edges first

end

/-! ## The round -/

/-- The buffers of a round and the indices formed so far. -/
structure Traced where
  buffers : Buffers
  accesses : List Access

section

variable (solver : GpuWgpuSolver) (edgeBits : Nat) (sizing : HostSizing)

/-- The parameters of a part, with the capacities that the kernels compute from them. -/
def partParams (part : Nat) : Params :=
  let u := partUniform solver edgeBits sizing part
  ⟨u.edgeBits.toNat, u.wordCount.toNat, u.chunkBase.toNat, u.chunkCount.toNat,
    (bucketConfigCount u).toNat, (sleanCapacity u).toNat, (sleanDeadCapacity u).toNat⟩

variable (endpoint : Nat → Nat) (orders : Orders) (dense : Bool)

/-- Scatter a part from cleared counts. -/
def scatterPart (schedule : Schedule) (buffers : Buffers) (part : Nat) : Arenas :=
  Slean.sleanScatter (partParams solver edgeBits sizing part) endpoint schedule dense buffers.edges
    (Slean.clearArenas (sizing.bucketCount / 4) buffers.arenas)

/-- Scatter a part and, unless it is the last, mark its nodes. -/
def markPart (traced : Traced) (part : Nat) : Traced :=
  let p := partParams solver edgeBits sizing part
  let arenas := scatterPart solver edgeBits sizing endpoint dense (orders.markScatter part)
    traced.buffers part
  if part + 1 = sizing.parts then { traced with buffers := { traced.buffers with arenas := arenas } }
  else
    ⟨{ traced.buffers with
        arenas := arenas
        nodes := Slean.sleanMarkBuckets p endpoint arenas traced.buffers.nodes },
      traced.accesses ++ sleanMarkBucketsAccesses p endpoint arenas⟩

/-- Clear the nodes, the arena headers and the dead header, and mark part by part. -/
def runSleanMarkPhase (traced : Traced) : Traced :=
  (List.range sizing.parts).foldl (markPart solver edgeBits sizing endpoint orders dense)
    { traced with
      buffers := { traced.buffers with
        nodes := List.replicate (wordCount edgeBits) 0#32
        arenas := Slean.clearArenas (sizing.bucketCount / 4 + 1) traced.buffers.arenas
        dead := Slean.clearWords (sizing.deadBucketCount + 1) traced.buffers.dead } }

/-- Trim the resident last part. -/
def trimLastPart (traced : Traced) : Traced :=
  let part := sizing.parts - 1
  let p := partParams solver edgeBits sizing part
  let arenas := traced.buffers.arenas
  let (nodes, dead) := Slean.sleanMarkAndTrimFinalPart p endpoint (orders.deaths part) arenas
    traced.buffers.nodes (Slean.clearWords sizing.deadBucketCount traced.buffers.dead)
  ⟨{ traced.buffers with
      nodes := nodes
      dead := dead
      edges := Slean.sleanApplyDeaths p arenas dead traced.buffers.edges },
    traced.accesses ++ sleanMarkAndTrimFinalPartAccesses p endpoint arenas ++
      sleanApplyDeathsAccesses p arenas dead⟩

/-- Scatter an earlier part again and trim it. -/
def trimPart (traced : Traced) (part : Nat) : Traced :=
  let p := partParams solver edgeBits sizing part
  let arenas := scatterPart solver edgeBits sizing endpoint dense (orders.trimScatter part)
    traced.buffers part
  let dead := Slean.sleanTrimBuckets p endpoint (orders.deaths part) arenas traced.buffers.nodes
    (Slean.clearWords sizing.deadBucketCount traced.buffers.dead)
  ⟨{ traced.buffers with
      arenas := arenas
      dead := dead
      edges := Slean.sleanApplyDeaths p arenas dead traced.buffers.edges },
    traced.accesses ++ sleanTrimBucketsAccesses p endpoint arenas ++
      sleanApplyDeathsAccesses p arenas dead⟩

/-- Back the edges up and trim all parts, the last one first. -/
def runSleanTrimPhase (traced : Traced) : Traced :=
  (List.range (sizing.parts - 1)).foldl (trimPart solver edgeBits sizing endpoint orders dense)
    (trimLastPart solver edgeBits sizing endpoint orders
      { traced with buffers := { traced.buffers with backup := traced.buffers.edges } })

/-- The indices that the kernels of a round form. -/
def roundAccesses (buffers : Buffers) : List Access :=
  (runSleanTrimPhase solver edgeBits sizing endpoint orders dense
    (runSleanMarkPhase solver edgeBits sizing endpoint orders dense ⟨buffers, []⟩)).accesses

end

/-- Every index of every round is inside its array. It is for every endpoint function, order and
    content of the buffers, so it is about the sizes alone. -/
def SeenInside (solver : GpuWgpuSolver) (edgeBits : Nat) (sizing : HostSizing) : Prop :=
  ∀ (endpoint : Nat → Nat) (orders : Orders) (dense : Bool) (buffers : Buffers),
    (∀ edge, endpoint edge < 2 ^ edgeBits) →
    ∀ access ∈ roundAccesses solver edgeBits sizing endpoint orders dense buffers,
      access.Inside (wordCount edgeBits)

/-! ## The kernels stay inside -/

/-- A bucket has some words, at most as many as the workgroup bitmap, and the buckets
    divide the node bitmap. -/
structure Narrow (p : Params) : Prop where
  words : Slean.sleanBucketWords p ≤ sleanSeenWords
  positive : 0 < Slean.sleanBucketWords p
  even : p.bucketCount * Slean.sleanBucketWords p = p.wordCount

section

variable {p : Params} {endpoint : Nat → Nat}

/-- A visited word is a word of the bucket. -/
theorem bucket_words_inside {word : Nat} (visited : word ∈ bucketWords p) :
    word < Slean.sleanBucketWords p := visits_inside word visited

/-- A word of a bucket is inside the workgroup bitmap. -/
theorem Narrow.seen (narrow : Narrow p) {word : Nat} (visited : word ∈ bucketWords p) :
    (Access.seen word).Inside p.wordCount :=
  Nat.lt_of_lt_of_le (bucket_words_inside visited) narrow.words

/-- A word of a bucket is inside the node bitmap. -/
theorem Narrow.node_word (narrow : Narrow p) {bucket word : Nat} (inside : bucket < p.bucketCount)
    (visited : word ∈ bucketWords p) : bucket * Slean.sleanBucketWords p + word < p.wordCount := by
  have before := bucket_words_inside visited
  have rows : (bucket + 1) * Slean.sleanBucketWords p ≤ p.wordCount := by
    rw [← narrow.even]
    exact Nat.mul_le_mul_right _ inside
  rw [Nat.succ_mul] at rows
  omega

/-- Copying stays inside as long as the words of the other bitmap do. -/
theorem Narrow.copy (narrow : Narrow p) (bitmap : Nat → Access) (first : Nat)
    (inside : ∀ word ∈ bucketWords p, (bitmap (first + word)).Inside p.wordCount) :
    ∀ access ∈ copyAccesses p bitmap first, access.Inside p.wordCount := by
  intro access formed
  obtain ⟨word, visited, here⟩ := List.mem_flatMap.mp formed
  rcases List.mem_pair.mp here with rfl | rfl
  · exact inside word visited
  · exact narrow.seen visited

/-- A place in a bucket is inside the workgroup bitmap, whatever the node. -/
theorem Narrow.suffix (narrow : Narrow p) (node : Nat) :
    Slean.sleanSuffix p node >>> 5 < sleanSeenWords := by
  have positive := narrow.positive
  have words := narrow.words
  have masked : Slean.sleanSuffix p node ≤ Slean.sleanBucketWords p * 32 - 1 := Nat.and_le_right
  rw [Nat.shiftRight_eq_div_pow, Nat.div_lt_iff_lt_mul (by decide)]
  show _ < sleanSeenWords * 32
  omega

/-- Marking stays inside. -/
theorem Narrow.mark (narrow : Narrow p) (slots : List Nat) :
    ∀ access ∈ markAccesses p endpoint slots, access.Inside p.wordCount := by
  intro access formed
  obtain ⟨edge, _, rfl⟩ := List.mem_map.mp formed
  exact narrow.suffix (endpoint edge)

/-- Looking up complementary nodes stays inside. -/
theorem Narrow.mate (narrow : Narrow p) (slots : List Nat) :
    ∀ access ∈ mateAccesses p endpoint slots, access.Inside p.wordCount := by
  intro access formed
  obtain ⟨edge, _, rfl⟩ := List.mem_map.mp formed
  exact narrow.suffix (endpoint edge ^^^ 1)

/-- The mark kernel stays inside. -/
theorem Narrow.mark_buckets (narrow : Narrow p) (arenas : Arenas) :
    ∀ access ∈ sleanMarkBucketsAccesses p endpoint arenas, access.Inside p.wordCount := by
  intro access formed
  obtain ⟨bucket, inside, here⟩ := List.mem_flatMap.mp formed
  rw [List.mem_range] at inside
  simp only [List.mem_append] at here
  rcases here with (cleared | marked) | merged
  · obtain ⟨word, visited, rfl⟩ := List.mem_map.mp cleared
    exact narrow.seen visited
  · exact narrow.mark _ access marked
  · obtain ⟨word, visited, here⟩ := List.mem_flatMap.mp merged
    rcases List.mem_cons.mp here with rfl | stored
    · exact narrow.seen visited
    · split at stored
      · cases stored
      · obtain rfl := List.mem_singleton.mp stored
        exact narrow.node_word inside visited

/-- The trim kernel of an earlier part stays inside. -/
theorem Narrow.trim_buckets (narrow : Narrow p) (arenas : Arenas) :
    ∀ access ∈ sleanTrimBucketsAccesses p endpoint arenas, access.Inside p.wordCount := by
  intro access formed
  rw [sleanTrimBucketsAccesses] at formed
  split at formed
  · cases formed
  · obtain ⟨bucket, inside, here⟩ := List.mem_flatMap.mp formed
    rw [List.mem_range] at inside
    rcases List.mem_append.mp here with copied | mate
    · exact narrow.copy .nodes _ (fun word visited => narrow.node_word inside visited) access copied
    · exact narrow.mate _ access mate

/-- The kernel of the last part stays inside. -/
theorem Narrow.final_part (narrow : Narrow p) (arenas : Arenas) :
    ∀ access ∈ sleanMarkAndTrimFinalPartAccesses p endpoint arenas,
      access.Inside p.wordCount := by
  intro access formed
  rw [sleanMarkAndTrimFinalPartAccesses] at formed
  split at formed
  · cases formed
  · obtain ⟨bucket, inside, here⟩ := List.mem_flatMap.mp formed
    rw [List.mem_range] at inside
    have copies := narrow.copy .nodes (bucket * Slean.sleanBucketWords p)
      (fun word visited => narrow.node_word inside visited) access
    simp only [List.mem_append] at here
    rcases here with ((copied | marked) | copied) | mate
    · exact copies copied
    · exact narrow.mark _ access marked
    · exact copies copied
    · exact narrow.mate _ access mate

/-- The arenas hold only edges of a part, each in the bucket of its node. -/
def Resident (p : Params) (endpoint : Nat → Nat) (arenas : Arenas) : Prop :=
  ∃ live, (∀ edge, live edge → InPart p edge) ∧ Holds p endpoint arenas live

/-- The place of an edge of a part in its dead list. -/
theorem local_bit_toNat (shape : Shape p) (small : p.edgeBits ≤ 32) (bucket edge : Nat)
    (in_part : InPart p edge) (here : (edge - p.chunkBase) / Slean.bucketNodes p = bucket) :
    (localBit p bucket edge).toNat = (edge - p.chunkBase) % Slean.bucketNodes p := by
  obtain ⟨after, before⟩ := in_part
  have inside := shape.inside
  have all_edges : 2 ^ p.edgeBits ≤ 2 ^ 32 := Nat.pow_le_pow_right (by decide) small
  have start := Nat.div_mul_le_self (edge - p.chunkBase) (Slean.bucketNodes p)
  have rest := @Nat.mod_eq_sub_div_mul (edge - p.chunkBase) (Slean.bucketNodes p)
  rw [here] at start rest
  have value : ∀ number < 2 ^ 32, (BitVec.ofNat 32 number).toNat = number := by
    intro number bound
    exact (BitVec.toNat_ofNat ..).trans (Nat.mod_eq_of_lt bound)
  have offset : (BitVec.ofNat 32 edge - BitVec.ofNat 32 p.chunkBase).toNat = edge - p.chunkBase := by
    rw [BitVec.toNat_sub_of_le, value edge (by omega), value p.chunkBase (by omega)]
    rwa [BitVec.le_def, value edge (by omega), value p.chunkBase (by omega)]
  rw [localBit, Nat.mul_assoc, ← Slean.bucketNodes, BitVec.toNat_sub_of_le, offset,
    value _ (by omega), rest]
  rwa [BitVec.le_def, offset, value _ (by omega)]

/-- The apply kernel stays inside, after the dead edges of a part were collected. -/
theorem Narrow.apply_deaths (narrow : Narrow p) (shape : Shape p) (small : p.edgeBits ≤ 32)
    (inGraph : ∀ edge, endpoint edge < 2 ^ p.edgeBits) (schedule : Schedule) (arenas : Arenas)
    (resident : Resident p endpoint arenas) (nodes : Bitmap) (before : DeadScratch)
    (cleared : ∀ list < Slean.sleanDeadBucketCount p, before.read list = 0) :
    ∀ access ∈ sleanApplyDeathsAccesses p arenas
      (Slean.collectDead p endpoint schedule arenas nodes before), access.Inside p.wordCount := by
  obtain ⟨live, in_part, holds⟩ := resident
  intro access formed
  rw [sleanApplyDeathsAccesses] at formed
  split at formed
  · cases formed
  · rename_i quiet
    have unmoved := (Bool.or_eq_false_iff.mp (Bool.eq_false_iff.mpr quiet)).2
    rw [bne_eq_false_iff_eq] at unmoved
    obtain ⟨_, lists⟩ := Slean.collect_dead_spec shape inGraph schedule arenas live in_part holds
      nodes before cleared unmoved
    obtain ⟨bucket, inside, here⟩ := List.mem_flatMap.mp formed
    rw [List.mem_range] at inside
    have copies := narrow.copy .edges ((p.chunkBase >>> 5) + bucket * Slean.sleanBucketWords p) (by
      intro word visited
      show _ + word < p.wordCount
      have before_end := bucket_words_inside visited
      have fits := Slean.part_words_inside shape
      have rows : (bucket + 1) * Slean.sleanBucketWords p ≤
          Slean.sleanDeadBucketCount p * Slean.sleanBucketWords p := Nat.mul_le_mul_right _ inside
      rw [Nat.succ_mul] at rows
      omega) access
    simp only [List.mem_append] at here
    rcases here with (copied | placed) | copied
    · exact copies copied
    · obtain ⟨edge, listed, rfl⟩ := List.mem_map.mp placed
      obtain ⟨⟨alive, _⟩, in_list⟩ := (lists bucket inside edge).mp listed
      show (localBit p bucket edge >>> 5).toNat < sleanSeenWords
      have words := narrow.words
      have bound := Nat.mod_lt (edge - p.chunkBase) shape.positive
      rw [BitVec.toNat_ushiftRight, local_bit_toNat shape small bucket edge (in_part edge alive)
        in_list, Nat.shiftRight_eq_div_pow, Nat.div_lt_iff_lt_mul (by decide)]
      refine Nat.lt_of_lt_of_le bound ?_
      rw [Slean.bucketNodes]
      exact Nat.mul_le_mul_right 32 words
    · exact copies copied

/-- Without dead lists the apply kernel forms no index. -/
theorem apply_without_lists (arenas : Arenas) (dead : DeadScratch)
    (none_left : Slean.sleanDeadBucketCount p = 0) : sleanApplyDeathsAccesses p arenas dead = [] := by
  rw [sleanApplyDeathsAccesses, none_left]
  split <;> rfl

end

/-! ## The sizes of a round -/

section

variable {solver : GpuWgpuSolver} {edgeBits : Nat} {sizing : HostSizing} {buckets parts : Nat}

/-- The local memory is below 64 KiB if and only if the words of a bucket fit the
    workgroup bitmap. -/
theorem local_bytes_lt_iff (sized : Sized solver edgeBits sizing buckets parts)
    (range : 24 ≤ edgeBits ∧ edgeBits ≤ 32) :
    localBytes solver edgeBits < 65536 ↔ edgeBits - 5 - buckets ≤ 13 := by
  obtain ⟨low, high⟩ := range
  have most := sized.buckets_le_iff (by omega) (edgeBits - 19) (by omega)
  rw [show edgeBits - 3 - (edgeBits - 19) = 16 by omega] at most
  omega

/-- The words of a bucket, from the parameters of a part. -/
theorem part_bucket_words (sized : Sized solver edgeBits sizing buckets parts)
    (range : 24 ≤ edgeBits ∧ edgeBits ≤ 32) (part : Nat) (inside : part < sizing.parts) :
    Slean.sleanBucketWords (partParams solver edgeBits sizing part) =
      2 ^ (edgeBits - 5 - buckets) := by
  have few := sized.few
  have reads := sized.reads range part inside
  simp only [Slean.sleanBucketWords, partParams]
  rw [reads.words, reads.bucket_count, Nat.pow_div (by omega) (by decide)]

/-- The words of a part. -/
theorem part_word_count (sized : Sized solver edgeBits sizing buckets parts)
    (range : 24 ≤ edgeBits ∧ edgeBits ≤ 32) (part : Nat) (inside : part < sizing.parts) :
    (partParams solver edgeBits sizing part).wordCount = wordCount edgeBits := by
  rw [word_count_eq edgeBits (by omega)]
  exact (sized.reads range part inside).words

/-- The buckets of a part. -/
theorem part_bucket_count (sized : Sized solver edgeBits sizing buckets parts)
    (range : 24 ≤ edgeBits ∧ edgeBits ≤ 32) (part : Nat) (inside : part < sizing.parts) :
    (partParams solver edgeBits sizing part).bucketCount = 2 ^ buckets :=
  (sized.reads range part inside).bucket_count

/-- Below 64 KiB of local memory the buckets fit the workgroup bitmap. -/
theorem part_narrow (sized : Sized solver edgeBits sizing buckets parts)
    (range : 24 ≤ edgeBits ∧ edgeBits ≤ 32) (small : localBytes solver edgeBits < 65536)
    (part : Nat) (inside : part < sizing.parts) :
    Narrow (partParams solver edgeBits sizing part) := by
  have few := sized.few
  rw [local_bytes_lt_iff sized range] at small
  have words := part_bucket_words sized range part inside
  refine ⟨?_, ?_, ?_⟩
  · rw [words]
    exact Nat.pow_le_pow_right (by decide) small
  · rw [words]
    exact Nat.two_pow_pos _
  · rw [words, part_bucket_count sized range part inside, part_word_count sized range part inside,
      word_count_eq edgeBits (by omega), ← pow_add]
    congr 1
    omega

/-- The dead lists of a part are those that the kernels count. -/
theorem part_dead_lists (sized : Sized solver edgeBits sizing buckets parts)
    (range : 24 ≤ edgeBits ∧ edgeBits ≤ 32) (part : Nat) (inside : part < sizing.parts) :
    Slean.sleanDeadBucketCount (partParams solver edgeBits sizing part) =
      (sleanDeadBucketCount (partUniform solver edgeBits sizing part)).toNat := by
  have two := sized.two
  have reads := sized.reads range part inside
  rw [reads.dead_quotient sized.few range.1 (by omega), Slean.sleanDeadBucketCount,
    part_bucket_words sized range part inside, Nat.shiftRight_eq_div_pow]
  simp only [partParams, reads.count]

/-- A part that is smaller than a bucket has no dead list. -/
theorem part_without_lists (sized : Sized solver edgeBits sizing buckets parts)
    (range : 24 ≤ edgeBits ∧ edgeBits ≤ 32) (more : buckets < parts) (part : Nat)
    (inside : part < sizing.parts) :
    Slean.sleanDeadBucketCount (partParams solver edgeBits sizing part) = 0 := by
  have two := sized.two
  rw [part_dead_lists sized range part inside]
  exact (sized.reads range part inside).no_dead_lists sized.few range.1 (by omega) more

section

variable (sized : Sized solver edgeBits sizing buckets parts)

include sized

/-- The number of parts is a power of two. -/
theorem round_parts_power : ∃ bits, sizing.parts = 2 ^ bits := ⟨parts, sized.part_count⟩

/-- There are several parts. -/
theorem round_parts_two : 2 ≤ sizing.parts := by
  have two : 2 ^ 1 ≤ 2 ^ parts := Nat.pow_le_pow_right (by decide) sized.two
  rwa [← sized.part_count] at two

/-- There are no more parts than edges. -/
theorem round_parts_limit : sizing.parts ≤ 2 ^ edgeBits := by
  rw [sized.part_count]
  exact Nat.pow_le_pow_right (by decide) sized.most

/-- The bucket count is that of the bytes of a bitmap. -/
theorem round_bucket_count :
    sizing.bucketCount = 2 ^ edgeBits ⌈/⌉ 32 * 4 ⌈/⌉ localBytes solver edgeBits := by
  rw [sized.bucket_number, ← sized.bucket_count, hostBucketCount, bitmapBytes, wordCount,
    edge_count_eq]

/-- The bucket count is a power of two. -/
theorem round_buckets_power : ∃ bits, sizing.bucketCount = 2 ^ bits :=
  ⟨buckets, sized.bucket_number⟩

/-- There are at least four buckets. -/
theorem round_buckets_four (range : 24 ≤ edgeBits ∧ edgeBits ≤ 32)
    (small : localBytes solver edgeBits < 65536) : 4 ≤ sizing.bucketCount := by
  rw [local_bytes_lt_iff sized range] at small
  have four : 2 ^ 2 ≤ 2 ^ buckets := Nat.pow_le_pow_right (by decide) (by omega)
  rwa [← sized.bucket_number] at four

/-- Buckets have words. -/
theorem round_words_positive (range : 24 ≤ edgeBits ∧ edgeBits ≤ 32) :
    0 < 2 ^ edgeBits ⌈/⌉ 32 / sizing.bucketCount := by
  have few := sized.few
  rw [sized.bucket_number, ← edge_count_eq]
  change 0 < wordCount edgeBits / _
  rw [word_count_eq edgeBits (by omega), Nat.pow_div (by omega) (by decide)]
  exact Nat.two_pow_pos _

/-- Below 64 KiB of local memory the words of a bucket fit a bitmap of local memory. -/
theorem round_words_limit (range : 24 ≤ edgeBits ∧ edgeBits ≤ 32)
    (small : localBytes solver edgeBits < 65536) :
    2 ^ edgeBits ⌈/⌉ 32 / sizing.bucketCount ≤ 8192 := by
  have few := sized.few
  rw [local_bytes_lt_iff sized range] at small
  rw [sized.bucket_number, ← edge_count_eq]
  change wordCount edgeBits / _ ≤ _
  rw [word_count_eq edgeBits (by omega), Nat.pow_div (by omega) (by decide)]
  exact Nat.pow_le_pow_right (by decide) small

/-- Parts that are no smaller than buckets have whole buckets. -/
theorem round_parts_whole (range : 24 ≤ edgeBits ∧ edgeBits ≤ 32) (fewer : parts ≤ buckets) :
    2 ^ edgeBits / sizing.parts % (32 * (2 ^ edgeBits ⌈/⌉ 32 / sizing.bucketCount)) = 0 := by
  have few := sized.few
  rw [sized.part_count, sized.bucket_number, ← edge_count_eq]
  change edgeCount edgeBits / _ % (32 * (wordCount edgeBits / _)) = 0
  rw [word_count_eq edgeBits (by omega), edge_count_eq, Nat.pow_div sized.most (by decide),
    Nat.pow_div (by omega) (by decide), show 32 = 2 ^ 5 from rfl, ← pow_add]
  exact Nat.mod_eq_zero_of_dvd (Nat.pow_dvd_pow 2 (by omega))

end

/-- Graphs have at most thirty-two bits. -/
theorem round_edge_bits (range : 24 ≤ edgeBits ∧ edgeBits ≤ 32) : edgeBits ≤ 32 := range.2

/-- Below 64 KiB of local memory the host's sizes are those of a slean round, if no part
    is smaller than a bucket. -/
def roundSizing (sized : Sized solver edgeBits sizing buckets parts)
    (range : 24 ≤ edgeBits ∧ edgeBits ≤ 32) (small : localBytes solver edgeBits < 65536)
    (fewer : parts ≤ buckets) : Slean.SleanSizing where
  edgeBits := edgeBits
  parts := sizing.parts
  localBytes := localBytes solver edgeBits
  bucketCount := sizing.bucketCount
  capacity := sizing.capacity
  deadCapacity := hostDeadCapacity sizing.partEdges sizing.deadBucketCount
  edgeBits_le := round_edge_bits range
  parts_power := round_parts_power sized
  parts_two := round_parts_two sized
  parts_limit := round_parts_limit sized
  bucketCount_eq := round_bucket_count sized
  buckets_power := round_buckets_power sized
  buckets_four := round_buckets_four sized range small
  words_positive := round_words_positive sized range
  words_limit := round_words_limit sized range small
  parts_whole := round_parts_whole sized range fewer

/-- The kernels' parameters of a part are those of the slean round. -/
theorem part_params_eq (sized : Sized solver edgeBits sizing buckets parts)
    (range : 24 ≤ edgeBits ∧ edgeBits ≤ 32) (small : localBytes solver edgeBits < 65536)
    (fewer : parts ≤ buckets) (part : Nat) (inside : part < sizing.parts) :
    partParams solver edgeBits sizing part =
      (roundSizing sized range small fewer).params part := by
  have narrow := (local_bytes_lt_iff sized range).mp small
  have reads := sized.reads range part inside
  have agrees := sized.part_agrees range (by omega) (by omega) fewer part inside
  have edges := sized.part_edges
  have inside_power := inside
  rw [sized.part_count] at inside_power
  have rows := Nat.mul_le_mul_right (2 ^ (edgeBits - parts)) inside_power
  rw [Nat.succ_mul, sized.whole] at rows
  have part_edges : (roundSizing sized range small fewer).partEdges = 2 ^ (edgeBits - parts) := by
    simp only [Slean.SleanSizing.partEdges, roundSizing]
    rw [sized.part_count]
    exact Slean.ceil_div_power edgeBits parts sized.most
  simp only [partParams, Slean.SleanSizing.params, part_edges]
  rw [Params.mk.injEq]
  refine ⟨reads.edge_bits, ?_, reads.base, ?_, ?_, agrees.capacity, agrees.dead_capacity⟩
  · rw [reads.words, ← word_count_eq edgeBits (by omega), wordCount, edge_count_eq]
    rfl
  · rw [reads.count]
    exact (Nat.min_eq_left (by simp only [roundSizing]; omega)).symm
  · rw [reads.bucket_count, ← sized.bucket_number]
    rfl

/-- Below 64 KiB of local memory a part that is not smaller than a bucket has the shape
    that the kernels rely on. -/
theorem part_shape (sized : Sized solver edgeBits sizing buckets parts)
    (range : 24 ≤ edgeBits ∧ edgeBits ≤ 32) (small : localBytes solver edgeBits < 65536)
    (fewer : parts ≤ buckets) (part : Nat) (inside : part < sizing.parts) :
    Shape (partParams solver edgeBits sizing part) := by
  rw [part_params_eq sized range small fewer part inside]
  exact (roundSizing sized range small fewer).shape part inside

/-! ## The round stays inside -/

section

variable {endpoint : Nat → Nat} {orders : Orders} {dense : Bool}

/-- Without overflow a part that has been scattered is resident. -/
theorem scatter_part_resident (sized : Sized solver edgeBits sizing buckets parts)
    (range : 24 ≤ edgeBits ∧ edgeBits ≤ 32) (small : localBytes solver edgeBits < 65536)
    (fewer : parts ≤ buckets) (inGraph : ∀ edge, endpoint edge < 2 ^ edgeBits)
    (schedule : Schedule) (buffers : Buffers) (part : Nat) (inside : part < sizing.parts)
    (quiet : Quiet (partParams solver edgeBits sizing part)
      (scatterPart solver edgeBits sizing endpoint dense schedule buffers part)) :
    Resident (partParams solver edgeBits sizing part) endpoint
      (scatterPart solver edgeBits sizing endpoint dense schedule buffers part) := by
  have shape := part_shape sized range small fewer part inside
  have nodes : (partParams solver edgeBits sizing part).edgeBits = edgeBits :=
    (sized.reads range part inside).edge_bits
  have cleared : ∀ shard, ∀ place < Slean.sleanShardWidth (partParams solver edgeBits sizing part),
      (Slean.clearArenas (sizing.bucketCount / 4) buffers.arenas).read (shard, place) = 0 := by
    intro shard place before
    rw [Slean.sleanShardWidth, part_bucket_count sized range part inside, ← sized.bucket_number]
      at before
    exact if_pos before
  obtain ⟨_, holds⟩ := Slean.slean_scatter_spec shape (by rwa [nodes]) schedule dense buffers.edges _
    cleared quiet
  exact ⟨_, fun _ taken => taken.1, holds⟩

/-- Applying the deaths of a part stays inside, if the part is resident unless an arena
    has overflowed. -/
theorem apply_part_inside (sized : Sized solver edgeBits sizing buckets parts)
    (range : 24 ≤ edgeBits ∧ edgeBits ≤ 32) (small : localBytes solver edgeBits < 65536)
    (inGraph : ∀ edge, endpoint edge < 2 ^ edgeBits) (schedule : Schedule) (part : Nat)
    (inside : part < sizing.parts) (arenas : Arenas)
    (resident : parts ≤ buckets → Quiet (partParams solver edgeBits sizing part) arenas →
      Resident (partParams solver edgeBits sizing part) endpoint arenas)
    (nodes : Bitmap) (dead : DeadScratch) :
    ∀ access ∈ sleanApplyDeathsAccesses (partParams solver edgeBits sizing part) arenas
      (Slean.sleanTrimBuckets (partParams solver edgeBits sizing part) endpoint schedule arenas
        nodes (Slean.clearWords sizing.deadBucketCount dead)), access.Inside (wordCount edgeBits) := by
  have narrow := part_narrow sized range small part inside
  rw [← part_word_count sized range part inside]
  rcases Nat.lt_or_ge buckets parts with more | fewer
  · rw [apply_without_lists _ _ (part_without_lists sized range more part inside)]
    exact fun access member => absurd member List.not_mem_nil
  · rw [Slean.sleanTrimBuckets]
    split
    · rename_i overflowed
      rw [sleanApplyDeathsAccesses, overflowed]
      exact fun access member => absurd member List.not_mem_nil
    · rename_i clean
      have quiet := (Slean.has_overflow_eq_false _ _).mp (Bool.eq_false_iff.mpr clean)
      have nodes_eq : (partParams solver edgeBits sizing part).edgeBits = edgeBits :=
        (sized.reads range part inside).edge_bits
      have two := sized.two
      refine narrow.apply_deaths (part_shape sized range small fewer part inside)
        (by rw [nodes_eq]; exact range.2) (by rwa [nodes_eq]) schedule arenas
        (resident fewer quiet) nodes _ ?_
      intro list before
      rw [part_dead_lists sized range part inside,
        (sized.reads range part inside).dead_lists sized.few range.1 (by omega) fewer,
        ← sized.host_dead_lists range.1 fewer] at before
      exact if_pos before

/-- All indices formed so far are inside. -/
def AllInside (edgeBits : Nat) (traced : Traced) : Prop :=
  ∀ access ∈ traced.accesses, access.Inside (wordCount edgeBits)

/-- Marking one more part stays inside. -/
theorem mark_part_inside (sized : Sized solver edgeBits sizing buckets parts)
    (range : 24 ≤ edgeBits ∧ edgeBits ≤ 32) (small : localBytes solver edgeBits < 65536)
    (traced : Traced) (part : Nat) (inside : part < sizing.parts)
    (before : AllInside edgeBits traced) :
    AllInside edgeBits (markPart solver edgeBits sizing endpoint orders dense traced part) := by
  have narrow := part_narrow sized range small part inside
  intro access formed
  simp only [markPart] at formed
  split at formed
  · exact before access formed
  · rcases List.mem_append.mp formed with earlier | marked
    · exact before access earlier
    · rw [← part_word_count sized range part inside]
      exact narrow.mark_buckets _ access marked

/-- After a part has been scattered and marked, it is resident. -/
theorem mark_part_arenas (traced : Traced) (part : Nat) :
    (markPart solver edgeBits sizing endpoint orders dense traced part).buffers.arenas =
      scatterPart solver edgeBits sizing endpoint dense (orders.markScatter part) traced.buffers
        part := by
  simp only [markPart]
  split <;> rfl

/-- A step that stays inside on every part stays inside over the first parts. -/
theorem run_inside {step : Traced → Nat → Traced}
    (keeps : ∀ (traced : Traced) (part : Nat), part < sizing.parts → AllInside edgeBits traced →
      AllInside edgeBits (step traced part))
    (count : Nat) (within : count ≤ sizing.parts) (traced : Traced)
    (before : AllInside edgeBits traced) :
    AllInside edgeBits ((List.range count).foldl step traced) := by
  induction count with
  | zero => exact before
  | succ count ih =>
    rw [List.range_succ, List.foldl_append]
    exact keeps _ count within (ih (Nat.le_of_succ_le within))

/-- Before a round nothing has been formed. -/
theorem nothing_formed (buffers : Buffers) : AllInside edgeBits ⟨buffers, []⟩ :=
  fun _ member => absurd member List.not_mem_nil

/-- Marking all parts stays inside, and the last one is resident afterwards. -/
theorem mark_phase_inside (sized : Sized solver edgeBits sizing buckets parts)
    (range : 24 ≤ edgeBits ∧ edgeBits ≤ 32) (small : localBytes solver edgeBits < 65536)
    (inGraph : ∀ edge, endpoint edge < 2 ^ edgeBits) (buffers : Buffers) :
    AllInside edgeBits (runSleanMarkPhase solver edgeBits sizing endpoint orders dense ⟨buffers, []⟩) ∧
      (parts ≤ buckets →
        Quiet (partParams solver edgeBits sizing (sizing.parts - 1))
          (runSleanMarkPhase solver edgeBits sizing endpoint orders dense ⟨buffers, []⟩).buffers.arenas →
        Resident (partParams solver edgeBits sizing (sizing.parts - 1)) endpoint
          (runSleanMarkPhase solver edgeBits sizing endpoint orders dense
            ⟨buffers, []⟩).buffers.arenas) := by
  refine ⟨run_inside (fun traced part inside => mark_part_inside sized range small traced part inside)
    sizing.parts (Nat.le_refl _) _ (nothing_formed buffers), ?_⟩
  intro fewer quiet
  have some_parts : 0 < sizing.parts := by
    rw [sized.part_count]
    exact Nat.two_pow_pos parts
  obtain ⟨last, parts_eq⟩ : ∃ last, sizing.parts = last + 1 := ⟨sizing.parts - 1, by omega⟩
  rw [runSleanMarkPhase, parts_eq, List.range_succ, List.foldl_append, Nat.add_sub_cancel] at quiet ⊢
  rw [List.foldl_cons, List.foldl_nil, mark_part_arenas] at quiet ⊢
  exact scatter_part_resident sized range small fewer inGraph _ _ last (by omega) quiet

/-- Trimming the last part stays inside. -/
theorem trim_last_part_inside (sized : Sized solver edgeBits sizing buckets parts)
    (range : 24 ≤ edgeBits ∧ edgeBits ≤ 32) (small : localBytes solver edgeBits < 65536)
    (inGraph : ∀ edge, endpoint edge < 2 ^ edgeBits) (traced : Traced)
    (resident : parts ≤ buckets →
      Quiet (partParams solver edgeBits sizing (sizing.parts - 1)) traced.buffers.arenas →
      Resident (partParams solver edgeBits sizing (sizing.parts - 1)) endpoint traced.buffers.arenas)
    (before : AllInside edgeBits traced) :
    AllInside edgeBits (trimLastPart solver edgeBits sizing endpoint orders traced) := by
  have inside : sizing.parts - 1 < sizing.parts := by
    have some_parts := Nat.two_pow_pos parts
    rw [← sized.part_count] at some_parts
    omega
  have narrow := part_narrow sized range small _ inside
  intro access formed
  simp only [trimLastPart] at formed
  simp only [List.mem_append] at formed
  rcases formed with (earlier | trimmed) | applied
  · exact before access earlier
  · rw [← part_word_count sized range _ inside]
    exact narrow.final_part _ access trimmed
  · have after := apply_part_inside sized range small inGraph (orders.deaths (sizing.parts - 1)) _
      inside traced.buffers.arenas resident
    rw [Slean.sleanMarkAndTrimFinalPart] at applied
    split at applied
    · rename_i overflowed
      rw [sleanApplyDeathsAccesses, overflowed] at applied
      cases applied
    · rename_i clean
      have collected := fun nodes => after nodes traced.buffers.dead access
      simp only [Slean.sleanTrimBuckets, clean] at collected
      exact collected _ applied

/-- Trimming one more part stays inside. -/
theorem trim_part_inside (sized : Sized solver edgeBits sizing buckets parts)
    (range : 24 ≤ edgeBits ∧ edgeBits ≤ 32) (small : localBytes solver edgeBits < 65536)
    (inGraph : ∀ edge, endpoint edge < 2 ^ edgeBits) (traced : Traced) (part : Nat)
    (inside : part < sizing.parts) (before : AllInside edgeBits traced) :
    AllInside edgeBits (trimPart solver edgeBits sizing endpoint orders dense traced part) := by
  have narrow := part_narrow sized range small part inside
  intro access formed
  simp only [trimPart, List.mem_append] at formed
  rcases formed with (earlier | trimmed) | applied
  · exact before access earlier
  · rw [← part_word_count sized range part inside]
    exact narrow.trim_buckets _ access trimmed
  · exact apply_part_inside sized range small inGraph (orders.deaths part) part inside _
      (fun fewer quiet => scatter_part_resident sized range small fewer inGraph _ _ part inside quiet)
      traced.buffers.nodes traced.buffers.dead access applied

/-- Below 64 KiB of local memory every index of a round is inside. -/
theorem round_inside (sized : Sized solver edgeBits sizing buckets parts)
    (range : 24 ≤ edgeBits ∧ edgeBits ≤ 32) (small : localBytes solver edgeBits < 65536)
    (inGraph : ∀ edge, endpoint edge < 2 ^ edgeBits) (buffers : Buffers) :
    ∀ access ∈ roundAccesses solver edgeBits sizing endpoint orders dense buffers,
      access.Inside (wordCount edgeBits) := by
  obtain ⟨marked, resident⟩ := @mark_phase_inside solver edgeBits sizing buckets parts endpoint orders
    dense sized range small inGraph buffers
  exact run_inside
    (fun traced part inside => trim_part_inside sized range small inGraph traced part inside)
    (sizing.parts - 1) (Nat.sub_le _ _) _
    (trim_last_part_inside sized range small inGraph _ resident marked)

/-! ## Wider buckets leave the workgroup bitmap -/

/-- Indices that have been formed stay formed. -/
theorem foldl_accesses_kept (step : Traced → Nat → Traced)
    (keeps : ∀ traced part, ∀ access ∈ traced.accesses, access ∈ (step traced part).accesses)
    (items : List Nat) (traced : Traced) :
    ∀ access ∈ traced.accesses, access ∈ (items.foldl step traced).accesses := by
  induction items generalizing traced with
  | nil => exact fun _ formed => formed
  | cons part rest ih => exact fun access formed => ih _ access (keeps traced part access formed)

/-- Marking a part keeps the indices. -/
theorem mark_part_kept (traced : Traced) (part : Nat) : ∀ access ∈ traced.accesses,
    access ∈ (markPart solver edgeBits sizing endpoint orders dense traced part).accesses := by
  intro access formed
  simp only [markPart]
  split
  · exact formed
  · exact List.mem_append_left _ formed

/-- Trimming a part keeps the indices. -/
theorem trim_part_kept (traced : Traced) (part : Nat) : ∀ access ∈ traced.accesses,
    access ∈ (trimPart solver edgeBits sizing endpoint orders dense traced part).accesses :=
  fun _ formed => List.mem_append_left _ (List.mem_append_left _ formed)

/-- Trimming the last part keeps the indices. -/
theorem trim_last_part_kept (traced : Traced) : ∀ access ∈ traced.accesses,
    access ∈ (trimLastPart solver edgeBits sizing endpoint orders traced).accesses :=
  fun _ formed => List.mem_append_left _ (List.mem_append_left _ formed)

/-- Marking the first part clears all words of the first bucket. -/
theorem first_bucket_cleared (sized : Sized solver edgeBits sizing buckets parts)
    (range : 24 ≤ edgeBits ∧ edgeBits ≤ 32) (buffers : Buffers) (word : Nat)
    (before : word < 2 ^ (edgeBits - 5 - buckets)) :
    .seen word ∈ roundAccesses solver edgeBits sizing endpoint orders dense buffers := by
  have two : 2 ^ 1 ≤ sizing.parts := by
    rw [sized.part_count]
    exact Nat.pow_le_pow_right (by decide) sized.two
  have words := part_bucket_words sized range 0 (by omega)
  have fits : 2 ^ (edgeBits - 5 - buckets) ≤ 2 ^ 27 := Nat.pow_le_pow_right (by decide) (by omega)
  have visited : word ∈ bucketWords (partParams solver edgeBits sizing 0) := by
    rw [bucketWords, words, (visits_perm (by decide) (by rw [workgroupSize]; omega)).mem_iff,
      List.mem_range]
    exact before
  have formed : ∀ traced : Traced, .seen word ∈
      (markPart solver edgeBits sizing endpoint orders dense traced 0).accesses := by
    intro traced
    simp only [markPart]
    rw [if_neg (by omega)]
    refine List.mem_append_right _ (List.mem_flatMap.mpr ⟨0, ?_, ?_⟩)
    · rw [List.mem_range, part_bucket_count sized range 0 (by omega)]
      exact Nat.two_pow_pos buckets
    · exact List.mem_append_left _ (List.mem_append_left _ (List.mem_map_of_mem visited))
  refine foldl_accesses_kept _ trim_part_kept _ _ _ (trim_last_part_kept _ _ ?_)
  rw [runSleanMarkPhase, show sizing.parts = (sizing.parts - 1) + 1 by omega,
    List.range_succ_eq_map, List.foldl_cons]
  exact foldl_accesses_kept _ mark_part_kept _ _ _ (formed _)

end

end

/-- Every reservation in the order of the source. -/
def inOrder : Orders :=
  let listed : Schedule := ⟨id, listed_perm⟩
  ⟨fun _ => listed, fun _ => listed, fun _ => listed⟩

/-- Buffers of a graph without live edges. -/
def emptyBuffers : Buffers := ⟨[], [], [], ⟨fun _ => 0⟩, ⟨fun _ => 0⟩⟩

/-- Every index that the kernels of a slean round form is inside its array if and only if the
    local memory is below 64 KiB. The endpoints, the orders and the buffers are arbitrary. What
    a device makes of an index outside is left out. -/
theorem slean_seen_inside_iff (solver : GpuWgpuSolver) (edgeBits : Nat) (sizing : HostSizing)
    (accepted : newWithConfig solver.config = .ok solver.config)
    (range : 24 ≤ edgeBits ∧ edgeBits ≤ 32)
    (sized : sleanSizing solver true edgeBits = .ok sizing) :
    SeenInside solver edgeBits sizing ↔ localBytes solver edgeBits < 65536 := by
  obtain ⟨buckets, parts, made, _⟩ := slean_sizing_ok accepted sized
  constructor
  · intro always
    rw [local_bytes_lt_iff made range]
    by_contra wide
    have words : 2 ^ 14 ≤ 2 ^ (edgeBits - 5 - buckets) :=
      Nat.pow_le_pow_right (by decide) (by omega)
    have formed := @first_bucket_cleared solver edgeBits sizing buckets parts (fun _ => 0)
      inOrder false made range emptyBuffers sleanSeenWords (Nat.lt_of_lt_of_le (by decide) words)
    exact Nat.lt_irrefl _ (always _ _ _ _ (fun _ => Nat.two_pow_pos edgeBits) _ formed)
  · intro small endpoint orders dense buffers inGraph
    exact round_inside made range small inGraph buffers

/-- A solver with so much local memory, in KiB, on an adapter that has 64 KiB. -/
def localSolver (localRamKib : Nat) : GpuWgpuSolver :=
  ⟨adapterLimits 65536, ⟨.slean, 4, localRamKib⟩, none, false⟩

/-- With 32 KiB of local memory every index is inside. -/
theorem half_local_memory_inside :
    ∃ sizing, sleanSizing (localSolver 32) true 24 = .ok sizing ∧
      SeenInside (localSolver 32) 24 sizing := by
  refine ⟨partSizes (localSolver 32) 24 4, by decide +kernel, ?_⟩
  rw [slean_seen_inside_iff (localSolver 32) 24 _ (by decide +kernel) (by decide)
    (by decide +kernel)]
  decide

/-- With 64 KiB the kernels leave the workgroup bitmap. -/
theorem whole_local_memory_outside :
    ¬ ∀ (solver : GpuWgpuSolver) (edgeBits : Nat) (sizing : HostSizing),
      newWithConfig solver.config = .ok solver.config → 24 ≤ edgeBits ∧ edgeBits ≤ 32 →
      sleanSizing solver true edgeBits = .ok sizing → SeenInside solver edgeBits sizing := by
  intro always
  have accepted : newWithConfig (localSolver 64).config = .ok (localSolver 64).config := by
    decide +kernel
  have sized : sleanSizing (localSolver 64) true 24 = .ok (partSizes (localSolver 64) 24 4) := by
    decide +kernel
  have inside := always (localSolver 64) 24 _ accepted (by decide) sized
  obtain ⟨buckets, parts, made, _⟩ := slean_sizing_ok accepted sized
  have few : buckets ≤ 5 := (made.buckets_le_iff (by decide) 5 (by decide)).mpr (by decide)
  have words : 2 ^ 14 ≤ 2 ^ (24 - 5 - buckets) := Nat.pow_le_pow_right (by decide) (by omega)
  have formed := @first_bucket_cleared (localSolver 64) 24 _ buckets parts (fun _ => 0)
    inOrder false made (by decide) emptyBuffers sleanSeenWords
    (Nat.lt_of_lt_of_le (by decide) words)
  exact Nat.lt_irrefl _ (inside _ _ _ _ (fun _ => by decide) _ formed)

end CuckatooMiner.SleanSeen
