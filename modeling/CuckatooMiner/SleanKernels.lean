import Mathlib
import CuckatooMiner.SleanShape

/-!
# Exact slean kernels

A part's edges are scattered by the bucket of their node. As long as no counter has
overflowed, a bucket holds exactly the part's live edges with a node in it, so marking
the buckets marks the part's nodes, the dead lists hold exactly the edges whose
complementary node is not marked, and applying them clears those edges and no others.
Overflow counters are never reset within a phase.
-/

namespace CuckatooMiner.Slean

open PackedBits Reservation LeanRound

/-- The edges of a part. -/
def InPart (p : Params) (edge : Nat) : Prop :=
  p.chunkBase ≤ edge ∧ edge < p.chunkBase + p.chunkCount

/-- The edges that scattering a part takes. -/
def Taken (p : Params) (dense : Bool) (edges : Bitmap) (edge : Nat) : Prop :=
  InPart p edge ∧ (dense = true ∨ test edges edge = true)

/-- No arena has overflowed. -/
def Quiet (p : Params) (arenas : Arenas) : Prop :=
  ∀ shard < 4, arenas.read (shard, sleanOverflowWord p) = 0

/-- The kernels see an overflow exactly if there is one. -/
theorem has_overflow_eq_false (p : Params) (arenas : Arenas) :
    sleanHasOverflow p arenas = false ↔ Quiet p arenas := by
  simp only [sleanHasOverflow, Bool.or_eq_false_iff, bne_eq_false_iff_eq, Quiet]
  constructor
  · rintro ⟨⟨⟨first, second⟩, third⟩, fourth⟩ shard small
    interval_cases shard <;> assumption
  · intro quiet
    exact ⟨⟨⟨quiet 0 (by decide), quiet 1 (by decide)⟩, quiet 2 (by decide)⟩, quiet 3 (by decide)⟩

variable {p : Params}

/-! ## Scattering -/

section

variable (shape : Shape p)

include shape

/-- The arena of a bucket. -/
theorem Shape.shard (bucket : Nat) (inside : bucket < p.bucketCount) :
    sleanShard p bucket = bucket / sleanShardWidth p := by
  have small : bucket / sleanShardWidth p < 4 := by
    rw [Nat.div_lt_iff_lt_mul shape.width, shape.shards]
    exact inside
  rw [sleanShard]
  omega

/-- The place of a bucket within its arena. -/
theorem Shape.local_bucket (bucket : Nat) (inside : bucket < p.bucketCount) :
    sleanLocalBucket p bucket = bucket % sleanShardWidth p := by
  rw [sleanLocalBucket, shape.shard bucket inside, Nat.mod_eq_sub_div_mul]

/-- The place of a bucket lies within its arena. -/
theorem Shape.local_inside (bucket : Nat) (inside : bucket < p.bucketCount) :
    sleanLocalBucket p bucket < sleanShardWidth p := by
  rw [shape.local_bucket bucket inside]
  exact Nat.mod_lt _ shape.width

/-- A bucket is known by its arena and its place. -/
theorem Shape.bucket_unique (left right : Nat) (left_inside : left < p.bucketCount)
    (right_inside : right < p.bucketCount) (shard : sleanShard p left = sleanShard p right)
    (place : sleanLocalBucket p left = sleanLocalBucket p right) : left = right := by
  rw [shape.shard left left_inside, shape.shard right right_inside] at shard
  rw [shape.local_bucket left left_inside, shape.local_bucket right right_inside] at place
  rw [← Nat.div_add_mod left (sleanShardWidth p), ← Nat.div_add_mod right (sleanShardWidth p),
    shard, place]

end

/-- The buckets of the arenas. -/
def arenaLayout (p : Params) (shape : Shape p) : Layout (Nat × Nat) where
  buckets := p.bucketCount
  capacity := p.capacity
  count bucket := (sleanShard p bucket, sleanLocalBucket p bucket)
  entry bucket slot :=
    (sleanShard p bucket, sleanHeaderWords p + sleanLocalBucket p bucket * p.capacity + slot)
  overflow bucket := (sleanShard p bucket, sleanOverflowWord p)
  count_injective b b_inside c c_inside same := by
    rw [Prod.mk.injEq] at same
    exact shape.bucket_unique b c b_inside c_inside same.1 same.2
  entry_injective b b_inside s s_small c c_inside t t_small same := by
    rw [Prod.mk.injEq] at same
    obtain ⟨place, slot⟩ := slot_unique p.capacity (sleanLocalBucket p b) (sleanLocalBucket p c) s t
      s_small t_small (by omega)
    exact ⟨shape.bucket_unique b c b_inside c_inside same.1 place, slot⟩
  count_ne_entry b b_inside c c_inside s s_small same := by
    have inside := shape.local_inside b b_inside
    rw [Prod.mk.injEq, sleanHeaderWords] at same
    rw [sleanShardWidth] at inside
    omega
  count_ne_overflow b b_inside c c_inside same := by
    have inside := shape.local_inside b b_inside
    rw [Prod.mk.injEq, sleanOverflowWord] at same
    rw [sleanShardWidth] at inside
    omega
  entry_ne_overflow b b_inside s s_small c c_inside same := by
    rw [Prod.mk.injEq, sleanHeaderWords, sleanOverflowWord] at same
    omega

section

variable {endpoint : Nat → Nat}

/-- The buckets hold exactly some edges, each in the bucket of its node. How often an edge is in
    its bucket is left open: a mark is the same for one and for many. -/
def Holds (p : Params) (endpoint : Nat → Nat) (arenas : Arenas) (live : Nat → Prop) : Prop :=
  ∀ bucket < p.bucketCount, ∀ edge,
    edge ∈ sleanSlots p arenas bucket ↔ live edge ∧ endpoint edge / bucketNodes p = bucket

/-- Scattering a list of edges from cleared counts. -/
theorem scatter_list (shape : Shape p) (inGraph : ∀ edge, endpoint edge < 2 ^ p.edgeBits)
    (edges : List Nat) (before : Arenas)
    (cleared : ∀ shard, ∀ place < sleanShardWidth p, before.read (shard, place) = 0)
    (quiet : Quiet p (edges.foldl (sleanScatterEdge p endpoint) before)) :
    Quiet p before ∧
      Holds p endpoint (edges.foldl (sleanScatterEdge p endpoint) before) (· ∈ edges) := by
  let items := edges.map fun edge => (sleanBucket p (endpoint edge), edge)
  have as_items : edges.foldl (sleanScatterEdge p endpoint) before =
      items.foldl (reserve (arenaLayout p shape)) before := by
    rw [List.foldl_map]
    rfl
  rw [as_items] at quiet ⊢
  have filled : Filled (arenaLayout p shape) before
      (items.foldl (reserve (arenaLayout p shape)) before) items := by
    apply reserve_cleared
    · intro item member
      obtain ⟨edge, _, rfl⟩ := List.mem_map.mp member
      show sleanBucket p (endpoint edge) < p.bucketCount
      rw [shape.bucket]
      exact shape.bucket_inside _ (inGraph edge)
    · intro bucket inside
      exact cleared _ _ (shape.local_inside bucket inside)
  have unmoved : ∀ bucket < p.bucketCount, before.read (sleanShard p bucket, sleanOverflowWord p) = 0 := by
    intro bucket inside
    have grows := filled.grows bucket inside
    have zero := quiet (sleanShard p bucket) (Nat.lt_succ_of_le (Nat.min_le_right _ _))
    exact Nat.le_zero.mp (grows.trans (Nat.le_of_eq zero))
  refine ⟨?_, ?_⟩
  · intro shard small
    have inside : shard * sleanShardWidth p < p.bucketCount := by
      rw [← shape.shards]
      exact (Nat.mul_lt_mul_right shape.width).mpr small
    have zero := unmoved (shard * sleanShardWidth p) inside
    rwa [shape.shard _ inside, Nat.mul_div_cancel _ shape.width] at zero
  · intro bucket inside edge
    have zero := quiet (sleanShard p bucket) (Nat.lt_succ_of_le (Nat.min_le_right _ _))
    have slots := filled.mem_stored bucket inside (zero.trans (unmoved bucket inside).symm) edge
    rw [← shape.bucket]
    exact slots.trans (mem_keyed (fun edge => sleanBucket p (endpoint edge)) edges bucket edge)

/-- The first word of a part. -/
theorem first_word (shape : Shape p) : (p.chunkBase >>> 5) * 32 = p.chunkBase := by
  obtain ⟨first, base⟩ := shape.base
  rw [Nat.shiftRight_eq_div_pow, base, bucketNodes, ← Nat.mul_assoc]
  show first * sleanBucketWords p * 32 / 32 * 32 = _
  rw [Nat.mul_div_cancel _ (by decide)]

/-- The words of a part. -/
theorem chunk_words (shape : Shape p) : ((p.chunkCount + 31) >>> 5) * 32 = p.chunkCount := by
  rw [Nat.shiftRight_eq_div_pow, shape.count, bucketNodes, ← Nat.mul_assoc]
  show (sleanDeadBucketCount p * sleanBucketWords p * 32 + 31) / 32 * 32 = _
  omega

/-- Scattering a part keeps earlier overflows, and without overflow the buckets hold the
    edges taken. -/
theorem slean_scatter_spec (shape : Shape p) (inGraph : ∀ edge, endpoint edge < 2 ^ p.edgeBits)
    (schedule : Schedule) (dense : Bool) (edges : Bitmap) (before : Arenas)
    (cleared : ∀ shard, ∀ place < sleanShardWidth p, before.read (shard, place) = 0)
    (quiet : Quiet p (sleanScatter p endpoint schedule dense edges before)) :
    Quiet p before ∧
      Holds p endpoint (sleanScatter p endpoint schedule dense edges before) (Taken p dense edges) := by
  have source : ∀ edge, edge ∈ schedule.order (if dense then denseEdges p else aliveEdges p edges) ↔
      Taken p dense edges edge := by
    intro edge
    rw [(schedule.perm _).mem_iff, Taken, InPart]
    cases dense with
    | true =>
      simp only [if_true, denseEdges, List.mem_map, List.mem_range, true_or, and_true]
      constructor
      · rintro ⟨place, small, rfl⟩
        exact ⟨by omega, by omega⟩
      · rintro ⟨after, before⟩
        exact ⟨edge - p.chunkBase, by omega, by omega⟩
    | false =>
      have first := first_word shape
      have words := chunk_words shape
      have listed := mem_members (window edges (p.chunkBase >>> 5) ((p.chunkCount + 31) >>> 5))
        (p.chunkBase >>> 5) edge (by decide)
      simp only [Bool.false_eq_true, if_false, false_or, aliveEdges, List.mem_filter,
        decide_eq_true_eq, listed, first]
      constructor
      · rintro ⟨⟨after, live⟩, _, small⟩
        rw [test_window _ _ _ _ (by decide) (by omega), first, Nat.add_sub_cancel' after] at live
        exact ⟨⟨after, by omega⟩, live⟩
      · rintro ⟨⟨after, before⟩, live⟩
        refine ⟨⟨after, ?_⟩, after, by omega⟩
        rwa [test_window _ _ _ _ (by decide) (by omega), first, Nat.add_sub_cancel' after]
  obtain ⟨quiet_before, holds⟩ := scatter_list shape inGraph _ before cleared quiet
  refine ⟨quiet_before, ?_⟩
  intro bucket inside edge
  exact (holds bucket inside edge).trans (and_congr_left' (source edge))

/-! ## Marking -/

/-- The window of a bucket holds its nodes. -/
theorem bucket_window (shape : Shape p) (nodes : Bitmap) (node : Nat) :
    test (window nodes (node / bucketNodes p * sleanBucketWords p) (sleanBucketWords p))
      (node % bucketNodes p) = test nodes node := by
  have place : node % bucketNodes p < sleanBucketWords p * 32 := Nat.mod_lt _ shape.positive
  rw [test_window _ _ _ _ (by decide) place]
  congr 1
  rw [Nat.mul_assoc, Nat.mul_comm]
  exact Nat.div_add_mod node (bucketNodes p)

/-- The places of some edges' nodes within their bucket. -/
def nodePlaces (p : Params) (endpoint : Nat → Nat) (slots : List Nat) : List Nat :=
  slots.map fun edge => endpoint edge % bucketNodes p

/-- Marking the nodes of some edges in a bucket's local bitmap. -/
theorem mark_slots_spec (shape : Shape p) (slots : List Nat) (seen : Bitmap)
    (size : seen.length = sleanBucketWords p) :
    (markSlots p endpoint slots seen).length = sleanBucketWords p ∧
      ∀ place, test (markSlots p endpoint slots seen) place = true ↔
        test seen place = true ∨ place ∈ nodePlaces p endpoint slots := by
  have as_list : markSlots p endpoint slots seen =
      (nodePlaces p endpoint slots).foldl put seen := by
    rw [nodePlaces, List.foldl_map, markSlots]
    simp only [shape.suffix]
  refine ⟨by rw [as_list, put_all_length, size], ?_⟩
  intro place
  rw [as_list, test_put_all _ _ _ (by decide), Bool.or_eq_true, decide_eq_true_eq]
  intro item member
  obtain ⟨edge, _, rfl⟩ := List.mem_map.mp member
  rw [size]
  exact (Nat.div_lt_iff_lt_mul (by decide)).mpr (Nat.mod_lt _ shape.positive)

/-- Adding the marks of a bucket to the words of its nodes. -/
theorem mark_bucket_change (shape : Shape p) (slots : List Nat) (old : Bitmap)
    (size : old.length = sleanBucketWords p) :
    (List.zipWith (· ||| ·) old (markSlots p endpoint slots
      (List.replicate (sleanBucketWords p) 0#32))).length = sleanBucketWords p ∧
      ∀ place, test (List.zipWith (· ||| ·) old (markSlots p endpoint slots
        (List.replicate (sleanBucketWords p) 0#32))) place = true ↔
          test old place = true ∨ place ∈ nodePlaces p endpoint slots := by
  obtain ⟨marked, marks⟩ := @mark_slots_spec p endpoint shape slots
    (List.replicate (sleanBucketWords p) 0#32) (List.length_replicate ..)
  refine ⟨by rw [List.length_zipWith, size, marked, Nat.min_self], ?_⟩
  intro place
  rw [test_zip_or _ _ _ (by decide) (size.trans marked.symm), Bool.or_eq_true, marks,
    test_replicate_zero]
  simp only [Bool.false_eq_true, false_or]

/-- The buckets have as many words as the node bitmap. -/
theorem bucket_words_inside (shape : Shape p) (nodes : Bitmap) (size : nodes.length = p.wordCount) :
    0 + p.bucketCount * sleanBucketWords p ≤ nodes.length := by
  rw [size, shape.even, Nat.zero_add]

/-- Marking bucket by bucket marks the nodes of all edges that the buckets hold. -/
theorem mark_windows (shape : Shape p) (inGraph : ∀ edge, endpoint edge < 2 ^ p.edgeBits)
    (arenas : Arenas) (live : Nat → Prop) (holds : Holds p endpoint arenas live)
    (change : Nat → Bitmap → Bitmap)
    (changes : ∀ bucket part, part.length = sleanBucketWords p →
      (change bucket part).length = sleanBucketWords p ∧
        ∀ place, test (change bucket part) place = true ↔
          test part place = true ∨ place ∈ nodePlaces p endpoint (sleanSlots p arenas bucket))
    (nodes : Bitmap) (size : nodes.length = p.wordCount) (node : Nat) :
    test (overWindows 0 (sleanBucketWords p) p.bucketCount change nodes) node = true ↔
      test nodes node = true ∨ ∃ edge, live edge ∧ endpoint edge = node := by
  rw [test_marked_windows _ nodes node (by decide) _ changes (bucket_words_inside shape nodes size),
    Nat.zero_mul, Nat.zero_add, Nat.sub_zero, shape.even, shape.nodes]
  refine or_congr_right ⟨?_, ?_⟩
  · rintro ⟨⟨_, inside⟩, member⟩
    obtain ⟨edge, listed, place⟩ := List.mem_map.mp member
    obtain ⟨alive, here⟩ := (holds _ (shape.bucket_inside node inside) edge).mp listed
    refine ⟨edge, alive, ?_⟩
    rw [← Nat.div_add_mod (endpoint edge) (bucketNodes p), here, place]
    exact Nat.div_add_mod node (bucketNodes p)
  · rintro ⟨edge, alive, rfl⟩
    have bucket_inside := shape.bucket_inside _ (inGraph edge)
    exact ⟨⟨Nat.zero_le _, inGraph edge⟩,
      List.mem_map.mpr ⟨edge, (holds _ bucket_inside edge).mpr ⟨alive, rfl⟩, rfl⟩⟩

/-- Changing bucket by bucket keeps the length of the node bitmap. -/
theorem bucket_windows_length (shape : Shape p) (change : Nat → Bitmap → Bitmap)
    (keeps : ∀ bucket part, part.length = sleanBucketWords p →
      (change bucket part).length = sleanBucketWords p)
    (nodes : Bitmap) (size : nodes.length = p.wordCount) :
    (overWindows 0 (sleanBucketWords p) p.bucketCount change nodes).length = p.wordCount :=
  (getD_over_windows _ nodes keeps (bucket_words_inside shape nodes size)).1.trans size

/-- Adding the marks of a part keeps the length of the node bitmap. -/
theorem slean_mark_buckets_length (shape : Shape p) (arenas : Arenas) (nodes : Bitmap)
    (size : nodes.length = p.wordCount) :
    (sleanMarkBuckets p endpoint arenas nodes).length = p.wordCount :=
  bucket_windows_length shape _
    (fun _ old length => (mark_bucket_change shape _ old length).1) nodes size

/-- The marks of an earlier part are added to the node bitmap. -/
theorem slean_mark_buckets_spec (shape : Shape p) (inGraph : ∀ edge, endpoint edge < 2 ^ p.edgeBits)
    (arenas : Arenas) (live : Nat → Prop) (holds : Holds p endpoint arenas live) (nodes : Bitmap)
    (size : nodes.length = p.wordCount) (node : Nat) :
    test (sleanMarkBuckets p endpoint arenas nodes) node = true ↔
      test nodes node = true ∨ ∃ edge, live edge ∧ endpoint edge = node :=
  mark_windows shape inGraph arenas live holds _
    (fun _ old length => mark_bucket_change shape _ old length) nodes size node

/-! ## Collecting dead edges -/

/-- The dead lists of a part. -/
def deadLayout (p : Params) : Layout Nat where
  buckets := sleanDeadBucketCount p
  capacity := p.deadCapacity
  count bucket := bucket
  entry bucket slot := sleanDeadHeaderWords p + bucket * p.deadCapacity + slot
  overflow _ := sleanDeadOverflowWord p
  count_injective _ _ _ _ same := same
  entry_injective b _ s s_small c _ t t_small same :=
    slot_unique p.deadCapacity b c s t s_small t_small (by omega)
  count_ne_entry b inside c _ s _ same := by
    rw [sleanDeadHeaderWords] at same
    omega
  count_ne_overflow b inside c _ same := by
    rw [sleanDeadOverflowWord] at same
    omega
  entry_ne_overflow b _ s _ c _ same := by
    rw [sleanDeadHeaderWords, sleanDeadOverflowWord] at same
    omega

/-- The dead lists hold exactly some edges of the part, each in the list of its place. -/
def Doomed (p : Params) (dead : DeadScratch) (doomed : Nat → Prop) : Prop :=
  ∀ list < sleanDeadBucketCount p, ∀ edge,
    edge ∈ sleanDeadSlots p dead list ↔ doomed edge ∧ (edge - p.chunkBase) / bucketNodes p = list

/-- Collecting dead edges keeps earlier overflows, and without overflow the lists hold
    the live edges whose complementary node is not marked. -/
theorem collect_dead_spec (shape : Shape p) (inGraph : ∀ edge, endpoint edge < 2 ^ p.edgeBits)
    (schedule : Schedule) (arenas : Arenas) (live : Nat → Prop)
    (partial_live : ∀ edge, live edge → InPart p edge) (holds : Holds p endpoint arenas live)
    (nodes : Bitmap) (before : DeadScratch)
    (cleared : ∀ list < sleanDeadBucketCount p, before.read list = 0)
    (quiet : (collectDead p endpoint schedule arenas nodes before).read (sleanDeadOverflowWord p) = 0) :
    before.read (sleanDeadOverflowWord p) = 0 ∧
      Doomed p (collectDead p endpoint schedule arenas nodes before)
        (fun edge => live edge ∧ test nodes (endpoint edge ^^^ 1) = false) := by
  obtain ⟨source, source_eq⟩ : ∃ source, source =
      schedule.order ((List.range p.bucketCount).flatMap fun bucket =>
        deadSlots p endpoint (sleanSlots p arenas bucket)
          (window nodes (bucket * sleanBucketWords p) (sleanBucketWords p))) := ⟨_, rfl⟩
  have listed : ∀ edge, edge ∈ source ↔ live edge ∧ test nodes (endpoint edge ^^^ 1) = false := by
    intro edge
    have dies : ∀ bucket, endpoint edge / bucketNodes p = bucket →
        test (window nodes (bucket * sleanBucketWords p) (sleanBucketWords p))
          (sleanSuffix p (endpoint edge ^^^ 1)) = test nodes (endpoint edge ^^^ 1) := by
      intro bucket here
      rw [shape.suffix, ← here, ← mate_bucket p]
      exact bucket_window shape nodes (endpoint edge ^^^ 1)
    rw [source_eq, (schedule.perm _).mem_iff]
    simp only [List.mem_flatMap, List.mem_range, deadSlots, List.mem_filter, Bool.not_eq_true']
    constructor
    · rintro ⟨bucket, inside, member, unmarked⟩
      obtain ⟨alive, here⟩ := (holds bucket inside edge).mp member
      rw [dies bucket here] at unmarked
      exact ⟨alive, unmarked⟩
    · rintro ⟨alive, unmarked⟩
      have inside := shape.bucket_inside _ (inGraph edge)
      refine ⟨endpoint edge / bucketNodes p, inside, (holds _ inside edge).mpr ⟨alive, rfl⟩, ?_⟩
      rwa [dies _ rfl]
  let items := source.map fun edge => ((edge - p.chunkBase) / bucketNodes p, edge)
  have as_items : collectDead p endpoint schedule arenas nodes before =
      items.foldl (reserve (deadLayout p)) before := by
    rw [List.foldl_map, source_eq]
    rfl
  rw [as_items] at quiet ⊢
  have filled : Filled (deadLayout p) before (items.foldl (reserve (deadLayout p)) before) items := by
    refine reserve_cleared items ?_ cleared
    intro item member
    obtain ⟨edge, dying, rfl⟩ := List.mem_map.mp member
    obtain ⟨after, small⟩ := partial_live edge ((listed edge).mp dying).1
    show (edge - p.chunkBase) / bucketNodes p < sleanDeadBucketCount p
    rw [Nat.div_lt_iff_lt_mul shape.positive, ← shape.count]
    omega
  have unmoved : before.read (sleanDeadOverflowWord p) = 0 := by
    have grows := filled.grows 0 shape.lists
    exact Nat.le_zero.mp (grows.trans (Nat.le_of_eq quiet))
  refine ⟨unmoved, ?_⟩
  intro list inside edge
  have slots := filled.mem_stored list inside (quiet.trans unmoved.symm) edge
  refine slots.trans ((mem_keyed (fun edge => (edge - p.chunkBase) / bucketNodes p) source list
    edge).trans (and_congr_left' (listed edge)))

/-! ## Applying deaths -/

/-- A part's words lie in the bitmap. -/
theorem part_words_inside (shape : Shape p) :
    (p.chunkBase >>> 5) + sleanDeadBucketCount p * sleanBucketWords p ≤ p.wordCount := by
  have first := first_word shape
  have inside := shape.inside
  rw [shape.count, ← shape.nodes, bucketNodes, ← Nat.mul_assoc] at inside
  omega

/-- Applying the dead lists keeps the length of the edge bitmap. -/
theorem slean_apply_deaths_length (shape : Shape p) (arenas : Arenas) (dead : DeadScratch)
    (edges : Bitmap) (size : edges.length = p.wordCount) :
    (sleanApplyDeaths p arenas dead edges).length = p.wordCount := by
  have fits := part_words_inside shape
  rw [← size] at fits
  rw [sleanApplyDeaths]
  split
  · exact size
  · refine (getD_over_windows _ edges ?_ fits).1.trans size
    intro list part length
    rw [← List.foldl_map (f := fun edge => edge - p.chunkBase - list * sleanBucketWords p * 32)
      (g := clear), clear_all_length, length]

/-- The places of a dead list's edges within the list. -/
def deadPlaces (p : Params) (dead : DeadScratch) (list : Nat) : List Nat :=
  (sleanDeadSlots p dead list).map fun edge =>
    edge - p.chunkBase - list * sleanBucketWords p * 32

/-- An edge of a dead list is found at its place. -/
theorem mem_dead_places (shape : Shape p) (dead : DeadScratch) (doomed : Nat → Prop)
    (in_part : ∀ edge, doomed edge → InPart p edge) (lists : Doomed p dead doomed) (list : Nat)
    (inside : list < sleanDeadBucketCount p) (place : Nat) :
    place ∈ deadPlaces p dead list ↔
      place < bucketNodes p ∧ doomed (p.chunkBase + (list * bucketNodes p + place)) := by
  rw [deadPlaces, Nat.mul_assoc, ← bucketNodes, List.mem_map]
  constructor
  · rintro ⟨edge, listed, rfl⟩
    obtain ⟨dying, here⟩ := (lists list inside edge).mp listed
    obtain ⟨after, _⟩ := in_part edge dying
    have start := Nat.div_mul_le_self (edge - p.chunkBase) (bucketNodes p)
    have small := Nat.mod_lt (edge - p.chunkBase) shape.positive
    rw [Nat.mod_eq_sub_div_mul] at small
    rw [here] at start small
    refine ⟨small, ?_⟩
    have found : p.chunkBase + (list * bucketNodes p +
        (edge - p.chunkBase - list * bucketNodes p)) = edge := by omega
    rwa [found]
  · rintro ⟨small, dying⟩
    refine ⟨_, (lists list inside _).mpr ⟨dying, ?_⟩, by omega⟩
    rw [Nat.add_sub_cancel_left, Nat.mul_comm, Nat.mul_add_div shape.positive,
      Nat.div_eq_of_lt small, Nat.add_zero]

/-- Applying the dead lists clears exactly their edges. -/
theorem slean_apply_deaths_spec (shape : Shape p) (arenas : Arenas) (quiet : Quiet p arenas)
    (dead : DeadScratch) (unmoved : dead.read (sleanDeadOverflowWord p) = 0) (doomed : Nat → Prop)
    (in_part : ∀ edge, doomed edge → InPart p edge) (lists : Doomed p dead doomed)
    (edges : Bitmap) (size : edges.length = p.wordCount) (edge : Nat) :
    test (sleanApplyDeaths p arenas dead edges) edge = true ↔
      test edges edge = true ∧ ¬ doomed edge := by
  have fits := part_words_inside shape
  rw [← size] at fits
  have applies : sleanApplyDeaths p arenas dead edges =
      overWindows (p.chunkBase >>> 5) (sleanBucketWords p) (sleanDeadBucketCount p)
        (fun list seen => (deadPlaces p dead list).foldl clear seen) edges := by
    rw [sleanApplyDeaths, (has_overflow_eq_false p arenas).mpr quiet, unmoved]
    simp only [deadPlaces, List.foldl_map]
    rfl
  have places := mem_dead_places shape dead doomed in_part lists
  rw [applies, test_cleared_windows _ edges edge (by decide) _
    (fun list inside place member => ((places list inside place).mp member).1) fits, Nat.add_mul,
    first_word shape, Nat.mul_assoc, ← bucketNodes, ← shape.count]
  refine and_congr_right fun _ => not_congr ⟨?_, ?_⟩
  · rintro ⟨⟨after, before⟩, member⟩
    have inside : (edge - p.chunkBase) / bucketNodes p < sleanDeadBucketCount p := by
      rw [Nat.div_lt_iff_lt_mul shape.positive, ← shape.count]
      omega
    have dying := ((places _ inside _).mp member).2
    rwa [Nat.mul_comm, Nat.div_add_mod, Nat.add_sub_cancel' after] at dying
  · intro dying
    obtain ⟨after, before⟩ := in_part edge dying
    have inside : (edge - p.chunkBase) / bucketNodes p < sleanDeadBucketCount p := by
      rw [Nat.div_lt_iff_lt_mul shape.positive, ← shape.count]
      omega
    refine ⟨⟨after, before⟩, (places _ inside _).mpr ⟨Nat.mod_lt _ shape.positive, ?_⟩⟩
    rwa [Nat.mul_comm, Nat.div_add_mod, Nat.add_sub_cancel' after]

/-- Collecting and applying the deaths of a part keeps its live edges whose complementary
    node is marked, and all edges of the other parts. -/
theorem collect_apply_spec (shape : Shape p) (inGraph : ∀ edge, endpoint edge < 2 ^ p.edgeBits)
    (schedule : Schedule) (arenas : Arenas) (quiet : Quiet p arenas) (dense : Bool)
    (edges nodes : Bitmap) (holds : Holds p endpoint arenas (Taken p dense edges))
    (size : edges.length = p.wordCount) (before : DeadScratch)
    (cleared : ∀ list < sleanDeadBucketCount p, before.read list = 0)
    (unmoved : (collectDead p endpoint schedule arenas nodes before).read (sleanDeadOverflowWord p) = 0)
    (edge : Nat) :
    test (sleanApplyDeaths p arenas (collectDead p endpoint schedule arenas nodes before) edges)
      edge = true ↔
      test edges edge = true ∧ (InPart p edge → test nodes (endpoint edge ^^^ 1) = true) := by
  obtain ⟨_, lists⟩ := collect_dead_spec shape inGraph schedule arenas _ (fun _ taken => taken.1)
    holds nodes before cleared unmoved
  rw [slean_apply_deaths_spec shape arenas quiet _ unmoved _ (fun _ dying => dying.1.1) lists edges
    size]
  refine and_congr_right fun live => ?_
  rw [not_and, Bool.not_eq_false]
  exact ⟨fun keeps in_part => keeps ⟨in_part, Or.inr live⟩, fun keeps taken => keeps taken.1⟩

end

end CuckatooMiner.Slean
