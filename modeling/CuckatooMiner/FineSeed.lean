import Mathlib
import CuckatooMiner.FineRoundExact
import CuckatooMiner.BucketedRound

/-!
# The seed of the fine rounds

Where no round is performed on the way, the transition to fine rounds counts the live edges
of the bitmap, counts them again by their buckets, and stores them in an arena without gaps.
It checks itself three times: the counters of the buckets must add up to the number of live
edges, the cursors must end at the counters, and no edge of the arena may lie in another
bucket than its own.

Whatever the order of the threads, a bitmap whose live edges can be stepped over in
thirty-two bits passes every check, and the arena lists its live edges. Only the adapter may
refuse, and it does not if it can hold an arena of the live edges.
-/

namespace CuckatooMiner.FineSeed

open FineRound PackedBits Reservation SlotRanges StridedSweep
open CountingPass (bucket offset)
open GpuLean (GraphSize Launch Params asU32 inOrder liveEdges)
open LeanRound (Bitmap)
open Outcome (Gives bind_of_ok bind_ok_iff gives_bind gives_error gives_ok)
open SleanLayout (Limits)
open Solver (SolveError)
open TrimRun (Compact FineCsrArena fineBuckets fineBucket fine_bucket_lt)

/-! ## Counting live edges -/

/-- Add the values of some items to a 32-bit counter, one after the other. -/
def addAll {ι : Type} (value : ι → Nat) (items : List ι) (counter : Nat) : Nat :=
  items.foldl (fun counter item => asU32 (counter + value item)) counter

/-- The live edges of a word. -/
def countOneBits (edges : Bitmap) (word : Nat) : Nat := (drain 32 (edges.getD word 0#32)).length

section Count

variable (params : Params) (groups : Nat) (edges : Bitmap)

/-- The live edges of the words that one thread visits. -/
def localCount (gid : Nat) : Nat :=
  let stride := groups * 256 % u32Modulus
  addAll (countOneBits edges) (stridedVisits u32Modulus stride params.wordCount params.wordCount gid) 0

/-- The live edges that the threads of a workgroup have counted. -/
def groupCount (group : Nat) : Nat :=
  addAll (fun lane => localCount params groups edges (group * 256 + lane)) (List.range 256) 0

/-- Count the live edges of a bitmap; workgroups add their counts in some order. -/
def countAliveEdges (schedule : Schedule) : Nat :=
  addAll (groupCount params groups edges) (schedule.order (List.range groups)) 0

end Count

/-! ## Filling an arena -/

section

variable (limits : Limits) (gib : Nat → String) (endpoints : Nat → Nat → Nat) (edgeBits side : Nat)

/-- The fine bucket of an edge on the side. -/
def seedBucket (edge : Nat) : Nat := fineBucket edgeBits (endpoints side edge)

/-- Count the live edges by their buckets; they must be as many as expected. -/
def fineHistogram (schedule : Schedule) (survivorCount : Nat) (edges : Bitmap) :
    Except SolveError (List Nat) :=
  let counts := fineHistogramAlive endpoints edgeBits side schedule edges
    (List.replicate fineBuckets 0)
  if counts.sum ≠ survivorCount then
    .error (.gpu ("fine histogram counted " ++ toString counts.sum ++ " edges, expected " ++
      toString survivorCount))
  else .ok counts

/-- Store the live edges in their buckets. -/
def fineScatterAlive (schedule : Schedule) (edges : Bitmap) (storage : FineStorage) :
    FineStorage × List Write :=
  storage.scatter (seedBucket endpoints edgeBits side) (schedule.order (members 0 edges))

/-- Store the live edges in their buckets; the cursors must end at the counts. -/
def scatterFineCsr (schedule : Schedule) (counts : List Nat) (edges : Bitmap)
    (storage : FineStorage) : Except SolveError (FineStorage × List Write) :=
  let scattered := fineScatterAlive endpoints edgeBits side schedule edges storage.clearCursors
  if scattered.1.cursors ≠ counts then
    .error (.gpu "fine CSR scatter cursor totals differ from histogram counts")
  else .ok scattered

/-- Count the edges of an arena that lie in another bucket than their own. -/
def fineVerifyArena (storage : FineStorage) : Nat :=
  addAll (fun bucket => ((storage.bucketSlots bucket).filter fun edge =>
    seedBucket endpoints edgeBits side edge ≠ bucket).length) (List.range fineBuckets) 0

/-- No edge of an arena may lie in another bucket than its own. -/
def verifyFineCsr (storage : FineStorage) : Except SolveError Unit :=
  let errors := fineVerifyArena endpoints edgeBits side storage
  if errors ≠ 0 then
    .error (.gpu ("fine CSR verification found " ++ toString errors ++ " invalid arena entries"))
  else .ok ()

/-- The orders of the passes. -/
structure SeedOrders where
  histogram : Schedule
  scatter : Schedule

/-- Store the live edges of a bitmap in an arena without gaps, and note the stores. -/
def buildFineCsr (orders : SeedOrders) (survivorCount : Nat) (edges : Bitmap) :
    Except SolveError (FineCsrArena × List Write) := do
  let counts ← fineHistogram endpoints edgeBits side orders.histogram survivorCount edges
  let storage ← allocateFineStorage limits gib survivorCount counts
  let scattered ← scatterFineCsr endpoints edgeBits side orders.scatter counts edges storage
  verifyFineCsr endpoints edgeBits side scattered.1
  return (⟨counts, asU32 survivorCount, scattered.1.offsets, scattered.1.arena⟩, scattered.2)

end

/-! ## Refusals -/

/-- An error that says what is not supported. -/
def Unsupported (error : SolveError) : Prop := ∃ text, error = .unsupported text

section Refusals

variable (limits : Limits) (gib : Nat → String)

/-- Offsets are only refused as unsupported. -/
theorem fine_offsets_gives (refusal : String) (first : Nat) (counts : List Nat) :
    Gives (fineOffsets refusal first counts) (fun _ => True) Unsupported := by
  induction counts generalizing first with
  | nil => exact gives_ok trivial
  | cons count rest ih =>
    rw [fineOffsets]
    split
    · exact gives_error ⟨_, rfl⟩
    · exact gives_bind (ih _) fun _ _ => gives_ok trivial

/-- So is the storage of a transition. -/
theorem allocate_fine_storage_gives (survivorCount : Nat) (counts : List Nat) :
    Gives (allocateFineStorage limits gib survivorCount counts) (fun _ => True) Unsupported := by
  refine gives_bind (fine_offsets_gives _ _ _) fun offsets _ => ?_
  dsimp only
  split
  · exact gives_error ⟨_, rfl⟩
  · exact gives_ok trivial

/-- So is the storage of a round without gaps. -/
theorem allocate_fine_trim_storage_gives (counts : List Nat) :
    Gives (allocateFineTrimStorage limits gib counts) (fun _ => True) Unsupported := by
  refine gives_bind (fine_offsets_gives _ _ _) fun offsets _ => ?_
  dsimp only
  split
  · exact gives_error ⟨_, rfl⟩
  · exact gives_ok trivial

/-- So is the storage of a shard. -/
theorem allocate_fine_seed_shard_gives (counts : List Nat) (half : Nat) :
    Gives (allocateFineSeedShard limits gib counts half) (fun _ => True) Unsupported := by
  refine gives_bind (fine_offsets_gives _ _ _) fun offsets _ => ?_
  dsimp only
  split
  · exact gives_error ⟨_, rfl⟩
  · exact gives_ok trivial

end Refusals

/-! ## The number of live edges -/

/-- A counter that wraps ends at the sum, up to the modulus, whatever happens on the way. -/
theorem add_all_eq {ι : Type} (value : ι → Nat) (items : List ι) (counter : Nat)
    (small : counter < u32Modulus) :
    addAll value items counter = asU32 (counter + (items.map value).sum) := by
  induction items generalizing counter with
  | nil => exact (Nat.mod_eq_of_lt small).symm
  | cons item rest ih =>
    have next : addAll value (item :: rest) counter =
        addAll value rest (asU32 (counter + value item)) := rfl
    have bound : asU32 (counter + value item) < u32Modulus := Nat.mod_lt _ (by decide)
    rw [next, ih (asU32 (counter + value item)) bound, List.map_cons, List.sum_cons,
      ← Nat.add_assoc]
    exact Nat.mod_add_mod ..

/-- Sums of wrapped sums are wrapped sums. -/
theorem sum_wrapped {ι : Type} (value : ι → Nat) (items : List ι) :
    asU32 (items.map fun item => asU32 (value item)).sum = asU32 (items.map value).sum := by
  induction items with
  | nil => rfl
  | cons item rest ih =>
    simp only [List.map_cons, List.sum_cons]
    simp only [asU32] at ih ⊢
    rw [Nat.mod_add_mod, ← Nat.add_mod_mod, ih, Nat.add_mod_mod]

/-- The enumerated edges of a bitmap are those of its words. -/
theorem members_length (edges : Bitmap) (first : Nat) :
    (members first edges).length = ((List.range edges.length).map (countOneBits edges)).sum := by
  induction edges generalizing first with
  | nil => rfl
  | cons word rest ih =>
    rw [members, List.length_append, List.length_map, ih, List.length_cons, List.range_succ_eq_map,
      List.map_cons, List.sum_cons, List.map_map]
    rfl

/-- The threads of all workgroups are those of the dispatch. -/
theorem threads_sum (lanes groups : Nat) (value : Nat → Nat) :
    ((List.range groups).map fun group =>
      ((List.range lanes).map fun lane => value (group * lanes + lane)).sum).sum =
        ((List.range (groups * lanes)).map value).sum := by
  induction groups with
  | zero => rw [Nat.zero_mul]; rfl
  | succ groups ih =>
    rw [List.range_succ, List.map_append, List.sum_append, ih, Nat.succ_mul, List.range_add,
      List.map_append, List.sum_append, List.map_map, List.map_singleton, List.sum_singleton]
    rfl

/-- Whatever the order of the workgroups, the count is the number of live edges in thirty-two
    bits. -/
theorem count_alive_edges_eq {edgeBits groups : Nat} (launch : Launch edgeBits groups)
    (edges : Bitmap) (sized : edges.length = (GraphSize.new edgeBits).wordCount)
    (schedule : Schedule) :
    countAliveEdges (Params.new edgeBits) groups edges schedule =
      asU32 (members 0 edges).length := by
  have words : (Params.new edgeBits).wordCount = edges.length :=
    launch.word_count.trans sized.symm
  have zero : 0 < u32Modulus := by decide
  let visited := fun gid => stridedVisits u32Modulus (groups * 256 % u32Modulus) edges.length
    edges.length gid
  have threads : localCount (Params.new edgeBits) groups edges =
      fun gid => asU32 ((visited gid).map (countOneBits edges)).sum := by
    funext gid
    rw [localCount, add_all_eq _ _ _ zero, Nat.zero_add, words]
  have per_group : groupCount (Params.new edgeBits) groups edges =
      fun group => asU32 ((List.range 256).map fun lane =>
        ((visited (group * 256 + lane)).map (countOneBits edges)).sum).sum := by
    funext group
    rw [groupCount, add_all_eq _ _ _ zero, Nat.zero_add, threads]
    exact sum_wrapped (fun lane => ((visited (group * 256 + lane)).map (countOneBits edges)).sum) _
  have all_threads : ((List.range (groups * 256)).map fun gid =>
      ((visited gid).map (countOneBits edges)).sum).sum = (members 0 edges).length := by
    rw [members_length edges 0, ← words, ← (launch.visits.map (countOneBits edges)).sum_eq,
      GpuLean.wordVisits, visits, List.map_flatMap, List.flatMap_def, List.sum_flatten,
      List.map_map, words]
    rfl
  rw [countAliveEdges, add_all_eq _ _ _ zero, Nat.zero_add, ((schedule.perm _).map _).sum_eq,
    per_group, sum_wrapped, threads_sum 256 groups fun gid =>
      ((visited gid).map (countOneBits edges)).sum, all_threads]

/-! ## Seeded arenas -/

section Seed

variable {endpoints : Nat → Nat → Nat} {edgeBits side : Nat}
  (inGraph : ∀ side edge, endpoints side edge < 2 ^ edgeBits)

/-- The counters of the live edges. -/
abbrev seedCounts (endpoints : Nat → Nat → Nat) (edgeBits side : Nat) (edges : Bitmap) : List Nat :=
  tallies (seedBucket endpoints edgeBits side) u32Modulus (members 0 edges)
    (List.replicate fineBuckets 0)

include inGraph in
/-- Edges have buckets on their side. -/
theorem seed_bucket_lt (edge : Nat) : seedBucket endpoints edgeBits side edge < fineBuckets :=
  fine_bucket_lt edgeBits _ (inGraph side edge)

/-- No order loses a live edge. -/
theorem ordered_few (schedule : Schedule) {edges : Bitmap} (countable : Countable edges) :
    (schedule.order (members 0 edges)).length ≤ maxU32 := by
  rw [(schedule.perm _).length_eq]
  exact countable.small

/-- Every order of the live edges ends at the same counters. -/
theorem ordered_counts (schedule : Schedule) {edges : Bitmap} (countable : Countable edges) :
    tallies (seedBucket endpoints edgeBits side) u32Modulus (schedule.order (members 0 edges))
      (List.replicate fineBuckets 0) = seedCounts endpoints edgeBits side edges :=
  tallies_zero_perm (schedule.perm _) (Nat.lt_succ_of_le (ordered_few schedule countable))

include inGraph in
/-- The counters add up to the number of live edges. -/
theorem seed_counts_sum {edges : Bitmap} (countable : Countable edges) :
    (seedCounts endpoints edgeBits side edges).sum = (members 0 edges).length :=
  tallies_zero_sum _ (Nat.lt_succ_of_le countable.small) fun edge _ => seed_bucket_lt inGraph edge

/-- The storage that the counters ask for, filled. -/
abbrev seeded (endpoints : Nat → Nat → Nat) (edgeBits side : Nat) (schedule : Schedule)
    (edges : Bitmap) (offsets : List Nat) : FineStorage × List Write :=
  fineScatterAlive endpoints edgeBits side schedule edges
    (newStorage offsets fineBuckets (arenaBytes (members 0 edges).length)).clearCursors

include inGraph in
/-- The storage is filled without gaps. -/
theorem seeded_filled (schedule : Schedule) {edges : Bitmap} (countable : Countable edges)
    (refusal : String) (offsets : List Nat)
    (started : fineOffsets refusal 0 (seedCounts endpoints edgeBits side edges) = .ok offsets) :
    Filled (seedBucket endpoints edgeBits side) fineBuckets (schedule.order (members 0 edges))
      (seeded endpoints edgeBits side schedule edges offsets) := by
  have filled := filled_spec (schedule.order (members 0 edges)) (ordered_few schedule countable)
    (fun edge _ => seed_bucket_lt inGraph edge) refusal _ offsets
    (ordered_counts schedule countable).symm started
  rwa [seed_counts_sum inGraph countable] at filled

variable (endpoints edgeBits side) in
/-- The cursors end at the counters. -/
theorem seeded_cursors (schedule : Schedule) {edges : Bitmap} (countable : Countable edges)
    (offsets : List Nat) :
    (seeded endpoints edgeBits side schedule edges offsets).1.cursors =
      seedCounts endpoints edgeBits side edges := by
  have cleared : (newStorage offsets fineBuckets
      (arenaBytes (members 0 edges).length)).clearCursors.cursors = List.replicate fineBuckets 0 := by
    rw [FineStorage.clearCursors, newStorage, List.length_replicate]
  rw [seeded, fineScatterAlive, FineStorage.scatter, cleared]
  exact ordered_counts schedule countable

section Filled

variable {edges : Bitmap} (countable : Countable edges) (schedule : Schedule)
  {filled : FineStorage × List Write}
  (spec : Filled (seedBucket endpoints edgeBits side) fineBuckets
    (schedule.order (members 0 edges)) filled)

include countable spec in
/-- The words of the arena can be stepped over in thirty-two bits. -/
theorem seeded_words : filled.1.arena.length + workgroupSize ≤ u32Modulus := by
  rw [spec.length, (schedule.perm _).length_eq]
  simp only [FineRound.Countable, u32Modulus, workgroupSize] at countable ⊢
  omega

variable (endpoints edgeBits side) in
include countable in
/-- The counter of a bucket is the number of its edges. -/
theorem seed_count_eq (b : Nat) (inside : b < fineBuckets) :
    (seedCounts endpoints edgeBits side edges).getD b 0 =
      (bucket (seedBucket endpoints edgeBits side) (schedule.order (members 0 edges)) b).length := by
  have short : (schedule.order (members 0 edges)).length < u32Modulus :=
    Nat.lt_succ_of_le (ordered_few schedule countable)
  rw [← ordered_counts schedule countable, tallies_zero_getD _ short b inside]

include countable spec in
/-- The workgroups of the verification find no edge in another bucket than its own. -/
theorem fine_verify_arena_eq
    (cursors : filled.1.cursors = seedCounts endpoints edgeBits side edges) :
    fineVerifyArena endpoints edgeBits side filled.1 = 0 := by
  have own : ∀ b ∈ List.range fineBuckets, ((filled.1.bucketSlots b).filter fun edge =>
      seedBucket endpoints edgeBits side edge ≠ b).length = 0 := by
    intro b member
    have inside := List.mem_range.mp member
    have start := spec.starts b (Nat.le_of_lt inside)
    have size := seed_count_eq endpoints edgeBits side countable schedule b inside
    have taken := bucket_slots_perm filled.1 b
      (by rw [start, cursors, size]; exact spec.ranges.within b inside)
      (seeded_words countable schedule spec)
    rw [start, cursors, size, spec.contents b inside] at taken
    rw [(taken.filter _).length_eq, List.length_eq_zero_iff, List.filter_eq_nil_iff]
    intro edge listed
    have placed := (List.mem_filter.mp listed).2
    simpa using placed
  rw [fineVerifyArena, add_all_eq _ _ _ (by decide), List.map_congr_left own]
  simp [asU32]

/-- What a seeded arena is. -/
abbrev seedArena (endpoints : Nat → Nat → Nat) (edgeBits side : Nat) (edges : Bitmap)
    (filled : FineStorage) : FineCsrArena :=
  ⟨seedCounts endpoints edgeBits side edges, asU32 (members 0 edges).length, filled.offsets,
    filled.arena⟩

include inGraph countable spec in
/-- The arena lists the live edges, in ranges without gaps. -/
theorem seed_arena_spec :
    Lists endpoints edgeBits side (liveEdges edges) (seedArena endpoints edgeBits side edges filled.1) ∧
      Ordered (seedArena endpoints edgeBits side edges filled.1) ∧
      Compact (seedArena endpoints edgeBits side edges filled.1) := by
  have starts : ∀ b < fineBuckets, filled.1.offsets.getD b 0 = _ :=
    fun b inside => spec.starts b (Nat.le_of_lt inside)
  have sizes := seed_count_eq endpoints edgeBits side countable schedule
  have sorted : ∀ b < fineBuckets, (seedArena endpoints edgeBits side edges filled.1).bucket b =
      bucket (seedBucket endpoints edgeBits side) (schedule.order (members 0 edges)) b := by
    intro b inside
    rw [FineCsrArena.bucket, starts b inside, sizes b inside, spec.contents b inside]
  have holds : TrimRun.Holds endpoints edgeBits side (liveEdges edges)
      (seedArena endpoints edgeBits side edges filled.1) := by
    refine ⟨by rw [tallies_length, List.length_replicate], ?_, fun b inside => ?_,
      fun b inside edge => ?_⟩
    · exact (as_u32_eq _ countable.small).trans (seed_counts_sum inGraph countable).symm
    · rw [sorted b inside]
      exact ((schedule.perm _).nodup_iff.mpr (members_nodup edges)).filter _
    · rw [sorted b inside, bucket, List.mem_filter, (schedule.perm _).mem_iff, mem_members_live,
        decide_eq_true_eq]
      rfl
  have ordered : Ordered (seedArena endpoints edgeBits side edges filled.1) := by
    refine ⟨fun b inside => ?_, ?_⟩
    · have next := spec.ranges.next b inside
      simp only [starts b inside, sizes b inside, spec.starts (b + 1) inside]
      exact next
    · simp only [spec.starts fineBuckets (Nat.le_refl _)]
      exact spec.ranges.last
  refine ⟨⟨holds, ordered.within, seeded_words countable schedule spec⟩, ordered, fun b inside => ?_⟩
  simp only [starts b inside]
  rw [← ordered_counts schedule countable]
  have short : (schedule.order (members 0 edges)).length < u32Modulus :=
    Nat.lt_succ_of_le (ordered_few schedule countable)
  exact (tallies_zero_take _ short b (Nat.le_of_lt inside)).symm

end Filled

/-! ## The transition -/

variable (limits : Limits) (gib : Nat → String)

/-- The first check passes exactly for the number of live edges. -/
theorem fine_histogram_eq (schedule : Schedule) (survivorCount : Nat) {edges : Bitmap}
    (inGraph : ∀ side edge, endpoints side edge < 2 ^ edgeBits) (countable : Countable edges) :
    fineHistogram endpoints edgeBits side schedule survivorCount edges =
      if (members 0 edges).length ≠ survivorCount then
        .error (.gpu ("fine histogram counted " ++ toString (members 0 edges).length ++
          " edges, expected " ++ toString survivorCount))
      else .ok (seedCounts endpoints edgeBits side edges) := by
  have counted : fineHistogramAlive endpoints edgeBits side schedule edges
      (List.replicate fineBuckets 0) = seedCounts endpoints edgeBits side edges :=
    ordered_counts schedule countable
  rw [fineHistogram, counted, seed_counts_sum inGraph countable]

include inGraph in
/-- Once the storage is allocated, all further checks pass. -/
theorem build_fine_csr_eq (orders : SeedOrders) {edges : Bitmap} (countable : Countable edges) :
    buildFineCsr limits gib endpoints edgeBits side orders (members 0 edges).length edges =
      (allocateFineStorage limits gib (members 0 edges).length
        (seedCounts endpoints edgeBits side edges)).bind fun storage =>
          let filled := fineScatterAlive endpoints edgeBits side orders.scatter edges
            storage.clearCursors
          .ok (seedArena endpoints edgeBits side edges filled.1, filled.2) := by
  have counted : fineHistogram endpoints edgeBits side orders.histogram (members 0 edges).length
      edges = _ := fine_histogram_eq orders.histogram _ inGraph countable
  rw [if_neg (not_not.mpr rfl)] at counted
  rw [buildFineCsr, bind_of_ok _ _ _ counted]
  have total : (seedCounts endpoints edgeBits side edges).sum = (members 0 edges).length :=
    seed_counts_sum inGraph countable
  cases allocated : allocateFineStorage limits gib (members 0 edges).length
      (seedCounts endpoints edgeBits side edges) with
  | error refusal => rfl
  | ok storage =>
    have sized := allocated
    rw [← total] at sized
    obtain ⟨refusal, offsets, started, rfl⟩ := allocate_fine_storage_ok _ _ _ _ sized
    rw [total] at allocated ⊢
    have cursors := seeded_cursors endpoints edgeBits side orders.scatter countable offsets
    have filled := seeded_filled inGraph orders.scatter countable refusal offsets started
    have verified := fine_verify_arena_eq countable orders.scatter filled cursors
    have scattered : scatterFineCsr endpoints edgeBits side orders.scatter
        (seedCounts endpoints edgeBits side edges) edges
        (newStorage offsets fineBuckets (arenaBytes (members 0 edges).length)) =
          .ok (seeded endpoints edgeBits side orders.scatter edges offsets) := by
      rw [scatterFineCsr, if_neg (not_not.mpr cursors)]
    have passes : verifyFineCsr endpoints edgeBits side
        (seeded endpoints edgeBits side orders.scatter edges offsets).1 = .ok () := by
      rw [verifyFineCsr, verified, if_neg (not_not.mpr rfl)]
    rw [bind_of_ok _ _ _ rfl, bind_of_ok _ _ _ scattered, bind_of_ok _ _ _ passes]
    rfl

include inGraph in
/-- A transition that ends has been asked for the number of live edges, and leaves an arena of
    them without gaps. -/
theorem build_fine_csr_ok (orders : SeedOrders) (survivorCount : Nat) {edges : Bitmap}
    (countable : Countable edges) (next : FineCsrArena) (writes : List Write)
    (ended : buildFineCsr limits gib endpoints edgeBits side orders survivorCount edges =
      .ok (next, writes)) :
    survivorCount = (members 0 edges).length ∧
      Lists endpoints edgeBits side (liveEdges edges) next ∧ Ordered next ∧ Compact next ∧
      ∀ write ∈ writes, write.Inside := by
  have asked : survivorCount = (members 0 edges).length := by
    obtain ⟨counts, counted, _⟩ := (bind_ok_iff _ _ _).mp ended
    rw [fine_histogram_eq orders.histogram survivorCount inGraph countable] at counted
    split at counted
    · cases counted
    · rename_i same
      exact (not_not.mp same).symm
  subst asked
  rw [build_fine_csr_eq inGraph limits gib orders countable] at ended
  obtain ⟨storage, allocated, returned⟩ := (bind_ok_iff _ _ _).mp ended
  have total : (seedCounts endpoints edgeBits side edges).sum = (members 0 edges).length :=
    seed_counts_sum inGraph countable
  rw [← total] at allocated
  obtain ⟨refusal, offsets, started, rfl⟩ := allocate_fine_storage_ok _ _ _ _ allocated
  rw [total] at returned
  have filled := seeded_filled inGraph orders.scatter countable refusal offsets started
  cases returned
  obtain ⟨lists, ordered, compact⟩ := seed_arena_spec inGraph countable orders.scatter filled
  exact ⟨rfl, lists, ordered, compact, filled.inside⟩

include inGraph in
/-- Asked for the number of live edges, the transition is only refused as unsupported. -/
theorem build_fine_csr_error (orders : SeedOrders) {edges : Bitmap} (countable : Countable edges)
    (error : SolveError) (failed : buildFineCsr limits gib endpoints edgeBits side orders
      (members 0 edges).length edges = .error error) : Unsupported error := by
  rw [build_fine_csr_eq inGraph limits gib orders countable] at failed
  have gives := allocate_fine_storage_gives limits gib (members 0 edges).length
    (seedCounts endpoints edgeBits side edges)
  exact (gives_bind gives fun _ _ => gives_ok trivial : Gives _ (fun _ => True) _).failed error failed

include inGraph in
/-- It ends if the adapter can hold and bind an arena of the live edges. -/
theorem build_fine_csr_returns (orders : SeedOrders) {edges : Bitmap} (countable : Countable edges)
    (fits : arenaBytes (members 0 edges).length ≤ limits.maxBufferSize)
    (bindable : arenaBytes (members 0 edges).length ≤ limits.maxStorageBufferBindingSize) :
    ∃ result, buildFineCsr limits gib endpoints edgeBits side orders (members 0 edges).length
      edges = .ok result := by
  have total : (seedCounts endpoints edgeBits side edges).sum = (members 0 edges).length :=
    seed_counts_sum inGraph countable
  rw [build_fine_csr_eq inGraph limits gib orders countable]
  obtain ⟨storage, allocated⟩ := allocate_fine_storage_returns limits gib
    (seedCounts endpoints edgeBits side edges) (total ▸ countable.small) (by rwa [total])
    (by rwa [total])
  rw [total] at allocated
  rw [allocated]
  exact ⟨_, rfl⟩

end Seed

/-- The count of the live edges is their number. -/
theorem counted_alive {edgeBits groups : Nat} (launch : Launch edgeBits groups) {edges : Bitmap}
    (sized : edges.length = (GraphSize.new edgeBits).wordCount) (countable : Countable edges)
    (schedule : Schedule) :
    countAliveEdges (Params.new edgeBits) groups edges schedule =
      (members 0 edges).length :=
  (count_alive_edges_eq launch edges sized schedule).trans (as_u32_eq _ countable.small)

/-- Whatever the order of the threads, the transition passes all its checks for the number of
    live edges that was counted before, and for no other number; it leaves an arena of the live
    edges without gaps, and no store leaves the range of its bucket. Only the adapter may
    refuse, and it does not if it can hold and bind an arena of the live edges. The live edges
    are few enough to be stepped over in thirty-two bits, which the source does not check;
    nothing else is assumed of the graph. -/
theorem build_fine_csr_spec {endpoints : Nat → Nat → Nat} {edgeBits groups : Nat}
    (launch : Launch edgeBits groups) (inGraph : ∀ side edge, endpoints side edge < 2 ^ edgeBits)
    (limits : Limits) (gib : Nat → String) (side : Nat) (edges : Bitmap)
    (sized : edges.length = (GraphSize.new edgeBits).wordCount) (countable : Countable edges)
    (counting : Schedule) (orders : SeedOrders) :
    let alive := countAliveEdges (Params.new edgeBits) groups edges counting
    (∀ survivorCount next writes,
      buildFineCsr limits gib endpoints edgeBits side orders survivorCount edges =
        .ok (next, writes) →
      survivorCount = alive ∧ Lists endpoints edgeBits side (liveEdges edges) next ∧ Ordered next ∧
        Compact next ∧ ∀ write ∈ writes, write.Inside) ∧
    (∀ error, buildFineCsr limits gib endpoints edgeBits side orders alive edges = .error error →
      Unsupported error) ∧
    (arenaBytes alive ≤ limits.maxBufferSize → arenaBytes alive ≤ limits.maxStorageBufferBindingSize →
      ∃ result, buildFineCsr limits gib endpoints edgeBits side orders alive edges =
        .ok result) := by
  dsimp only
  rw [counted_alive launch sized countable counting]
  refine ⟨fun survivorCount next writes ended => ?_, fun error failed => ?_, fun fits bindable => ?_⟩
  · exact build_fine_csr_ok inGraph limits gib orders survivorCount countable next writes ended
  · exact build_fine_csr_error inGraph limits gib orders countable error failed
  · exact build_fine_csr_returns inGraph limits gib orders countable fits bindable

/-- The edges zero and one, complementary on both sides, are counted and stored. -/
theorem pair_seeded :
    ∃ next writes, buildFineCsr ⟨32768, 2 ^ 28, 2 ^ 28⟩ toString (fun _ edge => edge % 2) 5 0
        ⟨inOrder, inOrder⟩ (countAliveEdges (Params.new 5) 1 [3#32] inOrder) [3#32] =
          .ok (next, writes) ∧
      Lists (fun _ edge => edge % 2) 5 0 (liveEdges [3#32]) next ∧ Ordered next ∧ Compact next ∧
      ∀ write ∈ writes, write.Inside := by
  have launch : Launch 5 1 := ⟨by decide, by decide, by decide, by decide⟩
  have two : (members 0 [3#32]).length = 2 := by decide
  have countable : Countable [3#32] := by
    rw [FineRound.Countable, two]
    decide
  have counted : countAliveEdges (Params.new 5) 1 [3#32] inOrder = (members 0 [3#32]).length :=
    counted_alive launch (by decide) countable inOrder
  have inGraph : ∀ _ edge : Nat, edge % 2 < 2 ^ 5 :=
    fun _ edge => (Nat.mod_lt edge (by decide)).trans_le (by decide)
  rw [two] at counted
  obtain ⟨left, _, returns⟩ := build_fine_csr_spec launch inGraph ⟨32768, 2 ^ 28, 2 ^ 28⟩ toString
    0 [3#32] (by decide) countable inOrder ⟨inOrder, inOrder⟩
  rw [counted] at returns ⊢
  obtain ⟨⟨next, writes⟩, ended⟩ := returns (by decide) (by decide)
  exact ⟨next, writes, ended, (left 2 next writes ended).2⟩

end CuckatooMiner.FineSeed
