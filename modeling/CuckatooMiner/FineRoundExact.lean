import Mathlib
import CuckatooMiner.FineKernels

/-!
# Fine rounds keep what a direct round keeps

A fine round leaves an arena with each edge that a direct round on the side keeps, once, in
the bucket of its other node. This holds of a fixed attempt that is not given up, of a round
without gaps and of the sharded transition, for every order of the reservations. No store
leaves the range of its bucket, and a fixed attempt that is given up leaves its input as it
was.

Arenas and bitmaps must leave room in thirty-two bits: a thread steps beyond the last word of
its bucket by less than the size of its workgroup, and counters count all edges. A bitmap of
all edges of the largest graph does not: if its edges share one bucket, the counter of the
bucket ends at zero, and so does the number of edges that it is compared with.
-/

namespace CuckatooMiner.FineRound

open PackedBits Pruning Reservation Segments SlotRanges StridedSweep
open CountingPass (bucket offset)
open GpuLean (asU32 inOrder liveEdges Mates)
open LeanRound (Bitmap)
open Outcome (bind_of_ok bind_ok_iff)
open SleanLayout (Limits)
open Solver (SolveError)
open TrimRun (FineCsrArena fineBuckets fineBucket Holds Compact allBuckets all_buckets_spec
  fine_bucket_lt)

/-! ## Arenas of rounds -/

/-- An arena lists live edges in buckets of a side, as many as it counts, and its words can be
    stepped over in thirty-two bits. -/
structure Lists (endpoints : Nat → Nat → Nat) (edgeBits side : Nat) (live : Set Nat)
    (arena : FineCsrArena) : Prop where
  holds : Holds endpoints edgeBits side live arena
  ranges : ∀ b < fineBuckets,
    arena.offsets.getD b 0 + arena.counts.getD b 0 ≤ arena.arena.length
  words : arena.arena.length + workgroupSize ≤ u32Modulus

/-- The ranges of the buckets of an arena follow one another. They may leave gaps, as those of a
    round with fixed room do. -/
def Ordered (arena : FineCsrArena) : Prop :=
  Ranges fineBuckets arena.arena.length (arena.offsets.getD · 0) (arena.counts.getD · 0)

/-- The edges that a round keeps, each once. The last field is what the stride of the passes
    needs, and the only bound on their number. -/
structure Kept (endpoints : Nat → Nat → Nat) (side : Nat) (live : Set Nat) (edges : List Nat) :
    Prop where
  unique : edges.Nodup
  members : ∀ edge, edge ∈ edges ↔ edge ∈ trimSide (Mates endpoints) side live
  few : edges.length + workgroupSize ≤ u32Modulus

variable {endpoints : Nat → Nat → Nat} {edgeBits side : Nat} {live : Set Nat}

/-- A bucket has as many edges as are counted. -/
theorem Lists.size {arena : FineCsrArena} (lists : Lists endpoints edgeBits side live arena)
    (b : Nat) (inside : b < fineBuckets) :
    (arena.bucket b).length = arena.counts.getD b 0 := by
  have range := lists.ranges b inside
  rw [FineCsrArena.bucket, List.length_take, List.length_drop]
  omega

/-- The order of the kept edges does not matter. -/
theorem Kept.perm {edges other : List Nat} (kept : Kept endpoints side live edges)
    (perm : other.Perm edges) : Kept endpoints side live other :=
  ⟨perm.nodup_iff.mpr kept.unique, fun edge => perm.mem_iff.trans (kept.members edge),
    perm.length_eq ▸ kept.few⟩

/-- The number of kept edges has thirty-two bits. -/
theorem Kept.small {edges : List Nat} (kept : Kept endpoints side live edges) :
    edges.length ≤ maxU32 := by
  have few := kept.few
  rw [u32Modulus, workgroupSize] at few
  rw [maxU32]
  omega

/-- The workgroups of a round find the edges of an arena. -/
theorem Lists.sorted {arena : FineCsrArena} (lists : Lists endpoints edgeBits side live arena) :
    Sorted endpoints edgeBits side 0 fineBuckets live (inputStorage arena) := by
  have taken : ∀ b < fineBuckets, ((inputStorage arena).bucketSlots b).Perm (arena.bucket b) :=
    fun b inside => bucket_slots_perm (inputStorage arena) b (lists.ranges b inside) lists.words
  constructor
  · intro b inside
    exact (taken b inside).nodup_iff.mpr (lists.holds.unique b inside)
  · intro b inside edge
    rw [(taken b inside).mem_iff, lists.holds.members b inside edge, Nat.zero_add]

/-- What a round leaves: an arena of what it keeps, in ranges that follow one another. -/
structure Left (endpoints : Nat → Nat → Nat) (edgeBits side : Nat) (live : Set Nat)
    (next : FineCsrArena) : Prop where
  lists : Lists endpoints edgeBits (side ^^^ 1) (trimSide (Mates endpoints) side live) next
  ordered : Ordered next

section Rounds

variable (large : 20 ≤ edgeBits) (inGraph : ∀ side edge, endpoints side edge < 2 ^ edgeBits)

include large inGraph in
/-- A dispatch over an arena keeps what a round keeps. -/
theorem Lists.kept {arena : FineCsrArena} (lists : Lists endpoints edgeBits side live arena) :
    Kept endpoints side live
      (keptEdges endpoints edgeBits side fineBuckets (inputStorage arena)) := by
  obtain ⟨unique, members⟩ := kept_edges_spec large lists.sorted
  have in_buckets : ∀ edge, fineBucket edgeBits (endpoints side edge) < fineBuckets :=
    fun edge => fine_bucket_lt edgeBits _ (inGraph side edge)
  have trimmed : ∀ edge, edge ∈ keptEdges endpoints edgeBits side fineBuckets (inputStorage arena) ↔
      edge ∈ trimSide (Mates endpoints) side live := by
    intro edge
    rw [members, Nat.zero_add]
    exact and_iff_left ⟨Nat.zero_le _, in_buckets edge⟩
  refine ⟨unique, trimmed, ?_⟩
  -- Every kept edge is a word of the arena.
  have words : keptEdges endpoints edgeBits side fineBuckets (inputStorage arena) ⊆ arena.arena := by
    intro edge member
    have listed := (lists.holds.members _ (in_buckets edge) edge).mpr
      ⟨((trimmed edge).mp member).1, rfl⟩
    exact List.mem_of_mem_drop (List.mem_of_mem_take listed)
  have fewer := (unique.subperm words).length_le
  have small := lists.words
  omega

include inGraph in
/-- Edges have buckets on the other side. -/
theorem next_bucket_lt (edge : Nat) : nextBucket endpoints edgeBits side edge < fineBuckets :=
  fine_bucket_lt edgeBits _ (inGraph _ edge)

/-- An arena whose ranges start with the kept edges of their buckets holds them on the other
    side. -/
theorem Kept.holds {edges : List Nat} (kept : Kept endpoints side live edges)
    {arena : FineCsrArena} (buckets : arena.counts.length = fineBuckets)
    (total : arena.survivorCount = arena.counts.sum)
    (counts : ∀ b < fineBuckets, arena.counts.getD b 0 =
      (bucket (nextBucket endpoints edgeBits side) edges b).length)
    (contents : ∀ b < fineBuckets, (arena.arena.drop (arena.offsets.getD b 0)).take
      (bucket (nextBucket endpoints edgeBits side) edges b).length =
        bucket (nextBucket endpoints edgeBits side) edges b) :
    Holds endpoints edgeBits (side ^^^ 1) (trimSide (Mates endpoints) side live) arena := by
  have sorted : ∀ b < fineBuckets,
      arena.bucket b = bucket (nextBucket endpoints edgeBits side) edges b := by
    intro b inside
    rw [FineCsrArena.bucket, counts b inside, contents b inside]
  refine ⟨buckets, total, ?_, ?_⟩
  · intro b inside
    rw [sorted b inside]
    exact kept.unique.filter _
  · intro b inside edge
    rw [sorted b inside, bucket, List.mem_filter, kept.members, decide_eq_true_eq, nextBucket]

/-- Counters of the kept edges. -/
abbrev keptCounts (endpoints : Nat → Nat → Nat) (edgeBits side : Nat) (edges : List Nat) : List Nat :=
  tallies (nextBucket endpoints edgeBits side) u32Modulus edges (List.replicate fineBuckets 0)

include inGraph in
/-- The counters of the kept edges sum up to their number. -/
theorem Kept.total {edges : List Nat} (kept : Kept endpoints side live edges) :
    (keptCounts endpoints edgeBits side edges).sum = edges.length :=
  tallies_zero_sum edges (Nat.lt_succ_of_le kept.small) fun edge _ => next_bucket_lt inGraph edge

/-- A number of thirty-two bits is itself. -/
theorem as_u32_eq (number : Nat) (small : number ≤ maxU32) : asU32 number = number :=
  Nat.mod_eq_of_lt (Nat.lt_succ_of_le small)

include inGraph in
/-- An arena whose ranges follow one another, with room for the kept edges of their buckets, and
    start with these is what a round leaves. -/
theorem Kept.left {edges : List Nat} (kept : Kept endpoints side live edges) {start room : Nat → Nat}
    {offsets words : List Nat} (ranges : Ranges fineBuckets words.length start room)
    (starts : ∀ b ≤ fineBuckets, offsets.getD b 0 = start b)
    (enough : ∀ b < fineBuckets,
      (bucket (nextBucket endpoints edgeBits side) edges b).length ≤ room b)
    (contents : ∀ b < fineBuckets, (words.drop (start b)).take
      (bucket (nextBucket endpoints edgeBits side) edges b).length =
        bucket (nextBucket endpoints edgeBits side) edges b)
    (few : words.length + workgroupSize ≤ u32Modulus) :
    Left endpoints edgeBits side live ⟨keptCounts endpoints edgeBits side edges,
      asU32 (keptCounts endpoints edgeBits side edges).sum, offsets, words⟩ := by
  have short : edges.length < u32Modulus := Nat.lt_succ_of_le kept.small
  have total : (keptCounts endpoints edgeBits side edges).sum = edges.length := kept.total inGraph
  have counts : ∀ b < fineBuckets, (keptCounts endpoints edgeBits side edges).getD b 0 =
      (bucket (nextBucket endpoints edgeBits side) edges b).length :=
    fun b inside => tallies_zero_getD edges short b inside
  have ordered : Ranges fineBuckets words.length (offsets.getD · 0)
      ((keptCounts endpoints edgeBits side edges).getD · 0) := by
    refine ⟨fun b inside => ?_, ?_⟩
    · have next := ranges.next b inside
      have room := enough b inside
      rw [starts b (Nat.le_of_lt inside), counts b inside, starts (b + 1) inside]
      omega
    · rw [starts _ (Nat.le_refl _)]
      exact ranges.last
  have holds : Holds endpoints edgeBits (side ^^^ 1) (trimSide (Mates endpoints) side live)
      ⟨keptCounts endpoints edgeBits side edges,
        asU32 (keptCounts endpoints edgeBits side edges).sum, offsets, words⟩ := by
    apply kept.holds (by rw [tallies_length, List.length_replicate])
      (as_u32_eq _ (total ▸ kept.small)) counts
    intro b inside
    simp only [starts b (Nat.le_of_lt inside)]
    exact contents b inside
  exact ⟨⟨holds, ordered.within, few⟩, ordered⟩

include inGraph in
/-- An arena that is filled without gaps with the kept edges is what a round leaves. -/
theorem Kept.filled {edges : List Nat} (kept : Kept endpoints side live edges)
    {filled : FineStorage × List Write}
    (spec : Filled (nextBucket endpoints edgeBits side) fineBuckets edges filled) :
    Left endpoints edgeBits side live ⟨keptCounts endpoints edgeBits side edges,
        asU32 (keptCounts endpoints edgeBits side edges).sum, filled.1.offsets, filled.1.arena⟩ ∧
      Compact ⟨keptCounts endpoints edgeBits side edges,
        asU32 (keptCounts endpoints edgeBits side edges).sum, filled.1.offsets, filled.1.arena⟩ := by
  have few := kept.few
  constructor
  · apply kept.left inGraph spec.ranges spec.starts (fun b _ => Nat.le_refl _) spec.contents
    rw [spec.length]
    simp only [u32Modulus, workgroupSize] at few ⊢
    omega
  · intro b inside
    simp only [spec.starts b (Nat.le_of_lt inside)]
    exact (tallies_zero_take edges (Nat.lt_succ_of_le kept.small) b (Nat.le_of_lt inside)).symm

/-! ## Rounds without gaps -/

variable (limits : Limits) (gib : Nat → String)

include large inGraph in
/-- A round without gaps counts and stores the same edges. -/
theorem trim_fine_csr_once_eq (orders : CsrOrders) {arena : FineCsrArena}
    (lists : Lists endpoints edgeBits side live arena) :
    ∃ edges, Kept endpoints side live edges ∧
      trimFineCsrOnce limits gib endpoints edgeBits side orders arena = do
        let (output, survivorCount) ← allocateFineTrimStorage limits gib
          (keptCounts endpoints edgeBits side edges)
        let (filled, writes) :=
          output.clearCursors.scatter (nextBucket endpoints edgeBits side) edges
        return (⟨keptCounts endpoints edgeBits side edges, asU32 survivorCount, output.offsets,
          filled.arena⟩, writes) := by
  have kept := lists.kept large inGraph
  have counted := kept.perm (orders.count.perm _)
  have perm := (orders.count.perm _).trans (orders.scatter.perm
    (keptEdges endpoints edgeBits side fineBuckets (inputStorage arena))).symm
  have same : tallies (nextBucket endpoints edgeBits side) u32Modulus
      (orders.count.order (keptEdges endpoints edgeBits side fineBuckets (inputStorage arena)))
      (List.replicate fineBuckets 0) = _ :=
    tallies_zero_perm perm (Nat.lt_succ_of_le counted.small)
  refine ⟨_, kept.perm (orders.scatter.perm _), ?_⟩
  rw [trimFineCsrOnce]
  simp only [fineTrimCount, boundBuffers, fineTrimScatter, List.nil_append, same]

include large inGraph in
/-- A round without gaps leaves what a round leaves, without gaps, and its stores stay within
    the ranges of their buckets. -/
theorem trim_fine_csr_once_left (orders : CsrOrders) {arena : FineCsrArena}
    (lists : Lists endpoints edgeBits side live arena) (next : FineCsrArena) (writes : List Write)
    (ended : trimFineCsrOnce limits gib endpoints edgeBits side orders arena = .ok (next, writes)) :
    Left endpoints edgeBits side live next ∧ Compact next ∧ ∀ write ∈ writes, write.Inside := by
  obtain ⟨edges, kept, same⟩ := trim_fine_csr_once_eq large inGraph limits gib orders lists
  rw [same] at ended
  obtain ⟨⟨output, survivorCount⟩, allocated, returned⟩ := (bind_ok_iff _ _ _).mp ended
  obtain ⟨refusal, offsets, started, rfl, rfl⟩ :=
    allocate_fine_trim_storage_ok _ _ _ _ _ allocated
  cases returned
  have filled := filled_spec edges kept.small (fun edge _ => next_bucket_lt inGraph edge) refusal _
    offsets rfl started
  obtain ⟨left, compact⟩ := kept.filled inGraph filled
  exact ⟨left, compact, filled.inside⟩

include inGraph in
/-- A round keeps no more edges than the arena counts. -/
theorem Lists.kept_le {arena : FineCsrArena} (lists : Lists endpoints edgeBits side live arena)
    {edges : List Nat} (kept : Kept endpoints side live edges) :
    edges.length ≤ arena.survivorCount := by
  obtain ⟨_, members⟩ := all_buckets_spec inGraph lists.holds
  have listed : edges ⊆ allBuckets arena :=
    fun edge member => (members edge).mpr ((kept.members edge).mp member).1
  have counts : (List.range fineBuckets).map (arena.counts.getD · 0) = arena.counts := by
    have read := read_range arena.counts 0 0 fineBuckets (by rw [lists.holds.buckets, Nat.zero_add])
    rwa [List.drop_zero, ← lists.holds.buckets, List.take_length, ← List.range_eq_range',
      lists.holds.buckets] at read
  have sizes : (List.range fineBuckets).map (fun b => (arena.bucket b).length) =
      (List.range fineBuckets).map (arena.counts.getD · 0) :=
    List.map_congr_left fun b member => lists.size b (List.mem_range.mp member)
  calc edges.length ≤ (allBuckets arena).length := (kept.unique.subperm listed).length_le
    _ = arena.counts.sum := by rw [allBuckets, List.length_flatMap, sizes, counts]
    _ = arena.survivorCount := lists.holds.total.symm

include large inGraph in
/-- A round without gaps ends if the adapter can bind an arena of all edges. -/
theorem trim_fine_csr_once_returns (orders : CsrOrders) {arena : FineCsrArena}
    (lists : Lists endpoints edgeBits side live arena)
    (bindable : arenaBytes arena.survivorCount ≤ limits.maxStorageBufferBindingSize) :
    ∃ result, trimFineCsrOnce limits gib endpoints edgeBits side orders arena = .ok result := by
  obtain ⟨edges, kept, same⟩ := trim_fine_csr_once_eq large inGraph limits gib orders lists
  have total : (keptCounts endpoints edgeBits side edges).sum = edges.length := kept.total inGraph
  have fewer := lists.kept_le inGraph kept
  obtain ⟨⟨output, survivorCount⟩, allocated⟩ := allocate_fine_trim_storage_returns limits gib
    (keptCounts endpoints edgeBits side edges) (total ▸ kept.small)
    ((arena_bytes_mono (total.trans_le fewer)).trans bindable)
  rw [same, bind_of_ok _ _ _ allocated]
  exact ⟨_, rfl⟩

/-! ## Fixed attempts -/

/-- Buckets of one capacity leave room for the steps of a workgroup. -/
theorem fixed_words (capacity : Nat) (slots : capacity * fineBuckets ≤ maxU32) :
    capacity * fineBuckets + workgroupSize ≤ u32Modulus := by
  have few : capacity < 131072 := Nat.lt_of_mul_lt_mul_right
    (Nat.lt_succ_of_le slots : capacity * fineBuckets < 131072 * fineBuckets)
  calc capacity * fineBuckets + workgroupSize ≤ 131071 * fineBuckets + workgroupSize :=
        Nat.add_le_add_right (Nat.mul_le_mul_right _ (Nat.le_of_lt_succ few)) _
    _ ≤ u32Modulus := by decide

/-- The ranges of a fixed attempt have one capacity. -/
theorem prepare_fine_fixed_storage_spec (arena : FineCsrArena) (storage : FineStorage)
    (prepared : prepareFineFixedStorage limits arena = some storage) :
    ∃ capacity, storage.arena.length + workgroupSize ≤ u32Modulus ∧
      Starts fineBuckets storage.arena.length (· * capacity) (fun _ => capacity) storage.offsets := by
  rw [prepareFineFixedStorage] at prepared
  split at prepared
  · cases prepared
  · rename_i accepted
    have same := Option.some.inj prepared
    subst same
    set capacity := arena.counts.foldl max 0 + fineFixedMinMargin
    have slots : capacity * fineBuckets ≤ maxU32 := by omega
    have positive : 0 < capacity := by
      have margin : 0 < fineFixedMinMargin := by decide
      omega
    have whole : max (capacity * fineBuckets) 1 = capacity * fineBuckets :=
      Nat.max_eq_left (Nat.mul_pos positive (by decide))
    rw [arena_words, whole]
    refine ⟨capacity, ?_, ⟨fun b _ => ?_, ?_⟩, ?_, slots⟩
    · exact fixed_words capacity slots
    · exact Nat.le_of_eq (Nat.succ_mul b capacity).symm
    · exact Nat.le_of_eq (Nat.mul_comm fineBuckets capacity)
    · intro b inside
      have below : b < ((List.range (fineBuckets + 1)).map fun b => asU32 (b * capacity)).length := by
        rw [List.length_map, List.length_range]
        exact Nat.lt_succ_of_le inside
      rw [newStorage, List.getD_eq_getElem _ _ below, List.getElem_map, List.getElem_range]
      refine as_u32_eq _ (le_trans ?_ slots)
      rw [Nat.mul_comm]
      exact Nat.mul_le_mul_left _ inside

/-- The kernel of a fixed attempt reads the capacity off the first two starts. -/
theorem fixed_capacity {capacity size : Nat} {offsets : List Nat}
    (layout : Starts fineBuckets size (· * capacity) (fun _ => capacity) offsets) :
    asU32 (offsets.getD 1 0 + u32Modulus - offsets.getD 0 0) = capacity := by
  have within := layout.ranges.within 0 (by decide)
  have small := layout.small
  rw [layout.starts 1 (by decide), layout.starts 0 (Nat.zero_le _), Nat.one_mul, Nat.zero_mul,
    Nat.sub_zero, asU32, u32Modulus, Nat.add_mod_right]
  refine as_u32_eq capacity (le_trans ?_ small)
  rwa [Nat.zero_mul, Nat.zero_add] at within

/-- If every reserved slot is within the capacity, no bucket has more edges. -/
theorem bucket_le_capacity {bucketOf : Nat → Nat} {buckets capacity : Nat} (edges : List Nat)
    (few : edges.length ≤ maxU32)
    (stored : ∀ store ∈ reserved bucketOf u32Modulus edges (List.replicate buckets 0),
      store.2 < capacity) (b : Nat) (inside : b < buckets) :
    (bucket bucketOf edges b).length ≤ capacity := by
  by_contra larger
  have slot_inside : capacity < (bucket bucketOf edges b).length := Nat.lt_of_not_le larger
  have here : bucketOf (bucket bucketOf edges b)[capacity] = b := by
    simpa using (List.mem_filter.mp (List.getElem_mem slot_inside)).2
  have member := (mem_reserved_zero edges (fits_of_length edges (Nat.lt_succ_of_le few))
    (bucket bucketOf edges b)[capacity] capacity (here.symm ▸ inside)).mpr (by
      rw [here]
      exact List.getElem?_eq_getElem slot_inside)
  exact Nat.lt_irrefl _ (stored _ member)

include inGraph in
/-- A fixed attempt stores edges in the ranges of their buckets only, and if nothing
    overflows, it leaves what a round leaves. -/
theorem Kept.fixed {edges : List Nat} (kept : Kept endpoints side live edges) {capacity : Nat}
    {storage : FineStorage} (words : storage.arena.length + workgroupSize ≤ u32Modulus)
    (layout : Starts fineBuckets storage.arena.length (· * capacity) (fun _ => capacity)
      storage.offsets) :
    let slots := reserved (nextBucket endpoints edgeBits side) u32Modulus edges
      (List.replicate fineBuckets 0)
    let stores := slots.filter fun store => store.2 < capacity
    (∀ write ∈ writesOf (nextBucket endpoints edgeBits side) storage.offsets stores, write.Inside) ∧
      (asU32 (0 + (slots.length - stores.length)) = 0 →
        Left endpoints edgeBits side live ⟨keptCounts endpoints edgeBits side edges,
          asU32 (keptCounts endpoints edgeBits side edges).sum, storage.offsets,
          place (nextBucket endpoints edgeBits side) (slotIndex storage.offsets) stores
            storage.arena⟩) := by
  intro slots stores
  have short : edges.length < u32Modulus := Nat.lt_succ_of_le kept.small
  have below : ∀ edge ∈ edges, nextBucket endpoints edgeBits side edge < fineBuckets :=
    fun edge _ => next_bucket_lt inGraph edge
  have fits : Fits (nextBucket endpoints edgeBits side) u32Modulus edges
    (List.replicate fineBuckets 0) := fits_of_length edges short
  constructor
  · apply layout.writes_inside
    intro store member
    obtain ⟨reserved_here, has_room⟩ := List.mem_filter.mp member
    exact ⟨below _ (reserved_slot edges fits below store reserved_here).1,
      of_decide_eq_true has_room⟩
  · intro no_overflow
    have slot_count : slots.length = edges.length := by
      have items : slots.map Prod.fst = edges := reserved_items edges (List.replicate fineBuckets 0)
      rw [← items, List.length_map]
    have all : stores = slots := by
      have fewer : stores.length ≤ slots.length := List.length_filter_le _ _
      rw [Nat.zero_add, as_u32_eq _ (by have small := kept.small; omega)] at no_overflow
      have same : stores.length = slots.length := by omega
      exact List.filter_eq_self.mpr (List.length_filter_eq_length_iff.mp same)
    have enough := bucket_le_capacity edges kept.small
      (fun store member => of_decide_eq_true (List.filter_eq_self.mp all store member))
    rw [all]
    apply kept.left inGraph (place_length slots storage.arena ▸ layout.ranges) layout.starts enough
    · intro b inside
      exact place_reserved layout.ranges edges fits below layout.slot_index enough _ rfl b inside
    · rwa [place_length]

include large inGraph in
/-- A fixed attempt always ends. Its stores stay within the ranges of their buckets, its input
    is as it was, and unless it was given up, it leaves what a round leaves. -/
theorem trim_fine_fixed_once_spec (schedule : Schedule) {arena : FineCsrArena}
    (lists : Lists endpoints edgeBits side live arena) :
    ∃ attempt writes, trimFineFixedOnce limits endpoints edgeBits side schedule arena =
        .ok (attempt, inputStorage arena, writes) ∧ (∀ write ∈ writes, write.Inside) ∧
      ∀ next, attempt = some next → Left endpoints edgeBits side live next := by
  rw [trimFineFixedOnce]
  cases prepared : prepareFineFixedStorage limits arena with
  | none =>
    exact ⟨none, [], rfl, fun write member => absurd member List.not_mem_nil,
      fun next impossible => nomatch impossible⟩
  | some storage =>
    obtain ⟨capacity, words, layout⟩ := prepare_fine_fixed_storage_spec limits arena storage prepared
    have kept := (lists.kept large inGraph).perm (schedule.perm _)
    have fewer := lists.kept_le inGraph kept
    have total : (keptCounts endpoints edgeBits side _).sum = _ := kept.total inGraph
    obtain ⟨inside, left⟩ := kept.fixed inGraph words layout
    simp only [fixedAttempt, fineTrimFixed, boundBuffers, fixed_capacity layout, List.nil_append]
    split
    · exact ⟨none, _, rfl, inside, fun next impossible => nomatch impossible⟩
    · rename_i no_overflow
      rw [if_neg (Nat.not_lt.mpr (total.trans_le fewer))]
      refine ⟨_, _, rfl, inside, fun next same => ?_⟩
      rw [← Option.some.inj same]
      exact left (not_not.mp no_overflow)

include large inGraph in
/-- A round with a fixed attempt first leaves what a round leaves, whether or not the attempt
    is given up. -/
theorem trim_fine_round_left (schedule : Schedule) (orders : CsrOrders) {arena : FineCsrArena}
    (lists : Lists endpoints edgeBits side live arena) (next : FineCsrArena) (writes : List Write)
    (ended : trimFineRound limits gib endpoints edgeBits side schedule orders arena =
      .ok (next, writes)) :
    Left endpoints edgeBits side live next ∧ ∀ write ∈ writes, write.Inside := by
  obtain ⟨attempt, attempt_writes, attempted, attempt_inside, attempt_left⟩ :=
    trim_fine_fixed_once_spec large inGraph limits schedule lists
  rw [trimFineRound, bind_of_ok _ _ _ attempted] at ended
  cases attempt with
  | some found =>
    cases ended
    exact ⟨attempt_left _ rfl, attempt_inside⟩
  | none =>
    obtain ⟨⟨trimmed, further⟩, fallback, returned⟩ := (bind_ok_iff _ _ _).mp ended
    cases returned
    obtain ⟨left, _, inside⟩ :=
      trim_fine_csr_once_left large inGraph limits gib orders lists _ _ fallback
    refine ⟨left, fun write member => ?_⟩
    rcases List.mem_append.mp member with early | late
    · exact attempt_inside write early
    · exact inside write late

include large inGraph in
/-- Such a round ends if the adapter can bind an arena of all edges. -/
theorem trim_fine_round_returns (schedule : Schedule) (orders : CsrOrders) {arena : FineCsrArena}
    (lists : Lists endpoints edgeBits side live arena)
    (bindable : arenaBytes arena.survivorCount ≤ limits.maxStorageBufferBindingSize) :
    ∃ result, trimFineRound limits gib endpoints edgeBits side schedule orders arena =
      .ok result := by
  obtain ⟨attempt, attempt_writes, attempted, _, _⟩ :=
    trim_fine_fixed_once_spec large inGraph limits schedule lists
  obtain ⟨fallback, returned⟩ :=
    trim_fine_csr_once_returns large inGraph limits gib orders lists bindable
  rw [trimFineRound, bind_of_ok _ _ _ attempted]
  cases attempt with
  | some found => exact ⟨_, rfl⟩
  | none =>
    simp only
    rw [show (⟨arena.counts, arena.survivorCount, (inputStorage arena).offsets,
      (inputStorage arena).arena⟩ : FineCsrArena) = arena from rfl, bind_of_ok _ _ _ returned]
    exact ⟨_, rfl⟩

/-! ## The sharded transition -/

/-- The bucket of an edge on the side of the round. -/
abbrev sideBucket (endpoints : Nat → Nat → Nat) (edgeBits side edge : Nat) : Nat :=
  fineBucket edgeBits (endpoints side edge)

include inGraph in
/-- An edge belongs to a half exactly if its bucket is one of the half, and then it keeps its
    place there. -/
theorem half_bucket_iff (half b : Nat) (two : half < 2) (inside : b < fineBuckets / 2) (edge : Nat) :
    inHalf endpoints edgeBits side (half == 1) edge = true ∧
        halfBucket endpoints edgeBits side edge = b ↔
      sideBucket endpoints edgeBits side edge = half * (fineBuckets / 2) + b := by
  have below : sideBucket endpoints edgeBits side edge < fineBuckets :=
    fine_bucket_lt edgeBits _ (inGraph side edge)
  have halves : fineBuckets / 2 = 2 ^ 14 := by decide
  have all : fineBuckets = 2 ^ 14 + 2 ^ 14 := by decide
  rw [halves] at inside
  have named : fineBucket edgeBits (endpoints side edge) = sideBucket endpoints edgeBits side edge :=
    rfl
  simp only [halfBucket, inHalf, halves, Nat.and_two_pow_sub_one_eq_mod, named]
  interval_cases half
  · simp only [Nat.reduceBEq, Bool.false_eq_true, if_false, decide_eq_true_eq, Nat.zero_mul,
      Nat.zero_add]
    omega
  · simp only [BEq.rfl, if_true, decide_eq_true_eq, Nat.one_mul]
    omega

/-- The live edges of a bitmap are those that are enumerated. -/
theorem mem_members_live (edges : Bitmap) (edge : Nat) :
    edge ∈ members 0 edges ↔ edge ∈ liveEdges edges := by
  rw [mem_members edges 0 edge (by decide), Nat.zero_mul, Nat.sub_zero]
  exact and_iff_right (Nat.zero_le edge)

/-- A bitmap's live edges are enumerated once. -/
theorem members_nodup (edges : Bitmap) : (members 0 edges).Nodup :=
  (members_ascending edges 0 (by decide)).imp Nat.ne_of_lt

include inGraph in
/-- The seeds of a half have the buckets of the live edges. -/
theorem seed_bucket_perm (schedule : Schedule) (edges : Bitmap) (half b : Nat) (two : half < 2)
    (inside : b < fineBuckets / 2) :
    (bucket (halfBucket endpoints edgeBits side) (schedule.order
      ((members 0 edges).filter (inHalf endpoints edgeBits side (half == 1)))) b).Perm
      (bucket (sideBucket endpoints edgeBits side) (members 0 edges)
        (half * (fineBuckets / 2) + b)) := by
  have same : bucket (halfBucket endpoints edgeBits side)
      ((members 0 edges).filter (inHalf endpoints edgeBits side (half == 1))) b =
      bucket (sideBucket endpoints edgeBits side) (members 0 edges)
        (half * (fineBuckets / 2) + b) := by
    rw [bucket, List.filter_filter, bucket]
    refine List.filter_congr fun edge _ => ?_
    rw [Bool.eq_iff_iff, Bool.and_eq_true, decide_eq_true_eq, decide_eq_true_eq, and_comm]
    exact half_bucket_iff inGraph half b two inside edge
  rw [← same]
  exact (schedule.perm _).filter _

include inGraph in
/-- The counts of a shard are those of its seeds. -/
theorem seed_counts (histogram schedule : Schedule) (edges : Bitmap) (half : Nat) (two : half < 2)
    (few : (members 0 edges).length ≤ maxU32) :
    ((fineHistogramAlive endpoints edgeBits side histogram edges
      (List.replicate fineBuckets 0)).drop (half * (fineBuckets / 2))).take (fineBuckets / 2) =
    tallies (halfBucket endpoints edgeBits side) u32Modulus (schedule.order
      ((members 0 edges).filter (inHalf endpoints edgeBits side (half == 1))))
      (List.replicate (fineBuckets / 2) 0) := by
  have counted : (histogram.order (members 0 edges)).length < u32Modulus := by
    rw [(histogram.perm _).length_eq]
    exact Nat.lt_succ_of_le few
  have seeds : (schedule.order
      ((members 0 edges).filter (inHalf endpoints edgeBits side (half == 1)))).length <
      u32Modulus := by
    rw [(schedule.perm _).length_eq]
    exact Nat.lt_of_le_of_lt (List.length_filter_le _ _) (Nat.lt_succ_of_le few)
  have all : fineBuckets = fineBuckets / 2 + fineBuckets / 2 := by decide
  have halves : half * (fineBuckets / 2) + fineBuckets / 2 ≤ fineBuckets := by
    rw [← Nat.succ_mul]
    exact (Nat.mul_le_mul_right _ two).trans (by decide)
  have length : (fineHistogramAlive endpoints edgeBits side histogram edges
      (List.replicate fineBuckets 0)).length = fineBuckets := by
    rw [fineHistogramAlive, tallies_length, List.length_replicate]
  apply List.ext_getElem
  · rw [List.length_take, List.length_drop, length, tallies_length, List.length_replicate]
    omega
  · intro b left right
    have inside : b < fineBuckets / 2 := by rwa [tallies_length, List.length_replicate] at right
    have place : half * (fineBuckets / 2) + b < fineBuckets := by omega
    rw [List.getElem_take, List.getElem_drop, ← List.getD_eq_getElem _ 0 (by rwa [length]),
      ← List.getD_eq_getElem _ 0 right, tallies_zero_getD _ seeds b inside,
      (seed_bucket_perm inGraph schedule edges half b two inside).length_eq]
    rw [fineHistogramAlive, tallies_zero_getD _ counted _ place]
    exact ((histogram.perm _).filter _).length_eq

/-- A bitmap whose live edges can be stepped over in thirty-two bits. In graphs of up to
    thirty-one edge bits every bitmap is one; in those of thirty-two edge bits it has at most
    4294967040 live edges. The source does not check it. -/
def Countable (edges : Bitmap) : Prop := (members 0 edges).length + workgroupSize ≤ u32Modulus

/-- The number of its live edges has thirty-two bits. -/
theorem Countable.small {edges : Bitmap} (countable : Countable edges) :
    (members 0 edges).length ≤ maxU32 := by
  simp only [Countable, u32Modulus, workgroupSize] at countable
  simp only [maxU32]
  omega

include inGraph in
/-- A filled shard lists the live edges of its half in their buckets. -/
theorem scatter_fine_seed_shard_spec (orders : ShardOrders) (edges : Bitmap)
    (countable : Countable edges) (half : Nat) (two : half < 2) (shard : List Nat × FineStorage)
    (allocated : allocateFineSeedShard limits gib (fineHistogramAlive endpoints edgeBits side
      orders.histogram edges (List.replicate fineBuckets 0)) half = .ok shard) :
    Sorted endpoints edgeBits side (half * (fineBuckets / 2)) (fineBuckets / 2) (liveEdges edges)
        (scatterFineSeedShard endpoints edgeBits side orders edges half shard).1 ∧
      ∀ write ∈ (scatterFineSeedShard endpoints edgeBits side orders edges half shard).2,
        write.Inside := by
  obtain ⟨refusal, offsets, started, counts, storage⟩ :=
    allocate_fine_seed_shard_ok _ _ _ _ _ allocated
  rw [seed_counts inGraph orders.histogram (orders.seed half) edges half two countable.small]
    at counts
  -- The seeds of the half, in the order of their reservations.
  set seeds := (orders.seed half).order
    ((members 0 edges).filter (inHalf endpoints edgeBits side (half == 1)))
  have fewer : seeds.length ≤ (members 0 edges).length := by
    rw [((orders.seed half).perm _).length_eq]
    exact List.length_filter_le _ _
  have few : seeds.length ≤ maxU32 := fewer.trans countable.small
  have below : ∀ edge ∈ seeds, halfBucket endpoints edgeBits side edge < fineBuckets / 2 := by
    intro edge _
    exact Nat.lt_of_le_of_lt Nat.and_le_right (by decide)
  have filled := filled_spec seeds few below refusal shard.1 offsets counts started
  rw [← storage] at filled
  have size : ∀ b < fineBuckets / 2, shard.1.getD b 0 =
      (bucket (halfBucket endpoints edgeBits side) seeds b).length := by
    intro b inside
    have short : seeds.length < u32Modulus := Nat.lt_succ_of_le few
    rw [counts, tallies_zero_getD seeds short b inside]
  have length : (scatterFineSeedShard endpoints edgeBits side orders edges half
      shard).1.arena.length = max seeds.length 1 := filled.length
  have words : (scatterFineSeedShard endpoints edgeBits side orders edges half
      shard).1.arena.length + workgroupSize ≤ u32Modulus := by
    rw [length]
    simp only [Countable, u32Modulus, workgroupSize] at countable ⊢
    omega
  -- A workgroup finds the seeds of its bucket, which are the live edges of that bucket.
  have taken : ∀ b < fineBuckets / 2,
      ((scatterFineSeedShard endpoints edgeBits side orders edges half shard).1.bucketSlots b).Perm
        (bucket (sideBucket endpoints edgeBits side) (members 0 edges)
          (half * (fineBuckets / 2) + b)) := by
    intro b inside
    have start := filled.starts b (Nat.le_of_lt inside)
    refine (bucket_slots_perm _ b ?_ words).trans ?_
    · simp only [scatterFineSeedShard, fineScatterAliveHalf]
      rw [start, size b inside]
      exact filled.ranges.within b inside
    · simp only [scatterFineSeedShard, fineScatterAliveHalf]
      rw [start, size b inside, filled.contents b inside]
      exact seed_bucket_perm inGraph (orders.seed half) edges half b two inside
  refine ⟨⟨fun b inside => ?_, fun b inside edge => ?_⟩, filled.inside⟩
  · exact (taken b inside).nodup_iff.mpr ((members_nodup edges).filter _)
  · rw [(taken b inside).mem_iff, bucket, List.mem_filter, mem_members_live, decide_eq_true_eq]

include large inGraph in
/-- The workgroups of both halves together keep what a round keeps. -/
theorem kept_halves (first second : Schedule) (edges : Bitmap) (countable : Countable edges)
    (low high : FineStorage)
    (low_sorted : Sorted endpoints edgeBits side (0 * (fineBuckets / 2)) (fineBuckets / 2)
      (liveEdges edges) low)
    (high_sorted : Sorted endpoints edgeBits side (1 * (fineBuckets / 2)) (fineBuckets / 2)
      (liveEdges edges) high) :
    Kept endpoints side (liveEdges edges)
      (first.order (keptEdges endpoints edgeBits side (fineBuckets / 2) low) ++
        second.order (keptEdges endpoints edgeBits side (fineBuckets / 2) high)) := by
  obtain ⟨low_unique, low_members⟩ := kept_edges_spec large low_sorted
  obtain ⟨high_unique, high_members⟩ := kept_edges_spec large high_sorted
  have all : fineBuckets = fineBuckets / 2 + fineBuckets / 2 := by decide
  have trimmed : ∀ edge, edge ∈ keptEdges endpoints edgeBits side (fineBuckets / 2) low ++
      keptEdges endpoints edgeBits side (fineBuckets / 2) high ↔
        edge ∈ trimSide (Mates endpoints) side (liveEdges edges) := by
    intro edge
    have below : fineBucket edgeBits (endpoints side edge) < fineBuckets :=
      fine_bucket_lt edgeBits _ (inGraph side edge)
    rw [List.mem_append, low_members, high_members]
    constructor
    · rintro (⟨kept, _⟩ | ⟨kept, _⟩) <;> exact kept
    · intro kept
      rcases Nat.lt_or_ge (fineBucket edgeBits (endpoints side edge)) (fineBuckets / 2) with
        lower | upper
      · exact Or.inl ⟨kept, by omega, by omega⟩
      · exact Or.inr ⟨kept, by omega, by omega⟩
  have unique : (keptEdges endpoints edgeBits side (fineBuckets / 2) low ++
      keptEdges endpoints edgeBits side (fineBuckets / 2) high).Nodup := by
    refine List.nodup_append.mpr ⟨low_unique, high_unique, fun edge in_low other in_high same => ?_⟩
    have lower := ((low_members edge).mp in_low).2
    have upper := ((high_members other).mp in_high).2
    rw [same] at lower
    omega
  have listed : keptEdges endpoints edgeBits side (fineBuckets / 2) low ++
      keptEdges endpoints edgeBits side (fineBuckets / 2) high ⊆ members 0 edges :=
    fun edge member => (mem_members_live edges edge).mpr ((trimmed edge).mp member).1
  have fewer := (unique.subperm listed).length_le
  have kept : Kept endpoints side (liveEdges edges)
      (keptEdges endpoints edgeBits side (fineBuckets / 2) low ++
        keptEdges endpoints edgeBits side (fineBuckets / 2) high) :=
    ⟨unique, trimmed, (Nat.add_le_add_right fewer _).trans countable⟩
  exact kept.perm ((first.perm _).append (second.perm _))

include large inGraph in
/-- The sharded transition leaves what a round on the live edges of the bitmap leaves, without
    gaps. -/
theorem build_sharded_fine_seed_and_trim_left (orders : ShardOrders) (survivorCount : Nat)
    (edges : Bitmap) (countable : Countable edges) (next : FineCsrArena) (writes : List Write)
    (ended : buildShardedFineSeedAndTrim limits gib endpoints edgeBits side orders survivorCount
      edges = .ok (next, writes)) :
    Left endpoints edgeBits side (liveEdges edges) next ∧ Compact next ∧
      ∀ write ∈ writes, write.Inside := by
  obtain ⟨counts, counted, ended⟩ := (bind_ok_iff _ _ _).mp ended
  rw [shardedSeedHistogram] at counted
  split at counted
  · cases counted
  have same := Except.ok.inj counted
  subst same
  obtain ⟨lowShard, low_allocated, ended⟩ := (bind_ok_iff _ _ _).mp ended
  obtain ⟨highShard, high_allocated, ended⟩ := (bind_ok_iff _ _ _).mp ended
  obtain ⟨low_sorted, low_inside⟩ := scatter_fine_seed_shard_spec inGraph limits gib orders edges
    countable 0 (by decide) lowShard low_allocated
  obtain ⟨high_sorted, high_inside⟩ := scatter_fine_seed_shard_spec inGraph limits gib orders edges
    countable 1 (by decide) highShard high_allocated
  set low := scatterFineSeedShard endpoints edgeBits side orders edges 0 lowShard
  set high := scatterFineSeedShard endpoints edgeBits side orders edges 1 highShard
  have to_count := kept_halves large inGraph (orders.count 0) (orders.count 1) edges countable
    low.1 high.1 low_sorted high_sorted
  have kept := kept_halves large inGraph (orders.scatter 0) (orders.scatter 1) edges countable
    low.1 high.1 low_sorted high_sorted
  have perm := ((orders.count 0).perm _).append ((orders.count 1).perm _) |>.trans
    (((orders.scatter 0).perm (keptEdges endpoints edgeBits side (fineBuckets / 2) low.1)).append
      ((orders.scatter 1).perm (keptEdges endpoints edgeBits side (fineBuckets / 2) high.1))).symm
  have same : tallies (nextBucket endpoints edgeBits side) u32Modulus
      ((orders.count 0).order (keptEdges endpoints edgeBits side (fineBuckets / 2) low.1) ++
        (orders.count 1).order (keptEdges endpoints edgeBits side (fineBuckets / 2) high.1))
      (List.replicate fineBuckets 0) = _ :=
    tallies_zero_perm perm (Nat.lt_succ_of_le to_count.small)
  rw [tallies_append] at same
  simp only [fineTrimCount, boundBuffers, fineTrimScatter, same] at ended
  obtain ⟨output, allocated, returned⟩ := (bind_ok_iff _ _ _).mp ended
  obtain ⟨refusal, offsets, started, rfl⟩ := allocate_fine_storage_ok _ _ _ _ allocated
  have filled := filled_spec _ kept.small (fun edge _ => next_bucket_lt inGraph edge) refusal _
    offsets rfl started
  rw [scatter_append] at filled
  cases returned
  obtain ⟨left, compact⟩ := kept.filled inGraph filled
  refine ⟨left, compact, fun write member => ?_⟩
  rcases List.mem_append.mp member with seeding | storing
  · rcases List.mem_append.mp seeding with in_low | in_high
    · exact low_inside write in_low
    · exact high_inside write in_high
  · exact filled.inside write storing

include large inGraph in
/-- The sharded transition ends if the number of live edges is the expected one and the adapter
    can hold and bind an arena of them. -/
theorem build_sharded_fine_seed_and_trim_returns (orders : ShardOrders) (edges : Bitmap)
    (countable : Countable edges)
    (fits : arenaBytes (members 0 edges).length ≤ limits.maxBufferSize)
    (bindable : arenaBytes (members 0 edges).length ≤ limits.maxStorageBufferBindingSize) :
    ∃ result, buildShardedFineSeedAndTrim limits gib endpoints edgeBits side orders
      (members 0 edges).length edges = .ok result := by
  have counted : (orders.histogram.order (members 0 edges)).length < u32Modulus := by
    rw [(orders.histogram.perm _).length_eq]
    exact Nat.lt_succ_of_le countable.small
  have total : (fineHistogramAlive endpoints edgeBits side orders.histogram edges
      (List.replicate fineBuckets 0)).sum = (members 0 edges).length := by
    rw [fineHistogramAlive, tallies_zero_sum _ counted fun edge _ =>
      fine_bucket_lt edgeBits _ (inGraph side edge)]
    exact (orders.histogram.perm _).length_eq
  have histogram : shardedSeedHistogram endpoints edgeBits side orders.histogram
      (members 0 edges).length edges = .ok (fineHistogramAlive endpoints edgeBits side
        orders.histogram edges (List.replicate fineBuckets 0)) := by
    rw [shardedSeedHistogram, if_neg (not_not.mpr total)]
  have shards : ∀ half < 2, ∃ shard, allocateFineSeedShard limits gib (fineHistogramAlive endpoints
      edgeBits side orders.histogram edges (List.replicate fineBuckets 0)) half = .ok shard := by
    intro half two
    have fewer : (((fineHistogramAlive endpoints edgeBits side orders.histogram edges
        (List.replicate fineBuckets 0)).drop (half * (fineBuckets / 2))).take
        (fineBuckets / 2)).sum ≤ (members 0 edges).length := by
      rw [← total]
      exact ((List.take_sublist _ _).trans (List.drop_sublist _ _)).sum_le_sum fun _ _ =>
        Nat.zero_le _
    exact allocate_fine_seed_shard_returns limits gib _ half (fewer.trans countable.small)
      ((arena_bytes_mono fewer).trans bindable)
  obtain ⟨lowShard, low_allocated⟩ := shards 0 (by decide)
  obtain ⟨highShard, high_allocated⟩ := shards 1 (by decide)
  obtain ⟨low_sorted, _⟩ := scatter_fine_seed_shard_spec inGraph limits gib orders edges countable 0
    (by decide) lowShard low_allocated
  obtain ⟨high_sorted, _⟩ := scatter_fine_seed_shard_spec inGraph limits gib orders edges countable 1
    (by decide) highShard high_allocated
  have kept := kept_halves large inGraph (orders.count 0) (orders.count 1) edges countable _ _
    low_sorted high_sorted
  have kept_total : (keptCounts endpoints edgeBits side _).sum = _ := kept.total inGraph
  have listed := fun edge member =>
    (mem_members_live edges edge).mpr ((kept.members edge).mp member).1
  have fewer := (kept.unique.subperm listed).length_le
  rw [← kept_total, keptCounts, tallies_append] at fewer
  obtain ⟨output, allocated⟩ := allocate_fine_storage_returns limits gib _
    (fewer.trans countable.small) ((arena_bytes_mono fewer).trans fits)
    ((arena_bytes_mono fewer).trans bindable)
  rw [buildShardedFineSeedAndTrim, bind_of_ok _ _ _ histogram, bind_of_ok _ _ _ low_allocated,
    bind_of_ok _ _ _ high_allocated]
  simp only [fineTrimCount, boundBuffers]
  rw [bind_of_ok _ _ _ allocated]
  exact ⟨_, rfl⟩

end Rounds

/-! ## All rounds -/

/-- On every side and for all orders, a fixed attempt that is not given up, a round without
    gaps, a round that falls back to it and the sharded transition leave each edge that a direct
    round keeps, once, in the bucket of its other node. They end if the adapter can hold an
    arena of all live edges, and a fixed attempt always ends and leaves its input as it was. The
    live edges are at most as many as the stride of the passes can step over in thirty-two bits;
    nothing else is assumed of the graph. -/
theorem fine_rounds_keep_edges (limits : Limits) (gib : Nat → String) (large : 24 ≤ edgeBits)
    (inGraph : ∀ side edge, endpoints side edge < 2 ^ edgeBits) (side : Nat) :
    (∀ live arena, Lists endpoints edgeBits side live arena →
      (∀ schedule, ∃ attempt writes, trimFineFixedOnce limits endpoints edgeBits side schedule arena =
          .ok (attempt, inputStorage arena, writes) ∧ (∀ write ∈ writes, write.Inside) ∧
        ∀ next, attempt = some next → Left endpoints edgeBits side live next) ∧
      (∀ orders next writes,
        trimFineCsrOnce limits gib endpoints edgeBits side orders arena = .ok (next, writes) →
        Left endpoints edgeBits side live next ∧ Compact next ∧ ∀ write ∈ writes, write.Inside) ∧
      (∀ schedule orders next writes, trimFineRound limits gib endpoints edgeBits side schedule orders
          arena = .ok (next, writes) →
        Left endpoints edgeBits side live next ∧ ∀ write ∈ writes, write.Inside) ∧
      (arenaBytes arena.survivorCount ≤ limits.maxStorageBufferBindingSize → ∀ schedule orders,
        (∃ result, trimFineCsrOnce limits gib endpoints edgeBits side orders arena = .ok result) ∧
        ∃ result, trimFineRound limits gib endpoints edgeBits side schedule orders arena =
          .ok result)) ∧
    (∀ edges, Countable edges →
      (∀ orders survivorCount next writes, buildShardedFineSeedAndTrim limits gib endpoints edgeBits
          side orders survivorCount edges = .ok (next, writes) →
        Left endpoints edgeBits side (liveEdges edges) next ∧ Compact next ∧
          ∀ write ∈ writes, write.Inside) ∧
      (arenaBytes (members 0 edges).length ≤ limits.maxBufferSize →
        arenaBytes (members 0 edges).length ≤ limits.maxStorageBufferBindingSize → ∀ orders,
        ∃ result, buildShardedFineSeedAndTrim limits gib endpoints edgeBits side orders
          (members 0 edges).length edges = .ok result)) := by
  have enough : 20 ≤ edgeBits := Nat.le_trans (by decide) large
  constructor
  · intro live arena lists
    refine ⟨fun schedule => ?_, fun orders => ?_, fun schedule orders => ?_,
      fun bindable schedule orders => ⟨?_, ?_⟩⟩
    · exact trim_fine_fixed_once_spec enough inGraph limits schedule lists
    · exact trim_fine_csr_once_left enough inGraph limits gib orders lists
    · exact trim_fine_round_left enough inGraph limits gib schedule orders lists
    · exact trim_fine_csr_once_returns enough inGraph limits gib orders lists bindable
    · exact trim_fine_round_returns enough inGraph limits gib schedule orders lists bindable
  · intro edges countable
    refine ⟨fun orders survivorCount => ?_, fun fits bindable orders => ?_⟩
    · exact build_sharded_fine_seed_and_trim_left enough inGraph limits gib orders survivorCount edges
        countable
    · exact build_sharded_fine_seed_and_trim_returns enough inGraph limits gib orders edges countable
        fits bindable

/-- The edges zero and one, complementary on both sides, in the first bucket. -/
def pairArena : FineCsrArena :=
  ⟨2 :: List.replicate 32767 0, 2, 0 :: List.replicate 32768 2, [0, 1]⟩

/-- The arena of the pair lists it. -/
theorem pair_arena_lists : Lists (fun _ edge => edge % 2) 24 0 {0, 1} pairArena := by
  have first : pairArena.bucket 0 = [0, 1] := rfl
  have later : ∀ b, pairArena.bucket (b + 1) = [] := by
    intro b
    rw [FineCsrArena.bucket, pairArena, List.getD_cons_succ, List.getD_cons_succ, cleared_getD,
      List.take_zero]
  have total : ∀ others, (2 :: List.replicate others 0).sum = 2 := by
    intro others
    rw [List.sum_cons, List.sum_replicate_nat, Nat.mul_zero, Nat.add_zero]
  have nodes : ∀ edge, fineBucket 24 (edge % 2) = 0 := by
    intro edge
    rw [fine_bucket_eq]
    exact Nat.div_eq_of_lt ((Nat.mod_lt edge (by decide)).trans_le (Nat.le_self_pow (by decide) 2))
  refine ⟨⟨?_, ?_, fun b _ => ?_, fun b _ edge => ?_⟩, fun b inside => ?_, by decide⟩
  · rw [pairArena, List.length_cons, List.length_replicate, fineBuckets]
  · exact (total 32767).symm
  · cases b with
    | zero => rw [first]; decide
    | succ b => rw [later]; exact List.nodup_nil
  · rw [nodes]
    cases b with
    | zero => rw [first]; simp
    | succ b => rw [later]; simp
  · cases b with
    | zero => decide
    | succ b =>
      rw [pairArena, List.getD_cons_succ, List.getD_cons_succ, cleared_getD, List.getD_eq_getElem _ _
        (by rw [List.length_replicate]; exact Nat.lt_of_succ_lt inside), List.getElem_replicate]
      decide

/-- Orders in which all edges come in turn. -/
def shardsInOrder : ShardOrders := ⟨inOrder, fun _ => inOrder, fun _ => inOrder, fun _ => inOrder⟩

/-- A round and the sharded transition keep the pair. -/
theorem pair_kept_by_fine_rounds :
    (∃ next writes, trimFineRound ⟨32768, 2 ^ 28, 2 ^ 28⟩ toString (fun _ edge => edge % 2) 24 0 inOrder
        ⟨inOrder, inOrder⟩ pairArena = .ok (next, writes) ∧
      Left (fun _ edge => edge % 2) 24 0 {0, 1} next ∧ ∀ write ∈ writes, write.Inside) ∧
    ∃ next writes, buildShardedFineSeedAndTrim ⟨32768, 2 ^ 28, 2 ^ 28⟩ toString
        (fun _ edge => edge % 2) 24 0 shardsInOrder 2 [3#32] = .ok (next, writes) ∧
      Left (fun _ edge => edge % 2) 24 0 (liveEdges [3#32]) next ∧ Compact next ∧
      ∀ write ∈ writes, write.Inside := by
  have two : (members 0 [3#32]).length = 2 := by decide
  obtain ⟨rounds, transition⟩ := @fine_rounds_keep_edges (fun _ edge => edge % 2) 24
    ⟨32768, 2 ^ 28, 2 ^ 28⟩ toString (Nat.le_refl 24)
    (fun _ edge => (Nat.mod_lt edge (by decide)).trans_le (Nat.le_self_pow (by decide) 2)) 0
  constructor
  · obtain ⟨_, _, left, returns⟩ := rounds {0, 1} pairArena pair_arena_lists
    obtain ⟨_, ⟨next, writes⟩, ended⟩ := returns (by decide) inOrder ⟨inOrder, inOrder⟩
    exact ⟨next, writes, ended, left _ _ _ _ ended⟩
  · obtain ⟨left, returns⟩ := transition [3#32] (by rw [Countable, two]; decide)
    rw [two] at returns
    obtain ⟨⟨next, writes⟩, ended⟩ := returns (by decide) (by decide) shardsInOrder
    exact ⟨next, writes, ended, left _ _ _ _ ended⟩

/-! ## Counters that wrapped -/

/-- Starts of buckets without edges. -/
theorem fine_offsets_zero (refusal : String) (buckets : Nat) :
    fineOffsets refusal 0 (List.replicate buckets 0) = .ok (List.replicate (buckets + 1) 0) := by
  induction buckets with
  | zero => rfl
  | succ buckets ih =>
    rw [List.replicate_succ, fineOffsets, Nat.add_zero, if_neg (Nat.not_lt_zero _), ih]
    rfl

/-- Workgroups find nothing in buckets without edges. -/
theorem kept_edges_empty (groups : Nat) (storage : FineStorage)
    (starts : ∀ b, storage.offsets.getD b 0 = 0) (counts : ∀ b, storage.cursors.getD b 0 = 0) :
    keptEdges endpoints edgeBits side groups storage = [] := by
  rw [keptEdges, List.flatMap_eq_nil_iff]
  intro b _
  have none_taken : storage.bucketSlots b = [] := by
    rw [FineStorage.bucketSlots, starts b, counts b]
    exact List.map_eq_nil_iff.mpr (List.flatMap_eq_nil_iff.mpr fun _ _ => rfl)
  rw [none_taken]
  rfl

variable (endpoints edgeBits side) in
/-- A shard of buckets without counted edges is allocated, and nothing is found in it after it
    was filled. -/
theorem zero_shard (limits : Limits) (gib : Nat → String) (orders : ShardOrders) (edges : Bitmap)
    (half : Nat) (two : half < 2) (bindable : 4 ≤ limits.maxStorageBufferBindingSize) :
    ∃ shard, allocateFineSeedShard limits gib (List.replicate fineBuckets 0) half = .ok shard ∧
      ∀ groups, keptEdges endpoints edgeBits side groups
        (scatterFineSeedShard endpoints edgeBits side orders edges half shard).1 = [] := by
  have zeros : ((List.replicate fineBuckets 0).drop (half * (fineBuckets / 2))).take
      (fineBuckets / 2) = List.replicate (fineBuckets / 2) 0 := by
    have rest : fineBuckets / 2 ≤ fineBuckets - half * (fineBuckets / 2) := by
      interval_cases half <;> decide
    rw [List.drop_replicate, List.take_replicate, Nat.min_eq_left rest]
  have none_counted : (List.replicate (fineBuckets / 2) 0).sum = 0 := by
    rw [List.sum_replicate_nat, Nat.mul_zero]
  obtain ⟨shard, allocated⟩ := allocate_fine_seed_shard_returns limits gib
    (List.replicate fineBuckets 0) half (by rw [zeros, none_counted]; exact Nat.zero_le _)
    (by rw [zeros, none_counted]; exact bindable)
  obtain ⟨refusal, offsets, started, counts, storage⟩ :=
    allocate_fine_seed_shard_ok _ _ _ _ _ allocated
  rw [zeros] at counts
  rw [counts, fine_offsets_zero] at started
  have starts : offsets = List.replicate (fineBuckets / 2 + 1) 0 := (Except.ok.inj started).symm
  refine ⟨shard, allocated, fun groups => kept_edges_empty groups _ (fun b => ?_) fun b => ?_⟩
  · simp only [scatterFineSeedShard, fineScatterAliveHalf, FineStorage.scatter,
      FineStorage.clearCursors, storage, newStorage, starts]
    exact cleared_getD _ b
  · simp only [scatterFineSeedShard, counts]
    exact cleared_getD _ b

/-- No order makes edges out of none. -/
theorem order_nil (schedule : Schedule) : schedule.order [] = [] := (schedule.perm []).eq_nil

/-- If all counters of the histogram end at zero, the transition passes every check and leaves
    an arena without edges. -/
theorem build_sharded_zero_counts (limits : Limits) (gib : Nat → String) (orders : ShardOrders)
    (edges : Bitmap) (zero : fineHistogramAlive endpoints edgeBits side orders.histogram edges
      (List.replicate fineBuckets 0) = List.replicate fineBuckets 0)
    (fits : 4 ≤ limits.maxBufferSize) (bindable : 4 ≤ limits.maxStorageBufferBindingSize) :
    ∃ next writes, buildShardedFineSeedAndTrim limits gib endpoints edgeBits side orders 0 edges =
      .ok (next, writes) ∧ ∀ b, next.bucket b = [] := by
  have none_counted : (List.replicate fineBuckets 0).sum = 0 := by
    rw [List.sum_replicate_nat, Nat.mul_zero]
  have histogram : shardedSeedHistogram endpoints edgeBits side orders.histogram 0 edges =
      .ok (List.replicate fineBuckets 0) := by
    rw [shardedSeedHistogram, zero, if_neg (not_not.mpr none_counted)]
  obtain ⟨lowShard, low_allocated, low_empty⟩ :=
    zero_shard endpoints edgeBits side limits gib orders edges 0 (by decide) bindable
  obtain ⟨highShard, high_allocated, high_empty⟩ :=
    zero_shard endpoints edgeBits side limits gib orders edges 1 (by decide) bindable
  obtain ⟨output, allocated⟩ := allocate_fine_storage_returns limits gib
    (List.replicate fineBuckets 0) (by rw [none_counted]; exact Nat.zero_le _)
    (by rw [none_counted]; exact fits) (by rw [none_counted]; exact bindable)
  rw [buildShardedFineSeedAndTrim, bind_of_ok _ _ _ histogram, bind_of_ok _ _ _ low_allocated,
    bind_of_ok _ _ _ high_allocated]
  simp only [fineTrimCount, boundBuffers, low_empty, high_empty, order_nil]
  rw [show tallies (nextBucket endpoints edgeBits side) u32Modulus []
    (tallies (nextBucket endpoints edgeBits side) u32Modulus [] (List.replicate fineBuckets 0)) =
      List.replicate fineBuckets 0 from rfl, bind_of_ok _ _ _ allocated]
  refine ⟨_, _, rfl, fun b => ?_⟩
  rw [FineCsrArena.bucket, cleared_getD, List.take_zero]

/-- All numbers of full words are enumerated. -/
theorem members_full (words : Nat) :
    (members 0 (List.replicate words (BitVec.allOnes 32))).Perm (List.range (words * 32)) := by
  apply (List.perm_ext_iff_of_nodup (members_nodup _) List.nodup_range).mpr
  intro edge
  have place : edge % 32 < 32 := Nat.mod_lt _ (by decide)
  rw [mem_members_live, List.mem_range, ← Nat.div_lt_iff_lt_mul (by decide)]
  constructor
  · intro live
    have inside := inside_of_test _ edge live
    rwa [List.length_replicate] at inside
  · intro inside
    have word : edge / 32 < (List.replicate words (BitVec.allOnes 32)).length := by
      rwa [List.length_replicate]
    exact (test_eq_getLsbD _ edge (by decide)).trans (by
      rw [List.getD_eq_getElem _ _ word, List.getElem_replicate, BitVec.getLsbD_allOnes]
      exact decide_eq_true place)

/-- If all live edges share the first bucket and their number is a multiple of the modulus, all
    counters of the histogram end at zero. -/
theorem histogram_wraps (schedule : Schedule) (edges : Bitmap)
    (shared : ∀ edge, fineBucket edgeBits (endpoints side edge) = 0)
    (wraps : (members 0 edges).length % u32Modulus = 0) :
    fineHistogramAlive endpoints edgeBits side schedule edges (List.replicate fineBuckets 0) =
      List.replicate fineBuckets 0 := by
  have length : (fineHistogramAlive endpoints edgeBits side schedule edges
      (List.replicate fineBuckets 0)).length = fineBuckets := by
    rw [fineHistogramAlive, tallies_length, List.length_replicate]
  apply List.ext_getElem (length.trans List.length_replicate.symm)
  intro b left right
  have inside : b < (List.replicate fineBuckets 0).length := right
  rw [List.getElem_replicate, ← List.getD_eq_getElem _ 0 left, fineHistogramAlive,
    tallies_getD _ _ b inside (by rw [cleared_getD]; decide), cleared_getD, Nat.zero_add, bucket]
  simp only [shared]
  rcases Nat.eq_zero_or_pos b with rfl | positive
  · rw [List.filter_eq_self.mpr fun edge _ => by simp, (schedule.perm _).length_eq, wraps]
  · rw [List.filter_eq_nil_iff.mpr fun edge _ => by simp; omega]
    rfl

/-- With all edges of the largest graph live and in one bucket, their number is zero in
    thirty-two bits and so is the count of the bucket. The transition then leaves an arena without
    edges, though a round keeps edges. -/
theorem full_bitmap_lost :
    0 ∈ trimSide (Mates fun _ edge => edge % 2) 0
        (liveEdges (List.replicate (2 ^ 27) (BitVec.allOnes 32))) ∧
      ∃ next writes, buildShardedFineSeedAndTrim ⟨32768, 2 ^ 34, 2 ^ 34⟩ toString
          (fun _ edge => edge % 2) 32 0 shardsInOrder
          (asU32 (members 0 (List.replicate (2 ^ 27) (BitVec.allOnes 32))).length)
          (List.replicate (2 ^ 27) (BitVec.allOnes 32)) = .ok (next, writes) ∧
        ∀ b, next.bucket b = [] := by
  have full := members_full (2 ^ 27)
  have live : ∀ edge < 2 ^ 32, edge ∈ liveEdges (List.replicate (2 ^ 27) (BitVec.allOnes 32)) := by
    intro edge inside
    rw [← mem_members_live, full.mem_iff, List.mem_range]
    exact inside
  have count : (members 0 (List.replicate (2 ^ 27) (BitVec.allOnes 32))).length % u32Modulus = 0 := by
    rw [full.length_eq, List.length_range]
    rfl
  have counted : asU32 (members 0 (List.replicate (2 ^ 27) (BitVec.allOnes 32))).length = 0 := by
    rwa [asU32, ← u32Modulus]
  constructor
  · exact ⟨live 0 (by decide), 1, live 1 (by decide), rfl⟩
  · rw [counted]
    refine build_sharded_zero_counts _ _ _ _ (histogram_wraps _ _ (fun edge => ?_) count)
      (by decide) (by decide)
    rw [fine_bucket_eq]
    exact Nat.div_eq_of_lt ((Nat.mod_lt edge (by decide)).trans_le (Nat.le_self_pow (by decide) 2))

end CuckatooMiner.FineRound
