import Mathlib
import CuckatooMiner.FineRound
import CuckatooMiner.TrimRunExact

/-!
# The kernels of a fine round

The threads of a workgroup take each word of its bucket once, as long as their last steps do
not wrap. The complement of a node lies in the bucket of the node and differs from it in the
lowest bit of the place there, so a local bitmap of places decides which edges of a bucket
have a mate. All workgroups together keep the edges that a round on the side keeps, each
once.

Counters that start at zero and do not wrap end at the sizes of the buckets, whatever the
order. Their sums are the starts of the buckets of an arena without gaps. Edges that are
scattered into ranges with enough room fill the start of the range of their bucket, and no
store leaves the range.
-/

namespace CuckatooMiner.FineRound

open PackedBits Pruning Reservation Segments SlotRanges StridedSweep
open CountingPass (bucket offset)
open GpuLean (asU32 Mates)
open Outcome (bind_ok_iff bind_of_ok)
open SleanLayout (Limits)
open TrimRun (fineBuckets fineBucket)

/-! ## Nodes -/

/-- The bucket of a node is its leading part. -/
theorem fine_bucket_eq (edgeBits node : Nat) :
    fineBucket edgeBits node = node / 2 ^ (edgeBits - fineBucketBits) := Nat.shiftRight_eq_div_pow ..

/-- The place of a node in its bucket is the rest. -/
theorem fine_z_eq (edgeBits node : Nat) :
    fineZ edgeBits node = node % 2 ^ (edgeBits - fineBucketBits) := by
  rw [fineZ, Nat.one_shiftLeft, Nat.and_two_pow_sub_one_eq_mod]

/-- Bucket and place determine a node. -/
theorem node_unique (edgeBits left right : Nat)
    (same_bucket : fineBucket edgeBits left = fineBucket edgeBits right)
    (same_place : fineZ edgeBits left = fineZ edgeBits right) : left = right := by
  rw [fine_bucket_eq, fine_bucket_eq] at same_bucket
  rw [fine_z_eq, fine_z_eq] at same_place
  exact same_word_place left right same_bucket same_place

/-- A complementary node is in the same bucket. -/
theorem fine_bucket_mate (edgeBits node : Nat) (large : 16 ≤ edgeBits) :
    fineBucket edgeBits (node ^^^ 1) = fineBucket edgeBits node := by
  have one : 1 >>> (edgeBits - 15) = 0 := by
    rw [Nat.shiftRight_eq_div_pow]
    exact Nat.div_eq_of_lt (Nat.one_lt_two_pow (by omega))
  rw [fineBucket, Nat.shiftRight_xor_distrib, one, Nat.xor_zero, fineBucket]

/-- A complementary node is at the complementary place. -/
theorem fine_z_mate (edgeBits node : Nat) (large : 16 ≤ edgeBits) :
    fineZ edgeBits (node ^^^ 1) = fineZ edgeBits node ^^^ 1 := by
  have one : 1 % 2 ^ (edgeBits - fineBucketBits) = 1 :=
    Nat.mod_eq_of_lt (Nat.one_lt_two_pow (by rw [fineBucketBits]; omega))
  rw [fine_z_eq, Nat.xor_mod_two_pow, one, fine_z_eq]

/-- Places have room in the local bitmap. -/
theorem fine_z_inside (edgeBits node : Nat) (large : 20 ≤ edgeBits) :
    fineZ edgeBits node / 32 < fineSeenWords edgeBits := by
  have words : fineSeenWords edgeBits * 32 = 2 ^ (edgeBits - fineBucketBits) := by
    rw [fineSeenWords, Nat.one_shiftLeft, show 32 = 2 ^ 5 by rfl, ← Nat.pow_add]
    congr 1
    rw [fineBucketBits]
    omega
  rw [Nat.div_lt_iff_lt_mul (by decide), words, fine_z_eq]
  exact Nat.mod_lt _ (Nat.two_pow_pos _)

/-! ## The edges of a bucket -/

/-- A bucket whose words threads can step over is taken once, word for word. -/
theorem bucket_slots_perm (storage : FineStorage) (bucket : Nat)
    (inside : storage.offsets.getD bucket 0 + storage.cursors.getD bucket 0 ≤ storage.arena.length)
    (words : storage.arena.length + workgroupSize ≤ u32Modulus) :
    (storage.bucketSlots bucket).Perm
      ((storage.arena.drop (storage.offsets.getD bucket 0)).take
        (storage.cursors.getD bucket 0)) := by
  have size : workgroupSize = 256 := rfl
  have last : asU32 (storage.offsets.getD bucket 0 + storage.cursors.getD bucket 0) =
      storage.offsets.getD bucket 0 + storage.cursors.getD bucket 0 :=
    Nat.mod_eq_of_lt (by rw [u32Modulus] at words; omega)
  have taken := visits_from_perm (storage.offsets.getD bucket 0) (show 0 < workgroupSize by decide)
    (show storage.offsets.getD bucket 0 + storage.cursors.getD bucket 0 + workgroupSize ≤ u32Modulus
      by omega) (Nat.le_add_right _ _)
  have listed := read_range storage.arena 0 (storage.offsets.getD bucket 0)
    (storage.cursors.getD bucket 0) inside
  rw [FineStorage.bucketSlots, last, ← listed]
  rw [Nat.add_sub_cancel_left] at taken
  exact taken.map _

section Kept

variable {endpoints : Nat → Nat → Nat} {edgeBits side : Nat}

/-- The local bitmap holds the places of the edges' nodes. -/
theorem test_fine_seen (slots : List Nat) (place : Nat) (large : 20 ≤ edgeBits) :
    test (fineSeen endpoints edgeBits side slots) place = true ↔
      ∃ edge ∈ slots, fineZ edgeBits (endpoints side edge) = place := by
  have as_list : fineSeen endpoints edgeBits side slots =
      (slots.map fun edge => fineZ edgeBits (endpoints side edge)).foldl put
        (List.replicate (fineSeenWords edgeBits) 0#32) := by
    rw [fineSeen, List.foldl_map]
  have inside : ∀ place ∈ slots.map fun edge => fineZ edgeBits (endpoints side edge),
      place / 32 < (List.replicate (fineSeenWords edgeBits) 0#32).length := by
    intro place member
    obtain ⟨edge, _, rfl⟩ := List.mem_map.mp member
    rw [List.length_replicate]
    exact fine_z_inside edgeBits _ large
  rw [as_list, test_put_all _ _ _ (by decide) inside, test_replicate_zero, Bool.false_or,
    decide_eq_true_eq, List.mem_map]

/-- The edges kept of a bucket are those with a mate in it. -/
theorem mem_kept_slots (slots : List Nat) (bucket edge : Nat) (large : 20 ≤ edgeBits)
    (here : ∀ other ∈ slots, fineBucket edgeBits (endpoints side other) = bucket) :
    edge ∈ keptSlots endpoints edgeBits side slots ↔
      edge ∈ slots ∧ ∃ other ∈ slots, Mates endpoints side edge other := by
  rw [keptSlots, List.mem_filter, test_fine_seen _ _ large, ← fine_z_mate _ _ (by omega)]
  refine and_congr_right fun listed => exists_congr fun other => and_congr_right fun member => ?_
  constructor
  · intro same_place
    refine node_unique edgeBits _ _ ?_ same_place
    rw [here other member, fine_bucket_mate _ _ (by omega), here edge listed]
  · intro mates
    rw [mates]

/-- The workgroups of a dispatch find live edges in their buckets, those of the buckets of
    the side from a first one on. -/
structure Sorted (endpoints : Nat → Nat → Nat) (edgeBits side first groups : Nat) (live : Set Nat)
    (storage : FineStorage) : Prop where
  unique : ∀ b < groups, (storage.bucketSlots b).Nodup
  members : ∀ b < groups, ∀ edge, edge ∈ storage.bucketSlots b ↔
    edge ∈ live ∧ fineBucket edgeBits (endpoints side edge) = first + b

/-- A dispatch keeps the edges of its buckets that a round on the side keeps, each once. -/
theorem kept_edges_spec {first groups : Nat} {live : Set Nat} {storage : FineStorage}
    (large : 20 ≤ edgeBits)
    (sorted : Sorted endpoints edgeBits side first groups live storage) :
    (keptEdges endpoints edgeBits side groups storage).Nodup ∧
      ∀ edge, edge ∈ keptEdges endpoints edgeBits side groups storage ↔
        edge ∈ trimSide (Mates endpoints) side live ∧
          first ≤ fineBucket edgeBits (endpoints side edge) ∧
          fineBucket edgeBits (endpoints side edge) < first + groups := by
  have in_bucket : ∀ b < groups, ∀ edge, edge ∈ keptSlots endpoints edgeBits side
      (storage.bucketSlots b) ↔ edge ∈ trimSide (Mates endpoints) side live ∧
        fineBucket edgeBits (endpoints side edge) = first + b := by
    intro b inside edge
    have here : ∀ other ∈ storage.bucketSlots b,
        fineBucket edgeBits (endpoints side other) = first + b :=
      fun other member => ((sorted.members b inside other).mp member).2
    rw [mem_kept_slots _ _ _ large here, sorted.members b inside edge]
    constructor
    · rintro ⟨⟨in_live, place⟩, other, member, mates⟩
      exact ⟨⟨in_live, other, ((sorted.members b inside other).mp member).1, mates⟩, place⟩
    · rintro ⟨⟨in_live, other, other_live, mates⟩, place⟩
      have same_bucket : fineBucket edgeBits (endpoints side other) = first + b := by
        rw [mates, fine_bucket_mate _ _ (by omega), place]
      exact ⟨⟨in_live, place⟩, other,
        (sorted.members b inside other).mpr ⟨other_live, same_bucket⟩, mates⟩
  constructor
  · apply nodup_parts _ _ (fun edge => fineBucket edgeBits (endpoints side edge) - first)
      List.nodup_range
    · intro b member
      exact (sorted.unique b (List.mem_range.mp member)).filter _
    · intro b member edge listed
      have place := ((in_bucket b (List.mem_range.mp member) edge).mp listed).2
      omega
  · intro edge
    rw [keptEdges, List.mem_flatMap]
    constructor
    · rintro ⟨b, member, listed⟩
      have inside := List.mem_range.mp member
      obtain ⟨kept, place⟩ := (in_bucket b inside edge).mp listed
      exact ⟨kept, by omega⟩
    · rintro ⟨kept, after, before⟩
      have inside : fineBucket edgeBits (endpoints side edge) - first < groups := by omega
      exact ⟨_, List.mem_range.mpr inside,
        (in_bucket _ inside edge).mpr ⟨kept, (Nat.add_sub_cancel' after).symm⟩⟩

end Kept

/-! ## Starts of buckets -/

/-- The starts of buckets are the sums of the counts before them, in thirty-two bits. -/
theorem fine_offsets_spec (refusal : String) (first : Nat) (counts offsets : List Nat)
    (allocated : fineOffsets refusal first counts = .ok offsets) :
    (∀ b ≤ counts.length, offsets.getD b 0 = first + (counts.take b).sum) ∧
      offsets.length = counts.length + 1 ∧ (first ≤ maxU32 → first + counts.sum ≤ maxU32) := by
  induction counts generalizing first offsets with
  | nil =>
    obtain rfl := Except.ok.inj allocated
    refine ⟨fun b inside => ?_, rfl, id⟩
    rw [Nat.le_zero.mp inside]
    rfl
  | cons count rest ih =>
    rw [fineOffsets] at allocated
    split at allocated
    · cases allocated
    · rename_i small
      obtain ⟨later, rest_allocated, returned⟩ := (bind_ok_iff _ _ _).mp allocated
      obtain rfl := Except.ok.inj returned
      obtain ⟨starts, length, last⟩ := ih _ _ rest_allocated
      refine ⟨fun b inside => ?_, by rw [List.length_cons, length, List.length_cons], fun _ => ?_⟩
      · cases b with
        | zero => rfl
        | succ b =>
          rw [List.getD_cons_succ, starts b (Nat.le_of_succ_le_succ inside), List.take_succ_cons,
            List.sum_cons, Nat.add_assoc]
      · have bound := last (Nat.le_of_not_lt small)
        rw [List.sum_cons]
        omega

/-- The last of these is the sum of all counts. -/
theorem fine_offsets_last (refusal : String) (counts offsets : List Nat)
    (allocated : fineOffsets refusal 0 counts = .ok offsets) :
    offsets.getLastD 0 = counts.sum := by
  obtain ⟨starts, length, _⟩ := fine_offsets_spec _ _ _ _ allocated
  have last := starts counts.length (Nat.le_refl _)
  rw [List.take_length, Nat.zero_add, List.getD_eq_getElem?_getD] at last
  rw [List.getLastD_eq_getLast?, List.getLast?_eq_getElem?, length, Nat.add_sub_cancel, last]

/-- Counts whose sum has thirty-two bits have starts. -/
theorem fine_offsets_ok (refusal : String) (first : Nat) (counts : List Nat)
    (small : first + counts.sum ≤ maxU32) :
    ∃ offsets, fineOffsets refusal first counts = .ok offsets := by
  induction counts generalizing first with
  | nil => exact ⟨_, rfl⟩
  | cons count rest ih =>
    rw [List.sum_cons] at small
    obtain ⟨later, rest_allocated⟩ := ih (first + count) (by omega)
    refine ⟨first :: later, ?_⟩
    rw [fineOffsets, if_neg (by omega), rest_allocated]
    rfl

/-! ## Stores -/

/-- A store lies within the range of its bucket. -/
def Write.Inside (write : Write) : Prop := write.first ≤ write.index ∧ write.index < write.next

section Scatter

variable {bucketOf : Nat → Nat} {buckets size : Nat} {start room : Nat → Nat} {offsets : List Nat}

/-- The starts of some buckets are those of ranges of an arena with indices in thirty-two
    bits. -/
structure Starts (buckets size : Nat) (start room : Nat → Nat) (offsets : List Nat) : Prop where
  ranges : Ranges buckets size start room
  starts : ∀ b ≤ buckets, offsets.getD b 0 = start b
  small : size ≤ maxU32

/-- A slot for which its bucket has room is at that place of the range. -/
theorem Starts.slot_index (layout : Starts buckets size start room offsets) (b : Nat)
    (inside : b < buckets) (slot : Nat) (has_room : slot < room b) :
    slotIndex offsets b slot = start b + slot := by
  have within := layout.ranges.within b inside
  have small := layout.small
  rw [slotIndex, layout.starts b (Nat.le_of_lt inside)]
  exact Nat.mod_eq_of_lt (by rw [maxU32] at small; omega)

/-- Stores for which there is room stay within the ranges of their buckets. -/
theorem Starts.writes_inside (layout : Starts buckets size start room offsets)
    (stores : List (Nat × Nat))
    (with_room : ∀ store ∈ stores, bucketOf store.1 < buckets ∧ store.2 < room (bucketOf store.1)) :
    ∀ write ∈ writesOf bucketOf offsets stores, write.Inside := by
  intro write member
  obtain ⟨store, stored, rfl⟩ := List.mem_map.mp member
  obtain ⟨inside, has_room⟩ := with_room store stored
  have next := layout.ranges.next _ inside
  simp only [Write.Inside, layout.slot_index _ inside _ has_room,
    layout.starts _ (Nat.le_of_lt inside), layout.starts (bucketOf store.1 + 1) inside]
  omega

/-- Edges that are scattered into ranges with enough room fill the start of the range of
    their bucket. -/
theorem Starts.scatter_spec {storage : FineStorage}
    (layout : Starts buckets storage.arena.length start room storage.offsets) (edges : List Nat)
    (few : edges.length ≤ maxU32) (below : ∀ edge ∈ edges, bucketOf edge < buckets)
    (cleared : storage.cursors = List.replicate buckets 0)
    (enough : ∀ b < buckets, (bucket bucketOf edges b).length ≤ room b) :
    (storage.scatter bucketOf edges).1.arena.length = storage.arena.length ∧
      (∀ b < buckets, ((storage.scatter bucketOf edges).1.arena.drop (start b)).take
        (bucket bucketOf edges b).length = bucket bucketOf edges b) ∧
      ∀ write ∈ (storage.scatter bucketOf edges).2, write.Inside := by
  have fits : Fits bucketOf u32Modulus edges (List.replicate buckets 0) :=
    fits_of_length edges (Nat.lt_succ_of_le few)
  rw [FineStorage.scatter, cleared]
  refine ⟨place_length _ _, ?_, ?_⟩
  · intro b inside
    exact place_reserved layout.ranges edges fits below layout.slot_index enough _ rfl b inside
  · apply layout.writes_inside
    intro store member
    obtain ⟨listed, slot_inside⟩ := reserved_slot edges fits below store member
    have here := below store.1 listed
    exact ⟨here, Nat.lt_of_lt_of_le slot_inside (enough _ here)⟩

end Scatter

/-- Scattering two lists one after the other is scattering both. -/
theorem scatter_append (bucketOf : Nat → Nat) (left right : List Nat) (storage : FineStorage) :
    storage.scatter bucketOf (left ++ right) =
      (((storage.scatter bucketOf left).1.scatter bucketOf right).1,
        (storage.scatter bucketOf left).2 ++
          ((storage.scatter bucketOf left).1.scatter bucketOf right).2) := by
  simp only [FineStorage.scatter, reserved_append, tallies_append, place_append, writesOf,
    List.map_append]

/-! ## Arenas without gaps -/

/-- An arena of some bytes has their words, and at least one. -/
theorem arena_words (offsets : List Nat) (buckets entries : Nat) :
    (newStorage offsets buckets (arenaBytes entries)).arena.length = max entries 1 := by
  rw [newStorage, List.length_replicate, arenaBytes]
  omega

/-- Fewer edges do not need more bytes. -/
theorem arena_bytes_mono {fewer entries : Nat} (le : fewer ≤ entries) :
    arenaBytes fewer ≤ arenaBytes entries := by
  rw [arenaBytes, arenaBytes]
  omega

/-- An arena that is allocated for a round without gaps. -/
theorem allocate_fine_trim_storage_ok (limits : Limits) (gib : Nat → String) (counts : List Nat)
    (output : FineStorage) (survivorCount : Nat)
    (allocated : allocateFineTrimStorage limits gib counts = .ok (output, survivorCount)) :
    ∃ refusal offsets, fineOffsets refusal 0 counts = .ok offsets ∧ survivorCount = counts.sum ∧
      output = newStorage offsets fineBuckets (arenaBytes counts.sum) := by
  obtain ⟨offsets, started, rest⟩ := (bind_ok_iff _ _ _).mp allocated
  have last := fine_offsets_last _ _ _ started
  simp only [last] at rest
  split at rest
  · cases rest
  · cases rest
    exact ⟨_, offsets, started, rfl, rfl⟩

/-- Such an arena is allocated if the adapter can bind it. -/
theorem allocate_fine_trim_storage_returns (limits : Limits) (gib : Nat → String)
    (counts : List Nat) (small : counts.sum ≤ maxU32)
    (bindable : arenaBytes counts.sum ≤ limits.maxStorageBufferBindingSize) :
    ∃ allocated, allocateFineTrimStorage limits gib counts = .ok allocated := by
  obtain ⟨offsets, started⟩ := fine_offsets_ok "fine trim output exceeds u32 arena indexing" 0 counts
    (by rwa [Nat.zero_add])
  have last := fine_offsets_last _ _ _ started
  rw [allocateFineTrimStorage, bind_of_ok _ _ _ started]
  simp only [last]
  rw [if_neg (Nat.not_lt.mpr bindable)]
  exact ⟨_, rfl⟩

/-- An arena that is allocated for the sharded transition. -/
theorem allocate_fine_storage_ok (limits : Limits) (gib : Nat → String) (counts : List Nat)
    (output : FineStorage)
    (allocated : allocateFineStorage limits gib counts.sum counts = .ok output) :
    ∃ refusal offsets, fineOffsets refusal 0 counts = .ok offsets ∧
      output = newStorage offsets fineBuckets (arenaBytes counts.sum) := by
  obtain ⟨offsets, started, rest⟩ := (bind_ok_iff _ _ _).mp allocated
  simp only at rest
  split at rest
  · cases rest
  · cases rest
    exact ⟨_, offsets, started, rfl⟩

/-- Such an arena is allocated if the adapter can hold and bind it. -/
theorem allocate_fine_storage_returns (limits : Limits) (gib : Nat → String) (counts : List Nat)
    (small : counts.sum ≤ maxU32) (fits : arenaBytes counts.sum ≤ limits.maxBufferSize)
    (bindable : arenaBytes counts.sum ≤ limits.maxStorageBufferBindingSize) :
    ∃ output, allocateFineStorage limits gib counts.sum counts = .ok output := by
  obtain ⟨offsets, started⟩ := fine_offsets_ok "fine CSR offset exceeds the u32 arena index" 0 counts
    (by rwa [Nat.zero_add])
  rw [allocateFineStorage, bind_of_ok _ _ _ started]
  simp only
  rw [if_neg (by omega)]
  exact ⟨_, rfl⟩

/-- A shard that is allocated for a half of the buckets. -/
theorem allocate_fine_seed_shard_ok (limits : Limits) (gib : Nat → String) (counts : List Nat)
    (half : Nat) (shard : List Nat × FineStorage)
    (allocated : allocateFineSeedShard limits gib counts half = .ok shard) :
    ∃ refusal offsets, fineOffsets refusal 0 shard.1 = .ok offsets ∧
      shard.1 = (counts.drop (half * (fineBuckets / 2))).take (fineBuckets / 2) ∧
      shard.2 = newStorage offsets (fineBuckets / 2) (arenaBytes shard.1.sum) := by
  obtain ⟨offsets, started, rest⟩ := (bind_ok_iff _ _ _).mp allocated
  have last := fine_offsets_last _ _ _ started
  simp only [last] at rest
  split at rest
  · cases rest
  · cases rest
    exact ⟨_, offsets, started, rfl, rfl⟩

/-- Such a shard is allocated if the adapter can bind it. -/
theorem allocate_fine_seed_shard_returns (limits : Limits) (gib : Nat → String) (counts : List Nat)
    (half : Nat)
    (small : ((counts.drop (half * (fineBuckets / 2))).take (fineBuckets / 2)).sum ≤ maxU32)
    (bindable : arenaBytes ((counts.drop (half * (fineBuckets / 2))).take (fineBuckets / 2)).sum ≤
      limits.maxStorageBufferBindingSize) :
    ∃ shard, allocateFineSeedShard limits gib counts half = .ok shard := by
  obtain ⟨offsets, started⟩ := fine_offsets_ok "fine seed shard exceeds u32 indexing" 0
    ((counts.drop (half * (fineBuckets / 2))).take (fineBuckets / 2)) (by rwa [Nat.zero_add])
  have last := fine_offsets_last _ _ _ started
  rw [allocateFineSeedShard]
  simp only
  rw [bind_of_ok _ _ _ started, last, if_neg (Nat.not_lt.mpr bindable)]
  exact ⟨_, rfl⟩

/-- Edges were scattered into an arena without gaps: it has a word for each edge, the ranges
    of its buckets follow one another and start with the edges of their buckets, and no store
    has left its range. -/
structure Filled (bucketOf : Nat → Nat) (buckets : Nat) (edges : List Nat)
    (filled : FineStorage × List Write) : Prop where
  length : filled.1.arena.length = max edges.length 1
  starts : ∀ b ≤ buckets, filled.1.offsets.getD b 0 = offset bucketOf edges b
  ranges : Ranges buckets filled.1.arena.length (offset bucketOf edges)
    fun b => (bucket bucketOf edges b).length
  contents : ∀ b < buckets, (filled.1.arena.drop (offset bucketOf edges b)).take
    (bucket bucketOf edges b).length = bucket bucketOf edges b
  inside : ∀ write ∈ filled.2, write.Inside

/-- An arena that is allocated by the counters of some edges holds the edges after they were
    scattered. -/
theorem filled_spec {bucketOf : Nat → Nat} {buckets : Nat} (edges : List Nat)
    (few : edges.length ≤ maxU32) (below : ∀ edge ∈ edges, bucketOf edge < buckets)
    (refusal : String) (counts offsets : List Nat)
    (counted : counts = tallies bucketOf u32Modulus edges (List.replicate buckets 0))
    (allocated : fineOffsets refusal 0 counts = .ok offsets) :
    Filled bucketOf buckets edges
      ((newStorage offsets buckets (arenaBytes counts.sum)).clearCursors.scatter bucketOf edges) := by
  have short : edges.length < u32Modulus := Nat.lt_succ_of_le few
  have total : counts.sum = edges.length := by
    rw [counted, tallies_zero_sum edges short below]
  have words := arena_words offsets buckets counts.sum
  rw [total] at words
  have starts : ∀ b ≤ buckets, offsets.getD b 0 = offset bucketOf edges b := by
    intro b inside
    have length : b ≤ counts.length := by
      rwa [counted, tallies_length, List.length_replicate]
    rw [(fine_offsets_spec _ _ _ _ allocated).1 b length, Nat.zero_add, counted,
      tallies_zero_take edges short b inside]
  have layout : Starts buckets
      (newStorage offsets buckets (arenaBytes counts.sum)).clearCursors.arena.length
      (offset bucketOf edges) (fun b => (bucket bucketOf edges b).length)
      (newStorage offsets buckets (arenaBytes counts.sum)).clearCursors.offsets := by
    rw [FineStorage.clearCursors, total, words]
    refine ⟨segment_ranges edges below (Nat.le_max_left _ _), starts, ?_⟩
    rw [maxU32] at few ⊢
    omega
  have cleared : (newStorage offsets buckets (arenaBytes counts.sum)).clearCursors.cursors =
      List.replicate buckets 0 := by
    rw [FineStorage.clearCursors, newStorage, List.length_replicate]
  obtain ⟨length, contents, inside⟩ := layout.scatter_spec edges few below cleared
    fun b _ => Nat.le_refl _
  have kept_length : ((newStorage offsets buckets (arenaBytes counts.sum)).clearCursors.scatter
      bucketOf edges).1.arena.length = max edges.length 1 := by
    rw [length, FineStorage.clearCursors, total]
    exact words
  exact ⟨kept_length, starts, kept_length ▸ segment_ranges edges below (Nat.le_max_left _ _),
    contents, inside⟩

end CuckatooMiner.FineRound
